import NotifyRelay.Acceptance
import NotifyRelay.Library.JsonText

/-! Whether the body of an accepted webhook message is JSON: `render` checks it with Python's
decoder, which knows three constants more than RFC 8259. -/
namespace NotifyRelay

open Services

def jsonWords : List (List Char) := ["false".toList, "null".toList, "true".toList]

def decoderConstants : List (List Char) := ["NaN".toList, "Infinity".toList, "-Infinity".toList]

/-- A JSON text of the RFC 8259 grammar. -/
def Rfc8259 (text : String) : Prop := JsonText.Text jsonWords text.toList

/-- `json.loads` returns on texts of the decoder's grammar only. -/
def Documented (engine : Engine) : Prop :=
  ∀ text, engine.jsonLoads text = .value →
    JsonText.Text (jsonWords ++ decoderConstants) text.toList

/-- The letters that JSON has in strings only. -/
def constantLetter (c : Char) : Bool := c == 'N' || c == 'I'

/-- None of the three constants stands outside the string literals. -/
def NoBareConstant (text : String) : Prop := JsonText.Clean constantLetter text.toList

theorem marking_constantLetter :
    JsonText.Marking jsonWords decoderConstants constantLetter where
  plain := by simp [jsonWords, decoderConstants]
  words := by simp [jsonWords, constantLetter]
  extra := by simp [decoderConstants, constantLetter]
  other := by
    intro c h
    unfold constantLetter
    rw [Bool.or_eq_false_iff, beq_eq_false_iff_ne, beq_eq_false_iff_ne]
    constructor <;>
      · rintro rfl
        revert h
        decide

theorem rfc8259_iff {text : String}
    (h : JsonText.Text (jsonWords ++ decoderConstants) text.toList) :
    Rfc8259 text ↔ NoBareConstant text :=
  marking_constantLetter.text_iff h

namespace Renderer

/-- What is returned for a webhook is the text the body template gave, and it was decoded. -/
theorem render_webhook_ok {engine : Engine} {version : TemplateVersion} {context : JsonObject}
    {rendered : RenderOutcome} (h : render engine version context .webhook = .ok rendered) :
    engine.jinja false version.bodyTemplate context = .ok rendered.body ∧
      engine.jsonLoads rendered.body = .value := by
  obtain ⟨htexts, -, hcheck⟩ := render_ok h
  refine ⟨(renderTexts_ok htexts).1, ?_⟩
  unfold checkJson at hcheck
  rw [if_pos rfl] at hcheck
  split at hcheck
  next hloads => exact hloads
  next => contradiction
  next => contradiction

end Renderer

/-- The calls that render a webhook body meet Python's decoder, and Jinja2 gives them a text
without bare constants. -/
def plainBodies (s : System) : System.Action → Prop
  | .call c (.render engine) => Documented engine ∧
      ∀ (call : CreateCall) (version : TemplateVersion) (text : String),
        s.calls[c]? = some call → call.data.channel = .webhook →
          Resolved s.db call.data version →
            engine.jinja false version.bodyTemplate (JsonObject.orEmpty call.data.context) =
              .ok text → NoBareConstant text
  | _ => True

/-- A webhook row that a call inserted has a body of the RFC's grammar. -/
theorem rfc8259_of_inserted {s : System} (h : System.Reachable plainBodies s) {c : Nat}
    {row : Message} (hrow : .inserted c row ∈ s.log) (hchannel : row.channel = .webhook) :
    Rfc8259 row.renderedBody := by
  obtain ⟨call, version, rendered, postgres, context, id, now, clock, _, hbefore, _, rfl⟩ :=
    (System.rendering_of_reachable h).log c row hrow
  obtain ⟨u, engine, early, _, _, hallowed, hcall, hdata, hresolved, hrender⟩ := hbefore
  have hwebhook : call.data.channel = .webhook := hchannel
  rw [hwebhook] at hrender
  obtain ⟨hjinja, hloads⟩ := Renderer.render_webhook_ok hrender
  obtain ⟨hdocumented, hplain⟩ := hallowed
  rw [← hdata] at hwebhook hresolved hjinja
  exact (rfc8259_iff (hdocumented _ hloads)).mpr
    (hplain early version _ hcall hwebhook hresolved hjinja)

theorem rfc8259_of_frozen {s : System} (h : System.Reachable plainBodies s) {c : Nat}
    {row m : Message} (hrow : .inserted c row ∈ s.log) (hfrozen : row.frozen = m.frozen)
    (hchannel : m.channel = .webhook) : Rfc8259 m.renderedBody := by
  have hsame := congrArg Message.channel hfrozen
  have hbody := congrArg Message.renderedBody hfrozen
  change row.channel = m.channel at hsame
  change row.renderedBody = m.renderedBody at hbody
  rw [← hbody]
  exact rfc8259_of_inserted h hrow (hsame.trans hchannel)

/-- A body that `render` returns for a webhook is JSON if and only if Jinja2 put no bare
constant in it. -/
theorem rfc8259_render_iff {engine : Engine} (hdocumented : Documented engine)
    {version : TemplateVersion} {context : JsonObject} {text : String} {rendered : RenderOutcome}
    (hjinja : engine.jinja false version.bodyTemplate context = .ok text)
    (hrender : Renderer.render engine version context .webhook = .ok rendered) :
    Rfc8259 rendered.body ↔ NoBareConstant text := by
  obtain ⟨hbody, hloads⟩ := Renderer.render_webhook_ok hrender
  have htext := Except.ok.inj (hbody.symm.trans hjinja)
  rw [← htext]
  exact rfc8259_iff (hdocumented _ hloads)

/-- The condition of one rendering is exact; where all renderings of a run meet it, every stored
webhook body and every one a channel is given is JSON. -/
theorem webhook_bodies_are_json {engine : Engine} (hdocumented : Documented engine) {s : System}
    (h : System.Reachable plainBodies s) :
    (∀ version (context : JsonObject) text rendered,
      engine.jinja false version.bodyTemplate context = .ok text →
        Renderer.render engine version context .webhook = .ok rendered →
          (Rfc8259 rendered.body ↔ NoBareConstant text)) ∧
      (∀ row ∈ s.db.messages.rows, row.channel = .webhook → Rfc8259 row.renderedBody) ∧
      ∀ r m time, .sendInvoked r m time ∈ s.log → m.channel = .webhook →
        Rfc8259 m.renderedBody := by
  refine ⟨fun _ _ _ _ hjinja hrender => rfc8259_render_iff hdocumented hjinja hrender, ?_, ?_⟩
  · intro row hrow hchannel
    obtain ⟨inserted, ⟨c, hmem⟩, hfrozen⟩ := (System.history h).rows row hrow
    exact rfc8259_of_frozen h hmem hfrozen hchannel
  · intro r m time hsent hchannel
    obtain ⟨inserted, ⟨c, hmem⟩, hfrozen⟩ := (System.faithful_of_reachable h).sends r m time hsent
    exact rfc8259_of_frozen h hmem hfrozen hchannel

section Scenario

/-- Every template gives this text, which is the only one the decoder takes. -/
def decoding (text : String) : Engine where
  jinja _ _ _ := .ok text
  leaves _ _ context := context
  postgres := System.plainPostgres
  jsonLoads given := if given = text then .value else .valueError "Expecting value"

theorem documented_decoding {text : String}
    (h : JsonText.Text (jsonWords ++ decoderConstants) text.toList) :
    Documented (decoding text) := by
  intro given hloads
  unfold decoding at hloads
  dsimp only at hloads
  split at hloads
  next heq => exact heq ▸ h
  next => contradiction

theorem text_null : JsonText.Text (jsonWords ++ decoderConstants) "null".toList :=
  .bare (.word (by decide))

theorem text_infinity : JsonText.Text (jsonWords ++ decoderConstants) "[Infinity]".toList := by
  have hword : JsonText.Derives (jsonWords ++ decoderConstants) .value "Infinity".toList :=
    .word (by decide)
  exact .bare (.array (.lastElement hword.bare))

/-- All steps but the renderings. -/
def withoutRendering (_ : System) : System.Action → Prop
  | .call _ (.render _) => False
  | _ => True

instance (s : System) (a : System.Action) : Decidable (withoutRendering s a) := by
  unfold withoutRendering
  split <;> infer_instance

theorem plainBodies_of_withoutRendering (s : System) (a : System.Action)
    (h : withoutRendering s a) : plainBodies s a := by
  unfold plainBodies
  split
  next => exact h.elim
  next => trivial

theorem plainBodies_null (s : System) :
    plainBodies s (.call 0 (.render (decoding "null"))) := by
  refine ⟨documented_decoding text_null, ?_⟩
  rintro call version text _ _ _ ⟨⟩
  simp [NoBareConstant, JsonText.Clean, JsonText.outside, constantLetter]

def beforeRendering : List System.Action :=
  [.upsertTemplate ⟨"alert", .webhook, "", "null"⟩ 1 1,
    .begin (some 1) "key" { System.plainData none with
      channel := .webhook, recipient := "https://example.com", template := some "alert" },
    .call 0 .lookup]

theorem webhook_bodies_are_json_null :
    ∃ s row, System.Reachable plainBodies s ∧ row ∈ s.db.messages.rows ∧
      row.channel = .webhook ∧ Rfc8259 row.renderedBody := by
  have hbefore : System.Reaches withoutRendering (System.init 0) _ :=
    Transition.reaches_of_runAll beforeRendering rfl
  have hrendered : System.Reaches plainBodies (System.init 0) _ :=
    (hbefore.weaken plainBodies_of_withoutRendering).tail ⟨_, plainBodies_null _, rfl⟩
  have hs : System.Reachable plainBodies _ :=
    ⟨0, hrendered.trans (Transition.Reaches.weaken plainBodies_of_withoutRendering
      (Transition.reaches_of_runAll [.call 0 .readClock,
        .call 0 (.insert "M1" System.plainPostgres)] rfl))⟩
  exact ⟨_, _, hs, List.mem_cons_self, rfl,
    (webhook_bodies_are_json (documented_decoding text_null) hs).2.1 _ List.mem_cons_self rfl⟩

theorem infinity_accepted :
    ∃ (engine : Engine) (version : TemplateVersion) (rendered : RenderOutcome),
      Documented engine ∧ version.bodyTemplate = "[Infinity]" ∧
      Renderer.render engine version .empty .webhook = .ok rendered ∧
      ¬Rfc8259 rendered.body := by
  refine ⟨decoding "[Infinity]", ⟨1, 1, 1, "", "[Infinity]"⟩,
    ⟨⟨"", "[Infinity]"⟩, JsonObject.empty⟩, documented_decoding text_infinity, rfl, rfl, ?_⟩
  rw [rfc8259_iff text_infinity]
  intro hclean
  have hletter := hclean 'I' (by decide)
  contradiction

end Scenario

end NotifyRelay
