import NotifyRelay.Idempotency
import NotifyRelay.Views

/-! What leaves `render`, and what a POST answers when it fails. -/
namespace NotifyRelay

open Services MessageViewSet

namespace Renderer

variable (engine : Engine) (version : TemplateVersion) (context : JsonObject) (channel : Channel)

/-- `render` returns a message that fits or raises `RenderError`. -/
def FitsOrRaises : Prop :=
  (∃ rendered, render engine version context channel = .ok rendered ∧
    rendered.body.length + rendered.subject.length ≤ maxRenderedChars) ∨
  ∃ detail, render engine version context channel = .error (.renderError detail)

/-- A POST that comes to render this version, and fails, answers 422 and does nothing. -/
def FailureIs422 : Prop :=
  ∀ {Body : Type} (api : Api Body) (request : ApiRequest Body)
    (possible : Exchange Question Question.Reply → Prop)
    (trace : List (Exchange Question Question.Reply)) (args : CreateArgs) (db : Database)
    (now : Time) (id : MessageId) (brokerUp : Bool) (result : CreateResult)
    (failure : RenderFailure),
    Runs possible (screen api request) trace (.ok args) →
    findExisting db (some args.apiKey) args.idempotencyKey = none →
    resolveTemplate db args.data = .ok version →
    JsonObject.orEmpty args.data.context = context → args.data.channel = channel →
    render engine version context channel = .error failure →
    Runs possible (create api engine now id brokerUp db request) trace result →
    ∃ detail : String, failure = .renderError detail ∧ result =
      ⟨.ok (error "template_render_failed" s!"template render failed: {detail}" 422), db, []⟩

variable {engine version context channel}

theorem fitsOrRaises_iff :
    FitsOrRaises engine version context channel ↔
      overflows engine version context channel = false := by
  rw [← Bool.not_eq_true, ← render_recursionError]
  unfold FitsOrRaises
  cases hrender : render engine version context channel with
  | ok rendered => simp [(render_ok hrender).2.1]
  | error failure => cases failure <;> simp

theorem failureIs422_of_fitsOrRaises (h : FitsOrRaises engine version context channel) :
    FailureIs422 engine version context channel := by
  intro Body api request possible trace args db now id brokerUp result failure hscreen hnew
    hresolve hcontext hchannel hfails hrun
  obtain ⟨detail, rfl⟩ : ∃ detail, failure = .renderError detail := by
    rcases h with ⟨rendered, hok, -⟩ | ⟨detail, hraised⟩
    · rw [hok] at hfails
      contradiction
    · exact ⟨detail, Except.error.inj (hfails.symm.trans hraised)⟩
  obtain ⟨before, middle, after, rfl, hbefore, hafter⟩ := Runs.bind_iff.mp hrun
  have hdone : after = [] := by
    cases middle <;> exact (Runs.done_iff.mp hafter).1
  rw [hdone, List.append_nil] at hscreen
  cases hscreen.unique hbefore
  have hcreate : createMessage engine now id brokerUp db (some args.apiKey) args.idempotencyKey
      args.data = ⟨.error (.renderError detail), none, db, []⟩ := by
    unfold createMessage
    rw [hnew, resolveAndRender_of_resolved hresolve, hcontext, hchannel, hfails]
    rfl
  refine ⟨detail, rfl, ?_⟩
  rw [(Runs.done_iff.mp hafter).2, hcreate]
  rfl

end Renderer

open Renderer

/-- `render` has the two documented outcomes, and a POST answers its failures with 422,
unless `json.loads` is given more than it can nest. -/
theorem render_outcomes (engine : Engine) (version : TemplateVersion) (context : JsonObject)
    (channel : Channel) :
    FitsOrRaises engine version context channel ∧ FailureIs422 engine version context channel ↔
      Renderer.overflows engine version context channel = false :=
  ⟨fun h => fitsOrRaises_iff.mp h.1, fun h =>
    ⟨fitsOrRaises_iff.mpr h, failureIs422_of_fitsOrRaises (fitsOrRaises_iff.mpr h)⟩⟩

/-- A body of 100000 brackets where the interpreter allows 10000. -/
theorem render_outcomes_deep :
    ¬FitsOrRaises (deepEngine 10000 100000) deepVersion .empty .webhook := by
  have hoverflows := overflows_deepVersion (by decide : 10000 < 100000) (by decide) .empty
  rw [fitsOrRaises_iff, hoverflows]
  decide

end NotifyRelay
