import NotifyRelay.History
import Mathlib.Algebra.Order.Group.Unbundled.Int
import Mathlib.Tactic.Linarith

/-! Publications of one message are at least `REENQUEUE_AFTER` apart. What is bounded
are the stamps sources write into `enqueued_at`; every stamp is published at most once. -/
namespace NotifyRelay

open Services Delivery Scheduler

/-- An `enqueued_at` that a call or a Beat job wrote. -/
structure Stamp where
  source : Source
  message : MessageId
  time : Time

def Event.stamp : Event → Option Stamp
  | .inserted c row => row.enqueuedAt.map fun time => ⟨.call c, row.id, time⟩
  | .released b id time => some ⟨.beat b, id, time⟩
  | _ => none

theorem stamp_newMessage (c : Nat) (id : MessageId) (apiKey : Option ApiKeyId) (key : String)
    (data : MessageData) (version : TemplateVersion) (rendered : RenderedMessage)
    (context : JsonObject) (now clock : Time) :
    (Event.inserted c (newMessage id apiKey key data version rendered context now clock)).stamp =
      if sendNow data now then some ⟨.call c, id, now⟩ else none := by
  by_cases hsend : sendNow data now = true <;> simp [Event.stamp, newMessage, hsend]

/-- The stamp a published task carries. -/
def Event.publication : Event → Option Stamp
  | .published source task time _ => some ⟨source, task.message, time⟩
  | _ => none

namespace Lifecycle

variable {v w : Lifecycle} {a : System.Action}

def stamps (v : Lifecycle) : List Stamp := v.log.filterMap Event.stamp

def publications (v : Lifecycle) : List Stamp := v.log.filterMap Event.publication

theorem publications_record_released (v : Lifecycle) (b : Nat) (batch : List Message)
    (now : Time) :
    (v.record (batch.map fun m => .released b m.id now)).publications = v.publications := by
  simp [publications, record, List.filterMap_map, Function.comp_def, Event.publication]

/-- A stamp of the step from `v` to `w`. -/
structure NewStamp (v w : Lifecycle) (p : Stamp) : Prop where
  unspent : v.spent p.source = false
  spent : w.spent p.source = true
  past : p.time ≤ v.clock
  selected : System.freshMessage v.log p.message = true ∨
    ∃ m ∈ v.messages.rows, m.id = p.message ∧ dispatchFilter p.time m = true
  written : ∀ m ∈ w.messages.rows, m.id = p.message → m.enqueuedAt = some p.time

private theorem written_of_insert {messages : MessageTable} {row : Message}
    (h : v.messages.insert? row = some messages) {m : Message} (hm : m ∈ messages.rows)
    (hid : m.id = row.id) : m = row :=
  messages.eq_of_key hm ((v.messages.mem_insert h).mpr (.inr rfl)) hid

private theorem written_of_release {batch : List Message} {now : Time} {m : Message}
    (hm : m ∈ (Scheduler.release v.messages batch now).rows) (hid : m.id ∈ batch.map Message.id) :
    m.enqueuedAt = some now := by
  obtain ⟨old, hold, rfl⟩ := (v.messages.mem_update).mp hm
  split at hid
  next hbatch => rw [if_pos hbatch]; rfl
  next hbatch => exact absurd (by simpa using hid) (by simpa using hbatch)

theorem Step.stamps (h : Step v a w) :
    ∃ new, w.stamps = new ++ v.stamps ∧ (new.map Stamp.message).Nodup ∧
      ∀ p ∈ new, NewStamp v w p := by
  have hquiet : w.stamps = v.stamps → ∃ new, w.stamps = new ++ v.stamps ∧
      (new.map Stamp.message).Nodup ∧ ∀ p ∈ new, NewStamp v w p := by
    intro heq
    exact ⟨[], heq, .nil, by simp⟩
  cases h with
  | insert c id apiKey key data version rendered context now postgres messages hspent hfresh hnow
      hinsert =>
      by_cases hsend : sendNow data now = true
      · refine ⟨[⟨.call c, id, now⟩], ?_, List.nodup_singleton _, fun p hp => ?_⟩
        · simp [stamps, record, setMessages, settled, stamp_newMessage, hsend]
        · rw [List.mem_singleton.mp hp]
          refine ⟨hspent, ?_, hnow, .inl hfresh, fun m hm hid => ?_⟩
          · exact (spent_settled v _ [] _).trans (if_pos rfl)
          · rw [written_of_insert hinsert hm hid]
            simp [newMessage, hsend]
      · refine hquiet ?_
        simp [stamps, record, setMessages, settled, stamp_newMessage, hsend]
  | release b now locked hspent hnow =>
      refine ⟨(dispatchBatch v.messages now locked).map fun m => ⟨.beat b, m.id, now⟩, ?_, ?_,
        fun p hp => ?_⟩
      · simp [stamps, record, setMessages, settled, List.filterMap_map, Function.comp_def,
          Event.stamp]
      · rw [List.map_map]
        exact dispatchBatch_nodup v.messages now locked
      · obtain ⟨m, hm, rfl⟩ := List.mem_map.mp hp
        obtain ⟨hrow, hfilter⟩ := mem_dispatchBatch hm
        refine ⟨hspent, ?_, hnow, .inr ⟨m, hrow, rfl, hfilter⟩, fun m' hm' hid => ?_⟩
        · exact (spent_settled v _ [] _).trans (if_pos rfl)
        · exact written_of_release hm' (List.mem_map.mpr ⟨m, hm, hid.symm⟩)
  | retry r run result text accepted hrun hpc hverdict => cases accepted <;> exact hquiet rfl
  | _ => exact hquiet rfl

theorem Step.spent_mono (h : Step v a w) {source : Source} (hspent : v.spent source = true) :
    w.spent source = true := by
  have hsettled : ∀ (other : Source) (rest : List (MessageId × Time)),
      (v.settled other rest).spent source = true := by
    intro other rest
    rw [spent_settled]
    split
    · rfl
    · exact hspent
  cases h with
  | settle => exact hsettled _ []
  | refuse => exact hsettled _ []
  | insert => exact hsettled _ []
  | release => exact hsettled _ []
  | publish => exact hsettled _ []
  | _ => exact hspent

/-- `rows` ties the stamps on record to the column; `sending` carries them over a
claim, after which the dispatcher looks at `updated_at` only. -/
structure Stamped (v : Lifecycle) : Prop where
  spaced : v.stamps.Pairwise fun later earlier =>
    later.message = earlier.message → earlier.time + reenqueueAfter < later.time
  rows : ∀ m ∈ v.messages.rows, ∀ p ∈ v.stamps, p.message = m.id →
    ∃ time, m.enqueuedAt = some time ∧ p.time ≤ time
  past : ∀ m ∈ v.messages.rows, ∀ time, m.enqueuedAt = some time → time ≤ v.clock
  sending : ∀ m ∈ v.messages.rows, m.status = .sending →
    ∀ time, m.enqueuedAt = some time → time ≤ m.updatedAt
  spent : ∀ p ∈ v.stamps, v.spent p.source = true

theorem stamped_init (clock : Time) : Stamped (init clock) := by
  constructor <;> simp [init, Table.empty, stamps]

theorem known_of_stamp (hhistory : History v) {p : Stamp} (hp : p ∈ v.stamps) :
    Known v.log p.message := by
  obtain ⟨event, hevent, hstamp⟩ := List.mem_filterMap.mp hp
  cases event with
  | inserted c row =>
      obtain ⟨time, _, rfl⟩ := Option.map_eq_some_iff.mp hstamp
      exact ⟨row, ⟨c, hevent⟩, rfl⟩
  | released b id time =>
      cases hstamp
      exact hhistory.released b id time hevent
  | _ => contradiction

/-- What the dispatcher selects was stamped long ago, if ever. -/
theorem Stamped.before_filter (h : Stamped v) {now : Time} {m : Message}
    (hm : m ∈ v.messages.rows) (hfilter : dispatchFilter now m = true) {p : Stamp}
    (hp : p ∈ v.stamps) (hid : p.message = m.id) : p.time + reenqueueAfter < now := by
  obtain ⟨time, htime, hle⟩ := h.rows m hm p hp hid
  have hlonger : reenqueueAfter ≤ staleSendingAfter := by decide
  simp only [dispatchFilter, due, stranded, stale, htime, Option.isNone_some, Bool.false_and,
    Bool.false_or, Option.any_some, Bool.or_eq_true, Bool.and_eq_true, beq_iff_eq,
    decide_eq_true_eq] at hfilter
  rcases hfilter with ⟨hstranded, _⟩ | ⟨hsending, hstale⟩
  · linarith
  · have hupdated := h.sending m hm hsending time htime
    linarith

theorem Stamped.step (h : Stamped v) (hhistory : History v) (hstep : Step v a w) : Stamped w := by
  obtain ⟨new, hstamps, hnodup, hnew⟩ := hstep.stamps
  have hfresh : ∀ {id : MessageId}, System.freshMessage v.log id = true →
      ∀ p ∈ v.stamps, p.message ≠ id := fun hfresh p hp hid =>
    not_known_of_fresh hfresh (hid ▸ known_of_stamp hhistory hp)
  constructor
  case spaced =>
    rw [hstamps]
    refine List.pairwise_append.mpr ⟨?_, h.spaced, fun p hp q hq hid => ?_⟩
    · refine (List.pairwise_map.mp hnodup).imp fun hne hid => absurd hid hne
    · rcases (hnew p hp).selected with hid' | ⟨m, hm, hkey, hfilter⟩
      · exact absurd hid.symm (hfresh hid' q hq)
      · exact h.before_filter hm hfilter hq (hid.symm.trans hkey.symm)
  case spent =>
    intro p hp
    rw [hstamps] at hp
    rcases List.mem_append.mp hp with hmem | hold
    · exact (hnew p hmem).spent
    · exact hstep.spent_mono (h.spent p hold)
  case rows =>
    intro m hm p hp hid
    rw [hstamps] at hp
    rcases List.mem_append.mp hp with hmem | hold
    · exact ⟨p.time, (hnew p hmem).written m hm hid.symm, Int.le_refl _⟩
    · cases hstep.row hm with
      | kept hrow => exact h.rows m hrow p hold hid
      | inserted hfreshId => exact absurd hid (hfresh hfreshId p hold)
      | released hrow hfilter =>
          refine ⟨_, rfl, ?_⟩
          have hbefore := h.before_filter hrow hfilter hold hid
          have hpositive : 0 < reenqueueAfter := by decide
          linarith
      | claimed _ hrow => exact h.rows _ hrow p hold hid
      | finished _ _ hrow => exact h.rows _ hrow p hold hid
  case past =>
    intro m hm time htime
    refine Int.le_trans ?_ hstep.clock_le
    cases hstep.row hm with
    | kept hrow => exact h.past m hrow time htime
    | inserted _ hnow =>
        simp only [newMessage] at htime
        split at htime
        · cases htime
          exact hnow
        · contradiction
    | released _ _ hnow =>
        cases htime
        exact hnow
    | claimed _ hrow => exact h.past _ hrow time htime
    | finished _ _ hrow => exact h.past _ hrow time htime
  case sending =>
    intro m hm hsending time htime
    cases hstep.row hm with
    | kept hrow => exact h.sending m hrow hsending time htime
    | inserted => cases hsending
    | released => cases hsending
    | claimed _ hrow => exact h.past _ hrow time htime
    | finished _ _ _ _ hverdict =>
        cases hsending
        cases terminal_of_verdict hverdict

/-- A stamp waits in `pending` until it is published, and leaves it for good. -/
structure PublishedOnce (v : Lifecycle) : Prop where
  stamped : ∀ p ∈ v.publications, p ∈ v.stamps
  pending : ∀ source, ∀ entry ∈ v.pending source,
    ⟨source, entry.1, entry.2⟩ ∈ v.stamps ∧ ⟨source, entry.1, entry.2⟩ ∉ v.publications
  distinct : ∀ source, (v.pending source).Nodup
  once : v.publications.Nodup

theorem publishedOnce_init (clock : Time) : PublishedOnce (init clock) := by
  constructor <;> simp [init, stamps, publications]

/-- A step that replaces what one source has pending and publishes nothing. -/
private theorem PublishedOnce.settled (h : PublishedOnce v) {source : Source}
    {rest : List (MessageId × Time)}
    (hpending : ∀ other, w.pending other = if other = source then rest else v.pending other)
    (hpublications : w.publications = v.publications) (hstamps : ∀ p ∈ v.stamps, p ∈ w.stamps)
    (hdistinct : rest.Nodup)
    (hrest : ∀ entry ∈ rest,
      ⟨source, entry.1, entry.2⟩ ∈ w.stamps ∧ ⟨source, entry.1, entry.2⟩ ∉ v.publications) :
    PublishedOnce w := by
  constructor
  case stamped => exact fun p hp => hstamps p (h.stamped p (hpublications ▸ hp))
  case once => exact hpublications ▸ h.once
  case distinct =>
    intro other
    rw [hpending]
    split
    · exact hdistinct
    · exact h.distinct other
  case pending =>
    intro other entry hentry
    rw [hpublications]
    rw [hpending] at hentry
    split at hentry
    next heq =>
      subst heq
      exact hrest entry hentry
    next =>
      obtain ⟨hmem, hnot⟩ := h.pending other entry hentry
      exact ⟨hstamps _ hmem, hnot⟩

private theorem not_published_of_unspent (h : PublishedOnce v) (hstamped : Stamped v)
    {source : Source} (hspent : v.spent source = false) (id : MessageId) (time : Time) :
    ⟨source, id, time⟩ ∉ v.publications := by
  intro hmem
  have hspent' := hstamped.spent _ (h.stamped _ hmem)
  rw [hspent] at hspent'
  contradiction

theorem PublishedOnce.step (h : PublishedOnce v) (hstamped : Stamped v) (hstep : Step v a w) :
    PublishedOnce w := by
  obtain ⟨new, hstamps, _, _⟩ := hstep.stamps
  have hkept : ∀ p ∈ v.stamps, p ∈ w.stamps := fun p hp =>
    hstamps ▸ List.mem_append_right new hp
  cases hstep with
  | settle => exact h.settled (pending_settled v _ _) rfl hkept .nil (by simp)
  | refuse => exact h.settled (pending_settled v _ _) rfl hkept .nil (by simp)
  | insert c id apiKey key data version rendered context now postgres messages hspent hfresh hnow
      hinsert =>
      refine h.settled (pending_settled v _ _) rfl hkept ?_ fun entry hentry => ?_
      · split
        · exact List.nodup_singleton _
        · exact .nil
      · refine ⟨?_, not_published_of_unspent h hstamped hspent _ _⟩
        split at hentry
        next hsend =>
          rw [List.mem_singleton.mp hentry]
          refine List.mem_filterMap.mpr ⟨_, List.mem_cons_self, ?_⟩
          rw [stamp_newMessage, if_pos hsend]
        next => contradiction
  | release b now locked hspent hnow =>
      refine h.settled (pending_settled v _ _) (publications_record_released _ b _ now) hkept ?_
        fun entry hentry => ?_
      · have hids := dispatchBatch_nodup v.messages now locked
        refine List.Nodup.of_map Prod.fst ?_
        rw [List.map_map]
        exact hids
      · refine ⟨?_, not_published_of_unspent h hstamped hspent _ _⟩
        obtain ⟨m, hm, rfl⟩ := List.mem_map.mp hentry
        exact List.mem_filterMap.mpr
          ⟨.released b m.id now, List.mem_append_left _ (List.mem_map.mpr ⟨m, hm, rfl⟩), rfl⟩
  | publish _ source message stamp rest id hsource hpending hfresh =>
      have hfirst := h.pending source (message.id, stamp) (hpending ▸ List.mem_cons_self)
      have hdistinct := hpending ▸ h.distinct source
      constructor
      case stamped =>
        intro p hp
        rcases List.mem_cons.mp hp with rfl | hold
        · exact hfirst.1
        · exact h.stamped p hold
      case once => exact List.nodup_cons.mpr ⟨hfirst.2, h.once⟩
      case distinct =>
        intro other
        refine (pending_settled v source rest other).symm ▸ ?_
        split
        · exact (List.nodup_cons.mp hdistinct).2
        · exact h.distinct other
      case pending =>
        intro other entry hentry
        replace hentry : entry ∈ (v.settled source rest).pending other := hentry
        rw [pending_settled] at hentry
        split at hentry
        next heq =>
          subst heq
          obtain ⟨hmem, hnot⟩ := h.pending other entry (hpending ▸ List.mem_cons_of_mem _ hentry)
          refine ⟨hmem, fun hpublished => ?_⟩
          rcases List.mem_cons.mp hpublished with hsame | hold
          · have heq : entry = (message.id, stamp) :=
              Prod.ext (congrArg Stamp.message hsame) (congrArg Stamp.time hsame)
            exact (List.nodup_cons.mp hdistinct).1 (heq ▸ hentry)
          · exact hnot hold
        next hne =>
          obtain ⟨hmem, hnot⟩ := h.pending other entry hentry
          refine ⟨hmem, fun hpublished => ?_⟩
          rcases List.mem_cons.mp hpublished with hsame | hold
          · exact hne (congrArg Stamp.source hsame)
          · exact hnot hold
  | retry r run result text accepted hrun hpc hverdict =>
      cases accepted <;> exact ⟨h.stamped, h.pending, h.distinct, h.once⟩
  | _ => exact ⟨h.stamped, h.pending, h.distinct, h.once⟩

/-- Two stamps of one message. -/
def Apart (p q : Stamp) : Prop :=
  p.message = q.message → reenqueueAfter < |p.time - q.time|

instance : Std.Symm Apart where
  symm p q h hid := by
    rw [abs_sub_comm]
    exact h hid.symm

theorem Stamped.apart (h : Stamped v) {p q : Stamp} (hp : p ∈ v.stamps) (hq : q ∈ v.stamps)
    (hne : p ≠ q) : Apart p q := by
  have hpairwise : v.stamps.Pairwise Apart := by
    refine h.spaced.imp fun {later earlier} hspaced hid => ?_
    exact lt_of_lt_of_le (by linarith [hspaced hid]) (le_abs_self _)
  exact hpairwise.forall hp hq hne

end Lifecycle

theorem System.publishing {allowed : System → System.Action → Prop} {s : System}
    (h : System.Reachable allowed s) :
    Lifecycle.Stamped s.view ∧ Lifecycle.PublishedOnce s.view :=
  (System.invariant_of_lifecycle Transition.anyStep
    (fun v => Lifecycle.History v ∧ Lifecycle.Stamped v ∧ Lifecycle.PublishedOnce v)
    (fun _ _ _ => trivial)
    (fun clock => ⟨Lifecycle.history_init clock, Lifecycle.stamped_init clock,
      Lifecycle.publishedOnce_init clock⟩)
    (fun _ _ _ hinv _ hstep => ⟨hinv.1.step hstep, hinv.2.1.step hinv.1 hstep,
      hinv.2.2.step hinv.2.1 hstep⟩) h).2

/-- Any two publications of tasks for one message, by calls and Beat jobs alike, carry
`enqueued_at` stamps more than `REENQUEUE_AFTER` apart. -/
theorem publications_apart {s : System} (h : System.Reachable Transition.anyStep s) :
    (s.log.filterMap Event.publication).Pairwise fun p q =>
      p.message = q.message → reenqueueAfter < |p.time - q.time| := by
  obtain ⟨hstamped, hpublished⟩ := System.publishing h
  refine List.Pairwise.imp_of_mem (fun hp hq hne => ?_) hpublished.once
  exact hstamped.apart (hpublished.stamped _ hp) (hpublished.stamped _ hq) hne

/-- Published by the call and, as the task was lost, by Beat sixteen minutes later. -/
theorem publications_apart_reenqueued :
    ∃ s p q, System.Reachable Transition.anyStep s ∧
      s.log.filterMap Event.publication = [p, q] ∧ p.message = q.message ∧
      reenqueueAfter < |p.time - q.time| := by
  have hs : System.Reachable Transition.anyStep _ := ⟨0, Transition.reaches_of_runAll
    (System.opening ++ [.drop System.firstTask, .tick 960000001, .beginBeat,
      .beat 0 (.select []), .beat 0 (.publish "T2" true)]) rfl⟩
  refine ⟨_, ⟨.beat 0, "M1", 960000001⟩, ⟨.call 0, "M1", 0⟩, hs, rfl, rfl, ?_⟩
  exact (List.pairwise_cons.mp (publications_apart hs)).1 _ (List.mem_singleton.mpr rfl) rfl

end NotifyRelay
