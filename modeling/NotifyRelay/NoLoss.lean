import NotifyRelay.Effects
import NotifyRelay.Refinement

/-! No message is lost: whatever a crash or the broker leaves behind, the row itself
says when `dispatch_scheduled` takes it up again. -/
namespace NotifyRelay

open Services Delivery Scheduler

/-- The time after which `dispatch_scheduled` selects the row, if nothing else
touches it. -/
def Message.wakeTime (m : Message) : Option Time :=
  match m.status with
  | .queued =>
      match m.enqueuedAt with
      | some enqueuedAt => some (enqueuedAt + reenqueueAfter)
      | none => m.scheduledAt
  | .sending => some (m.updatedAt + staleSendingAfter)
  | _ => none

/-- A queued row is either on its way to the broker or waits for its time. -/
def Message.awaited (m : Message) : Prop :=
  m.status = .queued → m.enqueuedAt ≠ none ∨ m.scheduledAt ≠ none

theorem awaited_newMessage (id : MessageId) (apiKey : Option ApiKeyId) (key : String)
    (data : MessageData) (version : TemplateVersion) (rendered : RenderedMessage)
    (context : JsonObject) (now clock : Time) :
    (newMessage id apiKey key data version rendered context now clock).awaited := by
  intro _
  cases hsend : sendNow data now with
  | true => simp [newMessage, hsend]
  | false =>
      obtain ⟨t, ht, _⟩ := sendNow_of_not_scheduled hsend
      simp [newMessage, ht]

theorem Lifecycle.Step.awaited {v w : Lifecycle} {a : System.Action} (h : Lifecycle.Step v a w)
    (hv : ∀ m ∈ v.messages.rows, m.awaited) : ∀ m ∈ w.messages.rows, m.awaited := by
  intro m hm
  cases h.row hm with
  | kept hold => exact hv m hold
  | inserted => exact awaited_newMessage _ _ _ _ _ _ _ _ _
  | released => exact fun _ => .inl (Option.some_ne_none _)
  | claimed => exact fun hqueued => by cases hqueued
  | finished _ _ _ _ hverdict =>
      intro hqueued
      cases hqueued
      cases Lifecycle.terminal_of_verdict hverdict

theorem awaited_of_reachable {s : System} {allowed : System → System.Action → Prop}
    (h : System.Reachable allowed s) {m : Message} (hm : m ∈ s.db.messages.rows) : m.awaited :=
  System.invariant_of_lifecycle Transition.anyStep
    (fun v => ∀ m ∈ v.messages.rows, m.awaited) (fun _ _ _ => trivial)
    (fun _ _ hm => by cases hm) (fun _ _ _ hinv _ hstep => hstep.awaited hinv) h m hm

theorem dispatchFilter_of_wakeTime {m : Message} {wake now : Time} (hwake : m.wakeTime = some wake)
    (hnow : wake < now) : dispatchFilter now m = true := by
  unfold Message.wakeTime at hwake
  split at hwake
  next hqueued =>
    split at hwake
    next enqueuedAt henqueued =>
      cases hwake
      have hstranded : stranded now m = true := by
        simp only [stranded, henqueued, Option.any_some, decide_eq_true_eq]
        exact Int.lt_sub_right_of_add_lt hnow
      simp [dispatchFilter, hstranded, hqueued]
    next henqueued =>
      have hdue : due now m = true := by
        simp only [due, henqueued, hwake, Option.any_some, Option.isNone_none, Bool.true_and,
          decide_eq_true_eq]
        exact Int.le_of_lt hnow
      simp [dispatchFilter, hdue, hqueued]
  next hsending =>
    cases hwake
    have hstale : stale now m = true := by
      simp only [stale, hsending, beq_self_eq_true, Bool.true_and, decide_eq_true_eq]
      exact Int.lt_sub_right_of_add_lt hnow
    simp [dispatchFilter, hstale]
  next => contradiction

theorem wakeTime_of_awaited {m : Message} (h : m.awaited) (hstatus : m.status.terminal = false) :
    ∃ wake, m.wakeTime = some wake := by
  unfold Message.wakeTime
  cases hm : m.status with
  | queued =>
      cases henqueued : m.enqueuedAt with
      | some enqueuedAt => exact ⟨_, rfl⟩
      | none =>
          rcases h hm with hne | hne
          · exact absurd henqueued hne
          · exact Option.ne_none_iff_exists'.mp hne
  | sending => exact ⟨_, rfl⟩
  | sent => simp [hm, MessageStatus.terminal] at hstatus
  | failed => simp [hm, MessageStatus.terminal] at hstatus
  | dead => simp [hm, MessageStatus.terminal] at hstatus

/-- After any crashes and losses, every message that has not reached its end is
selected from some time on, and that time is written in its row. -/
theorem selected_after_wakeTime {s : System} (h : System.Reachable Transition.anyStep s)
    {m : Message} (hm : m ∈ s.db.messages.rows) :
    (m.status.terminal = false →
      ∃ wake, m.wakeTime = some wake ∧ ∀ now, wake < now → dispatchFilter now m = true) ∧
    ¬(m.status = .queued ∧ m.enqueuedAt = none ∧ m.scheduledAt = none) := by
  have hawaited := awaited_of_reachable h hm
  constructor
  · intro hstatus
    obtain ⟨wake, hwake⟩ := wakeTime_of_awaited hawaited hstatus
    exact ⟨wake, hwake, fun now hnow => dispatchFilter_of_wakeTime hwake hnow⟩
  · rintro ⟨hqueued, henqueued, hscheduled⟩
    rcases hawaited hqueued with hne | hne
    · exact hne henqueued
    · exact hne hscheduled

/-- A row whose task was lost and whose worker died after the claim. -/
theorem selected_after_wakeTime_crashed :
    ∃ s, System.Reachable Transition.anyStep s ∧ ∃ m ∈ s.db.messages.rows,
      m.status.terminal = false ∧
        ∃ wake, m.wakeTime = some wake ∧ ∀ now, wake < now → dispatchFilter now m = true := by
  obtain ⟨s, hs, m, hm, hstatus⟩ := Transition.exists_of_runAll System.step
    Transition.anyStep (System.init 0)
    (System.opening ++ [.deliver System.firstTask, .run 0 .crash,
      .drop System.firstTask])
    (fun s => ∃ m ∈ s.db.messages.rows, m.status.terminal = false) (by decide +kernel)
  exact ⟨s, ⟨0, hs⟩, m, hm, hstatus, (selected_after_wakeTime ⟨0, hs⟩ hm).1 hstatus⟩

end NotifyRelay
