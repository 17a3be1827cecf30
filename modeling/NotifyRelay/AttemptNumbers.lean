import NotifyRelay.History

/-! The numbers of a message's attempts. Counting and inserting are separate steps: a count
may be stale, and then the unique constraint stops the insert. -/
namespace NotifyRelay

open Services Delivery Scheduler

/-- The numbers of a message's attempts, in order of insertion. -/
def attemptNumbers (attempts : AttemptTable) (message : MessageId) : List Nat :=
  (attempts.rows.filter fun a => a.message == message).map DeliveryAttempt.attemptNo

theorem nextAttemptNo_eq (attempts : AttemptTable) (message : MessageId) :
    nextAttemptNo attempts message = (attemptNumbers attempts message).length + 1 := by
  simp [nextAttemptNo, attemptNumbers]

theorem attemptNumbers_insert {attempts attempts' : AttemptTable} {attempt : DeliveryAttempt}
    (h : attempts.insert? attempt = some attempts') (message : MessageId) :
    attemptNumbers attempts' message =
      attemptNumbers attempts message ++
        if attempt.message = message then [attempt.attemptNo] else [] := by
  unfold attemptNumbers
  rw [((attempts.insert?_eq_some).mp h).2, List.filter_append, List.map_append]
  by_cases hmessage : attempt.message = message <;> simp [hmessage]

/-- The unique constraint. -/
theorem not_mem_attemptNumbers {attempts attempts' : AttemptTable} {attempt : DeliveryAttempt}
    (h : attempts.insert? attempt = some attempts') :
    attempt.attemptNo ∉ attemptNumbers attempts attempt.message := by
  intro hmem
  obtain ⟨other, hother, hnumber⟩ := List.mem_map.mp hmem
  obtain ⟨hrow, hmessage⟩ := List.mem_filter.mp hother
  have hcompatible := ((attempts.insert?_eq_some).mp h).1 other hrow
  rw [beq_iff_eq] at hmessage
  exact hcompatible.1 (Prod.ext hmessage hnumber)

theorem attemptNumbers_delete (attempts : AttemptTable) (ids : List MessageId)
    (message : MessageId) :
    attemptNumbers (attempts.delete fun a => ids.contains a.message) message =
      if message ∈ ids then [] else attemptNumbers attempts message := by
  unfold attemptNumbers Table.delete
  rw [List.filter_filter]
  split
  next hmem =>
    rw [List.map_eq_nil_iff, List.filter_eq_nil_iff]
    intro a _ hboth
    simp only [Bool.and_eq_true, beq_iff_eq, Bool.not_eq_true', List.contains_eq_mem,
      decide_eq_false_iff_not] at hboth
    exact hboth.2 (hboth.1 ▸ hmem)
  next hmem =>
    refine congrArg _ (List.filter_congr fun a _ => ?_)
    by_cases hmessage : a.message = message <;> simp [hmessage, hmem]

/-- A number that is free and at most one too high is the next one. -/
theorem append_range' {numbers : List Nat} {n : Nat}
    (hnumbers : numbers = List.range' 1 numbers.length) (hfree : n ∉ numbers) (hpos : 1 ≤ n)
    (hle : n ≤ numbers.length + 1) : numbers ++ [n] = List.range' 1 (numbers ++ [n]).length := by
  have hnext : n = numbers.length + 1 := by
    by_contra hne
    refine hfree ?_
    rw [hnumbers, List.mem_range'_1]
    omega
  subst hnext
  rw [List.length_append, List.length_singleton, List.range'_concat, ← hnumbers]
  simp [Nat.add_comm]

namespace Lifecycle

/-- The attempts of every message are numbered without a gap, and no count that is still to
be used is too high. -/
structure Numbered (v : Lifecycle) : Prop where
  rows : ∀ id, attemptNumbers v.attempts id =
    List.range' 1 (attemptNumbers v.attempts id).length
  counted : ∀ (r : Nat) (run : DeliveryRun) (started finished : Time) (result : ChannelResult)
    (attemptNo : Nat), v.runs[r]? = some run →
    run.pc = .counted started finished result attemptNo →
    ∀ m ∈ v.messages.rows, m.id = run.message.id →
      1 ≤ attemptNo ∧ attemptNo ≤ (attemptNumbers v.attempts run.message.id).length + 1

variable {v w : Lifecycle} {a : System.Action}

theorem numbered_init (clock : Time) : Numbered (init clock) := by
  constructor <;> simp [init, Table.empty, attemptNumbers]

/-- No attempt of a message that is there is ever removed. -/
theorem Step.attempts_grow (h : Step v a w) {m : Message} (hm : m ∈ w.messages.rows) :
    (attemptNumbers v.attempts m.id).length ≤ (attemptNumbers w.attempts m.id).length := by
  generalize hattempts : w.attempts = attempts
  have hstep := h.attempts
  rw [hattempts] at hstep
  cases hstep with
  | same => exact Nat.le_refl _
  | inserted _ _ _ hinsert =>
      rw [attemptNumbers_insert hinsert, List.length_append]
      exact Nat.le_add_right _ _
  | deleted hgone =>
      rw [attemptNumbers_delete, if_neg (hgone m hm)]

theorem Numbered.step (h : Numbered v) (hhistory : History v) (hstep : Step v a w) :
    Numbered w := by
  constructor
  case rows =>
    intro id
    generalize hattempts : w.attempts = attempts
    have hchange := hstep.attempts
    rw [hattempts] at hchange
    cases hchange with
    | same => exact h.rows id
    | @inserted r run _ _ _ attemptNo _ hrun hpc hrow hinsert =>
        rw [attemptNumbers_insert hinsert]
        split
        next hid =>
          obtain ⟨m, hfind⟩ := Option.isSome_iff_exists.mp hrow
          obtain ⟨hm, hkey⟩ := v.messages.find?_eq_some.mp hfind
          obtain ⟨hpos, hle⟩ := h.counted r run _ _ _ _ hrun hpc m hm hkey
          have hfree := not_mem_attemptNumbers hinsert
          subst hid
          exact append_range' (h.rows _) hfree hpos hle
        next =>
          rw [List.append_nil]
          exact h.rows id
    | deleted =>
        rw [attemptNumbers_delete]
        split
        · rfl
        · exact h.rows id
  case counted =>
    intro r run started finished result attemptNo hrun hpc m hm hid
    cases hstep.run hrun with
    | kept hold =>
        obtain ⟨old, hmem, hkey⟩ := hstep.old_row hm (hid ▸ hhistory.known_run hold)
        obtain ⟨hpos, hle⟩ :=
          h.counted r run started finished result attemptNo hold hpc old hmem (hkey.trans hid)
        have hgrow := hstep.attempts_grow hm
        rw [hid] at hgrow
        exact ⟨hpos, hle.trans (Nat.add_le_add_right hgrow 1)⟩
    | claimed => cases hpc
    | moved hold hmove =>
        dsimp only at hpc
        subst hpc
        generalize DeliveryRun.pc _ = pc at hmove
        cases hmove
        obtain ⟨hnumber, hsame⟩ := hstep.counted hrun rfl
        rw [hnumber, hsame, nextAttemptNo_eq]
        exact ⟨Nat.le_add_left 1 _, Nat.le_refl _⟩

end Lifecycle

theorem System.numbered {allowed : System → System.Action → Prop} {s : System}
    (h : System.Reachable allowed s) : Lifecycle.Numbered s.view :=
  (System.invariant_of_lifecycle Transition.anyStep
    (fun v => Lifecycle.History v ∧ Lifecycle.Numbered v) (fun _ _ _ => trivial)
    (fun clock => ⟨Lifecycle.history_init clock, Lifecycle.numbered_init clock⟩)
    (fun _ _ _ hinv _ hstep => ⟨hinv.1.step hstep, hinv.2.step hinv.1 hstep⟩) h).2

/-- Whatever runs race for a number, the attempts of a message are numbered 1, 2, 3 and so on
in the order in which they were inserted. -/
theorem attempt_numbers_gapless {s : System} (h : System.Reachable Transition.anyStep s)
    (message : MessageId) :
    ∃ n, ((s.db.attempts.rows.filter fun a => a.message == message).map
      DeliveryAttempt.attemptNo) = List.range' 1 n :=
  ⟨_, (System.numbered h).rows message⟩

section Scenario

/-- Two runs of one task count before either of them inserts; the second one aborts. -/
def racingForNumber : List System.Action :=
  let failed : SendOutcome := .returned { success := false, transient := true }
  System.opening ++ [.deliver System.firstTask, .deliver System.firstTask,
    .run 0 .sendStart, .run 1 .sendStart, .run 0 (.sendEnd failed), .run 1 (.sendEnd failed),
    .run 0 .count, .run 1 .count, .run 0 .record, .run 1 .record, .deliver System.firstTask,
    .run 2 .sendStart, .run 2 (.sendEnd failed), .run 2 .count, .run 2 .record]

theorem attempt_numbers_gapless_racing :
    ∃ s m, System.Reachable Transition.anyStep s ∧ m ∈ s.db.messages.rows ∧
      s.db.attempts.rows.length = 2 ∧
      ∃ n, ((s.db.attempts.rows.filter fun a => a.message == m.id).map
        DeliveryAttempt.attemptNo) = List.range' 1 n := by
  obtain ⟨s, hs, m, hm, hlength⟩ := Transition.exists_of_runAll System.step Transition.anyStep
    (System.init 0) racingForNumber
    (fun s => ∃ m ∈ s.db.messages.rows, s.db.attempts.rows.length = 2) (by decide +kernel)
  exact ⟨s, m, ⟨0, hs⟩, hm, hlength, attempt_numbers_gapless ⟨0, hs⟩ m.id⟩

end Scenario

end NotifyRelay
