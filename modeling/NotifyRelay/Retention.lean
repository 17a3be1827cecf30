import NotifyRelay.Calls
import NotifyRelay.SingleRun

/-! `cleanup_old_messages`: what it deletes next to everything else that happens, how often it
goes round, and what it leaves when it is alone. -/
namespace NotifyRelay

open Services Delivery Scheduler

/-- How a row with this id came to be: it was there, or it is new. -/
theorem Lifecycle.Step.created {v w : Lifecycle} {a : System.Action} (h : Step v a w)
    {m : Message} (hm : m ∈ w.messages.rows) :
    (∃ old ∈ v.messages.rows, old.id = m.id ∧ old.createdAt = m.createdAt) ∨
      System.freshMessage v.log m.id = true ∧ m.createdAt = v.clock := by
  cases h.row hm with
  | kept hold => exact .inl ⟨m, hold, rfl, rfl⟩
  | inserted hfresh => exact .inr ⟨hfresh, rfl⟩
  | released hold => exact .inl ⟨_, hold, rfl, rfl⟩
  | claimed _ hold => exact .inl ⟨_, hold, rfl, rfl⟩
  | finished _ _ hold => exact .inl ⟨_, hold, rfl, rfl⟩

/-- The deadline of a job that goes on. -/
def CleanupPc.cutoff : CleanupPc → Option Time
  | .looping cutoff => some cutoff
  | .deleting cutoff _ => some cutoff
  | _ => none

namespace System

variable {s t : System} {a : Action}

private theorem stepCall_cleanups {c : Nat} {call : CreateCall} {action : CallAction}
    (h : CallStep s c call action t) : t.cleanups = s.cleanups := by
  cases h <;> rfl

/-- Only the job moves the job. -/
theorem cleanups_eq (h : step s a = some t) (hbegin : a ≠ .beginCleanup)
    (hcleanup : ∀ k action, a ≠ .cleanup k action) : t.cleanups = s.cleanups := by
  unfold step at h
  split at h
  case h_3 =>
    obtain ⟨_, _, hstep⟩ := Option.bind_eq_some_iff.mp h
    exact stepCall_cleanups (callStep_of_step hstep)
  case h_5 =>
    obtain ⟨_, _, hstep⟩ := Option.bind_eq_some_iff.mp h
    exact (stepBeat_frame hstep).2
  case h_6 => exact (stepDeliver_frame h).2
  case h_7 =>
    obtain ⟨_, _, hstep⟩ := Option.bind_eq_some_iff.mp h
    exact (stepRun_frame hstep).2
  case h_8 => split at h <;> cases h; rfl
  case h_9 => exact absurd rfl hbegin
  case h_10 k action => exact absurd rfl (hcleanup k action)
  case h_11 =>
    cases h
    split <;> rfl
  all_goals
    cases h
    rfl

/-- What the job's own step does with its place. -/
inductive CleanupStep (s : System) (k : Nat) : CleanupAction → CleanupPc → System → Prop
  | emptied (cutoff : Time) (hnone : cleanupBatch s.db.messages cutoff = []) :
      CleanupStep s k .select (.looping cutoff) (s.setCleanup k .returned)
  | selected (cutoff : Time) (hsome : cleanupBatch s.db.messages cutoff ≠ []) :
      CleanupStep s k .select (.looping cutoff)
        (s.setCleanup k (.deleting cutoff (cleanupBatch s.db.messages cutoff)))
  | deletedLast (cutoff : Time) (ids : List MessageId) (hlast : ids.length < cleanupBatchSize) :
      CleanupStep s k .delete (.deleting cutoff ids)
        ((s.setDb (deleteMessages s.db ids)).setCleanup k .returned)
  | deleted (cutoff : Time) (ids : List MessageId) (hfull : cleanupBatchSize ≤ ids.length) :
      CleanupStep s k .delete (.deleting cutoff ids)
        ((s.setDb (deleteMessages s.db ids)).setCleanup k (.looping cutoff))
  | crashed (pc : CleanupPc) (cutoff : Time) (hpc : pc.cutoff = some cutoff) :
      CleanupStep s k .crash pc (s.setCleanup k .crashed)

theorem cleanupStep_of_step {k : Nat} {action : CleanupAction}
    (h : step s (.cleanup k action) = some t) :
    ∃ pc, s.cleanups[k]? = some pc ∧ CleanupStep s k action pc t := by
  obtain ⟨pc, hpc, hstep⟩ := Option.bind_eq_some_iff.mp h
  refine ⟨pc, hpc, ?_⟩
  unfold stepCleanup at hstep
  split at hstep
  case h_1 cutoff =>
    split at hstep
    next hnone =>
      cases hstep
      exact .emptied cutoff hnone
    next hids =>
      cases hstep
      exact .selected cutoff hids
  case h_2 cutoff ids =>
    dsimp only at hstep
    split at hstep
    next hlast =>
      cases hstep
      exact .deletedLast cutoff ids hlast
    next hfull =>
      cases hstep
      exact .deleted cutoff ids (not_lt.mp hfull)
  case h_3 =>
    cases hstep
    exact .crashed _ _ rfl
  case h_4 =>
    cases hstep
    exact .crashed _ _ rfl
  case h_5 => contradiction

/-- The place of job `j` after a step. -/
theorem cleanup_cases (h : step s a = some t) (j : Nat) :
    (t.cleanups[j]? = s.cleanups[j]? ∧ ∀ action, a ≠ .cleanup j action) ∨
      s.cleanups[j]? = none ∧ t.cleanups[j]? = some (.looping (s.clock - cleanupAge)) ∨
      ∃ action pc, a = .cleanup j action ∧ s.cleanups[j]? = some pc ∧
        CleanupStep s j action pc t := by
  by_cases hbegin : a = .beginCleanup
  · subst hbegin
    cases h
    have hspawn := Pool.get_spawn s.cleanups (.looping (s.clock - cleanupAge)) j
    split at hspawn
    next heq => exact .inr (.inl ⟨heq ▸ Pool.get_next_eq_none _, hspawn⟩)
    next => exact .inl ⟨hspawn, fun _ => nofun⟩
  by_cases hcleanup : ∃ k action, a = .cleanup k action
  · obtain ⟨k, action, rfl⟩ := hcleanup
    obtain ⟨pc, hpc, hown⟩ := cleanupStep_of_step h
    by_cases hj : j = k
    · subst hj
      exact .inr (.inr ⟨action, pc, rfl, hpc, hown⟩)
    · refine .inl ⟨?_, fun _ heq => hj (Action.cleanup.inj heq).1.symm⟩
      cases hown <;> exact Pool.get_set_of_ne hpc _ hj
  · rw [not_exists] at hcleanup
    rw [cleanups_eq h hbegin fun k action heq => hcleanup k ⟨action, heq⟩]
    exact .inl ⟨rfl, fun action heq => hcleanup j ⟨action, heq⟩⟩

/-- Where job `k` may be, what it is about to delete, and that its deadline is past. -/
structure Cleaning (k : Nat) (cutoff : Time) (s : System) : Prop where
  reachable : Reachable Transition.anyStep s
  past : cutoff ≤ s.clock
  place : ∃ pc, s.cleanups[k]? = some pc ∧ ∀ time ∈ pc.cutoff, time = cutoff
  known : ∀ pc, s.cleanups[k]? = some pc → ∀ id ∈ pc.doomed, Known s.log id
  aged : ∀ pc, s.cleanups[k]? = some pc → ∀ m ∈ s.db.messages.rows, m.id ∈ pc.doomed →
    m.createdAt < cutoff

variable {k : Nat} {cutoff : Time}

theorem clock_le (hs : Reachable Transition.anyStep s) (h : step s a = some t) :
    s.clock ≤ t.clock := by
  rcases refined hs h with heq | hview
  · exact le_of_eq (congrArg Lifecycle.clock heq)
  · exact hview.clock_le

theorem log_subset (hs : Reachable Transition.anyStep s) (h : step s a = some t) :
    s.log ⊆ t.log := by
  rcases refined hs h with heq | hview
  · rw [show s.log = t.log from congrArg Lifecycle.log heq]
    exact List.Subset.refl _
  · exact hview.log_subset

theorem created (hs : Reachable Transition.anyStep s) (h : step s a = some t) {m : Message}
    (hm : m ∈ t.db.messages.rows) :
    (∃ old ∈ s.db.messages.rows, old.id = m.id ∧ old.createdAt = m.createdAt) ∨
      freshMessage s.log m.id = true ∧ m.createdAt = s.clock := by
  rcases refined hs h with heq | hview
  · have hmessages : s.db.messages = t.db.messages := congrArg Lifecycle.messages heq
    exact .inl ⟨m, hmessages ▸ hm, rfl, rfl⟩
  · exact hview.created hm

/-- What a job has read stays as old as it was, whatever happens to it. -/
theorem Cleaning.aged_step (h : Cleaning k cutoff s) (hstep : step s a = some t)
    {pc : CleanupPc} (hpc : s.cleanups[k]? = some pc) {m : Message}
    (hm : m ∈ t.db.messages.rows) (hid : m.id ∈ pc.doomed) : m.createdAt < cutoff := by
  rcases created h.reachable hstep hm with ⟨old, hold, hkey, htime⟩ | ⟨hfresh, -⟩
  · rw [← htime]
    exact h.aged pc hpc old hold (hkey ▸ hid)
  · exact absurd (h.known pc hpc m.id hid) (not_known_of_fresh hfresh)

theorem Cleaning.of_same (h : Cleaning k cutoff s) (hstep : step s a = some t)
    (hsame : t.cleanups[k]? = s.cleanups[k]?) : Cleaning k cutoff t where
  reachable := h.reachable.next hstep
  past := le_trans h.past (clock_le h.reachable hstep)
  place := hsame ▸ h.place
  known pc hpc id hid := (h.known pc (hsame ▸ hpc) id hid).mono (log_subset h.reachable hstep)
  aged _ hpc _ hm hid := h.aged_step hstep (hsame ▸ hpc) hm hid

/-- The job moves to a place where it dooms nothing new. -/
theorem Cleaning.of_quiet (h : Cleaning k cutoff s) (hstep : step s a = some t)
    {pc pc' : CleanupPc} (hpc : s.cleanups[k]? = some pc) (hset : t.cleanups = s.cleanups.set k pc')
    (hcutoff : ∀ time ∈ pc'.cutoff, time = cutoff) (hdoomed : pc'.doomed = []) :
    Cleaning k cutoff t := by
  have hplace : t.cleanups[k]? = some pc' := by rw [hset, Pool.get_set_self hpc]
  have hnone : ∀ other, t.cleanups[k]? = some other → other.doomed = [] := by
    intro other hother
    rw [hplace] at hother
    cases hother
    exact hdoomed
  exact
    { reachable := h.reachable.next hstep
      past := le_trans h.past (clock_le h.reachable hstep)
      place := ⟨pc', hplace, hcutoff⟩
      known := fun other hother id hid => by
        rw [hnone other hother] at hid
        contradiction
      aged := fun other hother m _ hid => by
        rw [hnone other hother] at hid
        contradiction }

theorem Cleaning.selected (h : Cleaning k cutoff s)
    (hstep : step s (.cleanup k .select) = some t) (hpc : s.cleanups[k]? = some (.looping cutoff))
    (ht : t = s.setCleanup k (.deleting cutoff (cleanupBatch s.db.messages cutoff))) :
    Cleaning k cutoff t := by
  have hplace : t.cleanups[k]? = some (.deleting cutoff (cleanupBatch s.db.messages cutoff)) := by
    rw [ht]
    exact Pool.get_set_self hpc _
  have hmessages : t.db.messages = s.db.messages := by rw [ht]; rfl
  refine ⟨h.reachable.next hstep, le_trans h.past (clock_le h.reachable hstep),
    ⟨_, hplace, fun time htime => (Option.some.inj htime).symm⟩, fun pc hother id hid => ?_,
    fun pc hother m hm hid => ?_⟩
  · cases hplace.symm.trans hother
    obtain ⟨m, hm, rfl, -⟩ := mem_cleanupBatch hid
    exact ((history h.reachable).known_row hm).mono (log_subset h.reachable hstep)
  · cases hplace.symm.trans hother
    obtain ⟨found, hfound, hkey, hfilter⟩ := mem_cleanupBatch hid
    rw [cleanupFilter, Bool.and_eq_true, decide_eq_true_eq] at hfilter
    rw [hmessages] at hm
    rw [s.db.messages.eq_of_key hm hfound hkey.symm]
    exact hfilter.2

theorem Cleaning.next (h : Cleaning k cutoff s) (hstep : step s a = some t) :
    Cleaning k cutoff t := by
  obtain ⟨place, hplace, hcutoff⟩ := h.place
  rcases cleanup_cases hstep k with ⟨hsame, -⟩ | ⟨hnone, -⟩ | ⟨action, pc, rfl, hpc, hown⟩
  · exact h.of_same hstep hsame
  · rw [hplace] at hnone
    contradiction
  · cases hplace.symm.trans hpc
    cases hown with
    | emptied time => exact h.of_quiet hstep hpc rfl (fun _ => nofun) rfl
    | selected time =>
        cases hcutoff time rfl
        exact h.selected hstep hpc rfl
    | deletedLast time ids => exact h.of_quiet hstep hpc rfl (fun _ => nofun) rfl
    | deleted time ids => exact h.of_quiet hstep hpc rfl hcutoff rfl
    | crashed => exact h.of_quiet hstep hpc rfl (fun _ => nofun) rfl

theorem Cleaning.reaches (h : Cleaning k cutoff s) (hst : Reaches Transition.anyStep s t) :
    Cleaning k cutoff t :=
  hst.invariant (Cleaning k cutoff) h fun _ _ _ hinv _ hstep => hinv.next hstep

def CutoffsPast (s : System) : Prop :=
  ∀ (k : Nat) (pc : CleanupPc), s.cleanups[k]? = some pc → ∀ time ∈ pc.cutoff, time ≤ s.clock

theorem CutoffsPast.next (h : CutoffsPast s) (hs : Reachable Transition.anyStep s)
    (hstep : step s a = some t) : CutoffsPast t := by
  intro k pc hpc time htime
  have hclock := clock_le hs hstep
  refine le_trans ?_ hclock
  rcases cleanup_cases hstep k with ⟨hsame, -⟩ | ⟨-, hbegun⟩ | ⟨action, old, rfl, hold, hown⟩
  · exact h k pc (hsame ▸ hpc) time htime
  · cases hbegun.symm.trans hpc
    cases htime
    exact Int.sub_le_self _ (by decide)
  · have hset : ∀ pc', t.cleanups = s.cleanups.set k pc' → pc' = pc := by
      intro pc' heq
      rw [heq, Pool.get_set_self hold] at hpc
      exact Option.some.inj hpc
    have hback : time ∈ old.cutoff := by
      cases hown with
      | emptied => cases hset _ rfl; cases htime
      | selected => cases hset _ rfl; exact htime
      | deletedLast => cases hset _ rfl; cases htime
      | deleted => cases hset _ rfl; exact htime
      | crashed => cases hset _ rfl; cases htime
    exact h k old hold time hback

theorem cutoffsPast (hs : Reachable Transition.anyStep s) : CutoffsPast s := by
  obtain ⟨clock, hreaches⟩ := hs
  refine hreaches.invariant_of (Reachable Transition.anyStep) CutoffsPast ⟨clock, .refl⟩
    (fun _ _ _ hinv _ hstep => hinv.next hstep) ?_ fun _ _ _ hinv hpast _ hstep =>
      hpast.next hinv hstep
  intro k pc hpc
  simp [init] at hpc

/-- A job that has just begun, or gone round. -/
theorem Cleaning.of_looping (hs : Reachable Transition.anyStep s)
    (hpc : s.cleanups[k]? = some (.looping cutoff)) : Cleaning k cutoff s where
  reachable := hs
  past := cutoffsPast hs k _ hpc cutoff rfl
  place := ⟨_, hpc, fun _ htime => (Option.some.inj htime).symm⟩
  known pc hother id hid := by
    cases hpc.symm.trans hother
    cases hid
  aged pc hother m _ hid := by
    cases hpc.symm.trans hother
    cases hid

/-- A job deletes nothing but terminal messages from before its deadline, with their attempts and
dead letters. -/
theorem Cleaning.kept (h : Cleaning k cutoff s) {action : CleanupAction}
    (hstep : step s (.cleanup k action) = some t) {m : Message} (hm : m ∈ s.db.messages.rows)
    (hkeep : ¬(m.status.terminal = true ∧ m.createdAt < cutoff)) :
    m ∈ t.db.messages.rows ∧
      (∀ attempt ∈ s.db.attempts.rows, attempt.message = m.id → attempt ∈ t.db.attempts.rows) ∧
      ∀ letter ∈ s.db.deadLetters.rows, letter.message = m.id →
        letter ∈ t.db.deadLetters.rows := by
  obtain ⟨pc, hpc, hown⟩ := cleanupStep_of_step hstep
  have hspared : m.id ∉ pc.doomed := fun hdoomed => hkeep
    ⟨(history h.reachable).terminal m hm
      (List.mem_flatMap.mpr ⟨pc, List.mem_of_getElem? hpc, hdoomed⟩),
      h.aged pc hpc m hm hdoomed⟩
  have hdelete : ∀ ids, m.id ∉ ids → m ∈ (deleteMessages s.db ids).messages.rows ∧
      (∀ attempt ∈ s.db.attempts.rows, attempt.message = m.id →
        attempt ∈ (deleteMessages s.db ids).attempts.rows) ∧
      ∀ letter ∈ s.db.deadLetters.rows, letter.message = m.id →
        letter ∈ (deleteMessages s.db ids).deadLetters.rows := by
    intro ids hids
    have hcontains : ids.contains m.id = false := by simpa using hids
    refine ⟨s.db.messages.mem_delete.mpr ⟨hm, hcontains⟩, fun attempt hattempt hid => ?_,
      fun letter hletter hid => ?_⟩
    · exact s.db.attempts.mem_delete.mpr ⟨hattempt, hid ▸ hcontains⟩
    · exact s.db.deadLetters.mem_delete.mpr ⟨hletter, hid ▸ hcontains⟩
  cases hown with
  | deletedLast _ ids => exact hdelete ids hspared
  | deleted _ ids => exact hdelete ids hspared
  | _ => exact ⟨hm, fun _ hattempt _ => hattempt, fun _ hletter _ => hletter⟩

/-- The messages from before a deadline, without some that are about to go. -/
def older (s : System) (cutoff : Time) (gone : List MessageId) : List MessageId :=
  (s.db.messages.rows.filter fun m => decide (m.createdAt < cutoff) && !gone.contains m.id).map
    Message.id

theorem mem_older {gone : List MessageId} {id : MessageId} :
    id ∈ s.older cutoff gone ↔
      ∃ m ∈ s.db.messages.rows, m.id = id ∧ m.createdAt < cutoff ∧ id ∉ gone := by
  constructor
  · intro h
    obtain ⟨m, hm, rfl⟩ := List.mem_map.mp h
    have hfilter := List.mem_filter.mp hm
    simp only [Bool.and_eq_true, decide_eq_true_eq, Bool.not_eq_true', List.contains_eq_mem,
      decide_eq_false_iff_not] at hfilter
    exact ⟨m, hfilter.1, rfl, hfilter.2⟩
  · rintro ⟨m, hm, rfl, htime, hgone⟩
    exact List.mem_map.mpr ⟨m, List.mem_filter.mpr ⟨hm, by simp [htime, hgone]⟩, rfl⟩

theorem older_nodup (s : System) (cutoff : Time) (gone : List MessageId) :
    (s.older cutoff gone).Nodup :=
  (List.pairwise_map.mpr (s.db.messages.compatible.imp fun h => h.1)).sublist
    (List.filter_sublist.map Message.id)

theorem length_older_le {gone gone' : List MessageId}
    (h : t.older cutoff gone ⊆ s.older cutoff gone') :
    (t.older cutoff gone).length ≤ (s.older cutoff gone').length :=
  (List.subperm_of_subset (t.older_nodup cutoff gone) h).length_le

/-- A message is no younger than the step that creates it. -/
theorem older_subset (hs : Reachable Transition.anyStep s) (hpast : cutoff ≤ s.clock)
    (hstep : step s a = some t) (gone : List MessageId) :
    t.older cutoff gone ⊆ s.older cutoff gone := by
  intro id hid
  obtain ⟨m, hm, rfl, htime, hgone⟩ := mem_older.mp hid
  rcases created hs hstep hm with ⟨old, hold, hkey, hsame⟩ | ⟨-, hnow⟩
  · exact mem_older.mpr ⟨old, hold, hkey, hsame ▸ htime, hgone⟩
  · rw [hnow] at htime
    exact absurd htime (not_lt.mpr hpast)

end System

/-- At most how often a job still reads. -/
def CleanupPc.rounds (s : System) : CleanupPc → Nat
  | .looping cutoff => (s.older cutoff []).length / cleanupBatchSize + 1
  | .deleting cutoff ids =>
      if ids.length < cleanupBatchSize then 0
      else (s.older cutoff ids).length / cleanupBatchSize + 1
  | _ => 0

namespace System

variable {s t : System} {a : Action} {k : Nat} {cutoff : Time}

def rounds (k : Nat) (s : System) : Nat := (s.cleanups[k]?.map (·.rounds s)).getD 0

/-- Job `k` reads a batch. -/
def selects (k : Nat) : Action → Bool
  | .cleanup j .select => j == k
  | _ => false

theorem rounds_eq {pc : CleanupPc} (h : s.cleanups[k]? = some pc) : s.rounds k = pc.rounds s := by
  rw [rounds, h]
  rfl

theorem cleanupBatch_nodup (messages : MessageTable) (cutoff : Time) :
    (cleanupBatch messages cutoff).Nodup := by
  have hrows : (messages.rows.map Message.id).Nodup :=
    List.pairwise_map.mpr (messages.compatible.imp fun h => h.1)
  have hfilter := hrows.sublist ((List.filter_sublist (l := messages.rows)
    (p := cleanupFilter cutoff)).map Message.id)
  have hsorted := ((List.perm_insertionSort (fun a b : Message => b.createdAt ≤ a.createdAt)
    _).map Message.id).nodup_iff.mpr hfilter
  exact hsorted.sublist ((List.take_sublist _ _).map _)

/-- A batch is so many messages fewer. -/
theorem length_older_batch (s : System) (cutoff : Time) :
    (cleanupBatch s.db.messages cutoff).length +
        (s.older cutoff (cleanupBatch s.db.messages cutoff)).length ≤
      (s.older cutoff []).length := by
  have hdisjoint : (cleanupBatch s.db.messages cutoff).Disjoint
      (s.older cutoff (cleanupBatch s.db.messages cutoff)) := by
    intro id hid holder
    obtain ⟨_, _, _, _, hgone⟩ := mem_older.mp holder
    exact hgone hid
  have hnodup := (cleanupBatch_nodup s.db.messages cutoff).append
    (s.older_nodup cutoff (cleanupBatch s.db.messages cutoff)) hdisjoint
  rw [← List.length_append]
  refine (List.subperm_of_subset hnodup fun id hid => ?_).length_le
  rcases List.mem_append.mp hid with hbatch | holder
  · obtain ⟨m, hm, hkey, hfilter⟩ := mem_cleanupBatch hbatch
    rw [cleanupFilter, Bool.and_eq_true, decide_eq_true_eq] at hfilter
    exact mem_older.mpr ⟨m, hm, hkey, hfilter.2, List.not_mem_nil⟩
  · obtain ⟨m, hm, hkey, htime, -⟩ := mem_older.mp holder
    exact mem_older.mpr ⟨m, hm, hkey, htime, List.not_mem_nil⟩

/-- Nothing that others do makes the job go on longer. -/
theorem rounds_le (hs : Reachable Transition.anyStep s) (hstep : step s a = some t)
    {pc : CleanupPc} (hpast : ∀ time ∈ pc.cutoff, time ≤ s.clock) : pc.rounds t ≤ pc.rounds s := by
  cases pc with
  | looping time =>
      have hlength := length_older_le (older_subset hs (hpast time rfl) hstep [])
      exact Nat.add_le_add_right (Nat.div_le_div_right hlength) 1
  | deleting time ids =>
      have hlength := length_older_le (older_subset hs (hpast time rfl) hstep ids)
      simp only [CleanupPc.rounds]
      split
      next => exact Nat.le_refl 0
      next => exact Nat.add_le_add_right (Nat.div_le_div_right hlength) 1
  | returned => exact le_rfl
  | crashed => exact le_rfl

theorem CleanupStep.rounds {action : CleanupAction} {pc : CleanupPc}
    (h : CleanupStep s k action pc t) (hpc : s.cleanups[k]? = some pc) :
    (if selects k (.cleanup k action) then 1 else 0) + t.rounds k ≤ pc.rounds s := by
  have hset : ∀ pc' : CleanupPc, (s.cleanups.set k pc')[k]? = some pc' := fun pc' => by
    rw [Pool.get_set_self hpc]
  cases h with
  | emptied time =>
      rw [rounds_eq (hset _)]
      simp [selects, CleanupPc.rounds]
  | selected time =>
      rw [rounds_eq (hset _)]
      simp only [selects, beq_self_eq_true, if_true, CleanupPc.rounds]
      split
      next => exact Nat.le_add_left 1 _
      next hfull =>
        have hbatch := s.length_older_batch time
        have hdiv : (s.older time (cleanupBatch s.db.messages time)).length / cleanupBatchSize + 1 ≤
            (s.older time []).length / cleanupBatchSize := by
          rw [← Nat.add_div_right _ (by decide)]
          exact Nat.div_le_div_right (by omega)
        exact (Nat.add_comm _ _).trans_le (Nat.add_le_add_right hdiv 1)
  | deletedLast time ids =>
      rw [rounds_eq (hset _)]
      simp [selects, CleanupPc.rounds]
  | deleted time ids hfull =>
      rw [rounds_eq (hset _)]
      have hsubset : ((s.setDb (deleteMessages s.db ids)).setCleanup k (.looping time)).older
          time [] ⊆ s.older time ids := by
        intro id hid
        obtain ⟨m, hm, rfl, htime, -⟩ := mem_older.mp hid
        obtain ⟨hrow, hkept⟩ := s.db.messages.mem_delete.mp hm
        exact mem_older.mpr ⟨m, hrow, rfl, htime, by simpa using hkept⟩
      simp only [selects, Bool.false_eq_true, if_false, Nat.zero_add, CleanupPc.rounds,
        if_neg (not_lt.mpr hfull)]
      exact Nat.add_le_add_right (Nat.div_le_div_right (length_older_le hsubset)) 1
  | crashed =>
      rw [rounds_eq (hset _)]
      simp [selects, CleanupPc.rounds]

theorem Cleaning.rounds_step (h : Cleaning k cutoff s) (hstep : step s a = some t) :
    (if selects k a then 1 else 0) + t.rounds k ≤ s.rounds k := by
  obtain ⟨place, hplace, hcutoff⟩ := h.place
  rw [rounds_eq hplace]
  rcases cleanup_cases hstep k with ⟨hsame, hother⟩ | ⟨hnone, -⟩ | ⟨action, pc, rfl, hpc, hown⟩
  · have hselects : selects k a = false := by
      unfold selects
      split
      next j =>
        rw [beq_eq_false_iff_ne]
        rintro rfl
        exact hother .select rfl
      next => rfl
    rw [hselects, rounds_eq (hsame.trans hplace)]
    simpa using rounds_le h.reachable hstep fun time htime => hcutoff time htime ▸ h.past
  · rw [hplace] at hnone
    contradiction
  · cases hplace.symm.trans hpc
    exact hown.rounds hpc

theorem Cleaning.selects_le (h : Cleaning k cutoff s) {actions : List Action}
    (hpath : Transition.Path (Transition.graph step) s actions t) :
    actions.countP (selects k) ≤ s.rounds k := by
  have hcount := hpath.countP_le (selects k) (rounds k) (Cleaning k cutoff) h
    fun _ _ _ hinv hstep => ⟨hinv.next hstep, hinv.rounds_step hstep⟩
  omega

/-- The job's own steps, with no crash. -/
def Alone (k : Nat) (_ : System) (a : Action) : Prop :=
  a = .cleanup k .select ∨ a = .cleanup k .delete

/-- Nothing keeps a job from going on. -/
theorem exists_step {pc : CleanupPc} (hpc : s.cleanups[k]? = some pc)
    (hcutoff : pc.cutoff = some cutoff) : ∃ a t, Alone k s a ∧ step s a = some t := by
  have hown : ∀ action, step s (.cleanup k action) = s.stepCleanup k action pc := fun action => by
    rw [step, hpc, Option.bind_some]
  cases pc with
  | looping time =>
      have hselect := hown .select
      unfold stepCleanup at hselect
      dsimp only at hselect
      split at hselect <;> exact ⟨_, _, .inl rfl, hselect⟩
  | deleting time ids =>
      have hdelete := hown .delete
      unfold stepCleanup at hdelete
      dsimp only at hdelete
      split at hdelete <;> exact ⟨_, _, .inr rfl, hdelete⟩
  | returned => contradiction
  | crashed => contradiction

theorem exists_select (hpc : s.cleanups[k]? = some (.looping cutoff)) :
    ∃ t, Reaches (Alone k) s t ∧ (t.cleanups[k]? = some .returned ∨
      (∃ ids, t.cleanups[k]? = some (.deleting cutoff ids)) ∧ t.rounds k < s.rounds k) := by
  obtain ⟨a, t, ha, hstep⟩ := exists_step hpc rfl
  have hreach : Reaches (Alone k) s t := .single ⟨a, ha, hstep⟩
  rcases ha with rfl | rfl
  · obtain ⟨pc, hold, hown⟩ := cleanupStep_of_step hstep
    cases hpc.symm.trans hold
    have hcount := hown.rounds hpc
    rw [selects, beq_self_eq_true, if_pos rfl, ← rounds_eq hpc] at hcount
    refine ⟨t, hreach, ?_⟩
    cases hown with
    | emptied => exact .inl (Pool.get_set_self hpc _)
    | selected =>
        exact .inr ⟨⟨_, Pool.get_set_self hpc _⟩, by omega⟩
  · obtain ⟨pc, hold, hown⟩ := cleanupStep_of_step hstep
    cases hpc.symm.trans hold
    cases hown

theorem exists_delete {ids : List MessageId}
    (hpc : s.cleanups[k]? = some (.deleting cutoff ids)) :
    ∃ t, Reaches (Alone k) s t ∧ t.rounds k ≤ s.rounds k ∧
      (t.cleanups[k]? = some .returned ∨ t.cleanups[k]? = some (.looping cutoff)) := by
  obtain ⟨a, t, ha, hstep⟩ := exists_step hpc rfl
  have hreach : Reaches (Alone k) s t := .single ⟨a, ha, hstep⟩
  rcases ha with rfl | rfl
  · obtain ⟨pc, hold, hown⟩ := cleanupStep_of_step hstep
    cases hpc.symm.trans hold
    cases hown
  · obtain ⟨pc, hold, hown⟩ := cleanupStep_of_step hstep
    cases hpc.symm.trans hold
    have hcount := hown.rounds hpc
    rw [← rounds_eq hpc] at hcount
    refine ⟨t, hreach, by omega, ?_⟩
    cases hown with
    | deletedLast => exact .inl (Pool.get_set_self hpc _)
    | deleted => exact .inr (Pool.get_set_self hpc _)

/-- Alone, the job comes to its end. -/
theorem exists_returned (n : Nat) (hpc : s.cleanups[k]? = some (.looping cutoff))
    (hn : s.rounds k ≤ n) :
    ∃ t, Reaches (Alone k) s t ∧ t.cleanups[k]? = some .returned := by
  induction n generalizing s with
  | zero =>
      rw [rounds_eq hpc] at hn
      exact absurd hn (Nat.not_succ_le_zero _)
  | succ n ih =>
      obtain ⟨t, ht, hreturned | ⟨⟨ids, hids⟩, hless⟩⟩ := exists_select hpc
      · exact ⟨t, ht, hreturned⟩
      · obtain ⟨u, hu, hle, hreturned | hlooping⟩ := exists_delete hids
        · exact ⟨u, ht.trans hu, hreturned⟩
        · obtain ⟨w, hw, hreturned⟩ := ih hlooping (by omega)
          exact ⟨w, (ht.trans hu).trans hw, hreturned⟩

/-- The messages a cleanup is for. -/
def expired (s : System) (cutoff : Time) : List MessageId :=
  (s.db.messages.rows.filter (cleanupFilter cutoff)).map Message.id

/-- `s` after job `k` has deleted these messages. -/
def without (s : System) (k : Nat) (gone : List MessageId) (pc : CleanupPc) : System :=
  { s with db := deleteMessages s.db gone, cleanups := s.cleanups.set k pc }

/-- How far the job is when nothing else happens. -/
inductive Progress (s : System) (k : Nat) (cutoff : Time) (gone : List MessageId) :
    CleanupPc → Prop where
  | looping : Progress s k cutoff gone (.looping cutoff)
  | deleting : Progress s k cutoff gone
      (.deleting cutoff (cleanupBatch (deleteMessages s.db gone).messages cutoff))
  | returned (hall : s.expired cutoff ⊆ gone) : Progress s k cutoff gone .returned

theorem deleteMessages_append (db : Database) (before after : List MessageId) :
    deleteMessages (deleteMessages db before) after = deleteMessages db (before ++ after) := by
  unfold deleteMessages
  simp only [Table.delete_delete, List.contains_append]

theorem deleteMessages_nil (db : Database) : deleteMessages db [] = db := by
  simp [deleteMessages, Table.delete]

/-- The deletions depend on the set of ids only. -/
theorem deleteMessages_congr (db : Database) {before after : List MessageId}
    (h : ∀ id, id ∈ before ↔ id ∈ after) : deleteMessages db before = deleteMessages db after := by
  have hcontains : before.contains = after.contains := by
    funext id
    rw [Bool.eq_iff_iff, List.contains_iff_mem, List.contains_iff_mem, h]
  unfold deleteMessages
  rw [hcontains]

/-- A batch that is not full has everything. -/
theorem mem_cleanupBatch_of_short {messages : MessageTable}
    (hshort : (cleanupBatch messages cutoff).length < cleanupBatchSize) {m : Message}
    (hm : m ∈ messages.rows) (hfilter : cleanupFilter cutoff m = true) :
    m.id ∈ cleanupBatch messages cutoff := by
  unfold cleanupBatch at hshort ⊢
  rw [List.length_map, List.length_take] at hshort
  rw [List.take_of_length_le (by omega)]
  refine List.mem_map.mpr ⟨m, ?_, rfl⟩
  rw [List.mem_insertionSort, List.mem_filter]
  exact ⟨hm, hfilter⟩

theorem mem_expired {id : MessageId} :
    id ∈ s.expired cutoff ↔
      ∃ m ∈ s.db.messages.rows, cleanupFilter cutoff m = true ∧ m.id = id := by
  simp [expired, and_assoc]

variable {gone : List MessageId} {pc : CleanupPc}

/-- A batch that is not full takes what is left. -/
theorem expired_subset_of_short
    (hshort : (cleanupBatch (deleteMessages s.db gone).messages cutoff).length <
      cleanupBatchSize) :
    s.expired cutoff ⊆ gone ++ cleanupBatch (deleteMessages s.db gone).messages cutoff := by
  intro id hid
  obtain ⟨m, hm, hfilter, rfl⟩ := mem_expired.mp hid
  rw [List.mem_append]
  by_cases hmem : m.id ∈ gone
  · exact .inl hmem
  · refine .inr (mem_cleanupBatch_of_short hshort ?_ hfilter)
    exact s.db.messages.mem_delete.mpr ⟨hm, by simpa using hmem⟩

theorem batch_subset_expired :
    cleanupBatch (deleteMessages s.db gone).messages cutoff ⊆ s.expired cutoff := by
  intro id hid
  obtain ⟨m, hm, hkey, hfilter⟩ := mem_cleanupBatch hid
  exact mem_expired.mpr ⟨m, (s.db.messages.mem_delete.mp hm).1, hfilter, hkey⟩

theorem setCleanup_without (pc' : CleanupPc) :
    (s.without k gone pc).setCleanup k pc' = s.without k gone pc' := by
  simp [without, setCleanup]

theorem setDb_without (ids : List MessageId) (pc' : CleanupPc) :
    ((s.without k gone pc).setDb (deleteMessages (s.without k gone pc).db ids)).setCleanup k pc' =
      s.without k (gone ++ ids) pc' := by
  simp [without, setCleanup, setDb, deleteMessages_append]

/-- One step of the job alone. -/
theorem Progress.next (h : Progress s k cutoff gone pc) (hgone : gone ⊆ s.expired cutoff)
    {old : CleanupPc} (hold : s.cleanups[k]? = some old) {action : CleanupAction}
    (hstep : step (s.without k gone pc) (.cleanup k action) = some t) (haction : action ≠ .crash) :
    ∃ gone' pc', t = s.without k gone' pc' ∧ Progress s k cutoff gone' pc' ∧
      gone' ⊆ s.expired cutoff := by
  have hplace : (s.without k gone pc).cleanups[k]? = some pc :=
    Pool.get_set_self hold pc
  obtain ⟨found, hfound, hown⟩ := cleanupStep_of_step hstep
  cases hplace.symm.trans hfound
  have hboth : gone ++ cleanupBatch (deleteMessages s.db gone).messages cutoff ⊆
      s.expired cutoff := List.append_subset.mpr ⟨hgone, batch_subset_expired⟩
  cases hown with
  | emptied time hnone =>
      cases h
      refine ⟨gone, .returned, setCleanup_without _, .returned ?_, hgone⟩
      have hempty : cleanupBatch (deleteMessages s.db gone).messages cutoff = [] := hnone
      have hshort : (cleanupBatch (deleteMessages s.db gone).messages cutoff).length <
          cleanupBatchSize := by
        rw [hempty]
        decide
      have hall := expired_subset_of_short hshort
      rwa [hempty, List.append_nil] at hall
  | selected time hsome =>
      cases h
      exact ⟨gone, _, setCleanup_without _, .deleting, hgone⟩
  | deletedLast time ids hlast =>
      cases h
      exact ⟨_, .returned, setDb_without _ _, .returned (expired_subset_of_short hlast), hboth⟩
  | deleted time ids hfull =>
      cases h
      exact ⟨_, .looping cutoff, setDb_without _ _, .looping, hboth⟩
  | crashed => exact absurd rfl haction

theorem progress_of_alone (hpc : s.cleanups[k]? = some (.looping cutoff))
    (hst : Reaches (Alone k) s t) :
    ∃ gone pc, t = s.without k gone pc ∧ Progress s k cutoff gone pc ∧
      gone ⊆ s.expired cutoff := by
  refine hst.invariant (fun t => ∃ gone pc, t = s.without k gone pc ∧
    Progress s k cutoff gone pc ∧ gone ⊆ s.expired cutoff) ?_ ?_
  · refine ⟨[], .looping cutoff, ?_, .looping, List.nil_subset _⟩
    obtain ⟨hk, hget⟩ := List.getElem?_eq_some_iff.mp hpc
    rw [without, deleteMessages_nil, ← hget, List.set_getElem_self]
  · rintro _ a u ⟨gone, pc, rfl, hprogress, hgone⟩ ha hstep
    rcases ha with rfl | rfl
    · exact hprogress.next hgone hpc hstep nofun
    · exact hprogress.next hgone hpc hstep nofun

/-- Alone, the job deletes exactly the terminal messages from before its deadline. -/
theorem eq_of_returned (hpc : s.cleanups[k]? = some (.looping cutoff))
    (hst : Reaches (Alone k) s t) (hreturned : t.cleanups[k]? = some .returned) :
    t = s.without k (s.expired cutoff) .returned := by
  obtain ⟨gone, pc, rfl, hprogress, hgone⟩ := progress_of_alone hpc hst
  have hplace : (s.without k gone pc).cleanups[k]? = some pc :=
    Pool.get_set_self hpc pc
  cases hplace.symm.trans hreturned
  cases hprogress with
  | returned hall =>
      rw [without, without, deleteMessages_congr s.db fun id =>
        ⟨fun hid => hgone hid, fun hid => hall hid⟩]

/-- A cleanup job, from when it begins or goes round. Next to anything else it deletes only
terminal messages from before its deadline, with what belongs to them; it reads at most once more
than there are full batches, and nothing keeps it from going on. Alone, it comes to its end and
has then deleted all of these and nothing else. -/
theorem retention_exact (hpc : s.cleanups[k]? = some (.looping cutoff)) :
    (Reachable Transition.anyStep s →
      (∀ u t action, Reaches Transition.anyStep s u → step u (.cleanup k action) = some t →
        ∀ m ∈ u.db.messages.rows, ¬(m.status.terminal = true ∧ m.createdAt < cutoff) →
          m ∈ t.db.messages.rows ∧
          (∀ attempt ∈ u.db.attempts.rows, attempt.message = m.id →
            attempt ∈ t.db.attempts.rows) ∧
          ∀ letter ∈ u.db.deadLetters.rows, letter.message = m.id →
            letter ∈ t.db.deadLetters.rows) ∧
      ∀ actions u, Transition.Path (Transition.graph step) s actions u →
        actions.countP (selects k) ≤ (s.older cutoff []).length / cleanupBatchSize + 1 ∧
        ∀ pc, u.cleanups[k]? = some pc → pc.cutoff.isSome = true →
          ∃ a t, Alone k u a ∧ step u a = some t) ∧
    (∃ t, Reaches (Alone k) s t ∧ t.cleanups[k]? = some .returned) ∧
    ∀ t, Reaches (Alone k) s t → t.cleanups[k]? = some .returned →
      t = s.without k (s.expired cutoff) .returned ∧
      (∀ m, m ∈ t.db.messages.rows ↔
        m ∈ s.db.messages.rows ∧ ¬(m.status.terminal = true ∧ m.createdAt < cutoff)) ∧
      (∀ attempt, attempt ∈ t.db.attempts.rows ↔
        attempt ∈ s.db.attempts.rows ∧ attempt.message ∉ s.expired cutoff) ∧
      ∀ letter, letter ∈ t.db.deadLetters.rows ↔
        letter ∈ s.db.deadLetters.rows ∧ letter.message ∉ s.expired cutoff := by
  refine ⟨fun hs => ?_, exists_returned _ hpc le_rfl, fun t hst hreturned => ?_⟩
  · have hcleaning := Cleaning.of_looping hs hpc
    refine ⟨fun u t action hsu hstep m hm hkeep => (hcleaning.reaches hsu).kept hstep hm hkeep,
      fun actions u hpath => ⟨?_, fun pc hplace hcutoff => ?_⟩⟩
    · exact (hcleaning.selects_le hpath).trans_eq (rounds_eq hpc)
    · obtain ⟨time, htime⟩ := Option.isSome_iff_exists.mp hcutoff
      exact exists_step hplace htime
  · have heq := eq_of_returned hpc hst hreturned
    subst heq
    refine ⟨rfl, fun m => ?_, fun attempt => ?_, fun letter => ?_⟩
    · refine s.db.messages.mem_delete.trans (and_congr_right fun hm => ?_)
      rw [← Bool.not_eq_true, List.contains_iff_mem]
      refine not_congr ?_
      rw [mem_expired]
      constructor
      · rintro ⟨other, hother, hfilter, hkey⟩
        rw [s.db.messages.eq_of_key hother hm hkey, cleanupFilter] at hfilter
        simpa using hfilter
      · intro hterminal
        exact ⟨m, hm, by simpa [cleanupFilter] using hterminal, rfl⟩
    · refine s.db.attempts.mem_delete.trans (and_congr_right fun _ => ?_)
      simp
    · refine s.db.deadLetters.mem_delete.trans (and_congr_right fun _ => ?_)
      simp

deriving instance DecidableEq for CleanupPc

theorem retention_exact_sent :
    ∃ s t, Reachable Transition.anyStep s ∧ (∃ m ∈ s.db.messages.rows, m.status = .sent) ∧
      Reaches (Alone 0) s t ∧ ∀ m ∈ t.db.messages.rows,
        ¬(m.status.terminal = true ∧ m.createdAt < days 1) := by
  obtain ⟨s, hs, hpc, hsent⟩ := Transition.exists_of_runAll step Transition.anyStep (init 0)
    (opening ++ .deliver firstTask :: performing 0 delivered ++
      [.tick (days 91).toNat, .beginCleanup])
    (fun s => s.cleanups[0]? = some (.looping (days 1)) ∧
      ∃ m ∈ s.db.messages.rows, m.status = .sent) (by decide +kernel)
  obtain ⟨-, ⟨t, hst, hreturned⟩, hexact⟩ := retention_exact hpc
  obtain ⟨-, hrows, -⟩ := hexact t hst hreturned
  exact ⟨s, t, ⟨0, hs⟩, hsent, hst, fun m hm => ((hrows m).mp hm).2⟩

end System

end NotifyRelay
