import NotifyRelay.Delivery
import Mathlib.Data.List.Sort

/-! `tasks/scheduler.py`: the rows `dispatch_scheduled` selects and what it writes
to them, and the batches of `cleanup_old_messages`. -/
namespace NotifyRelay.Scheduler

def dispatchBatchSize : Nat := 200
def reenqueueAfter : Time := minutes 15
def staleSendingAfter : Time := hours 2
def cleanupAge : Time := days 90
def cleanupBatchSize : Nat := 1000

/-- `Q(enqueued_at__isnull=True, scheduled_at__lte=now)`; a comparison with NULL
is not true. -/
def due (now : Time) (m : Message) : Bool :=
  m.enqueuedAt.isNone && m.scheduledAt.any (· ≤ now)

/-- `Q(enqueued_at__lt=now - REENQUEUE_AFTER)`. -/
def stranded (now : Time) (m : Message) : Bool :=
  m.enqueuedAt.any (· < now - reenqueueAfter)

/-- `Q(status=SENDING, updated_at__lt=now - STALE_SENDING_AFTER)`. -/
def stale (now : Time) (m : Message) : Bool :=
  m.status == .sending && decide (m.updatedAt < now - staleSendingAfter)

def dispatchFilter (now : Time) (m : Message) : Bool :=
  ((due now m || stranded now m) && m.status == .queued) || stale now m

/-- Ascending, NULLs last. -/
def scheduledBefore : Option Time → Option Time → Bool
  | _, none => true
  | none, some _ => false
  | some a, some b => a ≤ b

/-- `order_by("scheduled_at", "created_at")`. -/
def dispatchOrder (a b : Message) : Prop :=
  if a.scheduledAt = b.scheduledAt then a.createdAt ≤ b.createdAt
  else scheduledBefore a.scheduledAt b.scheduledAt = true

instance : DecidableRel dispatchOrder := fun a b => by
  unfold dispatchOrder
  infer_instance

/-- `SELECT ... FOR UPDATE SKIP LOCKED`: `locked` are the rows other transactions
hold at that moment. -/
def dispatchBatch (messages : MessageTable) (now : Time) (locked : List MessageId) :
    List Message :=
  ((messages.rows.filter fun m => dispatchFilter now m && !locked.contains m.id).insertionSort
    dispatchOrder).take dispatchBatchSize

def releaseUpdate (now : Time) : MessageUpdate where
  apply := fun m =>
    { m with status := .queued, claimedBy := "", enqueuedAt := some now, updatedAt := now }
  key_apply := fun _ => rfl
  index_apply := fun _ => .inl rfl

/-- `filter(pk__in=[m.pk for m in batch]).update(...)`. -/
def release (messages : MessageTable) (batch : List Message) (now : Time) : MessageTable :=
  messages.update (fun m => (batch.map Message.id).contains m.id) (releaseUpdate now)

def cleanupFilter (cutoff : Time) (m : Message) : Bool :=
  m.status.terminal && decide (m.createdAt < cutoff)

/-- `values_list("pk")[:CLEANUP_BATCH_SIZE]`, in the model's `-created_at` order. -/
def cleanupBatch (messages : MessageTable) (cutoff : Time) : List MessageId :=
  (((messages.rows.filter (cleanupFilter cutoff)).insertionSort
    fun a b => b.createdAt ≤ a.createdAt).take cleanupBatchSize).map Message.id

/-- `filter(pk__in=ids).delete()`, with the cascades to attempts and dead letters. -/
def deleteMessages (db : Database) (ids : List MessageId) : Database :=
  { db with
    messages := db.messages.delete fun m => ids.contains m.id
    attempts := db.attempts.delete fun a => ids.contains a.message
    deadLetters := db.deadLetters.delete fun l => ids.contains l.message }

@[simp] theorem releaseUpdate_apply (now : Time) (m : Message) :
    (releaseUpdate now).apply m =
      { m with status := .queued, claimedBy := "", enqueuedAt := some now, updatedAt := now } :=
  rfl

theorem not_dispatchFilter_of_terminal {now : Time} {m : Message}
    (h : m.status.terminal = true) : dispatchFilter now m = false := by
  cases hstatus : m.status <;> simp_all [dispatchFilter, stale, MessageStatus.terminal]

theorem mem_dispatchBatch {messages : MessageTable} {now : Time} {locked : List MessageId}
    {m : Message} (h : m ∈ dispatchBatch messages now locked) :
    m ∈ messages.rows ∧ dispatchFilter now m = true := by
  have hmem := List.mem_of_mem_take h
  rw [List.mem_insertionSort, List.mem_filter, Bool.and_eq_true] at hmem
  exact ⟨hmem.1, hmem.2.1⟩

theorem dispatchBatch_nodup (messages : MessageTable) (now : Time) (locked : List MessageId) :
    ((dispatchBatch messages now locked).map Message.id).Nodup := by
  have hrows : (messages.rows.map Message.id).Nodup :=
    List.pairwise_map.mpr (messages.compatible.imp fun h => h.1)
  have hfilter := hrows.sublist ((List.filter_sublist (l := messages.rows)
    (p := fun m => dispatchFilter now m && !locked.contains m.id)).map Message.id)
  have hsorted := ((List.perm_insertionSort dispatchOrder _).map Message.id).nodup_iff.mpr hfilter
  exact hsorted.sublist ((List.take_sublist _ _).map _)

theorem mem_cleanupBatch {messages : MessageTable} {cutoff : Time} {id : MessageId}
    (h : id ∈ cleanupBatch messages cutoff) :
    ∃ m ∈ messages.rows, m.id = id ∧ cleanupFilter cutoff m = true := by
  obtain ⟨m, hm, rfl⟩ := List.mem_map.mp h
  have hmem := List.mem_of_mem_take hm
  rw [List.mem_insertionSort, List.mem_filter] at hmem
  exact ⟨m, hmem.1, rfl, hmem.2⟩

theorem scheduledBefore_total (a b : Option Time) :
    scheduledBefore a b = true ∨ scheduledBefore b a = true := by
  cases a <;> cases b <;> simp [scheduledBefore, Int.le_total]

theorem scheduledBefore_trans {a b c : Option Time} (hab : scheduledBefore a b = true)
    (hbc : scheduledBefore b c = true) : scheduledBefore a c = true := by
  cases c with
  | none => cases a <;> rfl
  | some c =>
      cases b with
      | none => cases hbc
      | some b =>
          cases a with
          | none => cases hab
          | some a =>
              simp only [scheduledBefore, decide_eq_true_eq] at *
              exact Int.le_trans hab hbc

theorem scheduledBefore_antisymm {a b : Option Time} (hab : scheduledBefore a b = true)
    (hba : scheduledBefore b a = true) : a = b := by
  cases a with
  | none =>
      cases b with
      | none => rfl
      | some b => cases hab
  | some a =>
      cases b with
      | none => cases hba
      | some b =>
          simp only [scheduledBefore, decide_eq_true_eq] at hab hba
          rw [Int.le_antisymm hab hba]

instance : Std.Total dispatchOrder where
  total a b := by
    unfold dispatchOrder
    by_cases h : a.scheduledAt = b.scheduledAt
    · rw [if_pos h, if_pos h.symm]
      exact Int.le_total _ _
    · rw [if_neg h, if_neg (Ne.symm h)]
      exact scheduledBefore_total _ _

instance : IsTrans Message dispatchOrder where
  trans a b c hab hbc := by
    unfold dispatchOrder at *
    split at hab
    next hfirst =>
      rw [hfirst]
      split at hbc
      next hsecond =>
        rw [if_pos hsecond]
        exact Int.le_trans hab hbc
      next hsecond =>
        rw [if_neg hsecond]
        exact hbc
    next hfirst =>
      split at hbc
      next hsecond =>
        rw [← hsecond, if_neg hfirst]
        exact hab
      next hsecond =>
        have hne : a.scheduledAt ≠ c.scheduledAt := fun heq =>
          hfirst (scheduledBefore_antisymm hab (heq ▸ hbc))
        rw [if_neg hne]
        exact scheduledBefore_trans hab hbc

/-- A row that was put back in the queue is left alone for a while, and no longer. -/
theorem dispatchFilter_released {now later : Time} (m : Message) :
    dispatchFilter later ((releaseUpdate now).apply m) = true ↔ now + reenqueueAfter < later := by
  simp only [dispatchFilter, due, stranded, stale, releaseUpdate_apply]
  simp [Int.lt_sub_right_iff_add_lt]

end NotifyRelay.Scheduler
