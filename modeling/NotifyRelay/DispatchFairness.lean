import NotifyRelay.Library.Batches
import NotifyRelay.Publishing
import NotifyRelay.SingleRun
import NotifyRelay.Text
import Mathlib.Algebra.Order.Group.Int

/-! Whether `dispatch_scheduled` lets a message wait for ever while no worker claims any. A row
that was published comes back after `REENQUEUE_AFTER`, in its old place of the order. -/
namespace NotifyRelay

open Services Delivery Scheduler

/-- Runs of `dispatch_scheduled` one after the other. Between two of them rows may come, and a
row may go once its message is finished, but no worker writes one. A run publishes its batch
until the broker refuses. -/
structure DispatchRuns where
  table : ℕ → MessageTable
  time : ℕ → Time
  accepted : ℕ → ℕ
  time_lt : ∀ i, time i < time (i + 1)
  kept : ∀ i, ∀ m ∈ (release (table i) (dispatchBatch (table i) (time i) []) (time i)).rows,
    m.status.terminal = false → m ∈ (table (i + 1)).rows

namespace DispatchRuns

variable (c : DispatchRuns)

def batch (i : ℕ) : List Message := dispatchBatch (c.table i) (c.time i) []

def taken (i : ℕ) : List MessageId := (c.batch i).map Message.id

def published (i : ℕ) : List MessageId := (c.taken i).take (c.accepted i)

/-- The messages run `i` can take that stand before `b`. -/
def front (i : ℕ) (b : Message) : List Message :=
  (c.table i).rows.filter fun m =>
    dispatchFilter (c.time i) m && !decide (dispatchOrder b m)

variable {c} {i j : ℕ} {m b : Message} {a : MessageId}

theorem time_le (hij : i ≤ j) : c.time i ≤ c.time j := by
  induction j, hij using Nat.le_induction with
  | base => exact Int.le_refl _
  | succ j _ ih => exact Int.le_trans ih (Int.le_of_lt (c.time_lt j))

theorem mem_taken {id : MessageId} : id ∈ c.taken i ↔ ∃ m ∈ c.batch i, m.id = id := List.mem_map

theorem untaken_next (hm : m ∈ (c.table i).rows) (hlive : m.status.terminal = false)
    (hnot : m.id ∉ c.taken i) : m ∈ (c.table (i + 1)).rows := by
  refine c.kept i m ((c.table i).mem_update.mpr ⟨m, hm, if_neg ?_⟩) hlive
  rw [List.contains_iff_mem]
  exact hnot

theorem taken_next (hm : m ∈ (c.table i).rows) (htaken : m.id ∈ c.taken i) :
    (releaseUpdate (c.time i)).apply m ∈ (c.table (i + 1)).rows := by
  refine c.kept i _ ((c.table i).mem_update.mpr ⟨m, hm, if_pos ?_⟩) rfl
  rw [List.contains_iff_mem]
  exact htaken

theorem eligible_of_taken (hm : m ∈ (c.table i).rows) (h : m.id ∈ c.taken i) :
    dispatchFilter (c.time i) m = true := by
  obtain ⟨found, hfound, hkey⟩ := mem_taken.mp h
  obtain ⟨hrow, hfilter⟩ := mem_dispatchBatch hfound
  rwa [(c.table i).eq_of_key hrow hm hkey] at hfilter

/-- A message is not taken again before it has been in the queue for `REENQUEUE_AFTER`. -/
theorem spaced : Spaced c.taken c.time reenqueueAfter where
  nodup i := dispatchBatch_nodup _ _ _
  apart i j a hij hfirst hagain := by
    by_contra hsoon
    obtain ⟨m, hbatch, rfl⟩ := mem_taken.mp hfirst
    have hnot : ∀ l ≤ j, dispatchFilter (c.time l) ((releaseUpdate (c.time i)).apply m) ≠ true := by
      intro l hl hfilter
      rw [dispatchFilter_released] at hfilter
      exact hsoon (hfilter.trans_le (time_le hl))
    have hreleased : ∀ l, i + 1 ≤ l → l ≤ j →
        (releaseUpdate (c.time i)).apply m ∈ (c.table l).rows := by
      intro l hl
      induction l, hl using Nat.le_induction with
      | base => exact fun _ => taken_next (mem_dispatchBatch hbatch).1 hfirst
      | succ l _ ih =>
          intro hle
          have hrow := ih (Nat.le_of_succ_le hle)
          exact untaken_next hrow rfl fun htaken =>
            hnot l (Nat.le_of_succ_le hle) (eligible_of_taken hrow htaken)
    exact hnot j le_rfl (eligible_of_taken (hreleased j hij le_rfl) hagain)

section Congested

variable {table : MessageTable} {time : ℕ → Time} {htime : ∀ i, time i < time (i + 1)}

end Congested

end DispatchRuns

namespace Lifecycle

variable {v w : Lifecycle} {a : System.Action} {source : Source}

/-- What a source has published, in order. -/
def publishedBy (v : Lifecycle) (source : Source) : List MessageId :=
  ((v.publications.filter fun p => p.source == source).map Stamp.message).reverse

/-- A source is on its way through a batch, or has given up. -/
structure Walks (source : Source) (batch : List (MessageId × Time)) (v : Lifecycle) : Prop where
  spent : v.spent source = true
  walk : ∃ n, v.publishedBy source = (batch.take n).map Prod.fst ∧
    (v.pending source = batch.drop n ∨ v.pending source = [])

theorem Walks.settled {batch : List (MessageId × Time)} (h : Walks source batch v)
    {other : Source} {rest : List (MessageId × Time)}
    (hspent : w.spent source = true)
    (hpending : w.pending source = if source = other then rest else v.pending source)
    (hpublications : w.publications = v.publications) (hrest : other = source → rest = []) :
    Walks source batch w := by
  obtain ⟨n, hpublished, hwalk⟩ := h.walk
  refine ⟨hspent, n, ?_, ?_⟩
  · rw [← hpublished, publishedBy, hpublications, publishedBy]
  · rw [hpending]
    split
    next heq => exact .inr (hrest heq.symm)
    next => exact hwalk

theorem Walks.next {batch : List (MessageId × Time)} (h : Walks source batch v)
    (hstep : Step v a w) : Walks source batch w := by
  have hspent := hstep.spent_mono h.spent
  have hnew : ∀ {other : Source}, v.spent other = false → other ≠ source := by
    rintro other hunspent rfl
    rw [h.spent] at hunspent
    contradiction
  cases hstep with
  | settle => exact h.settled hspent (pending_settled v _ _ _) rfl fun _ => rfl
  | refuse => exact h.settled hspent (pending_settled v _ _ _) rfl fun _ => rfl
  | insert _ _ _ _ _ _ _ _ _ _ _ hunspent =>
      exact h.settled hspent (pending_settled v _ _ _) rfl fun heq => absurd heq (hnew hunspent)
  | release b now locked hunspent =>
      exact h.settled hspent (pending_settled v _ _ _) (publications_record_released _ b _ now)
        fun heq => absurd heq (hnew hunspent)
  | publish _ other message stamp rest id hsource hpending hfresh =>
      obtain ⟨n, hpublished, hwalk⟩ := h.walk
      by_cases hsame : other = source
      · subst hsame
        rw [hpending] at hwalk
        have hdrop := (hwalk.resolve_right (List.cons_ne_nil _ _)).symm
        have hitem : batch[n]? = some (message.id, stamp) := by
          rw [← List.head?_drop, hdrop, List.head?_cons]
        refine ⟨hspent, n + 1, ?_, .inl ?_⟩
        · rw [List.take_add_one, hitem, Option.toList_some, List.map_append, ← hpublished]
          simp [publishedBy, publications, record, accept, Lifecycle.settled, Event.publication,
            enqueueFor]
        · rw [← List.tail_drop, hdrop]
          exact (pending_settled v other rest other).trans (if_pos rfl)
      · refine ⟨hspent, n, ?_, ?_⟩
        · rw [← hpublished]
          simp [publishedBy, publications, record, accept, Lifecycle.settled, Event.publication,
            hsame]
        · have hkept := (pending_settled v other rest source).trans (if_neg (Ne.symm hsame))
          exact hkept.symm ▸ hwalk
  | retry r run result text accepted => cases accepted <;> exact ⟨h.spent, h.walk⟩
  | _ => exact ⟨h.spent, h.walk⟩

/-- A source that has not yet stamped anything has published nothing. -/
theorem publishedBy_of_unspent (hstamped : Stamped v) (hpublished : PublishedOnce v)
    (hspent : v.spent source = false) : v.publishedBy source = [] := by
  have hnone : v.publications.filter (fun p => p.source == source) = [] := by
    refine List.filter_eq_nil_iff.mpr fun p hp hsource => ?_
    have hpast := hstamped.spent p (hpublished.stamped p hp)
    rw [beq_iff_eq.mp hsource, hspent] at hpast
    contradiction
  rw [publishedBy, hnone]
  rfl

end Lifecycle

namespace System

variable {s t : System}

/-- A step of no worker, which puts no row back in the queue either. -/
def Workerless (s : System) (a : Action) : Prop := ∀ id, Elsewhere id s a

/-- What a run of `dispatch_scheduled` alone with the table selects and writes. -/
theorem chosen_of_select {b : ℕ} {now : Time} (hselecting : s.beats[b]? = some (.selecting now))
    (hselect : step s (.beat b (.select [])) = some t) :
    t = ((s.setBeat b (.enqueueing now (dispatchBatch s.db.messages now []).length
      (dispatchBatch s.db.messages now []))).setMessages
        (release s.db.messages (dispatchBatch s.db.messages now []) now)).record
          ((dispatchBatch s.db.messages now []).map fun m => .released b m.id now) := by
  rw [step, hselecting, Option.bind_some] at hselect
  exact (Option.some.inj hselect).symm

/-- It has the whole batch before it. -/
theorem walks_of_select (hs : Reachable Transition.anyStep s) {b : ℕ} {now : Time}
    (hselecting : s.beats[b]? = some (.selecting now))
    (hselect : step s (.beat b (.select [])) = some t) :
    Lifecycle.Walks (.beat b) ((dispatchBatch s.db.messages now []).map fun m => (m.id, now))
      t.view := by
  obtain ⟨hstamped, hpublished⟩ := publishing hs
  have hunspent : s.view.spent (.beat b) = false := by
    simp [view, spent, hselecting, BeatPc.spent]
  have hnothing := Lifecycle.publishedBy_of_unspent hstamped hpublished hunspent
  have hbeat : t.beats[b]? = some (.enqueueing now (dispatchBatch s.db.messages now []).length
      (dispatchBatch s.db.messages now [])) := by
    rw [chosen_of_select hselecting hselect]
    exact Pool.get_set_self hselecting _
  have hpublications : t.view.publications = s.view.publications := by
    rw [chosen_of_select hselecting hselect]
    exact Lifecycle.publications_record_released s.view b _ now
  refine ⟨by simp [view, spent, hbeat, BeatPc.spent], 0, ?_, .inl ?_⟩
  · rw [Lifecycle.publishedBy, hpublications, ← Lifecycle.publishedBy, hnothing]
    rfl
  · simp [view, pending, hbeat, BeatPc.pending]

theorem walks_of_reaches {source : Source} {batch : List (MessageId × Time)}
    {allowed : System → Action → Prop} (hs : Reachable Transition.anyStep s)
    (hwalks : Lifecycle.Walks source batch s.view) (hst : Reaches allowed s t) :
    Lifecycle.Walks source batch t.view :=
  hst.invariant_of (Reachable Transition.anyStep) (fun t => Lifecycle.Walks source batch t.view) hs
    (fun _ _ _ hreachable _ hstep => hreachable.next hstep) hwalks
    fun _ _ _ hreachable hwalks _ hstep =>
      (refined hreachable hstep).elim (fun heq => heq ▸ hwalks) hwalks.next

/-- Runs of `dispatch_scheduled` in the system, each over before the next one selects. -/
structure DispatchSchedule where
  start : ℕ → System
  chosen : ℕ → System
  beat : ℕ → ℕ
  time : ℕ → Time
  reachable : Reachable Transition.anyStep (start 0)
  selecting : ∀ i, (start i).beats[beat i]? = some (.selecting (time i))
  select : ∀ i, step (start i) (.beat (beat i) (.select [])) = some (chosen i)
  between : ∀ i, Reaches Workerless (chosen i) (start (i + 1))
  ended : ∀ i, ∃ pc, (start (i + 1)).beats[beat i]? = some pc ∧ pc.running = false
  time_lt : ∀ i, time i < time (i + 1)

theorem Reachable.trans (hs : Reachable Transition.anyStep s) {allowed : System → Action → Prop}
    (hst : Reaches allowed s t) : Reachable Transition.anyStep t := by
  obtain ⟨clock, hs⟩ := hs
  exact ⟨clock, Relation.ReflTransGen.trans hs hst.any⟩

/-- They leave a row alone that is not at its end. -/
theorem row_of_workerless (hs : Reachable Transition.anyStep s) (hst : Reaches Workerless s t)
    {m : Message} (hm : m ∈ s.db.messages.rows) (hlive : m.status.terminal = false) :
    m ∈ t.db.messages.rows :=
  hst.invariant_of (Reachable Transition.anyStep) (fun t => m ∈ t.db.messages.rows) hs
    (fun _ _ _ hreachable _ hstep => hreachable.next hstep) hm
    fun _ _ _ hreachable hrow hworkerless hstep =>
      (hworkerless m.id).row hreachable hstep hrow rfl hlive

namespace DispatchSchedule

variable (d : DispatchSchedule)

theorem reachable_start (i : ℕ) : Reachable Transition.anyStep (d.start i) := by
  induction i with
  | zero => exact d.reachable
  | succ i ih => exact (ih.next (d.select i)).trans (d.between i)

def toRuns : DispatchRuns where
  table i := (d.start i).db.messages
  time := d.time
  accepted i := ((d.start (i + 1)).view.publishedBy (.beat (d.beat i))).length
  time_lt := d.time_lt
  kept i _ hm hlive := by
    refine row_of_workerless ((d.reachable_start i).next (d.select i)) (d.between i) ?_ hlive
    rw [chosen_of_select (d.selecting i) (d.select i)]
    exact hm

/-- What run `i` publishes in the system is what it publishes there. -/
theorem published_toRuns (i : ℕ) :
    d.toRuns.published i = (d.start (i + 1)).view.publishedBy (.beat (d.beat i)) := by
  have hchosen := (d.reachable_start i).next (d.select i)
  obtain ⟨n, hpublished, -⟩ := (walks_of_reaches hchosen
    (walks_of_select (d.reachable_start i) (d.selecting i) (d.select i)) (d.between i)).walk
  rw [← List.map_take, List.map_map] at hpublished
  have htaken : (d.start (i + 1)).view.publishedBy (.beat (d.beat i)) =
      (d.toRuns.taken i).take n := by
    rw [hpublished]
    exact List.map_take
  have haccepted : d.toRuns.accepted i = min n (d.toRuns.taken i).length := by
    rw [← List.length_take, ← htaken]
    rfl
  rw [DispatchRuns.published, haccepted, htaken]
  exact List.take_eq_take_min.symm

end DispatchSchedule

end System

end NotifyRelay
