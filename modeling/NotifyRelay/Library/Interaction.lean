/-! Programs that question the outside world. A program is a tree with one branch for each
reply, and its runs are the paths the world may send it down. -/
namespace NotifyRelay

inductive Program (Ask : Type) (Reply : Ask → Type) (α : Type) where
  | done (value : α)
  | ask (question : Ask) (next : Reply question → Program Ask Reply α)

namespace Program

variable {Ask : Type} {Reply : Ask → Type} {α β : Type}

def bind (program : Program Ask Reply α) (next : α → Program Ask Reply β) :
    Program Ask Reply β :=
  match program with
  | .done value => next value
  | .ask question rest => .ask question fun reply => (rest reply).bind next

/-- Every question the program may put is an allowed one. -/
def Asks (allowed : Ask → Prop) : Program Ask Reply α → Prop
  | .done _ => True
  | .ask question next => allowed question ∧ ∀ reply, (next reply).Asks allowed

theorem Asks.bind {allowed : Ask → Prop} {program : Program Ask Reply α}
    {next : α → Program Ask Reply β} (hprogram : program.Asks allowed)
    (hnext : ∀ value, (next value).Asks allowed) : (program.bind next).Asks allowed := by
  induction program with
  | done value => exact hnext value
  | ask question rest ih => exact ⟨hprogram.1, fun reply => ih reply (hprogram.2 reply)⟩

end Program

/-- A question and the reply it got. -/
structure Exchange (Ask : Type) (Reply : Ask → Type) where
  question : Ask
  reply : Reply question

/-- What a program does in a world that answers every question in one way. -/
def Program.run {Ask : Type} {Reply : Ask → Type} {α : Type}
    (world : (question : Ask) → Reply question) :
    Program Ask Reply α → List (Exchange Ask Reply) × α
  | .done value => ([], value)
  | .ask question next =>
      let (trace, value) := run world (next (world question))
      (⟨question, world question⟩ :: trace, value)

theorem Program.run_bind {Ask : Type} {Reply : Ask → Type} {α β : Type}
    (world : (question : Ask) → Reply question) (program : Program Ask Reply α)
    (next : α → Program Ask Reply β) :
    ((program.bind next).run world).2 = ((next (program.run world).2).run world).2 := by
  induction program with
  | done value => rfl
  | ask question rest ih => exact ih (world question)

/-- `Runs possible program trace value`: with these exchanges the program returns this
value, and each reply is one the world may give. -/
inductive Runs {Ask : Type} {Reply : Ask → Type} (possible : Exchange Ask Reply → Prop)
    {α : Type} : Program Ask Reply α → List (Exchange Ask Reply) → α → Prop
  | done (value : α) : Runs possible (.done value) [] value
  | ask {question : Ask} {next : Reply question → Program Ask Reply α}
      {reply : Reply question} {trace : List (Exchange Ask Reply)} {value : α}
      (hreply : possible ⟨question, reply⟩) (hnext : Runs possible (next reply) trace value) :
      Runs possible (.ask question next) (⟨question, reply⟩ :: trace) value

namespace Runs

variable {Ask : Type} {Reply : Ask → Type} {possible : Exchange Ask Reply → Prop} {α β : Type}
  {trace : List (Exchange Ask Reply)}

theorem run (world : (question : Ask) → Reply question)
    (hworld : ∀ question, possible ⟨question, world question⟩) (program : Program Ask Reply α) :
    Runs possible program (program.run world).1 (program.run world).2 := by
  induction program with
  | done value => exact .done value
  | ask question next ih => exact .ask (hworld question) (ih (world question))

theorem done_iff {value result : α} :
    Runs possible (.done value) trace result ↔ trace = [] ∧ result = value := by
  constructor
  · rintro ⟨⟩
    exact ⟨rfl, rfl⟩
  · rintro ⟨rfl, rfl⟩
    exact .done _

theorem ask_iff {question : Ask} {next : Reply question → Program Ask Reply α} {value : α} :
    Runs possible (.ask question next) trace value ↔
      ∃ reply rest, possible ⟨question, reply⟩ ∧ trace = ⟨question, reply⟩ :: rest ∧
        Runs possible (next reply) rest value := by
  constructor
  · rintro ⟨⟩
    rename_i hreply hnext
    exact ⟨_, _, hreply, rfl, hnext⟩
  · rintro ⟨reply, rest, hreply, rfl, hnext⟩
    exact .ask hreply hnext

/-- A run of a sequence is a run of its first part and then one of the rest. -/
theorem bind_iff {program : Program Ask Reply α} {next : α → Program Ask Reply β} {value : β} :
    Runs possible (program.bind next) trace value ↔
      ∃ before middle after, trace = before ++ after ∧ Runs possible program before middle ∧
        Runs possible (next middle) after value := by
  induction program generalizing trace with
  | done middle =>
      constructor
      · intro h
        exact ⟨[], middle, trace, rfl, .done middle, h⟩
      · rintro ⟨before, _, after, rfl, ⟨⟩, h⟩
        exact h
  | ask question rest ih =>
      rw [Program.bind, ask_iff]
      constructor
      · rintro ⟨reply, tail, hreply, rfl, htail⟩
        obtain ⟨before, middle, after, rfl, hbefore, hafter⟩ := (ih reply).mp htail
        exact ⟨_ :: before, middle, after, rfl, .ask hreply hbefore, hafter⟩
      · rintro ⟨_, middle, after, rfl, hbefore, hafter⟩
        obtain ⟨reply, before, hreply, rfl, hrest⟩ := ask_iff.mp hbefore
        exact ⟨reply, before ++ after, hreply, rfl,
          (ih reply).mpr ⟨before, middle, after, rfl, hrest, hafter⟩⟩

theorem allowed_of_asks {allowed : Ask → Prop} {program : Program Ask Reply α} {value : α}
    (h : Runs possible program trace value) (hasks : program.Asks allowed) :
    ∀ exchange ∈ trace, allowed exchange.question := by
  induction h with
  | done => exact fun _ hmem => nomatch hmem
  | ask _ _ ih => exact List.forall_mem_cons.mpr ⟨hasks.1, ih (hasks.2 _)⟩

/-- The replies decide what a program returns. -/
theorem unique {program : Program Ask Reply α} {value value' : α}
    (h : Runs possible program trace value) (h' : Runs possible program trace value') :
    value = value' := by
  induction h with
  | done => exact (done_iff.mp h').2.symm
  | ask _ _ ih =>
      obtain ⟨_, _, _, hsame, hrest⟩ := ask_iff.mp h'
      cases hsame
      exact ih hrest

end Runs

end NotifyRelay
