import Mathlib.Data.List.Nodup
import Mathlib.Data.Rat.Defs

/-! JSON values as the Python objects they are decoded to. Numbers are kept as
exact rationals: Python compares `int` and finite `float` by value. -/
namespace NotifyRelay

/-- What `json.loads` makes of some texts and `jsonb` has no form for: `1e999` is decoded to an
infinity, and an escape may leave a surrogate without its pair. -/
inductive Unstorable where
  | infinity (negative : Bool)
  | surrogates (codePoints : List Nat)
  deriving DecidableEq

inductive Json where
  | null
  | bool (value : Bool)
  | num (value : Rat)
  | str (value : String)
  | unstorable (value : Unstorable)
  | arr (items : List Json)
  | obj (members : List (String × Json))

namespace Json

/-- `bool` is a subclass of `int`: `True == 1` and `False == 0`. -/
def boolNum (value : Bool) : Rat :=
  if value then 1 else 0

mutual

/-- Python's `==`. Two dicts are equal when they have the same size and every
key of the left one is bound to an equal value in the right one. -/
def pyEq : Json → Json → Bool
  | .null, .null => true
  | .bool a, .bool b => a == b
  | .num a, .num b => a == b
  | .bool a, .num b => boolNum a == b
  | .num a, .bool b => a == boolNum b
  | .str a, .str b => a == b
  | .unstorable a, .unstorable b => a == b
  | .arr a, .arr b => itemsEq a b
  | .obj a, .obj b => a.length == b.length && membersEq a b
  | _, _ => false
termination_by structural a => a

def itemsEq : List Json → List Json → Bool
  | [], [] => true
  | a :: as, b :: bs => a.pyEq b && itemsEq as bs
  | _, _ => false
termination_by structural a => a

def membersEq : List (String × Json) → List (String × Json) → Bool
  | [], _ => true
  | (key, a) :: rest, bs =>
      (match bs.lookup key with
        | some b => a.pyEq b
        | none => false) && membersEq rest bs
termination_by structural a => a

end

mutual

/-- No object, at any depth, binds a key twice. -/
def wellFormed : Json → Bool
  | .arr items => itemsWellFormed items
  | .obj members => decide (members.map Prod.fst).Nodup && membersWellFormed members
  | _ => true
termination_by structural a => a

def itemsWellFormed : List Json → Bool
  | [] => true
  | a :: rest => a.wellFormed && itemsWellFormed rest
termination_by structural a => a

def membersWellFormed : List (String × Json) → Bool
  | [] => true
  | (_, a) :: rest => a.wellFormed && membersWellFormed rest
termination_by structural a => a

end

mutual

/-- Every value is storable, every number passes `num`, and every text, member names included,
passes `str`. -/
def every (num : Rat → Bool) (str : String → Bool) : Json → Bool
  | .num value => num value
  | .str value => str value
  | .unstorable _ => false
  | .arr items => itemsEvery num str items
  | .obj members => membersEvery num str members
  | _ => true
termination_by structural a => a

def itemsEvery (num : Rat → Bool) (str : String → Bool) : List Json → Bool
  | [] => true
  | a :: rest => a.every num str && itemsEvery num str rest
termination_by structural a => a

def membersEvery (num : Rat → Bool) (str : String → Bool) : List (String × Json) → Bool
  | [] => true
  | (key, a) :: rest => str key && a.every num str && membersEvery num str rest
termination_by structural a => a

end

theorem lookup_of_mem {members : List (String × Json)}
    (hnodup : (members.map Prod.fst).Nodup) {key : String} {value : Json}
    (h : (key, value) ∈ members) : members.lookup key = some value := by
  induction members with
  | nil => simp at h
  | cons head rest ih =>
      obtain ⟨k, v⟩ := head
      rw [List.map_cons, List.nodup_cons] at hnodup
      rw [List.lookup_cons]
      rcases List.mem_cons.mp h with heq | hrest
      · cases heq
        simp
      · have hne : key ≠ k := by
          rintro rfl
          exact hnodup.1 (List.mem_map.mpr ⟨_, hrest, rfl⟩)
        simp [beq_false_of_ne hne, ih hnodup.2 hrest]

mutual

theorem pyEq_refl : ∀ a : Json, a.wellFormed = true → a.pyEq a = true
  | .null, _ => rfl
  | .bool _, _ => by simp [pyEq]
  | .num _, _ => by simp [pyEq]
  | .str _, _ => by simp [pyEq]
  | .unstorable _, _ => by simp [pyEq]
  | .arr items, h => by
      rw [wellFormed] at h
      rw [pyEq]
      exact itemsEq_refl items h
  | .obj members, h => by
      rw [wellFormed, Bool.and_eq_true, decide_eq_true_eq] at h
      rw [pyEq, beq_self_eq_true, Bool.true_and]
      exact membersEq_of_lookup members h.2 fun _ _ hmem => lookup_of_mem h.1 hmem
termination_by structural a => a

theorem itemsEq_refl : ∀ items : List Json, itemsWellFormed items = true →
    itemsEq items items = true
  | [], _ => rfl
  | a :: rest, h => by
      rw [itemsWellFormed, Bool.and_eq_true] at h
      rw [itemsEq, pyEq_refl a h.1, itemsEq_refl rest h.2]
      rfl
termination_by structural a => a

theorem membersEq_of_lookup {all : List (String × Json)} :
    ∀ members : List (String × Json), membersWellFormed members = true →
      (∀ key value, (key, value) ∈ members → all.lookup key = some value) →
      membersEq members all = true
  | [], _, _ => rfl
  | (key, a) :: rest, h, hlookup => by
      rw [membersWellFormed, Bool.and_eq_true] at h
      rw [membersEq, hlookup key a List.mem_cons_self]
      simp only [pyEq_refl a h.1, Bool.true_and]
      exact membersEq_of_lookup rest h.2 fun k v hmem =>
        hlookup k v (List.mem_cons_of_mem _ hmem)
termination_by structural a => a

end

end Json

/-- A decoded JSON object, the type of a message's `context`. -/
structure JsonObject where
  members : List (String × Json)
  wellFormed : (Json.obj members).wellFormed = true

namespace JsonObject

def empty : JsonObject := ⟨[], rfl⟩

/-- `context or {}`: both a missing value and an empty dict give the empty dict. -/
def orEmpty : Option JsonObject → JsonObject
  | none => empty
  | some context => if context.members.isEmpty then empty else context

def pyEq (a b : JsonObject) : Bool :=
  (Json.obj a.members).pyEq (Json.obj b.members)

@[simp] theorem pyEq_refl (a : JsonObject) : a.pyEq a = true :=
  Json.pyEq_refl _ a.wellFormed

theorem eq_empty {context : JsonObject} (h : context.members.isEmpty = true) :
    context = empty := by
  obtain ⟨members, hmembers⟩ := context
  obtain rfl := List.isEmpty_iff.mp h
  rfl

/-- `existing.context or {}` changes nothing. -/
@[simp] theorem orEmpty_some (context : JsonObject) : orEmpty (some context) = context := by
  dsimp only [orEmpty]
  split
  next h => exact (eq_empty h).symm
  next => rfl

end JsonObject
end NotifyRelay
