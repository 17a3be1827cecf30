import NotifyRelay.Json
import NotifyRelay.Library.Keyed

/-! When two decoded objects are one JSON value, and how Python's `==` differs from it. -/
namespace NotifyRelay.Json

/-- Induction on JSON values, with the items and members of a compound value. -/
@[elab_as_elim] theorem inductionOn {motive : Json → Prop} (a : Json) (null : motive .null)
    (bool : ∀ value, motive (.bool value)) (num : ∀ value, motive (.num value))
    (str : ∀ value, motive (.str value)) (unstorable : ∀ value, motive (.unstorable value))
    (arr : ∀ items, (∀ item ∈ items, motive item) → motive (.arr items))
    (obj : ∀ members, (∀ key value, (key, value) ∈ members → motive value) →
      motive (.obj members)) : motive a :=
  match a with
  | .null => null
  | .bool value => bool value
  | .num value => num value
  | .str value => str value
  | .unstorable value => unstorable value
  | .arr items => arr items fun item _ => inductionOn item null bool num str unstorable arr obj
  | .obj members =>
      obj members fun _ value _ => inductionOn value null bool num str unstorable arr obj
termination_by a
decreasing_by
  · rw [Json.arr.sizeOf_spec]
    have hsize := List.sizeOf_lt_of_mem ‹_›
    omega
  · rw [Json.obj.sizeOf_spec]
    have hsize := List.sizeOf_lt_of_mem ‹_›
    rw [Prod.mk.sizeOf_spec] at hsize
    omega

mutual

/-- The same JSON value: members in any order, items in order, and nothing equal across kinds. -/
inductive Same : Json → Json → Prop where
  | null : Same .null .null
  | bool (value : Bool) : Same (.bool value) (.bool value)
  | num (value : Rat) : Same (.num value) (.num value)
  | str (value : String) : Same (.str value) (.str value)
  | unstorable (value : Unstorable) : Same (.unstorable value) (.unstorable value)
  | arr {items items' : List Json} (h : SameItems items items') : Same (.arr items) (.arr items')
  | obj {members members' reordered : List (String × Json)} (hperm : members'.Perm reordered)
      (h : SameMembers members reordered) : Same (.obj members) (.obj members')

inductive SameItems : List Json → List Json → Prop where
  | nil : SameItems [] []
  | cons {a b : Json} {as bs : List Json} (hhead : Same a b) (htail : SameItems as bs) :
      SameItems (a :: as) (b :: bs)

inductive SameMembers : List (String × Json) → List (String × Json) → Prop where
  | nil : SameMembers [] []
  | cons (key : String) {a b : Json} {as bs : List (String × Json)} (hhead : Same a b)
      (htail : SameMembers as bs) : SameMembers ((key, a) :: as) ((key, b) :: bs)

end

mutual

/-- The value with its booleans read as numbers. -/
def numeric : Json → Json
  | .bool value => .num (boolNum value)
  | .arr items => .arr (numericItems items)
  | .obj members => .obj (numericMembers members)
  | a => a
termination_by structural a => a

def numericItems : List Json → List Json
  | [] => []
  | a :: rest => a.numeric :: numericItems rest
termination_by structural a => a

def numericMembers : List (String × Json) → List (String × Json)
  | [] => []
  | (key, a) :: rest => (key, a.numeric) :: numericMembers rest
termination_by structural a => a

end

@[simp] theorem numeric_null : null.numeric = null := rfl
@[simp] theorem numeric_bool (value : Bool) : (bool value).numeric = num (boolNum value) := rfl
@[simp] theorem numeric_num (value : Rat) : (num value).numeric = num value := rfl
@[simp] theorem numeric_str (value : String) : (str value).numeric = str value := rfl
@[simp] theorem numeric_unstorable (value : Unstorable) :
    (unstorable value).numeric = unstorable value := rfl
@[simp] theorem numeric_arr (items : List Json) :
    (arr items).numeric = arr (numericItems items) := rfl
@[simp] theorem numeric_obj (members : List (String × Json)) :
    (obj members).numeric = obj (numericMembers members) := rfl

theorem numericItems_eq_map (items : List Json) : numericItems items = items.map numeric := by
  induction items with
  | nil => rfl
  | cons a rest ih => rw [numericItems, ih, List.map_cons]

theorem numericMembers_eq_map (members : List (String × Json)) :
    numericMembers members = members.map fun member => (member.1, member.2.numeric) := by
  induction members with
  | nil => rfl
  | cons member rest ih => rw [numericMembers, ih, List.map_cons]

theorem sameItems_iff {items items' : List Json} :
    SameItems items items' ↔ List.Forall₂ Same items items' := by
  induction items generalizing items' with
  | nil =>
      constructor <;>
        · rintro ⟨⟩
          exact .nil
  | cons a rest ih =>
      constructor
      · rintro ⟨⟩
        rename_i hhead htail
        exact .cons hhead (ih.mp htail)
      · rintro ⟨⟩
        rename_i hhead htail
        exact .cons hhead (ih.mpr htail)

theorem sameMembers_iff {members members' : List (String × Json)} :
    SameMembers members members' ↔ List.Forall₂ (Keyed.Alike Same) members members' := by
  induction members generalizing members' with
  | nil =>
      constructor <;>
        · rintro ⟨⟩
          exact .nil
  | cons member rest ih =>
      constructor
      · rintro ⟨⟩
        rename_i hhead htail
        exact .cons ⟨rfl, hhead⟩ (ih.mp htail)
      · rintro ⟨⟩
        rename_i member' rest' hhead htail
        obtain ⟨key, a⟩ := member
        obtain ⟨key', b⟩ := member'
        obtain ⟨hkey, hsame⟩ := hhead
        dsimp only at hkey
        subst hkey
        exact .cons key hsame (ih.mpr htail)

theorem same_arr_iff {items items' : List Json} :
    Same (.arr items) (.arr items') ↔ List.Forall₂ Same items items' := by
  rw [← sameItems_iff]
  constructor
  · rintro ⟨⟩
    assumption
  · exact .arr

/-- An object is determined by what its keys are bound to. -/
theorem same_obj_iff {members members' : List (String × Json)}
    (hkeys : (members.map Prod.fst).Nodup) :
    Same (.obj members) (.obj members') ↔
      members.length = members'.length ∧ Keyed.Covers Same members members' := by
  rw [Keyed.covers_iff hkeys]
  constructor
  · rintro ⟨⟩
    rename_i h hperm
    exact ⟨_, hperm, sameMembers_iff.mp h⟩
  · rintro ⟨reordered, hperm, h⟩
    exact .obj hperm (sameMembers_iff.mpr h)

theorem keys_numeric (members : List (String × Json)) :
    (numericMembers members).map Prod.fst = members.map Prod.fst := by
  rw [numericMembers_eq_map, List.map_map]
  rfl

theorem wellFormed_arr {items : List Json} :
    (Json.arr items).wellFormed = true ↔ ∀ item ∈ items, item.wellFormed = true := by
  rw [wellFormed]
  induction items with
  | nil => simp [itemsWellFormed]
  | cons a rest ih => rw [itemsWellFormed, Bool.and_eq_true, ih, List.forall_mem_cons]

theorem wellFormed_obj {members : List (String × Json)} :
    (Json.obj members).wellFormed = true ↔ (members.map Prod.fst).Nodup ∧
      ∀ key value, (key, value) ∈ members → value.wellFormed = true := by
  rw [wellFormed, Bool.and_eq_true, decide_eq_true_eq]
  refine and_congr Iff.rfl ?_
  induction members with
  | nil => simp [membersWellFormed]
  | cons member rest ih =>
      rw [membersWellFormed, Bool.and_eq_true, ih]
      constructor
      · rintro ⟨hfirst, hrest⟩ key value hmem
        rcases List.mem_cons.mp hmem with rfl | hother
        · exact hfirst
        · exact hrest key value hother
      · intro h
        exact ⟨h _ _ List.mem_cons_self, fun key value hmem =>
          h key value (List.mem_cons_of_mem _ hmem)⟩

/-- What `==` of two lists says. -/
theorem itemsEq_iff {items items' : List Json} :
    itemsEq items items' = true ↔ List.Forall₂ (fun a b => a.pyEq b = true) items items' := by
  induction items generalizing items' with
  | nil => cases items' <;> simp [itemsEq]
  | cons a rest ih => cases items' <;> simp [itemsEq, ih]

theorem mem_of_lookup {members : List (String × Json)} {key : String} {value : Json}
    (h : members.lookup key = some value) : (key, value) ∈ members := by
  obtain ⟨before, after, rfl, _⟩ := List.lookup_eq_some_iff.mp h
  simp

/-- What `==` of two dicts looks at. -/
theorem membersEq_iff {members members' : List (String × Json)}
    (hkeys : (members'.map Prod.fst).Nodup) :
    membersEq members members' = true ↔
      Keyed.Covers (fun a b => a.pyEq b = true) members members' := by
  induction members with
  | nil => exact iff_of_true rfl nofun
  | cons member rest ih =>
      obtain ⟨key, a⟩ := member
      rw [membersEq, Bool.and_eq_true, ih]
      constructor
      · rintro ⟨hfirst, hrest⟩ k c hmem
        rcases List.mem_cons.mp hmem with heq | hother
        · cases heq
          split at hfirst
          next b hlookup => exact ⟨b, mem_of_lookup hlookup, hfirst⟩
          next => contradiction
        · exact hrest k c hother
      · intro h
        refine ⟨?_, fun k c hmem => h k c (List.mem_cons_of_mem _ hmem)⟩
        obtain ⟨b, hb, hab⟩ := h key a List.mem_cons_self
        rw [lookup_of_mem hkeys hb]
        exact hab

theorem same_null_iff {a : Json} : Same .null a ↔ a = .null := by
  constructor
  · rintro ⟨⟩
    rfl
  · rintro rfl
    exact .null

theorem same_num_iff {value : Rat} {a : Json} : Same (.num value) a ↔ a = .num value := by
  constructor
  · rintro ⟨⟩
    rfl
  · rintro rfl
    exact .num value

theorem same_str_iff {value : String} {a : Json} : Same (.str value) a ↔ a = .str value := by
  constructor
  · rintro ⟨⟩
    rfl
  · rintro rfl
    exact .str value

theorem same_unstorable_iff {value : Unstorable} {a : Json} :
    Same (.unstorable value) a ↔ a = .unstorable value := by
  constructor
  · rintro ⟨⟩
    rfl
  · rintro rfl
    exact .unstorable value

theorem boolNum_injective {a b : Bool} : boolNum a = boolNum b ↔ a = b := by
  cases a <;> cases b <;> simp [boolNum]

theorem numeric_obj_iff {members members' : List (String × Json)}
    (hkeys : (members.map Prod.fst).Nodup) :
    Same (Json.obj members).numeric (Json.obj members').numeric ↔
      members.length = members'.length ∧
        Keyed.Covers (fun a b => Same a.numeric b.numeric) members members' := by
  rw [numeric_obj, numeric_obj, same_obj_iff (by rw [keys_numeric]; exact hkeys)]
  rw [numericMembers_eq_map, numericMembers_eq_map, List.length_map, List.length_map]
  refine and_congr Iff.rfl ⟨fun h key a hmem => ?_, fun h key a hmem => ?_⟩
  · obtain ⟨_, hnumeric, hab⟩ := h key a.numeric (List.mem_map.mpr ⟨_, hmem, rfl⟩)
    obtain ⟨⟨key', b⟩, hb, heq⟩ := List.mem_map.mp hnumeric
    cases heq
    exact ⟨b, hb, hab⟩
  · obtain ⟨⟨key', a⟩, ha, heq⟩ := List.mem_map.mp hmem
    cases heq
    obtain ⟨b, hb, hab⟩ := h _ a ha
    exact ⟨b.numeric, List.mem_map.mpr ⟨_, hb, rfl⟩, hab⟩

theorem numeric_arr_iff {items items' : List Json} :
    Same (Json.arr items).numeric (Json.arr items').numeric ↔
      List.Forall₂ (fun a b => Same a.numeric b.numeric) items items' := by
  rw [numeric_arr, numeric_arr, same_arr_iff, numericItems_eq_map, numericItems_eq_map,
    List.forall₂_map_left_iff, List.forall₂_map_right_iff]

/-- Python's `==` reads booleans as numbers and is otherwise sameness. -/
theorem pyEq_iff {a b : Json} (ha : a.wellFormed = true) (hb : b.wellFormed = true) :
    a.pyEq b = true ↔ Same a.numeric b.numeric := by
  induction a using inductionOn generalizing b with
  | null =>
      rw [numeric_null, same_null_iff]
      cases b <;> simp [pyEq]
  | bool value =>
      rw [numeric_bool, same_num_iff]
      cases b <;> simp [pyEq, @eq_comm _ value, @eq_comm _ (boolNum value), boolNum_injective]
  | num value =>
      rw [numeric_num, same_num_iff]
      cases b <;> simp [pyEq, @eq_comm _ value]
  | str value =>
      rw [numeric_str, same_str_iff]
      cases b <;> simp [pyEq, @eq_comm _ value]
  | unstorable value =>
      rw [numeric_unstorable, same_unstorable_iff]
      cases b <;> simp [pyEq, @eq_comm _ value]
  | arr items ih =>
      cases b with
      | arr items' =>
          rw [wellFormed_arr] at ha hb
          rw [pyEq, itemsEq_iff, numeric_arr_iff, List.forall₂_iff_zip, List.forall₂_iff_zip]
          refine and_congr Iff.rfl (forall₂_congr fun a b => ?_)
          refine forall_congr' fun hmem => ?_
          obtain ⟨hitem, hitem'⟩ := List.of_mem_zip hmem
          exact ih a hitem (ha a hitem) (hb b hitem')
      | _ => exact iff_of_false (by simp [pyEq]) nofun
  | obj members ih =>
      cases b with
      | obj members' =>
          rw [wellFormed_obj] at ha hb
          rw [pyEq, Bool.and_eq_true, beq_iff_eq, membersEq_iff hb.1, numeric_obj_iff ha.1]
          refine and_congr Iff.rfl ⟨fun h key a hmem => ?_, fun h key a hmem => ?_⟩
          · obtain ⟨b, hb', hab⟩ := h key a hmem
            exact ⟨b, hb', (ih key a hmem (ha.2 key a hmem) (hb.2 key b hb')).mp hab⟩
          · obtain ⟨b, hb', hab⟩ := h key a hmem
            exact ⟨b, hb', (ih key a hmem (ha.2 key a hmem) (hb.2 key b hb')).mpr hab⟩
      | _ => exact iff_of_false (by simp [pyEq]) nofun

/-- Values that are the same stay so when their booleans are read as numbers. -/
theorem Same.numeric {a b : Json} (ha : a.wellFormed = true) (h : Same a b) :
    Same a.numeric b.numeric := by
  induction a using inductionOn generalizing b with
  | null =>
      cases h
      exact .null
  | bool value =>
      cases h
      exact .num _
  | num value =>
      cases h
      exact .num _
  | str value =>
      cases h
      exact .str _
  | unstorable value =>
      cases h
      exact .unstorable _
  | arr items ih =>
      cases h with
      | arr h =>
          rw [wellFormed_arr] at ha
          rw [numeric_arr_iff, List.forall₂_iff_zip]
          have hzip := List.forall₂_iff_zip.mp (sameItems_iff.mp h)
          refine ⟨hzip.1, fun hmem => ?_⟩
          have hitem := (List.of_mem_zip hmem).1
          exact ih _ hitem (ha _ hitem) (hzip.2 hmem)
  | obj members ih =>
      rw [wellFormed_obj] at ha
      cases h with
      | obj hperm h =>
          have hcovers := (same_obj_iff ha.1).mp (.obj hperm h)
          refine (numeric_obj_iff ha.1).mpr ⟨hcovers.1, fun key a hmem => ?_⟩
          obtain ⟨b, hb, hab⟩ := hcovers.2 key a hmem
          exact ⟨b, hb, ih key a hmem (ha.2 key a hmem) hab⟩

end NotifyRelay.Json
