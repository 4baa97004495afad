import Mathlib.Data.String.Basic
import Mathlib.Data.List.Nodup
import QueryScope.Json.Basic

/-!
# Well-formed JSON values and their sorted form

A value that is read from text has finite numbers, and its objects have ascending keys. A value that
is built has its members in any order; its sorted form is what reading its text leads to. Looking up
a member does not tell the two apart.
-/

namespace QueryScope.Json

/-- The members of an object; any other value has none. -/
def members : Json → List (String × Json)
  | .object members => members
  | _ => []

theorem sizeOf_item_lt {v : Json} {items : List Json} (h : v ∈ items) :
    sizeOf v < sizeOf (Json.array items) := by
  have := List.sizeOf_lt_of_mem h
  rw [Json.array.sizeOf_spec]
  omega

theorem sizeOf_member_lt {m : String × Json} {members : List (String × Json)} (h : m ∈ members) :
    sizeOf m.2 < sizeOf (Json.object members) := by
  have := List.sizeOf_lt_of_mem h
  have : sizeOf m = 1 + sizeOf m.1 + sizeOf m.2 := by cases m; rfl
  rw [Json.object.sizeOf_spec]
  omega

/-- To prove a property of all values, prove it of a value whose items and members have it. -/
theorem induction_on {motive : Json → Prop} (v : Json)
    (step : ∀ v, (∀ w ∈ v.items, motive w) → (∀ m ∈ v.members, motive m.2) → motive v) :
    motive v := by
  induction hn : sizeOf v using Nat.strong_induction_on generalizing v with
  | _ n ih =>
    subst hn
    refine step v (fun w hw => ih _ ?_ w rfl) fun m hm => ih _ ?_ m.2 rfl
    · cases v with
      | array items => exact sizeOf_item_lt hw
      | _ => simp [items] at hw
    · cases v with
      | object members => exact sizeOf_member_lt hm
      | _ => simp [members] at hm

/-- A value is inside another one, or the same. -/
inductive Inside (w : Json) : Json → Prop where
  | self : Inside w w
  | item {v u : Json} (hu : u ∈ v.items) (h : Inside w u) : Inside w v
  | member {v : Json} {m : String × Json} (hm : m ∈ v.members) (h : Inside w m.2) : Inside w v

/-- The values that a text can denote: every number is finite, and the keys of every object ascend,
so that they are distinct. -/
inductive WellFormed : Json → Prop where
  /-- The literal `null`. -/
  | null : WellFormed .null
  /-- A truth value. -/
  | bool (b : Bool) : WellFormed (.bool b)
  /-- An integer. -/
  | integer (n : Integer) : WellFormed (.number (.integer n))
  /-- A finite number. -/
  | float {d : Double} (h : d.isFinite = true) : WellFormed (.number (.float d))
  /-- A text. -/
  | string (s : String) : WellFormed (.string s)
  /-- A list of such values. -/
  | array {items : List Json} (h : ∀ v ∈ items, WellFormed v) : WellFormed (.array items)
  /-- Such values under ascending keys. -/
  | object {members : List (String × Json)} (keys : (members.map Prod.fst).Pairwise (· < ·))
      (h : ∀ m ∈ members, WellFormed m.2) : WellFormed (.object members)

theorem WellFormed.item {v w : Json} (h : v.WellFormed) (hw : w ∈ v.items) : w.WellFormed := by
  cases h with
  | array h => exact h w hw
  | _ => cases hw

theorem WellFormed.member {v : Json} {m : String × Json} (h : v.WellFormed) (hm : m ∈ v.members) :
    m.2.WellFormed := by
  cases h with
  | object _ h => exact h m hm
  | _ => cases hm

mutual

/-- Whether a text can denote the value. -/
def isWellFormed : Json → Bool
  | .array items => itemsWellFormed items
  | .object members => decide ((members.map Prod.fst).Pairwise (· < ·)) && membersWellFormed members
  | .number (.float d) => d.isFinite
  | .number (.integer _) => true
  | .null => true
  | .bool _ => true
  | .string _ => true

/-- Whether all items are well-formed. -/
def itemsWellFormed : List Json → Bool
  | [] => true
  | v :: rest => v.isWellFormed && itemsWellFormed rest

/-- Whether the values of all members are well-formed. -/
def membersWellFormed : List (String × Json) → Bool
  | [] => true
  | (_, v) :: rest => v.isWellFormed && membersWellFormed rest

end

theorem itemsWellFormed_eq_all (items : List Json) :
    itemsWellFormed items = items.all isWellFormed := by
  induction items with
  | nil => rfl
  | cons v rest ih => rw [itemsWellFormed, ih, List.all_cons]

theorem membersWellFormed_eq_all (members : List (String × Json)) :
    membersWellFormed members = members.all fun m => m.2.isWellFormed := by
  induction members with
  | nil => rfl
  | cons m rest ih => rw [membersWellFormed, ih, List.all_cons]

theorem wellFormed_of_isWellFormed {v : Json} (h : v.isWellFormed = true) : v.WellFormed := by
  induction v using induction_on with
  | step v ihItems ihMembers =>
    cases v with
    | null => exact .null
    | bool b => exact .bool b
    | string s => exact .string s
    | number n =>
      cases n with
      | integer n => exact .integer n
      | float d => exact .float h
    | array items =>
      rw [isWellFormed, itemsWellFormed_eq_all, List.all_eq_true] at h
      exact .array fun w hw => ihItems w hw (h w hw)
    | object members =>
      rw [isWellFormed, membersWellFormed_eq_all, Bool.and_eq_true, decide_eq_true_eq,
        List.all_eq_true] at h
      exact .object h.1 fun m hm => ihMembers m hm (h.2 m hm)

theorem WellFormed.isWellFormed {v : Json} (h : v.WellFormed) : v.isWellFormed = true := by
  induction h with
  | null | bool | integer | string => rfl
  | float h => exact h
  | array h ih =>
    rw [Json.isWellFormed, itemsWellFormed_eq_all, List.all_eq_true]
    exact ih
  | object keys h ih =>
    rw [Json.isWellFormed, membersWellFormed_eq_all, Bool.and_eq_true, decide_eq_true_eq,
      List.all_eq_true]
    exact ⟨keys, ih⟩

instance : DecidablePred WellFormed := fun v =>
  decidable_of_iff (v.isWellFormed = true) ⟨wellFormed_of_isWellFormed, WellFormed.isWellFormed⟩

theorem WellFormed.nodup {members : List (String × Json)} (h : (Json.object members).WellFormed) :
    (members.map Prod.fst).Nodup := by
  cases h with
  | object keys _ => exact keys.imp fun hlt => ne_of_lt hlt

/-! ## Looking up members -/

variable {members : List (String × Json)} {key name : String} {v w : Json}

@[simp] theorem lookup_nil : lookup [] name = none := rfl

theorem lookup_cons : lookup ((key, v) :: members) name =
    if key = name then some v else lookup members name := by
  by_cases h : key = name <;> simp [lookup, h]

theorem mem_of_lookup (h : lookup members name = some v) : (name, v) ∈ members := by
  obtain ⟨⟨k, w⟩, hfind, rfl⟩ := Option.map_eq_some_iff.mp h
  obtain rfl : k = name := by simpa using List.find?_some hfind
  exact List.mem_of_find?_eq_some hfind

theorem lookup_eq_none_iff : lookup members name = none ↔ name ∉ members.map Prod.fst := by
  induction members with
  | nil => simp
  | cons m rest ih =>
    rw [lookup_cons, List.map_cons, List.mem_cons, not_or, ← ih]
    by_cases h : m.1 = name
    · simp [h]
    · rw [if_neg h]
      exact ⟨fun hn => ⟨fun e => h e.symm, hn⟩, fun hn => hn.2⟩

theorem lookup_of_mem (hnd : (members.map Prod.fst).Nodup) (h : (name, v) ∈ members) :
    lookup members name = some v := by
  induction members with
  | nil => simp at h
  | cons m rest ih =>
    rw [List.map_cons, List.nodup_cons] at hnd
    rw [lookup_cons]
    rcases List.mem_cons.mp h with rfl | h
    · simp
    · have hne : m.1 ≠ name := fun e => hnd.1 (e ▸ List.mem_map_of_mem (f := Prod.fst) h)
      rw [if_neg hne, ih hnd.2 h]

/-- Values that are changed under their names are found changed under their names. -/
theorem lookup_map (g : String → Json → Json) :
    lookup (members.map fun m => (m.1, g m.1 m.2)) name = (lookup members name).map (g name) := by
  induction members with
  | nil => rfl
  | cons m rest ih =>
    rw [List.map_cons, lookup_cons, lookup_cons, ih]
    by_cases h : m.1 = name
    · rw [if_pos h, if_pos h, Option.map_some, h]
    · rw [if_neg h, if_neg h]

/-- The value under a key, when there is one other than `null`. -/
def present? (members : List (String × Json)) (name : String) : Option Json :=
  (lookup members name).filter fun v => !v.isNull

theorem present?_eq_some_iff :
    present? members name = some v ↔ lookup members name = some v ∧ v.isNull = false := by
  simp [present?, Option.filter_eq_some_iff]

theorem present?_eq_none_iff :
    present? members name = none ↔
      lookup members name = none ∨ lookup members name = some .null := by
  rw [present?, Option.filter_eq_none_iff]
  constructor
  · intro h
    cases hl : lookup members name with
    | none => exact Or.inl rfl
    | some v =>
      have := h v hl
      cases v <;> simp_all [isNull]
  · rintro (h | h) v hv
    · simp [h] at hv
    · obtain rfl : Json.null = v := by simpa [h] using hv
      simp [isNull]

/-! ## Sorted objects -/

theorem lookup_insertMember : lookup (insertMember key v members) name =
    if key = name then some v else lookup members name := by
  induction members with
  | nil => rw [insertMember, lookup_cons]
  | cons m rest ih =>
    obtain ⟨k, w⟩ := m
    rw [insertMember]
    by_cases hlt : key < k
    · rw [if_pos hlt, lookup_cons]
    · by_cases heq : key = k
      · subst heq
        rw [if_neg hlt, if_pos rfl, lookup_cons, lookup_cons]
        by_cases hk : key = name
        · rw [if_pos hk, if_pos hk]
        · rw [if_neg hk, if_neg hk, if_neg hk]
      · rw [if_neg hlt, if_neg heq, lookup_cons, lookup_cons, ih]
        by_cases hk : k = name
        · rw [if_pos hk, if_pos hk, if_neg fun e => heq (e.trans hk.symm)]
        · rw [if_neg hk, if_neg hk]

/-- Putting members into sorted ones, as reading an object does. -/
abbrev insertAll (sorted members : List (String × Json)) : List (String × Json) :=
  members.foldl (fun sorted m => insertMember m.1 m.2 sorted) sorted

theorem ofMembers_eq : ofMembers members = .object (insertAll [] members) := rfl

theorem lookup_insertAll (hnd : (members.map Prod.fst).Nodup) (sorted : List (String × Json)) :
    lookup (insertAll sorted members) name = (lookup members name).or (lookup sorted name) := by
  induction members generalizing sorted with
  | nil => rfl
  | cons m rest ih =>
    rw [List.map_cons, List.nodup_cons] at hnd
    rw [insertAll, List.foldl_cons, ← insertAll, ih hnd.2, lookup_insertMember, lookup_cons]
    by_cases h : m.1 = name
    · rw [h] at hnd
      rw [lookup_eq_none_iff.mpr hnd.1, if_pos h, if_pos h]
      rfl
    · rw [if_neg h, if_neg h]

theorem insertMember_keys_pairwise (h : (members.map Prod.fst).Pairwise (· < ·)) :
    ((insertMember key v members).map Prod.fst).Pairwise (· < ·) ∧
      ∀ k ∈ (insertMember key v members).map Prod.fst, k = key ∨ k ∈ members.map Prod.fst := by
  induction members with
  | nil => simp [insertMember]
  | cons m rest ih =>
    obtain ⟨k, w⟩ := m
    rw [List.map_cons, List.pairwise_cons] at h
    obtain ⟨ihp, ihm⟩ := ih h.2
    simp only [insertMember]
    split_ifs with hlt heq
    · refine ⟨?_, by simp⟩
      simp only [List.map_cons, List.pairwise_cons, List.mem_cons]
      refine ⟨?_, h⟩
      rintro a (rfl | ha)
      · exact hlt
      · exact hlt.trans (h.1 a ha)
    · subst heq
      refine ⟨?_, by simp⟩
      rw [List.map_cons, List.pairwise_cons]
      exact h
    · have hgt : k < key := lt_of_le_of_ne (not_lt.mp hlt) fun e => heq e.symm
      refine ⟨?_, ?_⟩
      · rw [List.map_cons, List.pairwise_cons]
        refine ⟨fun a ha => ?_, ihp⟩
        rcases ihm a ha with rfl | ha
        · exact hgt
        · exact h.1 a ha
      · intro a ha
        rw [List.map_cons, List.mem_cons] at ha ⊢
        rcases ha with rfl | ha
        · exact Or.inr (by simp)
        · rcases ihm a ha with h | h
          · exact Or.inl h
          · exact Or.inr (Or.inr h)

theorem mem_insertMember {m : String × Json} (h : m ∈ insertMember key v members) :
    m = (key, v) ∨ m ∈ members := by
  induction members with
  | nil => simpa [insertMember] using h
  | cons e rest ih =>
    obtain ⟨k, w⟩ := e
    simp only [insertMember] at h
    split_ifs at h with hlt heq
    · simpa using h
    · rcases List.mem_cons.mp h with rfl | h
      · exact Or.inl rfl
      · exact Or.inr (List.mem_cons_of_mem _ h)
    · rcases List.mem_cons.mp h with rfl | h
      · exact Or.inr List.mem_cons_self
      · exact (ih h).imp_right (List.mem_cons_of_mem _)

theorem insertAll_keys_pairwise {sorted : List (String × Json)}
    (h : (sorted.map Prod.fst).Pairwise (· < ·)) :
    ((insertAll sorted members).map Prod.fst).Pairwise (· < ·) := by
  induction members generalizing sorted with
  | nil => exact h
  | cons m rest ih => exact ih (insertMember_keys_pairwise h).1

theorem mem_insertAll {sorted : List (String × Json)} {m : String × Json}
    (h : m ∈ insertAll sorted members) : m ∈ sorted ∨ m ∈ members := by
  induction members generalizing sorted with
  | nil => exact Or.inl h
  | cons e rest ih =>
    rcases ih h with h | h
    · rcases mem_insertMember h with rfl | h
      · exact Or.inr List.mem_cons_self
      · exact Or.inl h
    · exact Or.inr (List.mem_cons_of_mem _ h)

/-- An object that is put together from members is well-formed when their values are. -/
theorem WellFormed.ofMembers (h : ∀ m ∈ members, m.2.WellFormed) :
    (Json.ofMembers members).WellFormed := by
  refine .object (insertAll_keys_pairwise .nil) fun m hm => ?_
  rcases mem_insertAll hm with hm | hm
  · cases hm
  · exact h m hm

theorem insertMember_last (h : ∀ m ∈ members, m.1 < key) :
    insertMember key v members = members ++ [(key, v)] := by
  induction members with
  | nil => rfl
  | cons m rest ih =>
    have hlt : m.1 < key := h m List.mem_cons_self
    rw [insertMember, if_neg (lt_asymm hlt), if_neg (ne_of_gt hlt),
      ih fun e he => h e (List.mem_cons_of_mem _ he), List.cons_append]

/-- Members in ascending order stay as they are. -/
theorem ofMembers_of_pairwise (h : (members.map Prod.fst).Pairwise (· < ·)) :
    ofMembers members = .object members := by
  have hall (sorted : List (String × Json))
      (hs : ((sorted ++ members).map Prod.fst).Pairwise (· < ·)) :
      insertAll sorted members = sorted ++ members := by
    clear h
    induction members generalizing sorted with
    | nil => simp [insertAll]
    | cons m rest ih =>
      have hlast : insertMember m.1 m.2 sorted = sorted ++ [m] := by
        refine insertMember_last fun e he => ?_
        rw [List.map_append, List.pairwise_append] at hs
        exact hs.2.2 e.1 (List.mem_map_of_mem he) m.1 (by simp)
      rw [insertAll, List.foldl_cons, ← insertAll, hlast, ih, List.append_assoc,
        List.singleton_append]
      rwa [List.append_assoc, List.singleton_append]
  rw [ofMembers_eq, hall [] h, List.nil_append]

mutual

/-- The value with the members of all objects in ascending order. -/
def sorted : Json → Json
  | .array items => .array (sortedItems items)
  | .object members => ofMembers (sortedMembers members)
  | .null => .null
  | .bool b => .bool b
  | .number n => .number n
  | .string s => .string s

/-- The items of an array in their sorted form. -/
def sortedItems : List Json → List Json
  | [] => []
  | v :: rest => v.sorted :: sortedItems rest

/-- The members of an object with values in their sorted form. -/
def sortedMembers : List (String × Json) → List (String × Json)
  | [] => []
  | (key, v) :: rest => (key, v.sorted) :: sortedMembers rest

end

theorem sortedItems_eq_map (items : List Json) : sortedItems items = items.map sorted := by
  induction items with
  | nil => rfl
  | cons v rest ih => rw [sortedItems, ih, List.map_cons]

theorem sortedMembers_eq_map (members : List (String × Json)) :
    sortedMembers members = members.map fun m => (m.1, m.2.sorted) := by
  induction members with
  | nil => rfl
  | cons m rest ih => rw [sortedMembers, ih, List.map_cons]

@[simp] theorem isNull_sorted : v.sorted.isNull = v.isNull := by
  cases v <;> rfl

/-- A well-formed value is sorted. -/
theorem WellFormed.sorted_eq (h : v.WellFormed) : v.sorted = v := by
  induction h with
  | null | bool | integer | float | string => rfl
  | array h ih =>
    rw [sorted, sortedItems_eq_map, List.map_congr_left ih, List.map_id']
  | object keys h ih =>
    have : ∀ m ∈ ‹List (String × Json)›, (m.1, m.2.sorted) = m := fun m hm => by rw [ih m hm]
    rw [sorted, sortedMembers_eq_map, List.map_congr_left this, List.map_id',
      ofMembers_of_pairwise keys]

end QueryScope.Json
