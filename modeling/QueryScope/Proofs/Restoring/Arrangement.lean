import QueryScope.Proofs.Json.WellFormed
import QueryScope.Wire.Select

/-!
# Values as they are written

A value is written with the members of its objects in the order of writing; read from its text, it
has them in ascending order. Both are *arrangements* of the value, and an arranged object has the
same members under the same names, so that the same variant is chosen for it.
-/

namespace QueryScope

variable {f : Json → Json} {v : Json} {members own es : List (String × Json)} {name : String}

namespace Json

/-- A way to put the members of all objects of a value into some order. Members that ascend already
stay in their order. -/
structure Arrangement (f : Json → Json) : Prop where
  wellFormed : ∀ {v : Json}, v.WellFormed → f v = v
  isNull : ∀ v : Json, (f v).isNull = v.isNull
  array : ∀ items : List Json, f (.array items) = .array (items.map f)
  object : ∀ members : List (String × Json), (members.map Prod.fst).Nodup → ∃ es,
    f (.object members) = .object es ∧ ∀ name, lookup es name = (lookup members name).map f
  ascending : ∀ members : List (String × Json), (members.map Prod.fst).Pairwise (· < ·) →
    f (.object members) = .object (members.map fun m => (m.1, f m.2))

/-- The order of writing. -/
theorem Arrangement.id : Arrangement id where
  wellFormed _ := rfl
  isNull _ := rfl
  array items := by rw [List.map_id]; rfl
  object members _ := ⟨members, rfl, fun name => by rw [Option.map_id]; rfl⟩
  ascending members _ := (congrArg Json.object (List.map_id members)).symm

/-- The order of reading. -/
theorem Arrangement.sorted : Arrangement sorted where
  wellFormed h := h.sorted_eq
  isNull v := isNull_sorted
  array items := by rw [Json.sorted, sortedItems_eq_map]
  object members hnd := by
    have hkeys : ((sortedMembers members).map Prod.fst).Nodup := by
      rw [sortedMembers_eq_map, List.map_map]
      exact hnd
    refine ⟨_, ofMembers_eq, fun name => ?_⟩
    rw [lookup_insertAll hkeys, lookup_nil, Option.or_none, sortedMembers_eq_map]
    exact lookup_map fun _ => Json.sorted
  ascending members h := by
    rw [Json.sorted, sortedMembers_eq_map, ofMembers_of_pairwise]
    rw [List.map_map]
    exact h

/-! ## The members of a written object -/

theorem lookup_append :
    lookup (members ++ es) name = (lookup members name).or (lookup es name) := by
  simp [lookup, List.find?_append, Option.map_or]

theorem lookup_optionalMember {key : String} {o : Option Json} :
    lookup (optionalMember key o) name = if key = name then o else none := by
  cases o with
  | none => simp [optionalMember]
  | some v => rw [optionalMember, lookup_cons, lookup_nil]

/-- The value is an object that has the members, in some order. -/
def HasMembers (v : Json) (members : List (String × Json)) : Prop :=
  ∃ own, v = .object own ∧ (own.map Prod.fst).Nodup ∧ ∀ name, lookup own name = lookup members name

theorem hasMembers_object (hnd : (members.map Prod.fst).Nodup) :
    (object members).HasMembers members :=
  ⟨members, rfl, hnd, fun _ => rfl⟩

theorem hasMembers_ofMembers (hnd : (members.map Prod.fst).Nodup) :
    (ofMembers members).HasMembers members := by
  refine ⟨_, ofMembers_eq, ?_, fun name => ?_⟩
  · exact (insertAll_keys_pairwise .nil).imp fun hlt => ne_of_lt hlt
  · rw [lookup_insertAll hnd, lookup_nil, Option.or_none]

theorem HasMembers.isNull (h : v.HasMembers members) : v.isNull = false := by
  obtain ⟨own, rfl, -, -⟩ := h
  rfl

/-- The second members are the first ones, arranged, in some order. -/
def Arranged (f : Json → Json) (members es : List (String × Json)) : Prop :=
  ∀ name, lookup es name = (lookup members name).map f

theorem Arrangement.exists_arranged (hf : Arrangement f) (h : v.HasMembers members) :
    ∃ es, f v = .object es ∧ Arranged f members es := by
  obtain ⟨own, rfl, hnd, hown⟩ := h
  obtain ⟨es, hes, hlookup⟩ := hf.object own hnd
  exact ⟨es, hes, fun name => by rw [hlookup, hown]⟩

theorem Arranged.eq_nil (h : Arranged f [] es) : es = [] := by
  cases es with
  | nil => rfl
  | cons m rest =>
    obtain ⟨key, v⟩ := m
    simpa [lookup_cons] using h key

end Json

/-! ## Keys and variants -/

theorem hasKey_eq_isSome_lookup :
    hasKey members name = (Json.lookup members name).isSome := by
  rw [hasKey, Json.lookup, Option.isSome_map, List.isSome_find?]

theorem Json.Arranged.hasKey (h : Json.Arranged f members es) :
    QueryScope.hasKey es name = QueryScope.hasKey members name := by
  rw [hasKey_eq_isSome_lookup, hasKey_eq_isSome_lookup, h, Option.isSome_map]

namespace VariantTable

variable {i : Interface} {t : VariantTable i} {w : Variant i}

theorem selectByKeys_ok_congr (h : ∀ key, hasKey es key = hasKey members key) :
    t.selectByKeys es = .ok w ↔ t.selectByKeys members = .ok w := by
  have hcandidates : t.candidates es = t.candidates members := by
    rw [candidates, candidates, funext h]
  rw [selectByKeys, selectByKeys, hcandidates]
  rcases greatest (t.candidates members) with _ | ⟨first, _ | ⟨second, rest⟩⟩ <;> simp

/-- The same variant is chosen for an object however it is arranged. -/
theorem select_arranged (hf : Json.Arrangement f) (h : Json.Arranged f members es)
    (hs : t.select members = .ok w) : t.select es = .ok w := by
  unfold select at hs ⊢
  cases htag : i.tagKey with
  | none =>
    rw [htag] at hs
    exact (selectByKeys_ok_congr fun key => h.hasKey).mpr hs
  | some key =>
    simp only [htag] at hs ⊢
    rw [h key]
    cases hl : Json.lookup members key with
    | none =>
      simp only [hl] at hs
      exact (selectByKeys_ok_congr fun key => h.hasKey).mpr hs
    | some tag =>
      simp only [hl] at hs
      cases tag with
      | string s =>
        rw [Option.map_some, hf.wellFormed (.string s)]
        exact hs
      | _ => cases hs

end VariantTable

end QueryScope
