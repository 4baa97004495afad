import QueryScope.Json.Parser
import QueryScope.Proofs.Json.WellFormed

/-!
# Reading JSON gives well-formed values
-/

namespace QueryScope.Json

theorem NumberText.value?_wellFormed {n : NumberText} {k : Number} (h : n.value? = some k) :
    (Json.number k).WellFormed := by
  unfold NumberText.value? at h
  cases hint : (if n.isWhole ∧ ¬(n.literal.negative ∧ digitsValue n.literal.whole = 0) then
      Integer.ofInt? (if n.literal.negative then -(digitsValue n.literal.whole : Int)
        else digitsValue n.literal.whole) else none) with
  | some m =>
    simp only [hint, Option.some.injEq] at h
    exact h ▸ .integer m
  | none =>
    simp only [hint, Option.ite_none_right_eq_some, Option.some.injEq] at h
    obtain ⟨hfin, rfl⟩ := h
    exact .float hfin

/-- What reading a value, the items of an array or the members of an object leads to, with the same
fuel. -/
theorem value?_wellFormed_all (limit fuel : Nat) :
    (∀ depth text v rest, value? limit fuel depth text = some (v, rest) → v.WellFormed) ∧
    (∀ depth read text v rest, (∀ w ∈ read, w.WellFormed) →
      items? limit fuel depth read text = some (v, rest) → v.WellFormed) ∧
    ∀ depth read text v rest, (∀ m ∈ read, m.2.WellFormed) →
      members? limit fuel depth read text = some (v, rest) → v.WellFormed := by
  induction fuel with
  | zero => simp [value?, items?, members?]
  | succ fuel ih =>
    obtain ⟨ihv, ihi, ihm⟩ := ih
    refine ⟨?_, ?_, ?_⟩
    · intro depth text v rest h
      simp only [value?] at h
      split at h
      · simp at h
      · simp only [Option.bind_eq_bind, Option.bind_eq_some_iff, Option.some.injEq,
          Prod.mk.injEq] at h
        obtain ⟨_, -, rfl, -⟩ := h
        exact .string _
      · split at h
        · simp at h
        · split at h
          · simp only [Option.some.injEq, Prod.mk.injEq] at h
            exact h.1 ▸ .array (by simp)
          · exact ihi _ _ _ _ _ (by simp) h
      · split at h
        · simp at h
        · split at h
          · simp only [Option.some.injEq, Prod.mk.injEq] at h
            exact h.1 ▸ .object (by simp) (by simp)
          · exact ihm _ _ _ _ _ (by simp) h
      · simp only [Option.map_eq_some_iff, Prod.mk.injEq] at h
        obtain ⟨_, -, rfl, -⟩ := h
        exact .null
      · simp only [Option.map_eq_some_iff, Prod.mk.injEq] at h
        obtain ⟨_, -, rfl, -⟩ := h
        exact .bool true
      · simp only [Option.map_eq_some_iff, Prod.mk.injEq] at h
        obtain ⟨_, -, rfl, -⟩ := h
        exact .bool false
      · simp only [Option.bind_eq_bind, Option.bind_eq_some_iff, Option.some.injEq,
          Prod.mk.injEq] at h
        obtain ⟨_, -, _, hn, rfl, -⟩ := h
        exact NumberText.value?_wellFormed hn
    · intro depth read text v rest hread h
      simp only [items?] at h
      split at h
      · simp at h
      · rename_i item _ hitem
        have hall : ∀ w ∈ item :: read, w.WellFormed :=
          List.forall_mem_cons.mpr ⟨ihv _ _ _ _ hitem, hread⟩
        split at h
        · exact ihi _ _ _ _ _ hall h
        · simp only [Option.some.injEq, Prod.mk.injEq] at h
          exact h.1 ▸ .array fun w hw => hall w (List.mem_reverse.mp hw)
        · simp at h
    · intro depth read text v rest hread h
      simp only [members?] at h
      split at h
      · simp at h
      · rename_i key _ _
        split at h
        · split at h
          · simp at h
          · rename_i value _ hvalue
            have hall : ∀ m ∈ (key, value) :: read, m.2.WellFormed :=
              List.forall_mem_cons.mpr ⟨ihv _ _ _ _ hvalue, hread⟩
            split at h
            · exact ihm _ _ _ _ _ hall h
            · simp only [Option.some.injEq, Prod.mk.injEq] at h
              exact h.1 ▸ .ofMembers fun m hm => hall m (List.mem_reverse.mp hm)
            · simp at h
        · simp at h

/-- What is read from a text is well-formed. -/
theorem parse?_wellFormed {text : String} {v : Json} (h : parse? text = some v) :
    v.WellFormed := by
  simp only [parse?] at h
  split at h
  · rename_i w rest hvalue
    split_ifs at h
    obtain rfl := Option.some.inj h
    exact (value?_wellFormed_all _ _).1 _ _ _ _ hvalue
  · simp at h

/-- Parts of a text with their characters. -/
theorem append_eq_ofList {s t : String} {a b : List Char} (hs : s = String.ofList a)
    (ht : t = String.ofList b) : s ++ t = String.ofList (a ++ b) := by
  rw [hs, ht, String.ofList_append]

/-- A text whose characters hold one value denotes it. -/
theorem parse?_of_eq_ofList {text : String} {chars : List Char} {v : Json}
    (htext : text = String.ofList chars)
    (h : value? (chars.length + 1) (chars.length + 1) maxDepth chars = some (v, [])) :
    parse? text = some v := by
  simp only [parse?, htext, String.toList_ofList, h]
  rfl

/-! ## As the parser of the program -/

theorem parse_eq_ok_iff {text : String} {v : Json} :
    Parser.parse text = .ok v ↔ parse? text = some v :=
  Parser.parse_ofOption_eq_ok_iff

theorem yields_wellFormed : Parser.Yields String Json.WellFormed :=
  fun _ _ h => parse?_wellFormed (parse_eq_ok_iff.mp h)

end QueryScope.Json
