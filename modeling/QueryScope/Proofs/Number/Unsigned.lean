import QueryScope.Proofs.Number.Places

/-!
# Unsigned numbers

Digits with at most one point among them are read as the double nearest to the number that they
denote. Of the texts that have only digits and points no other one is read.
-/

namespace QueryScope

/-- At least one digit, and at most one point. -/
structure IsUnsigned (number : List Char) : Prop where
  chars : ∀ c ∈ number, c.isDigit = true ∨ c = '.'
  digit : ∃ c ∈ number, c.isDigit = true
  point : number.count '.' ≤ 1

/-- The digits as one number, divided by ten for each digit behind the point. -/
def unsignedValue (number : List Char) : ℚ :=
  Nat.ofDigitChars 10 (number.filter Char.isDigit) 0 /
    10 ^ (number.dropWhile Char.isDigit).countP Char.isDigit

variable {number whole fraction : List Char}

/-! ## The two forms -/

/-- Digits and points are all digits, or digits up to a first point. -/
theorem digits_or_point (h : ∀ c ∈ number, c.isDigit = true ∨ c = '.') :
    (∀ c ∈ number, c.isDigit = true) ∨
      ∃ whole rest, number = whole ++ '.' :: rest ∧ (∀ c ∈ whole, c.isDigit = true) ∧
        ∀ c ∈ rest, c.isDigit = true ∨ c = '.' := by
  by_cases hpoint : '.' ∈ number
  · right
    obtain ⟨whole, rest, rfl, hwhole⟩ := List.eq_append_cons_of_mem hpoint
    obtain ⟨hdigits, hrest⟩ := List.forall_mem_append.mp h
    refine ⟨whole, rest, rfl, fun c hc => ?_, fun c hc => hrest c (List.mem_cons_of_mem _ hc)⟩
    exact (hdigits c hc).resolve_right fun heq => hwhole (heq ▸ hc)
  · left
    intro c hc
    exact (h c hc).resolve_right fun heq => hpoint (heq ▸ hc)

theorem dot_notMem_of_digits (h : ∀ c ∈ number, c.isDigit = true) : '.' ∉ number :=
  fun hdot => absurd (h '.' hdot) (by decide)

theorem isUnsigned_digits (hne : number ≠ []) (h : ∀ c ∈ number, c.isDigit = true) :
    IsUnsigned number where
  chars c hc := Or.inl (h c hc)
  digit := by
    obtain ⟨c, hc⟩ := List.exists_mem_of_ne_nil number hne
    exact ⟨c, hc, h c hc⟩
  point := by
    rw [List.count_eq_zero_of_not_mem (dot_notMem_of_digits h)]
    exact Nat.zero_le 1

theorem isUnsigned_places (hne : whole ≠ [] ∨ fraction ≠ [])
    (hw : ∀ c ∈ whole, c.isDigit = true) (hf : ∀ c ∈ fraction, c.isDigit = true) :
    IsUnsigned (whole ++ '.' :: fraction) where
  chars c hc := by
    rcases List.mem_append.mp hc with hc | hc
    · exact Or.inl (hw c hc)
    · rcases List.mem_cons.mp hc with rfl | hc
      · exact Or.inr rfl
      · exact Or.inl (hf c hc)
  digit := by
    rcases hne with hne | hne
    · obtain ⟨c, hc⟩ := List.exists_mem_of_ne_nil whole hne
      exact ⟨c, List.mem_append_left _ hc, hw c hc⟩
    · obtain ⟨c, hc⟩ := List.exists_mem_of_ne_nil fraction hne
      exact ⟨c, List.mem_append_right _ (List.mem_cons_of_mem _ hc), hf c hc⟩
  point := by
    rw [List.count_append, List.count_cons_self,
      List.count_eq_zero_of_not_mem (dot_notMem_of_digits hw),
      List.count_eq_zero_of_not_mem (dot_notMem_of_digits hf)]

/-- Unsigned numbers have no point, or one with a digit on either side of it. -/
theorem IsUnsigned.digits_or_places (h : IsUnsigned number) :
    (number ≠ [] ∧ ∀ c ∈ number, c.isDigit = true) ∨
      ∃ whole fraction, number = whole ++ '.' :: fraction ∧ (whole ≠ [] ∨ fraction ≠ []) ∧
        (∀ c ∈ whole, c.isDigit = true) ∧ ∀ c ∈ fraction, c.isDigit = true := by
  rcases digits_or_point h.chars with hdigits | ⟨whole, rest, rfl, hwhole, hrest⟩
  · left
    obtain ⟨c, hc, -⟩ := h.digit
    exact ⟨List.ne_nil_of_mem hc, hdigits⟩
  · right
    have hpoint : rest.count '.' = 0 := by
      have h := h.point
      rw [List.count_append, List.count_cons_self] at h
      omega
    refine ⟨whole, rest, rfl, ?_, hwhole, fun c hc => ?_⟩
    · obtain ⟨c, hc, hdigit⟩ := h.digit
      rcases List.mem_append.mp hc with hc | hc
      · exact Or.inl (List.ne_nil_of_mem hc)
      · rcases List.mem_cons.mp hc with rfl | hc
        · exact absurd hdigit (by decide)
        · exact Or.inr (List.ne_nil_of_mem hc)
    · exact (hrest c hc).resolve_right fun heq => List.count_eq_zero.mp hpoint (heq ▸ hc)

theorem unsignedValue_digits (h : ∀ c ∈ number, c.isDigit = true) :
    unsignedValue number = digitsValue number := by
  have hfilter : number.filter Char.isDigit = number := List.filter_eq_self.mpr h
  have hdrop : number.dropWhile Char.isDigit = [] := List.dropWhile_eq_nil_iff.mpr h
  rw [unsignedValue, hfilter, hdrop, digitsValue_eq, List.countP_nil, pow_zero, div_one]

theorem unsignedValue_places (hw : ∀ c ∈ whole, c.isDigit = true)
    (hf : ∀ c ∈ fraction, c.isDigit = true) : unsignedValue (whole ++ '.' :: fraction) =
      (digitsValue (whole ++ fraction) : ℚ) / (10 ^ fraction.length : Nat) := by
  have hdot : ('.' : Char).isDigit = false := by decide
  have hfilter : (whole ++ '.' :: fraction).filter Char.isDigit = whole ++ fraction := by
    rw [List.filter_append, List.filter_cons_of_neg (by simp [hdot]), List.filter_eq_self.mpr hw,
      List.filter_eq_self.mpr hf]
  have hcount : ('.' :: fraction).countP Char.isDigit = fraction.length := by
    rw [List.countP_cons_of_neg (by simp [hdot])]
    exact List.countP_eq_length.mpr hf
  rw [unsignedValue, hfilter, dropWhile_append_cons hw hdot, hcount, digitsValue_eq, Nat.cast_pow,
    Nat.cast_ofNat]

/-! ## Reading -/

/-- An unsigned number is read as the double nearest to its value. -/
theorem IsUnsigned.exists_ofText? (h : IsUnsigned number) :
    ∃ num den : Nat, 0 < den ∧ (num : ℚ) / den = unsignedValue number ∧
      Double.ofText? number = some (Double.ofRatio false num den) := by
  rcases h.digits_or_places with ⟨hne, hdigits⟩ | ⟨whole, fraction, rfl, hne, hw, hf⟩
  · refine ⟨digitsValue number, 1, Nat.one_pos, ?_, ?_⟩
    · rw [unsignedValue_digits hdigits, Nat.cast_one, div_one]
    · rw [Double.ofText?_digits hne hdigits]
      exact congrArg some (Double.ofDecimal_neg _ 0)
  · refine ⟨digitsValue (whole ++ fraction), 10 ^ fraction.length, by positivity, ?_, ?_⟩
    · rw [unsignedValue_places hw hf]
    · rw [Double.ofText?_places hne hw hf, Double.ofDecimal_neg]

/-- Nothing is read that has a second point. -/
theorem readUnsigned_two_points {rest : List Char} (hw : ∀ c ∈ whole, c.isDigit = true)
    (hf : ∀ c ∈ fraction, c.isDigit = true) :
    Double.readUnsigned false (whole ++ '.' :: (fraction ++ '.' :: rest)) = none := by
  have hdot : ('.' : Char).isDigit = false := by decide
  simp [Double.readUnsigned, dropWhile_append_cons hw hdot, dropWhile_append_cons hf hdot,
    Double.readExponent]

/-- Of the texts that have only digits and points, those that are read are unsigned numbers. -/
theorem isUnsigned_of_ofText? {x : Double} (hchars : ∀ c ∈ number, c.isDigit = true ∨ c = '.')
    (hx : Double.ofText? number = some x) : IsUnsigned number := by
  cases number with
  | nil => cases hx
  | cons c tail =>
    rw [Double.ofText?_of_isDigit_or_point (hchars c List.mem_cons_self)] at hx
    obtain ⟨l, hl, -⟩ := Option.map_eq_some_iff.mp hx
    rcases digits_or_point hchars with hdigits | ⟨whole, rest, heq, hwhole, hrest⟩
    · exact isUnsigned_digits (List.cons_ne_nil _ _) hdigits
    rw [heq] at hl ⊢
    rcases digits_or_point hrest with hfraction | ⟨fraction, rest', rfl, hfraction, -⟩
    · refine isUnsigned_places ?_ hwhole hfraction
      by_contra hempty
      obtain ⟨rfl, rfl⟩ := not_or.mp hempty |>.imp not_not.mp not_not.mp
      cases hl
    · rw [readUnsigned_two_points hwhole hfraction] at hl
      cases hl

end QueryScope
