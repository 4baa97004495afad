import QueryScope.Proofs.MeasureText
import QueryScope.Proofs.Number.Unsigned

/-!
# The grammar of measures

The texts that are read as measures are the unsigned numbers with a unit behind them and blanks
anywhere but inside the two, as far as the number is not rounded to an infinity. The magnitude that
is read is the double nearest to the number.
-/

namespace QueryScope

namespace Measure

variable {υ : Type} [UnitSystem υ] {text : String} {m : Measure υ} {number : List Char}

/-- The text spells an unsigned number in the unit of the measure, and the magnitude is the double
nearest to that number. -/
def IsReading (text : String) (m : Measure υ) : Prop :=
  ∃ number, Spells text number m.unit ∧ IsUnsigned number ∧
    unsignedValue number < Double.overflow ∧
      ∃ mantissa exponent, ∃ h : CanonicalForm mantissa exponent,
        m.magnitude = .finite false mantissa exponent h ∧
          Double.IsNearest (unsignedValue number) mantissa exponent

/-- An unsigned number in a unit is read unless it overflows. -/
theorem parse_of_isUnsigned [UnitSystem.Lawful υ] {u : υ} (hspells : Spells text number u)
    (hunsigned : IsUnsigned number) (hvalue : unsignedValue number < Double.overflow) :
    ∃ mantissa exponent, ∃ h : CanonicalForm mantissa exponent,
      parse text = .ok ⟨.finite false mantissa exponent h, u⟩ ∧
        Double.IsNearest (unsignedValue number) mantissa exponent := by
  obtain ⟨num, den, hden, hratio, hread⟩ := hunsigned.exists_ofText?
  rw [← hratio] at hvalue ⊢
  obtain ⟨mantissa, exponent, h, hdouble, hnearest⟩ := Double.exists_ofRatio_eq false hden hvalue
  obtain ⟨c, hc, -⟩ := hunsigned.digit
  refine ⟨mantissa, exponent, h, ?_, hnearest⟩
  rw [parse_of_spells (List.ne_nil_of_mem hc)
    (fun c hc => isMagnitudeChar_iff.mpr (hunsigned.chars c hc)) hread hspells, hdouble]
  exact make_finite h u

theorem isReading_of_parse (h : parse text = .ok m) : IsReading text m := by
  obtain ⟨number, hspells, hnumber, hread, hfinite⟩ := exists_spells_of_parse h
  have hunsigned : IsUnsigned number :=
    isUnsigned_of_ofText? (fun c hc => isMagnitudeChar_iff.mp (hnumber c hc)) hread
  obtain ⟨num, den, hden, hratio, hdouble⟩ := hunsigned.exists_ofText?
  obtain hmagnitude := Option.some.inj (hread.symm.trans hdouble)
  have hvalue : (num : ℚ) / den < Double.overflow := by
    by_contra hover
    rw [hmagnitude, Double.ofRatio_of_overflow_le false hden (not_lt.mp hover)] at hfinite
    cases hfinite
  obtain ⟨mantissa, exponent, hc, hfinite, hnearest⟩ := Double.exists_ofRatio_eq false hden hvalue
  rw [hratio] at hvalue hnearest
  exact ⟨number, hspells, hunsigned, hvalue, mantissa, exponent, hc, hmagnitude.trans hfinite,
    hnearest⟩

theorem parse_ok_iff [UnitSystem.Lawful υ] : parse text = .ok m ↔ IsReading text m := by
  refine ⟨isReading_of_parse, ?_⟩
  obtain ⟨magnitude, u⟩ := m
  rintro ⟨number, hspells, hunsigned, hvalue, mantissa, exponent, hc, rfl, hnearest⟩
  obtain ⟨mantissa', exponent', hc', hparse, hnearest'⟩ :=
    parse_of_isUnsigned hspells hunsigned hvalue
  obtain ⟨rfl, rfl⟩ := hnearest.unique hc hc' hnearest'
  exact hparse

/-- Signs, and a letter from every notation of an exponent, of infinity or of not-a-number. -/
def foreignChars : List Char :=
  ['+', '-', 'e', 'E', 'i', 'I', 'a', 'A']

/-- The texts of a kind of measure are read by their grammar, for the suffixes of its units. -/
structure FollowsGrammar (υ : Type) [UnitSystem υ] (suffixes : List String) : Prop where
  /-- Every suffix has a unit, and every unit a suffix. -/
  mem_suffixes_iff : ∀ s, s ∈ suffixes ↔ ∃ u : υ, UnitSystem.suffix u = s
  /-- The texts that are read. -/
  accepts_iff : ∀ text, (∃ m : Measure υ, parse text = .ok m) ↔
    ∃ number, ∃ u : υ, Spells text number u ∧ IsUnsigned number ∧
      unsignedValue number < Double.overflow
  /-- What they are read as. -/
  ok_iff : ∀ text (m : Measure υ), parse text = .ok m ↔ IsReading text m
  /-- None of them has a sign, an exponent or a word for a number. -/
  notMem_foreignChars : ∀ text (m : Measure υ), parse text = .ok m →
    ∀ c ∈ text.toList, c ∉ foreignChars
  /-- Only blanks stand behind the unit. -/
  blank_behind_unit : ∀ text (m : Measure υ), parse text = .ok m → ∃ before after,
    text.toList = before ++ (UnitSystem.suffix m.unit).toList ++ after ∧
      ∀ c ∈ after, Text.isBlank c = true

theorem not_foreign {p : Char → Bool} {c : Char}
    (hforeign : foreignChars.all (fun c => !p c) = true) (hc : p c = true) : c ∉ foreignChars := by
  intro hmem
  have hno := List.all_eq_true.mp hforeign c hmem
  rw [hc] at hno
  cases hno

theorem Spells.forall_mem {u : υ} {p : Char → Prop} (h : Spells text number u)
    (hnumber : ∀ c ∈ number, p c) (hsuffix : ∀ c ∈ (UnitSystem.suffix u).toList, p c)
    (hblank : ∀ c, Text.isBlank c = true → p c) : ∀ c ∈ text.toList, p c := by
  obtain ⟨before, between, after, htext, hblanks⟩ := h
  obtain ⟨hfront, hafter⟩ := List.forall_mem_append.mp hblanks
  obtain ⟨hbefore, hbetween⟩ := List.forall_mem_append.mp hfront
  rw [htext]
  simp only [List.forall_mem_append]
  exact ⟨⟨⟨⟨fun c hc => hblank c (hbefore c hc), hnumber⟩,
    fun c hc => hblank c (hbetween c hc)⟩, hsuffix⟩, fun c hc => hblank c (hafter c hc)⟩

theorem FollowsGrammar.of_suffixes [UnitSystem.Lawful υ] {suffixes : List String}
    (hsuffixes : (UnitSystem.units : List υ).map UnitSystem.suffix = suffixes)
    (hforeign : ∀ u : υ, (UnitSystem.suffix u).toList.all (fun c => decide (c ∉ foreignChars)) =
      true) :
    FollowsGrammar υ suffixes where
  mem_suffixes_iff s := by
    rw [← hsuffixes, List.mem_map]
    exact exists_congr fun u => and_iff_right (UnitSystem.Lawful.mem_units u)
  accepts_iff text := by
    constructor
    · rintro ⟨m, hm⟩
      obtain ⟨number, hspells, hunsigned, hvalue, -⟩ := parse_ok_iff.mp hm
      exact ⟨number, m.unit, hspells, hunsigned, hvalue⟩
    · rintro ⟨number, u, hspells, hunsigned, hvalue⟩
      obtain ⟨mantissa, exponent, h, hparse, -⟩ := parse_of_isUnsigned hspells hunsigned hvalue
      exact ⟨_, hparse⟩
  ok_iff _ _ := parse_ok_iff
  notMem_foreignChars text m hm := by
    obtain ⟨number, hspells, hunsigned, -⟩ := parse_ok_iff.mp hm
    refine hspells.forall_mem (fun c hc => ?_) (fun c hc => ?_) fun c hc => ?_
    · exact not_foreign (by decide) (isMagnitudeChar_iff.mpr (hunsigned.chars c hc))
    · exact of_decide_eq_true (List.all_eq_true.mp (hforeign m.unit) c hc)
    · exact not_foreign (by decide) hc
  blank_behind_unit text m hm := by
    obtain ⟨number, ⟨before, between, after, htext, hblank⟩, -⟩ := parse_ok_iff.mp hm
    exact ⟨before ++ number ++ between, after, htext, (List.forall_mem_append.mp hblank).2⟩

end Measure

/-- Sizes and durations are read by their grammars. -/
theorem measures_followGrammar :
    Measure.FollowsGrammar DataUnit ["B", "kB", "MB", "GB", "TB", "PB"] ∧
      Measure.FollowsGrammar TimeUnit ["ns", "us", "ms", "s", "m", "h", "d"] := by
  constructor
  · exact .of_suffixes rfl fun u => by cases u <;> decide
  · exact .of_suffixes rfl fun u => by cases u <;> decide

end QueryScope
