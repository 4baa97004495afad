import QueryScope.Measure
import QueryScope.Proofs.Decoding
import QueryScope.Proofs.Number.Places

/-!
# Reading the text of a measure

The text of a measure is read again as a measure, which is the same one when the magnitude is whole.
Otherwise the magnitude has been rounded to two places. A measure that is read from a text with two
places is written with the same places, unless they are both zeros: then the magnitude that is read
is whole, and is written without places from then on.
-/

namespace QueryScope

/-- The suffixes of the units are words of letters, one for each unit. -/
class UnitSystem.Lawful (υ : Type) [UnitSystem υ] : Prop where
  mem_units : ∀ u : υ, u ∈ (units : List υ)
  suffix_injective : ∀ u v : υ, suffix u = suffix v → u = v
  suffix_ne_nil : ∀ u : υ, (suffix u).toList ≠ []
  isAlpha_suffix : ∀ u : υ, ∀ c ∈ (suffix u).toList, c.isAlpha = true

instance : UnitSystem.Lawful DataUnit where
  mem_units u := by cases u <;> decide
  suffix_injective u v := by cases u <;> cases v <;> decide
  suffix_ne_nil u := by cases u <;> decide
  isAlpha_suffix u := List.all_eq_true.mp (by cases u <;> decide)

instance : UnitSystem.Lawful TimeUnit where
  mem_units u := by cases u <;> decide
  suffix_injective u v := by cases u <;> cases v <;> decide
  suffix_ne_nil u := by cases u <;> decide
  isAlpha_suffix u := List.all_eq_true.mp (by cases u <;> decide)

namespace Measure

variable {υ : Type} [UnitSystem υ] {text : String} {m : Measure υ} {number : List Char} {c : Char}

/-! ## Characters -/

theorem isMagnitudeChar_iff : isMagnitudeChar c = true ↔ c.isDigit = true ∨ c = '.' := by
  rw [isMagnitudeChar, Bool.or_eq_true, beq_iff_eq]

theorem isBlank_eq_false (h : 0x20 < c.toNat) (h' : c.toNat < 0x7F) : Text.isBlank c = false := by
  simp only [Text.isBlank, Text.blankCodes, List.contains_eq_mem, decide_eq_false_iff_not,
    List.mem_cons, List.not_mem_nil, or_false]
  omega

theorem isBlank_of_isMagnitudeChar (h : isMagnitudeChar c = true) : Text.isBlank c = false := by
  rcases isMagnitudeChar_iff.mp h with hdigit | rfl
  · obtain ⟨d, hd, rfl⟩ := exists_eq_digitChar hdigit
    have hcode := Nat.toNat_digitChar_of_lt_ten hd
    exact isBlank_eq_false (by omega) (by omega)
  · decide

theorem toNat_of_isAlpha (h : c.isAlpha = true) : 0x41 ≤ c.toNat ∧ c.toNat ≤ 0x7A := by
  change (decide ('A' ≤ c ∧ c ≤ 'Z') || decide ('a' ≤ c) && decide (c ≤ 'z')) = true at h
  have hcode {a b : Char} (hle : a ≤ b) : a.toNat ≤ b.toNat := UInt32.le_iff_toNat_le.mp hle
  rw [Bool.or_eq_true, Bool.and_eq_true, decide_eq_true_eq, decide_eq_true_eq,
    decide_eq_true_eq] at h
  rcases h with ⟨hlow, hhigh⟩ | ⟨hlow, hhigh⟩
  · exact ⟨hcode hlow, (hcode hhigh).trans (by decide)⟩
  · exact ⟨le_trans (by decide) (hcode hlow), hcode hhigh⟩

theorem isBlank_of_isAlpha (h : c.isAlpha = true) : Text.isBlank c = false := by
  obtain ⟨hlow, hhigh⟩ := toNat_of_isAlpha h
  exact isBlank_eq_false (by omega) (by omega)

theorem isMagnitudeChar_of_isAlpha (h : c.isAlpha = true) : isMagnitudeChar c = false := by
  obtain ⟨hlow, hhigh⟩ := toNat_of_isAlpha h
  rw [Bool.eq_false_iff]
  intro hchar
  rcases isMagnitudeChar_iff.mp hchar with hdigit | rfl
  · obtain ⟨d, hd, rfl⟩ := exists_eq_digitChar hdigit
    rw [Nat.toNat_digitChar_of_lt_ten hd] at hlow
    omega
  · exact absurd hlow (by decide)

/-! ## Blanks around a text -/

/-- What is in front of something that is not blank is removed as far as it is blank. -/
theorem trimStart_append {blanks rest : List Char} (hblanks : ∀ c ∈ blanks, Text.isBlank c = true)
    (hrest : ∀ c ∈ rest.head?, Text.isBlank c = false) :
    Text.trimStart (blanks ++ rest) = rest :=
  dropWhile_word hblanks hrest

/-- Blanks around a text that starts and ends with other characters are removed. -/
theorem trim_append {before core after : List Char} (hne : core ≠ [])
    (hbefore : ∀ c ∈ before, Text.isBlank c = true) (hafter : ∀ c ∈ after, Text.isBlank c = true)
    (hfirst : ∀ c ∈ core.head?, Text.isBlank c = false)
    (hlast : ∀ c ∈ core.getLast?, Text.isBlank c = false) :
    Text.trim (before ++ core ++ after) = core := by
  have hstart : Text.trimStart (before ++ core ++ after) = core ++ after := by
    rw [List.append_assoc]
    refine trimStart_append hbefore ?_
    rwa [List.head?_append_of_ne_nil _ hne]
  have hend : (core ++ after).reverse.dropWhile Text.isBlank = core.reverse := by
    rw [List.reverse_append]
    refine trimStart_append (fun c hc => hafter c (List.mem_reverse.mp hc)) ?_
    rwa [List.head?_reverse]
  rw [Text.trim, hstart, Text.trimEnd, hend, List.reverse_reverse]

/-- Only blanks are removed. -/
theorem exists_eq_append_trim (text : List Char) : ∃ before after,
    text = before ++ Text.trim text ++ after ∧ (∀ c ∈ before, Text.isBlank c = true) ∧
      ∀ c ∈ after, Text.isBlank c = true := by
  refine ⟨text.takeWhile Text.isBlank,
    ((Text.trimStart text).reverse.takeWhile Text.isBlank).reverse, ?_,
    fun c hc => List.mem_takeWhile_imp hc,
    fun c hc => List.mem_takeWhile_imp (List.mem_reverse.mp hc)⟩
  rw [Text.trim, Text.trimEnd, List.append_assoc, ← List.reverse_append,
    List.takeWhile_append_dropWhile, List.reverse_reverse]
  exact List.takeWhile_append_dropWhile.symm

/-! ## Texts that spell a measure -/

/-- The text is a number and the suffix of a unit, with blanks around and between them. -/
def Spells (text : String) (number : List Char) (u : υ) : Prop :=
  ∃ before between after : List Char,
    text.toList = before ++ number ++ between ++ (UnitSystem.suffix u).toList ++ after ∧
      ∀ c ∈ before ++ between ++ after, Text.isBlank c = true

theorem spells_of_toList_eq {u : υ} (h : text.toList = number ++ (UnitSystem.suffix u).toList) :
    Spells text number u :=
  ⟨[], [], [], by simp [h], by simp⟩

theorem find?_suffix [UnitSystem.Lawful υ] (u : υ) :
    (UnitSystem.units : List υ).find? (fun v => UnitSystem.suffix v == UnitSystem.suffix u) =
      some u := by
  cases hfound : (UnitSystem.units : List υ).find?
      (fun v => UnitSystem.suffix v == UnitSystem.suffix u) with
  | none =>
    have hno := List.find?_eq_none.mp hfound u (UnitSystem.Lawful.mem_units u)
    exact absurd (beq_self_eq_true _) hno
  | some v =>
    have hsame := List.find?_some hfound
    rw [beq_iff_eq] at hsame
    rw [UnitSystem.Lawful.suffix_injective v u hsame]

/-- A text that spells a number in a unit is read as that magnitude. -/
theorem parse_of_spells [UnitSystem.Lawful υ] {x : Double} {u : υ} (hne : number ≠ [])
    (hnumber : ∀ c ∈ number, isMagnitudeChar c = true) (hx : Double.ofText? number = some x)
    (h : Spells text number u) : parse text = make x u := by
  obtain ⟨before, between, after, htext, hblank⟩ := h
  obtain ⟨hfront, hafter⟩ := List.forall_mem_append.mp hblank
  obtain ⟨hbefore, hbetween⟩ := List.forall_mem_append.mp hfront
  have hletters := UnitSystem.Lawful.isAlpha_suffix u
  have hfind := find?_suffix u
  have hlast : (UnitSystem.suffix u).toList ≠ [] := UnitSystem.Lawful.suffix_ne_nil u
  obtain ⟨a, rest, hsuffix⟩ := List.exists_cons_of_ne_nil hlast
  obtain ⟨d, digits, hdigits⟩ := List.exists_cons_of_ne_nil hne
  have ha : a.isAlpha = true := hletters a (hsuffix ▸ List.mem_cons_self)
  have hd : isMagnitudeChar d = true := hnumber d (hdigits ▸ List.mem_cons_self)
  have htrim : Text.trim text.toList =
      number ++ (between ++ (UnitSystem.suffix u).toList) := by
    rw [htext, List.append_assoc before, List.append_assoc before, List.append_assoc number]
    refine trim_append (by simp [hne]) hbefore hafter ?_ ?_
    · rw [hdigits]
      rintro c ⟨⟩
      exact isBlank_of_isMagnitudeChar hd
    · rw [← List.append_assoc, List.getLast?_append_of_ne_nil _ hlast]
      intro c hc
      exact isBlank_of_isAlpha (hletters c (List.mem_of_getLast? hc))
  have hminus : (number ++ (between ++ (UnitSystem.suffix u).toList)).head? ≠ some '-' := by
    rw [hdigits]
    rintro ⟨⟩
    exact absurd hd (by decide)
  -- the number ends at the first blank or letter
  obtain ⟨b, tail, htail, hb⟩ : ∃ b tail, between ++ (UnitSystem.suffix u).toList = b :: tail ∧
      isMagnitudeChar b = false := by
    cases between with
    | nil => exact ⟨a, rest, hsuffix, isMagnitudeChar_of_isAlpha ha⟩
    | cons b between =>
      refine ⟨b, _, rfl, Bool.eq_false_iff.mpr fun hchar => ?_⟩
      have hblank := hbetween b List.mem_cons_self
      rw [isBlank_of_isMagnitudeChar hchar] at hblank
      cases hblank
  have hstart : Text.trimStart (b :: tail) = (UnitSystem.suffix u).toList := by
    rw [← htail]
    refine trimStart_append hbetween ?_
    rw [hsuffix]
    rintro c ⟨⟩
    exact isBlank_of_isAlpha ha
  rw [htail] at htrim hminus
  simp only [parse, htrim, hminus, dropWhile_append_cons hnumber hb,
    takeWhile_append_cons hnumber hb, hx, hstart, List.cons_ne_nil, String.ofList_toList, hfind,
    if_false]

/-! ## Magnitudes that are read -/

theorem make_eq_ok {x : Double} {u : υ} (h : make x u = .ok m) :
    m = ⟨x, u⟩ ∧ x.isFinite = true := by
  rw [make] at h
  split at h
  next hproper =>
    cases h
    exact ⟨rfl, (Bool.and_eq_true_iff.mp hproper).1⟩
  · cases h

theorem make_finite {mantissa : Nat} {exponent : Int} (h : CanonicalForm mantissa exponent)
    (u : υ) :
    make (.finite false mantissa exponent h) u = .ok ⟨.finite false mantissa exponent h, u⟩ :=
  rfl

/-- A magnitude has no sign. -/
theorem exists_finite_of_ofText? {x : Double} (hnumber : ∀ c ∈ number, isMagnitudeChar c = true)
    (hx : Double.ofText? number = some x) (hfinite : x.isFinite = true) :
    ∃ mantissa exponent, ∃ h : CanonicalForm mantissa exponent,
      x = .finite false mantissa exponent h := by
  have hminus : number.head? ≠ some '-' := by
    intro hhead
    exact absurd (hnumber '-' (List.mem_of_head? hhead)) (by decide)
  cases x with
  | nan => cases hfinite
  | infinite => cases hfinite
  | finite s mantissa exponent h =>
    obtain rfl := Double.sign_of_ofText? hminus hx
    exact ⟨mantissa, exponent, h, rfl⟩

/-- A text that is read spells the number and the unit of the measure. -/
theorem exists_spells_of_parse (h : parse text = .ok m) : ∃ number,
    Spells text number m.unit ∧ (∀ c ∈ number, isMagnitudeChar c = true) ∧
      Double.ofText? number = some m.magnitude ∧ m.magnitude.isFinite = true := by
  obtain ⟨before, after, htext, hbefore, hafter⟩ := exists_eq_append_trim text.toList
  have hsplit := List.takeWhile_append_dropWhile (p := isMagnitudeChar)
    (l := Text.trim text.toList)
  simp only [parse] at h
  generalize Text.trim text.toList = chars at h htext hsplit
  split at h
  · cases h
  split at h
  · cases h
  split at h
  · cases h
  next x hx =>
    split at h
    · cases h
    next u hu =>
      obtain ⟨rfl, hfinite⟩ := make_eq_ok h
      refine ⟨_, ?_, fun c hc => List.mem_takeWhile_imp hc, hx, hfinite⟩
      have hsuffix : (UnitSystem.suffix u).toList =
          Text.trimStart (chars.dropWhile isMagnitudeChar) := by
        have hfound := List.find?_some hu
        rw [beq_iff_eq] at hfound
        rw [hfound, String.toList_ofList]
      have hrest : chars.dropWhile isMagnitudeChar =
          (chars.dropWhile isMagnitudeChar).takeWhile Text.isBlank ++
            (UnitSystem.suffix u).toList := by
        rw [hsuffix]
        exact List.takeWhile_append_dropWhile.symm
      refine ⟨before, (chars.dropWhile isMagnitudeChar).takeWhile Text.isBlank, after, ?_, ?_⟩
      · rw [List.append_assoc (before ++ _), ← hrest, List.append_assoc before, hsplit]
        exact htext
      · rw [List.forall_mem_append, List.forall_mem_append]
        exact ⟨⟨hbefore, fun c hc => List.mem_takeWhile_imp hc⟩, hafter⟩

/-- The magnitude of a measure that is read is finite and has no sign. -/
theorem exists_finite_of_parse (h : parse text = .ok m) :
    ∃ mantissa exponent, ∃ hc : CanonicalForm mantissa exponent,
      m.magnitude = .finite false mantissa exponent hc := by
  obtain ⟨number, -, hnumber, hx, hfinite⟩ := exists_spells_of_parse h
  exact exists_finite_of_ofText? hnumber hx hfinite

/-! ## The two forms of a text -/

theorem isMagnitudeChar_toDigits {k : Nat} : ∀ c ∈ Nat.toDigits 10 k, isMagnitudeChar c = true :=
  fun c hc => isMagnitudeChar_iff.mpr (Or.inl (isDigit_toDigits k c hc))

theorem isMagnitudeChar_placesText {n : Nat} :
    ∀ c ∈ Double.placesText n, isMagnitudeChar c = true := by
  have htens : n % 100 / 10 < 10 := by omega
  have hones : n % 10 < 10 := Nat.mod_lt n (by decide)
  intro c hc
  rcases List.mem_append.mp hc with hc | hc
  · exact isMagnitudeChar_toDigits c hc
  · simp only [List.mem_cons, List.not_mem_nil, or_false] at hc
    rcases hc with rfl | rfl | rfl
    · decide
    · exact isMagnitudeChar_iff.mpr (Or.inl (Double.isDigit_digitChar htens))
    · exact isMagnitudeChar_iff.mpr (Or.inl (Double.isDigit_digitChar hones))

section Forms

variable {mantissa : Nat} {exponent : Int} {u : υ} {k n : Nat}

theorem toList_text_whole (hc : CanonicalForm mantissa exponent) (u : υ)
    (hk : Double.valueOf mantissa exponent = k) :
    (Measure.text ⟨.finite false mantissa exponent hc, u⟩).toList =
      Nat.toDigits 10 k ++ (UnitSystem.suffix u).toList := by
  have hintegral : (Double.finite false mantissa exponent hc).isIntegral = true :=
    Double.isIntegral_iff.mpr ⟨k, hk⟩
  rw [Measure.text, hintegral, if_pos rfl, String.toList_append, Double.toFixed_zero hk]

theorem toList_text_fraction (hc : CanonicalForm mantissa exponent) (u : υ)
    (h : ∀ k : Nat, Double.valueOf mantissa exponent ≠ k) :
    (Measure.text ⟨.finite false mantissa exponent hc, u⟩).toList =
      Double.placesText (Double.hundredths mantissa exponent) ++ (UnitSystem.suffix u).toList := by
  have hfraction : (Double.finite false mantissa exponent hc).isIntegral = false := by
    rw [Bool.eq_false_iff, ne_eq, Double.isIntegral_iff, not_exists]
    exact h
  rw [Measure.text, hfraction, if_neg Bool.false_ne_true, String.toList_append, Double.toFixed_two]

variable [UnitSystem.Lawful υ]

/-- A whole magnitude is read from its text as it was. -/
theorem parse_text_whole (hc : CanonicalForm mantissa exponent)
    (hk : Double.valueOf mantissa exponent = k)
    (htext : text.toList = Nat.toDigits 10 k ++ (UnitSystem.suffix u).toList) :
    parse text = .ok ⟨.finite false mantissa exponent hc, u⟩ := by
  have hexact : ((k : Nat) : ℚ) / (1 : Nat) = Double.valueOf mantissa exponent := by
    rw [hk, Nat.cast_one, div_one]
  rw [parse_of_spells Nat.toDigits_ne_nil isMagnitudeChar_toDigits (Double.ofText?_toDigits k)
    (spells_of_toList_eq htext), Double.ofRatio_of_eq_valueOf Nat.one_pos hc hexact]
  exact make_finite hc u

theorem parse_text_places (htext : text.toList =
    Double.placesText n ++ (UnitSystem.suffix u).toList) :
    parse text = make (Double.ofRatio false n 100) u :=
  parse_of_spells (by simp [Double.placesText]) isMagnitudeChar_placesText
    (Double.ofText?_placesText n) (spells_of_toList_eq htext)

end Forms

/-! ## Measures that have settled -/

/-- The measure that is read from the text of a measure. -/
def settled (m : Measure υ) : Measure υ :=
  (parse m.text).toOption.getD m

theorem settled_of_parse_text {q : Measure υ} (h : parse m.text = .ok q) : m.settled = q := by
  rw [settled, h]
  rfl

/-- The text has two places that are both zeros, behind a whole number. -/
def EndsInZeros (m : Measure υ) (whole : Nat) : Prop :=
  m.text = Nat.repr whole ++ ".00" ++ UnitSystem.suffix m.unit

theorem endsInZeros_iff {whole : Nat} : m.EndsInZeros whole ↔ m.text.toList =
    Nat.toDigits 10 whole ++ ['.', '0', '0'] ++ (UnitSystem.suffix m.unit).toList := by
  rw [EndsInZeros, ← String.toList_inj, String.toList_append, String.toList_append, Nat.toList_repr]
  rfl

theorem toDigits_inj {j k : Nat} (h : Nat.toDigits 10 j = Nat.toDigits 10 k) : j = k := by
  rw [← digitsValue_toDigits j, h, digitsValue_toDigits]

theorem placesText_eq_iff {n whole : Nat} :
    Double.placesText n = Nat.toDigits 10 whole ++ ['.', '0', '0'] ↔ n = 100 * whole := by
  have hzero {d : Nat} (hd : d < 10) : Nat.digitChar d = '0' ↔ d = 0 := by
    constructor
    · intro h
      have hcode := Nat.toNat_digitChar_of_lt_ten hd
      rw [h] at hcode
      have : ('0' : Char).toNat = 48 := rfl
      omega
    · rintro rfl
      rfl
  have htens : n % 100 / 10 < 10 := by omega
  have hones : n % 10 < 10 := Nat.mod_lt n (by decide)
  constructor
  · intro h
    obtain ⟨hwhole, hplaces⟩ := List.append_inj' h rfl
    have hn := toDigits_inj hwhole
    simp only [List.cons.injEq, true_and, and_true] at hplaces
    have h1 := (hzero htens).mp hplaces.1
    have h2 := (hzero hones).mp hplaces.2
    omega
  · rintro rfl
    have h1 : 100 * whole / 100 = whole := by omega
    have h2 : 100 * whole % 100 / 10 = 0 := by omega
    have h3 : 100 * whole % 10 = 0 := by omega
    rw [Double.placesText, h1, h2, h3]
    rfl

/-- The text of the measure is read, and what is read is written and read in the same way from then
on. It is written with the same text, except that places that are both zeros are left out. -/
structure Settles (m : Measure υ) : Prop where
  parse_text : parse m.text = .ok m.settled
  parse_settled : parse m.settled.text = .ok m.settled
  text_eq : (∀ whole, ¬m.EndsInZeros whole) → m.settled.text = m.text
  text_eq_whole : ∀ whole, m.EndsInZeros whole →
    m.settled.text = Nat.repr whole ++ UnitSystem.suffix m.unit

theorem settles_of_finite [UnitSystem.Lawful υ] {mantissa : Nat} {exponent : Int}
    {hc : CanonicalForm mantissa exponent} (hm : m.magnitude = .finite false mantissa exponent hc) :
    m.Settles := by
  obtain ⟨magnitude, u⟩ := m
  obtain rfl : magnitude = .finite false mantissa exponent hc := hm
  by_cases hwhole : ∃ k : Nat, Double.valueOf mantissa exponent = k
  · obtain ⟨k, hk⟩ := hwhole
    have htext := toList_text_whole hc u hk
    have hparse := parse_text_whole hc hk htext
    have hsettled := settled_of_parse_text hparse
    refine ⟨by rw [hsettled, hparse], by rw [hsettled, hparse], fun _ => by rw [hsettled],
      fun whole hzeros => ?_⟩
    -- there is no point in the text
    rw [endsInZeros_iff, htext] at hzeros
    have hdigits := List.append_cancel_right hzeros
    have hdot : '.' ∈ Nat.toDigits 10 k := by
      rw [hdigits]
      simp
    exact absurd hdot dot_notMem_toDigits
  · have hfraction : ∀ k : Nat, Double.valueOf mantissa exponent ≠ k := not_exists.mp hwhole
    have htext := toList_text_fraction hc u hfraction
    obtain ⟨m', e', h', hread, hzero, hplaces⟩ := Double.exists_ofRatio_hundredths hc hfraction
    generalize Double.hundredths mantissa exponent = n at htext hread hzero hplaces
    have hparse := parse_text_places htext
    rw [hread, make_finite] at hparse
    have hsettled := settled_of_parse_text hparse
    have hzeros (whole : Nat) :
        (Measure.mk (Double.finite false mantissa exponent hc) u).EndsInZeros whole ↔
          n = 100 * whole := by
      rw [endsInZeros_iff, htext, List.append_cancel_right_eq, placesText_eq_iff]
    by_cases hn : n % 100 = 0
    · have htext' := toList_text_whole h' u (hzero hn)
      refine ⟨by rw [hsettled, hparse], ?_, fun hno => ?_, fun whole h => ?_⟩
      · rw [hsettled]
        exact parse_text_whole h' (hzero hn) htext'
      · exact absurd ((hzeros (n / 100)).mpr (by omega)) (hno _)
      · obtain rfl : n / 100 = whole := by
          have := (hzeros whole).mp h
          omega
        rw [hsettled, ← String.toList_inj, htext', String.toList_append, Nat.toList_repr]
    · obtain ⟨hfraction', hsame⟩ := hplaces hn
      have htext' := toList_text_fraction h' u hfraction'
      rw [hsame, ← htext, String.toList_inj] at htext'
      refine ⟨by rw [hsettled, hparse], ?_, fun _ => by rw [hsettled, htext'], fun whole h => ?_⟩
      · rw [hsettled, htext', hparse]
      · have := (hzeros whole).mp h
        omega

/-- Every measure that is read settles. -/
theorem settles_of_parse [UnitSystem.Lawful υ] (h : parse text = .ok m) : m.Settles := by
  obtain ⟨mantissa, exponent, hc, hm⟩ := exists_finite_of_parse h
  exact settles_of_finite hm

end Measure

end QueryScope
