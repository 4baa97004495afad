import QueryScope.Proofs.Sql.Operands
import QueryScope.Proofs.Sql.Quoting

/-!
# Identifiers and literals

Numbers start with a digit or a sign, texts with a quote, and an identifier with a letter, an
underscore or a double quote. What is left are the literals that are words themselves: a name that
is such a word is written without quotes, as every plain word is, and looks like the literal. No
other identifier has the text of a literal.
-/

namespace QueryScope

/-! ## First characters -/

/-- There is a first character, and it is of the given sort. -/
def StartsWith (p : Char → Bool) (chars : List Char) : Prop :=
  ∃ c rest, chars = c :: rest ∧ p c = true

namespace StartsWith

variable {p q : Char → Bool} {chars : List Char}

theorem append (h : StartsWith p chars) (rest : List Char) : StartsWith p (chars ++ rest) := by
  obtain ⟨c, tail, rfl, hc⟩ := h
  exact ⟨c, tail ++ rest, rfl, hc⟩

theorem of_forall (hne : chars ≠ []) (h : ∀ c ∈ chars, p c = true) : StartsWith p chars := by
  obtain ⟨c, rest, rfl⟩ := List.exists_cons_of_ne_nil hne
  exact ⟨c, rest, rfl, h c List.mem_cons_self⟩

theorem mono (h : StartsWith p chars) (hpq : ∀ c, p c = true → q c = true) :
    StartsWith q chars := by
  obtain ⟨c, rest, hchars, hc⟩ := h
  exact ⟨c, rest, hchars, hpq c hc⟩

end StartsWith

theorem isDigit_of_mem_repr {n : Nat} {c : Char} (h : c ∈ (Nat.repr n).toList) :
    c.isDigit = true := by
  rw [Nat.repr, String.toList_ofList] at h
  exact isDigit_toDigits n c h

theorem repr_ne_nil (n : Nat) : (Nat.repr n).toList ≠ [] := by
  rw [Nat.repr, String.toList_ofList]
  exact Nat.toDigits_ne_nil

theorem startsWith_repr (n : Nat) : StartsWith Char.isDigit (Nat.repr n).toList :=
  .of_forall (repr_ne_nil n) fun _ => isDigit_of_mem_repr

def isNumberStart (c : Char) : Bool :=
  c.isDigit || c == '-'

theorem StartsWith.number {chars : List Char} (h : StartsWith Char.isDigit chars) :
    StartsWith isNumberStart chars :=
  h.mono fun _ hc => Bool.or_eq_true_iff.mpr (Or.inl hc)

theorem startsWith_toString (n : Int64) : StartsWith isNumberStart (toString n).toList := by
  have htext : toString n = Int.repr n.toInt := rfl
  rw [htext]
  cases n.toInt with
  | ofNat k => exact (startsWith_repr k).number
  | negSucc k => exact ⟨'-', (Nat.repr (k + 1)).toList, by simp [Int.repr], rfl⟩

namespace FloatText

variable (style : FloatText)

theorem startsWith_positional (d : Decimal) :
    StartsWith Char.isDigit (style.positional d).toList := by
  unfold positional
  cases d.exponent with
  | ofNat k =>
    simp only [String.toList_append, List.append_assoc]
    exact (startsWith_repr d.digits).append _
  | negSucc k =>
    -- zeros in front see to it that there is a digit before the point
    have hdigits : ∀ c ∈ List.replicate (k + 1 + 1 - (Nat.repr d.digits).toList.length) '0' ++
        (Nat.repr d.digits).toList, c.isDigit = true := by
      intro c hc
      rcases List.mem_append.mp hc with hzero | hdigit
      · rw [List.eq_of_mem_replicate hzero]
        rfl
      · exact isDigit_of_mem_repr hdigit
    simp only [String.toList_append, String.toList_ofList, List.append_assoc]
    refine StartsWith.append (.of_forall ?_ fun c hc => hdigits c (List.mem_of_mem_take hc)) _
    refine List.ne_nil_of_length_pos ?_
    simp only [List.length_take, List.length_append, List.length_replicate]
    omega

theorem startsWith_scientific (d : Decimal) :
    StartsWith Char.isDigit (style.scientific d).toList := by
  have hstart := startsWith_repr d.digits
  unfold scientific
  simp only [String.toList_append, List.append_assoc]
  refine StartsWith.append ?_ _
  split
  next => exact ⟨'0', [], rfl, rfl⟩
  next c hc =>
    rw [hc] at hstart
    rwa [String.toList_ofList]
  next c rest _ hc =>
    rw [hc] at hstart
    obtain ⟨first, tail, hcons, hfirst⟩ := hstart
    obtain ⟨rfl, -⟩ := List.cons.inj hcons
    exact ⟨c, '.' :: rest, String.toList_ofList, hfirst⟩

theorem startsWith_finite (negative : Bool) (mantissa : Nat) (exponent : Int) :
    StartsWith isNumberStart (style.finite negative mantissa exponent).toList := by
  have hsigned (text : String) (h : StartsWith Char.isDigit text.toList) :
      StartsWith isNumberStart ((if negative then "-" else "") ++ text).toList := by
    cases negative with
    | true => exact ⟨'-', text.toList, by simp, rfl⟩
    | false => simpa using h.number
  have hlayout (isPlain : Bool) (d : Decimal) : StartsWith Char.isDigit
      (if isPlain then style.positional d else style.scientific d).toList := by
    cases isPlain with
    | true => exact style.startsWith_positional d
    | false => exact style.startsWith_scientific d
  simp only [finite]
  split
  · refine hsigned _ ?_
    split
    · exact ⟨'0', ['.', '0'], by decide, rfl⟩
    · exact ⟨'0', [], by decide, rfl⟩
  · exact hsigned _ (hlayout _ _)

end FloatText

namespace Sql

variable {name text : String}

/-- A text that starts with no double quote is an identifier only if it is a word, and then of
itself. -/
theorem quoteIdentifier_eq_iff (hquote : text.toList.head? ≠ some '"') :
    quoteIdentifier name = text ↔ name = text ∧ IsWord text := by
  constructor
  · rintro rfl
    by_cases hname : IsWord name
    · rw [quoteIdentifier_of_isWord hname]
      exact ⟨rfl, hname⟩
    · rw [quoteIdentifier_of_not_isWord hname, String.toList_ofList, delimited] at hquote
      exact absurd rfl hquote
  · rintro ⟨rfl, hword⟩
    exact quoteIdentifier_of_isWord hword

theorem IsWord.startsWith (h : IsWord text) : StartsWith isWordStart text.toList := by
  cases htext : text.toList with
  | nil => exact absurd (String.toList_eq_nil_iff.mp htext) h.nonempty
  | cons c rest =>
    have hchar : isWordChar c = true := isWordChar_iff.mpr (h.letters c (by simp [htext]))
    exact ⟨c, rest, rfl, isWordStart_iff.mpr ⟨hchar, h.start c (by simp [htext])⟩⟩

/-- A character with which no identifier starts. -/
def IsForeign (c : Char) : Prop := isWordStart c = false ∧ c ≠ '"'

theorem isForeign_of_isNumberStart {c : Char} (h : isNumberStart c = true) : IsForeign c := by
  rcases Bool.or_eq_true_iff.mp h with hdigit | hsign
  · refine ⟨?_, ?_⟩
    · rw [Bool.eq_false_iff]
      intro hword
      exact (isWordStart_iff.mp hword).2 (isDigit_iff.mp hdigit)
    · rintro rfl
      cases hdigit
  · obtain rfl := eq_of_beq hsign
    exact ⟨by decide, by decide⟩

theorem not_isWord_of_startsWith {p : Char → Bool} (h : StartsWith p text.toList)
    (hp : ∀ c, p c = true → IsForeign c) : text.toList.head? ≠ some '"' ∧ ¬IsWord text := by
  obtain ⟨c, rest, htext, hc⟩ := h
  obtain ⟨hword, hquote⟩ := hp c hc
  refine ⟨?_, fun htextWord => ?_⟩
  · rw [htext]
    exact fun heq => hquote (Option.some.inj heq)
  · obtain ⟨d, tail, hcons, hd⟩ := htextWord.startsWith
    obtain ⟨rfl, -⟩ := List.cons.inj (htext.symm.trans hcons)
    exact absurd hd (Bool.eq_false_iff.mp hword)

end Sql

namespace Expression

open Sql (IsWord quoteIdentifier quoteIdentifier_eq_iff not_isWord_of_startsWith
  isForeign_of_isNumberStart)

variable {p : Option (List Json)} {s : String} {l : Expression}

/-! ## Literals -/

/-- A leaf that stands for a value. -/
inductive IsLiteral : Expression → Prop where
  | long (value : Int64) : IsLiteral (.long value)
  | double (value : Double) : IsLiteral (.double value)
  | string (value : String) : IsLiteral (.string value)
  | boolean (value : Bool) : IsLiteral (.boolean value)
  | null : IsLiteral .null

/-- The name is a word that stands for a value. -/
inductive Spells : String → Expression → Prop where
  | true : Spells "true" (.boolean true)
  | false : Spells "false" (.boolean false)
  | null : Spells "null" .null

theorem doubleLiteral_not_isWord (d : Double) :
    (Sql.doubleLiteral d).toList.head? ≠ some '"' ∧ ¬IsWord (Sql.doubleLiteral d) := by
  cases d with
  | nan => exact ⟨by decide, fun h => absurd (h.letters '(' (by decide)) (by decide)⟩
  | infinite negative =>
    cases negative with
    | true => exact ⟨by decide, fun h => absurd (h.letters '-' (by decide)) (by decide)⟩
    | false => exact ⟨by decide, fun h => absurd (h.letters '(' (by decide)) (by decide)⟩
  | finite negative mantissa exponent =>
    exact not_isWord_of_startsWith (Sql.floatText.startsWith_finite negative mantissa exponent)
      fun _ => isForeign_of_isNumberStart

/-- A literal is no delimited identifier, and it is a word only if it is spelled as one. -/
theorem IsLiteral.exists_text (h : IsLiteral l) : ∃ text, l.toSql p = .ok text ∧
    text.toList.head? ≠ some '"' ∧ (IsWord text → Spells text l) := by
  cases h with
  | long n =>
    obtain ⟨hquote, hword⟩ := not_isWord_of_startsWith (startsWith_toString n)
      fun _ => isForeign_of_isNumberStart
    exact ⟨toString n, rfl, hquote, fun h => absurd h hword⟩
  | double d =>
    obtain ⟨hquote, hword⟩ := doubleLiteral_not_isWord d
    exact ⟨Sql.doubleLiteral d, rfl, hquote, fun h => absurd h hword⟩
  | string s =>
    have hstart : StartsWith (· == '\'') (Sql.quoteString s).toList :=
      ⟨'\'', _, String.toList_ofList, rfl⟩
    obtain ⟨hquote, hword⟩ := not_isWord_of_startsWith hstart fun c hc => by
      obtain rfl := eq_of_beq hc
      exact ⟨by decide, by decide⟩
    exact ⟨Sql.quoteString s, rfl, hquote, fun h => absurd h hword⟩
  | boolean b =>
    cases b with
    | true => exact ⟨"true", rfl, by decide, fun _ => .true⟩
    | false => exact ⟨"false", rfl, by decide, fun _ => .false⟩
  | null => exact ⟨"null", rfl, by decide, fun _ => .null⟩

theorem toSql_of_spells (h : Spells s l) : l.toSql p = .ok s ∧ IsWord s := by
  have hword {name : String} (hplain : Sql.isPlainWord name.toList = true) : IsWord name :=
    Sql.isPlainWord_iff.mp hplain
  cases h with
  | true => exact ⟨rfl, hword (by decide)⟩
  | false => exact ⟨rfl, hword (by decide)⟩
  | null => exact ⟨rfl, hword (by decide)⟩

theorem toSql_identifier_eq_iff (hl : IsLiteral l) :
    (identifier s).toSql p = l.toSql p ↔ Spells s l := by
  -- a literal starts with no double quote, so only a word can have its text
  obtain ⟨text, htext, hquote, hspells⟩ := hl.exists_text (p := p)
  rw [htext, Expression.toSql, Except.ok.injEq, quoteIdentifier_eq_iff hquote]
  constructor
  · rintro ⟨rfl, hword⟩
    exact hspells hword
  · intro h
    obtain ⟨hs, hword⟩ := toSql_of_spells (p := p) h
    obtain rfl : text = s := Except.ok.inj (htext.symm.trans hs)
    exact ⟨rfl, hword⟩

/-- An identifier has the text of a literal only if its name is the word for it. Apart from these
three words, an identifier and a literal that take each other's place anywhere in an expression
change its text. -/
theorem toSql_identifier_ne_literal (s : String) {l : Expression} (hl : IsLiteral l)
    (p : Option (List Json)) :
    ((identifier s).toSql p = l.toSql p ↔ Spells s l) ∧
    (¬Spells s l → ∀ e e', Replaces (.identifier s) l e e' ∨ Replaces l (.identifier s) e e' →
      ∀ text, e.toSql p = .ok text → ∃ changed, e'.toSql p = .ok changed ∧ changed ≠ text) := by
  refine ⟨toSql_identifier_eq_iff hl, fun hspells e e' hreplaces text htext => ?_⟩
  have hs : (identifier s).toSql p = .ok (quoteIdentifier s) := rfl
  obtain ⟨t, ht, -⟩ := hl.exists_text (p := p)
  have hne : quoteIdentifier s ≠ t := by
    rintro rfl
    exact hspells ((toSql_identifier_eq_iff hl).mp (hs.trans ht.symm))
  rcases hreplaces with hreplaces | hreplaces
  · exact hreplaces.toSql_ne hs ht hne htext
  · exact hreplaces.toSql_ne ht hs hne.symm htext

theorem toSql_identifier_ne_literal_comparison :
    IsLiteral (.long 1) ∧ ¬Spells "x" (.long 1) ∧
      ∃ changed, (comparison .equal (.long 1) .null).toSql none = .ok changed ∧
        changed ≠ "(x = null)" := by
  have hspells (s : String) : ¬Spells s (.long 1) := by
    intro h
    cases h
  let e : Expression := .comparison .equal (.identifier "x") .null
  have hreplaces : Replaces (.identifier "x") (.long 1) e
      (e.withOperands ([] ++ .long 1 :: [.null])) := .operand rfl .whole
  obtain ⟨-, hchanges⟩ := toSql_identifier_ne_literal "x" (.long 1) none
  have hchanged := hchanges (hspells "x") _ _ (Or.inl hreplaces) "(x = null)" (by decide)
  exact ⟨.long 1, hspells "x", hchanged⟩

/-- The name `null` is a plain word, so it is written as the null value is. -/
theorem toSql_identifier_null :
    IsLiteral .null ∧ (identifier "null").toSql none = (null : Expression).toSql none :=
  ⟨.null, by decide⟩

end Expression

end QueryScope
