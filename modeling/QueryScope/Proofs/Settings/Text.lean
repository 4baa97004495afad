import Mathlib.Data.List.Basic
import QueryScope.Proofs.Identifier
import QueryScope.Settings.Reading

/-!
# The text of preferences

What is written of preferences is read back as the same preferences. A group of settings is written
with a line for each setting; reading it back comes down to reading back the name and the value of
each, whatever follows on the next line.
-/

namespace QueryScope

variable {α : Type} {rest : List Char}

/-! ## Blanks and lines -/

namespace Json

/-- The line break and the indentation in front of a member. -/
def indentation (level : Nat) : List Char :=
  '\n' :: List.replicate (2 * level) ' '

theorem toList_newline (level : Nat) : (newline level).toList = indentation level := by
  simp [newline, indentation]

theorem skipBlanks_indentation {c : Char} (level : Nat) (hc : isBlank c = false) :
    skipBlanks (indentation level ++ c :: rest) = c :: rest := by
  have hblank : ∀ b ∈ indentation level, isBlank b = true := by
    intro b hb
    rcases List.mem_cons.mp hb with rfl | hb
    · decide
    · rw [List.eq_of_mem_replicate hb]
      decide
  exact dropWhile_append_cons hblank hc

theorem skipBlanks_space {c : Char} (hc : isBlank c = false) :
    skipBlanks (' ' :: c :: rest) = c :: rest := by
  rw [skipBlanks, List.dropWhile_cons_of_pos (by decide), List.dropWhile_cons, hc]
  rfl

theorem isBlank_of_isDigit {c : Char} (h : c.isDigit = true) : isBlank c = false := by
  rw [Bool.eq_false_iff]
  intro hblank
  simp only [isBlank, Bool.or_eq_true, decide_eq_true_eq] at hblank
  rcases hblank with ((rfl | rfl) | rfl) | rfl <;> exact absurd h (by decide)

/-- A value ends where the next line or a comma is. -/
def IsBoundary (rest : List Char) : Prop := ∃ c tail, rest = c :: tail ∧ (c = ',' ∨ c = '\n')

/-! ## Names -/

/-- The characters that are written as they are. -/
def isPlain (c : Char) : Bool :=
  c != '"' && c != '\\' && decide (0x20 ≤ c.toNat)

theorem isPlain_iff {c : Char} : isPlain c = true ↔ (c ≠ '"' ∧ c ≠ '\\') ∧ 0x20 ≤ c.toNat := by
  simp [isPlain]

theorem escapeChar_of_isPlain {c : Char} (h : isPlain c = true) : escapeChar c = [c] := by
  obtain ⟨⟨hquote, hbackslash⟩, hcode⟩ := isPlain_iff.mp h
  unfold escapeChar
  split
  next => exact absurd rfl hquote
  next => exact absurd rfl hbackslash
  next => exact absurd hcode (by decide)
  next => exact absurd hcode (by decide)
  next => exact absurd hcode (by decide)
  next => exact absurd hcode (by decide)
  next => exact absurd hcode (by decide)
  next => rw [if_neg (by omega)]

theorem toList_stringText {name : String} (h : ∀ c ∈ name.toList, isPlain c = true) :
    (stringText name).toList = '"' :: (name.toList ++ ['"']) := by
  have hescape : name.toList.flatMap escapeChar = name.toList := by
    rw [List.flatMap_congr fun c hc => escapeChar_of_isPlain (h c hc)]
    exact List.flatMap_singleton' _
  rw [stringText, String.toList_ofList, hescape]

/-- A name starts with a quote, whatever it is. -/
theorem exists_toList_stringText (name : String) (after : List Char) :
    ∃ tail, (stringText name).toList ++ after = '"' :: tail := by
  rw [stringText, String.toList_ofList]
  exact ⟨_, rfl⟩

theorem skipBlanks_stringText (name : String) (after : List Char) :
    skipBlanks ((stringText name).toList ++ after) = (stringText name).toList ++ after := by
  obtain ⟨tail, htail⟩ := exists_toList_stringText name after
  rw [htail]
  rfl

theorem skipBlanks_indentation_stringText (level : Nat) (name : String) (after : List Char) :
    skipBlanks (indentation level ++ ((stringText name).toList ++ after)) =
      (stringText name).toList ++ after := by
  obtain ⟨tail, htail⟩ := exists_toList_stringText name after
  rw [htail]
  exact skipBlanks_indentation level (by decide)

theorem stringBody?_plain {chars : List Char} (h : ∀ c ∈ chars, isPlain c = true)
    (read : List Char) {fuel : Nat} (hfuel : chars.length < fuel) :
    stringBody? read fuel (chars ++ '"' :: rest) =
      some (String.ofList (read.reverse ++ chars), rest) := by
  induction chars generalizing read fuel with
  | nil =>
    obtain ⟨fuel, rfl⟩ := Nat.exists_eq_succ_of_ne_zero (Nat.ne_of_gt hfuel)
    rw [List.nil_append, stringBody?, if_pos rfl, List.append_nil]
  | cons c chars ih =>
    obtain ⟨fuel, rfl⟩ := Nat.exists_eq_succ_of_ne_zero (Nat.ne_of_gt (Nat.zero_lt_of_lt hfuel))
    obtain ⟨hc, hchars⟩ := List.forall_mem_cons.mp h
    obtain ⟨⟨hquote, hbackslash⟩, hcode⟩ := isPlain_iff.mp hc
    have hlength : chars.length < fuel := by
      rw [List.length_cons] at hfuel
      omega
    rw [List.cons_append, stringBody?, if_neg hquote, if_neg hbackslash, if_neg (by omega),
      ih hchars (c :: read) hlength, List.reverse_cons, List.append_assoc, List.singleton_append]

theorem string?_plain {name : String} (h : ∀ c ∈ name.toList, isPlain c = true) {limit : Nat}
    (hlimit : name.length < limit) :
    string? limit ((stringText name).toList ++ rest) = some (name, rest) := by
  have hbody : stringBody? [] limit (name.toList ++ '"' :: rest) =
      some (String.ofList name.toList, rest) := stringBody?_plain h [] hlimit
  rw [toList_stringText h, List.cons_append, List.append_assoc, List.singleton_append, string?,
    hbody, String.ofList_toList]

end Json

/-! ## Digits -/

theorem eq_nil_of_toDigits_cons_zero {n : Nat} {digits : List Char}
    (h : Nat.toDigits 10 n = '0' :: digits) : digits = [] := by
  have hzero : n = 0 := by
    induction n using Nat.strong_induction_on generalizing digits with
    | _ n ih =>
      rw [Nat.toDigits_eq_if (by decide)] at h
      split at h
      next hn =>
        have hdigit : ∀ d < 10, Nat.digitChar d = '0' → d = 0 := by decide
        exact hdigit n hn (List.cons.inj h).1
      next hn =>
        -- the digits in front of the last one would start with a zero, too
        cases hfront : Nat.toDigits 10 (n / 10) with
        | nil => exact absurd hfront Nat.toDigits_ne_nil
        | cons d ds =>
          rw [hfront, List.cons_append] at h
          obtain rfl : d = '0' := (List.cons.inj h).1
          have hzero := ih (n / 10) (by omega) hfront
          omega
  rw [hzero] at h
  exact (List.cons.inj h).2.symm

namespace Json

theorem digits_append {digits : List Char} (h : ∀ c ∈ digits, c.isDigit = true)
    (hrest : IsBoundary rest) : Json.digits (digits ++ rest) = (digits, rest) := by
  obtain ⟨c, tail, rfl, hc⟩ := hrest
  have hnotDigit : c.isDigit = false := by
    rcases hc with rfl | rfl <;> decide
  rw [Json.digits, takeWhile_append_cons h hnotDigit, dropWhile_append_cons h hnotDigit]

theorem fraction?_boundary (n : NumberText) (hrest : IsBoundary rest) :
    fraction? n rest = some (n, rest) := by
  obtain ⟨c, tail, rfl, rfl | rfl⟩ := hrest <;> rfl

theorem exponent?_boundary (n : NumberText) (hrest : IsBoundary rest) :
    exponent? n rest = some (n, rest) := by
  obtain ⟨c, tail, rfl, rfl | rfl⟩ := hrest <;> rfl

theorem numberText?_toDigits {n : Nat} (hrest : IsBoundary rest) :
    numberText? (Nat.toDigits 10 n ++ rest) =
      some (⟨{ whole := Nat.toDigits 10 n }, true⟩, rest) := by
  have hdigits := isDigit_toDigits n
  cases hn : Nat.toDigits 10 n with
  | nil => exact absurd hn Nat.toDigits_ne_nil
  | cons d ds =>
    rw [hn] at hdigits
    unfold numberText?
    split
    next negative text hsign =>
      obtain ⟨rfl, rfl⟩ : negative = false ∧ text = d :: (ds ++ rest) := by
        split at hsign
        next _ hminus =>
          obtain rfl : d = '-' := (List.cons.inj hminus).1
          exact absurd (hdigits '-' List.mem_cons_self) (by decide)
        next => exact ⟨(Prod.mk.inj hsign).1.symm, (Prod.mk.inj hsign).2.symm⟩
      have hhead : rest.head?.any Char.isDigit = false := by
        obtain ⟨c, tail, rfl, rfl | rfl⟩ := hrest <;> rfl
      split
      next after hzero =>
        -- a zero in front is the only digit
        obtain ⟨rfl, hafter⟩ := List.cons.inj hzero
        obtain rfl := eq_nil_of_toDigits_cons_zero hn
        obtain rfl : rest = after := hafter
        simp [hhead, fraction?_boundary _ hrest, exponent?_boundary _ hrest]
      next =>
        rw [← List.cons_append, digits_append hdigits hrest]
        simp [hhead, fraction?_boundary _ hrest, exponent?_boundary _ hrest]

end Json

/-! ## Values -/

namespace Setting

theorem bool?_text (b : Bool) (rest : List Char) :
    bool? (' ' :: ((toString b).toList ++ rest)) = some (b, rest) := by
  cases b <;> rfl

theorem count?_toDigits (n : UInt64) (hrest : Json.IsBoundary rest) :
    count? (' ' :: (Nat.toDigits 10 n.toNat ++ rest)) = some (n, rest) := by
  have hblanks : Json.skipBlanks (' ' :: (Nat.toDigits 10 n.toNat ++ rest)) =
      Nat.toDigits 10 n.toNat ++ rest := by
    cases hn : Nat.toDigits 10 n.toNat with
    | nil => exact absurd hn Nat.toDigits_ne_nil
    | cons d ds =>
      have hdigit : d.isDigit = true :=
        isDigit_toDigits n.toNat d (hn ▸ List.mem_cons_self)
      exact Json.skipBlanks_space (Json.isBlank_of_isDigit hdigit)
  rw [count?, hblanks, Json.numberText?_toDigits hrest]
  simp [digitsValue_toDigits, n.toNat_lt]

/-! ## Members and groups -/

/-- Whatever follows its text, the value is read and put into the group. -/
def Restores (s : Setting α) (level : Nat) (v : Json) (group changed : α) : Prop :=
  ∀ rest, Json.IsBoundary rest →
    s.read group (' ' :: ((v.prettyAt level).toList ++ rest)) = some (changed, rest)

/-- The name is written as it is, and is shorter than any text of preferences. -/
def isShort (name : String) : Bool :=
  name.toList.all Json.isPlain && decide (name.length < 12)

variable {settings : List (Setting α)} {limit level : Nat} {group changed : α} {seen : List String}
  {s : Setting α} {v : Json} {text : List Char}

theorem readMember?_text (hfind : settings.find? (·.name = s.name) = some s)
    (hseen : s.name ∉ seen) (hshort : isShort s.name = true) (hlimit : 12 ≤ limit)
    (hs : s.Restores level v group changed) (hrest : Json.IsBoundary rest)
    (htext : Json.skipBlanks text =
      (Json.stringText s.name).toList ++ ':' :: ' ' :: ((v.prettyAt level).toList ++ rest)) :
    readMember? settings limit group seen text = some (changed, s.name :: seen, rest) := by
  obtain ⟨hplain, hlength⟩ := Bool.and_eq_true_iff.mp hshort
  have hlength : s.name.length < limit := lt_of_lt_of_le (of_decide_eq_true hlength) hlimit
  have hcolon (after : List Char) : Json.skipBlanks (':' :: after) = ':' :: after := rfl
  simp only [readMember?, htext, Json.string?_plain (List.all_eq_true.mp hplain) hlength, hcolon,
    hfind, if_neg hseen, hs rest hrest, Option.map_some]

theorem toList_prettyAt_pair (level : Nat) (k l : String) (v w : Json) :
    ((Json.object [(k, v), (l, w)]).prettyAt level).toList =
      '\x7b' :: (Json.indentation (level + 1) ++ ((Json.stringText k).toList ++ ':' :: ' ' ::
        ((v.prettyAt (level + 1)).toList ++ ',' :: (Json.indentation (level + 1) ++
          ((Json.stringText l).toList ++ ':' :: ' ' :: ((w.prettyAt (level + 1)).toList ++
            (Json.indentation level ++ ['\x7d']))))))) := by
  have hpair (separator a b : String) : separator.intercalate [a, b] = a ++ separator ++ b := rfl
  rw [Json.prettyAt, Json.prettyMembers, Json.prettyMembers, Json.prettyMembers, Json.block, hpair]
  · simp [Json.toList_newline]
  · exact List.cons_ne_nil _ _

theorem skipBlanks_prettyAt_object (level : Nat) (members : List (String × Json))
    (after : List Char) :
    Json.skipBlanks (((Json.object members).prettyAt level).toList ++ after) =
        ((Json.object members).prettyAt level).toList ++ after ∧
      Json.skipBlanks (' ' :: (((Json.object members).prettyAt level).toList ++ after)) =
        ((Json.object members).prettyAt level).toList ++ after := by
  obtain ⟨tail, htail⟩ :
      ∃ tail, ((Json.object members).prettyAt level).toList ++ after = '\x7b' :: tail := by
    rw [Json.prettyAt]
    unfold Json.block
    split <;> simp
  rw [htail]
  exact ⟨rfl, rfl⟩

theorem readMembers?_comma {fuel : Nat} {seen' : List String}
    (h : readMember? settings limit group seen text = some (changed, seen', ',' :: rest)) :
    readMembers? settings limit (fuel + 1) group seen text =
      readMembers? settings limit fuel changed seen' rest := by
  rw [readMembers?, h]
  rfl

theorem readMembers?_close {fuel : Nat} {seen' : List String} {after : List Char}
    (h : readMember? settings limit group seen text = some (changed, seen', after))
    (hafter : Json.skipBlanks after = '\x7d' :: rest) :
    readMembers? settings limit (fuel + 1) group seen text = some (changed, rest) := by
  simp only [readMembers?, h, hafter]

/-- A group of two settings is read back from the lines of both. -/
theorem readGroup?_pretty {first second : Setting α} {v w : Json} {changed' : α}
    (hne : first.name ≠ second.name) (hfirstShort : isShort first.name = true)
    (hsecondShort : isShort second.name = true) (hlimit : 12 ≤ limit)
    (hfirst : first.Restores (level + 1) v group changed)
    (hsecond : second.Restores (level + 1) w changed changed')
    (htext : Json.skipBlanks text =
      ((Json.object [(first.name, v), (second.name, w)]).prettyAt level).toList ++ rest) :
    readGroup? [first, second] group limit text = some (changed', rest) := by
  obtain ⟨fuel, rfl⟩ : ∃ fuel, limit = fuel + 2 := ⟨limit - 2, by omega⟩
  -- the lines, from the last to the first
  let closing := Json.indentation level ++ '\x7d' :: rest
  let secondLine := (Json.stringText second.name).toList ++
    ':' :: ' ' :: ((w.prettyAt (level + 1)).toList ++ closing)
  let between := ',' :: (Json.indentation (level + 1) ++ secondLine)
  let firstLine := (Json.stringText first.name).toList ++
    ':' :: ' ' :: ((v.prettyAt (level + 1)).toList ++ between)
  have hopening : Json.skipBlanks text = '\x7b' :: (Json.indentation (level + 1) ++ firstLine) := by
    rw [htext, toList_prettyAt_pair]
    simp [firstLine, between, secondLine, closing]
  have hstart : readGroup? [first, second] group (fuel + 2) text =
      readMembers? [first, second] (fuel + 2) (fuel + 2) group [] firstLine := by
    have hblanks : Json.skipBlanks (Json.indentation (level + 1) ++ firstLine) = firstLine :=
      Json.skipBlanks_indentation_stringText _ _ _
    obtain ⟨tail, htail⟩ : ∃ tail, firstLine = '"' :: tail := Json.exists_toList_stringText _ _
    simp only [readGroup?, hopening, hblanks]
    rw [htail]
    rfl
  have hfirstRead : readMember? [first, second] (fuel + 2) group [] firstLine =
      some (changed, [first.name], between) :=
    readMember?_text (by simp) List.not_mem_nil hfirstShort hlimit hfirst
      ⟨',', _, rfl, Or.inl rfl⟩ (Json.skipBlanks_stringText _ _)
  have hsecondRead : readMember? [first, second] (fuel + 2) changed [first.name]
      (Json.indentation (level + 1) ++ secondLine) =
        some (changed', [second.name, first.name], closing) :=
    readMember?_text (by simp [hne]) (by simpa using hne.symm) hsecondShort hlimit hsecond
      ⟨'\n', _, rfl, Or.inr rfl⟩ (Json.skipBlanks_indentation_stringText _ _ _)
  have hclosing : Json.skipBlanks closing = '\x7d' :: rest :=
    Json.skipBlanks_indentation level (by decide)
  rw [hstart, readMembers?_comma hfirstRead]
  exact readMembers?_close hsecondRead hclosing

theorem restores_bool {name : String} (put : α → Bool → α) (level : Nat) (b : Bool) (group : α) :
    Restores ⟨name, fun p text => (bool? text).map fun (b, rest) => (put p b, rest)⟩ level
      (.bool b) group (put group b) := by
  intro rest _
  show (bool? (' ' :: ((toString b).toList ++ rest))).map _ = _
  rw [bool?_text]
  rfl

theorem restores_count {name : String} (put : α → UInt64 → α) (level : Nat) (n : UInt64)
    (group : α) :
    Restores ⟨name, fun p text => (count? text).map fun (n, rest) => (put p n, rest)⟩ level
      (.ofUInt64 n) group (put group n) := by
  intro rest hrest
  have htext : ((Json.ofUInt64 n).prettyAt level).toList = Nat.toDigits 10 n.toNat :=
    Nat.toList_repr
  show (count? (' ' :: (((Json.ofUInt64 n).prettyAt level).toList ++ rest))).map _ = _
  rw [htext, count?_toDigits n hrest]
  rfl

theorem restores_group {β : Type} {name : String} {inner : List (Setting β)} {default b : β}
    (put : α → β → α) {members : List (String × Json)}
    (hgroup : ∀ {text rest}, Json.skipBlanks text =
        ((Json.object members).prettyAt level).toList ++ rest →
      readGroup? inner default limit text = some (b, rest)) (group : α) :
    Restores ⟨name, fun p text => (readGroup? inner default limit text).map fun (b, rest) =>
      (put p b, rest)⟩ level (.object members) group (put group b) := by
  intro rest _
  have hblanks := (skipBlanks_prettyAt_object level members rest).2
  show (readGroup? inner default limit (' ' :: _)).map _ = _
  rw [hgroup hblanks]
  rfl

end Setting

/-! ## Preferences -/

namespace Preferences

variable {limit level : Nat} {text : List Char}

theorem readGroup?_decode (p : DecodePreferences) (hlimit : 12 ≤ limit)
    (htext : Json.skipBlanks text = ((Json.object [("best_effort", .bool p.bestEffort),
      ("pretty", .bool p.pretty)]).prettyAt level).toList ++ rest) :
    Setting.readGroup? decodeSettings {} limit text = some (p, rest) :=
  Setting.readGroup?_pretty (by decide) (by decide) (by decide) hlimit
    (Setting.restores_bool (fun (q : DecodePreferences) b => { q with bestEffort := b }) _
      p.bestEffort {})
    (Setting.restores_bool (fun (q : DecodePreferences) b => { q with pretty := b }) _ p.pretty _)
    htext

theorem readGroup?_plan (p : PlanPreferences) (hlimit : 12 ≤ limit)
    (htext : Json.skipBlanks text = ((Json.object [("show_layout", .bool p.showLayout),
      ("indent", .ofUInt64 p.indent)]).prettyAt level).toList ++ rest) :
    Setting.readGroup? planSettings {} limit text = some (p, rest) :=
  Setting.readGroup?_pretty (by decide) (by decide) (by decide) hlimit
    (Setting.restores_bool (fun (q : PlanPreferences) b => { q with showLayout := b }) _
      p.showLayout {})
    (Setting.restores_count (fun (q : PlanPreferences) n => { q with indent := n }) _ p.indent _)
    htext

theorem readGroup?_settings (p : Preferences) (hlimit : 12 ≤ limit)
    (htext : Json.skipBlanks text = (p.encode.prettyAt 0).toList ++ rest) :
    Setting.readGroup? (settings limit) {} limit text = some (p, rest) :=
  Setting.readGroup?_pretty (show "decode" ≠ "plan" by decide)
    (show Setting.isShort "decode" = true by decide) (show Setting.isShort "plan" = true by decide)
    hlimit
    (Setting.restores_group (fun (q : Preferences) d => { q with decode := d })
      (readGroup?_decode p.decode hlimit) {})
    (Setting.restores_group (fun (q : Preferences) l => { q with plan := l })
      (readGroup?_plan p.plan hlimit) _) htext

theorem length_text (p : Preferences) : 11 ≤ p.text.toList.length := by
  have hname : (Json.stringText "decode").toList.length = 8 := by
    rw [Json.toList_stringText (List.all_eq_true.mp (by decide))]
    rfl
  rw [Preferences.text, Json.pretty, encode, Setting.toList_prettyAt_pair]
  simp only [Json.indentation, List.length_cons, List.length_append, hname]
  omega

/-- Preferences are read back from the text that is stored and shown of them. -/
theorem parse?_text (p : Preferences) : parse? p.text = some p := by
  have hlimit : 12 ≤ p.text.toList.length + 1 := by
    have := p.length_text
    omega
  have htext : Json.skipBlanks p.text.toList = (p.encode.prettyAt 0).toList ++ [] := by
    have hblanks (members : List (String × Json)) :=
      (Setting.skipBlanks_prettyAt_object 0 members []).1
    simp only [List.append_nil] at hblanks ⊢
    exact hblanks _
  simp only [parse?, readGroup?_settings p hlimit htext]
  rfl

theorem readsBack_text : Parser.ReadsBack Preferences.text :=
  Parser.readsBack_ofOption parse?_text

end Preferences

end QueryScope
