import Mathlib.Data.List.Basic
import QueryScope.Sql.Quoting

/-!
# Quoted text is read back

A lexer of quoted text takes two marks in a row for one and ends at a mark that stands alone. It
reads exactly what quoting writes, so that no text gets out of its quotes, whatever stands in it and
whatever comes after it. A name without quotes is a plain word, and a name in quotes starts with a
mark that no word has, so two names never come out the same.
-/

namespace QueryScope.Sql

variable {mark : Char} {chars rest text : List Char}

/-! ## The lexer -/

/-- What stands in front of the closing mark, and what comes after it. -/
def lexBody? (mark : Char) : List Char → Option (List Char × List Char)
  | [] => none
  | [c] => if c = mark then some ([], []) else none
  | c :: d :: rest =>
    if c = mark then
      if d = mark then (lexBody? mark rest).map fun (chars, after) => (mark :: chars, after)
      else some ([], d :: rest)
    else (lexBody? mark (d :: rest)).map fun (chars, after) => (c :: chars, after)

/-- The content of the quoted text at the start of a text, and what comes after it. -/
def lexQuoted? (mark : Char) (text : String) : Option (String × String) :=
  match text.toList with
  | [] => none
  | c :: body =>
    if c = mark then
      (lexBody? mark body).map fun (chars, after) => (String.ofList chars, String.ofList after)
    else none

theorem lexBody?_of_ne {c : Char} (h : c ≠ mark) (rest : List Char) :
    lexBody? mark (c :: rest) =
      (lexBody? mark rest).map fun (chars, after) => (c :: chars, after) := by
  cases rest with
  | nil => simp [lexBody?, h]
  | cons d rest => rw [lexBody?, if_neg h]

theorem lexBody?_twice (mark : Char) (rest : List Char) :
    lexBody? mark (mark :: mark :: rest) =
      (lexBody? mark rest).map fun (chars, after) => (mark :: chars, after) := by
  rw [lexBody?, if_pos rfl, if_pos rfl]

theorem lexBody?_alone (h : rest.head? ≠ some mark) :
    lexBody? mark (mark :: rest) = some ([], rest) := by
  cases rest with
  | nil => simp [lexBody?]
  | cons d rest =>
    have hd : d ≠ mark := fun heq => h (congrArg some heq)
    rw [lexBody?, if_pos rfl, if_neg hd]

/-- A run of marks of any length is read as half as many, so that the closing mark is the one that
is left over. -/
theorem lexBody?_doubled (h : rest.head? ≠ some mark) (chars : List Char) :
    lexBody? mark (doubled mark chars ++ mark :: rest) = some (chars, rest) := by
  induction chars with
  | nil => exact lexBody?_alone h
  | cons c chars ih =>
    rw [doubled]
    by_cases hc : c = mark
    · subst hc
      rw [if_pos rfl, List.cons_append, List.cons_append, lexBody?_twice, ih]
      rfl
    · rw [if_neg hc, List.cons_append, lexBody?_of_ne hc, ih]
      rfl

theorem eq_doubled_of_lexBody? (h : lexBody? mark text = some (chars, rest)) :
    text = doubled mark chars ++ mark :: rest ∧ rest.head? ≠ some mark := by
  -- the cases are those of the lexer: two marks, a mark that stands alone, another character
  fun_induction lexBody? mark text generalizing chars rest with
  | case1 => cases h
  | case2 =>
    obtain ⟨rfl, rfl⟩ := Prod.mk.inj (Option.some.inj h)
    exact ⟨rfl, nofun⟩
  | case3 => cases h
  | case4 after ih =>
    obtain ⟨⟨inner, tail⟩, hinner, heq⟩ := Option.map_eq_some_iff.mp h
    obtain ⟨rfl, rfl⟩ := Prod.mk.inj heq
    obtain ⟨rfl, htail⟩ := ih hinner
    refine ⟨?_, htail⟩
    rw [doubled, if_pos rfl, List.cons_append, List.cons_append]
  | case5 d after hd =>
    obtain ⟨rfl, rfl⟩ := Prod.mk.inj (Option.some.inj h)
    exact ⟨rfl, fun hhead => hd (Option.some.inj hhead)⟩
  | case6 c d after hc ih =>
    obtain ⟨⟨inner, tail⟩, hinner, heq⟩ := Option.map_eq_some_iff.mp h
    obtain ⟨rfl, rfl⟩ := Prod.mk.inj heq
    obtain ⟨htext, htail⟩ := ih hinner
    refine ⟨?_, htail⟩
    rw [doubled, if_neg hc, List.cons_append, htext]

/-- The lexer accepts exactly what quoting writes, in front of anything but another mark. -/
theorem lexQuoted?_eq_some_iff {text s r : String} : lexQuoted? mark text = some (s, r) ↔
    text = String.ofList (delimited mark s.toList) ++ r ∧ r.toList.head? ≠ some mark := by
  constructor
  · intro h
    rw [lexQuoted?] at h
    split at h
    next => cases h
    next c body htext =>
      split at h
      next hc =>
        subst hc
        obtain ⟨⟨chars, after⟩, hbody, heq⟩ := Option.map_eq_some_iff.mp h
        obtain ⟨rfl, rfl⟩ := Prod.mk.inj heq
        obtain ⟨hdoubled, hhead⟩ := eq_doubled_of_lexBody? hbody
        refine ⟨?_, by rwa [String.toList_ofList]⟩
        rw [← String.ofList_toList (s := text), htext, hdoubled, ← String.ofList_append,
          String.toList_ofList, delimited, List.cons_append, List.append_assoc,
          List.singleton_append]
      next => cases h
  · rintro ⟨rfl, hhead⟩
    have htext : (String.ofList (delimited mark s.toList) ++ r).toList =
        mark :: (doubled mark s.toList ++ mark :: r.toList) := by
      rw [String.toList_append, String.toList_ofList, delimited, List.cons_append,
        List.append_assoc, List.singleton_append]
    simp only [lexQuoted?, htext, if_pos, lexBody?_doubled hhead, Option.map_some,
      String.ofList_toList]

theorem delimited_inj {a b : String}
    (h : String.ofList (delimited mark a.toList) = String.ofList (delimited mark b.toList)) :
    a = b := by
  -- the lexer tells the two apart
  have hlex (s : String) :
      lexQuoted? mark (String.ofList (delimited mark s.toList)) = some (s, "") :=
    lexQuoted?_eq_some_iff.mpr ⟨(String.append_empty).symm, nofun⟩
  have hsame := hlex a
  rw [h, hlex b] at hsame
  exact (Prod.mk.inj (Option.some.inj hsame)).1.symm

/-! ## Words -/

/-- A word of lower-case letters, digits and underscores that does not start with a digit. -/
structure IsWord (name : String) : Prop where
  nonempty : name ≠ ""
  letters : ∀ c ∈ name.toList, ('a' ≤ c ∧ c ≤ 'z') ∨ ('0' ≤ c ∧ c ≤ '9') ∨ c = '_'
  start : ∀ c, name.toList.head? = some c → ¬('0' ≤ c ∧ c ≤ '9')

theorem isLower_iff {c : Char} : c.isLower = true ↔ 'a' ≤ c ∧ c ≤ 'z' := by
  change (decide ('a' ≤ c) && decide (c ≤ 'z')) = true ↔ _
  rw [Bool.and_eq_true, decide_eq_true_eq, decide_eq_true_eq]

theorem isDigit_iff {c : Char} : c.isDigit = true ↔ '0' ≤ c ∧ c ≤ '9' := by
  change (decide ('0' ≤ c) && decide (c ≤ '9')) = true ↔ _
  rw [Bool.and_eq_true, decide_eq_true_eq, decide_eq_true_eq]

theorem isWordChar_iff {c : Char} :
    isWordChar c = true ↔ ('a' ≤ c ∧ c ≤ 'z') ∨ ('0' ≤ c ∧ c ≤ '9') ∨ c = '_' := by
  rw [isWordChar, isWordStart, Bool.or_eq_true, Bool.or_eq_true, isLower_iff, isDigit_iff,
    beq_iff_eq, or_assoc, or_comm (a := c = '_')]

theorem isWordStart_iff {c : Char} :
    isWordStart c = true ↔ isWordChar c = true ∧ ¬('0' ≤ c ∧ c ≤ '9') := by
  constructor
  · intro h
    refine ⟨Bool.or_eq_true_iff.mpr (Or.inl h), ?_⟩
    rcases Bool.or_eq_true_iff.mp h with hlower | hunderscore
    · rintro ⟨-, hnine⟩
      exact absurd (UInt32.le_trans (isLower_iff.mp hlower).1 hnine) (by decide)
    · obtain rfl := eq_of_beq hunderscore
      decide
  · rintro ⟨h, hdigit⟩
    rcases Bool.or_eq_true_iff.mp h with hstart | hchar
    · exact hstart
    · exact absurd (isDigit_iff.mp hchar) hdigit

theorem isPlainWord_iff {name : String} : isPlainWord name.toList = true ↔ IsWord name := by
  constructor
  · intro h
    cases hname : name.toList with
    | nil =>
      rw [hname] at h
      cases h
    | cons c rest =>
      rw [hname, isPlainWord, Bool.and_eq_true] at h
      obtain ⟨hstart, hrest⟩ := h
      obtain ⟨hc, hdigit⟩ := isWordStart_iff.mp hstart
      refine ⟨?_, ?_, ?_⟩
      · rintro rfl
        cases hname
      · rw [hname]
        have hall : ∀ d ∈ c :: rest, isWordChar d = true :=
          List.forall_mem_cons.mpr ⟨hc, List.all_eq_true.mp hrest⟩
        exact fun d hd => isWordChar_iff.mp (hall d hd)
      · rw [hname]
        rintro d ⟨⟩
        exact hdigit
  · rintro ⟨hnonempty, hletters, hstart⟩
    cases hname : name.toList with
    | nil => exact absurd (String.toList_eq_nil_iff.mp hname) hnonempty
    | cons c rest =>
      rw [hname] at hletters hstart
      obtain ⟨hc, hrest⟩ := List.forall_mem_cons.mp hletters
      rw [isPlainWord, Bool.and_eq_true, List.all_eq_true]
      refine ⟨isWordStart_iff.mpr ⟨isWordChar_iff.mpr hc, hstart c rfl⟩, ?_⟩
      exact fun d hd => isWordChar_iff.mpr (hrest d hd)

theorem quoteIdentifier_of_isWord {name : String} (h : IsWord name) :
    quoteIdentifier name = name := by
  rw [quoteIdentifier, if_pos (isPlainWord_iff.mpr h)]

theorem quoteIdentifier_of_not_isWord {name : String} (h : ¬IsWord name) :
    quoteIdentifier name = String.ofList (delimited '"' name.toList) := by
  rw [quoteIdentifier, if_neg (mt isPlainWord_iff.mp h)]

theorem IsWord.ne_delimited {a b : String} (h : IsWord a) :
    a ≠ String.ofList (delimited '"' b.toList) := by
  rintro rfl
  have hquote := h.letters '"'
  rw [String.toList_ofList] at hquote
  exact absurd (hquote List.mem_cons_self) (by decide)

theorem quoteIdentifier_inj {a b : String} (h : quoteIdentifier a = quoteIdentifier b) :
    a = b := by
  by_cases ha : IsWord a
  · by_cases hb : IsWord b
    · rwa [quoteIdentifier_of_isWord ha, quoteIdentifier_of_isWord hb] at h
    · rw [quoteIdentifier_of_isWord ha, quoteIdentifier_of_not_isWord hb] at h
      exact absurd h ha.ne_delimited
  · by_cases hb : IsWord b
    · rw [quoteIdentifier_of_not_isWord ha, quoteIdentifier_of_isWord hb] at h
      exact absurd h.symm hb.ne_delimited
    · rw [quoteIdentifier_of_not_isWord ha, quoteIdentifier_of_not_isWord hb] at h
      exact delimited_inj h

/-! ## Quoting -/

/-- A string literal is read back as its text in front of anything but another quote. An identifier
is its name as it stands, which is then a word, or is read back as its name in front of anything but
another double quote. No two names have the same identifier. -/
theorem quoting_lossless (s : String) :
    (∀ r : String, r.toList.head? ≠ some '\'' →
      lexQuoted? '\'' (quoteString s ++ r) = some (s, r)) ∧
    ((quoteIdentifier s = s ∧ IsWord s) ∨
      ∀ r : String, r.toList.head? ≠ some '"' →
        lexQuoted? '"' (quoteIdentifier s ++ r) = some (s, r)) ∧
    ∀ t, quoteIdentifier s = quoteIdentifier t → s = t := by
  refine ⟨fun r hr => lexQuoted?_eq_some_iff.mpr ⟨rfl, hr⟩, ?_, fun t => quoteIdentifier_inj⟩
  by_cases hs : IsWord s
  · exact Or.inl ⟨quoteIdentifier_of_isWord hs, hs⟩
  · refine Or.inr fun r hr => ?_
    rw [quoteIdentifier_of_not_isWord hs]
    exact lexQuoted?_eq_some_iff.mpr ⟨rfl, hr⟩

theorem quoting_lossless_comparison :
    " = x".toList.head? ≠ some '\'' ∧
      lexQuoted? '\'' (quoteString "it's" ++ " = x") = some ("it's", " = x") ∧
      " = x".toList.head? ≠ some '"' ∧
      lexQuoted? '"' (quoteIdentifier "it's" ++ " = x") = some ("it's", " = x") := by
  have hquote : " = x".toList.head? ≠ some '\'' := by decide
  have hdouble : " = x".toList.head? ≠ some '"' := by decide
  obtain ⟨hstring, hidentifier, -⟩ := quoting_lossless "it's"
  rcases hidentifier with ⟨-, hword⟩ | hidentifier
  · exact absurd (hword.letters '\'' (by decide)) (by decide)
  · exact ⟨hquote, hstring _ hquote, hdouble, hidentifier _ hdouble⟩

end QueryScope.Sql
