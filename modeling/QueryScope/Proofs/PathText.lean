import QueryScope.Proofs.Elements
import QueryScope.Proofs.Identifier

/-!
# The texts of paths

Two paths with the same text are the same path, whatever the keys in them imitate. A key ends at the
first quote that is not escaped, a position at its bracket, and a field at the dot or bracket of the
next step, so that each step can be taken off the front of a text in one way only.
-/

namespace QueryScope

open QueryScope.Path (Segment)

/-! ## Quoted keys -/

namespace Text

/-- The character that a letter stands for behind a backslash. -/
def meaning : Char → Char
  | '0' => '\x00'
  | 't' => '\t'
  | 'r' => '\r'
  | 'n' => '\n'
  | c => c

/-- The character at the front of an escaped text, and what comes after it. -/
def readChar? : List Char → Option (Char × List Char)
  | '\\' :: 'u' :: '\x7b' :: rest =>
    (TransactionId.hexValue? (rest.takeWhile (· ≠ '\x7d'))).map fun code =>
      (Char.ofNat code, (rest.dropWhile (· ≠ '\x7d')).drop 1)
  | '\\' :: letter :: rest => some (meaning letter, rest)
  | c :: rest => if c = '"' then none else some (c, rest)
  | [] => none

/-- A character is written as a letter behind a backslash, by its code, or as it stands. -/
theorem escapeChar_cases (c : Char) :
    (∃ letter, letter ≠ 'u' ∧ meaning letter = c ∧ escapeChar '"' c = ['\\', letter]) ∨
      escapeChar '"' c = '\\' :: 'u' :: '\x7b' :: (Nat.toDigits 16 c.toNat ++ ['\x7d']) ∨
      (c ≠ '\\' ∧ c ≠ '"' ∧ escapeChar '"' c = [c]) := by
  unfold escapeChar
  split
  next => exact Or.inl ⟨'0', by decide, rfl, rfl⟩
  next => exact Or.inl ⟨'t', by decide, rfl, rfl⟩
  next => exact Or.inl ⟨'r', by decide, rfl, rfl⟩
  next => exact Or.inl ⟨'n', by decide, rfl, rfl⟩
  next => exact Or.inl ⟨'\\', by decide, rfl, rfl⟩
  next hbackslash =>
    by_cases hquote : c = '"'
    · subst hquote
      exact Or.inl ⟨'"', by decide, rfl, rfl⟩
    · rw [if_neg hquote]
      split
      · exact Or.inr (Or.inl rfl)
      · exact Or.inr (Or.inr ⟨hbackslash, hquote, rfl⟩)

theorem readChar?_letter {letter : Char} (h : letter ≠ 'u') (rest : List Char) :
    readChar? ('\\' :: letter :: rest) = some (meaning letter, rest) := by
  rw [readChar?]
  rintro _ rfl
  exact absurd rfl h

theorem readChar?_code (n : Nat) (rest : List Char) :
    readChar? ('\\' :: 'u' :: '\x7b' :: (Nat.toDigits 16 n ++ '\x7d' :: rest)) =
      some (Char.ofNat n, rest) := by
  have hdigits : ∀ c ∈ Nat.toDigits 16 n, decide (c ≠ '\x7d') = true := by
    intro c hc
    obtain ⟨d, hd, rfl⟩ := exists_digit_of_mem_toDigits (by decide) hc
    have hall : ∀ d < 16, Nat.digitChar d ≠ '\x7d' := by decide
    exact decide_eq_true (hall d hd)
  have hbrace : decide ('\x7d' ≠ '\x7d') = false := by decide
  rw [readChar?, takeWhile_append_cons hdigits hbrace, dropWhile_append_cons hdigits hbrace,
    TransactionId.hexValue?_toDigits]
  rfl

/-- A character is read back from what it is written as, whatever comes after it. -/
theorem readChar?_escapeChar (c : Char) (rest : List Char) :
    readChar? (escapeChar '"' c ++ rest) = some (c, rest) := by
  rcases escapeChar_cases c with ⟨letter, hletter, rfl, h⟩ | h | ⟨hbackslash, hquote, h⟩
  · rw [h]
    exact readChar?_letter hletter rest
  · rw [h, List.cons_append, List.cons_append, List.cons_append, List.append_assoc,
      List.singleton_append, readChar?_code, Char.ofNat_toNat]
  · rw [h, List.singleton_append, readChar?]
    · rw [if_neg hquote]
    · rintro _ rfl
      exact absurd rfl hbackslash
    · rintro _ _ rfl
      exact absurd rfl hbackslash

/-- Escaped characters end at the first quote. -/
theorem escaped_append_inj {a b x y : List Char}
    (h : a.flatMap (escapeChar '"') ++ '"' :: x = b.flatMap (escapeChar '"') ++ '"' :: y) :
    a = b ∧ x = y := by
  have hend (rest : List Char) : readChar? ('"' :: rest) = none := rfl
  have hcons (c : Char) (rest z : List Char) :
      readChar? ((c :: rest).flatMap (escapeChar '"') ++ z) =
        some (c, rest.flatMap (escapeChar '"') ++ z) := by
    rw [List.flatMap_cons, List.append_assoc, readChar?_escapeChar]
  induction a generalizing b with
  | nil =>
    cases b with
    | nil => exact ⟨rfl, (List.cons.inj h).2⟩
    | cons d b =>
      have hread := congrArg readChar? h
      rw [hcons, List.flatMap_nil, List.nil_append, hend] at hread
      cases hread
  | cons c a ih =>
    have hread := congrArg readChar? h
    cases b with
    | nil =>
      rw [hcons, List.flatMap_nil, List.nil_append, hend] at hread
      cases hread
    | cons d b =>
      rw [hcons, hcons] at hread
      obtain ⟨rfl, hrest⟩ := Prod.mk.inj (Option.some.inj hread)
      obtain ⟨rfl, hxy⟩ := ih hrest
      exact ⟨rfl, hxy⟩

theorem toList_quote (text : String) :
    (quote text).toList = '"' :: (text.toList.flatMap (escapeChar '"') ++ ['"']) := by
  rw [quote, String.toList_ofList]

theorem quote_append_inj {s t : String} {x y : List Char}
    (h : (quote s).toList ++ x = (quote t).toList ++ y) : s = t ∧ x = y := by
  rw [toList_quote, toList_quote, List.cons_append, List.cons_append, List.append_assoc,
    List.append_assoc, List.singleton_append, List.singleton_append] at h
  obtain ⟨hchars, hxy⟩ := escaped_append_inj (List.cons.inj h).2
  exact ⟨String.toList_inj.mp hchars, hxy⟩

end Text

/-! ## Positions and names -/

theorem digits_append_inj {m n : Nat} {x y : List Char}
    (h : Nat.toDigits 10 m ++ ']' :: x = Nat.toDigits 10 n ++ ']' :: y) : m = n ∧ x = y := by
  have hbracket (z : List Char) : ∀ c, (']' :: z).head? = some c → c.isDigit = false := by
    rintro c ⟨⟩
    rfl
  obtain ⟨hdigits, hxy⟩ :=
    word_append_inj (isDigit_toDigits m) (isDigit_toDigits n) (hbracket x) (hbracket y) h
  refine ⟨?_, (List.cons.inj hxy).2⟩
  rw [← digitsValue_toDigits m, hdigits, digitsValue_toDigits]

theorem digits_append_ne_quote (n : Nat) (x y : List Char) :
    Nat.toDigits 10 n ++ x ≠ '"' :: y := by
  intro h
  obtain ⟨c, rest, hdigits⟩ := List.exists_cons_of_ne_nil (Nat.toDigits_ne_nil (n := n) (b := 10))
  rw [hdigits] at h
  obtain ⟨rfl, -⟩ := List.cons.inj h
  have hmem : '"' ∈ Nat.toDigits 10 n := by rw [hdigits]; exact List.mem_cons_self
  exact absurd (isDigit_toDigits n _ hmem) (by decide)

theorem isAlphanum_of_mem {name : String} (h : isFieldName name = true) {c : Char}
    (hc : c ∈ name.toList) : c.isAlphanum = true :=
  List.all_eq_true.mp (Bool.and_eq_true_iff.mp h).2 c hc

theorem exists_cons_of_isFieldName {name : String} (h : isFieldName name = true) :
    ∃ c rest, name.toList = c :: rest ∧ c.isAlphanum = true := by
  have hne : name.toList ≠ [] := fun hnil =>
    of_decide_eq_true (Bool.and_eq_true_iff.mp h).1 (String.toList_eq_nil_iff.mp hnil)
  obtain ⟨c, rest, hname⟩ := List.exists_cons_of_ne_nil hne
  exact ⟨c, rest, hname, isAlphanum_of_mem h (by simp [hname])⟩

/-! ## Steps -/

namespace Path

variable {s t : Segment} {isFirst : Bool} {x y : List Char}

/-- The name of a field step is a word. -/
def Segment.IsProper (s : Segment) : Prop :=
  ∀ name, s = .field name → isFieldName name = true

/-- How a text goes on behind a step: it ends, or there is another step. -/
def Resumes (text : List Char) : Prop :=
  ∀ c, text.head? = some c → c = '.' ∨ c = '['

namespace Segment

theorem toList_text_field (isFirst : Bool) (name : String) :
    ((field name).text isFirst).toList = (if isFirst then [] else ['.']) ++ name.toList := by
  cases isFirst <;> simp [text]

theorem index_append (isFirst : Bool) (n : Nat) (x : List Char) :
    ((index n).text isFirst).toList ++ x = '[' :: (Nat.toDigits 10 n ++ ']' :: x) := by
  simp [text, toString_eq_self, Nat.toList_repr]

theorem key_append (isFirst : Bool) (k : String) (x : List Char) :
    ((key k).text isFirst).toList ++ x = '[' :: ((Text.quote k).toList ++ ']' :: x) := by
  simp [text]

/-- A field starts with its name or a dot, all other steps with a bracket. -/
theorem field_append_ne_bracket {name : String} (h : isFieldName name = true) :
    ((field name).text isFirst).toList ++ x ≠ '[' :: y := by
  intro heq
  rw [toList_text_field] at heq
  cases isFirst with
  | true =>
    obtain ⟨c, rest, hname, hc⟩ := exists_cons_of_isFieldName h
    rw [hname] at heq
    obtain ⟨rfl, -⟩ := List.cons.inj heq
    exact absurd hc (by decide)
  | false => exact absurd (List.cons.inj heq).1 (by decide)

theorem field_append_inj {m n : String} (hm : isFieldName m = true) (hn : isFieldName n = true)
    (hx : Resumes x) (hy : Resumes y)
    (h : ((field m).text isFirst).toList ++ x = ((field n).text isFirst).toList ++ y) :
    m = n ∧ x = y := by
  have hstop {z : List Char} (hz : Resumes z) : ∀ c, z.head? = some c → c.isAlphanum = false := by
    intro c hc
    rcases hz c hc with rfl | rfl <;> decide
  rw [toList_text_field, toList_text_field, List.append_assoc, List.append_assoc,
    List.append_cancel_left_eq] at h
  obtain ⟨hname, hxy⟩ := word_append_inj (fun _ => isAlphanum_of_mem hm)
    (fun _ => isAlphanum_of_mem hn) (hstop hx) (hstop hy) h
  exact ⟨String.toList_inj.mp hname, hxy⟩

/-- A step can be taken off the front of a text in one way only. -/
theorem text_append_inj (hs : s.IsProper) (ht : t.IsProper) (hx : Resumes x) (hy : Resumes y)
    (h : (s.text isFirst).toList ++ x = (t.text isFirst).toList ++ y) : s = t ∧ x = y := by
  cases s with
  | field m =>
    cases t with
    | field n =>
      obtain ⟨rfl, hxy⟩ := field_append_inj (hs m rfl) (ht n rfl) hx hy h
      exact ⟨rfl, hxy⟩
    | index n =>
      rw [index_append] at h
      exact absurd h (field_append_ne_bracket (hs m rfl))
    | key k =>
      rw [key_append] at h
      exact absurd h (field_append_ne_bracket (hs m rfl))
  | index m =>
    rw [index_append] at h
    cases t with
    | field n => exact absurd h.symm (field_append_ne_bracket (ht n rfl))
    | index n =>
      rw [index_append] at h
      obtain ⟨rfl, hxy⟩ := digits_append_inj (List.cons.inj h).2
      exact ⟨rfl, hxy⟩
    | key k =>
      rw [key_append, Text.toList_quote] at h
      exact absurd (List.cons.inj h).2 (digits_append_ne_quote _ _ _)
  | key j =>
    rw [key_append] at h
    cases t with
    | field n => exact absurd h.symm (field_append_ne_bracket (ht n rfl))
    | index n =>
      rw [index_append, Text.toList_quote] at h
      exact absurd (List.cons.inj h).2.symm (digits_append_ne_quote _ _ _)
    | key k =>
      rw [key_append] at h
      obtain ⟨rfl, hxy⟩ := Text.quote_append_inj (List.cons.inj h).2
      exact ⟨rfl, (List.cons.inj hxy).2⟩

/-- A step behind another one says where it starts. -/
theorem resumes_text_append (s : Segment) (rest : List Char) :
    Resumes ((s.text false).toList ++ rest) := by
  intro c hc
  cases s with
  | field name =>
    rw [toList_text_field] at hc
    exact Or.inl (Option.some.inj hc).symm
  | index n =>
    rw [index_append] at hc
    exact Or.inr (Option.some.inj hc).symm
  | key k =>
    rw [key_append] at hc
    exact Or.inr (Option.some.inj hc).symm

theorem text_append_ne_nil (s : Segment) (rest : List Char) :
    (s.text false).toList ++ rest ≠ [] := by
  cases s <;> simp [toList_text_field, index_append, key_append]

end Segment

/-! ## Paths -/

/-- The text of the steps behind the first one. -/
def restText (steps : List Segment) : List Char :=
  steps.flatMap fun s => (s.text false).toList

theorem resumes_restText (steps : List Segment) : Resumes (restText steps) := by
  cases steps with
  | nil => exact nofun
  | cons s steps => exact s.resumes_text_append _

theorem restText_inj {steps others : List Segment} (hsteps : ∀ s ∈ steps, s.IsProper)
    (hothers : ∀ s ∈ others, s.IsProper) (h : restText steps = restText others) :
    steps = others := by
  induction steps generalizing others with
  | nil =>
    cases others with
    | nil => rfl
    | cons t others => exact absurd h.symm (t.text_append_ne_nil _)
  | cons s steps ih =>
    cases others with
    | nil => exact absurd h (s.text_append_ne_nil _)
    | cons t others =>
      rw [List.forall_mem_cons] at hsteps hothers
      obtain ⟨rfl, hrest⟩ := Segment.text_append_inj hsteps.1 hothers.1 (resumes_restText steps)
        (resumes_restText others) h
      rw [ih hsteps.2 hothers.2 hrest]

theorem toList_text_cons (first : Segment) (rest : List Segment) :
    (Path.mk (first :: rest)).text.toList = (first.text true).toList ++ restText rest := by
  have hjoin (steps : List Segment) :
      (String.join (steps.map (Segment.text false))).toList = restText steps := by
    induction steps with
    | nil => rfl
    | cons s steps ih =>
      rw [List.map_cons, String.join_cons, String.toList_append, ih]
      rfl
  show (String.join (first.text true :: rest.map (Segment.text false))).toList = _
  rw [String.join_cons, String.toList_append, hjoin]

/-- What stands for the root is the text of no step. -/
theorem toList_text_cons_ne_root {first : Segment} (h : first.IsProper) (rest : List Segment) :
    (Path.mk (first :: rest)).text.toList ≠ ['$'] := by
  intro heq
  rw [toList_text_cons] at heq
  cases first with
  | field name =>
    obtain ⟨c, letters, hname, hc⟩ := exists_cons_of_isFieldName (h name rfl)
    rw [Segment.toList_text_field, if_pos rfl, List.nil_append, hname] at heq
    obtain ⟨rfl, -⟩ := List.cons.inj heq
    exact absurd hc (by decide)
  | index n =>
    rw [Segment.index_append] at heq
    exact absurd (List.cons.inj heq).1 (by decide)
  | key k =>
    rw [Segment.key_append] at heq
    exact absurd (List.cons.inj heq).1 (by decide)

theorem HasFieldNames.isProper {p : Path} (h : p.HasFieldNames) :
    ∀ s ∈ p.segments, s.IsProper := by
  rintro s hs name rfl
  exact h name hs

theorem text_inj {p q : Path} (hp : p.HasFieldNames) (hq : q.HasFieldNames)
    (h : p.text = q.text) : p = q := by
  obtain ⟨steps⟩ := p
  obtain ⟨others⟩ := q
  have hchars := congrArg String.toList h
  have hsteps := hp.isProper
  have hothers := hq.isProper
  cases steps with
  | nil =>
    cases others with
    | nil => rfl
    | cons t others => exact absurd hchars.symm (toList_text_cons_ne_root (hothers t (by simp)) _)
  | cons s steps =>
    cases others with
    | nil => exact absurd hchars (toList_text_cons_ne_root (hsteps s (by simp)) _)
    | cons t others =>
      rw [toList_text_cons, toList_text_cons] at hchars
      rw [List.forall_mem_cons] at hsteps hothers
      obtain ⟨rfl, hrest⟩ := Segment.text_append_inj hsteps.1 hothers.1 (resumes_restText steps)
        (resumes_restText others) hchars
      rw [restText_inj hsteps.2 hothers.2 hrest]

end Path

/-- Paths whose fields have words as names are told apart by their texts, and every error of
decoding has such a path. -/
theorem errorPaths_unambiguous :
    (∀ p q : Path, p.HasFieldNames → q.HasFieldNames → (p.text = q.text ↔ p = q)) ∧
      ∀ {α : Type} (c : Codec α) (v : Json) (e : DecodeError),
        c.decode .standard v = .error e → e.path.HasFieldNames :=
  ⟨fun _ _ hp hq => ⟨Path.text_inj hp hq, congrArg Path.text⟩,
    fun _ _ _ h => (Codec.decode_named h).proper⟩

/-- Three steps. -/
def Path.imitated : Path :=
  ⟨[.key "a", .field "b", .index 0]⟩

/-- One step, to a key that is spelled like three. -/
def Path.imitation : Path :=
  ⟨[.key "a\"].b[0]"]⟩

theorem errorPaths_unambiguous_imitation :
    Path.imitated.HasFieldNames ∧ Path.imitation.HasFieldNames ∧
      Path.imitated.text ≠ Path.imitation.text ∧
      (Codec.record .memoryPool).decode .standard (.object []) =
        .error (.ofField .root ⟨"maxBytes", .missing⟩) ∧
      (DecodeError.ofField .root ⟨"maxBytes", .missing⟩).path.HasFieldNames := by
  have himitated : Path.imitated.HasFieldNames := by
    intro name h
    obtain rfl : name = "b" := by simpa [Path.imitated] using h
    decide
  have himitation : Path.imitation.HasFieldNames := by
    intro name h
    simp [Path.imitation] at h
  have hdecode : (Codec.record .memoryPool).decode .standard (.object []) =
      .error (.ofField .root ⟨"maxBytes", .missing⟩) := rfl
  refine ⟨himitated, himitation, fun h => ?_, hdecode, errorPaths_unambiguous.2 _ _ _ hdecode⟩
  exact absurd ((errorPaths_unambiguous.1 _ _ himitated himitation).mp h) (by decide)

end QueryScope
