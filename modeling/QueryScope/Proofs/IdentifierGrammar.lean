import Mathlib.Data.List.Induction
import QueryScope.Proofs.Decoding
import QueryScope.Proofs.Identifier
import QueryScope.Proofs.Sql.Quoting

/-!
# The grammar of stage and task identifiers

The text of a stage or a task is the word of its query with ordinals behind it, and dots between
them. One reader looks for the first dot and the other cuts at all dots, but both accept exactly
the texts of this form. An ordinal may have leading zeros; without them it is canonical, so that
reading and writing a text again takes just these zeros away.
-/

namespace QueryScope

variable {field : String} {part word : List Char} {parts : List (List Char)} {n : UInt32}

/-! ## Ordinals -/

/-- Digits and nothing else, at least one of them. -/
structure IsNumeral (part : List Char) : Prop where
  nonempty : part ≠ []
  digits : ∀ c ∈ part, '0' ≤ c ∧ c ≤ '9'

/-- The digits denote the ordinal, in decimal notation. -/
structure DenotesOrdinal (part : List Char) (n : UInt32) : Prop where
  numeral : IsNumeral part
  value : Nat.ofDigitChars 10 part 0 = n.toNat

/-- A zero stands in front of another digit. -/
def HasLeadingZero (part : List Char) : Prop :=
  ∃ c rest, part = '0' :: c :: rest

/-- The digits without the zeros in front, of which the last digit is none. -/
def withoutLeadingZeros : List Char → List Char
  | '0' :: c :: rest => withoutLeadingZeros (c :: rest)
  | part => part

theorem IsNumeral.isDigit (h : IsNumeral part) : ∀ c ∈ part, c.isDigit = true := by
  intro c hc
  exact Sql.isDigit_iff.mpr (h.digits c hc)

theorem isNumeral_iff : IsNumeral part ↔ part ≠ [] ∧ part.all Char.isDigit = true := by
  constructor
  · intro h
    exact ⟨h.nonempty, List.all_eq_true.mpr h.isDigit⟩
  · rintro ⟨hne, hall⟩
    exact ⟨hne, fun c hc => Sql.isDigit_iff.mp (List.all_eq_true.mp hall c hc)⟩

theorem parseOrdinal_ok_iff : parseOrdinal field part = .ok n ↔ DenotesOrdinal part n := by
  rw [parseOrdinal, digitsValue_eq]
  constructor
  · intro h
    split at h
    · cases h
    next hnumeral =>
      rw [not_or, not_not] at hnumeral
      split at h
      next hlt =>
        cases h
        exact ⟨isNumeral_iff.mpr hnumeral, (UInt32.toNat_ofNat_of_lt hlt).symm⟩
      · cases h
  · intro h
    have hnumeral := isNumeral_iff.mp h.numeral
    have hlt : Nat.ofDigitChars 10 part 0 < UInt32.size := by
      rw [h.value]
      exact n.toNat_lt
    rw [if_neg (by rw [not_or, not_not]; exact hnumeral), if_pos hlt, h.value, UInt32.ofNat_toNat]

theorem IsNumeral.dot_notMem (h : IsNumeral part) : '.' ∉ part := by
  intro hdot
  exact absurd (h.isDigit '.' hdot) (by decide)

/-! ## Canonical ordinals -/

theorem IsNumeral.tail {c d : Char} {rest : List Char} (h : IsNumeral (c :: d :: rest)) :
    IsNumeral (d :: rest) :=
  ⟨List.cons_ne_nil _ _, fun x hx => h.digits x (List.mem_cons_of_mem _ hx)⟩

theorem IsNumeral.init {d : Char} (h : IsNumeral (part ++ [d])) (hne : part ≠ []) :
    IsNumeral part :=
  ⟨hne, fun c hc => h.digits c (List.mem_append_left _ hc)⟩

theorem IsNumeral.withoutLeadingZeros (h : IsNumeral part) :
    IsNumeral (withoutLeadingZeros part) := by
  fun_induction QueryScope.withoutLeadingZeros part with
  | case1 c rest ih => exact ih h.tail
  | case2 part _ => exact h

theorem ofDigitChars_withoutLeadingZeros (part : List Char) :
    Nat.ofDigitChars 10 (withoutLeadingZeros part) 0 = Nat.ofDigitChars 10 part 0 := by
  fun_induction QueryScope.withoutLeadingZeros part with
  | case1 c rest ih => rw [ih, Nat.ofDigitChars_cons (c := '0')]; rfl
  | case2 part _ => rfl

theorem not_hasLeadingZero_withoutLeadingZeros (part : List Char) :
    ¬HasLeadingZero (withoutLeadingZeros part) := by
  fun_induction QueryScope.withoutLeadingZeros part with
  | case1 c rest ih => exact ih
  | case2 part hzero =>
    rintro ⟨c, rest, rfl⟩
    exact hzero c rest rfl

theorem withoutLeadingZeros_eq_self_iff :
    withoutLeadingZeros part = part ↔ ¬HasLeadingZero part := by
  constructor
  · intro h
    rw [← h]
    exact not_hasLeadingZero_withoutLeadingZeros part
  · intro h
    fun_cases QueryScope.withoutLeadingZeros part with
    | case1 c rest => exact absurd ⟨c, rest, rfl⟩ h
    | case2 => rfl

/-- Digits without a leading zero are those of their value. -/
theorem IsNumeral.toDigits_ofDigitChars (h : IsNumeral part) (hzero : ¬HasLeadingZero part) :
    Nat.toDigits 10 (Nat.ofDigitChars 10 part 0) = part := by
  induction part using List.reverseRecOn with
  | nil => exact absurd rfl h.nonempty
  | append_singleton init c ih =>
    obtain ⟨d, hd, rfl⟩ := exists_eq_digitChar (h.isDigit c (by simp))
    have hvalue : Nat.ofDigitChars 10 (init ++ [d.digitChar]) 0 =
        10 * Nat.ofDigitChars 10 init 0 + d := by
      rw [Nat.ofDigitChars_append, Nat.ofDigitChars_cons_digitChar_of_lt_ten hd,
        Nat.ofDigitChars_nil]
    rw [hvalue]
    by_cases hinit : init = []
    · subst hinit
      rw [Nat.ofDigitChars_nil, Nat.mul_zero, Nat.zero_add, Nat.toDigits_of_lt_base hd,
        List.nil_append]
    · have hzero' : ¬HasLeadingZero init := by
        rintro ⟨a, rest, rfl⟩
        exact hzero ⟨a, rest ++ [d.digitChar], rfl⟩
      have hdigits := ih (h.init hinit) hzero'
      -- the digits in front do not denote zero, since a zero alone would be a leading one
      have hpos : Nat.ofDigitChars 10 init 0 ≠ 0 := by
        intro h0
        rw [h0, Nat.toDigits_zero] at hdigits
        exact hzero ⟨d.digitChar, [], by rw [← hdigits]; rfl⟩
      rw [Nat.toDigits_of_base_le (by decide) (by omega), Nat.mul_add_div (by decide),
        Nat.div_eq_of_lt hd, Nat.add_zero, hdigits, Nat.mul_add_mod, Nat.mod_eq_of_lt hd]

theorem DenotesOrdinal.toDigits (h : DenotesOrdinal part n) :
    Nat.toDigits 10 n.toNat = withoutLeadingZeros part := by
  rw [← h.value, ← ofDigitChars_withoutLeadingZeros]
  exact h.numeral.withoutLeadingZeros.toDigits_ofDigitChars
    (not_hasLeadingZero_withoutLeadingZeros part)

/-! ## Parts with dots between them -/

/-- A word and parts behind it, each after a dot. -/
def dotted (word : List Char) (parts : List (List Char)) : List Char :=
  word ++ parts.flatMap ('.' :: ·)

theorem dotted_cons (word part : List Char) (parts : List (List Char)) :
    dotted word (part :: parts) = word ++ '.' :: dotted part parts := by
  rw [dotted, List.flatMap_cons, List.cons_append, dotted]

theorem splitAll_dotted (hword : '.' ∉ word) (hparts : ∀ part ∈ parts, '.' ∉ part) :
    splitAll '.' (dotted word parts) = word :: parts := by
  induction parts generalizing word with
  | nil => rw [dotted, List.flatMap_nil, List.append_nil, splitAll_of_notMem hword]
  | cons part parts ih =>
    obtain ⟨hpart, hparts⟩ := List.forall_mem_cons.mp hparts
    rw [dotted_cons, splitAll_append_cons hword, ih hpart hparts]

theorem splitAll_ne_nil (c : Char) (text : List Char) : splitAll c text ≠ [] := by
  cases text with
  | nil => exact List.cons_ne_nil _ _
  | cons x rest =>
    rw [splitAll]
    split
    · exact List.cons_ne_nil _ _
    · split <;> exact List.cons_ne_nil _ _

theorem dotted_of_splitAll {text : List Char} (h : splitAll '.' text = word :: parts) :
    text = dotted word parts := by
  induction text generalizing word parts with
  | nil =>
    cases h
    rfl
  | cons c rest ih =>
    obtain ⟨first, others, hrest⟩ := List.exists_cons_of_ne_nil (splitAll_ne_nil '.' rest)
    rw [splitAll, hrest] at h
    split at h
    next hc =>
      cases h
      rw [hc, dotted_cons, List.nil_append, ih hrest]
    next =>
      cases h
      rw [ih hrest]
      rfl

theorem dotted_inj {word' : List Char} {parts' : List (List Char)} (hword : '.' ∉ word)
    (hparts : ∀ part ∈ parts, '.' ∉ part) (hword' : '.' ∉ word')
    (hparts' : ∀ part ∈ parts', '.' ∉ part) (h : dotted word parts = dotted word' parts') :
    word = word' ∧ parts = parts' := by
  have hsplit := splitAll_dotted hword hparts
  rw [h, splitAll_dotted hword' hparts'] at hsplit
  obtain ⟨rfl, rfl⟩ := List.cons.inj hsplit
  exact ⟨rfl, rfl⟩

/-! ## Identifiers -/

/-- The characters of the words that name queries, at least one of them. -/
structure IsQueryWord (word : List Char) : Prop where
  nonempty : word ≠ []
  letters : ∀ c ∈ word, ('a' ≤ c ∧ c ≤ 'z') ∨ ('0' ≤ c ∧ c ≤ '9') ∨ c = '_'

theorem isQueryId_iff {text : String} : IsQueryId text ↔ IsQueryWord text.toList := by
  have hne : text ≠ "" ↔ text.toList ≠ [] := not_congr String.toList_eq_nil_iff.symm
  have hchar (c : Char) : isQueryIdChar c = true ↔
      ('a' ≤ c ∧ c ≤ 'z') ∨ ('0' ≤ c ∧ c ≤ '9') ∨ c = '_' := by
    rw [isQueryIdChar, Bool.or_eq_true, Bool.or_eq_true, Sql.isLower_iff, Sql.isDigit_iff,
      beq_iff_eq, or_assoc]
  rw [IsQueryId, hne, List.all_eq_true]
  constructor
  · rintro ⟨hne, hall⟩
    exact ⟨hne, fun c hc => (hchar c).mp (hall c hc)⟩
  · rintro ⟨hne, hall⟩
    exact ⟨hne, fun c hc => (hchar c).mpr (hall c hc)⟩

theorem QueryId.parse_ok_iff {text : String} {id : QueryId} :
    QueryId.parse text = .ok id ↔ id.text = text := by
  constructor
  · intro h
    rw [QueryId.parse] at h
    split at h <;> cases h
    rfl
  · rintro rfl
    exact id.parse_text

/-- The ordinals of a stage. -/
def StageId.ordinals (id : StageId) : List UInt32 :=
  [id.stage]

/-- The ordinals of a task: of its stage, of the task, and of the attempt if there is one. -/
def TaskId.ordinals (id : TaskId) : List UInt32 :=
  id.stage.stage :: id.task :: id.attempt.toList

theorem DenotesOrdinal.dot_notMem {ns : List UInt32}
    (h : List.Forall₂ DenotesOrdinal parts ns) : ∀ part ∈ parts, '.' ∉ part := by
  induction h with
  | nil => exact List.forall_mem_nil _
  | cons hpart _ ih => exact List.forall_mem_cons.mpr ⟨hpart.numeral.dot_notMem, ih⟩

theorem StageId.parse_ok_iff {text : String} {id : StageId} : StageId.parse text = .ok id ↔
    ∃ parts, text.toList = dotted id.query.text.toList parts ∧
      List.Forall₂ DenotesOrdinal parts id.ordinals := by
  constructor
  · intro h
    simp only [StageId.parse] at h
    split at h
    · cases h
    next dot rest hdrop =>
      simp only [bind_eq_ok_iff, QueryId.parse_ok_iff, parseOrdinal_ok_iff] at h
      obtain ⟨query, hquery, stage, hstage, heq⟩ := h
      cases heq
      have hdot : dot = '.' := by
        have hhead := List.head_dropWhile_not (p := (· != '.')) (l := text.toList) (by simp [hdrop])
        simpa [hdrop] using hhead
      refine ⟨[rest], ?_, .cons hstage .nil⟩
      rw [hquery, String.toList_ofList, dotted_cons, dotted, List.flatMap_nil, List.append_nil]
      conv_lhs => rw [← List.takeWhile_append_dropWhile (p := (· != '.')) (l := text.toList)]
      rw [hdrop, hdot]
  · rintro ⟨parts, htext, hparts⟩
    obtain ⟨part, rfl, hpart⟩ : ∃ part, parts = [part] ∧ DenotesOrdinal part id.stage := by
      cases hparts with
      | cons hpart hrest =>
        cases hrest
        exact ⟨_, rfl, hpart⟩
    have hword := id.query.ne_dot_of_mem
    have hdot : ('.' != '.') = false := rfl
    rw [dotted_cons, dotted, List.flatMap_nil, List.append_nil] at htext
    simp only [StageId.parse, htext, dropWhile_append_cons hword hdot,
      takeWhile_append_cons hword hdot, String.ofList_toList, QueryId.parse_text,
      parseOrdinal_ok_iff.mpr hpart]
    rfl

theorem TaskId.ofParts_ok_iff {query stage task : List Char} {attempt : Option (List Char)}
    {id : TaskId} : ofParts query stage task attempt = .ok id ↔
      query = id.stage.query.text.toList ∧
        List.Forall₂ DenotesOrdinal (stage :: task :: attempt.toList) id.ordinals := by
  obtain ⟨⟨q, s⟩, k, a⟩ := id
  rw [ordinals, List.forall₂_cons, List.forall₂_cons]
  cases attempt with
  | none =>
    simp only [ofParts, bind_eq_ok_iff, QueryId.parse_ok_iff, parseOrdinal_ok_iff]
    constructor
    · rintro ⟨_, hq, _, hs, _, hk, _, ha, heq⟩
      cases ha
      cases heq
      exact ⟨by rw [hq, String.toList_ofList], hs, hk, .nil⟩
    · rintro ⟨rfl, hs, hk, ha⟩
      obtain rfl : a = none := by
        cases a with
        | none => rfl
        | some n => cases ha
      exact ⟨q, String.ofList_toList.symm, s, hs, k, hk, none, rfl, rfl⟩
  | some part =>
    simp only [ofParts, bind_eq_ok_iff, map_eq_ok_iff, QueryId.parse_ok_iff, parseOrdinal_ok_iff]
    constructor
    · rintro ⟨_, hq, _, hs, _, hk, _, ⟨n, hn, rfl⟩, heq⟩
      cases heq
      exact ⟨by rw [hq, String.toList_ofList], hs, hk, .cons hn .nil⟩
    · rintro ⟨rfl, hs, hk, ha⟩
      obtain ⟨n, rfl, hn⟩ : ∃ n, a = some n ∧ DenotesOrdinal part n := by
        cases a with
        | none => cases ha
        | some n => exact ⟨n, rfl, (List.forall₂_cons.mp ha).1⟩
      exact ⟨q, String.ofList_toList.symm, s, hs, k, hk, some n, ⟨n, hn, rfl⟩, rfl⟩

theorem TaskId.parse_ok_iff {text : String} {id : TaskId} : TaskId.parse text = .ok id ↔
    ∃ parts, text.toList = dotted id.stage.query.text.toList parts ∧
      List.Forall₂ DenotesOrdinal parts id.ordinals := by
  constructor
  · intro h
    rw [TaskId.parse] at h
    split at h
    next query stage task hsplit =>
      obtain ⟨rfl, hparts⟩ := ofParts_ok_iff.mp h
      exact ⟨_, dotted_of_splitAll hsplit, hparts⟩
    next query stage task attempt hsplit =>
      obtain ⟨rfl, hparts⟩ := ofParts_ok_iff.mp h
      exact ⟨_, dotted_of_splitAll hsplit, hparts⟩
    · cases h
  · rintro ⟨parts, htext, hparts⟩
    rw [TaskId.parse, htext,
      splitAll_dotted id.stage.query.dot_notMem_text (DenotesOrdinal.dot_notMem hparts)]
    -- the ordinals say how many parts there are
    obtain ⟨stage, task, rest, rfl⟩ : ∃ stage task rest, parts = stage :: task :: rest := by
      obtain _ | ⟨_, _ | ⟨_, _⟩⟩ := hparts
      exact ⟨_, _, _, rfl⟩
    cases hattempt : id.attempt with
    | none =>
      obtain rfl : rest = [] := by simpa [ordinals, hattempt] using hparts.length_eq
      exact ofParts_ok_iff.mpr ⟨rfl, hparts⟩
    | some a =>
      obtain ⟨attempt, rfl⟩ : ∃ attempt, rest = [attempt] := by
        rw [← List.length_eq_one_iff]
        simpa [ordinals, hattempt] using hparts.length_eq
      exact ofParts_ok_iff.mpr ⟨rfl, hparts⟩

/-! ## The grammar -/

/-- The digits of an ordinal: a numeral of a number that fits 32 bits. -/
def IsOrdinal (part : List Char) : Prop :=
  IsNumeral part ∧ Nat.ofDigitChars 10 part 0 < 2 ^ 32

/-- A reader of identifiers and their texts follow the grammar: a query's word, as many ordinals as
`counts` allows, and dots between them. -/
structure FollowsGrammar {ι : Type} (parse : String → Except FieldFault ι) (text : ι → String)
    (query : ι → QueryId) (ordinals : ι → List UInt32) (counts : List Nat) : Prop where
  /-- Exactly the texts of this form are accepted. -/
  accepts_iff : ∀ t : String, (∃ id, parse t = .ok id) ↔ ∃ word parts,
    t.toList = dotted word parts ∧ IsQueryWord word ∧ parts.length ∈ counts ∧
      ∀ part ∈ parts, IsOrdinal part
  /-- The identifier has the word and the values of the ordinals that stand between the dots. -/
  parts_eq : ∀ t id, parse t = .ok id → ∀ word parts, '.' ∉ word → (∀ part ∈ parts, '.' ∉ part) →
    t.toList = dotted word parts →
      (query id).text.toList = word ∧ List.Forall₂ DenotesOrdinal parts (ordinals id)
  /-- The text of what is read is the text that was read, without the zeros in front. -/
  text_eq : ∀ t id, parse t = .ok id → ∀ word parts, '.' ∉ word → (∀ part ∈ parts, '.' ∉ part) →
    t.toList = dotted word parts →
      (text id).toList = dotted word (parts.map withoutLeadingZeros) ∧
        (text id = t ↔ ∀ part ∈ parts, ¬HasLeadingZero part)
  /-- Every identifier is read from its text. -/
  parse_text : ∀ id, parse (text id) = .ok id
  /-- Different identifiers have different texts. -/
  text_injective : Function.Injective text

theorem DenotesOrdinal.isOrdinal (h : DenotesOrdinal part n) : IsOrdinal part := by
  refine ⟨h.numeral, ?_⟩
  rw [h.value]
  exact n.toNat_lt

theorem IsOrdinal.denotes (h : IsOrdinal part) :
    DenotesOrdinal part (UInt32.ofNat (Nat.ofDigitChars 10 part 0)) :=
  ⟨h.1, (UInt32.toNat_ofNat_of_lt h.2).symm⟩

theorem DenotesOrdinal.forall_isOrdinal {ns : List UInt32}
    (h : List.Forall₂ DenotesOrdinal parts ns) : ∀ part ∈ parts, IsOrdinal part := by
  induction h with
  | nil => exact List.forall_mem_nil _
  | cons hpart _ ih => exact List.forall_mem_cons.mpr ⟨hpart.isOrdinal, ih⟩

/-- Ordinals are written without zeros in front. -/
theorem DenotesOrdinal.map_toDigits {ns : List UInt32} (h : List.Forall₂ DenotesOrdinal parts ns) :
    ns.map (fun n => Nat.toDigits 10 n.toNat) = parts.map withoutLeadingZeros := by
  induction h with
  | nil => rfl
  | cons hpart _ ih => rw [List.map_cons, List.map_cons, hpart.toDigits, ih]

theorem map_withoutLeadingZeros_eq_self_iff :
    parts.map withoutLeadingZeros = parts ↔ ∀ part ∈ parts, ¬HasLeadingZero part := by
  have hmap := List.map_inj_left (f := withoutLeadingZeros) (g := id) (l := parts)
  rw [List.map_id] at hmap
  rw [hmap]
  exact forall₂_congr fun _ _ => withoutLeadingZeros_eq_self_iff

section Grammar

variable {ι : Type} {parse : String → Except FieldFault ι} {text : ι → String}
  {query : ι → QueryId} {ordinals : ι → List UInt32} {counts : List Nat}

/-- All of the grammar follows from which texts are read as an identifier and which one is written
for it. -/
theorem FollowsGrammar.of_parse_ok_iff
    (hparse : ∀ t id, parse t = .ok id ↔ ∃ parts, t.toList = dotted (query id).text.toList parts ∧
      List.Forall₂ DenotesOrdinal parts (ordinals id))
    (htext : ∀ id, (text id).toList =
      dotted (query id).text.toList ((ordinals id).map fun n => Nat.toDigits 10 n.toNat))
    (hordinals : ∀ (q : QueryId) (ns : List UInt32),
      (∃ id, query id = q ∧ ordinals id = ns) ↔ ns.length ∈ counts)
    (hparse_text : ∀ id, parse (text id) = .ok id) :
    FollowsGrammar parse text query ordinals counts := by
  have hparts_eq : ∀ t id, parse t = .ok id → ∀ word parts, '.' ∉ word →
      (∀ part ∈ parts, '.' ∉ part) → t.toList = dotted word parts →
        (query id).text.toList = word ∧ List.Forall₂ DenotesOrdinal parts (ordinals id) := by
    intro t id hid word parts hword hparts ht
    obtain ⟨parts', ht', hparts'⟩ := (hparse t id).mp hid
    rw [ht] at ht'
    obtain ⟨rfl, rfl⟩ := dotted_inj hword hparts (query id).dot_notMem_text
      (DenotesOrdinal.dot_notMem hparts') ht'
    exact ⟨rfl, hparts'⟩
  refine ⟨fun t => ⟨?_, ?_⟩, hparts_eq, ?_, hparse_text, ?_⟩
  · rintro ⟨id, hid⟩
    obtain ⟨parts, ht, hparts⟩ := (hparse t id).mp hid
    refine ⟨_, parts, ht, isQueryId_iff.mp (query id).wellFormed, ?_,
      DenotesOrdinal.forall_isOrdinal hparts⟩
    rw [hparts.length_eq]
    exact (hordinals (query id) (ordinals id)).mp ⟨id, rfl, rfl⟩
  · rintro ⟨word, parts, ht, hword, hcount, hparts⟩
    have hquery : IsQueryId (String.ofList word) :=
      isQueryId_iff.mpr (by rwa [String.toList_ofList])
    obtain ⟨id, hid, hns⟩ := (hordinals ⟨String.ofList word, hquery⟩
      (parts.map fun part => UInt32.ofNat (Nat.ofDigitChars 10 part 0))).mpr (by simpa using hcount)
    refine ⟨id, (hparse t id).mpr ⟨parts, ?_, ?_⟩⟩
    · rw [ht, hid, String.toList_ofList]
    · rw [hns, List.forall₂_map_right_iff, List.forall₂_same]
      exact fun part hpart => (hparts part hpart).denotes
  · intro t id hid word parts hword hparts ht
    obtain ⟨hquery, hns⟩ := hparts_eq t id hid word parts hword hparts ht
    have hcanonical : (text id).toList = dotted word (parts.map withoutLeadingZeros) := by
      rw [htext, hquery, DenotesOrdinal.map_toDigits hns]
    refine ⟨hcanonical, ?_⟩
    rw [← map_withoutLeadingZeros_eq_self_iff, ← String.toList_inj, hcanonical, ht]
    constructor
    · intro h
      refine (dotted_inj hword (fun part hpart => ?_) hword hparts h).2
      obtain ⟨part', hpart', rfl⟩ := List.mem_map.mp hpart
      have hnumeral := (DenotesOrdinal.forall_isOrdinal hns part' hpart').1
      exact hnumeral.withoutLeadingZeros.dot_notMem
    · intro h
      rw [h]
  · intro a b h
    have ha := hparse_text a
    rw [h, hparse_text b] at ha
    exact (Except.ok.inj ha).symm

end Grammar

theorem StageId.followsGrammar :
    FollowsGrammar StageId.parse StageId.text StageId.query StageId.ordinals [1] := by
  refine .of_parse_ok_iff (fun t id => parse_ok_iff) (fun id => ?_) (fun q ns => ?_) parse_text
  · rw [toList_text, ordinals, List.map_singleton, dotted_cons, dotted, List.flatMap_nil,
      List.append_nil]
  · rw [List.mem_singleton, List.length_eq_one_iff]
    constructor
    · rintro ⟨id, -, rfl⟩
      exact ⟨id.stage, rfl⟩
    · rintro ⟨n, rfl⟩
      exact ⟨⟨q, n⟩, rfl, rfl⟩

theorem TaskId.followsGrammar :
    FollowsGrammar TaskId.parse TaskId.text (·.stage.query) TaskId.ordinals [2, 3] := by
  refine .of_parse_ok_iff (fun t id => parse_ok_iff) (fun id => ?_) (fun q ns => ?_) parse_text
  · rw [toList_text, ordinals, List.map_cons, List.map_cons, dotted_cons, dotted_cons]
    cases id.attempt <;> simp [dotted]
  · constructor
    · rintro ⟨⟨stage, task, attempt⟩, -, rfl⟩
      cases attempt <;> simp [ordinals]
    · intro h
      match ns, h with
      | [s, k], _ => exact ⟨⟨⟨q, s⟩, k, none⟩, rfl, rfl⟩
      | [s, k, a], _ => exact ⟨⟨⟨q, s⟩, k, some a⟩, rfl, rfl⟩

/-- Stages and tasks are read from exactly the texts of the grammar, stages with one ordinal behind
the query's word and tasks with two or three; the texts written for them are canonical. The first
two parts of a task's text are the text of its stage. -/
theorem identifiers_followGrammar :
    FollowsGrammar StageId.parse StageId.text StageId.query StageId.ordinals [1] ∧
      FollowsGrammar TaskId.parse TaskId.text (·.stage.query) TaskId.ordinals [2, 3] ∧
        ∀ t id, TaskId.parse t = .ok id → ∃ word stage rest,
          splitAll '.' t.toList = word :: stage :: rest ∧
            StageId.parse (String.ofList (dotted word [stage])) = .ok id.stage := by
  refine ⟨StageId.followsGrammar, TaskId.followsGrammar, fun t id hid => ?_⟩
  obtain ⟨parts, ht, hparts⟩ := TaskId.parse_ok_iff.mp hid
  have hsplit : splitAll '.' t.toList = id.stage.query.text.toList :: parts := by
    rw [ht, splitAll_dotted id.stage.query.dot_notMem_text (DenotesOrdinal.dot_notMem hparts)]
  obtain _ | ⟨hstage, hrest⟩ := hparts
  refine ⟨_, _, _, hsplit, ?_⟩
  refine StageId.parse_ok_iff.mpr ⟨_, by rw [String.toList_ofList], ?_⟩
  exact .cons hstage .nil

/-- The second attempt of a task, as it is read from a text with zeros in front of two ordinals. -/
def TaskId.sample : TaskId :=
  ⟨⟨⟨"q_1", by decide⟩, 7⟩, 0, some 2⟩

theorem identifiers_followGrammar_attempt :
    TaskId.parse "q_1.007.0.02" = .ok .sample ∧
      TaskId.sample.text.toList = dotted ['q', '_', '1'] [['7'], ['0'], ['2']] ∧
        TaskId.sample.text ≠ "q_1.007.0.02" ∧
          StageId.parse "q_1.007" = .ok TaskId.sample.stage := by
  have hparse : TaskId.parse "q_1.007.0.02" = .ok .sample := by decide
  have htext : "q_1.007.0.02".toList =
      dotted ['q', '_', '1'] [['0', '0', '7'], ['0'], ['0', '2']] := by decide
  obtain ⟨-, htasks, hstages⟩ := identifiers_followGrammar
  obtain ⟨hcanonical, hsame⟩ := htasks.text_eq _ _ hparse _ _ (by decide) (by decide) htext
  refine ⟨hparse, hcanonical, fun heq => ?_, ?_⟩
  · exact hsame.mp heq _ (List.mem_cons_self) ⟨'0', ['7'], rfl⟩
  · obtain ⟨word, stage, rest, hsplit, hstage⟩ := hstages _ _ hparse
    rw [htext, splitAll_dotted (by decide) (by decide)] at hsplit
    cases hsplit
    exact hstage

end QueryScope
