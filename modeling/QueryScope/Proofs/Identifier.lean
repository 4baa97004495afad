import Mathlib.Data.Nat.Basic
import QueryScope.Identifier
import QueryScope.Proofs.Words

/-!
# The texts of identifiers

Every identifier is read back from its canonical text.
-/

namespace QueryScope

variable {c : Char} {n : Nat}

/-! ## Digits -/

theorem exists_digit_of_mem_toDigits {b : Nat} (hb : 1 < b) (h : c ∈ Nat.toDigits b n) :
    ∃ d < b, c = d.digitChar := by
  induction n using Nat.strong_induction_on with
  | _ n ih =>
    rw [Nat.toDigits_eq_if hb] at h
    split at h
    next hn => exact ⟨n, hn, List.mem_singleton.mp h⟩
    next hn =>
      rcases List.mem_append.mp h with h | h
      · exact ih (n / b) (Nat.div_lt_self (by omega) hb) h
      · exact ⟨n % b, Nat.mod_lt n (by omega), List.mem_singleton.mp h⟩

theorem isDigit_toDigits (n : Nat) : ∀ c ∈ Nat.toDigits 10 n, c.isDigit = true := fun _ h =>
  Nat.isDigit_of_mem_toDigits (by decide) (by decide) h

theorem digitsValue_eq (digits : List Char) :
    digitsValue digits = Nat.ofDigitChars 10 digits 0 := by
  rw [Nat.ofDigitChars_eq_foldl]
  rfl

theorem digitsValue_toDigits (n : Nat) : digitsValue (Nat.toDigits 10 n) = n := by
  rw [digitsValue_eq, Nat.ofDigitChars_ten_toDigits]

theorem exists_eq_digitChar (h : c.isDigit = true) : ∃ d < 10, c = d.digitChar := by
  have hc : 48 ≤ c.toNat ∧ c.toNat ≤ 57 := by
    simpa [Char.isDigit, UInt32.le_iff_toNat_le] using h
  refine ⟨c.toNat - 48, by omega, ?_⟩
  apply Char.toNat_inj.mp
  rw [Nat.toNat_digitChar_of_lt_ten (by omega)]
  omega

theorem parseOrdinal_toDigits (field : String) (n : UInt32) :
    parseOrdinal field (Nat.toDigits 10 n.toNat) = .ok n := by
  have hdigit : (Nat.toDigits 10 n.toNat).all Char.isDigit = true :=
    List.all_eq_true.mpr (isDigit_toDigits _)
  rw [parseOrdinal, if_neg, digitsValue_toDigits, if_pos n.toNat_lt, UInt32.ofNat_toNat]
  rintro (h | h)
  · exact Nat.toDigits_ne_nil h
  · exact h hdigit

theorem toString_eq_self (text : String) : toString text = text := rfl

theorem toList_toString (n : UInt32) : (toString n).toList = Nat.toDigits 10 n.toNat :=
  Nat.toList_repr

theorem dot_notMem_toDigits : '.' ∉ Nat.toDigits 10 n := fun h =>
  absurd (isDigit_toDigits n _ h) (by decide)

/-! ## Parts -/

theorem splitAll_of_notMem {part : List Char} (h : c ∉ part) : splitAll c part = [part] := by
  induction part with
  | nil => rfl
  | cons x rest ih =>
    rw [List.mem_cons, not_or] at h
    rw [splitAll, if_neg fun e => h.1 e.symm, ih h.2]

theorem splitAll_append_cons {part rest : List Char} (h : c ∉ part) :
    splitAll c (part ++ c :: rest) = part :: splitAll c rest := by
  induction part with
  | nil => rw [List.nil_append, splitAll, if_pos rfl]
  | cons x part ih =>
    rw [List.mem_cons, not_or] at h
    rw [List.cons_append, splitAll, if_neg fun e => h.1 e.symm, ih h.2]

/-! ## Identifiers -/

theorem NameId.parse_text {role : NameRole} (id : NameId role) :
    NameId.parse role id.text = .ok id := by
  rw [parse, dif_pos id.nonEmpty]

theorem QueryId.parse_text (id : QueryId) : QueryId.parse id.text = .ok id := by
  rw [parse, dif_pos id.wellFormed]

theorem QueryId.dot_notMem_text (id : QueryId) : '.' ∉ id.text.toList := fun h =>
  absurd (List.all_eq_true.mp id.wellFormed.2 _ h) (by decide)

theorem QueryId.ne_dot_of_mem (id : QueryId) : ∀ c ∈ id.text.toList, (c != '.') = true := by
  intro c hc
  rw [bne_iff_ne]
  rintro rfl
  exact id.dot_notMem_text hc

theorem StageId.toList_text (id : StageId) :
    id.text.toList = id.query.text.toList ++ '.' :: Nat.toDigits 10 id.stage.toNat := by
  simp [text, toString_eq_self, toList_toString]

theorem StageId.parse_text (id : StageId) : StageId.parse id.text = .ok id := by
  have hword := id.query.ne_dot_of_mem
  have hdot : ('.' != '.') = false := rfl
  simp only [parse, toList_text, dropWhile_append_cons hword hdot, takeWhile_append_cons hword hdot,
    String.ofList_toList, QueryId.parse_text, parseOrdinal_toDigits]
  rfl

theorem TaskId.toList_text (id : TaskId) :
    id.text.toList = id.stage.query.text.toList ++ '.' ::
      (Nat.toDigits 10 id.stage.stage.toNat ++ '.' :: (Nat.toDigits 10 id.task.toNat ++
        match id.attempt with
        | some a => '.' :: Nat.toDigits 10 a.toNat
        | none => [])) := by
  rw [text]
  cases id.attempt <;> simp [toString_eq_self, StageId.toList_text, toList_toString]

theorem TaskId.ofParts_toDigits (id : TaskId) :
    ofParts id.stage.query.text.toList (Nat.toDigits 10 id.stage.stage.toNat)
      (Nat.toDigits 10 id.task.toNat) (id.attempt.map fun a => Nat.toDigits 10 a.toNat) =
        .ok id := by
  obtain ⟨stage, task, attempt⟩ := id
  rw [ofParts, String.ofList_toList, QueryId.parse_text, parseOrdinal_toDigits,
    parseOrdinal_toDigits]
  cases attempt with
  | none => rfl
  | some a =>
    simp only [Option.map_some, parseOrdinal_toDigits]
    rfl

theorem TaskId.parse_text (id : TaskId) : TaskId.parse id.text = .ok id := by
  rw [parse, toList_text, splitAll_append_cons id.stage.query.dot_notMem_text,
    splitAll_append_cons dot_notMem_toDigits]
  rw [← id.ofParts_toDigits]
  cases id.attempt with
  | none => rw [List.append_nil, splitAll_of_notMem dot_notMem_toDigits]; rfl
  | some a =>
    rw [splitAll_append_cons dot_notMem_toDigits, splitAll_of_notMem dot_notMem_toDigits]
    rfl

/-! ## Transactions -/

namespace TransactionId

theorem hexDigit?_digitChar : ∀ d < 16, hexDigit? d.digitChar = some d := by decide

theorem digitChar_ne_hyphen : ∀ d < 16, d.digitChar ≠ '-' := by decide

theorem hexValue?_append (left right : List Char) : hexValue? (left ++ right) =
    (hexValue? left).bind fun n => right.foldlM (fun n c => (hexDigit? c).map (16 * n + ·)) n := by
  rw [hexValue?, List.foldlM_append]
  rfl

theorem hexValue?_toDigits (n : Nat) : hexValue? (Nat.toDigits 16 n) = some n := by
  induction n using Nat.strong_induction_on with
  | _ n ih =>
    rw [Nat.toDigits_eq_if (by decide)]
    split
    next hn => simp [hexValue?, hexDigit?_digitChar n hn]
    next hn =>
      have hlast := hexDigit?_digitChar (n % 16) (Nat.mod_lt n (by decide))
      rw [hexValue?_append, ih (n / 16) (by omega)]
      simp only [Option.bind_some, List.foldlM_cons, List.foldlM_nil, hlast, Option.map_some]
      exact congrArg some (Nat.div_add_mod n 16)

theorem hexValue?_replicate (k : Nat) : hexValue? (List.replicate k '0') = some 0 := by
  induction k with
  | zero => rfl
  | succ k ih =>
    rw [List.replicate_succ', hexValue?_append, ih]
    rfl

theorem hexValue?_digits (id : TransactionId) : hexValue? id.digits = some id.bits.toNat := by
  rw [digits, hexValue?_append, hexValue?_replicate]
  exact hexValue?_toDigits id.bits.toNat

theorem length_digits (id : TransactionId) : id.digits.length = 32 := by
  have hle : (Nat.toDigits 16 id.bits.toNat).length ≤ 32 :=
    (Nat.length_toDigits_le_iff (by decide) (by decide)).mpr id.bits.isLt
  rw [digits, List.length_append, List.length_replicate]
  omega

theorem hyphen_notMem_digits (id : TransactionId) : '-' ∉ id.digits := by
  rw [digits, List.mem_append, not_or]
  refine ⟨fun h => absurd (List.eq_of_mem_replicate h) (by decide), fun h => ?_⟩
  obtain ⟨d, hd, heq⟩ := exists_digit_of_mem_toDigits (by decide) h
  exact digitChar_ne_hyphen d hd heq.symm

/-- A group of the digits: as many as are taken after those that are dropped. -/
def group (id : TransactionId) (start length : Nat) : List Char :=
  (id.digits.drop start).take length

theorem toList_text (id : TransactionId) : id.text.toList =
    id.group 0 8 ++ '-' :: (id.group 8 4 ++ '-' :: (id.group 12 4 ++
      '-' :: (id.group 16 4 ++ '-' :: id.group 20 12))) := by
  have hlast : id.digits.drop 20 = id.group 20 12 := by
    rw [group, List.take_of_length_le]
    rw [List.length_drop, length_digits]
  rw [text, String.toList_ofList, ← hlast]
  rfl

theorem length_group (id : TransactionId) {start length : Nat} (h : start + length ≤ 32) :
    (id.group start length).length = length := by
  rw [group, List.length_take, List.length_drop, length_digits]
  omega

theorem hyphen_notMem_group (id : TransactionId) {start length : Nat} :
    '-' ∉ id.group start length := fun h =>
  id.hyphen_notMem_digits (List.mem_of_mem_drop (List.mem_of_mem_take h))

theorem group_append (id : TransactionId) (start first second : Nat) :
    id.group start first ++ id.group (start + first) second = id.group start (first + second) := by
  rw [group, group, group, List.take_add, List.drop_drop]

theorem hyphenated?_text (id : TransactionId) : hyphenated? id.text.toList = some id.digits := by
  have hgroups : splitAll '-' id.text.toList =
      [id.group 0 8, id.group 8 4, id.group 12 4, id.group 16 4, id.group 20 12] := by
    rw [toList_text, splitAll_append_cons id.hyphen_notMem_group,
      splitAll_append_cons id.hyphen_notMem_group, splitAll_append_cons id.hyphen_notMem_group,
      splitAll_append_cons id.hyphen_notMem_group, splitAll_of_notMem id.hyphen_notMem_group]
  have hall : id.group 0 8 ++ (id.group 8 4 ++ (id.group 12 4 ++ (id.group 16 4 ++
      id.group 20 12))) = id.digits := by
    rw [group_append, group_append, group_append, group_append, group, List.drop_zero,
      List.take_of_length_le (by rw [length_digits])]
  rw [hyphenated?, hgroups]
  simp [length_group, hall]

theorem parse?_text (id : TransactionId) : parse? id.text = some id := by
  have hlength : id.text.toList.length = 36 := by
    simp [toList_text, length_group]
  rw [parse?, digits?, if_neg (by omega), if_pos hlength, hyphenated?_text, Option.bind_some,
    hexValue?_digits]
  simp

theorem readsBack_text : Parser.ReadsBack TransactionId.text :=
  Parser.readsBack_ofOption parse?_text

/-- All that is needed of the parser is that it knows the canonical texts. -/
theorem parse_text_of_readsBack [Parser String TransactionId]
    (h : Parser.ReadsBack TransactionId.text) (id : TransactionId) :
    TransactionId.parse id.text = .ok id := by
  rw [parse, h id]

theorem parse_text (id : TransactionId) : TransactionId.parse id.text = .ok id :=
  parse_text_of_readsBack readsBack_text id

end TransactionId

end QueryScope
