import QueryScope.Proofs.Location.Scalar
import QueryScope.Proofs.Restoring.Basic

/-!
# The two gates for counts

Handles, plans and maps read a count as the unsigned number that it is, and snapshots read a signed
number that they narrow afterwards. Both gates take the same numbers and refuse the others for the
same reason, with one exception: the upper half of the unsigned 64-bit numbers does not pass the
signed gate.
-/

namespace QueryScope

variable {α : Type} {reg : Registry} {p record : Path} {field : String} {v : Json}

/-! ## Alike outcomes -/

/-- The refusals are of one class and say the same of the value; the range that a number misses may
be another one. -/
inductive Refusal.SameClass : Refusal → Refusal → Prop where
  | malformed (m : Malformation) : SameClass (.malformed m) (.malformed m)
  | negative (k : Int64) : SameClass (.invalid (.negative k)) (.invalid (.negative k))
  | outOfRange (text : String) (range range' : IntegerRange) :
      SameClass (.invalid (.outOfRange text range)) (.invalid (.outOfRange text range'))

/-- Why the value is refused, if it is the value that a fault is about. -/
def DecodeFault.refusal? : DecodeFault → Option Refusal
  | .malformed malformation => some (.malformed malformation)
  | .validation fault _ => some (.invalid fault.reason)
  | _ => none

/-- The same value, or refusals of one class. -/
inductive Alike : Except DecodeError α → Except DecodeError α → Prop where
  | ok (a : α) : Alike (.ok a) (.ok a)
  | error {e e' : DecodeError} {r r' : Refusal} (h : e.fault.refusal? = some r)
      (h' : e'.fault.refusal? = some r') (hclass : r.SameClass r') : Alike (.error e) (.error e')

/-- Decode a signed number and narrow it for a field of the record at another path. -/
def Codec.narrowed (narrow : Int64 → Except FieldFault α) (reg : Registry) (p record : Path)
    (v : Json) : Except DecodeError α := do
  let wide ← int64.decodeAt reg p v
  (narrow wide).mapError (.ofField record)

theorem Alike.eq_ok_iff {x y : Except DecodeError α} (h : Alike x y) (a : α) :
    x = .ok a ↔ y = .ok a := by
  cases h with
  | ok b => exact Iff.rfl
  | error => constructor <;> intro h <;> cases h

theorem DecodeError.refusal?_refused (r : Refusal) :
    (DecodeError.refused p r).fault.refusal? = some r := by
  cases r <;> rfl

/-! ## The cases of a value -/

namespace Codec

/-- What the readers of 64-bit numbers make of a value. -/
inductive CountCase (v : Json) : Prop where
  /-- It is no integer, and both find the same wrong with it. -/
  | malformed (m : Malformation) (signed : readInt64 v = .error (.malformed m))
      (unsigned : readUInt64 v = .error (.malformed m))
  /-- It is a negative number. -/
  | negative (k : Int64) (neg : k < 0) (signed : readInt64 v = .ok k)
      (unsigned : readUInt64 v = .error (.invalid (.negative k)))
  /-- It is a count, of which the sign bit is not needed. -/
  | count (k : Int64) (nonneg : ¬k < 0) (signed : readInt64 v = .ok k)
      (unsigned : readUInt64 v = .ok k.toUInt64)
  /-- It is a count that needs all 64 bits. -/
  | large (n : Json.Integer) (number : v = .number (.integer n)) (above : 2 ^ 63 ≤ n.val)
      (signed : readInt64 v = .error (.invalid (.outOfRange (toString n.val) .i64)))
      (unsigned : readUInt64 v = .ok (UInt64.ofNat n.val.toNat))

theorem toInt_ofInt_of_lt {n : Json.Integer} (h : n.val < 2 ^ 63) :
    (Int64.ofInt n.val).toInt = n.val := by
  refine Int64.toInt_ofInt_of_le n.lower ?_
  omega

theorem readInt64_of_lt {n : Json.Integer} (h : n.val < 2 ^ 63) :
    readInt64 (.number (.integer n)) = .ok (Int64.ofInt n.val) := by
  have hle : n.val ≤ Int64.maxValue.toInt := by
    rw [show Int64.maxValue.toInt = 2 ^ 63 - 1 from rfl]
    omega
  rw [readInt64, if_pos hle]

theorem readInt64_of_ge {n : Json.Integer} (h : 2 ^ 63 ≤ n.val) :
    readInt64 (.number (.integer n)) = .error (.invalid (.outOfRange (toString n.val) .i64)) := by
  have hgt : ¬n.val ≤ Int64.maxValue.toInt := by
    rw [show Int64.maxValue.toInt = 2 ^ 63 - 1 from rfl]
    omega
  rw [readInt64, if_neg hgt]

theorem readUInt64_of_nonneg {n : Json.Integer} (h : 0 ≤ n.val) :
    readUInt64 (.number (.integer n)) = .ok (UInt64.ofNat n.val.toNat) := by
  simp only [readUInt64, if_pos h]

theorem readUInt64_of_neg {n : Json.Integer} (h : n.val < 0) :
    readUInt64 (.number (.integer n)) = .error (.invalid (.negative (Int64.ofInt n.val))) := by
  have hread := readInt64_of_lt (n := n) (by omega)
  simp only [readUInt64, if_neg (not_le.mpr h), hread]
  rfl

/-- What is no integer is malformed for both readers. -/
theorem malformed_of_not_integer (h : ∀ n, v ≠ .number (.integer n)) :
    ∃ m, readInt64 v = .error (.malformed m) ∧ readUInt64 v = .error (.malformed m) := by
  cases v with
  | number number =>
    cases number with
    | integer n => exact absurd rfl (h n)
    | float d => exact ⟨_, rfl, rfl⟩
  | _ => exact ⟨_, rfl, rfl⟩

theorem countCase (v : Json) : CountCase v := by
  by_cases hinteger : ∃ n, v = .number (.integer n)
  · obtain ⟨n, rfl⟩ := hinteger
    by_cases hlarge : 2 ^ 63 ≤ n.val
    · exact .large n rfl hlarge (readInt64_of_ge hlarge) (readUInt64_of_nonneg (by omega))
    · have hsmall : n.val < 2 ^ 63 := by omega
      have hval := toInt_ofInt_of_lt hsmall
      have hneg : Int64.ofInt n.val < 0 ↔ n.val < 0 := by
        rw [Int64.lt_iff_toInt_lt, Int64.toInt_zero, hval]
      by_cases hsign : n.val < 0
      · exact .negative _ (hneg.mpr hsign) (readInt64_of_lt hsmall) (readUInt64_of_neg hsign)
      · have hnonneg : ¬Int64.ofInt n.val < 0 := mt hneg.mp hsign
        refine .count _ hnonneg (readInt64_of_lt hsmall) ?_
        rw [readUInt64_of_nonneg (not_lt.mp hsign)]
        congr 1
        have hwide := Int64.toNat_toUInt64 hnonneg
        apply UInt64.toNat_inj.mp
        rw [UInt64.toNat_ofNat_of_lt' (by rw [UInt64.size]; omega)]
        omega
  · obtain ⟨m, hsigned, hunsigned⟩ := malformed_of_not_integer (not_exists.mp hinteger)
    exact .malformed m hsigned hunsigned

/-! ## One reading after the other -/

theorem decodeAt_scalar_ok {read : Json → Except Refusal α} {a : α} (h : read v = .ok a) :
    (scalar read).decodeAt reg p v = .ok a := by
  rw [decodeAt_scalar, h]
  rfl

theorem decodeAt_scalar_error {read : Json → Except Refusal α} {r : Refusal}
    (h : read v = .error r) : (scalar read).decodeAt reg p v = .error (.refused p r) := by
  rw [decodeAt_scalar, h]
  rfl

theorem narrowed_of_ok {narrow : Int64 → Except FieldFault α} {k : Int64}
    (h : readInt64 v = .ok k) :
    narrowed narrow reg p record v = (narrow k).mapError (.ofField record) := by
  rw [narrowed, int64, decodeAt_scalar_ok h]
  rfl

theorem narrowed_of_error {narrow : Int64 → Except FieldFault α} {r : Refusal}
    (h : readInt64 v = .error r) : narrowed narrow reg p record v = .error (.refused p r) := by
  rw [narrowed, int64, decodeAt_scalar_error h]
  rfl

/-- Both gates refuse the value, for reasons of one class. -/
theorem alike_refused {r r' : Refusal} (h : r.SameClass r') :
    Alike (.error (.refused p r) : Except DecodeError α) (.error (.refused p r')) :=
  .error (DecodeError.refusal?_refused r) (DecodeError.refusal?_refused r') h

theorem toNat_ofNat_toNat {n : Json.Integer} (h : 0 ≤ n.val) :
    ((UInt64.ofNat n.val.toNat).toNat : Int) = n.val := by
  have hupper := n.upper
  rw [UInt64.toNat_ofNat_of_lt' (by rw [UInt64.size]; omega)]
  omega

theorem toString_ofNat_toNat {n : Json.Integer} (h : 0 ≤ n.val) :
    toString (UInt64.ofNat n.val.toNat) = toString n.val := by
  have hnat : toString (UInt64.ofNat n.val.toNat) =
      toString ((UInt64.ofNat n.val.toNat).toNat : Int) := rfl
  rw [hnat, toNat_ofNat_toNat h]

theorem readUInt32_of_ok {wide : UInt64} (h : readUInt64 v = .ok wide) :
    readUInt32 v = if wide.toNat < UInt32.size then .ok wide.toUInt32
      else .error (.invalid (.outOfRange (toString wide) .u32)) := by
  rw [readUInt32, h]
  rfl

theorem readUInt32_of_error {r : Refusal} (h : readUInt64 v = .error r) :
    readUInt32 v = .error r := by
  rw [readUInt32, h]
  rfl

theorem alike_uint64 (hsmall : ∀ n, v = .number (.integer n) → n.val < 2 ^ 63) :
    Alike (uint64.decodeAt reg p v) (narrowed (nonNegative field) reg p record v) := by
  cases countCase v with
  | malformed m hsigned hunsigned =>
    rw [uint64, decodeAt_scalar_error hunsigned, narrowed_of_error hsigned]
    exact alike_refused (.malformed m)
  | negative k hneg hsigned hunsigned =>
    rw [uint64, decodeAt_scalar_error hunsigned, narrowed_of_ok hsigned, nonNegative, if_pos hneg]
    exact .error rfl rfl (.negative k)
  | count k hnonneg hsigned hunsigned =>
    rw [uint64, decodeAt_scalar_ok hunsigned, narrowed_of_ok hsigned, nonNegative, if_neg hnonneg]
    exact .ok _
  | large n hv hlarge _ _ =>
    have hlt := hsmall n hv
    omega

theorem alike_uint32 :
    Alike (uint32.decodeAt reg p v) (narrowed (nonNegative32 field) reg p record v) := by
  cases countCase v with
  | malformed m hsigned hunsigned =>
    rw [uint32, decodeAt_scalar_error (readUInt32_of_error hunsigned), narrowed_of_error hsigned]
    exact alike_refused (.malformed m)
  | negative k hneg hsigned hunsigned =>
    have hnarrow : nonNegative32 field k = .error ⟨field, .negative k⟩ := by
      rw [nonNegative32, nonNegative, if_pos hneg]
      rfl
    rw [uint32, decodeAt_scalar_error (readUInt32_of_error hunsigned), narrowed_of_ok hsigned,
      hnarrow]
    exact .error rfl rfl (.negative k)
  | count k hnonneg hsigned hunsigned =>
    have hread := readUInt32_of_ok hunsigned
    have hnarrow : nonNegative32 field k = if k.toUInt64.toNat < UInt32.size
        then .ok k.toUInt64.toUInt32
        else .error ⟨field, .outOfRange (toString k.toUInt64) .u32⟩ := by
      rw [nonNegative32, nonNegative, if_neg hnonneg]
      rfl
    by_cases hfits : k.toUInt64.toNat < UInt32.size
    · rw [if_pos hfits] at hread hnarrow
      rw [uint32, decodeAt_scalar_ok hread, narrowed_of_ok hsigned, hnarrow]
      exact .ok _
    · rw [if_neg hfits] at hread hnarrow
      rw [uint32, decodeAt_scalar_error hread, narrowed_of_ok hsigned, hnarrow]
      exact .error rfl rfl (.outOfRange _ _ _)
  | large n hv hlarge hsigned hunsigned =>
    have hread := readUInt32_of_ok hunsigned
    have hval : ((UInt64.ofNat n.val.toNat).toNat : Int) = n.val := toNat_ofNat_toNat (by omega)
    rw [if_neg (by rw [UInt32.size]; omega), toString_ofNat_toNat (by omega)] at hread
    rw [uint32, decodeAt_scalar_error hread, narrowed_of_error hsigned]
    exact alike_refused (.outOfRange _ _ _)

/-! ## Which values pass -/

theorem readUInt64_eq_ok {k : UInt64} (h : readUInt64 v = .ok k) :
    ∃ n, v = .number (.integer n) ∧ n.val = k.toNat := by
  by_cases hinteger : ∃ n, v = .number (.integer n)
  · obtain ⟨n, rfl⟩ := hinteger
    by_cases hsign : n.val < 0
    · rw [readUInt64_of_neg hsign] at h
      cases h
    · rw [readUInt64_of_nonneg (not_lt.mp hsign)] at h
      cases h
      exact ⟨n, rfl, (toNat_ofNat_toNat (not_lt.mp hsign)).symm⟩
  · obtain ⟨m, -, hunsigned⟩ := malformed_of_not_integer (not_exists.mp hinteger)
    rw [hunsigned] at h
    cases h

theorem decodeAt_uint64_eq_ok {k : UInt64} (h : uint64.decodeAt reg p v = .ok k) :
    ∃ n, v = .number (.integer n) ∧ n.val = k.toNat := by
  rw [uint64, decodeAt_scalar, mapError_eq_ok_iff] at h
  exact readUInt64_eq_ok h

theorem decodeAt_uint32_eq_ok {k : UInt32} (h : uint32.decodeAt reg p v = .ok k) :
    ∃ n, v = .number (.integer n) ∧ n.val = k.toNat := by
  rw [uint32, decodeAt_scalar, mapError_eq_ok_iff] at h
  obtain ⟨wide, hwide, h⟩ := bind_eq_ok_iff.mp h
  obtain ⟨n, hv, hn⟩ := readUInt64_eq_ok hwide
  split at h
  next hlt =>
    cases h
    exact ⟨n, hv, by rw [hn, UInt64.toNat_toUInt32, Nat.mod_eq_of_lt hlt]⟩
  · cases h

theorem narrowed_eq_ok {k : UInt64}
    (h : narrowed (nonNegative field) reg p record v = .ok k) :
    ∃ n, v = .number (.integer n) ∧ n.val = k.toNat := by
  obtain ⟨wide, hwide, h⟩ := bind_eq_ok_iff.mp h
  rw [int64, decodeAt_scalar, mapError_eq_ok_iff] at hwide
  obtain ⟨n, hv, hn⟩ := readInt64_eq_ok hwide
  exact ⟨n, hv, by rw [hn, nonNegative_eq_ok (mapError_eq_ok_iff.mp h)]⟩

/-- Both gates for 32-bit counts come to the same for every value, and so do both gates for 64-bit
counts unless the value is an integer from `2 ^ 63` on; of these the unsigned gate takes all, and
the signed one refuses all as out of range. Whatever passes a gate is an integer, which is the count
that it passes as. -/
theorem countGates_agree (reg : Registry) (p record : Path) (field : String) (v : Json) :
    Alike (uint32.decodeAt reg p v) (narrowed (nonNegative32 field) reg p record v) ∧
    ((∀ n, v = .number (.integer n) → n.val < 2 ^ 63) →
      Alike (uint64.decodeAt reg p v) (narrowed (nonNegative field) reg p record v)) ∧
    (∀ n, v = .number (.integer n) → 2 ^ 63 ≤ n.val →
      (∃ k, uint64.decodeAt reg p v = .ok k ∧ (k.toNat : Int) = n.val) ∧
        ∃ e, narrowed (nonNegative field) reg p record v = .error e ∧
          e.fault.refusal? = some (.invalid (.outOfRange (toString n.val) .i64))) ∧
    (∀ k, uint32.decodeAt reg p v = .ok k → ∃ n, v = .number (.integer n) ∧ n.val = k.toNat) ∧
    (∀ k, uint64.decodeAt reg p v = .ok k → ∃ n, v = .number (.integer n) ∧ n.val = k.toNat) ∧
    (∀ k, narrowed (nonNegative32 field) reg p record v = .ok k →
      ∃ n, v = .number (.integer n) ∧ n.val = k.toNat) ∧
    ∀ k, narrowed (nonNegative field) reg p record v = .ok k →
      ∃ n, v = .number (.integer n) ∧ n.val = k.toNat := by
  refine ⟨alike_uint32, alike_uint64, fun n hv hlarge => ⟨?_, ?_⟩,
    fun k h => decodeAt_uint32_eq_ok h, fun k h => decodeAt_uint64_eq_ok h, fun k h => ?_,
    fun k h => narrowed_eq_ok h⟩
  · have hnonneg : 0 ≤ n.val := by omega
    refine ⟨_, ?_, toNat_ofNat_toNat hnonneg⟩
    rw [uint64, hv, decodeAt_scalar_ok (readUInt64_of_nonneg hnonneg)]
  · refine ⟨.refused p _, ?_, DecodeError.refusal?_refused _⟩
    rw [hv, narrowed_of_error (readInt64_of_ge hlarge)]
  · exact decodeAt_uint32_eq_ok ((alike_uint32.eq_ok_iff k).mpr h)

/-- A count that needs all 64 bits passes one gate only. -/
theorem countGates_agree_highest :
    ∃ n : Json.Integer, n.val = 2 ^ 64 - 1 ∧
      (∃ k, uint64.decodeAt .standard .root (.number (.integer n)) = .ok k ∧
        (k.toNat : Int) = 2 ^ 64 - 1) ∧
      ∃ e, narrowed (nonNegative "pages") .standard .root .root (.number (.integer n)) = .error e ∧
        e.fault.refusal? = some (.invalid (.outOfRange "18446744073709551615" .i64)) := by
  let n : Json.Integer := ⟨18446744073709551615, by decide, by decide⟩
  obtain ⟨-, -, hlarge, -⟩ :=
    countGates_agree .standard .root .root "pages" (.number (.integer n))
  obtain ⟨hunsigned, hsigned⟩ := hlarge n rfl (by decide)
  exact ⟨n, rfl, hunsigned, hsigned⟩

end Codec

end QueryScope
