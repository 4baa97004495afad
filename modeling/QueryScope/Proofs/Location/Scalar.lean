import QueryScope.Proofs.Location.Basic

/-!
# What scalars refuse

A scalar is never refused as missing, and as negative only when it is a negative integer.
-/

namespace QueryScope

variable {α : Type} {text : String} {fault : FieldFault} {v : Json}

/-- The reason says nothing that has to be looked up in the payload: the value is neither missing
nor negative. -/
def Reason.IsPlain : Reason → Prop
  | .missing | .negative _ => False
  | _ => True

/-- The reason may be given for the value: it is not missing, and if it is said to be negative, it
is that negative integer. -/
def Reason.Fits (reason : Reason) (v : Json) : Prop :=
  reason ≠ .missing ∧
    ∀ k, reason = .negative k → ∃ n, v = .number (.integer n) ∧ n.val = k.toInt ∧ k < 0

theorem Reason.IsPlain.fits {reason : Reason} (h : reason.IsPlain) : reason.Fits v := by
  cases reason <;> first | exact h.elim | exact ⟨by simp, by simp⟩

theorem DecodeError.LocatedIn.invalid {reason : Reason} (h : reason.Fits v) :
    (DecodeError.invalid .root reason).LocatedIn v where
  missing := by
    rintro ⟨field, variant, hf⟩
    cases hf
    exact absurd rfl h.1
  present _ := ⟨v, rfl⟩
  field fault variant hf := by
    cases hf
    rfl
  negative field k variant hf := by
    cases hf
    obtain ⟨n, rfl, hn⟩ := h.2 k rfl
    exact ⟨n, rfl, hn⟩

theorem Codec.locates_scalar {read : Json → Except Refusal α}
    (h : ∀ v reason, read v = .error (.invalid reason) → reason.Fits v) :
    (Codec.scalar read).Locates v := by
  intro e he
  rw [decode, decodeAt_scalar, mapError_eq_error_iff] at he
  obtain ⟨refusal, hr, rfl⟩ := he
  cases refusal with
  | malformed m => exact .malformed m
  | invalid reason => exact .invalid (h v reason hr)

/-! ## Numbers -/

namespace Codec

theorem readInt64_error {reason : Reason} (h : readInt64 v = .error (.invalid reason)) :
    reason.IsPlain := by
  unfold readInt64 at h
  split at h
  · split at h <;> cases h
    trivial
  · cases h
  · cases h

theorem readInt64_eq_ok {k : Int64} (h : readInt64 v = .ok k) :
    ∃ n, v = .number (.integer n) ∧ n.val = k.toInt := by
  unfold readInt64 at h
  split at h
  next n =>
    split at h
    next hle =>
      cases h
      refine ⟨n, rfl, (Int64.toInt_ofInt_of_le n.lower ?_).symm⟩
      rw [show Int64.maxValue.toInt = 9223372036854775807 from rfl] at hle
      omega
    next => cases h
  next => cases h
  next => cases h

theorem readInt32_error {reason : Reason} (h : readInt32 v = .error (.invalid reason)) :
    reason.IsPlain := by
  rcases bind_eq_error_iff.mp h with h | ⟨wide, -, h⟩
  · exact readInt64_error h
  · split at h <;> cases h
    trivial

/-- What is no unsigned integer but a signed one is negative. -/
theorem readUInt64_error {reason : Reason} (h : readUInt64 v = .error (.invalid reason)) :
    reason.Fits v := by
  unfold readUInt64 at h
  simp only at h
  split at h
  · cases h
  next hnone =>
    rcases bind_eq_error_iff.mp h with h | ⟨k, hk, h⟩
    · exact (readInt64_error h).fits
    · cases h
      obtain ⟨n, rfl, hn⟩ := readInt64_eq_ok hk
      refine ⟨by simp, fun k' hk' => ?_⟩
      cases hk'
      refine ⟨n, rfl, hn, ?_⟩
      have hneg : ¬0 ≤ n.val := fun hle => by simp [hle] at hnone
      rw [Int64.lt_iff_toInt_lt, Int64.toInt_zero, ← hn]
      omega

theorem readUInt32_error {reason : Reason} (h : readUInt32 v = .error (.invalid reason)) :
    reason.Fits v := by
  rcases bind_eq_error_iff.mp h with h | ⟨wide, -, h⟩
  · exact readUInt64_error h
  · split at h <;> cases h
    exact Reason.IsPlain.fits trivial

/-! ## Texts -/

theorem locates_text {parse : String → Except FieldFault α}
    (h : ∀ text fault, parse text = .error fault → fault.reason.IsPlain) :
    (Codec.text parse).Locates v := by
  refine locates_scalar fun v reason hr => ?_
  rcases bind_eq_error_iff.mp hr with hr | ⟨s, -, hr⟩
  · cases v <;> cases hr
  · obtain ⟨fault, hf, heq⟩ := mapError_eq_error_iff.mp hr
    cases heq
    exact (h s fault hf).fits

end Codec

theorem NameId.parse_error {role : NameRole} (h : NameId.parse role text = .error fault) :
    fault.reason.IsPlain := by
  rw [parse] at h
  split at h <;> cases h
  trivial

theorem QueryId.parse_error (h : QueryId.parse text = .error fault) : fault.reason.IsPlain := by
  rw [parse] at h
  split at h <;> cases h
  simp only [refusal]
  split <;> trivial

theorem parseOrdinal_error {field : String} {part : List Char}
    (h : parseOrdinal field part = .error fault) : fault.reason.IsPlain := by
  rw [parseOrdinal] at h
  split at h
  · cases h; trivial
  · split at h <;> cases h
    trivial

theorem StageId.parse_error (h : StageId.parse text = .error fault) : fault.reason.IsPlain := by
  rw [parse] at h
  split at h
  · cases h; trivial
  · rcases bind_eq_error_iff.mp h with h | ⟨_, -, h⟩
    · exact QueryId.parse_error h
    · rcases bind_eq_error_iff.mp h with h | ⟨_, -, h⟩
      · exact parseOrdinal_error h
      · cases h

theorem TaskId.ofParts_error {query stage task : List Char} {attempt : Option (List Char)}
    (h : TaskId.ofParts query stage task attempt = .error fault) : fault.reason.IsPlain := by
  rcases bind_eq_error_iff.mp h with h | ⟨_, -, h⟩
  · exact QueryId.parse_error h
  rcases bind_eq_error_iff.mp h with h | ⟨_, -, h⟩
  · exact parseOrdinal_error h
  rcases bind_eq_error_iff.mp h with h | ⟨_, -, h⟩
  · exact parseOrdinal_error h
  cases attempt with
  | none => cases h
  | some a =>
    rcases bind_eq_error_iff.mp h with h | ⟨_, -, h⟩
    · exact parseOrdinal_error (map_eq_error_iff.mp h)
    · cases h

theorem TaskId.parse_error (h : TaskId.parse text = .error fault) : fault.reason.IsPlain := by
  rw [parse] at h
  split at h
  · exact ofParts_error h
  · exact ofParts_error h
  · cases h; trivial

theorem TransactionId.parse_error [Parser String TransactionId]
    (h : TransactionId.parse text = .error fault) : fault.reason.IsPlain := by
  rw [parse] at h
  split at h <;> cases h
  trivial

theorem Named.parse_error [Named α] (h : Named.parse α text = .error fault) :
    fault.reason.IsPlain := by
  rw [parse] at h
  split at h <;> cases h
  trivial

theorem Measure.parse_error {υ : Type} [UnitSystem υ]
    (h : (Measure.parse text : Except FieldFault (Measure υ)) = .error fault) :
    fault.reason.IsPlain := by
  simp only [parse] at h
  split at h
  · cases h; trivial
  split at h
  · cases h; trivial
  split at h
  · cases h; trivial
  split at h
  · cases h; trivial
  · rw [make] at h
    split at h <;> cases h
    trivial

end QueryScope
