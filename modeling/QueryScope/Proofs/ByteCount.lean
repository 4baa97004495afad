import QueryScope.Proofs.MeasureText
import QueryScope.Summary

/-!
# Counts of bytes

A count of bytes is held as the nearest double, which keeps its first 53 bits. The double is
printed with all its digits, and read from them as it was: what a summary shows is the stored amount
where that has no more bits, and the nearest number with 53 bits where it has.
-/

namespace QueryScope

namespace Double

variable {n m k : Nat} {e : Int}

/-! ## Natural numbers as doubles -/

/-- The nearest number that has no more than 53 bits in front of its zeros. -/
def roundNat (n : Nat) : Nat :=
  roundDiv .toEven n (2 ^ (Nat.log2 n - 52)) * 2 ^ (Nat.log2 n - 52)

/-- The numbers that are not rounded are those with 53 bits in front of zeros. -/
theorem roundNat_eq_self_iff : roundNat n = n ↔ ∃ a k, a < 2 ^ 53 ∧ n = a * 2 ^ k := by
  constructor
  · intro h
    have hlt : roundNat n < 2 ^ 53 * 2 ^ (Nat.log2 n - 52) := by
      rw [h, ← Nat.pow_add]
      exact Nat.lt_log2_self.trans_le (Nat.pow_le_pow_right (by decide) (by omega))
    exact ⟨_, _, Nat.lt_of_mul_lt_mul_right hlt, h.symm⟩
  · rintro ⟨a, k, ha, rfl⟩
    refine roundDiv_mul_of_dvd .toEven (Nat.two_pow_pos _) ?_
    by_cases hzero : a * 2 ^ k = 0
    · rw [hzero]
      exact Nat.dvd_zero _
    · have hlog : Nat.log2 (a * 2 ^ k) < 53 + k := by
        rw [Nat.log2_lt hzero, Nat.pow_add]
        exact Nat.mul_lt_mul_of_pos_right ha (Nat.two_pow_pos k)
      exact (Nat.pow_dvd_pow 2 (by omega)).trans (Nat.dvd_mul_left _ _)

theorem roundNat_of_le (h : n ≤ 2 ^ 53) : roundNat n = n := by
  rw [roundNat_eq_self_iff]
  rcases Nat.lt_or_eq_of_le h with hlt | rfl
  · exact ⟨n, 0, hlt, (Nat.mul_one n).symm⟩
  · exact ⟨1, 53, by decide, by decide⟩

theorem lt_overflow (hn : n < 2 ^ 64) : (n : ℚ) / (1 : Nat) < overflow := by
  have hlt : (n : ℚ) < 2 ^ (64 : Int) := by exact_mod_cast hn
  rw [Nat.cast_one, div_one]
  exact hlt.trans ((zpow_lt_zpow_right₀ one_lt_two (by decide)).trans overflow_bounds.1)

/-- A number of 53 bits is a double. -/
theorem valueOf_of_few {h : CanonicalForm m e} (hfew : n < 2 ^ 53)
    (heq : ofNat n = .finite false m e h) : valueOf m e = roundNat n := by
  obtain ⟨m', e', h', hvalue⟩ := exists_valueOf_eq (by rwa [fullMantissa_eq])
  have heq' : ofNat n = .finite false m' e' h' :=
    ofRatio_of_eq_valueOf Nat.one_pos h' (by rw [hvalue, Nat.cast_one, div_one])
  obtain ⟨-, rfl, rfl⟩ := Double.finite.inj (heq.symm.trans heq')
  rw [hvalue, roundNat_of_le hfew.le]

/-- A number of more bits is rounded at the scale of its first 53 bits. -/
theorem valueOf_of_many {h : CanonicalForm m e} (hmany : 2 ^ 53 ≤ n) (hn : n < 2 ^ 64)
    (heq : ofNat n = .finite false m e h) : valueOf m e = roundNat n := by
  have hpos : 0 < n := (Nat.two_pow_pos 53).trans_le hmany
  have hlog : 53 ≤ Nat.log2 n := (Nat.le_log2 hpos.ne').mpr hmany
  have hscale : scaleOf n 1 = Int.ofNat (Nat.log2 n - 52) := by
    rw [scaleOf, floorLog2_one hpos.ne', Int.ofNat_eq_natCast]
    omega
  have hs : scaleDown n 1 (scaleOf n 1) = (n, 2 ^ (Nat.log2 n - 52)) := by
    rw [hscale, scaleDown, Nat.one_shiftLeft]
  obtain ⟨m', e', h', heq', hvalue, -⟩ :=
    exists_ofRatio_eq_valueOf false hpos Nat.one_pos (lt_overflow hn) hs
  obtain ⟨-, rfl, rfl⟩ := Double.finite.inj (heq.symm.trans heq')
  rw [hvalue, hscale, valueOf, Int.ofNat_eq_natCast, zpow_natCast, roundNat]
  push_cast
  rfl

/-- A count is held as the nearest double. -/
theorem exists_ofNat_eq (hn : n < 2 ^ 64) : ∃ m e, ∃ h : CanonicalForm m e,
    ofNat n = .finite false m e h ∧ valueOf m e = roundNat n ∧ IsNearest n m e := by
  obtain ⟨m, e, h, heq, hnearest⟩ := exists_ofRatio_eq false Nat.one_pos (lt_overflow hn)
  rw [Nat.cast_one, div_one] at hnearest
  rcases Nat.lt_or_ge n (2 ^ 53) with hfew | hmany
  · exact ⟨m, e, h, heq, valueOf_of_few hfew heq, hnearest⟩
  · exact ⟨m, e, h, heq, valueOf_of_many hmany hn heq, hnearest⟩

theorem ofScaled_eq (negative : Bool) (m : Nat) (e : Int) :
    ofScaled negative m e = ofRatio negative (ratio m e).1 (ratio m e).2 := by
  cases e <;> rfl

theorem ofNat_one : ofNat 1 = .finite false fullMantissa (-52) (by decide) := by
  decide

theorem mul_ofNat_one (h : CanonicalForm m e) :
    (Double.finite false m e h).mul (ofNat 1) = .finite false m e h := by
  obtain ⟨hpos, hvalue⟩ := ratio_spec (m * fullMantissa) (e + -52)
  rw [ofNat_one, mul, ofScaled_eq]
  refine ofRatio_of_eq_valueOf hpos h (hvalue.trans ?_)
  rw [valueOf, valueOf, zpow_add₀ two_ne_zero, fullMantissa_eq]
  push_cast
  norm_num
  ring

/-- A whole number is converted to itself, or to the largest count. -/
theorem toNat_toUInt64 (h : CanonicalForm m e) (hk : valueOf m e = k) :
    (Double.finite false m e h).toUInt64.toNat = min k (UInt64.size - 1) := by
  obtain ⟨hpos, hvalue⟩ := ratio_spec m e
  have hround : roundDiv .up (ratio m e).1 (ratio m e).2 = k :=
    roundDiv_of_eq_natCast .up hpos (hvalue.trans hk)
  have hlt : min k (UInt64.size - 1) < UInt64.size :=
    (min_le_right _ _).trans_lt (by decide)
  simp only [toUInt64, hround, Bool.false_eq_true, if_false]
  exact UInt64.toNat_ofNat_of_lt hlt

end Double

/-! ## Printing and reading -/

namespace DataSize

/-- The text of a count of bytes. -/
def roundedText (n : UInt64) : String :=
  Nat.repr (Double.roundNat n.toNat) ++ "B"

theorem exists_ofBytes_eq (n : UInt64) : ∃ m e, ∃ h : CanonicalForm m e,
    ofBytes n = ⟨.finite false m e h, .byte⟩ ∧ Double.valueOf m e = Double.roundNat n.toNat := by
  obtain ⟨m, e, h, heq, hvalue, -⟩ := Double.exists_ofNat_eq n.toNat_lt
  exact ⟨m, e, h, congrArg (Measure.mk · DataUnit.byte) heq, hvalue⟩

theorem text_ofBytes (n : UInt64) : (ofBytes n).text = roundedText n := by
  obtain ⟨m, e, h, heq, hvalue⟩ := exists_ofBytes_eq n
  rw [heq, roundedText, ← String.toList_inj, Measure.toList_text_whole h _ hvalue,
    String.toList_append, Nat.toList_repr]
  rfl

theorem parse_text_ofBytes (n : UInt64) : Measure.parse (ofBytes n).text = .ok (ofBytes n) := by
  obtain ⟨m, e, h, heq, hvalue⟩ := exists_ofBytes_eq n
  rw [heq]
  exact Measure.parse_text_whole h hvalue (Measure.toList_text_whole h _ hvalue)

theorem toNat_toBytes_ofBytes (n : UInt64) :
    (ofBytes n).toBytes.toNat = min (Double.roundNat n.toNat) (UInt64.size - 1) := by
  obtain ⟨m, e, h, heq, hvalue⟩ := exists_ofBytes_eq n
  have hproduct : (ofBytes n).magnitude.mul (Double.ofNat (ofBytes n).unit.factor) =
      .finite false m e h := by
    rw [heq]
    exact Double.mul_ofNat_one h
  rw [toBytes, hproduct, Double.toNat_toUInt64 h hvalue]

/-- How a count of bytes is printed and read again. -/
structure PrintsRounded (n : UInt64) : Prop where
  /-- The text has the digits of the rounded count. -/
  text_eq : (ofBytes n).text = roundedText n
  /-- It is read as what was printed. -/
  parse_text : Measure.parse (ofBytes n).text = .ok (ofBytes n)
  /-- That is converted to the rounded count, if this is a count of 64 bits. -/
  toNat_toBytes : (ofBytes n).toBytes.toNat = min (Double.roundNat n.toNat) (UInt64.size - 1)
  /-- The rounded count is the nearest double. -/
  isNearest : ∃ m e, CanonicalForm m e ∧ Double.valueOf m e = Double.roundNat n.toNat ∧
    Double.IsNearest n.toNat m e
  /-- It is the count itself when that has 53 bits in front of zeros, and only then. -/
  exact_iff : Double.roundNat n.toNat = n.toNat ↔ ∃ a k, a < 2 ^ 53 ∧ n.toNat = a * 2 ^ k
  /-- The counts up to the first one that has more bits are among them. -/
  exact_of_le : n.toNat ≤ 2 ^ 53 → Double.roundNat n.toNat = n.toNat

theorem printsRounded (n : UInt64) : PrintsRounded n where
  text_eq := text_ofBytes n
  parse_text := parse_text_ofBytes n
  toNat_toBytes := toNat_toBytes_ofBytes n
  isNearest := by
    obtain ⟨m, e, h, -, hvalue, hnearest⟩ := Double.exists_ofNat_eq n.toNat_lt
    exact ⟨m, e, h, hvalue, hnearest⟩
  exact_iff := Double.roundNat_eq_self_iff
  exact_of_le := Double.roundNat_of_le

end DataSize

/-! ## Summaries -/

namespace Summary

open DataSize (roundedText)

theorem bytes_eq (n : UInt64) : bytes n = roundedText n :=
  DataSize.text_ofBytes n

/-- The amounts of bytes in summaries are the stored counts, as they are rounded. -/
structure AmountsRounded : Prop where
  /-- A buffer shows the bytes of its page. -/
  consumerBuffer : ∀ b : ConsumerBuffer, lines b =
    let mark := if b.finished then " (finished)" else ""
    [s!"buffer {b.id.text}{mark}: {b.bufferedPages} buffered, {b.pagesSent} sent, " ++
      s!"partition {b.page.partition} holds {roundedText b.page.bufferedBytes}"]
  /-- The output of a task shows the bytes of its buffers, together and one by one. -/
  outputBuffer : ∀ b : OutputBuffer, lines b =
    (s!"{Named.name b.type} buffers [{Named.name b.state}]: {b.totalBufferedPages} pages / " ++
      s!"{roundedText b.totalBufferedBytes} buffered, {b.totalPagesSent} pages sent") ::
        nested (b.buffers.flatMap lines)
  /-- A task shows the bytes that are reserved for it, and those of its output. -/
  task : ∀ t : Task, lines t =
    let status := t.status
    [s!"task {status.id.text} [{Named.name status.state}] v{status.version}",
      s!"  drivers: {status.queuedDrivers} queued, {status.runningDrivers} running  " ++
        s!"memory: {roundedText status.memoryReservation}"] ++ nested (lines t.output)
  /-- A pool shows its bytes, and what its queries have reserved of them. -/
  memoryPool : ∀ p : MemoryPool, lines p =
    let free := p.freeBytes
    let rest :=
      if free < 0 then s!"over-committed by {roundedText (count (-free))}"
      else s!"{roundedText (count free)} free"
    s!"pool {roundedText p.reservedBytes} of {roundedText p.maxBytes} reserved ({rest})" ::
      p.reservations.map fun (query, reserved) => s!"  {query.text}: {roundedText reserved}"

theorem amountsRounded : AmountsRounded := by
  have hbytes : roundedText = bytes := funext fun n => (bytes_eq n).symm
  constructor
  · intro b
    rw [hbytes]
    rfl
  · intro b
    rw [hbytes]
    rfl
  · intro t
    rw [hbytes]
    rfl
  · intro p
    rw [hbytes]
    rfl

end Summary

/-- Counts of bytes are printed as the nearest doubles. -/
theorem byteCounts_print_rounded :
    (∀ n, DataSize.PrintsRounded n) ∧ Summary.AmountsRounded :=
  ⟨DataSize.printsRounded, Summary.amountsRounded⟩

/-- A pool whose capacity is the least count that is not a double. -/
def MemoryPool.oddPool : MemoryPool :=
  ⟨9007199254740993, 0, 0, [], []⟩

theorem byteCounts_not_exact :
    (DataSize.ofBytes 9007199254740993).text ≠ Nat.repr 9007199254740993 ++ "B" ∧
      (DataSize.ofBytes 9007199254740993).text = "9007199254740992B" ∧
        (DataSize.ofBytes 9007199254740993).toBytes = 9007199254740992 ∧
          MemoryPool.make 9007199254740993 0 0 [] [] = .ok .oddPool ∧
            Summary.lines MemoryPool.oddPool =
              ["pool 0B of 9007199254740992B reserved (9007199254740992B free)"] := by
  have htext : (DataSize.ofBytes 9007199254740993).text = "9007199254740992B" := by
    rw [DataSize.text_ofBytes]
    decide
  refine ⟨?_, htext, ?_, by decide, ?_⟩
  · rw [htext]
    decide
  · rw [← UInt64.toNat_inj, DataSize.toNat_toBytes_ofBytes]
    decide
  · rw [Summary.amountsRounded.memoryPool]
    decide

end QueryScope
