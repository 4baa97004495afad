import QueryScope.Proofs.ByteCount
import QueryScope.Proofs.IdentifierGrammar
import QueryScope.Proofs.Restoring.Snapshot

/-!
# The arithmetic of memory pools

The three totals of a pool come from signed numbers that are not negative. What is free of it, or
missing, is therefore a count of 64 bits, and a summary shows it as it is. What a query has reserved
of both kinds is not bounded in this way, and is cut off at the largest count.
-/

namespace QueryScope

namespace MemoryPool

variable {p : MemoryPool} {reservations : List (QueryId × UInt64)} {query : QueryId}
  {bytes regular revocable : UInt64}

/-! ## Reservations by query -/

/-- The bytes of the entry of a query, or zero when it has no entry. -/
inductive HoldsBytes (reservations : List (QueryId × UInt64)) (query : QueryId) : UInt64 → Prop
  /-- The query has an entry. -/
  | entry {bytes : UInt64} (h : (query, bytes) ∈ reservations) : HoldsBytes reservations query bytes
  /-- It has none. -/
  | missing (h : ∀ bytes, (query, bytes) ∉ reservations) : HoldsBytes reservations query 0

theorem find?_of_mem (hnodup : (reservations.map Prod.fst).Nodup)
    (h : (query, bytes) ∈ reservations) :
    reservations.find? (·.1 = query) = some (query, bytes) := by
  cases hfound : reservations.find? (·.1 = query) with
  | none => exact absurd (decide_eq_true rfl) (List.find?_eq_none.mp hfound _ h)
  | some found =>
    have hfits := List.find?_some hfound
    have hkey : found.1 = query := of_decide_eq_true hfits
    rw [List.inj_on_of_nodup_map hnodup (List.mem_of_find?_eq_some hfound) h hkey]

theorem bytesOf_eq (hnodup : (reservations.map Prod.fst).Nodup)
    (h : HoldsBytes reservations query bytes) : bytesOf reservations query = bytes := by
  cases h with
  | entry h => rw [bytesOf, find?_of_mem hnodup h]
  | missing hno =>
    have hnone : reservations.find? (·.1 = query) = none :=
      List.find?_eq_none.mpr fun found hmem hkey => by
        obtain rfl := of_decide_eq_true hkey
        exact hno found.2 hmem
    rw [bytesOf, hnone]

/-- Of both kinds a query holds the sum of its entries, cut off at the largest count. -/
theorem toNat_reservedBy (hnodup : (p.reservations.map Prod.fst).Nodup)
    (hnodup' : (p.revocableReservations.map Prod.fst).Nodup)
    (hregular : HoldsBytes p.reservations query regular)
    (hrevocable : HoldsBytes p.revocableReservations query revocable) :
    (p.reservedBy query).toNat = min (regular.toNat + revocable.toNat) (UInt64.size - 1) := by
  have hlt : min (regular.toNat + revocable.toNat) (UInt64.size - 1) < UInt64.size :=
    (min_le_right _ _).trans_lt (by decide)
  rw [reservedBy, bytesOf_eq hnodup hregular, bytesOf_eq hnodup' hrevocable]
  exact UInt64.toNat_ofNat_of_lt hlt

/-! ## Where pools come from -/

/-- Pools that are made from counters and maps, or decoded. -/
inductive Obtained (p : MemoryPool) : Prop
  /-- A map has one entry for each query. -/
  | made {most reserved revocable : Int64} {reservations revocables : List (QueryId × UInt64)}
    (hnodup : (reservations.map Prod.fst).Nodup) (hnodup' : (revocables.map Prod.fst).Nodup)
    (h : make most reserved revocable reservations revocables = .ok p) : Obtained p
  /-- A payload is decoded. -/
  | decoded {P : Json} (hP : P.WellFormed) (h : Payload.decode MemoryPool P = .ok p) : Obtained p

theorem nodup_of_reads {v : Json} (hv : v.WellFormed)
    (h : reservationsCodec.Reads v reservations) : (reservations.map Prod.fst).Nodup := by
  obtain ⟨members, rfl, hentries⟩ := Codec.reads_keyed.mp h
  have hkeys : members.map Prod.fst = (reservations.map Prod.fst).map QueryId.text := by
    clear hv h
    induction hentries with
    | nil => rfl
    | cons hentry _ ih =>
      have hkey := QueryId.parse_ok_iff.mp (mapError_eq_ok_iff.mp hentry.1)
      rw [List.map_cons, List.map_cons, List.map_cons, hkey, ih]
  have hnodup := hv.nodup
  rw [hkeys] at hnodup
  exact hnodup.of_map _

theorem nodup_of_readsOptional {members : List (String × Json)} {name : String}
    {o : Option (List (QueryId × UInt64))} (hv : (Json.object members).WellFormed)
    (h : reservationsCodec.ReadsOptional members name o) :
    ((o.getD []).map Prod.fst).Nodup := by
  rcases h with ⟨-, rfl⟩ | ⟨reservations, ⟨v, hpresent, hreads⟩, rfl⟩
  · exact List.nodup_nil
  · have hmem := Json.mem_of_lookup (Json.present?_eq_some_iff.mp hpresent).1
    exact nodup_of_reads (hv.member hmem) hreads

/-- A decoded pool is made from counters and maps as well. -/
theorem Obtained.exists_make (h : Obtained p) :
    (p.reservations.map Prod.fst).Nodup ∧ (p.revocableReservations.map Prod.fst).Nodup ∧
      ∃ most reserved revocable : Int64, make most reserved revocable p.reservations
        p.revocableReservations = .ok p := by
  cases h with
  | made hnodup hnodup' h =>
    obtain ⟨⟨rfl, rfl⟩, -⟩ := make_eq_ok h
    exact ⟨hnodup, hnodup', _, _, _, h⟩
  | decoded hP h =>
    obtain ⟨members, rfl, hbody⟩ := Codec.reads_record.mp h
    obtain ⟨most, -, reserved, -, revocable, -, o, ho, o', ho', hmake⟩ :=
      Body.reads_checked.mp hbody
    have hnodup := nodup_of_readsOptional hP ho
    have hnodup' := nodup_of_readsOptional hP ho'
    obtain ⟨⟨heq, heq'⟩, -⟩ := make_eq_ok hmake
    rw [heq] at hnodup hmake
    rw [heq'] at hnodup' hmake
    exact ⟨hnodup, hnodup', _, _, _, hmake⟩

/-! ## What is free -/

theorem lt_of_nonNegative {field : String} {value : Int64} {k : UInt64}
    (h : nonNegative field value = .ok k) : k.toNat < 2 ^ 63 := by
  have hvalue := nonNegative_eq_ok h
  have hlt := value.toInt_lt
  omega

theorem Obtained.totals_lt (h : Obtained p) : p.maxBytes.toNat < 2 ^ 63 ∧
    p.reservedBytes.toNat < 2 ^ 63 ∧ p.reservedRevocableBytes.toNat < 2 ^ 63 := by
  obtain ⟨-, -, most, reserved, revocable, hmake⟩ := h.exists_make
  obtain ⟨-, hmost, hreserved, hrevocable⟩ := make_eq_ok hmake
  exact ⟨lt_of_nonNegative hmost, lt_of_nonNegative hreserved, lt_of_nonNegative hrevocable⟩

/-- The free bytes and the missing ones are counts of 64 bits. -/
theorem Obtained.freeBytes_bounds (h : Obtained p) :
    -(2 ^ 64 - 2) ≤ p.freeBytes ∧ p.freeBytes ≤ 2 ^ 63 - 1 := by
  obtain ⟨hmost, hreserved, hrevocable⟩ := h.totals_lt
  rw [freeBytes]
  omega

theorem freeBytes_of_make {most reserved revocable : Int64}
    {reservations revocables : List (QueryId × UInt64)}
    (h : make most reserved revocable reservations revocables = .ok p) :
    p.freeBytes = most.toInt - reserved.toInt - revocable.toInt := by
  obtain ⟨-, hmost, hreserved, hrevocable⟩ := make_eq_ok h
  rw [freeBytes, nonNegative_eq_ok hmost, nonNegative_eq_ok hreserved, nonNegative_eq_ok hrevocable]

theorem freeBytes_neg_iff : p.freeBytes < 0 ↔
    p.maxBytes.toNat < p.reservedBytes.toNat + p.reservedRevocableBytes.toNat := by
  rw [freeBytes]
  omega

/-! ## What a summary shows -/

theorem toNat_count {n : Int} (hn : 0 ≤ n) (hlt : n < UInt64.size) :
    ((Summary.count n).toNat : Int) = n := by
  have hmin : min n.toNat (UInt64.size - 1) = n.toNat := by omega
  have hsmall : n.toNat < UInt64.size := by omega
  have hcount : (UInt64.ofNat n.toNat).toNat = n.toNat := UInt64.toNat_ofNat_of_lt hsmall
  rw [Summary.count, hmin, hcount]
  omega

/-- The first line, with what it says about the rest of the pool. -/
def headline (p : MemoryPool) (rest : String) : String :=
  s!"pool {Summary.bytes p.reservedBytes} of {Summary.bytes p.maxBytes} reserved ({rest})"

/-- The line of a reservation. -/
def reservationLine (reservation : QueryId × UInt64) : String :=
  s!"  {reservation.1.text}: {Summary.bytes reservation.2}"

theorem lines_of_free (h : 0 ≤ p.freeBytes) : Summary.lines p =
    p.headline s!"{Summary.bytes (Summary.count p.freeBytes)} free" ::
      p.reservations.map reservationLine := by
  simp only [Summary.lines, if_neg (not_lt.mpr h)]
  rfl

theorem lines_of_overcommitted (h : p.freeBytes < 0) : Summary.lines p =
    p.headline s!"over-committed by {Summary.bytes (Summary.count (-p.freeBytes))}" ::
      p.reservations.map reservationLine := by
  simp only [Summary.lines, if_pos h]
  rfl

/-- A line of the summary says that the pool is over-committed. -/
def SaysOvercommitted (p : MemoryPool) : Prop :=
  ∃ line ∈ Summary.lines p, "over-committed".toList <:+: line.toList

theorem toList_headline (rest : String) : (p.headline rest).toList =
    "pool ".toList ++ (Summary.bytes p.reservedBytes).toList ++ " of ".toList ++
      (Summary.bytes p.maxBytes).toList ++ " reserved (".toList ++ rest.toList ++ [')'] := by
  simp only [headline, String.toList_append, toString_eq_self]
  rfl

theorem infix_headline (rest : String) : rest.toList <:+: (p.headline rest).toList :=
  ⟨_, _, (toList_headline rest).symm⟩

theorem hyphen_notMem_bytes (n : UInt64) : '-' ∉ (Summary.bytes n).toList := by
  rw [Summary.bytes_eq, DataSize.roundedText, String.toList_append, Nat.toList_repr,
    List.mem_append, not_or]
  refine ⟨fun hmem => ?_, by decide⟩
  exact absurd (isDigit_toDigits _ _ hmem) (by decide)

theorem hyphen_notMem_text (query : QueryId) : '-' ∉ query.text.toList := fun hmem =>
  absurd (List.all_eq_true.mp query.wellFormed.2 '-' hmem) (by decide)

theorem hyphen_notMem_reservationLine (reservation : QueryId × UInt64) :
    '-' ∉ (reservationLine reservation).toList := by
  simp only [reservationLine, String.toList_append, toString_eq_self, List.mem_append, not_or]
  exact ⟨⟨⟨by decide, hyphen_notMem_text _⟩, by decide⟩, hyphen_notMem_bytes _⟩

theorem hyphen_notMem_headline {rest : String} (h : '-' ∉ rest.toList) :
    '-' ∉ (p.headline rest).toList := by
  simp only [toList_headline, List.mem_append, not_or]
  exact ⟨⟨⟨⟨⟨⟨by decide, hyphen_notMem_bytes _⟩, by decide⟩, hyphen_notMem_bytes _⟩, by decide⟩, h⟩,
    by decide⟩

/-- Only what is said about an over-committed pool has a hyphen in it. -/
theorem saysOvercommitted_iff_neg : p.SaysOvercommitted ↔ p.freeBytes < 0 := by
  constructor
  · rintro ⟨line, hline, hinfix⟩
    by_contra hfree
    rw [lines_of_free (not_lt.mp hfree)] at hline
    have hhyphen : '-' ∈ line.toList := hinfix.subset (by decide)
    rcases List.mem_cons.mp hline with rfl | hline
    · refine hyphen_notMem_headline ?_ hhyphen
      rw [String.toList_append, toString_eq_self, List.mem_append, not_or]
      exact ⟨hyphen_notMem_bytes _, by decide⟩
    · obtain ⟨reservation, -, rfl⟩ := List.mem_map.mp hline
      exact hyphen_notMem_reservationLine reservation hhyphen
  · intro h
    rw [SaysOvercommitted, lines_of_overcommitted h]
    refine ⟨_, List.mem_cons_self, List.IsInfix.trans ?_ (infix_headline _)⟩
    exact ⟨[], " by ".toList ++ (Summary.bytes (Summary.count (-p.freeBytes))).toList, by
      simp [toString_eq_self]⟩

/-! ## Every pool -/

/-- The arithmetic of a pool is exact. -/
structure Exact (p : MemoryPool) : Prop where
  /-- The free bytes are what the reservations leave of the pool. -/
  freeBytes_eq : p.freeBytes =
    p.maxBytes.toNat - p.reservedBytes.toNat - p.reservedRevocableBytes.toNat
  /-- The same goes for the signed numbers that the pool is made from. -/
  freeBytes_made : ∀ most reserved revocable reservations revocables,
    make most reserved revocable reservations revocables = .ok p →
      p.freeBytes = most.toInt - reserved.toInt - revocable.toInt
  /-- No more can be missing than two reservations of an empty pool. -/
  freeBytes_ge : -(2 ^ 64 - 2) ≤ p.freeBytes
  /-- No more can be free than the largest pool. -/
  freeBytes_le : p.freeBytes ≤ 2 ^ 63 - 1
  /-- What is free is the count that is shown. -/
  shows_free : 0 ≤ p.freeBytes → ∃ amount : UInt64, (amount.toNat : Int) = p.freeBytes ∧
    (Summary.lines p).head? = some (p.headline s!"{Summary.bytes amount} free")
  /-- What is missing is the count that is shown. -/
  shows_missing : p.freeBytes < 0 → ∃ amount : UInt64, (amount.toNat : Int) = -p.freeBytes ∧
    (Summary.lines p).head? = some (p.headline s!"over-committed by {Summary.bytes amount}")
  /-- A pool is called over-committed when more is reserved than there is. -/
  saysOvercommitted_iff : p.SaysOvercommitted ↔
    p.maxBytes.toNat < p.reservedBytes.toNat + p.reservedRevocableBytes.toNat
  /-- What a query has reserved is the sum of its entries, cut off at the largest count. -/
  reservedBy_eq : ∀ query regular revocable, HoldsBytes p.reservations query regular →
    HoldsBytes p.revocableReservations query revocable →
      (p.reservedBy query).toNat = min (2 ^ 64 - 1) (regular.toNat + revocable.toNat)

theorem exact_of_obtained (h : Obtained p) : p.Exact := by
  obtain ⟨hge, hle⟩ := h.freeBytes_bounds
  obtain ⟨hnodup, hnodup', -⟩ := h.exists_make
  have hsize : (UInt64.size : Int) = 2 ^ 64 := rfl
  refine ⟨rfl, fun _ _ _ _ _ => freeBytes_of_make, hge, hle, fun hfree => ?_,
    fun hmissing => ?_, ?_, fun query regular revocable hregular hrevocable => ?_⟩
  · refine ⟨_, toNat_count hfree (by omega), ?_⟩
    rw [lines_of_free hfree]
    rfl
  · refine ⟨_, toNat_count (by omega) (by omega), ?_⟩
    rw [lines_of_overcommitted hmissing]
    rfl
  · rw [saysOvercommitted_iff_neg, freeBytes_neg_iff]
  · rw [toNat_reservedBy hnodup hnodup' hregular hrevocable, min_comm]
    rfl

/-- A query that has reserved more than fits a count. -/
def sampleQuery : QueryId :=
  ⟨"q_greedy", by decide⟩

/-- A pool of which more is reserved than there is. -/
def sample : MemoryPool :=
  ⟨100, 80, 40, [(sampleQuery, 70)], [(sampleQuery, 18446744073709551615)]⟩

/-- The sample as JSON. -/
def samplePayload : Json :=
  .object [("maxBytes", .ofInt64 100),
    ("queryMemoryReservations", .object [("q_greedy", .ofUInt64 70)]),
    ("queryMemoryRevocableReservations", .object [("q_greedy", .ofUInt64 18446744073709551615)]),
    ("reservedBytes", .ofInt64 80), ("reservedRevocableBytes", .ofInt64 40)]

theorem exact_of_obtained_sample : samplePayload.WellFormed ∧
    Payload.decode MemoryPool samplePayload = .ok sample ∧ sample.freeBytes = -20 ∧
      sample.SaysOvercommitted ∧ (sample.reservedBy sampleQuery).toNat = 2 ^ 64 - 1 := by
  have hdecode : Payload.decode MemoryPool samplePayload = .ok sample := rfl
  have hexact := exact_of_obtained (.decoded (by decide) hdecode)
  refine ⟨by decide, hdecode, hexact.freeBytes_eq, hexact.saysOvercommitted_iff.mpr (by decide), ?_⟩
  rw [hexact.reservedBy_eq sampleQuery 70 18446744073709551615 (.entry (by decide))
    (.entry (by decide))]
  decide

end MemoryPool

end QueryScope
