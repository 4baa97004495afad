import QueryScope.Proofs.MeasureText
import QueryScope.Proofs.Produced

/-!
# Queries settle

The JSON of a query is decoded again as the same query, except that its sizes and durations are
those that their texts say. From then on the JSON and what it is decoded as stay the same.
-/

namespace QueryScope

variable {f : Json → Json} {n : Nat} {members : List (String × Json)}

/-! ## Measures -/

section Measure

variable {υ : Type} [UnitSystem υ] {m q : Measure υ}

theorem Measure.exists_parse_of_readsField {name : String}
    (h : (Codec.measure : Codec (Measure υ)).ReadsField members name m) :
    ∃ text, Measure.parse text = .ok m := by
  obtain ⟨v, -, hreads⟩ := h
  rw [Codec.measure, Codec.text, Codec.reads_scalar] at hreads
  obtain ⟨text, -, hparse⟩ := bind_eq_ok_iff.mp hreads
  exact ⟨text, mapError_eq_ok_iff.mp hparse⟩

/-- A measure is read from its text as the measure that the text says. -/
theorem Measure.readsField_of_lookup {own es : List (String × Json)} (name : String)
    (hf : Json.Arrangement f) (harr : Json.Arranged f own es)
    (hl : Json.lookup own name = some (.string m.text)) (hm : Measure.parse m.text = .ok q) :
    (Codec.measure : Codec (Measure υ)).ReadsField es name q := by
  refine .of_lookup hf harr hl rfl ?_
  rw [hf.wellFormed (.string m.text), Codec.measure, Codec.text, Codec.reads_scalar]
  simp [Codec.readString, hm, bind, Except.bind, Except.mapError]

end Measure

/-! ## Counters -/

namespace QueryStats

variable {s : QueryStats}

/-- The counters with other measures. -/
def withMeasures (s : QueryStats) (elapsed : Duration) (rawInput peak : DataSize) : QueryStats :=
  { s with elapsedTime := elapsed, rawInputDataSize := rawInput, peakUserMemory := peak }

/-- The counters with the measures that are read from the texts of theirs. -/
def settled (s : QueryStats) : QueryStats :=
  s.withMeasures s.elapsedTime.settled s.rawInputDataSize.settled s.peakUserMemory.settled

/-- Some measure is written with two places that are both zeros. -/
def HasZeroPlaces (s : QueryStats) : Prop :=
  (∃ whole, s.elapsedTime.EndsInZeros whole) ∨ (∃ whole, s.rawInputDataSize.EndsInZeros whole) ∨
    ∃ whole, s.peakUserMemory.EndsInZeros whole

/-- Every measure settles. -/
structure Settles (s : QueryStats) : Prop where
  elapsedTime : s.elapsedTime.Settles
  rawInputDataSize : s.rawInputDataSize.Settles
  peakUserMemory : s.peakUserMemory.Settles

/-- The parts that counters are made of; nothing is asked of the measures. -/
theorem make_eq_ok {createTime : String} {elapsed : Duration}
    {tasks runningTasks endedTasks drivers queued running ended positions : Int64}
    {rawInput peak : DataSize} (h : make createTime elapsed tasks runningTasks endedTasks drivers
      queued running ended rawInput positions peak = .ok s) :
    (createTime = s.createTime ∧ elapsed = s.elapsedTime ∧ rawInput = s.rawInputDataSize ∧
        peak = s.peakUserMemory) ∧
      (nonNegative32 "totalTasks" tasks = .ok s.totalTasks ∧
        nonNegative32 "runningTasks" runningTasks = .ok s.runningTasks ∧
        nonNegative32 "completedTasks" endedTasks = .ok s.completedTasks) ∧
      (nonNegative32 "totalDrivers" drivers = .ok s.totalDrivers ∧
        nonNegative32 "queuedDrivers" queued = .ok s.queuedDrivers ∧
        nonNegative32 "runningDrivers" running = .ok s.runningDrivers ∧
        nonNegative32 "completedDrivers" ended = .ok s.completedDrivers) ∧
      nonNegative "rawInputPositions" positions = .ok s.rawInputPositions ∧
      ∀ elapsed' rawInput' peak', make createTime elapsed' tasks runningTasks endedTasks drivers
        queued running ended rawInput' positions peak' =
          .ok (s.withMeasures elapsed' rawInput' peak') := by
  simp only [make, bind_eq_ok_iff] at h
  obtain ⟨_, hcreate, _, htasks, _, hrunningTasks, _, hendedTasks, _, hdrivers, _, hqueued, _,
    hrunning, _, hended, _, hpositions, _, hatMostTasks, _, hatMostDrivers, heq⟩ := h
  obtain rfl := nonEmpty_eq_ok hcreate
  cases heq
  refine ⟨⟨rfl, rfl, rfl, rfl⟩, ⟨htasks, hrunningTasks, hendedTasks⟩,
    ⟨hdrivers, hqueued, hrunning, hended⟩, hpositions, fun elapsed' rawInput' peak' => ?_⟩
  simp only [make, bind_eq_ok_iff]
  exact ⟨_, hcreate, _, htasks, _, hrunningTasks, _, hendedTasks, _, hdrivers, _, hqueued, _,
    hrunning, _, hended, _, hpositions, _, hatMostTasks, _, hatMostDrivers, rfl⟩

/-- Counters that were read are read again, with the measures that the texts of other measures
say. -/
theorem reads_withMeasures (hf : Json.Arrangement f) (hbelow : Json.Below n members)
    (h : QueryStats.body.Reads members s) {elapsed elapsed' : Duration}
    {rawInput rawInput' peak peak' : DataSize}
    (helapsed : Measure.parse elapsed.text = .ok elapsed')
    (hrawInput : Measure.parse rawInput.text = .ok rawInput')
    (hpeak : Measure.parse peak.text = .ok peak') :
    (Codec.record .queryStats).Reads (f (s.withMeasures elapsed rawInput peak).encode)
      (s.withMeasures elapsed' rawInput' peak') := by
  obtain ⟨createTime, hcreateTime, _, -, tasks, htasks, runningTasks, hrunningTasks, endedTasks,
    hendedTasks, drivers, hdrivers, queued, hqueued, running, hrunning, ended, hended, _, -,
    positions, hpositions, _, -, hmake⟩ := Body.reads_checked.mp h
  obtain ⟨⟨rfl, -, -, -⟩, ⟨ht, hrt, het⟩, ⟨hd, hq, hr, he⟩, hp, hsame⟩ := make_eq_ok hmake
  have hown : (s.withMeasures elapsed rawInput peak).encode.HasMembers _ :=
    Json.hasMembers_object (by simp)
  obtain ⟨es, hes, harr⟩ := hf.exists_arranged hown
  have hrw : Json.Rewritten f n members _ es := ⟨hf, hbelow, harr⟩
  refine Codec.reads_record.mpr ⟨es, hes, Body.reads_checked.mpr ?_⟩
  have hcreateTime := hcreateTime.restored hrw (Codec.faithful_string hf) rfl
  have helapsed := Measure.readsField_of_lookup "elapsedTime" hf harr rfl helapsed
  have htasks := htasks.restored_count32 hrw ht rfl
  have hrunningTasks := hrunningTasks.restored_count32 hrw hrt rfl
  have hendedTasks := hendedTasks.restored_count32 hrw het rfl
  have hdrivers := hdrivers.restored_count32 hrw hd rfl
  have hqueued := hqueued.restored_count32 hrw hq rfl
  have hrunning := hrunning.restored_count32 hrw hr rfl
  have hended := hended.restored_count32 hrw he rfl
  have hrawInput := Measure.readsField_of_lookup "rawInputDataSize" hf harr rfl hrawInput
  have hpositions := hpositions.restored_count hrw hp rfl
  have hpeak := Measure.readsField_of_lookup "peakUserMemoryReservation" hf harr rfl hpeak
  exact ⟨_, hcreateTime, _, helapsed, tasks, htasks, runningTasks, hrunningTasks, endedTasks,
    hendedTasks, drivers, hdrivers, queued, hqueued, running, hrunning, ended, hended, _, hrawInput,
    positions, hpositions, _, hpeak, hsame _ _ _⟩

/-- All measures of counters that are read settle. -/
theorem settles_of_reads (h : QueryStats.body.Reads members s) : s.Settles := by
  obtain ⟨_, -, _, helapsed, _, -, _, -, _, -, _, -, _, -, _, -, _, -, _, hrawInput, _, -, _, hpeak,
    hmake⟩ := Body.reads_checked.mp h
  obtain ⟨⟨-, rfl, rfl, rfl⟩, -⟩ := make_eq_ok hmake
  obtain ⟨_, helapsed⟩ := Measure.exists_parse_of_readsField helapsed
  obtain ⟨_, hrawInput⟩ := Measure.exists_parse_of_readsField hrawInput
  obtain ⟨_, hpeak⟩ := Measure.exists_parse_of_readsField hpeak
  exact ⟨Measure.settles_of_parse helapsed, Measure.settles_of_parse hrawInput,
    Measure.settles_of_parse hpeak⟩

/-- Only places that are both zeros make a difference to the JSON. -/
theorem Settles.encode_settled (h : s.Settles) (hplaces : ¬s.HasZeroPlaces) :
    s.settled.encode = s.encode := by
  rw [HasZeroPlaces, not_or, not_or, not_exists, not_exists, not_exists] at hplaces
  obtain ⟨helapsed0, hrawInput0, hpeak0⟩ := hplaces
  simp only [encode, settled, withMeasures, h.elapsedTime.text_eq helapsed0,
    h.rawInputDataSize.text_eq hrawInput0, h.peakUserMemory.text_eq hpeak0]

/-- The JSON of counters that were read is read as the settled counters, and so is their JSON. -/
theorem reads_settled (hf : Json.Arrangement f) {v : Json} (hv : v.WellFormed)
    (h : (Codec.record .queryStats).Reads v s) :
    s.Settles ∧ (Codec.record .queryStats).Reads (f s.encode) s.settled ∧
      (Codec.record .queryStats).Reads (f s.settled.encode) s.settled := by
  obtain ⟨members, rfl, h⟩ := Codec.reads_record.mp h
  have hbelow := Json.below_of_wellFormed hv (Nat.lt_succ_self _)
  have hsettles := settles_of_reads h
  refine ⟨hsettles, ?_, ?_⟩
  · exact reads_withMeasures hf hbelow h hsettles.elapsedTime.parse_text
      hsettles.rawInputDataSize.parse_text hsettles.peakUserMemory.parse_text
  · exact reads_withMeasures hf hbelow h hsettles.elapsedTime.parse_settled
      hsettles.rawInputDataSize.parse_settled hsettles.peakUserMemory.parse_settled

end QueryStats

/-! ## Queries -/

namespace Query

variable {q : Query}

/-- The query with the measures that are read from the texts of its counters. -/
def settled (q : Query) : Query :=
  { q with stats := q.stats.settled }

/-- Nothing is asked of the counters of a query. -/
theorem make_with_stats {id : QueryId} {state : QueryState} {pool : MemoryPoolId}
    {scheduled : Bool} {self query : String} {stats : QueryStats}
    {transaction : Option TransactionId} {outputStage : Option Stage} {failure : Option Failure}
    (h : make id state pool scheduled self query stats transaction outputStage failure = .ok q)
    (stats' : QueryStats) :
    make id state pool scheduled self query stats' transaction outputStage failure =
      .ok { q with stats := stats' } := by
  have hself {q' : Query} (h : (do return ⟨id, state, pool, scheduled, ← nonEmpty "self" self,
      query, stats, transaction, outputStage, failure⟩) = Except.ok q') :
      nonEmpty "self" self = .ok self := by
    obtain ⟨_, hself, -⟩ := bind_eq_ok_iff.mp h
    rw [hself, nonEmpty_eq_ok hself]
  have hagain (hself : nonEmpty "self" self = .ok self) :
      (do return ⟨id, state, pool, scheduled, ← nonEmpty "self" self, query, stats', transaction,
        outputStage, failure⟩ : Except FieldFault Query) =
        .ok ⟨id, state, pool, scheduled, self, query, stats', transaction, outputStage,
          failure⟩ := by
    rw [hself]
    rfl
  obtain ⟨rfl, hstage⟩ := make_eq_ok h
  cases outputStage with
  | none => exact hagain (hself h)
  | some stage =>
    have hid := hstage stage rfl
    simp only [make, ne_eq, hid, not_true_eq_false, if_false] at h ⊢
    exact hagain (hself h)

/-- A query that was read is read again, with the counters that the JSON of other counters says. -/
theorem reads_with_stats (hf : Json.Arrangement f) (hbelow : Json.Below n members)
    (h : Query.body.Reads members q) {s s' : QueryStats}
    (hs : (Codec.record .queryStats).Reads (f s.encode) s') :
    (Codec.record .query).Reads (f ({ q with stats := s } : Query).encode)
      { q with stats := s' } := by
  obtain ⟨id, hid, state, hstate, pool, hpool, scheduled, hscheduled, self, hself, query, hquery,
    stats, -, transaction, htransaction, outputStage, houtputStage, failure, hfailure, hmake⟩ :=
    Body.reads_checked.mp h
  have hsame := make_with_stats hmake s'
  obtain ⟨rfl, -⟩ := make_eq_ok hmake
  have hown : (encode ⟨id, state, pool, scheduled, self, query, s, transaction, outputStage,
      failure⟩).HasMembers _ :=
    Json.hasMembers_object (by cases transaction <;> cases outputStage <;> cases failure <;>
      simp [Json.optionalMember])
  obtain ⟨es, hes, harr⟩ := hf.exists_arranged hown
  have hrw : Json.Rewritten f n members _ es := ⟨hf, hbelow, harr⟩
  refine Codec.reads_record.mpr ⟨es, hes, Body.reads_checked.mpr ?_⟩
  have hid := hid.restored hrw (Codec.faithful_text hf QueryId.parse_text) rfl
  have hstate := hstate.restored hrw (Codec.faithful_named hf) rfl
  have hpool := hpool.restored hrw (Codec.faithful_nameId hf) rfl
  have hscheduled := hscheduled.restored hrw (Codec.faithful_bool hf) rfl
  have hself := hself.restored hrw (Codec.faithful_string hf) rfl
  have hquery := hquery.restored hrw (Codec.faithful_string hf) rfl
  have hstats : (Codec.record .queryStats).ReadsField es "queryStats" s' :=
    .of_lookup hf harr (v := s.encode) rfl rfl hs
  have htransaction := htransaction.restored hrw (Codec.faithful_text hf TransactionId.parse_text)
    (by cases transaction <;> cases outputStage <;> cases failure <;> rfl)
  have houtputStage := houtputStage.restored hrw (Stage.faithful hf n)
    (by cases transaction <;> cases outputStage <;> cases failure <;> rfl)
  have hfailure := hfailure.restored hrw (Failure.faithful hf n)
    (by cases transaction <;> cases outputStage <;> cases failure <;> rfl)
  exact ⟨_, hid, _, hstate, _, hpool, _, hscheduled, _, hself, _, hquery, _, hstats, _,
    htransaction, _, houtputStage, _, hfailure, hsame⟩

/-- The JSON of a query that was read is read as the settled query, and so is its JSON. -/
theorem reads_settled (hf : Json.Arrangement f) {v : Json} (hv : v.WellFormed)
    (h : (Codec.record .query).Reads v q) :
    q.stats.Settles ∧ (Codec.record .query).Reads (f q.encode) q.settled ∧
      (Codec.record .query).Reads (f q.settled.encode) q.settled := by
  obtain ⟨members, rfl, h⟩ := Codec.reads_record.mp h
  have hbelow := Json.below_of_wellFormed hv (Nat.lt_succ_self _)
  obtain ⟨w, hw, hstats⟩ : ∃ w : Json, w.WellFormed ∧
      (Codec.record .queryStats).Reads w q.stats := by
    obtain ⟨_, -, _, -, _, -, _, -, _, -, _, -, _, ⟨w, hw, hstats⟩, _, -, _, -, _, -, hmake⟩ :=
      Body.reads_checked.mp h
    obtain ⟨rfl, -⟩ := make_eq_ok hmake
    exact ⟨w, hv.member (Json.mem_of_lookup (Json.present?_eq_some_iff.mp hw).1), hstats⟩
  obtain ⟨hsettles, hagain, hsettled⟩ := QueryStats.reads_settled hf hw hstats
  exact ⟨hsettles, reads_with_stats hf hbelow h hagain, reads_with_stats hf hbelow h hsettled⟩

/-- Only places that are both zeros make a difference to the JSON. -/
theorem encode_settled (h : q.stats.Settles) (hplaces : ¬q.stats.HasZeroPlaces) :
    q.settled.encode = q.encode := by
  rw [encode, encode, settled, h.encode_settled hplaces]

end Query

/-! ## Payloads -/

/-- The JSON of the first value is decoded as the second one, and so is the JSON of that, whether
the members of objects stand in the order of writing or ascend. -/
structure Payload.SettlesAs {α : Type} [Payload α] (a b : α) : Prop where
  decode_encode : decode α (encode a) = .ok b ∧ decode α (encode a).sorted = .ok b
  decode_settled : decode α (encode b) = .ok b ∧ decode α (encode b).sorted = .ok b

/-- What a size or a duration is printed as is read again and printed in the same way, except that
two places that are both zeros are left out from then on. So the JSON of the counters of a query and
of a query is decoded again, and what is decoded has the same JSON except for such places; and that
JSON is decoded as what it is the JSON of. -/
theorem measures_settle :
    (∀ text (m : DataSize), Measure.parse text = .ok m → m.Settles) ∧
    (∀ text (m : Duration), Measure.parse text = .ok m → m.Settles) ∧
    (∀ P s, P.WellFormed → Payload.decode QueryStats P = .ok s →
      s.Settles ∧ Payload.SettlesAs s s.settled ∧
        (¬s.HasZeroPlaces → s.settled.encode = s.encode)) ∧
    ∀ P q, P.WellFormed → Payload.decode Query P = .ok q →
      q.stats.Settles ∧ Payload.SettlesAs q q.settled ∧
        (¬q.stats.HasZeroPlaces → q.settled.encode = q.encode) := by
  refine ⟨fun _ _ h => Measure.settles_of_parse h, fun _ _ h => Measure.settles_of_parse h,
    fun P s hP h => ?_, fun P q hP h => ?_⟩
  · obtain ⟨hsettles, hagain, hsettled⟩ := QueryStats.reads_settled .id hP h
    obtain ⟨-, hagain', hsettled'⟩ := QueryStats.reads_settled .sorted hP h
    exact ⟨hsettles, ⟨⟨hagain, hagain'⟩, hsettled, hsettled'⟩, hsettles.encode_settled⟩
  · obtain ⟨hsettles, hagain, hsettled⟩ := Query.reads_settled .id hP h
    obtain ⟨-, hagain', hsettled'⟩ := Query.reads_settled .sorted hP h
    exact ⟨hsettles, ⟨⟨hagain, hagain'⟩, hsettled, hsettled'⟩, Query.encode_settled hsettles⟩

/-- A size that is not whole is printed with places, which are lost when the text is read. -/
theorem DataSize.text_changes :
    ∃ m q : DataSize, Measure.parse "1.999B" = .ok m ∧ m.text = "2.00B" ∧
      Measure.parse "2.00B" = .ok q ∧ q.text = "2B" :=
  ⟨_, _, rfl, rfl, rfl, rfl⟩

/-- Counters with such a size. -/
def QueryStats.sample : QueryStats where
  createTime := "now"
  elapsedTime := ⟨.ofDecimal false 12345 (-3), .millis⟩
  totalTasks := 1
  runningTasks := 1
  completedTasks := 0
  totalDrivers := 1
  queuedDrivers := 0
  runningDrivers := 0
  completedDrivers := 1
  rawInputDataSize := ⟨.ofDecimal false 15 (-1), .megabyte⟩
  rawInputPositions := 7
  peakUserMemory := ⟨.ofDecimal false 1999 (-3), .byte⟩

/-- The JSON of the sample as it is read from text. -/
def QueryStats.samplePayload : Json :=
  .object [("completedDrivers", .ofInt64 1), ("completedTasks", .ofInt64 0),
    ("createTime", .string "now"), ("elapsedTime", .string "12.345ms"),
    ("peakUserMemoryReservation", .string "1.999B"), ("queuedDrivers", .ofInt64 0),
    ("rawInputDataSize", .string "1.5MB"), ("rawInputPositions", .ofInt64 7),
    ("runningDrivers", .ofInt64 0), ("runningTasks", .ofInt64 1), ("totalDrivers", .ofInt64 1),
    ("totalTasks", .ofInt64 1)]

theorem measures_settle_sample :
    QueryStats.samplePayload.WellFormed ∧
      Payload.decode QueryStats QueryStats.samplePayload = .ok .sample ∧
        Payload.SettlesAs QueryStats.sample QueryStats.sample.settled ∧
          QueryStats.sample.peakUserMemory.settled.text = "2B" := by
  have hwf : QueryStats.samplePayload.WellFormed := by decide
  have hdecode : Payload.decode QueryStats QueryStats.samplePayload = .ok .sample := rfl
  obtain ⟨-, -, hstats, -⟩ := measures_settle
  obtain ⟨hsettles, hsample, -⟩ := hstats _ _ hwf hdecode
  have hzeros : QueryStats.sample.peakUserMemory.EndsInZeros 2 := rfl
  exact ⟨hwf, hdecode, hsample, hsettles.peakUserMemory.text_eq_whole 2 hzeros⟩

end QueryScope
