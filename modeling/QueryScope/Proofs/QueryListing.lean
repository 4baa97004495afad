import QueryScope.CommandLine.Execution
import QueryScope.Proofs.Json.Parsed
import QueryScope.Proofs.Listing
import QueryScope.Proofs.PlanOrder
import QueryScope.Proofs.Produced

/-!
# The plans of a query, one by one

Listing the plans of a query writes what listing each of its fragments writes, one after the other,
up to the first fragment whose listing is given up. A fragment is told from a query by a key that no
fragment has when it is written, and it is read again from what is written for it.
-/

namespace QueryScope.CommandLine

variable {stored : Preferences} {inputs : Inputs} {P : Json} {q : Query} {f : Fragment}

/-! ## Telling queries from fragments -/

theorem planFragments_query (hq : Payload.decode Query P = .ok q) :
    planFragments P = .ok q.fragments := by
  obtain ⟨members, rfl, hreads⟩ := (Codec.reads_record (r := .query)).mp hq
  obtain ⟨id, ⟨v, hv, -⟩, -⟩ := Body.reads_checked.mp hreads
  obtain ⟨hlookup, -⟩ := Json.present?_eq_some_iff.mp hv
  simp only [planFragments, Json.member?, hlookup, hq]

/-- A fragment that was read from a payload is found again in what is written for it. -/
theorem planFragments_encode (hP : P.WellFormed)
    (hf : (Codec.record .fragment).Produces .standard P f) :
    planFragments (Payload.encode f).sorted = .ok [f] := by
  obtain ⟨p, v, hinside, hdecode⟩ := hf
  have hv : v.WellFormed := hP.inside hinside
  have hreads : (Codec.record .fragment).Reads v f := Codec.decodeAt_ok_iff.mp hdecode
  have hread : Payload.decode Fragment (Payload.encode f).sorted = .ok f :=
    (Fragment.faithful .sorted (sizeOf v + 1) f v hv (Nat.lt_succ_self _) hreads).1
  -- the members that are written are known, so that the key of a query is known to be missing
  have hmembers : (Payload.encode f).HasMembers [("id", .string f.id.text), ("root", f.root.encode),
      ("partitioning", f.partitioning.encode), ("partitioningScheme", f.scheme.encode)] :=
    Json.hasMembers_object (by simp)
  obtain ⟨es, hes, hlookup⟩ := Json.Arrangement.sorted.exists_arranged hmembers
  have hkey : (Payload.encode f).sorted.member? "queryId" = none := by
    rw [hes, Json.member?, hlookup]
    rfl
  simp only [planFragments, hkey, hread]

/-! ## One fragment -/

/-- What is written for a fragment whose listing fits: the listing, and a line for each scan if
these are asked for. -/
def fragmentText (style : ListingStyle) (scans : Bool) (f : Fragment) : String :=
  Listing.renderFragment style f ++
    (if scans then String.join (f.root.scans.map fun s => scanLine s ++ "\n") else "")

/-- There is no other way for a fragment to be without its text than a listing that does not fit. -/
theorem fragmentAnswer_eq (style : ListingStyle) (scans : Bool) (f : Fragment) :
    fragmentAnswer style scans f = if Fits (Listing.renderFragment style f) then
        { text := fragmentText style scans f }
      else { ending := .givenUp } := by
  have hscans : f.root.tableScans = .ok f.root.scans := f.root.tableScans_eq
  have hlines : unlines (f.root.scans.map scanLine) =
      String.join (f.root.scans.map fun s => scanLine s ++ "\n") :=
    congrArg String.join List.map_map
  simp only [fragmentAnswer, f.listing_eq style]
  by_cases h : Fits (Listing.renderFragment style f)
  · simp only [if_pos h, hscans, hlines]
    cases scans with
    | false => simp [fragmentText]
    | true => rfl
  · simp only [if_neg h]

/-! ## One after the other -/

namespace Answer

theorem followedBy_done (text : String) (second : Answer) :
    ({ text } : Answer).followedBy second = { second with text := text ++ second.text } := rfl

theorem inOrder_singleton (answer : Answer) : inOrder [answer] = answer := by
  obtain ⟨text, ending⟩ := answer
  cases ending with
  | done => simp [inOrder, followedBy]
  | failed | givenUp => rfl

/-- Answers of which each is a text or is given up come to all of the texts, or to those before the
first one that is given up. -/
theorem inOrder_cases {α : Type} {P : α → Prop} [DecidablePred P] {text : α → String}
    {answer : α → Answer}
    (h : ∀ a, answer a = if P a then { text := text a } else { ending := .givenUp })
    (as : List α) :
    ((∀ a ∈ as, P a) ∧ inOrder (as.map answer) = { text := String.join (as.map text) }) ∨
      ∃ earlier a later, as = earlier ++ a :: later ∧ (∀ b ∈ earlier, P b) ∧ ¬P a ∧
        inOrder (as.map answer) =
          { text := String.join (earlier.map text), ending := .givenUp } := by
  induction as with
  | nil => exact Or.inl ⟨by simp, rfl⟩
  | cons a rest ih =>
    rw [List.map_cons, inOrder, h a]
    by_cases ha : P a
    · rw [if_pos ha, followedBy_done]
      rcases ih with ⟨hall, hrest⟩ | ⟨earlier, b, later, rfl, hearlier, hb, hrest⟩
      · refine Or.inl ⟨List.forall_mem_cons.mpr ⟨ha, hall⟩, ?_⟩
        rw [hrest, List.map_cons, String.join_cons]
      · refine Or.inr ⟨a :: earlier, b, later, rfl,
          List.forall_mem_cons.mpr ⟨ha, hearlier⟩, hb, ?_⟩
        rw [hrest, List.map_cons, String.join_cons]
    · rw [if_neg ha]
      exact Or.inr ⟨[], a, rest, rfl, by simp, ha, rfl⟩

end Answer

/-! ## Running the command -/

section

variable [Parser String Json]

/-- How the command lays out plans. -/
def PlanCommand.style (c : PlanCommand) (stored : Preferences) : ListingStyle :=
  (stored.override { showLayout := c.showLayout, indent := c.indent }).plan.style

theorem PlanCommand.run_eq {c : PlanCommand} {text : String} {fragments : List Fragment}
    (htext : inputs c.input = .ok text) (hparse : Parser.parse text = .ok P)
    (hfragments : planFragments P = .ok fragments) :
    c.run stored inputs =
      .inOrder (fragments.map (fragmentAnswer (c.style stored) c.scans)) := by
  have hread : (readInput inputs c.input).bind textFragments = .ok fragments := by
    rw [readInput, htext]
    show textFragments text = _
    simp only [textFragments, hparse, hfragments]
  simp only [run, hread, style]

/-- The answer for what is written for a fragment is the fragment's answer. -/
theorem PlanCommand.run_encode {c : PlanCommand} {text : String} (hP : P.WellFormed)
    (hf : (Codec.record .fragment).Produces .standard P f) (htext : inputs c.input = .ok text)
    (hparse : Parser.parse text = .ok (Payload.encode f).sorted) :
    c.run stored inputs = fragmentAnswer (c.style stored) c.scans f := by
  rw [run_eq htext hparse (planFragments_encode hP hf)]
  exact Answer.inOrder_singleton _

end

/-! ## A query of two stages -/

/-- Constant rows that go to a single node. -/
def sampleFragment : Fragment :=
  let handle : PartitioningHandle := ⟨none, none, .system .single .single⟩
  ⟨⟨"5", by decide⟩, .values ⟨"0", by decide⟩ ["x"] [], handle, ⟨⟨handle, []⟩, ["x"]⟩⟩

/-- A query of which only the lower stage is planned. -/
def sampleQuery : Json :=
  .object [("memoryPool", .string "general"),
    ("outputStage", .object [("stageId", .string "q.0"), ("state", .string "PLANNED"),
      ("subStages", .array [.object [("plan", (Payload.encode sampleFragment).sorted),
        ("stageId", .string "q.1"), ("state", .string "PLANNED"), ("subStages", .array []),
        ("tasks", .array [])]]), ("tasks", .array [])]),
    ("query", .string "VALUES"), ("queryId", .string "q"),
    ("queryStats", .object [("completedDrivers", .ofInt64 0), ("completedTasks", .ofInt64 0),
      ("createTime", .string "now"), ("elapsedTime", .string "1s"),
      ("peakUserMemoryReservation", .string "1B"), ("queuedDrivers", .ofInt64 0),
      ("rawInputDataSize", .string "1B"), ("rawInputPositions", .ofInt64 0),
      ("runningDrivers", .ofInt64 0), ("runningTasks", .ofInt64 0), ("totalDrivers", .ofInt64 0),
      ("totalTasks", .ofInt64 0)]),
    ("scheduled", .bool true), ("self", .string "here"), ("state", .string "PLANNING")]

/-- The query as text. -/
def sampleQueryText : String :=
  "\x7b\"state\":\"PLANNING\",\"self\":\"here\",\"scheduled\":true,\"queryStats\":" ++
    "\x7b\"totalTasks\":0,\"totalDrivers\":0,\"runningTasks\":0,\"runningDrivers\":0," ++
    "\"rawInputPositions\":0,\"rawInputDataSize\":\"1B\",\"queuedDrivers\":0," ++
    "\"peakUserMemoryReservation\":\"1B\",\"elapsedTime\":\"1s\",\"createTime\":\"now\"," ++
    "\"completedTasks\":0,\"completedDrivers\":0\x7d,\"queryId\":\"q\",\"query\":\"VALUES\"," ++
    "\"outputStage\":\x7b\"tasks\":[],\"subStages\":[\x7b\"tasks\":[],\"subStages\":[]," ++
    "\"state\":\"PLANNED\",\"stageId\":\"q.1\",\"plan\":\x7b\"root\":\x7b\"rows\":[]," ++
    "\"outputSymbols\":[\"x\"],\"id\":\"0\",\"@type\":\"values\"\x7d," ++
    "\"partitioningScheme\":\x7b\"partitioning\":" ++
    "\x7b\"handle\":\x7b\"connectorHandle\":\x7b\"partitioning\":\"SINGLE\",\"function\":" ++
    "\"SINGLE\"\x7d\x7d,\"arguments\":[]\x7d,\"outputLayout\":[\"x\"]\x7d,\"partitioning\":" ++
    "\x7b\"connectorHandle\":\x7b\"partitioning\":\"SINGLE\",\"function\":\"SINGLE\"\x7d\x7d," ++
    "\"id\":\"5\"\x7d\x7d],\"state\":\"PLANNED\",\"stageId\":\"q.0\"\x7d,\"memoryPool\":" ++
    "\"general\"\x7d"

set_option maxRecDepth 20000 in
theorem parse?_sampleQueryText : Json.parse? sampleQueryText = some sampleQuery := by
  apply Json.parse?_of_eq_ofList
  · repeat' apply Json.append_eq_ofList
    all_goals rfl
  · rfl

/-- What is written for the fragment. -/
def sampleFragmentText : String :=
  "\x7b\"id\":\"5\",\"root\":\x7b\"@type\":\"values\",\"id\":\"0\",\"outputSymbols\":[\"x\"]," ++
    "\"rows\":[]\x7d,\"partitioning\":\x7b\"connectorHandle\":\x7b\"function\":\"SINGLE\"," ++
    "\"partitioning\":\"SINGLE\"\x7d\x7d,\"partitioningScheme\":\x7b\"partitioning\":" ++
    "\x7b\"handle\":\x7b\"connectorHandle\":\x7b\"function\":\"SINGLE\",\"partitioning\":" ++
    "\"SINGLE\"\x7d\x7d,\"arguments\":[]\x7d,\"outputLayout\":[\"x\"]\x7d\x7d"

theorem compress_sampleFragment :
    (Payload.encode sampleFragment).compress = sampleFragmentText := by
  decide +kernel

set_option maxRecDepth 20000 in
theorem parse?_sampleFragmentText :
    Json.parse? sampleFragmentText = some (Payload.encode sampleFragment).sorted := by
  apply Json.parse?_of_eq_ofList
  · repeat' apply Json.append_eq_ofList
    all_goals rfl
  · rfl

theorem parse_sampleQueryText : Parser.parse sampleQueryText = .ok sampleQuery :=
  Json.parse_eq_ok_iff.mpr parse?_sampleQueryText

theorem decode_sampleQuery : ∃ q, Payload.decode Query sampleQuery = .ok q ∧
    (q.outputStage.toList.flatMap Stage.depthFirst).map (·.plan) = [none, some sampleFragment] :=
  ⟨_, rfl, rfl⟩

/-- What is written for the fragment with its symbols, two columns in. -/
def sampleListing : String :=
  "Fragment 5 [SINGLE]\n  Output layout: [x]\n  Output partitioning: SINGLE\n" ++
    "  - Values[] => [x]\n"

end QueryScope.CommandLine
