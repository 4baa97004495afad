import QueryScope.CommandLine.Command
import QueryScope.Settings.Store
import QueryScope.Summary
import QueryScope.Wire.Payload

/-!
# Executing commands

A command reads its input from a file, writes a text and may change the preferences in a store.
Stored preferences that cannot be read are ignored.
-/

namespace QueryScope.CommandLine

/-- Why a command fails. -/
inductive CommandError where
  /-- There is no store for preferences. -/
  | noStore
  /-- A file cannot be read as text; the file system says why. -/
  | unreadable (input why : String)
  /-- The payload of a plan is not JSON; the parser says why. -/
  | notJson (why : String)
  /-- A payload cannot be decoded. -/
  | decoding (noun : String) (error : DecodeError)
  /-- A tree has something that the walk over it does not support. -/
  | visiting (error : VisitError)
  /-- Preferences cannot be stored. -/
  | saving (error : StoreError)
deriving DecidableEq

/-- The wording of the error, the outer cause first. -/
def CommandError.message : CommandError → String
  | .noStore => "no configuration directory available; pass --config-dir"
  | .unreadable input why => s!"reading {input}: {why}"
  | .notJson why => s!"parsing plan input: {why}"
  | .decoding noun error => s!"decoding {noun}: {error.message}"
  | .visiting error => error.message
  | .saving error => s!"saving preferences: {error.message}"

/-- How a command ends. -/
inductive Ending where
  /-- It has done what it was asked for. -/
  | done
  /-- It fails. -/
  | failed (error : CommandError)
  /-- It is given up, and the program with it. -/
  | givenUp
deriving DecidableEq

/-- What a command has written when it ends. -/
structure Answer where
  /-- The text. -/
  text : String := ""
  /-- How it ends. -/
  ending : Ending := .done
deriving DecidableEq

namespace Answer

/-- The text is the answer, or there is an error before anything is written. -/
def ofResult : Except CommandError String → Answer
  | .ok text => { text }
  | .error e => { ending := .failed e }

/-- An answer that goes on with another one, unless it has come to an end before. -/
def followedBy (first second : Answer) : Answer :=
  match first.ending with
  | .done => { second with text := first.text ++ second.text }
  | _ => first

/-- Answers one after the other, up to the first one that is not done. -/
def inOrder : List Answer → Answer
  | [] => {}
  | first :: rest => first.followedBy (inOrder rest)

end Answer

/-- The files that can be read, by path; of any other the file system says why not. -/
abbrev Inputs := String → Except String String

/-- The text of a file. -/
def readInput (inputs : Inputs) (input : String) : Except CommandError String :=
  (inputs input).mapError (.unreadable input)

/-- The lines of an answer. -/
def unlines (lines : List String) : String :=
  String.join (lines.map (· ++ "\n"))

/-! ## Decoding -/

/-- What the payloads of a kind are decoded to. -/
structure Subject where
  /-- The type of the values. -/
  Value : Type
  /-- How they travel. -/
  payload : Payload Value
  /-- What a value is, in messages. -/
  label : String
  /-- The lines of a value's summary. -/
  summary : Value → Checked (List String)

/-- The type of values that is read from payloads, with what is known of it. -/
def Subject.of (α : Type) [Payload α] [Summary α] : Subject :=
  ⟨α, inferInstance, Summary.label α, fun a => some (Summary.lines a)⟩

/-- What a kind of payload is decoded to. -/
def PayloadKind.subject : PayloadKind → Subject
  | .query => .of Query
  | .stage => .of Stage
  | .task => .of Task
  | .outputBuffer => .of OutputBuffer
  | .buffer => .of ConsumerBuffer
  | .memoryPool => .of MemoryPool
  | .fragment => .of Fragment
  | .expression => ⟨Expression, inferInstance, "expression", Expression.summaryLines⟩

/-- A decoded payload as it is shown. -/
def Subject.show (s : Subject) (emission : Emission) (isPretty : Bool) (value : s.Value) :
    Checked String :=
  match emission with
  | .summary => (s.summary value).map unlines
  | .json =>
    let json := s.payload.encode value
    some (unlines [if isPretty then json.pretty else json.compress])

/-- The answer to decoding a payload. With best effort an error is shown with the payload. -/
def DecodeCommand.run [Parser String Json] (c : DecodeCommand) (stored : Preferences)
    (inputs : Inputs) : Answer :=
  let p := (stored.override { bestEffort := c.bestEffort, pretty := c.pretty }).decode
  match readInput inputs c.input with
  | .error e => .ofResult (.error e)
  | .ok raw =>
    let subject := c.kind.subject
    match subject.payload.codec.decodeText .standard raw with
    | .ok value =>
      match subject.show c.emission p.pretty value with
      | some text => { text }
      | none => { ending := .givenUp }
    | .error error =>
      if p.bestEffort then
        { text := unlines [s!"error: {error.message}", String.ofList (Text.trimEnd raw.toList)] }
      else .ofResult (.error (.decoding subject.label error))

/-! ## Plans -/

/-- The fragments in a payload: those of a query, which a key tells from a single fragment. -/
def planFragments (payload : Json) : Except CommandError (List Fragment) :=
  match payload.member? "queryId" with
  | some _ =>
    match Payload.decode Query payload with
    | .ok query => .ok query.fragments
    | .error error => .error (.decoding "query" error)
  | none =>
    match Payload.decode Fragment payload with
    | .ok fragment => .ok [fragment]
    | .error error => .error (.decoding "fragment" error)

/-- A line about a scanned table. -/
def scanLine (s : TableScan) : String :=
  s!"  scan {s.node.text} reads {s.connector.text}:{s.table.text} ({s.variant})"

/-- The answer to listing a fragment, perhaps with the tables that it scans. Nothing is written
before the whole listing is there. -/
def fragmentAnswer (style : ListingStyle) (scans : Bool) (f : Fragment) : Answer :=
  match f.listing style with
  | none => { ending := .givenUp }
  | some (.error e) => { ending := .failed (.visiting e) }
  | some (.ok text) =>
    if scans then
      match f.root.tableScans with
      | .ok list => { text := text ++ unlines (list.map scanLine) }
      | .error e => { text, ending := .failed (.visiting e) }
    else { text }

/-- The fragments that a text stands for. -/
def textFragments [Parser String Json] (text : String) : Except CommandError (List Fragment) :=
  match (Parser.parse text : Except String Json) with
  | .ok payload => planFragments payload
  | .error why => .error (.notJson why)

/-- The answer to listing plans. -/
def PlanCommand.run [Parser String Json] (c : PlanCommand) (stored : Preferences)
    (inputs : Inputs) : Answer :=
  let p := (stored.override { showLayout := c.showLayout, indent := c.indent }).plan
  match (readInput inputs c.input).bind textFragments with
  | .ok fragments => .inOrder (fragments.map (fragmentAnswer p.style c.scans))
  | .error e => { ending := .failed e }

/-! ## Expressions -/

/-- The answer to writing an expression as SQL. Without parameters the placeholders stay. -/
def FormatCommand.run [Parser String Json] (c : FormatCommand) (inputs : Inputs) :
    Except CommandError String := do
  let text ← readInput inputs c.input
  match Payload.decodeText Expression text with
  | .error error => throw (.decoding "expression" error)
  | .ok e =>
    let parameters := c.parameters.map Sql.parameterOfText
    match e.toSql (if parameters = [] then none else some parameters) with
    | .ok sql => return unlines [sql]
    | .error error => throw (.visiting error)

/-! ## Preferences -/

/-- The key under which preferences are stored. -/
def preferencesKey : String := "prefs"

variable {σ : Type} [Store σ]

/-- The stored preferences, or the defaults where they cannot be read. -/
def storedPreferences [Parser String Preferences] : StateM σ Preferences := do
  match ← ExceptT.run (Store.loadOrDefault preferencesKey) with
  | .ok p => return p
  | .error _ => return {}

/-- The result of changing preferences. Preferences that stay the same are not stored again. -/
def changePreferences (stored : Preferences) (changes : Overrides) :
    StateM σ (Except CommandError String) := do
  let updated := stored.override changes
  if updated = stored then return .ok (unlines [updated.text])
  match ← ExceptT.run (Store.save preferencesKey updated) with
  | .ok () => return .ok (unlines [updated.text])
  | .error error => return .error (.saving error)

/-! ## Commands -/

/-- Execute a command with a store. -/
def Command.executeWith [Parser String Json] [Parser String Preferences] (c : Command)
    (inputs : Inputs) : StateM σ Answer := do
  let stored ← storedPreferences
  match c with
  | .decode c => return c.run stored inputs
  | .plan c => return c.run stored inputs
  | .format c => return .ofResult (c.run inputs)
  | .showPreferences => return { text := unlines [stored.text] }
  | .setPreferences changes => return .ofResult (← changePreferences stored changes)

/-- Execute a command where there is no store. -/
def Command.executeWithout [Parser String Json] (c : Command) (inputs : Inputs) : Answer :=
  match c with
  | .decode c => c.run {} inputs
  | .plan c => c.run {} inputs
  | .format c => .ofResult (c.run inputs)
  | .showPreferences | .setPreferences _ => .ofResult (.error .noStore)

/-- Execute a command; the store comes back as the command leaves it. -/
def Command.execute [Parser String Json] [Parser String Preferences] (c : Command)
    (inputs : Inputs) : Option σ → Answer × Option σ
  | none => (c.executeWithout inputs, none)
  | some store =>
    let (answer, store) := StateT.run (c.executeWith inputs) store
    (answer, some store)

end QueryScope.CommandLine
