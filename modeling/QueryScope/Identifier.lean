import QueryScope.Counter
import QueryScope.Number.Reading
import QueryScope.Parser

/-!
# Identifiers

Every identifier has one canonical text, under which it travels. Queries are named by words, stages
by a query and an ordinal, tasks by a stage and one or two more ordinals, transactions by
universally unique identifiers; the other identifiers are any text that is not empty.
-/

namespace QueryScope

/-- Cut a text at every `separator`. -/
def splitAll (separator : Char) : List Char → List (List Char)
  | [] => [[]]
  | c :: rest =>
    if c = separator then [] :: splitAll separator rest
    else match splitAll separator rest with
      | [] => [[c]]
      | part :: parts => (c :: part) :: parts

/-! ## Plain identifiers -/

/-- What a plain identifier names. -/
inductive NameRole where
  /-- A consumer's buffer in the output of a task. -/
  | outputBuffer
  /-- A connector. -/
  | connector
  /-- A memory pool. -/
  | memoryPool
  /-- A node of a plan. -/
  | planNode
  /-- A fragment of a plan. -/
  | fragment
deriving DecidableEq, Repr

/-- The field that a refused identifier is reported under. -/
def NameRole.field : NameRole → String
  | .outputBuffer => "bufferId"
  | .connector => "connectorId"
  | .memoryPool => "memoryPool"
  | .planNode => "id"
  | .fragment => "fragmentId"

/-- An identifier that may be any text but the empty one. -/
structure NameId (role : NameRole) where
  /-- The canonical text. -/
  text : String
  /-- It is not empty. -/
  nonEmpty : text ≠ ""
deriving DecidableEq

/-- The identifier of a consumer's buffer: the partition number as text. -/
abbrev OutputBufferId := NameId .outputBuffer
/-- The identifier of a connector. -/
abbrev ConnectorId := NameId .connector
/-- The identifier of a memory pool. -/
abbrev MemoryPoolId := NameId .memoryPool
/-- The identifier of a plan node, unique in its fragment. -/
abbrev PlanNodeId := NameId .planNode
/-- The identifier of a plan fragment: the stage number as text. -/
abbrev FragmentId := NameId .fragment

/-- Read a plain identifier. -/
def NameId.parse (role : NameRole) (text : String) : Except FieldFault (NameId role) :=
  if h : text ≠ "" then .ok ⟨text, h⟩ else .error ⟨role.field, .empty⟩

/-! ## Queries -/

/-- The characters of query identifiers. -/
def isQueryIdChar (c : Char) : Bool :=
  c.isLower || c.isDigit || c == '_'

/-- Whether a text is a query identifier. -/
def IsQueryId (text : String) : Prop :=
  text ≠ "" ∧ text.toList.all isQueryIdChar = true

instance (text : String) : Decidable (IsQueryId text) :=
  inferInstanceAs (Decidable (_ ∧ _))

/-- The identifier of a query, such as `20240101_120000_00003_abcde`. -/
structure QueryId where
  /-- The canonical text. -/
  text : String
  /-- It is a word of lower-case letters, digits and underscores. -/
  wellFormed : IsQueryId text
deriving DecidableEq

namespace QueryId

/-- Why a text is no query identifier: it is empty, or has a character that it may not have, of
which the first counts. -/
def refusal (text : String) : Reason :=
  match text.toList.find? (fun c => !isQueryIdChar c) with
  | some c => .invalid (.unexpectedCharacter c)
  | none => .empty

/-- Read a query identifier. -/
def parse (text : String) : Except FieldFault QueryId :=
  if h : IsQueryId text then .ok ⟨text, h⟩ else .error ⟨"queryId", refusal text⟩

end QueryId

/-! ## Stages and tasks -/

/-- Read an ordinal: decimal digits, leading zeros allowed, of a number that fits 32 bits. -/
def parseOrdinal (field : String) (part : List Char) : Except FieldFault UInt32 :=
  if part = [] ∨ ¬part.all Char.isDigit then
    .error ⟨field, .invalid (.notOrdinal (String.ofList part))⟩
  else if digitsValue part < UInt32.size then .ok (UInt32.ofNat (digitsValue part))
  else .error ⟨field, .outOfRange (String.ofList part) .u32⟩

/-- The identifier of a stage: its query and its ordinal in the query. -/
structure StageId where
  /-- The query. -/
  query : QueryId
  /-- The ordinal of the stage. -/
  stage : UInt32
deriving DecidableEq

namespace StageId

/-- The canonical text. -/
def text (id : StageId) : String :=
  s!"{id.query.text}.{id.stage}"

/-- Read a stage identifier. The first dot ends the query. -/
def parse (text : String) : Except FieldFault StageId :=
  let chars := text.toList
  match chars.dropWhile (· != '.') with
  | [] => .error ⟨"stageId", .invalid (.noStagePart text)⟩
  | _ :: stage => do
    let query ← QueryId.parse (String.ofList (chars.takeWhile (· != '.')))
    return { query, stage := ← parseOrdinal "stageId" stage }

end StageId

/-- The identifier of a task: its stage, its ordinal in the stage, and which attempt it is when the
engine says so. -/
structure TaskId where
  /-- The stage. -/
  stage : StageId
  /-- The ordinal of the task. -/
  task : UInt32
  /-- The ordinal of the attempt. -/
  attempt : Option UInt32
deriving DecidableEq

namespace TaskId

/-- The canonical text. -/
def text (id : TaskId) : String :=
  let attempt := match id.attempt with
    | some a => s!".{a}"
    | none => ""
  s!"{id.stage.text}.{id.task}{attempt}"

/-- Read the parts of a task identifier. -/
def ofParts (query stage task : List Char) (attempt : Option (List Char)) :
    Except FieldFault TaskId := do
  let query ← QueryId.parse (String.ofList query)
  let stage ← parseOrdinal "taskId" stage
  let task ← parseOrdinal "taskId" task
  let attempt ← match attempt with
    | none => .ok none
    | some a => some <$> parseOrdinal "taskId" a
  return { stage := { query, stage }, task, attempt }

/-- Read a task identifier: three or four parts with dots between them. -/
def parse (text : String) : Except FieldFault TaskId :=
  match splitAll '.' text.toList with
  | [query, stage, task] => ofParts query stage task none
  | [query, stage, task, attempt] => ofParts query stage task (some attempt)
  | _ => .error ⟨"taskId", .invalid (.notTaskId text)⟩

end TaskId

/-! ## Transactions -/

/-- The identifier of a transaction: a universally unique identifier. -/
structure TransactionId where
  /-- The 128 bits. -/
  bits : BitVec 128
deriving DecidableEq

namespace TransactionId

/-- The 32 hexadecimal digits, in lower case. -/
def digits (id : TransactionId) : List Char :=
  let digits := Nat.toDigits 16 id.bits.toNat
  List.replicate (32 - digits.length) '0' ++ digits

/-- The canonical text: five groups of digits with hyphens between them. -/
def text (id : TransactionId) : String :=
  let d := id.digits
  String.ofList
    (d.take 8 ++ '-' :: ((d.drop 8).take 4 ++ '-' :: ((d.drop 12).take 4 ++
      '-' :: ((d.drop 16).take 4 ++ '-' :: d.drop 20))))

/-- The value of a hexadecimal digit of either case. -/
def hexDigit? (c : Char) : Option Nat :=
  if c.isDigit then some (c.toNat - '0'.toNat)
  else if 'a' ≤ c.toLower ∧ c.toLower ≤ 'f' then some (c.toLower.toNat - 'a'.toNat + 10)
  else none

/-- The number that hexadecimal digits denote. -/
def hexValue? (digits : List Char) : Option Nat :=
  digits.foldlM (fun n c => (hexDigit? c).map (16 * n + ·)) 0

/-- Read the five groups of digits with hyphens between them. -/
def hyphenated? (text : List Char) : Option (List Char) :=
  let groups := splitAll '-' text
  if groups.map List.length = [8, 4, 4, 4, 12] then some groups.flatten else none

/-- The text after `start`, if it starts so. -/
def after? (start : String) (text : List Char) : Option (List Char) :=
  if start.toList.isPrefixOf text then some (text.drop start.length) else none

/-- The 32 digits of an identifier in one of its four forms: bare, with hyphens, with hyphens in
braces, or with hyphens as a uniform resource name. -/
def digits? (text : List Char) : Option (List Char) :=
  if text.length = 32 then some text
  else if text.length = 36 then hyphenated? text
  else if text.length = 38 then
    match text.head?, text.getLast? with
    | some '\x7b', some '\x7d' => hyphenated? (text.drop 1).dropLast
    | _, _ => none
  else if text.length = 45 then
    ((after? "urn:uuid:" text).orElse fun _ => after? "URN:UUID:" text).bind hyphenated?
  else none

/-- Read an identifier in one of its forms. -/
def parse? (text : String) : Option TransactionId :=
  ((digits? text.toList).bind hexValue?).map fun n => ⟨BitVec.ofNat 128 n⟩

/-- What the parser says of any other text. -/
def refusal : String := "the text is not a UUID"

/-- Read a transaction identifier. -/
def parse [Parser String TransactionId] (text : String) : Except FieldFault TransactionId :=
  match (Parser.parse text : Except String TransactionId) with
  | .ok id => .ok id
  | .error why => .error ⟨"transactionId", .invalid (.notUuid why)⟩

instance : Parser String TransactionId := .ofOption refusal parse?

end TransactionId

/-! ## Order -/

instance (role : NameRole) : Ord (NameId role) where
  compare a b := compare a.text b.text

instance : Ord QueryId where
  compare a b := compare a.text b.text

instance : Ord StageId where
  compare a b := (compare a.query b.query).then (compare a.stage b.stage)

/-- No attempt comes before every attempt. -/
def compareAttempt : Option UInt32 → Option UInt32 → Ordering
  | none, none => .eq
  | none, some _ => .lt
  | some _, none => .gt
  | some a, some b => compare a b

instance : Ord TaskId where
  compare a b :=
    (compare a.stage b.stage).then
      ((compare a.task b.task).then (compareAttempt a.attempt b.attempt))

instance : Ord TransactionId where
  compare a b := compare a.bits.toNat b.bits.toNat

/-- Keep the first of equal neighbours. -/
def dropRepeats {α : Type} [Ord α] : List α → List α
  | [] => []
  | a :: rest =>
    match dropRepeats rest with
    | [] => [a]
    | b :: rest => if compare a b = .eq then a :: rest else a :: b :: rest

/-- The distinct elements of a list in ascending order. -/
def sortDistinct {α : Type} [Ord α] (xs : List α) : List α :=
  dropRepeats (xs.mergeSort fun a b => (compare a b).isLE)

end QueryScope
