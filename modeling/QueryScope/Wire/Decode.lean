import QueryScope.Json.Parser
import QueryScope.Wire.Decoder
import QueryScope.Wire.Layout
import QueryScope.Wire.Select

/-!
# Decoding

Reading a value as a description says. Reading goes down the payload: every value is turned into a
reader, which takes a description, and the reader of an array or object holds the readers of what is
in it. A description that names a record or an interface leads to the fields of the same object, and
so one level down; that is why reading always comes to an end. The path moves along.
-/

namespace QueryScope

/-- Reads one value as any description says, at the current path. -/
abbrev Reader := (α : Type) → Codec α → Decoder α

/-- A member of an object with its reader. -/
structure Member where
  /-- The key. -/
  key : String
  /-- The value. -/
  value : Json
  /-- The reader of the value. -/
  read : Reader

/-- A value that breaks the rules of its field, at a path. -/
def DecodeError.invalid (p : Path) (reason : Reason) : DecodeError :=
  ⟨p, .validation ⟨p.currentField, reason⟩ none⟩

/-- A value of the wrong type, at a path. -/
def DecodeError.malformed (p : Path) (malformation : Malformation) : DecodeError :=
  ⟨p, .malformed malformation⟩

/-- A fault of a field of the record at a path. -/
def DecodeError.ofField (p : Path) (fault : FieldFault) : DecodeError :=
  ⟨p.child (.field fault.field), .validation fault none⟩

/-- The refusal of the value at a path. -/
def DecodeError.refused (p : Path) : Refusal → DecodeError
  | .malformed malformation => .malformed p malformation
  | .invalid reason => .invalid p reason

/-- The member under a key, if it is there and not null. -/
def presentMember? (members : List Member) (name : String) : Option Member :=
  match members.find? (·.key == name) with
  | some m => if m.value.isNull then none else some m
  | none => none

open Decoder (fail accept inside)

/-- Read fields of the object at the current path, in order. -/
def Fields.read (members : List Member) : {α : Type} → Fields α → Decoder α
  | _, .pure a => return a
  | _, .required fields name c => do
    let build ← fields.read members
    match presentMember? members name with
    | some m => return build (← inside (.field name) (m.read _ c))
    | none => fail (.ofField · ⟨name, .missing⟩)
  | _, .optional fields name c => do
    let build ← fields.read members
    match presentMember? members name with
    | some m => return build (some (← inside (.field name) (m.read _ c)))
    | none => return build none
  | _, .defaulted fields name c default => do
    let build ← fields.read members
    match presentMember? members name with
    | some m => return build (← inside (.field name) (m.read _ c))
    | none => return build default
  | _, .verbatim fields name absent => do
    let build ← fields.read members
    match members.find? (·.key == name) with
    | some m => return build m.value
    | none => fail (.malformed · absent)

/-- Read the object at the current path; `interfaces` is the number of interfaces that have
variants. -/
def Body.read (members : List Member) (interfaces : Nat) {α : Type} : Body α → Decoder α
  | .record fields => fields.read members
  | .checked fields => do accept .ofField (← fields.read members)
  | .whenPresent key present absent =>
    if members.any (·.key == key) then present.read members interfaces
    else absent.read members interfaces
  | .memberless interface a =>
    match members with
    | [] => pure a
    | _ :: _ => fail (⟨·, .unknownVariant interface (.keys (members.map (·.key)))⟩)
  | .custom read => do
    accept .mk (read ⟨← get, interfaces⟩ (members.map fun m => (m.key, m.value)))

/-- Read the items of an array from a position on. -/
def readItems {α : Type} (c : Codec α) : (position : Nat) → List Reader → Decoder (List α)
  | _, [] => pure []
  | n, read :: rest => do
    let a ← inside (.index n) (read _ c)
    return a :: (← readItems c (n + 1) rest)

/-- Read the members of an object whose keys are data. The key is read before its value, at the
same path. -/
def readKeyed {κ α : Type} (key : String → Except Reason κ) (c : Codec α) :
    List Member → Decoder (List (κ × α))
  | [] => pure []
  | m :: rest => do
    let entry ← inside (.key m.key) do
      let k ← accept .invalid (key m.key)
      return (k, ← m.read _ c)
    return entry :: (← readKeyed key c rest)

/-- Read the object of an interface: choose the variant, then read its fields. A fault of a field is
charged to the variant unless it already belongs to one further in. -/
def readVariant (registry : Registry) (i : Interface) (members : List Member) : Decoder i.Value :=
  match registry.table? i with
  | none => fail (⟨·, .unknownVariant i.name .nothingRegistered⟩)
  | some table =>
    match table.select (members.map fun m => (m.key, m.value)) with
    | .error fault => fail (⟨·, fault⟩)
    | .ok v =>
      ExceptT.adapt (.within ⟨i.name, v.name⟩) (v.body.read members registry.interfaceCount)

/-- Read a value, given the readers of what is in it, as a description says. -/
def Codec.readAt (registry : Registry) (v : Json) (items : List Reader) (members : List Member) :
    {α : Type} → Codec α → Decoder α
  | _, .scalar read => accept .refused (read v)
  | _, .nullable c =>
    if v.isNull then pure none else some <$> c.readAt registry v items members
  | _, .list c =>
    match v with
    | .array _ => readItems c 0 items
    | _ => fail (.malformed · (.mismatch "array" v.kind))
  | _, .keyed key c =>
    match v with
    | .object _ => readKeyed key c members
    | _ => fail (.malformed · (.mismatch "object" v.kind))
  | _, .record r =>
    match v with
    | .object _ => r.body.read members registry.interfaceCount
    | _ => fail (.malformed · (.mismatch "object" v.kind))
  | _, .interface i =>
    match v with
    | .object _ => readVariant registry i members
    | _ => fail (.malformed · (.mismatch "object" v.kind))

mutual

/-- The reader of a value. -/
def Json.reader (registry : Registry) : Json → Reader
  | .array items => fun _ c => c.readAt registry (.array items) (readers registry items) []
  | .object members =>
    fun _ c => c.readAt registry (.object members) [] (memberReaders registry members)
  | .null => fun _ c => c.readAt registry .null [] []
  | .bool b => fun _ c => c.readAt registry (.bool b) [] []
  | .number n => fun _ c => c.readAt registry (.number n) [] []
  | .string s => fun _ c => c.readAt registry (.string s) [] []

/-- The readers of the items of an array. -/
def readers (registry : Registry) : List Json → List Reader
  | [] => []
  | v :: rest => v.reader registry :: readers registry rest

/-- The members of an object with their readers. -/
def memberReaders (registry : Registry) : List (String × Json) → List Member
  | [] => []
  | (key, v) :: rest => ⟨key, v, v.reader registry⟩ :: memberReaders registry rest

end

namespace Codec

/-- Decode a value that stands at a path: the outcome, and the path at which reading ends. -/
def run {α : Type} (c : Codec α) (registry : Registry) (p : Path) (v : Json) :
    Except DecodeError α × Path :=
  (v.reader registry _ c).runAt p

/-- Decode a value that stands at a path. -/
def decodeAt {α : Type} (c : Codec α) (registry : Registry) (p : Path) (v : Json) :
    Except DecodeError α :=
  (c.run registry p v).1

/-- Decode a payload. -/
def decode {α : Type} (c : Codec α) (registry : Registry) (v : Json) : Except DecodeError α :=
  c.decodeAt registry .root v

/-- Read a payload and decode it. -/
def decodeFrom {σ α : Type} [Parser σ Json] (c : Codec α) (registry : Registry) (input : σ) :
    Except DecodeError α :=
  match (Parser.parse input : Except String Json) with
  | .ok v => c.decode registry v
  | .error why => .error (.malformed .root (.notJson why))

/-- Decode the text of a payload. -/
def decodeText [Parser String Json] {α : Type} (c : Codec α) (registry : Registry)
    (text : String) : Except DecodeError α :=
  c.decodeFrom registry text

/-- Decode the bytes of a payload. -/
def decodeBytes [Parser ByteArray Json] {α : Type} (c : Codec α) (registry : Registry)
    (bytes : ByteArray) : Except DecodeError α :=
  c.decodeFrom registry bytes

end Codec

/-- A payload's text with the outcome of decoding it. -/
structure BestEffort (α : Type) where
  /-- The text as it came. -/
  raw : String
  /-- The outcome. -/
  result : Except DecodeError α

namespace BestEffort

variable {α : Type}

/-- Decode a text and keep it. -/
def decode [Parser String Json] (c : Codec α) (registry : Registry) (raw : String) :
    BestEffort α :=
  ⟨raw, c.decodeText registry raw⟩

/-- Whether decoding succeeded. -/
def isSuccess (b : BestEffort α) : Bool :=
  match b.result with
  | .ok _ => true
  | .error _ => false

/-- The value, if decoding succeeded. -/
def value? (b : BestEffort α) : Option α :=
  match b.result with
  | .ok a => some a
  | .error _ => none

/-- The error, if decoding failed. -/
def error? (b : BestEffort α) : Option DecodeError :=
  match b.result with
  | .ok _ => none
  | .error e => some e

end BestEffort

end QueryScope
