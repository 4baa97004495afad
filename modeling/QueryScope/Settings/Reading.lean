import QueryScope.Json.Skip
import QueryScope.Settings.Preferences

/-!
# Reading preferences

A group of settings is an object with a member for each setting, or an array of the settings in
their order. A setting that is left out keeps its default; in an object, a setting may not be given
twice and members of other names are passed over.
-/

namespace QueryScope

/-- A setting of a group: its name, and how to read its value and put it into the group. -/
structure Setting (α : Type) where
  /-- The key of the member. -/
  name : String
  /-- Read the value at the front of a text; what follows it comes back with the changed group. -/
  read : α → List Char → Option (α × List Char)

namespace Setting

open Json (skipBlanks skipWord? string? numberText? skipValue?)

/-- Read a truth value. -/
def bool? (text : List Char) : Option (Bool × List Char) :=
  match skipBlanks text with
  | 't' :: rest => (skipWord? "rue".toList rest).map (true, ·)
  | 'f' :: rest => (skipWord? "alse".toList rest).map (false, ·)
  | _ => none

/-- Read a count: an integer that is written without sign, point and exponent and fits 64 bits. -/
def count? (text : List Char) : Option (UInt64 × List Char) := do
  let (n, rest) ← numberText? (skipBlanks text)
  let magnitude := digitsValue n.literal.whole
  if n.isWhole ∧ ¬n.literal.negative ∧ magnitude < UInt64.size then
    some (UInt64.ofNat magnitude, rest)
  else none

variable {α : Type}

/-- Read settings in their order from an array after its opening bracket; `first` tells whether the
next one is the first. -/
def readInOrder? (first : Bool) (group : α) : List (Setting α) → List Char → Option (α × List Char)
  | settings, text =>
    match skipBlanks text, settings with
    | ']' :: rest, _ => some (group, rest)
    | _, [] => none
    | ',' :: rest, setting :: settings =>
      if first then none
      else match setting.read group rest with
        | none => none
        | some (group, rest) => readInOrder? false group settings rest
    | rest, setting :: settings =>
      if first then
        match setting.read group rest with
        | none => none
        | some (group, rest) => readInOrder? false group settings rest
      else none

/-- Read one member; `seen` holds the names of the settings that have been read. -/
def readMember? (settings : List (Setting α)) (limit : Nat) (group : α) (seen : List String)
    (text : List Char) : Option (α × List String × List Char) :=
  match string? limit (skipBlanks text) with
  | none => none
  | some (key, rest) =>
    match skipBlanks rest with
    | ':' :: rest =>
      match settings.find? (·.name = key) with
      | none => (skipValue? limit limit rest).map fun rest => (group, seen, rest)
      | some setting =>
        if key ∈ seen then none
        else (setting.read group rest).map fun (group, rest) => (group, key :: seen, rest)
    | _ => none

/-- Read the members of an object from one member on. -/
def readMembers? (settings : List (Setting α)) (limit : Nat) :
    (fuel : Nat) → (group : α) → (seen : List String) → List Char → Option (α × List Char)
  | 0, _, _, _ => none
  | fuel + 1, group, seen, text =>
    match readMember? settings limit group seen text with
    | none => none
    | some (group, seen, rest) =>
      match skipBlanks rest with
      | ',' :: rest => readMembers? settings limit fuel group seen rest
      | '\x7d' :: rest => some (group, rest)
      | _ => none

/-- Read a group that starts from its defaults. -/
def readGroup? (settings : List (Setting α)) (defaults : α) (limit : Nat) (text : List Char) :
    Option (α × List Char) :=
  match skipBlanks text with
  | '[' :: rest => readInOrder? true defaults settings rest
  | '\x7b' :: rest =>
    match skipBlanks rest with
    | '\x7d' :: rest => some (defaults, rest)
    | rest => readMembers? settings limit limit defaults [] rest
  | _ => none

end Setting

namespace Preferences

/-- The settings of decoding. -/
def decodeSettings : List (Setting DecodePreferences) := [
  ⟨"best_effort", fun p text => (Setting.bool? text).map fun (b, rest) =>
    ({ p with bestEffort := b }, rest)⟩,
  ⟨"pretty", fun p text => (Setting.bool? text).map fun (b, rest) =>
    ({ p with pretty := b }, rest)⟩]

/-- The settings of plan listings. -/
def planSettings : List (Setting PlanPreferences) := [
  ⟨"show_layout", fun p text => (Setting.bool? text).map fun (b, rest) =>
    ({ p with showLayout := b }, rest)⟩,
  ⟨"indent", fun p text => (Setting.count? text).map fun (n, rest) =>
    ({ p with indent := n }, rest)⟩]

/-- The two groups of settings. -/
def settings (limit : Nat) : List (Setting Preferences) := [
  ⟨"decode", fun p text => (Setting.readGroup? decodeSettings {} limit text).map fun (d, rest) =>
    ({ p with decode := d }, rest)⟩,
  ⟨"plan", fun p text => (Setting.readGroup? planSettings {} limit text).map fun (l, rest) =>
    ({ p with plan := l }, rest)⟩]

/-- Read preferences from a text that holds nothing else but blanks. -/
def parse? (text : String) : Option Preferences :=
  let chars := text.toList
  let limit := chars.length + 1
  match Setting.readGroup? (settings limit) {} limit chars with
  | some (p, rest) => if Json.skipBlanks rest = [] then some p else none
  | none => none

/-- What the parser says of any other text. -/
def refusal : String := "the text holds no preferences"

instance : Parser String Preferences := .ofOption refusal parse?

end Preferences

end QueryScope
