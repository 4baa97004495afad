import QueryScope.Settings.Reading
import QueryScope.Text.Quoted

/-!
# Stores of settings

A store keeps texts under keys. On top of any store, preferences are kept as JSON; an empty text
counts as none.
-/

namespace QueryScope

/-- Why a store does not answer as asked. -/
inductive StoreError where
  /-- There is nothing under the key. -/
  | notFound
  /-- The file system refuses, and says why. -/
  | io (why : String)
  /-- The text under the key cannot be read; the parser says why. -/
  | corrupt (key why : String)
  /-- The key cannot name a file. -/
  | invalidKey (key : String)
  /-- The store is set to fail when it is read. -/
  | loadsFail
  /-- The store is set to fail when it is written. -/
  | savesFail
deriving DecidableEq

/-- The wording of the error. -/
def StoreError.message : StoreError → String
  | .notFound => "not found"
  | .io why => s!"io error: {why}"
  | .corrupt key why => s!"config `{key}` is unreadable: {why}"
  | .invalidKey key => s!"other: invalid config key {Text.quote key}"
  | .loadsFail => "other: simulated load failure"
  | .savesFail => "other: simulated save failure"

/-- A use of a store, which can change the store even when it fails. -/
abbrev StoreM (σ α : Type) := ExceptT StoreError (StateM σ) α

/-- The result of a use and the store after it. -/
def StoreM.runOn {σ α : Type} (use : StoreM σ α) (store : σ) : Except StoreError α × σ :=
  StateT.run (ExceptT.run use) store

/-- A type of stores. -/
class Store (σ : Type) where
  /-- The text under a key. -/
  loadText : String → StoreM σ String
  /-- Put a text under a key in place of any other. -/
  saveText : String → String → StoreM σ Unit

namespace Store

variable {σ : Type} [Store σ]

/-- What a reader makes of the text under a key; nothing when there is no text. -/
def loadWith {α : Type} (read : String → Except String α) (key : String) :
    StoreM σ (Option α) := do
  let text ← tryCatch (loadText key) fun
    | .notFound => pure ""
    | error => throw error
  if text = "" then return none
  match read text with
  | .ok a => return some a
  | .error why => throw (.corrupt key why)

/-- The preferences under a key, if there are any. -/
def load [Parser String Preferences] (key : String) : StoreM σ (Option Preferences) :=
  loadWith Parser.parse key

/-- The preferences under a key, or the defaults. -/
def loadOrDefault [Parser String Preferences] (key : String) : StoreM σ Preferences :=
  return (← load key).getD {}

/-- Keep preferences under a key. -/
def save (key : String) (p : Preferences) : StoreM σ Unit :=
  saveText key p.text

end Store

/-! ## In memory -/

/-- Put a text under a key into a list of texts with ascending keys. -/
def putText (key text : String) : List (String × String) → List (String × String)
  | [] => [(key, text)]
  | (k, t) :: rest =>
    if key < k then (key, text) :: (k, t) :: rest
    else if key = k then (key, text) :: rest
    else (k, t) :: putText key text rest

/-- The text under a key. -/
def textUnder? (key : String) (texts : List (String × String)) : Option String :=
  (texts.find? (·.1 = key)).map (·.2)

/-- A store that lasts as long as the program, counts its uses and can be set to fail. -/
structure MemoryStore where
  /-- The texts, with ascending keys. -/
  texts : List (String × String) := []
  /-- How often the store was read, failures included. -/
  loads : Nat := 0
  /-- How often the store was written, failures included. -/
  saves : Nat := 0
  /-- Whether reading fails. -/
  loadsFail : Bool := false
  /-- Whether writing fails. -/
  savesFail : Bool := false

instance : Store MemoryStore where
  loadText key := do
    modify fun s => { s with loads := s.loads + 1 }
    let store ← get
    if store.loadsFail then throw .loadsFail
    match textUnder? key store.texts with
    | some text => return text
    | none => throw .notFound
  saveText key text := do
    modify fun s => { s with saves := s.saves + 1 }
    let store ← get
    if store.savesFail then throw .savesFail
    set { store with texts := putText key text store.texts }

end QueryScope
