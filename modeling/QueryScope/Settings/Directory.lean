import QueryScope.Settings.Store

/-!
# Settings in files

A directory keeps the text of each key in a file of its own. A new text is first written beside the
file and then put in its place, so a reader never meets half of a text.
-/

namespace QueryScope

namespace FileName

/-- The name without its last dot and what follows it. A dot in front of everything else does not
count. -/
def stem (name : List Char) : List Char :=
  match (name.reverse.dropWhile (· ≠ '.')).drop 1 with
  | [] => name
  | reversed => reversed.reverse

/-- The name with what follows its last dot replaced. -/
def withExtension (name extension : String) : String :=
  String.ofList (stem name.toList) ++ "." ++ extension

/-- Whether a file system takes the name: at most 255 bytes and no NUL among them. -/
def isAdmitted (name : String) : Bool :=
  name.utf8ByteSize ≤ 255 && !name.toList.contains '\x00'

/-- What the file system says of a name that it does not take. -/
def refusal (name : String) : String :=
  if name.toList.contains '\x00' then "file name contained an unexpected NUL byte"
  else "File name too long (os error 36)"

/-- What the file system says of a name under which there is no file. -/
def absence : String := "No such file or directory (os error 2)"

end FileName

/-- The files of a directory with their texts, the names ascending. -/
structure Directory where
  /-- Names and texts. -/
  files : List (String × String) := []

namespace Directory

/-- Whether a key may name a file: it is not empty, leads into no other directory and does not start
with a dot. -/
def isKey (key : String) : Bool :=
  key ≠ "" && !key.toList.contains '/' && !key.toList.contains '\\' && key.toList.head? != some '.'

/-- The file of a key. -/
def fileName (key : String) : String :=
  key ++ ".json"

/-- The file in which a new text of a key is made ready. -/
def stagingName (key : String) : String :=
  FileName.withExtension (fileName key) "json.tmp"

/-- The file of a key that may name one. -/
def file (key : String) : StoreM Directory String :=
  if isKey key then return fileName key else throw (.invalidKey key)

/-- Write a text to a file. -/
def write (name text : String) : StoreM Directory Unit := do
  if FileName.isAdmitted name then modify fun d => { d with files := putText name text d.files }
  else throw (.io (FileName.refusal name))

/-- Give a file another name, in place of any file of that name. -/
def rename (source target : String) : StoreM Directory Unit := do
  match textUnder? source (← get).files with
  | none => throw (.io FileName.absence)
  | some text =>
    modify fun d =>
      { d with files := putText target text (d.files.filter fun f => f.1 ≠ source) }

instance : Store Directory where
  loadText key := do
    let name ← file key
    if FileName.isAdmitted name then
      match textUnder? name (← get).files with
      | some text => return text
      | none => throw .notFound
    else throw (.io (FileName.refusal name))
  saveText key text := do
    let name ← file key
    write (stagingName key) text
    rename (stagingName key) name

end Directory

end QueryScope
