/-!
# Quoting in SQL

A text between quotes has its own quotes written twice, so the first quote that stands alone ends
it. An identifier that is a plain lower-case word needs no quotes.
-/

namespace QueryScope.Sql

/-- The characters with every `mark` among them written twice. -/
def doubled (mark : Char) : List Char → List Char
  | [] => []
  | c :: rest => if c = mark then mark :: mark :: doubled mark rest else c :: doubled mark rest

/-- The characters between two `mark`s. -/
def delimited (mark : Char) (chars : List Char) : List Char :=
  mark :: (doubled mark chars ++ [mark])

/-- A text as a string literal. -/
def quoteString (text : String) : String :=
  String.ofList (delimited '\'' text.toList)

/-- A character that may start a plain word. -/
def isWordStart (c : Char) : Bool :=
  c.isLower || c == '_'

/-- A character of a plain word. -/
def isWordChar (c : Char) : Bool :=
  isWordStart c || c.isDigit

/-- A word that needs no quotes as an identifier. -/
def isPlainWord : List Char → Bool
  | [] => false
  | c :: rest => isWordStart c && rest.all isWordChar

/-- A name as an identifier. -/
def quoteIdentifier (name : String) : String :=
  if isPlainWord name.toList then name else String.ofList (delimited '"' name.toList)

end QueryScope.Sql
