import QueryScope.Text.Hidden

/-!
# Quoted text in messages

A text or character from a payload is shown between quotes, with the quote, the backslash and
everything without a visible form escaped, so that a message shows exactly which text it is about.
-/

namespace QueryScope.Text

/-- One character between `delimiter`s: five have short escapes, the delimiter and the backslash
follow a backslash, and the other characters without a visible form are written by code point. -/
def escapeChar (delimiter c : Char) : List Char :=
  match c with
  | '\x00' => ['\\', '0']
  | '\t' => ['\\', 't']
  | '\r' => ['\\', 'r']
  | '\n' => ['\\', 'n']
  | '\\' => ['\\', '\\']
  | c =>
    if c = delimiter then ['\\', c]
    else if isHidden c then '\\' :: 'u' :: '\x7b' :: (Nat.toDigits 16 c.toNat ++ ['\x7d'])
    else [c]

/-- A text between double quotes. -/
def quote (text : String) : String :=
  String.ofList ('"' :: (text.toList.flatMap (escapeChar '"') ++ ['"']))

/-- A character between single quotes. -/
def quoteChar (c : Char) : String :=
  String.ofList ('\'' :: (escapeChar '\'' c ++ ['\'']))

end QueryScope.Text
