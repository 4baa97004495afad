/-!
# Checked computations

Counts have a fixed number of bits, and no text has more bytes than a signed count of 64 bits can
tell. A computation that gets beyond is given up, and the program with it. Within these bounds
memory is taken to suffice.
-/

namespace QueryScope

/-- The result of a computation, or nothing where it is given up. -/
abbrev Checked (α : Type) := Option α

/-- The number after a number of 32 bits. -/
def Checked.next (n : UInt32) : Checked UInt32 :=
  if n.toNat + 1 < UInt32.size then some (n + 1) else none

/-- The size of the largest texts, in bytes. -/
def maxTextSize : Nat := 9223372036854775807

/-- A text of spaces. A count that needs more than 64 bits is beyond the largest texts, too. -/
def Checked.spaces (count : Nat) : Checked String :=
  if count ≤ maxTextSize then some (String.ofList (List.replicate count ' ')) else none

/-- A text that is no larger than the largest texts. -/
structure BoundedText where
  /-- The text. -/
  text : String
  /-- It has no more bytes than it may have. -/
  size_le : text.utf8ByteSize ≤ maxTextSize

namespace BoundedText

/-- The text without characters. -/
def empty : BoundedText := ⟨"", by decide⟩

/-- The text with another one behind it. -/
def append (t : BoundedText) (rest : String) : Checked BoundedText :=
  if h : (t.text ++ rest).utf8ByteSize ≤ maxTextSize then some ⟨t.text ++ rest, h⟩ else none

end BoundedText

end QueryScope
