import QueryScope.Json.Parser

/-!
# Passing over JSON

A value that nobody asks for is passed over by its grammar alone: it may nest to any depth, its
numbers may be of any size and its escapes may name any code unit. `limit` is above the length of
the whole text.
-/

namespace QueryScope.Json

/-- Pass over what follows a backslash. -/
def skipEscape? : List Char → Option (List Char)
  | 'u' :: rest => (hexUnit? rest).map (·.2)
  | c :: rest => if c ∈ ['"', '\\', '/', 'b', 'f', 'n', 'r', 't'] then some rest else none
  | [] => none

/-- Pass over a string after its opening quote. -/
def skipStringBody? : (fuel : Nat) → List Char → Option (List Char)
  | 0, _ => none
  | _ + 1, [] => none
  | fuel + 1, c :: rest =>
    if c = '"' then some rest
    else if c = '\\' then (skipEscape? rest).bind (skipStringBody? fuel)
    else if c.toNat < 0x20 then none
    else skipStringBody? fuel rest

/-- Pass over a string. -/
def skipString? (limit : Nat) : List Char → Option (List Char)
  | '"' :: rest => skipStringBody? limit rest
  | _ => none

mutual

/-- Pass over a value, blanks in front allowed. -/
def skipValue? (limit : Nat) : (fuel : Nat) → List Char → Option (List Char)
  | 0, _ => none
  | fuel + 1, text =>
    match skipBlanks text with
    | [] => none
    | '"' :: rest => skipStringBody? limit rest
    | '[' :: rest =>
      match skipBlanks rest with
      | ']' :: rest => some rest
      | rest => skipItems? limit fuel rest
    | '\x7b' :: rest =>
      match skipBlanks rest with
      | '\x7d' :: rest => some rest
      | rest => skipMembers? limit fuel rest
    | 'n' :: rest => skipWord? "ull".toList rest
    | 't' :: rest => skipWord? "rue".toList rest
    | 'f' :: rest => skipWord? "alse".toList rest
    | rest => (numberText? rest).map (·.2)

/-- Pass over the items of an array from one item on. -/
def skipItems? (limit : Nat) : (fuel : Nat) → List Char → Option (List Char)
  | 0, _ => none
  | fuel + 1, text =>
    match skipValue? limit fuel text with
    | none => none
    | some rest =>
      match skipBlanks rest with
      | ',' :: rest => skipItems? limit fuel rest
      | ']' :: rest => some rest
      | _ => none

/-- Pass over the members of an object from one member on. -/
def skipMembers? (limit : Nat) : (fuel : Nat) → List Char → Option (List Char)
  | 0, _ => none
  | fuel + 1, text =>
    match skipString? limit (skipBlanks text) with
    | none => none
    | some rest =>
      match skipBlanks rest with
      | ':' :: rest =>
        match skipValue? limit fuel rest with
        | none => none
        | some rest =>
          match skipBlanks rest with
          | ',' :: rest => skipMembers? limit fuel rest
          | '\x7d' :: rest => some rest
          | _ => none
      | _ => none

end

end QueryScope.Json
