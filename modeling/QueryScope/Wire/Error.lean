import QueryScope.Json.Printer
import QueryScope.Wire.Path

/-!
# Errors of decoding

What is wrong with a payload, and where. A fault of a field names the innermost variant that was
being read when it was found.
-/

namespace QueryScope

/-- Why a payload has the wrong basic shape. -/
inductive Malformation where
  /-- The text is not JSON; the parser says why. -/
  | notJson (why : String)
  /-- A value of one type stands where another is needed. -/
  | mismatch (expected found : String)
  /-- A number with a point or exponent stands where an integer is needed. -/
  | floatForInteger (found : Double)
  /-- The member that names the variant is not a text. -/
  | tagNotString (key : String)
  /-- A binding has neither a column nor a constant. -/
  | unboundArgument
  /-- A reason that a reader outside this library gives. -/
  | other (detail : String)
deriving DecidableEq

/-- The wording of a malformation. -/
def Malformation.message : Malformation → String
  | .notJson why => why
  | .mismatch expected found => s!"expected {expected}, found {found}"
  | .floatForInteger found => s!"expected integer, found float {found.format Json.floatText}"
  | .tagNotString key => s!"tag `{key}` must be a string"
  | .unboundArgument => "argument binding needs `column` or `constant`"
  | .other detail => detail

/-- Why no variant fits an object. -/
inductive Mismatch where
  /-- No variant has the tag. -/
  | tag (key value : String)
  /-- No variant fits the keys. -/
  | keys (names : List String)
  /-- There are no variants. -/
  | nothingRegistered
  /-- A reason that a reader outside this library gives. -/
  | other (detail : String)
deriving DecidableEq

/-- The wording of a mismatch. -/
def Mismatch.message : Mismatch → String
  | .tag key value => s!"{key} = {Text.quote value}"
  | .keys names => "keys [" ++ ", ".intercalate names ++ "]"
  | .nothingRegistered => "no variants registered"
  | .other detail => detail

/-- A variant of an interface, by name. -/
structure VariantRef where
  /-- The interface. -/
  interface : String
  /-- The variant. -/
  variant : String
deriving DecidableEq

/-- Interface and variant with a slash between them. -/
def VariantRef.text (v : VariantRef) : String :=
  s!"{v.interface}/{v.variant}"

/-- What is wrong with a payload. -/
inductive DecodeFault where
  /-- A field breaks its rules, inside a variant if there is one around it. -/
  | validation (fault : FieldFault) (variant : Option VariantRef)
  /-- No variant of an interface fits. -/
  | unknownVariant (interface : String) (mismatch : Mismatch)
  /-- Several variants of an interface fit equally well. -/
  | ambiguousVariant (interface : String) (candidates : List String)
  /-- The basic shape is wrong. -/
  | malformed (malformation : Malformation)
deriving DecidableEq

/-- The wording of a fault. -/
def DecodeFault.message : DecodeFault → String
  | .validation fault variant =>
    let inVariant := match variant with
      | some v => s!" (in {v.text})"
      | none => ""
    s!"validation failed: {fault.message}{inVariant}"
  | .unknownVariant interface mismatch => s!"no {interface} variant matches: {mismatch.message}"
  | .ambiguousVariant interface candidates =>
    s!"ambiguous {interface} payload, candidates: " ++ ", ".intercalate candidates
  | .malformed malformation => s!"malformed payload: {malformation.message}"

/-- A fault inside a variant: a fault of a field belongs to the variant unless it already belongs to
one further in. -/
def DecodeFault.within (v : VariantRef) : DecodeFault → DecodeFault
  | .validation fault none => .validation fault (some v)
  | fault => fault

/-- A fault and where it is. -/
structure DecodeError where
  /-- Where the value stands. -/
  path : Path
  /-- What is wrong with it. -/
  fault : DecodeFault
deriving DecidableEq

/-- The wording of an error. -/
def DecodeError.message (e : DecodeError) : String :=
  s!"{e.fault.message} at {e.path.text}"

/-- An error inside a variant. -/
def DecodeError.within (v : VariantRef) (e : DecodeError) : DecodeError :=
  { e with fault := e.fault.within v }

end QueryScope
