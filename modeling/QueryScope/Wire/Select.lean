import QueryScope.Wire.Registry

/-!
# Choosing a variant

If the interface has a tag key and the object has it, the tag decides. Otherwise a variant is a
candidate when the object has every key of its signature, and the one whose signature contains those
of all other candidates is chosen.
-/

namespace QueryScope

/-- Whether an object has a key. -/
def hasKey (members : List (String × Json)) (key : String) : Bool :=
  members.any (·.1 == key)

/-- Whether the keys of one signature are among those of another, which has more. -/
def isStrictSubset (inner outer : List String) : Bool :=
  inner.all outer.contains && outer.any fun key => !inner.contains key

namespace VariantTable

variable {i : Interface}

/-- The variants whose signature the object has, each with its signature. -/
def candidates (t : VariantTable i) (members : List (String × Json)) :
    List (Variant i × List String) :=
  t.variants.filterMap fun v =>
    match v.signature with
    | some keys => if keys.all (hasKey members) then some (v, keys) else none
    | none => none

/-- The candidates whose signature is not a strict subset of another candidate's. -/
def greatest (candidates : List (Variant i × List String)) : List (Variant i) :=
  (candidates.filter fun c => !candidates.any fun other => isStrictSubset c.2 other.2).map (·.1)

/-- Choose by the keys of the object. -/
def selectByKeys (t : VariantTable i) (members : List (String × Json)) :
    Except DecodeFault (Variant i) :=
  match greatest (t.candidates members) with
  | [only] => .ok only
  | [] => .error (.unknownVariant i.name (.keys (members.map (·.1))))
  | several => .error (.ambiguousVariant i.name (several.map (·.name)))

/-- Choose by the value of the tag key. -/
def selectByTag (t : VariantTable i) (key : String) (tag : Json) :
    Except DecodeFault (Variant i) :=
  match tag with
  | .string tag =>
    match t.byTag? tag with
    | some v => .ok v
    | none => .error (.unknownVariant i.name (.tag key tag))
  | _ => .error (.malformed (.tagNotString key))

/-- Choose the variant of an object. -/
def select (t : VariantTable i) (members : List (String × Json)) :
    Except DecodeFault (Variant i) :=
  match i.tagKey with
  | none => t.selectByKeys members
  | some key =>
    match Json.lookup members key with
    | some tag => t.selectByTag key tag
    | none => t.selectByKeys members

end VariantTable

end QueryScope
