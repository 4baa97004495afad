import QueryScope.Wire.Codec

/-!
# Registries of variants

The variants of each interface, in the order of their registration, with an index of their tags. A
variant has a name; on an interface with a tag key it also has a tag, and either kind may have a
signature, the keys that an object without a tag needs to be taken for the variant.
-/

namespace QueryScope

/-- One variant of an interface. -/
structure Variant (i : Interface) where
  /-- The variant's name. -/
  name : String
  /-- The value of the tag key that selects it. -/
  tag : Option String
  /-- The keys that select it in an object without a tag. -/
  signature : Option (List String)
  /-- How its object is read. -/
  body : Body i.Value

namespace Variant

variable {i : Interface}

/-- A variant that a tag selects. -/
def tagged (name tag : String) (body : Body i.Value) : Variant i :=
  { name, tag := some tag, signature := none, body }

/-- A variant that its keys select. -/
def structural (name : String) (signature : List String) (body : Body i.Value) : Variant i :=
  { name, tag := none, signature := some signature, body }

/-- The variant with a signature, which selects it where there is no tag. -/
def withSignature (v : Variant i) (signature : List String) : Variant i :=
  { v with signature := some signature }

/-- An optional value as it is described. -/
def describeOption : Option String → String
  | some text => s!"Some({text})"
  | none => "None"

/-- A description of the variant without its body. -/
def describe (v : Variant i) : String :=
  let tag := describeOption (v.tag.map Text.quote)
  let signature := describeOption
    (v.signature.map fun keys => "[" ++ ", ".intercalate (keys.map Text.quote) ++ "]")
  "VariantDef \x7b interface: " ++ Text.quote i.name ++ ", name: " ++ Text.quote v.name ++
    ", tag: " ++ tag ++ ", signature: " ++ signature ++ ", .. \x7d"

end Variant

/-- Why a variant cannot be registered. -/
inductive RegistryError where
  /-- The interface has a variant of that name. -/
  | duplicateVariant (interface variant : String)
  /-- The interface has a variant with that tag. -/
  | duplicateTag (interface tag : String)
  /-- The interface has no tag key and the variant has a tag. -/
  | tagWithoutKey (interface tag : String)
  /-- The interface has a tag key and the variant has no tag. -/
  | missingTag (interface variant : String)
deriving DecidableEq

/-- The wording of a registration's failure. -/
def RegistryError.message : RegistryError → String
  | .duplicateVariant interface variant => s!"{interface}: variant `{variant}` registered twice"
  | .duplicateTag interface tag => s!"{interface}: tag `{tag}` registered twice"
  | .tagWithoutKey interface tag =>
    s!"{interface} has no tag key but variant tag `{tag}` was given"
  | .missingTag interface variant => s!"{interface} is tagged but variant `{variant}` has no tag"

/-- The variants of an interface. -/
structure VariantTable (i : Interface) where
  /-- The variants, in the order of registration. -/
  variants : List (Variant i)
  /-- The position of each tag's variant. -/
  tagIndex : List (String × Nat)

namespace VariantTable

variable {i : Interface}

/-- The table without variants. -/
def empty : VariantTable i := ⟨[], []⟩

/-- The variant of a name. -/
def byName? (t : VariantTable i) (name : String) : Option (Variant i) :=
  t.variants.find? (·.name == name)

/-- The variant of a tag. -/
def byTag? (t : VariantTable i) (tag : String) : Option (Variant i) :=
  match t.tagIndex.find? (·.1 == tag) with
  | some (_, position) => t.variants[position]?
  | none => none

/-- Whether some variant has a tag. -/
def hasTag (t : VariantTable i) (tag : String) : Bool :=
  t.tagIndex.any (·.1 == tag)

/-- Add a variant behind the others. Its name has to be new; a tag is needed exactly on the
interfaces with a tag key, and has to be new there. -/
def insert (t : VariantTable i) (v : Variant i) : Except RegistryError (VariantTable i) :=
  if (t.byName? v.name).isSome then .error (.duplicateVariant i.name v.name)
  else match i.tagKey, v.tag with
    | none, some tag => .error (.tagWithoutKey i.name tag)
    | some _, none => .error (.missingTag i.name v.name)
    | some _, some tag =>
      if t.hasTag tag then .error (.duplicateTag i.name tag)
      else .ok ⟨t.variants ++ [v], t.tagIndex ++ [(tag, t.variants.length)]⟩
    | none, none => .ok ⟨t.variants ++ [v], t.tagIndex⟩

end VariantTable

/-- The tables of the interfaces that have variants. -/
structure Registry where
  /-- The tables, each with its interface. -/
  tables : List ((i : Interface) × VariantTable i)

namespace Registry

/-- The registry without variants. -/
def empty : Registry := ⟨[]⟩

/-- The table of an interface in a list of tables. -/
def lookup (i : Interface) : List ((i : Interface) × VariantTable i) → Option (VariantTable i)
  | [] => none
  | ⟨j, t⟩ :: rest => if h : j = i then some (h ▸ t) else lookup i rest

/-- A list of tables with another table for an interface. -/
def replace (i : Interface) (t : VariantTable i) :
    List ((i : Interface) × VariantTable i) → List ((i : Interface) × VariantTable i)
  | [] => [⟨i, t⟩]
  | ⟨j, u⟩ :: rest => if j = i then ⟨i, t⟩ :: rest else ⟨j, u⟩ :: replace i t rest

/-- The table of an interface, if it has variants. -/
def table? (r : Registry) (i : Interface) : Option (VariantTable i) :=
  lookup i r.tables

/-- The number of interfaces with variants. -/
def interfaceCount (r : Registry) : Nat :=
  r.tables.length

/-- Add a variant to the table of its interface. -/
def register (r : Registry) {i : Interface} (v : Variant i) : Except RegistryError Registry := do
  let t ← ((r.table? i).getD .empty).insert v
  return ⟨replace i t r.tables⟩

/-- Add several variants in order; the first failure ends it. -/
def registerAll (r : Registry) {i : Interface} (vs : List (Variant i)) :
    Except RegistryError Registry :=
  vs.foldlM (fun r v => r.register v) r

/-- A description of a registry, or of one that is being assembled. -/
def describe (noun : String) (r : Registry) : String :=
  noun ++ " \x7b interfaces: " ++ toString r.interfaceCount ++ " \x7d"

end Registry

end QueryScope
