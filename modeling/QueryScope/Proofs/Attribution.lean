import QueryScope.Proofs.ErrorOrigin

/-!
# The variant that an error is charged to

Every abstract position that decoding has entered charges the faults of fields that come out of it
to its variant, unless they are charged already. What is left at the end is the innermost of the
positions that the path of the error leads through.
-/

namespace QueryScope

open QueryScope.Path (Segment)

variable {α : Type} {c : Codec α} {v : Json} {e : DecodeError} {s : Segment} {part : Part}
  {place path : List Segment} {ref : VariantRef}

/-- Decoding a part comes to another one inside it, at a place. -/
def Part.Reaches : Part → List Segment → Part → Prop
  | part, [], inner => inner = part
  | part, s :: place, inner =>
    ∃ next, part.codec.ComesTo part.value s next ∧ next.Reaches place inner

/-- Decoding the value enters the variant of an object at an abstract position, which is found at a
place. -/
def Codec.EntersAt (c : Codec α) (v : Json) (place : List Segment) (ref : VariantRef) : Prop :=
  ∃ part, (Part.mk c v).Reaches place part ∧ part.codec.entered? part.value = some ref

theorem Codec.entersAt_nil : c.EntersAt v [] ref ↔ c.entered? v = some ref := by
  simp [EntersAt, Part.Reaches]

theorem Codec.entersAt_cons (hv : v.WellFormed) (h : c.ComesTo v s part) :
    c.EntersAt v (s :: place) ref ↔ part.codec.EntersAt part.value place ref := by
  constructor
  · rintro ⟨inner, ⟨next, hnext, hreaches⟩, hentered⟩
    obtain rfl := hnext.unique hv h
    exact ⟨inner, hreaches, hentered⟩
  · rintro ⟨inner, hreaches, hentered⟩
    exact ⟨inner, ⟨part, h, hreaches⟩, hentered⟩

theorem Codec.entered?_of_not_isInterface (h : c.isInterface = false) : c.entered? v = none := by
  induction c with
  | nullable c ih =>
    rw [entered?, ih h, ite_self]
  | interface i => cases h
  | _ => rfl

/-! ## The innermost position on a path -/

/-- The variant is entered at a place on the path, and none at any longer one; there is no variant
when none is entered anywhere on the path. -/
def Innermost (enters : List Segment → VariantRef → Prop) (path : List Segment) :
    Option VariantRef → Prop
  | none => ∀ place ref, place <+: path → ¬enters place ref
  | some ref => ∃ place, place <+: path ∧ enters place ref ∧
      ∀ place' ref', place' <+: path → enters place' ref' →
        place'.length < place.length ∨ (place' = place ∧ ref' = ref)

namespace Innermost

variable {enters : List Segment → VariantRef → Prop} {ref? here? : Option VariantRef}

/-- Only the start of the path is an abstract position. -/
theorem of_start (hhere : ∀ ref, enters [] ref ↔ here? = some ref)
    (h : ∀ place ref, place <+: path → enters place ref → place = []) :
    Innermost enters path here? := by
  cases hh : here? with
  | none =>
    intro place ref hplace henters
    obtain rfl := h place ref hplace henters
    rw [hhere, hh] at henters
    cases henters
  | some ref =>
    refine ⟨[], List.nil_prefix, (hhere ref).mpr hh, fun place' ref' hplace henters => Or.inr ?_⟩
    obtain rfl := h place' ref' hplace henters
    rw [hhere, hh] at henters
    cases henters
    exact ⟨rfl, rfl⟩

/-- One step outwards, the position at the start counts only when there is none further in. -/
theorem behind (hhere : ∀ ref, enters [] ref ↔ here? = some ref)
    (h : Innermost (fun place => enters (s :: place)) path ref?) :
    Innermost enters (s :: path) (ref?.or here?) := by
  cases ref? with
  | none =>
    refine of_start hhere fun place ref hplace henters => ?_
    rcases List.prefix_cons_iff.mp hplace with rfl | ⟨rest, rfl, hrest⟩
    · rfl
    · exact absurd henters (h rest ref hrest)
  | some ref =>
    obtain ⟨place, hplace, henters, hlongest⟩ := h
    refine ⟨s :: place, List.prefix_cons_inj s |>.mpr hplace, henters, fun place' ref' hp he => ?_⟩
    rcases List.prefix_cons_iff.mp hp with rfl | ⟨rest, rfl, hrest⟩
    · exact Or.inl (by simp)
    · rcases hlongest rest ref' hrest he with hlt | ⟨rfl, rfl⟩
      · exact Or.inl (by simpa using hlt)
      · exact Or.inr ⟨rfl, rfl⟩

end Innermost

/-! ## Faults of fields -/

/-- An error of a value is charged to the innermost variant that decoding entered on its path. -/
theorem Codec.charged_innermost (hv : v.WellFormed) (h : c.decode .standard v = .error e)
    {fault : FieldFault} {variant : Option VariantRef}
    (hfault : e.fault = .validation fault variant) :
    Innermost (c.EntersAt v) e.path.segments variant := by
  induction v using Json.part_induction generalizing α e fault variant with
  | step v ih =>
    obtain ⟨e₀, hcases, rfl⟩ := c.decode_error h
    obtain ⟨own, hown, rfl⟩ := DecodeError.charged_validation hfault
    rw [DecodeError.charged_path]
    have hhere (ref : VariantRef) : c.EntersAt v [] ref ↔ c.entered? v = some ref := c.entersAt_nil
    rcases hcases with ⟨s, part, hpart, hfails⟩ | hraised
    · -- what the part has charged stays; the variant of this value counts only where it has not
      obtain ⟨e₁, he₁, rfl⟩ := Part.failsBehind_iff.mp hfails
      obtain ⟨fault₁, hfault₁, -, -⟩ := DecodeError.relocate_validation hown
      have hinner := ih c s part hpart (hv.of_comesTo hpart) he₁ hfault₁
      have henters : (fun place => c.EntersAt v (s :: place)) = part.codec.EntersAt part.value := by
        funext place ref
        exact propext (Codec.entersAt_cons hv hpart)
      rw [← henters] at hinner
      exact hinner.behind hhere
    · -- no part on the path is an abstract position, so that only the value itself counts
      obtain rfl := hraised.unattributed _ _ hown
      rw [Option.none_or]
      refine .of_start hhere fun place ref hplace henters => ?_
      rcases hraised.place with hroot | ⟨s, hs, hparts⟩
      · rw [hroot] at hplace
        exact List.prefix_nil.mp hplace
      · rw [hs] at hplace
        rcases List.prefix_cons_iff.mp hplace with rfl | ⟨rest, rfl, hrest⟩
        · rfl
        · obtain rfl := List.prefix_nil.mp hrest
          obtain ⟨part, ⟨next, hnext, rfl⟩, hentered⟩ := henters
          rw [Codec.entered?_of_not_isInterface (hparts _ hnext)] at hentered
          cases hentered

/-! ## Other faults -/

theorem DecodeError.charged_of_not_validation {ref? : Option VariantRef}
    (h : ∀ fault variant, e.fault ≠ .validation fault variant) : e.charged ref? = e := by
  obtain ⟨path, efault⟩ := e
  cases ref? with
  | none => rfl
  | some ref =>
    cases efault with
    | validation fault variant => exact absurd rfl (h fault variant)
    | _ => rfl

/-- A fault that is not one of a field comes out of any number of positions unchanged. -/
theorem Part.Reaches.decode_error {whole : Part} (h : whole.Reaches place part)
    (he : part.codec.decodeAt .standard ⟨place⟩ part.value = .error e)
    (hfault : ∀ fault variant, e.fault ≠ .validation fault variant) :
    whole.codec.decode .standard whole.value = .error e := by
  induction place generalizing whole e with
  | nil =>
    obtain rfl := h
    exact he
  | cons s place ih =>
    obtain ⟨next, hnext, hreaches⟩ := h
    -- the same error, seen from one step further in, is an error of the next part
    have hplace : ⟨s :: place⟩ = (Path.root.child s).append ⟨place⟩ := rfl
    rw [hplace, relocatable Registry.described_standard part.value] at he
    obtain ⟨e₁, he₁, rfl⟩ := mapError_eq_error_iff.mp he
    have hfault₁ (fault : FieldFault) (variant : Option VariantRef) :
        e₁.fault ≠ .validation fault variant := by
      intro h
      exact hfault ⟨_, _⟩ variant (by simp only [DecodeError.relocate, h]; rfl)
    have hfails : next.FailsBehind s (e₁.relocate (Path.root.child s)) :=
      Part.failsBehind_iff.mpr ⟨e₁, ih hreaches he₁ hfault₁, rfl⟩
    rw [Codec.decode_of_comesTo hnext hfails, DecodeError.charged_of_not_validation hfault]

/-- A fault of a field is charged to the variant of the innermost abstract position that decoding
has entered on the path of the error, and to none when there is no such position. Every other error
that decoding comes to, at whatever place, is the error of the whole. -/
theorem decode_error_attributed {c : Codec α} {P : Json} (hP : P.WellFormed) :
    (∀ e fault variant, c.decode .standard P = .error e → e.fault = .validation fault variant →
      Innermost (c.EntersAt P) e.path.segments variant) ∧
    ∀ place part e, (Part.mk c P).Reaches place part →
      part.codec.decodeAt .standard ⟨place⟩ part.value = .error e →
      (∀ fault variant, e.fault ≠ .validation fault variant) → c.decode .standard P = .error e :=
  ⟨fun _ _ _ he hfault => Codec.charged_innermost hP he hfault,
    fun _ _ _ hreaches he hfault => hreaches.decode_error he hfault⟩

/-- A filter of no rows. -/
def PlanNode.filterPayload (predicate : Json) : Json :=
  .object [("@type", .string "filter"), ("id", .string "2"), ("predicate", predicate),
    ("source", .object [("@type", .string "values"), ("id", .string "1"),
      ("outputSymbols", .array []), ("rows", .array [])])]

/-- The negation of a parameter whose position is negative. -/
def Expression.refusedPayload : Json :=
  .object [("@type", .string "not"),
    ("value", .object [("@type", .string "parameter"), ("position", .ofInt64 (-1))])]

/-- An object whose tag no kind of expression has. -/
def Expression.strangePayload : Json :=
  .object [("@type", .string "mod")]

/-- The error with which a filter by the negation is refused. -/
def Expression.refusal : DecodeError :=
  ⟨⟨[.field "predicate", .field "value", .field "position"]⟩,
    .validation ⟨"position", .negative (-1)⟩ (some ⟨"Expression", "parameter"⟩)⟩

theorem PlanNode.comesTo_predicate {predicate : Json} (h : predicate.isNull = false) :
    sourceCodec.ComesTo (filterPayload predicate) (.field "predicate")
      ⟨Expression.operandCodec, predicate⟩ := by
  have hsource : sourceCodec.Reads (.object [("@type", .string "values"), ("id", .string "1"),
      ("outputSymbols", .array []), ("rows", .array [])]) (.values ⟨"1", by decide⟩ [] []) :=
    Codec.reads_interface.mpr ⟨_, _, rfl, rfl, rfl, Body.reads_record.mpr
      ⟨_, ⟨_, rfl, rfl⟩, _, ⟨_, rfl, rfl⟩, _, ⟨_, rfl, rfl⟩, rfl⟩⟩
  refine ⟨_, _, rfl, rfl, Or.inr ⟨?_, rfl, predicate, ?_, rfl⟩⟩
  · exact ⟨⟨"2", by decide⟩, ⟨_, rfl, rfl⟩, _, ⟨_, rfl, hsource⟩, trivial⟩
  · exact Json.present?_eq_some_iff.mpr ⟨rfl, h⟩

theorem Expression.decode_refusedPayload :
    PlanNode.sourceCodec.decode .standard (PlanNode.filterPayload refusedPayload) =
      .error refusal := by
  rfl

theorem decode_error_attributed_filter :
    (PlanNode.filterPayload Expression.refusedPayload).WellFormed ∧
      Innermost (PlanNode.sourceCodec.EntersAt (PlanNode.filterPayload Expression.refusedPayload))
        [.field "predicate", .field "value", .field "position"] (some ⟨"Expression", "parameter"⟩) ∧
      (PlanNode.filterPayload Expression.strangePayload).WellFormed ∧
      PlanNode.sourceCodec.decode .standard (PlanNode.filterPayload Expression.strangePayload) =
        .error ⟨⟨[.field "predicate"]⟩, .unknownVariant "Expression" (.tag "@type" "mod")⟩ := by
  refine ⟨by decide, ?_, by decide, ?_⟩
  · exact (decode_error_attributed (by decide)).1 _ _ _ Expression.decode_refusedPayload rfl
  · have hreaches : (Part.mk PlanNode.sourceCodec
        (PlanNode.filterPayload Expression.strangePayload)).Reaches [.field "predicate"]
          ⟨Expression.operandCodec, Expression.strangePayload⟩ :=
      ⟨_, PlanNode.comesTo_predicate rfl, rfl⟩
    refine (decode_error_attributed (by decide)).2 _ _ _ hreaches rfl fun fault variant h => ?_
    cases h

end QueryScope
