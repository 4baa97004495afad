import QueryScope.Proofs.Json.Place
import QueryScope.Proofs.Reading

/-!
# Errors point into the payload

What the path and the fault of an error say about the payload that was decoded. An error of a part
is an error of the whole when its path is led through the step to the part.
-/

namespace QueryScope

variable {α β : Type} {c : Codec α} {v w : Json} {e : DecodeError} {s : Path.Segment}

/-- The error is that a required field has no value. -/
def DecodeError.IsMissing (e : DecodeError) : Prop :=
  ∃ field variant, e.fault = .validation ⟨field, .missing⟩ variant

/-- The error points at the place in the payload that is wrong. -/
structure DecodeError.LocatedIn (e : DecodeError) (v : Json) : Prop where
  /-- A missing field is absent or `null` in the object that its path leads to. -/
  missing : e.IsMissing → ∃ place name members, e.path.segments = place ++ [.field name] ∧
    v.follow place = some (.object members) ∧
      (Json.lookup members name = none ∨ Json.lookup members name = some .null)
  /-- Any other error stands at a value. -/
  present : ¬e.IsMissing → ∃ w, v.follow e.path.segments = some w
  /-- The field that is reported is the innermost one of the path. -/
  field : ∀ fault variant, e.fault = .validation fault variant → fault.field = e.path.currentField
  /-- A count that is refused as negative is the negative integer that stands there. -/
  negative : ∀ field k variant, e.fault = .validation ⟨field, .negative k⟩ variant →
    ∃ n, v.follow e.path.segments = some (.number (.integer n)) ∧ n.val = k.toInt ∧ k < 0

/-- Whatever error decoding the value ends with points into the value. -/
def Codec.Locates (c : Codec α) (v : Json) : Prop :=
  ∀ e, c.decode .standard v = .error e → e.LocatedIn v

/-! ## Faults at a value itself -/

namespace DecodeError.LocatedIn

theorem of_present (hpath : e.path = .root)
    (h : ∀ fault variant, e.fault ≠ .validation fault variant) : e.LocatedIn v where
  missing := fun ⟨_, _, hf⟩ => absurd hf (h _ _)
  present _ := ⟨v, by rw [hpath]; rfl⟩
  field _ _ hf := absurd hf (h _ _)
  negative _ _ _ hf := absurd hf (h _ _)

theorem malformed (m : Malformation) : (DecodeError.malformed .root m).LocatedIn v :=
  of_present rfl fun _ _ h => by cases h

/-! ## Steps -/

theorem relocate (h : e.LocatedIn w) (hs : v.step? s = some w) :
    (e.relocate (Path.root.child s)).LocatedIn v := by
  have hfollow (place : List Path.Segment) : v.follow (s :: place) = w.follow place := by
    rw [Json.follow, hs, Option.bind_some]
  have hpath : (e.relocate (Path.root.child s)).path.segments = s :: e.path.segments := rfl
  have hmissing : (e.relocate (Path.root.child s)).IsMissing ↔ e.IsMissing := by
    constructor
    · rintro ⟨field, variant, hf⟩
      obtain ⟨⟨field', reason⟩, hf', hreason, -⟩ := relocate_validation hf
      cases hreason
      exact ⟨field', variant, hf'⟩
    · rintro ⟨field, variant, hf⟩
      exact ⟨_, variant, by simp only [DecodeError.relocate, hf]; rfl⟩
  refine ⟨fun hm => ?_, fun hm => ?_, fun fault variant hf => ?_, fun field k variant hf => ?_⟩
  · obtain ⟨place, name, members, hplace, hmembers, hname⟩ := h.missing (hmissing.mp hm)
    refine ⟨s :: place, name, members, ?_, ?_, hname⟩
    · rw [hpath, hplace, List.cons_append]
    · rw [hfollow, hmembers]
  · rw [hpath, hfollow]
    exact h.present fun hm' => hm (hmissing.mpr hm')
  · obtain ⟨fault', hf', -, hfield⟩ := relocate_validation hf
    rw [hfield, h.field fault' variant hf']
    exact (Path.currentField_append _ _).symm
  · obtain ⟨⟨field', reason⟩, hf', hreason, -⟩ := relocate_validation hf
    cases hreason
    rw [hpath, hfollow]
    exact h.negative field' k variant hf'

theorem within (ref : VariantRef) (h : e.LocatedIn v) : (e.within ref).LocatedIn v := by
  have hfault {fault : FieldFault} {variant : Option VariantRef}
      (hf : (e.within ref).fault = .validation fault variant) :
      ∃ variant', e.fault = .validation fault variant' := by
    obtain ⟨path, efault⟩ := e
    cases efault with
    | validation fault' variant' => cases variant' <;> cases hf <;> exact ⟨_, rfl⟩
    | _ => cases hf
  have hmissing : (e.within ref).IsMissing → e.IsMissing := by
    rintro ⟨field, variant, hf⟩
    obtain ⟨variant', hf'⟩ := hfault hf
    exact ⟨field, variant', hf'⟩
  have hmissing' : e.IsMissing → (e.within ref).IsMissing := by
    rintro ⟨field, variant, hf⟩
    obtain ⟨path, efault⟩ := e
    cases hf
    cases variant <;> exact ⟨field, _, rfl⟩
  refine ⟨fun hm => h.missing (hmissing hm), fun hm => h.present fun hm' => hm (hmissing' hm'),
    fun fault variant hf => ?_, fun field k variant hf => ?_⟩
  · obtain ⟨variant', hf'⟩ := hfault hf
    exact h.field fault variant' hf'
  · obtain ⟨variant', hf'⟩ := hfault hf
    exact h.negative field k variant' hf'

end DecodeError.LocatedIn

theorem Codec.Locates.step {p : Path} (h : c.Locates w) (hs : v.step? s = some w)
    (hp : p = Path.root.child s) (he : c.decodeAt .standard p w = .error e) : e.LocatedIn v := by
  subst hp
  have hr := relocatable Registry.described_standard w c (Path.root.child s) .root
  rw [Path.append_root] at hr
  rw [hr, mapError_eq_error_iff] at he
  obtain ⟨e', he', rfl⟩ := he
  exact (h e' he').relocate hs

end QueryScope
