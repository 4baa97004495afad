import QueryScope.Proofs.Parts

/-!
# Where an error comes from

An error is either raised at the value that is decoded, or it is the error of the part that decoding
came to last. What holds of all errors is therefore shown for those that are raised at a value, and
for one step outwards.
-/

namespace QueryScope

open QueryScope.Path (Segment)

variable {α β γ δ : Type} {c : Codec α} {v : Json} {members : List (String × Json)}
  {e : DecodeError} {s : Segment} {name : String} {part : Part}

/-! ## Errors of a part -/

/-- Decoding the part, which stands one step in, fails. -/
def Part.FailsBehind (part : Part) (s : Segment) (e : DecodeError) : Prop :=
  part.codec.decodeAt .standard (Path.root.child s) part.value = .error e

theorem Part.failsBehind_iff : part.FailsBehind s e ↔
    ∃ e', part.codec.decode .standard part.value = .error e' ∧
      e'.relocate (Path.root.child s) = e := by
  have h := relocatable Registry.described_standard part.value part.codec (Path.root.child s) .root
  rw [Path.append_root] at h
  rw [FailsBehind, h, mapError_eq_error_iff]
  rfl

/-! ## Errors of a value itself -/

/-- The fields of a path have words as names. -/
def Path.HasFieldNames (p : Path) : Prop :=
  ∀ name, .field name ∈ p.segments → isFieldName name = true

/-- The field that is reported is the innermost one of the path, and all of the path have words as
names. -/
structure DecodeError.Named (e : DecodeError) : Prop where
  reported : ∀ fault variant, e.fault = .validation fault variant →
    fault.field = e.path.currentField
  proper : e.path.HasFieldNames

/-- The error is raised at a value, with the parts that decoding comes to: it belongs to no variant,
and its path leads to the value or to a part that is no abstract position. -/
structure DecodeError.Raised (e : DecodeError) (comesTo : Segment → Part → Prop) : Prop where
  unattributed : ∀ fault variant, e.fault = .validation fault variant → variant = none
  place : e.path = .root ∨ ∃ s, e.path = Path.root.child s ∧
    ∀ part, comesTo s part → part.codec.isInterface = false
  named : e.Named

namespace DecodeError.Raised

variable {comesTo : Segment → Part → Prop}

theorem of_not_validation (hpath : e.path = .root)
    (h : ∀ fault variant, e.fault ≠ .validation fault variant) : e.Raised comesTo where
  unattributed _ _ hfault := absurd hfault (h _ _)
  place := Or.inl hpath
  named :=
    ⟨fun _ _ hfault => absurd hfault (h _ _), by simp [Path.HasFieldNames, hpath, Path.root]⟩

theorem malformed (m : Malformation) : (DecodeError.malformed .root m).Raised comesTo :=
  of_not_validation rfl fun _ _ h => by cases h

theorem refused (r : Refusal) : (DecodeError.refused .root r).Raised comesTo := by
  cases r with
  | malformed m => exact malformed m
  | invalid reason =>
    refine ⟨fun _ _ h => ?_, Or.inl rfl, fun _ _ h => ?_, fun _ h => ?_⟩
    · cases h
      rfl
    · cases h
      rfl
    · cases h

theorem ofField {fault : FieldFault} (hname : isFieldName fault.field = true)
    (h : ∀ part, comesTo (.field fault.field) part → part.codec.isInterface = false) :
    (DecodeError.ofField .root fault).Raised comesTo := by
  refine ⟨fun _ _ h => ?_, Or.inr ⟨_, rfl, h⟩, fun _ _ h => ?_, fun name h => ?_⟩
  · cases h
    rfl
  · cases h
    rfl
  · obtain rfl : name = fault.field := by simpa [DecodeError.ofField, Path.child, Path.root] using h
    exact hname

/-- A key that is refused is not come to. -/
theorem refusedKey {key : String} {reason : Reason} (h : ∀ part, ¬comesTo (.key key) part) :
    (DecodeError.invalid (Path.root.child (.key key)) reason).Raised comesTo := by
  refine ⟨fun _ _ h => ?_, Or.inr ⟨_, rfl, fun part hpart => absurd hpart (h part)⟩,
    fun _ _ h => ?_, fun name h => ?_⟩
  · cases h
    rfl
  · cases h
    rfl
  · simp [DecodeError.invalid, Path.child, Path.root] at h

end DecodeError.Raised

/-! ## Errors of fields -/

/-- A field fails behind other fields when they do, or when they are accepted and its value is not,
or when it has no value and that is an error. -/
theorem Fields.bind_decodeField_error_iff {fields : Fields α} {found : β → γ}
    {absent : Except DecodeError γ} {c : Codec β} {build : α → γ → δ} :
    (do let a ← fields.decodeAt .standard .root members
        let b ← c.decodeField .standard .root members name found absent
        return build a b) = .error e ↔
      fields.decodeAt .standard .root members = .error e ∨ fields.Accepts members ∧
        ((∃ w, Json.present? members name = some w ∧ (Part.mk c w).FailsBehind (.field name) e) ∨
          (Json.present? members name = none ∧ absent = .error e)) := by
  have haccepts : fields.Accepts members ↔ ∃ a, fields.decodeAt .standard .root members = .ok a :=
    (fields.exists_decodeAt_iff .root fun _ => True).symm.trans (by simp)
  have hfield {b : α} : (do
      let g ← c.decodeField .standard .root members name found absent
      return build b g) = .error e ↔
        c.decodeField .standard .root members name found absent = .error e :=
    bind_eq_error_iff.trans (or_iff_left fun ⟨_, _, h⟩ => by cases h)
  simp only [bind_eq_error_iff (x := fields.decodeAt .standard .root members), hfield,
    exists_and_right, ← haccepts, Codec.decodeField_error_iff, Part.FailsBehind]

/-- The error of an object's fields is that of a part, or a field is missing, or the object lacks a
value that would be kept as it stands. -/
theorem Fields.decodeAt_error {fields : Fields α}
    (h : fields.decodeAt .standard .root members = .error e) :
    (∃ s part, fields.ComesTo members s part ∧ part.FailsBehind s e) ∨
      (∃ name ∈ fields.names, Json.present? members name = none ∧
        e = .ofField .root ⟨name, .missing⟩) ∨ ∃ m, e = .malformed .root m := by
  induction fields with
  | pure a => cases h
  | required fields name c ih | optional fields name c ih | defaulted fields name c _ ih =>
    simp only [decodeAt_required, decodeAt_optional, decodeAt_defaulted,
      bind_decodeField_error_iff] at h
    rcases h with h | ⟨haccepts, ⟨w, hw, hpart⟩ | ⟨hnone, h⟩⟩
    · rcases ih h with ⟨s, part, hs, hpart⟩ | ⟨name', hname', h⟩ | hm
      · exact Or.inl ⟨s, part, Or.inl hs, hpart⟩
      · exact Or.inr (Or.inl ⟨name', by
          rw [names, entries, List.map_append]
          exact List.mem_append_left _ hname', h⟩)
      · exact Or.inr (Or.inr hm)
    · exact Or.inl ⟨_, _, Or.inr ⟨haccepts, rfl, w, hw, rfl⟩, hpart⟩
    · -- only a required field has to be there
      cases h <;> exact Or.inr (Or.inl ⟨name, by simp [names, entries], hnone, rfl⟩)
  | verbatim fields name absent ih =>
    rw [decodeAt_verbatim] at h
    rcases bind_eq_error_iff.mp h with h | ⟨build, -, h⟩
    · rcases ih h with ⟨s, part, hs, hpart⟩ | ⟨name', hname', h⟩ | hm
      · exact Or.inl ⟨s, part, hs, hpart⟩
      · exact Or.inr (Or.inl ⟨name', by
          rw [names, entries, List.map_append]
          exact List.mem_append_left _ hname', h⟩)
      · exact Or.inr (Or.inr hm)
    · split at h <;> cases h
      exact Or.inr (Or.inr ⟨absent, rfl⟩)

theorem Fields.decodeAt_of_comesTo {fields : Fields α} (h : fields.ComesTo members s part)
    (he : part.FailsBehind s e) : fields.decodeAt .standard .root members = .error e := by
  induction fields with
  | pure a => exact h.elim
  | required fields name c ih | optional fields name c ih | defaulted fields name c _ ih =>
    simp only [decodeAt_required, decodeAt_optional, decodeAt_defaulted,
      bind_decodeField_error_iff]
    rcases h with h | ⟨haccepts, rfl, w, hw, rfl⟩
    · exact Or.inl (ih h)
    · exact Or.inr ⟨haccepts, Or.inl ⟨w, hw, he⟩⟩
  | verbatim fields name absent ih =>
    rw [decodeAt_verbatim]
    exact bind_eq_error_iff.mpr (Or.inl (ih h))

/-! ## Errors of objects -/

/-- The error of an object is that of a part, or raised at the object. -/
theorem Body.decodeAt_error {b : Body α} (hb : b.Standard) (hregular : b.isRegular = true)
    (h : b.decodeAt .standard .root members = .error e) :
    (∃ s part, b.ComesTo members s part ∧ part.FailsBehind s e) ∨ e.Raised (b.ComesTo members) := by
  have hfields {β : Type} {fields : Fields β} (hf : fields.isRegular = true)
      (h : fields.decodeAt .standard .root members = .error e) :
      (∃ s part, fields.ComesTo members s part ∧ part.FailsBehind s e) ∨
        e.Raised (fields.ComesTo members) := by
    rcases Fields.decodeAt_error h with hpart | ⟨name, hname, hnone, rfl⟩ | ⟨m, rfl⟩
    · exact Or.inl hpart
    · refine Or.inr (.ofField ((Fields.isRegular_iff.mp hf).2 name hname) fun part hpart => ?_)
      obtain ⟨entry, -, hs, w, hw, -⟩ := hpart.entry
      cases hs
      rw [hnone] at hw
      cases hw
    · exact Or.inr (.malformed m)
  induction hb with
  | record hf =>
    rw [decodeAt_record] at h
    rw [isRegular] at hregular
    simp only [ComesTo]
    exact hfields hregular h
  | checked hf hcheck =>
    rw [decodeAt_checked] at h
    rw [isRegular, Bool.and_eq_true] at hregular
    simp only [ComesTo]
    rcases bind_eq_error_iff.mp h with h | ⟨checked, hchecked, h⟩
    · exact hfields hregular.1 h
    · obtain ⟨fault, rfl, rfl⟩ := mapError_eq_error_iff.mp h
      have hname := Fields.mem_names_of_blames hcheck
        ((Fields.exists_decodeAt_iff _ .root _).mp ⟨_, hchecked, rfl⟩)
      have hword := (Fields.isRegular_iff.mp hregular.1).2 _ hname
      -- a check blames one of the fields, none of which is an abstract position
      refine Or.inr (.ofField hword fun part hpart => ?_)
      obtain ⟨entry, hentry, -, w, -, rfl⟩ := hpart.entry
      simpa using List.all_eq_true.mp hregular.2 entry hentry
  | @whenPresent key _ _ _ _ ihp iha =>
    rw [decodeAt_whenPresent] at h
    rw [isRegular, Bool.and_eq_true] at hregular
    simp only [ComesTo]
    by_cases hkey : hasKey members key = true
    · simp only [if_pos hkey] at h ⊢
      exact ihp hregular.1 h
    · simp only [if_neg hkey] at h ⊢
      exact iha hregular.2 h
  | memberless interface a =>
    rw [decodeAt_memberless] at h
    split at h <;> cases h
    exact Or.inr (.of_not_validation rfl fun _ _ h => by cases h)

theorem Body.decodeAt_of_comesTo {b : Body α} (h : b.ComesTo members s part)
    (he : part.FailsBehind s e) : b.decodeAt .standard .root members = .error e := by
  induction b with
  | record fields =>
    rw [ComesTo] at h
    rw [decodeAt_record]
    exact Fields.decodeAt_of_comesTo h he
  | checked fields =>
    rw [ComesTo] at h
    rw [decodeAt_checked]
    exact bind_eq_error_iff.mpr (Or.inl (Fields.decodeAt_of_comesTo h he))
  | whenPresent key present absent ihp iha =>
    rw [ComesTo] at h
    rw [decodeAt_whenPresent]
    by_cases hkey : hasKey members key = true
    · rw [if_pos hkey] at h ⊢
      exact ihp h
    · rw [if_neg hkey] at h ⊢
      exact iha h
  | memberless _ _ | custom _ =>
    rw [ComesTo] at h
    exact h.elim

theorem Interface.decodeAt_of_variant? {i : Interface} {p : Path} {w : Variant i}
    (h : i.variant? members = some w) : i.decodeAt .standard p members =
      (w.body.decodeAt .standard p members).mapError (.within ⟨i.name, w.name⟩) := by
  obtain ⟨t, ht, hselect⟩ := variant?_eq_some_iff.mp h
  simp only [decodeAt, ht, hselect]

/-- Where no variant is chosen, the error is raised at the object. -/
theorem Interface.raised_of_variant? {i : Interface} {comesTo : Segment → Part → Prop}
    (hnone : i.variant? members = none) (h : i.decodeAt .standard .root members = .error e) :
    e.Raised comesTo := by
  rw [decodeAt] at h
  split at h
  · cases h
    exact .of_not_validation rfl fun _ _ h => by cases h
  next t ht =>
    split at h
    next fault hselect =>
      cases h
      exact .of_not_validation rfl fun _ _ => VariantTable.select_error hselect _ _
    next w hselect =>
      rw [variant?_eq_some_iff.mpr ⟨t, ht, hselect⟩] at hnone
      cases hnone

/-! ## Errors of values -/

/-- The error, charged to a variant if there is one that decoding entered. -/
def DecodeError.charged (ref? : Option VariantRef) (e : DecodeError) : DecodeError :=
  match ref? with
  | some ref => e.within ref
  | none => e

theorem DecodeError.charged_validation {ref? variant : Option VariantRef} {fault : FieldFault}
    (h : (e.charged ref?).fault = .validation fault variant) :
    ∃ own, e.fault = .validation fault own ∧ variant = own.or ref? := by
  obtain ⟨path, efault⟩ := e
  cases ref? with
  | none => exact ⟨variant, h, by simp⟩
  | some ref =>
    cases efault with
    | validation fault' own =>
      cases own <;> cases h
      · exact ⟨none, rfl, rfl⟩
      · exact ⟨some _, rfl, rfl⟩
    | _ => cases h

theorem DecodeError.charged_path (ref? : Option VariantRef) (e : DecodeError) :
    (e.charged ref?).path = e.path := by
  cases ref? <;> rfl

/-- The error of a value is that of a part, or raised at the value, and charged to the variant that
decoding enters here. -/
theorem Codec.decode_error (h : c.decode .standard v = .error e) :
    ∃ e₀, ((∃ s part, c.ComesTo v s part ∧ part.FailsBehind s e₀) ∨ e₀.Raised (c.ComesTo v)) ∧
      e = e₀.charged (c.entered? v) := by
  induction c with
  | scalar read =>
    rw [decode, decodeAt_scalar] at h
    obtain ⟨r, -, rfl⟩ := mapError_eq_error_iff.mp h
    exact ⟨_, Or.inr (.refused r), rfl⟩
  | nullable c ih =>
    rw [decode, decodeAt_nullable] at h
    cases hnull : v.isNull with
    | true =>
      rw [if_pos hnull] at h
      cases h
    | false =>
      rw [hnull, if_neg Bool.false_ne_true] at h
      simp only [ComesTo, entered?, hnull, true_and]
      exact ih (map_eq_error_iff.mp h)
  | list c _ =>
    refine ⟨e, ?_, rfl⟩
    rw [decode, decodeAt_list] at h
    cases v with
    | array items =>
      obtain ⟨before, w, after, rfl, hbefore, hw⟩ := decodeItems_error_iff.mp h
      rw [Nat.zero_add] at hw
      exact Or.inl ⟨_, ⟨c, w⟩, ⟨before, w, after, rfl, hbefore, rfl, rfl⟩, hw⟩
    | _ =>
      cases h
      exact Or.inr (.malformed _)
  | keyed key c _ =>
    refine ⟨e, ?_, rfl⟩
    rw [decode, decodeAt_keyed] at h
    cases v with
    | object members =>
      obtain ⟨before, m, after, rfl, hbefore, hm⟩ := decodeKeyed_error_iff.mp h
      rcases hm with ⟨reason, hkey, rfl⟩ | ⟨hkey, hm⟩
      · refine Or.inr (.refusedKey fun part hpart => ?_)
        obtain ⟨_, m', _, -, -, ⟨k, hk⟩, hs, -⟩ := hpart
        have heq : m.1 = m'.1 := by injection hs
        rw [heq, hk] at hkey
        cases hkey
      · exact Or.inl ⟨_, ⟨c, m.2⟩, ⟨before, m, after, rfl, hbefore, hkey, rfl, rfl⟩, hm⟩
    | _ =>
      cases h
      exact Or.inr (.malformed _)
  | record r =>
    refine ⟨e, ?_, rfl⟩
    rw [decode, decodeAt_record] at h
    cases v with
    | object members =>
      simp only [ComesTo, Json.object.injEq, exists_eq_left']
      exact Body.decodeAt_error r.body_standard r.body_isRegular h
    | _ =>
      cases h
      exact Or.inr (.malformed _)
  | interface i =>
    rw [decode, decodeAt_interface] at h
    cases v with
    | object members =>
      simp only [ComesTo, entered?, Json.object.injEq, exists_eq_left', exists_and_left]
      cases hw : i.variant? members with
      | none => exact ⟨e, Or.inr (i.raised_of_variant? hw h), rfl⟩
      | some w =>
        simp only [Interface.decodeAt_of_variant? hw] at h
        obtain ⟨e₀, he₀, rfl⟩ := mapError_eq_error_iff.mp h
        have hmem := Interface.mem_variants_of_variant? hw
        refine ⟨e₀, ?_, rfl⟩
        simp only [Option.some.injEq, exists_eq_left']
        exact Body.decodeAt_error (i.variants_standard w hmem) (i.variants_isRegular w hmem) he₀
    | _ =>
      cases h
      exact ⟨_, Or.inr (.malformed _), rfl⟩

/-- The error of a part that decoding comes to is that of the value, but for the variant that it is
charged to. -/
theorem Codec.decode_of_comesTo (h : c.ComesTo v s part) (he : part.FailsBehind s e) :
    c.decode .standard v = .error (e.charged (c.entered? v)) := by
  induction c with
  | scalar read => exact h.elim
  | nullable c ih =>
    obtain ⟨hnull, h⟩ := h
    rw [decode, decodeAt_nullable, entered?, hnull, if_neg Bool.false_ne_true,
      if_neg Bool.false_ne_true]
    exact map_eq_error_iff.mpr (ih h)
  | list c _ =>
    obtain ⟨before, w, after, rfl, hbefore, rfl, rfl⟩ := h
    rw [decode, decodeAt_list]
    refine decodeItems_error_iff.mpr ⟨before, w, after, rfl, hbefore, ?_⟩
    rw [Nat.zero_add]
    exact he
  | keyed key c _ =>
    obtain ⟨before, m, after, rfl, hbefore, hkey, rfl, rfl⟩ := h
    rw [decode, decodeAt_keyed]
    exact decodeKeyed_error_iff.mpr ⟨before, m, after, rfl, hbefore, Or.inr ⟨hkey, he⟩⟩
  | record r =>
    obtain ⟨members, rfl, h⟩ := h
    rw [decode, decodeAt_record]
    exact Body.decodeAt_of_comesTo h he
  | interface i =>
    obtain ⟨members, w, rfl, hw, h⟩ := h
    rw [decode, decodeAt_interface]
    simp only [entered?, hw, Interface.decodeAt_of_variant? hw, Body.decodeAt_of_comesTo h he]
    rfl

end QueryScope
