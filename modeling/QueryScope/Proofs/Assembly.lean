import QueryScope.Proofs.Registration

/-!
# Assembling a registry

A registry comes from registrations, of one variant or of several at a time, on whatever interfaces.
Each of them keeps the table of its interface in order and leaves the other tables alone, and is
refused for one of four reasons only, so that every run ends in a registry whose index of tags is
right.
-/

namespace QueryScope

variable {i j : Interface}

/-! ## One table -/

namespace VariantTable

variable {t : VariantTable i} {v : Variant i} {e : RegistryError}

/-- Why a variant cannot be registered behind earlier ones. Its name comes first; where that is new,
whether it has a tag has to go with the interface, and only then can the tag be a repeated one. -/
inductive Refuses (earlier : List (Variant i)) (v : Variant i) : RegistryError → Prop where
  /-- An earlier variant has the name. -/
  | duplicateVariant (hname : v.name ∈ earlier.map (·.name)) :
    Refuses earlier v (.duplicateVariant i.name v.name)
  /-- There is a tag, but no key for it. -/
  | tagWithoutKey {tag : String} (hname : v.name ∉ earlier.map (·.name)) (hkey : i.tagKey = none)
      (htag : v.tag = some tag) : Refuses earlier v (.tagWithoutKey i.name tag)
  /-- There is a key, but no tag. -/
  | missingTag {key : String} (hname : v.name ∉ earlier.map (·.name)) (hkey : i.tagKey = some key)
      (htag : v.tag = none) : Refuses earlier v (.missingTag i.name v.name)
  /-- An earlier variant has the tag. -/
  | duplicateTag {key tag : String} (hname : v.name ∉ earlier.map (·.name))
      (hkey : i.tagKey = some key) (htag : v.tag = some tag)
      (hearlier : some tag ∈ earlier.map (·.tag)) : Refuses earlier v (.duplicateTag i.name tag)

theorem isSome_byName?_iff {name : String} :
    (t.byName? name).isSome = true ↔ name ∈ t.variants.map (·.name) := by
  rw [byName?, List.find?_isSome]
  simp

/-- The index knows exactly the tags of the variants. -/
theorem Consistent.hasTag_iff {key tag : String} (ht : t.Consistent) (hkey : i.tagKey = some key) :
    t.hasTag tag = true ↔ some tag ∈ t.variants.map (·.tag) := by
  constructor
  · intro h
    obtain ⟨entry, hentry, heq⟩ := List.any_eq_true.mp h
    obtain ⟨v, hv, htag⟩ := ht.sound entry hentry
    obtain rfl : entry.1 = tag := by simpa using heq
    exact List.mem_map.mpr ⟨v, List.mem_of_getElem? hv, htag⟩
  · intro h
    obtain ⟨v, hv, htag⟩ := List.mem_map.mp h
    exact ht.complete (by simp [hkey]) v hv tag htag

theorem Consistent.insert_error_iff (ht : t.Consistent) :
    t.insert v = .error e ↔ Refuses t.variants v e := by
  constructor
  · intro h
    -- the checks in the order in which they are made, each with those before it passed
    simp only [VariantTable.insert] at h
    split at h
    next hname =>
      cases h
      exact .duplicateVariant (isSome_byName?_iff.mp hname)
    next hname =>
      have hname := mt isSome_byName?_iff.mpr hname
      split at h
      next tag hkey htag =>
        cases h
        exact .tagWithoutKey hname hkey htag
      next key hkey htag =>
        cases h
        exact .missingTag hname hkey htag
      next key tag hkey htag =>
        split at h
        next hhas =>
          cases h
          exact .duplicateTag hname hkey htag ((ht.hasTag_iff hkey).mp hhas)
        next => cases h
      next => cases h
  · intro h
    cases h with
    | duplicateVariant hname => rw [VariantTable.insert, if_pos (isSome_byName?_iff.mpr hname)]
    | tagWithoutKey hname hkey htag | missingTag hname hkey htag =>
      rw [VariantTable.insert, if_neg (mt isSome_byName?_iff.mp hname)]
      simp only [hkey, htag]
    | duplicateTag hname hkey htag hearlier =>
      rw [VariantTable.insert, if_neg (mt isSome_byName?_iff.mp hname)]
      simp only [hkey, htag, (ht.hasTag_iff hkey).mpr hearlier, if_true]

/-- A variant has a tag exactly when there is a key for it. -/
theorem Registered.isSome_tag (ht : t.Registered) :
    ∀ v ∈ t.variants, v.tag.isSome = i.tagKey.isSome := by
  induction ht with
  | empty => exact List.forall_mem_nil _
  | insert _ hv ih =>
    obtain ⟨-, hvars, hcase⟩ := insert_ok hv
    rw [hvars]
    refine List.forall_mem_append.mpr ⟨ih, List.forall_mem_singleton.mpr ?_⟩
    rcases hcase with ⟨hkey, htag, -⟩ | ⟨tag, hkey, htag, -⟩
    · rw [hkey, htag]
    · rw [htag, Option.isSome_some, Option.isSome_iff_ne_none.mpr hkey]

/-- Without a tag key the index stays empty. -/
theorem Registered.byTag?_eq_none (ht : t.Registered) (hkey : i.tagKey = none) (tag : String) :
    t.byTag? tag = none := by
  have hindex : t.tagIndex = [] := by
    induction ht with
    | empty => rfl
    | insert _ hv ih =>
      obtain ⟨-, -, ⟨-, -, hindex⟩ | ⟨tag, hsome, -⟩⟩ := insert_ok hv
      · rw [hindex, ih]
      · exact absurd hkey hsome
  rw [byTag?, hindex]
  rfl

theorem Registered.nodup_tags (ht : t.Registered) (hkey : i.tagKey ≠ none) :
    (t.variants.map (·.tag)).Nodup := by
  refine ht.consistent.nodup.map_on fun v hv w hw heq => ?_
  have hsome : v.tag.isSome = true := by
    rw [ht.isSome_tag v hv, Option.isSome_iff_ne_none]
    exact hkey
  obtain ⟨tag, htag⟩ := Option.isSome_iff_exists.mp hsome
  exact ht.consistent.tags v hv w hw tag htag (heq ▸ htag)

end VariantTable

/-! ## One call -/

namespace Registry

variable {r r' r'' : Registry} {v : Variant i} {vs ws : List (Variant i)} {e : RegistryError}

/-- The table of an interface, which is the empty one where no variant is registered. -/
def tableOf (r : Registry) (i : Interface) : VariantTable i :=
  (r.table? i).getD .empty

/-- A registry with more variants of one interface, behind those that it has; the tables of the
other interfaces are as they were. -/
structure Extends (r : Registry) (vs : List (Variant i)) (r' : Registry) : Prop where
  registered : (r.tableOf i).Registered → (r'.tableOf i).Registered
  variants : (r'.tableOf i).variants = (r.tableOf i).variants ++ vs
  table?_eq_none_iff : r'.table? i = none ↔ r.table? i = none ∧ vs = []
  others : ∀ j, j ≠ i → r'.table? j = r.table? j

theorem Extends.refl (r : Registry) : Extends r ([] : List (Variant i)) r where
  registered := id
  variants := (List.append_nil _).symm
  table?_eq_none_iff := (and_iff_left rfl).symm
  others _ _ := rfl

theorem Extends.trans (h : Extends r vs r') (h' : Extends r' ws r'') :
    Extends r (vs ++ ws) r'' where
  registered := h'.registered ∘ h.registered
  variants := by rw [h'.variants, h.variants, List.append_assoc]
  table?_eq_none_iff := by
    rw [h'.table?_eq_none_iff, h.table?_eq_none_iff, List.append_eq_nil_iff, and_assoc]
  others j hj := (h'.others j hj).trans (h.others j hj)

theorem register_error_iff : r.register v = .error e ↔ (r.tableOf i).insert v = .error e := by
  refine bind_eq_error_iff.trans (or_iff_left ?_)
  rintro ⟨t, -, h⟩
  cases h

theorem register_ok (h : r.register v = .ok r') :
    ∃ t, (r.tableOf i).insert v = .ok t ∧ r' = ⟨replace i t r.tables⟩ := by
  obtain ⟨t, ht, heq⟩ := bind_eq_ok_iff.mp h
  exact ⟨t, ht, (Except.ok.inj heq).symm⟩

theorem Extends.of_register (h : r.register v = .ok r') : Extends r [v] r' := by
  obtain ⟨t, ht, rfl⟩ := register_ok h
  have hself : (Registry.mk (replace i t r.tables)).table? i = some t := by
    rw [table?, lookup_replace, dif_pos rfl]
  have htable : (Registry.mk (replace i t r.tables)).tableOf i = t := by
    rw [tableOf, hself, Option.getD_some]
  refine ⟨fun hr => ?_, ?_, ?_, fun j hj => ?_⟩
  · rw [htable]
    exact hr.insert ht
  · rw [htable]
    exact (VariantTable.insert_ok ht).2.1
  · simp [hself]
  · rw [table?, lookup_replace, dif_neg hj.symm]
    rfl

theorem registerAll_cons : r.registerAll (v :: vs) = r.register v >>= (·.registerAll vs) :=
  List.foldlM_cons

theorem Extends.of_registerAll (h : r.registerAll vs = .ok r') : Extends r vs r' := by
  induction vs generalizing r with
  | nil =>
    cases h
    exact .refl r'
  | cons v vs ih =>
    obtain ⟨r₁, hv, hvs⟩ := bind_eq_ok_iff.mp (registerAll_cons.symm.trans h)
    exact (Extends.of_register hv).trans (ih hvs)

/-- Several variants are refused for the first of them that is refused behind those before it. -/
theorem registerAll_error_iff : r.registerAll vs = .error e ↔
    ∃ before v after r', vs = before ++ v :: after ∧ r.registerAll before = .ok r' ∧
      r'.register v = .error e := by
  induction vs generalizing r with
  | nil =>
    refine iff_of_false nofun ?_
    rintro ⟨before, v, after, -, h, -⟩
    exact List.append_ne_nil_of_right_ne_nil before (List.cons_ne_nil v after) h.symm
  | cons w vs ih =>
    rw [registerAll_cons, bind_eq_error_iff]
    constructor
    · rintro (hw | ⟨r₁, hw, hvs⟩)
      · exact ⟨[], w, vs, r, rfl, rfl, hw⟩
      · obtain ⟨before, v, after, r', rfl, hbefore, hv⟩ := ih.mp hvs
        refine ⟨w :: before, v, after, r', rfl, ?_, hv⟩
        rw [registerAll_cons, hw]
        exact hbefore
    · rintro ⟨before, v, after, r', hsplit, hbefore, hv⟩
      cases before with
      | nil =>
        cases hsplit
        cases hbefore
        exact Or.inl hv
      | cons u before =>
        obtain ⟨rfl, rfl⟩ := List.cons.inj hsplit
        obtain ⟨r₁, hw, hbefore⟩ := bind_eq_ok_iff.mp (registerAll_cons.symm.trans hbefore)
        exact Or.inr ⟨r₁, hw, ih.mpr ⟨before, v, after, r', rfl, hbefore, hv⟩⟩

end Registry

/-- A call that adds to a registry. -/
inductive Registration where
  /-- One variant. -/
  | one {i : Interface} (v : Variant i)
  /-- Several variants of an interface, in order. -/
  | several {i : Interface} (vs : List (Variant i))

namespace Registration

variable {c : Registration} {r r' : Registry}

/-- The interface of the call. -/
def interface : Registration → Interface
  | @one i _ => i
  | @several i _ => i

/-- The variants of the call. -/
def variants : (c : Registration) → List (Variant c.interface)
  | one v => [v]
  | several vs => vs

/-- The variants of the call on an interface. -/
def variantsOn (i : Interface) (c : Registration) : List (Variant i) :=
  if h : c.interface = i then h ▸ c.variants else []

/-- Carry out the call. -/
def run (r : Registry) : Registration → Except RegistryError Registry
  | one v => r.register v
  | several vs => r.registerAll vs

theorem variantsOn_interface : c.variantsOn c.interface = c.variants :=
  dif_pos rfl

theorem variantsOn_several (vs : List (Variant i)) : (several vs).variantsOn i = vs :=
  variantsOn_interface

theorem variantsOn_of_ne (h : i ≠ c.interface) : c.variantsOn i = [] :=
  dif_neg h.symm

theorem extends_of_run (h : c.run r = .ok r') : r.Extends c.variants r' := by
  cases c with
  | one v => exact .of_register h
  | several vs => exact .of_registerAll h

end Registration

/-! ## Every run of calls -/

namespace Registry

variable {r r' : Registry} {calls done : List Registration} {v : Variant i} {e : RegistryError}

/-- Carry out calls in order; the first failure ends it. -/
def assemble (calls : List Registration) : Except RegistryError Registry :=
  calls.foldlM Registration.run .empty

/-- The variants of an interface that calls register, in order. -/
def registered (i : Interface) (calls : List Registration) : List (Variant i) :=
  calls.flatMap (·.variantsOn i)

/-- The registry has what the calls have registered, in tables that come from insertions. -/
structure Holds (r : Registry) (calls : List Registration) : Prop where
  registered : ∀ i, (r.tableOf i).Registered
  variants : ∀ i, (r.tableOf i).variants = Registry.registered i calls
  table?_eq_none_iff : ∀ i, r.table? i = none ↔ Registry.registered i calls = []

theorem registered_append (i : Interface) (calls more : List Registration) :
    registered i (calls ++ more) = registered i calls ++ registered i more :=
  List.flatMap_append

theorem registered_singleton (i : Interface) (c : Registration) :
    registered i [c] = c.variantsOn i :=
  List.flatMap_singleton _ _

theorem Holds.empty : Holds .empty [] where
  registered _ := .empty
  variants _ := rfl
  table?_eq_none_iff _ := iff_of_true rfl rfl

theorem Holds.run (hr : r.Holds done) {c : Registration} (h : c.run r = .ok r') :
    r'.Holds (done ++ [c]) := by
  have hext := Registration.extends_of_run h
  have hother {i : Interface} (hi : i ≠ c.interface) : r'.tableOf i = r.tableOf i := by
    rw [tableOf, tableOf, hext.others i hi]
  -- on its own interface the call adds its variants, on the others there is nothing to add
  refine ⟨fun i => ?_, fun i => ?_, fun i => ?_⟩
  · by_cases hi : i = c.interface
    · subst hi
      exact hext.registered (hr.registered _)
    · rw [hother hi]
      exact hr.registered i
  · rw [registered_append, registered_singleton]
    by_cases hi : i = c.interface
    · subst hi
      rw [hext.variants, hr.variants, Registration.variantsOn_interface]
    · rw [hother hi, hr.variants, Registration.variantsOn_of_ne hi, List.append_nil]
  · rw [registered_append, registered_singleton]
    by_cases hi : i = c.interface
    · subst hi
      rw [hext.table?_eq_none_iff, hr.table?_eq_none_iff, Registration.variantsOn_interface,
        List.append_eq_nil_iff]
    · rw [hext.others i hi, hr.table?_eq_none_iff, Registration.variantsOn_of_ne hi,
        List.append_nil]

theorem Holds.runs (hr : r.Holds done) (h : calls.foldlM Registration.run r = .ok r') :
    r'.Holds (done ++ calls) := by
  -- call after call, each of them behind those that are done
  induction calls generalizing r done with
  | nil =>
    cases h
    rw [List.append_nil]
    exact hr
  | cons c calls ih =>
    rw [List.foldlM_cons] at h
    obtain ⟨r₁, hc, hcalls⟩ := bind_eq_ok_iff.mp h
    rw [List.append_cons]
    exact ih (hr.run hc) hcalls

theorem holds_of_assemble (h : assemble calls = .ok r) : r.Holds calls :=
  Holds.empty.runs h

/-- The calls that the standard registry comes from. -/
def standardCalls : List Registration :=
  [.several ConnectorPartitioning.variants, .several ConnectorTransaction.variants,
    .several ConnectorTable.variants, .several ConnectorColumn.variants,
    .several Expression.variants, .several PlanNode.variants]

/-- The standard registry has the standard variants and no others, under a right index. -/
theorem holds_standard : standard.Holds standardCalls := by
  apply holds_of_assemble
  simp only [assemble, standardCalls, List.foldlM_cons, List.foldlM_nil, bind_pure]
  exact registerStandard_empty

theorem Holds.register_error_iff (hr : r.Holds calls) :
    r.register v = .error e ↔ VariantTable.Refuses (Registry.registered i calls) v e := by
  rw [Registry.register_error_iff, (hr.registered i).consistent.insert_error_iff, hr.variants]

theorem Holds.registerAll_error_iff (hr : r.Holds calls) {vs : List (Variant i)} :
    r.registerAll vs = .error e ↔ ∃ before v after, vs = before ++ v :: after ∧
      (∃ r', r.registerAll before = .ok r') ∧
      VariantTable.Refuses (Registry.registered i calls ++ before) v e := by
  rw [Registry.registerAll_error_iff]
  refine exists_congr fun before => exists_congr fun v => exists_congr fun after => ?_
  rw [exists_and_left, ← exists_and_right]
  refine and_congr_right fun _ => exists_congr fun r' => and_congr_right fun hbefore => ?_
  -- the calls and then the accepted ones are calls themselves
  have hr' := hr.run (c := .several before) hbefore
  rw [hr'.register_error_iff, registered_append, registered_singleton,
    Registration.variantsOn_several]

/-- What a run of accepted calls leads to. The variants of an interface are those of its calls, in
order, with distinct names. On an interface with a tag key each of them has a tag, the tags are
distinct, and looking up a tag gives the variant that has it; on the others none has a tag, and
looking one up gives nothing. A call leaves the tables of other interfaces as they are, and is
refused only for a variant that the ones before it rule out, the first of them if there are
several. -/
theorem assemble_sound (h : assemble calls = .ok r) :
    (∀ i, r.table? i = none ↔ registered i calls = []) ∧
      (∀ i t, r.table? i = some t →
        t.variants = registered i calls ∧ (t.variants.map (·.name)).Nodup ∧
        (∀ entry ∈ t.tagIndex, ∃ v, t.variants[entry.2]? = some v ∧ v.tag = some entry.1) ∧
        (i.tagKey ≠ none →
          (∀ v ∈ t.variants, v.tag ≠ none) ∧ (t.variants.map (·.tag)).Nodup ∧
          ∀ tag v, t.byTag? tag = some v ↔ v ∈ t.variants ∧ v.tag = some tag) ∧
        (i.tagKey = none → (∀ v ∈ t.variants, v.tag = none) ∧ ∀ tag, t.byTag? tag = none)) ∧
      (∀ (c : Registration) r', c.run r = .ok r' →
        ∀ j, j ≠ c.interface → r'.table? j = r.table? j) ∧
      (∀ {i} (v : Variant i) e,
        r.register v = .error e ↔ VariantTable.Refuses (registered i calls) v e) ∧
      ∀ {i} (vs : List (Variant i)) e, r.registerAll vs = .error e ↔
        ∃ before v after, vs = before ++ v :: after ∧ (∃ r', r.registerAll before = .ok r') ∧
          VariantTable.Refuses (registered i calls ++ before) v e := by
  have hr := holds_of_assemble h
  refine ⟨hr.table?_eq_none_iff, fun i t ht => ?_, fun c r' hc => ?_,
    fun v e => hr.register_error_iff, fun vs e => hr.registerAll_error_iff⟩
  · obtain rfl : r.tableOf i = t := by rw [tableOf, ht, Option.getD_some]
    have hreg := hr.registered i
    refine ⟨hr.variants i, hreg.consistent.names, hreg.consistent.sound, fun hkey => ?_,
      fun hkey => ?_⟩
    · refine ⟨fun v hv => ?_, hreg.nodup_tags hkey, fun tag v => hreg.consistent.byTag?_iff hkey⟩
      rw [← Option.isSome_iff_ne_none, hreg.isSome_tag v hv, Option.isSome_iff_ne_none]
      exact hkey
    · refine ⟨fun v hv => ?_, hreg.byTag?_eq_none hkey⟩
      rw [← Option.isNone_iff_eq_none, ← Option.not_isSome, hreg.isSome_tag v hv, hkey]
      rfl
  · exact (Registration.extends_of_run hc).others

/-- A variant with a tag. -/
def kind (name tag : String) : Variant (.custom "Kind" (some "@type")) :=
  .tagged name tag (.custom fun _ _ => .ok (.string name))

/-- Calls on an interface with a tag key and on one without, in turn. -/
def mixedCalls : List Registration :=
  [.one (kind "one" "1"), .several [shape "a" ["x"], shape "b" ["x", "y"]], .one (kind "two" "2")]

theorem assemble_sound_mixed : ∃ r, assemble mixedCalls = .ok r ∧
    r.table? .expression = none ∧
    (∃ t, r.table? (.custom "Shape" none) = some t ∧
      t.variants = [shape "a" ["x"], shape "b" ["x", "y"]]) ∧
    (∃ t, r.table? (.custom "Kind" (some "@type")) = some t ∧
      t.byTag? "2" = some (kind "two" "2")) ∧
    r.register (kind "two" "3") = .error (.duplicateVariant "Kind" "two") ∧
    r.registerAll [kind "three" "3", kind "four" "3", kind "one" "4"] =
      .error (.duplicateTag "Kind" "3") := by
  refine ⟨_, rfl, ?_⟩
  obtain ⟨hnone, htable, -, hregister, hregisterAll⟩ := @assemble_sound _ mixedCalls rfl
  refine ⟨(hnone _).mpr rfl, ⟨_, rfl, (htable _ _ rfl).1⟩, ⟨_, rfl, ?_⟩, ?_, ?_⟩
  · obtain ⟨-, -, -, htagged, -⟩ := htable (.custom "Kind" (some "@type")) _ rfl
    exact ((htagged nofun).2.2 _ _).mpr ⟨List.mem_cons_of_mem _ List.mem_cons_self, rfl⟩
  · exact (hregister _ _).mpr (.duplicateVariant (by decide))
  · refine (hregisterAll _ _).mpr ⟨[kind "three" "3"], kind "four" "3", _, rfl, ⟨_, rfl⟩, ?_⟩
    exact .duplicateTag (by decide) rfl rfl (by decide)

end Registry

end QueryScope
