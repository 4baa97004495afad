import Mathlib.Data.Finset.Basic
import Mathlib.Data.List.Nodup
import Mathlib.Order.Preorder.Finite
import Mathlib.Data.Set.Finite.List
import QueryScope.Proofs.Json.WellFormed
import QueryScope.Wire.Select

/-!
# Choosing a variant: the greatest signature that fits

A variant whose signature the object has is a *candidate*. The choice only compares candidates in
pairs; here it is shown to pick the candidate above all others whenever there is one, to report the
maximal candidates otherwise, and not to depend on the order of registration.
-/

namespace QueryScope

variable {i : Interface}

/-- The keys of a variant's signature, as a set. -/
def Variant.keys (v : Variant i) : Finset String :=
  (v.signature.getD []).toFinset

/-- The variant has a signature, and the object has every key of it. -/
def Variant.Fits (v : Variant i) (members : List (String × Json)) : Prop :=
  v.signature.isSome ∧ ∀ key ∈ v.keys, key ∈ members.map Prod.fst

theorem hasKey_iff {members : List (String × Json)} {key : String} :
    hasKey members key = true ↔ key ∈ members.map Prod.fst := by
  simp [hasKey]

theorem isStrictSubset_iff {inner outer : List String} :
    isStrictSubset inner outer = true ↔ inner.toFinset ⊂ outer.toFinset := by
  simp [isStrictSubset, Finset.ssubset_def, Finset.subset_iff]

namespace VariantTable

variable {t t' : VariantTable i} {members : List (String × Json)} {c d v : Variant i}

/-! ## Tables that come from registrations -/

/-- The tables that inserting variants one after another leads to. -/
inductive Registered : VariantTable i → Prop where
  /-- No variant is inserted yet. -/
  | empty : Registered .empty
  /-- One more variant is accepted. -/
  | insert {t t' : VariantTable i} {v : Variant i} (h : Registered t) (hv : t.insert v = .ok t') :
      Registered t'

/-- The names are distinct, and on an interface with a tag key the index leads from the tags of the
variants, which are distinct, to their variants. -/
structure Consistent (t : VariantTable i) : Prop where
  /-- No two variants share a name. -/
  names : (t.variants.map (·.name)).Nodup
  /-- Every entry of the index leads to a variant of its tag. -/
  sound : ∀ e ∈ t.tagIndex, ∃ v, t.variants[e.2]? = some v ∧ v.tag = some e.1
  /-- Every tag is in the index. -/
  complete : i.tagKey ≠ none → ∀ v ∈ t.variants, ∀ tag, v.tag = some tag → t.hasTag tag = true
  /-- Variants with the same tag are the same. -/
  tags : ∀ v ∈ t.variants, ∀ w ∈ t.variants, ∀ tag, v.tag = some tag → w.tag = some tag → v = w

/-- What an accepted insertion has checked, and the table that it leads to. -/
theorem insert_ok (h : t.insert v = .ok t') :
    v.name ∉ t.variants.map (·.name) ∧ t'.variants = t.variants ++ [v] ∧
      ((i.tagKey = none ∧ v.tag = none ∧ t'.tagIndex = t.tagIndex) ∨
        ∃ tag, i.tagKey ≠ none ∧ v.tag = some tag ∧ t.hasTag tag = false ∧
          t'.tagIndex = t.tagIndex ++ [(tag, t.variants.length)]) := by
  have hname : (t.byName? v.name).isSome = false := by
    by_contra hn
    simp [insert, Bool.eq_true_of_not_eq_false hn] at h
  refine ⟨by simpa [byName?] using hname, ?_⟩
  simp only [insert, hname, Bool.false_eq_true, if_false] at h
  cases hk : i.tagKey with
  | none =>
    cases htag : v.tag with
    | none =>
      simp only [hk, htag, Except.ok.injEq] at h
      subst h
      simp
    | some tag => simp [hk, htag] at h
  | some key =>
    cases htag : v.tag with
    | none => simp [hk, htag] at h
    | some tag =>
      simp only [hk, htag] at h
      cases hhas : t.hasTag tag with
      | true => simp [hhas] at h
      | false =>
        simp only [hhas, Bool.false_eq_true, if_false, Except.ok.injEq] at h
        subst h
        exact ⟨rfl, Or.inr ⟨tag, by simp, rfl, hhas, rfl⟩⟩

theorem Consistent.empty : Consistent (VariantTable.empty : VariantTable i) where
  names := List.nodup_nil
  sound := by simp [VariantTable.empty]
  complete := by simp [VariantTable.empty]
  tags := by simp [VariantTable.empty]

/-- An entry of the index stays right when variants are added behind the others. -/
theorem Consistent.sound_append (ht : t.Consistent) (e : String × Nat) (he : e ∈ t.tagIndex)
    (more : List (Variant i)) : ∃ v, (t.variants ++ more)[e.2]? = some v ∧ v.tag = some e.1 := by
  obtain ⟨v, hv, htag⟩ := ht.sound e he
  obtain ⟨hlt, -⟩ := List.getElem?_eq_some_iff.mp hv
  exact ⟨v, by rw [List.getElem?_append_left hlt, hv], htag⟩

theorem Consistent.insert (ht : t.Consistent) (h : t.insert v = .ok t') : t'.Consistent := by
  obtain ⟨hname, hvars, hcase⟩ := insert_ok h
  have hnames : (t'.variants.map (·.name)).Nodup := by
    rw [hvars, List.map_append, List.nodup_append]
    refine ⟨ht.names, by simp, ?_⟩
    rintro _ ha _ hb rfl
    rw [List.map_singleton, List.mem_singleton] at hb
    exact hname (hb ▸ ha)
  rcases hcase with ⟨hkey, htag, hindex⟩ | ⟨tag, hkey, htag, hnew, hindex⟩
  · refine ⟨hnames, ?_, fun hk => absurd hkey hk, ?_⟩
    · rw [hvars, hindex]
      exact fun e he => ht.sound_append e he [v]
    · intro x hx y hy tag hxt hyt
      rw [hvars, List.mem_append, List.mem_singleton] at hx hy
      rcases hx with hx | rfl
      · rcases hy with hy | rfl
        · exact ht.tags x hx y hy tag hxt hyt
        · simp [htag] at hyt
      · simp [htag] at hxt
  · have hfresh (x : Variant i) (hx : x ∈ t.variants) : x.tag ≠ some tag := by
      intro hxt
      simp [ht.complete hkey x hx tag hxt] at hnew
    refine ⟨hnames, ?_, ?_, ?_⟩
    · rw [hvars, hindex]
      intro e he
      rcases List.mem_append.mp he with he | he
      · exact ht.sound_append e he [v]
      · rw [List.mem_singleton] at he
        exact ⟨v, by simp [he], by rw [he, htag]⟩
    · intro hk x hx tag' hxt
      rw [hvars, List.mem_append, List.mem_singleton] at hx
      simp only [hasTag, hindex, List.any_append, Bool.or_eq_true]
      rcases hx with hx | rfl
      · exact Or.inl (ht.complete hk x hx tag' hxt)
      · exact Or.inr (by simpa using htag.symm.trans hxt)
    · intro x hx y hy tag' hxt hyt
      rw [hvars, List.mem_append, List.mem_singleton] at hx hy
      rcases hx with hx | rfl <;> rcases hy with hy | rfl
      · exact ht.tags x hx y hy tag' hxt hyt
      · exact absurd (hxt.trans (hyt.symm.trans htag)) (hfresh x hx)
      · exact absurd (hyt.trans (hxt.symm.trans htag)) (hfresh y hy)
      · rfl

theorem Registered.consistent (ht : t.Registered) : t.Consistent := by
  induction ht with
  | empty => exact .empty
  | insert _ hv ih => exact ih.insert hv

theorem Consistent.nodup (ht : t.Consistent) : t.variants.Nodup :=
  List.Nodup.of_map _ ht.names

/-- In a consistent table the index finds exactly the variant of the tag. -/
theorem Consistent.byTag?_iff (ht : t.Consistent) (hk : i.tagKey ≠ none) {tag : String} :
    t.byTag? tag = some v ↔ v ∈ t.variants ∧ v.tag = some tag := by
  unfold byTag?
  constructor
  · intro h
    split at h
    · rename_i tag' n hfind
      obtain ⟨w, hw, hwt⟩ := ht.sound _ (List.mem_of_find?_eq_some hfind)
      have htag : tag' = tag := by simpa using List.find?_some hfind
      obtain rfl : w = v := by simpa [hw] using h
      exact ⟨List.mem_of_getElem? hw, by rw [hwt, htag]⟩
    · simp at h
  · rintro ⟨hv, hvt⟩
    have hhas := ht.complete hk v hv tag hvt
    split
    · rename_i tag' n hfind
      obtain ⟨w, hw, hwt⟩ := ht.sound _ (List.mem_of_find?_eq_some hfind)
      have htag : tag' = tag := by simpa using List.find?_some hfind
      rw [hw, ht.tags w (List.mem_of_getElem? hw) v hv tag (by rw [hwt, htag]) hvt]
    · rename_i hnone
      simp only [hasTag, List.any_eq_true] at hhas
      obtain ⟨e, he, heq⟩ := hhas
      exact absurd heq (List.find?_eq_none.mp hnone e he)

/-! ## Candidates -/

/-- The variants that the keys of an object allow. -/
def IsCandidate (t : VariantTable i) (members : List (String × Json)) (v : Variant i) : Prop :=
  v ∈ t.variants ∧ v.Fits members

/-- A candidate whose signature is not a strict subset of another candidate's. -/
def IsMaximal (t : VariantTable i) (members : List (String × Json)) (v : Variant i) : Prop :=
  t.IsCandidate members v ∧ ∀ c, t.IsCandidate members c → ¬v.keys ⊂ c.keys

theorem mem_candidates {keys : List String} :
    (v, keys) ∈ t.candidates members ↔ t.IsCandidate members v ∧ v.signature = some keys := by
  simp only [candidates, List.mem_filterMap, IsCandidate, Variant.Fits, Variant.keys]
  constructor
  · rintro ⟨w, hw, hsome⟩
    cases hsig : w.signature with
    | none => simp [hsig] at hsome
    | some sig =>
      simp only [hsig, Option.ite_none_right_eq_some, Option.some.injEq, Prod.mk.injEq,
        List.all_eq_true, hasKey_iff] at hsome
      obtain ⟨hall, rfl, rfl⟩ := hsome
      simpa [hsig, hw] using hall
  · rintro ⟨⟨hv, -, hall⟩, hsig⟩
    refine ⟨v, hv, ?_⟩
    simpa [hsig, hasKey_iff] using hall

theorem mem_greatest : v ∈ greatest (t.candidates members) ↔ t.IsMaximal members v := by
  simp only [greatest, List.mem_map, List.mem_filter, Bool.not_eq_true', List.any_eq_false,
    isStrictSubset_iff, Prod.exists, exists_and_right, exists_eq_right]
  constructor
  · rintro ⟨keys, hv, hmax⟩
    obtain ⟨hcand, hsig⟩ := mem_candidates.mp hv
    refine ⟨hcand, fun c hc => ?_⟩
    obtain ⟨keys', hsig'⟩ := Option.isSome_iff_exists.mp hc.2.1
    have := hmax _ (mem_candidates.mpr ⟨hc, hsig'⟩)
    simpa [Variant.keys, hsig, hsig'] using this
  · rintro ⟨hcand, hmax⟩
    obtain ⟨keys, hsig⟩ := Option.isSome_iff_exists.mp hcand.2.1
    refine ⟨keys, mem_candidates.mpr ⟨hcand, hsig⟩, ?_⟩
    rintro ⟨c, keys'⟩ hc
    obtain ⟨hc, hsig'⟩ := mem_candidates.mp hc
    simpa [Variant.keys, hsig, hsig'] using hmax c hc

/-- The maximal candidates are listed in the order of registration. -/
theorem greatest_sublist : (greatest (t.candidates members)).Sublist t.variants := by
  have hcand : ((t.candidates members).map (·.1)).Sublist t.variants := by
    unfold candidates
    generalize t.variants = vs
    induction vs with
    | nil => simp
    | cons w ws ih =>
      simp only [List.filterMap_cons]
      cases hsig : w.signature with
      | none => exact ih.cons w
      | some keys =>
        by_cases hall : keys.all (hasKey members) = true
        · simp only [hall, if_true, List.map_cons]
          exact ih.cons_cons w
        · simp only [hall]
          exact ih.cons w
  exact (List.filter_sublist.map _).trans hcand

/-- Above every candidate there is a maximal one, or it is maximal itself: among the finitely many
signatures of candidates that contain its own, take a largest. -/
theorem IsCandidate.exists_maximal (hc : t.IsCandidate members c) :
    ∃ m, t.IsMaximal members m ∧ c.keys ⊆ m.keys := by
  -- variants with equal signatures are not below each other, so that the signatures are compared
  have hfin : {s | ∃ v, t.IsCandidate members v ∧ v.keys = s}.Finite :=
    (t.variants.finite_toSet.image Variant.keys).subset
      (by rintro s ⟨v, hv, rfl⟩; exact ⟨v, hv.1, rfl⟩)
  obtain ⟨s, hle, ⟨m, hm, rfl⟩, hmax⟩ := hfin.exists_le_maximal ⟨c, hc, rfl⟩
  refine ⟨m, ⟨hm, fun d hd hlt => ?_⟩, hle⟩
  exact hlt.2 (hmax ⟨d, hd, rfl⟩ hlt.1)

/-- A candidate is the only maximal one exactly when it is above all others. -/
theorem unique_maximal_iff :
    (∀ m, t.IsMaximal members m ↔ m = d) ↔
      t.IsCandidate members d ∧ ∀ c, t.IsCandidate members c → c ≠ d → c.keys ⊂ d.keys := by
  constructor
  · intro h
    have hd : t.IsMaximal members d := (h d).mpr rfl
    refine ⟨hd.1, fun c hc hne => ?_⟩
    obtain ⟨m, hm, hle⟩ := hc.exists_maximal
    obtain rfl := (h m).mp hm
    refine ⟨hle, fun hge => hne ((h c).mp ⟨hc, fun x hx hlt => ?_⟩)⟩
    exact hm.2 x hx (lt_of_le_of_lt hge hlt)
  · rintro ⟨hd, habove⟩ m
    constructor
    · intro hm
      by_contra hne
      exact hm.2 d hd (habove m hm.1 hne)
    · rintro rfl
      refine ⟨hd, fun c hc hlt => ?_⟩
      by_cases hne : c = m
      · exact hlt.2 (hne ▸ subset_rfl)
      · exact hlt.2 (habove c hc hne).1

/-! ## The choice -/

/-- No tag decides: the interface has no tag key, or the object lacks it. -/
def Untagged (i : Interface) (members : List (String × Json)) : Prop :=
  ∀ key, i.tagKey = some key → key ∉ members.map Prod.fst

theorem select_untagged (h : Untagged i members) : t.select members = t.selectByKeys members := by
  unfold select
  split
  · rfl
  · rename_i key hkey
    simp [Json.lookup_eq_none_iff.mpr (h key hkey)]

/-- The one candidate that is left is chosen. -/
theorem selectByKeys_ok_iff :
    t.selectByKeys members = .ok d ↔ greatest (t.candidates members) = [d] := by
  unfold selectByKeys
  split <;> simp_all

/-- No variant fits exactly when there is no candidate at all. -/
theorem selectByKeys_unknown_iff :
    (∃ interface mismatch, t.selectByKeys members = .error (.unknownVariant interface mismatch)) ↔
      ∀ c, ¬t.IsCandidate members c := by
  have hnil : greatest (t.candidates members) = [] ↔ ∀ c, ¬t.IsCandidate members c := by
    rw [List.eq_nil_iff_forall_not_mem]
    simp only [mem_greatest]
    refine ⟨fun h c hc => ?_, fun h m hm => h m hm.1⟩
    obtain ⟨m, hm, -⟩ := hc.exists_maximal
    exact h m hm
  rw [← hnil]
  unfold selectByKeys
  split <;> simp_all

/-- A chosen variant is one of the table's. -/
theorem mem_of_select_ok (h : t.select members = .ok v) : v ∈ t.variants := by
  have hkeys (h : t.selectByKeys members = .ok v) : v ∈ t.variants := by
    have hv : v ∈ greatest (t.candidates members) := by simp [selectByKeys_ok_iff.mp h]
    exact greatest_sublist.subset hv
  unfold select at h
  split at h
  · exact hkeys h
  · split at h
    · unfold selectByTag at h
      split at h
      · split at h <;> cases h
        rename_i hfind
        unfold byTag? at hfind
        split at hfind
        · exact List.mem_of_getElem? hfind
        · cases hfind
      · cases h
    · exact hkeys h

/-- A choice that fails has nothing to do with the rules of a field. -/
theorem select_error {fault : DecodeFault} (h : t.select members = .error fault)
    (e : FieldFault) (v : Option VariantRef) : fault ≠ .validation e v := by
  have hkeys (h : t.selectByKeys members = .error fault) : fault ≠ .validation e v := by
    unfold selectByKeys at h
    split at h <;> cases h <;> simp
  unfold select at h
  split at h
  · exact hkeys h
  · split at h
    · unfold selectByTag at h
      split at h
      · split at h <;> cases h
        simp
      · cases h
        simp
    · exact hkeys h

theorem Consistent.nodup_greatest (ht : t.Consistent) :
    (greatest (t.candidates members)).Nodup :=
  ht.nodup.sublist greatest_sublist

/-- The chosen variant is the one candidate that is above all others. -/
theorem Consistent.selectByKeys_ok_iff_above (ht : t.Consistent) :
    t.selectByKeys members = .ok d ↔
      t.IsCandidate members d ∧ ∀ c, t.IsCandidate members c → c ≠ d → c.keys ⊂ d.keys := by
  rw [selectByKeys_ok_iff, ← unique_maximal_iff]
  constructor
  · intro h m
    rw [← mem_greatest, h, List.mem_singleton]
  · intro h
    have hmem (m : Variant i) : m ∈ greatest (t.candidates members) ↔ m = d :=
      mem_greatest.trans (h m)
    have hperm : (greatest (t.candidates members)).Perm [d] := by
      rw [List.perm_ext_iff_of_nodup ht.nodup_greatest (by simp)]
      simpa using hmem
    exact List.perm_singleton.mp hperm

/-- The names that an ambiguity reports. -/
theorem Consistent.selectByKeys_ambiguous (ht : t.Consistent)
    (hsome : ∃ c, t.IsCandidate members c) (hno : ¬∃ d, t.selectByKeys members = .ok d) :
    ∃ names, t.selectByKeys members = .error (.ambiguousVariant i.name names) ∧
      2 ≤ names.length ∧ names.Nodup ∧ names.Sublist (t.variants.map (·.name)) ∧
      ∀ v ∈ t.variants, v.name ∈ names ↔ t.IsMaximal members v := by
  have hsub : ((greatest (t.candidates members)).map (·.name)).Sublist (t.variants.map (·.name)) :=
    greatest_sublist.map _
  refine ⟨(greatest (t.candidates members)).map (·.name), ?_, ?_, ht.names.sublist hsub, hsub, ?_⟩
  · unfold selectByKeys at hno ⊢
    split
    · simp_all
    · rename_i hnil
      obtain ⟨c, hc⟩ := hsome
      obtain ⟨m, hm, -⟩ := hc.exists_maximal
      simp [← mem_greatest, hnil] at hm
    · rfl
  · rw [List.length_map]
    obtain ⟨c, hc⟩ := hsome
    obtain ⟨m, hm, -⟩ := hc.exists_maximal
    rw [← mem_greatest] at hm
    match hL : greatest (t.candidates members), hm with
    | [only], _ => exact absurd ⟨only, selectByKeys_ok_iff.mpr hL⟩ hno
    | _ :: _ :: _, _ => simp
  · intro v hv
    rw [List.mem_map, ← mem_greatest]
    refine ⟨?_, fun h => ⟨v, h, rfl⟩⟩
    rintro ⟨w, hw, hname⟩
    rwa [← List.inj_on_of_nodup_map ht.names (greatest_sublist.subset hw) hv hname]

/-! ## The order of registration -/

/-- The same variant, or the same error up to the order of the candidates that it lists. -/
inductive SameChoice : Except DecodeFault (Variant i) → Except DecodeFault (Variant i) → Prop where
  /-- The same outcome. -/
  | refl (r : Except DecodeFault (Variant i)) : SameChoice r r
  /-- An ambiguity between the same candidates. -/
  | ambiguous {interface : String} {names names' : List String} (h : names.Perm names') :
      SameChoice (.error (.ambiguousVariant interface names))
        (.error (.ambiguousVariant interface names'))

theorem isMaximal_perm (h : t.variants.Perm t'.variants) :
    t.IsMaximal members v ↔ t'.IsMaximal members v := by
  simp only [IsMaximal, IsCandidate, h.mem_iff]

theorem Consistent.greatest_perm (ht : t.Consistent) (ht' : t'.Consistent)
    (h : t.variants.Perm t'.variants) :
    (greatest (t.candidates members)).Perm (greatest (t'.candidates members)) := by
  rw [List.perm_ext_iff_of_nodup ht.nodup_greatest ht'.nodup_greatest]
  intro v
  rw [mem_greatest, mem_greatest, isMaximal_perm h]

theorem Consistent.selectByKeys_perm (ht : t.Consistent) (ht' : t'.Consistent)
    (h : t.variants.Perm t'.variants) :
    SameChoice (t.selectByKeys members) (t'.selectByKeys members) := by
  have hperm : (greatest (t.candidates members)).Perm (greatest (t'.candidates members)) :=
    ht.greatest_perm ht' h
  unfold selectByKeys
  split
  · rename_i only honly
    rw [honly] at hperm
    simp only [List.perm_singleton.mp hperm.symm]
    exact .refl _
  · rename_i hnil
    rw [hnil] at hperm
    simp only [List.perm_nil.mp hperm.symm]
    exact .refl _
  · rename_i several hone hnil
    split
    · rename_i only honly
      exact absurd (List.perm_singleton.mp (honly ▸ hperm)) (hone only)
    · rename_i hnil'
      exact absurd (List.perm_nil.mp (hnil' ▸ hperm)) hnil
    · exact .ambiguous (hperm.map _)

theorem Consistent.byTag?_perm (ht : t.Consistent) (ht' : t'.Consistent) (hk : i.tagKey ≠ none)
    (h : t.variants.Perm t'.variants) (tag : String) : t.byTag? tag = t'.byTag? tag := by
  ext v
  rw [ht.byTag?_iff hk, ht'.byTag?_iff hk, h.mem_iff]

theorem Consistent.select_perm (ht : t.Consistent) (ht' : t'.Consistent)
    (h : t.variants.Perm t'.variants) :
    SameChoice (t.select members) (t'.select members) := by
  unfold select
  split
  · exact ht.selectByKeys_perm ht' h
  · rename_i key hkey
    split
    · have hk : i.tagKey ≠ none := by simp [hkey]
      simp only [selectByTag, ht.byTag?_perm ht' hk h]
      exact .refl _
    · exact ht.selectByKeys_perm ht' h

end VariantTable

/-- The choice in an object where no tag decides: a variant is chosen exactly when it is a candidate
whose signature strictly contains those of all other candidates; no variant fits exactly when there
is no candidate; in every other case the maximal candidates, which are at least two, are reported in
the order of registration. Whatever the object, the order of registration matters to nothing but the
order of that report. -/
theorem select_greatest {t : VariantTable i} (ht : t.Registered) :
    (∀ members, VariantTable.Untagged i members →
      (∀ d, t.select members = .ok d ↔
        t.IsCandidate members d ∧ ∀ c, t.IsCandidate members c → c ≠ d → c.keys ⊂ d.keys) ∧
      ((∃ interface mismatch, t.select members = .error (.unknownVariant interface mismatch)) ↔
        ¬∃ c, t.IsCandidate members c) ∧
      ((∃ c, t.IsCandidate members c) → (¬∃ d, t.select members = .ok d) →
        ∃ names, t.select members = .error (.ambiguousVariant i.name names) ∧
          2 ≤ names.length ∧ names.Nodup ∧ names.Sublist (t.variants.map (·.name)) ∧
          ∀ v ∈ t.variants, v.name ∈ names ↔
            t.IsCandidate members v ∧ ¬∃ c, t.IsCandidate members c ∧ v.keys ⊂ c.keys)) ∧
    ∀ t' : VariantTable i, t'.Registered → t.variants.Perm t'.variants → ∀ members,
      VariantTable.SameChoice (t.select members) (t'.select members) := by
  have hc := ht.consistent
  refine ⟨fun members hu => ?_, fun t' ht' h members => hc.select_perm ht'.consistent h⟩
  simp only [VariantTable.select_untagged hu]
  refine ⟨fun d => hc.selectByKeys_ok_iff_above, ?_, fun hsome hno => ?_⟩
  · rw [VariantTable.selectByKeys_unknown_iff, not_exists]
  · obtain ⟨names, heq, hlen, hnd, hsub, hmem⟩ := hc.selectByKeys_ambiguous hsome hno
    refine ⟨names, heq, hlen, hnd, hsub, fun v hv => ?_⟩
    rw [hmem v hv, VariantTable.IsMaximal, not_exists]
    simp only [not_and]

/-- A shape that is told by its keys. -/
def shape (name : String) (keys : List String) : Variant (.custom "Shape" none) :=
  .structural name keys (.custom fun _ _ => .ok (.string name))

/-- Three shapes, of which the second and the third extend the first. -/
def shapes : VariantTable (.custom "Shape" none) :=
  ⟨[shape "a" ["x"], shape "b" ["y", "x", "y"], shape "c" ["x", "z"]], []⟩

/-- The same shapes, registered the other way round. -/
def shapesReversed : VariantTable (.custom "Shape" none) :=
  ⟨[shape "c" ["x", "z"], shape "b" ["y", "x", "y"], shape "a" ["x"]], []⟩

theorem select_greatest_shapes :
    (∃ names,
      shapes.select [("x", .null), ("y", .null), ("z", .null)] =
        .error (.ambiguousVariant "Shape" names) ∧ 2 ≤ names.length ∧
      ("a" ∈ names ↔
        shapes.IsMaximal [("x", .null), ("y", .null), ("z", .null)] (shape "a" ["x"]))) ∧
    VariantTable.SameChoice (shapes.select [("x", .null), ("y", .null)])
      (shapesReversed.select [("x", .null), ("y", .null)]) := by
  have ht : shapes.Registered :=
    .insert (v := shape "c" ["x", "z"])
      (.insert (v := shape "b" ["y", "x", "y"]) (.insert (v := shape "a" ["x"]) .empty rfl) rfl) rfl
  have ht' : shapesReversed.Registered :=
    .insert (v := shape "a" ["x"])
      (.insert (v := shape "b" ["y", "x", "y"])
        (.insert (v := shape "c" ["x", "z"]) .empty rfl) rfl) rfl
  obtain ⟨hchoice, horder⟩ := select_greatest ht
  refine ⟨?_, horder shapesReversed ht' (List.reverse_perm shapes.variants).symm _⟩
  have hu : VariantTable.Untagged (.custom "Shape" none)
      [("x", .null), ("y", .null), ("z", .null)] := by
    simp [VariantTable.Untagged, Interface.tagKey]
  have hsel : shapes.select [("x", .null), ("y", .null), ("z", .null)] =
      .error (.ambiguousVariant "Shape" ["b", "c"]) := rfl
  have hcand : shapes.IsCandidate [("x", .null), ("y", .null), ("z", .null)] (shape "a" ["x"]) := by
    simp [VariantTable.IsCandidate, shapes, Variant.Fits, Variant.keys, shape, Variant.structural]
  obtain ⟨names, heq, hlen, -, -, hmem⟩ :=
    (hchoice _ hu).2.2 ⟨_, hcand⟩ (by rw [hsel]; rintro ⟨d, hd⟩; cases hd)
  refine ⟨names, heq, hlen, (hmem _ hcand.1).trans ?_⟩
  simp only [VariantTable.IsMaximal, not_exists, not_and]

end QueryScope
