import QueryScope.Proofs.Entries
import QueryScope.Proofs.Identity
import QueryScope.Proofs.Registration

/-!
# The transaction without members

One transaction has no keys of its own, so that every object is a candidate for it. It is chosen
where nothing else fits, and refuses what it is not meant for with the words that are used where
nothing fits at all. So it takes the empty object, and for any other value it might as well not be
registered.
-/

namespace QueryScope

variable {α : Type} {i : Interface} {reg reg' : Registry} {p : Path}
  {members : List (String × Json)}

/-! ## A variant without keys -/

namespace VariantTable

variable {t t' : VariantTable i} {c v : Variant i}

/-- Of what no variant fits, the keys are listed. -/
theorem selectByKeys_of_no_candidate (hno : ∀ c, ¬t.IsCandidate members c) :
    t.selectByKeys members = .error (.unknownVariant i.name (.keys (members.map Prod.fst))) := by
  obtain ⟨interface, mismatch, hunknown⟩ := selectByKeys_unknown_iff.mpr hno
  unfold selectByKeys at hunknown ⊢
  split at hunknown
  · cases hunknown
  · rfl
  · cases hunknown

theorem fits_of_keyless (hv : v.signature = some []) : v.Fits members := by
  refine ⟨by rw [hv]; rfl, fun key hkey => ?_⟩
  rw [Variant.keys, hv] at hkey
  cases hkey

/-- Without keys a variant is below all candidates that have some. -/
theorem keys_ssubset_of_keyless (hv : v.signature = some []) (hc : t.IsCandidate members c)
    (hkeyed : ∀ w ∈ t.variants, w.signature ≠ some []) : v.keys ⊂ c.keys := by
  obtain ⟨keys, hkeys⟩ := Option.isSome_iff_exists.mp hc.2.1
  have hne : keys ≠ [] := by
    rintro rfl
    exact hkeyed c hc.1 hkeys
  have hv : v.keys = ∅ := by rw [Variant.keys, hv]; rfl
  have hc : c.keys.Nonempty := by
    rw [Variant.keys, hkeys]
    exact (List.toFinset_nonempty_iff _).mpr hne
  rw [hv]
  exact hc.empty_ssubset

/-- Behind variants with keys, one without keys is chosen where nothing fitted before, and makes no
difference elsewhere. -/
theorem selectByKeys_append_keyless (ht' : t'.Consistent) (h : t'.variants = t.variants ++ [v])
    (hv : v.signature = some []) (hkeyed : ∀ w ∈ t.variants, w.signature ≠ some []) :
    t'.selectByKeys members = t.selectByKeys members ∨
      t'.selectByKeys members = .ok v ∧
        t.selectByKeys members =
          .error (.unknownVariant i.name (.keys (members.map Prod.fst))) := by
  have hfits : v.Fits members := fits_of_keyless hv
  by_cases hsome : ∃ c, t.IsCandidate members c
  · -- whatever else fits is above, so that the keyless variant is out
    obtain ⟨c, hc⟩ := hsome
    left
    exact selectByKeys_append_of_below h hv hfits ⟨c, hc, keys_ssubset_of_keyless hv hc hkeyed⟩
  · have hno : ∀ c, ¬t.IsCandidate members c := not_exists.mp hsome
    right
    exact ⟨selectByKeys_append_of_above ht' h hfits fun c hc => absurd hc (hno c),
      selectByKeys_of_no_candidate hno⟩

end VariantTable

/-! ## Reading without the registry -/

/-- Whether the value is read without a look at the registry. -/
def Codec.isScalar : {α : Type} → Codec α → Bool
  | _, .scalar _ => true
  | _, _ => false

theorem Codec.decodeAt_of_isScalar {c : Codec α} (hc : c.isScalar = true) (v : Json)
    (reg reg' : Registry) : c.decodeAt reg' p v = c.decodeAt reg p v := by
  cases c with
  | scalar read => rw [decodeAt_scalar, decodeAt_scalar]
  | _ => cases hc

theorem Codec.decodeField_of_isScalar {β γ : Type} {c : Codec β} (hc : c.isScalar = true)
    {name : String} {found : β → γ} {absent : Except DecodeError γ} (reg reg' : Registry) :
    c.decodeField reg' p members name found absent =
      c.decodeField reg p members name found absent := by
  unfold decodeField
  split
  · rw [decodeAt_of_isScalar hc _ reg]
  · rfl

/-- Fields of scalars are read alike under all registries. -/
theorem Fields.decodeAt_of_isScalar {fields : Fields α}
    (h : ∀ entry ∈ fields.entries, entry.codec.isScalar = true) (reg reg' : Registry) :
    fields.decodeAt reg' p members = fields.decodeAt reg p members := by
  induction fields with
  | pure a => rfl
  | required fields name c ih | optional fields name c ih | defaulted fields name c _ ih =>
    rw [entries, List.forall_mem_append, List.forall_mem_singleton] at h
    have hc : c.isScalar = true := h.2
    simp only [decodeAt_required, decodeAt_optional, decodeAt_defaulted, ih h.1,
      Codec.decodeField_of_isScalar hc reg reg']
  | verbatim fields name absent ih =>
    rw [entries, List.forall_mem_append, List.forall_mem_singleton] at h
    rw [decodeAt_verbatim, decodeAt_verbatim, ih h.1]

/-! ## One more variant, without keys or members -/

/-- Behind variants with keys that are read without the registry, a variant without keys that takes
no members changes nothing for objects with members. -/
theorem Interface.decodeAt_append_memberless {t t' : VariantTable i} {v : Variant i} {a : i.Value}
    (hkey : i.tagKey = none) (ht : reg.table? i = some t) (ht' : reg'.table? i = some t')
    (hconsistent : t'.Consistent) (happend : t'.variants = t.variants ++ [v])
    (hv : v.signature = some []) (hbody : v.body = .memberless i.name a)
    (hkeyed : ∀ w ∈ t.variants, w.signature ≠ some [])
    (hsame : ∀ w ∈ t.variants, w.body.decodeAt reg' p members = w.body.decodeAt reg p members)
    (hmembers : members ≠ []) : i.decodeAt reg' p members = i.decodeAt reg p members := by
  unfold Interface.decodeAt
  rw [ht, ht']
  simp only
  rcases VariantTable.selectByKeys_append_keyless hconsistent happend hv hkeyed with
    hselect | ⟨hselect, hunknown⟩
  · rw [VariantTable.select_of_tagKey hkey, hselect, ← VariantTable.select_of_tagKey hkey]
    cases hd : t.select members with
    | error fault => rfl
    | ok w => simp only [hsame w (VariantTable.mem_of_select_ok hd)]
  · -- the variant refuses the members as if nothing had fitted
    rw [VariantTable.select_of_tagKey hkey, VariantTable.select_of_tagKey hkey, hselect, hunknown]
    simp only [hbody, Body.decodeAt_memberless, if_neg hmembers]
    rfl

/-! ## The remote transaction -/

namespace Registry

/-- Add every standard variant but the remote transaction. -/
def registerWithoutRemote (r : Registry) : Except RegistryError Registry := do
  let r ← r.registerAll ConnectorPartitioning.variants
  let r ← r.registerAll (ConnectorTransaction.variants.filter fun v => v.name != "remote")
  let r ← r.registerAll ConnectorTable.variants
  let r ← r.registerAll ConnectorColumn.variants
  let r ← r.registerAll Expression.variants
  r.registerAll PlanNode.variants

/-- The standard variants but the remote transaction, and no others. -/
def withoutRemote : Registry :=
  match empty.registerWithoutRemote with
  | .ok r => r
  | .error _ => empty

theorem registerWithoutRemote_empty : empty.registerWithoutRemote = .ok withoutRemote := by
  rfl

end Registry

namespace ConnectorTransaction

/-- The transactions that have members. -/
def tableWithoutRemote : VariantTable .transaction :=
  ⟨variants.filter fun v => v.name != "remote", []⟩

theorem table?_withoutRemote :
    Registry.withoutRemote.table? .transaction = some tableWithoutRemote := by
  rfl

/-- The remote transaction comes behind the transactions that have members. -/
theorem variants_eq_append : (Interface.standardTable .transaction).variants =
    tableWithoutRemote.variants ++
      [.structural "remote" [] (.memberless (Interface.name .transaction) remote)] := by
  rfl

theorem mem_tableWithoutRemote {w : Variant .transaction} (hw : w ∈ tableWithoutRemote.variants) :
    w ∈ variants ∧ w.name ≠ "remote" := by
  simpa [tableWithoutRemote] using hw

/-- The transactions that have members are read from fields, all of which are scalars. -/
theorem tableWithoutRemote_scalar : ∀ w ∈ tableWithoutRemote.variants,
    ∃ fields, w.body = .record fields ∧ ∀ entry ∈ fields.entries, entry.codec.isScalar = true := by
  intro w hw
  obtain ⟨hmem, hname⟩ := mem_tableWithoutRemote hw
  simp only [variants, List.mem_cons, List.not_mem_nil, or_false] at hmem
  rcases hmem with rfl | rfl | rfl
  · exact ⟨_, rfl, by decide⟩
  · exact ⟨_, rfl, by decide⟩
  · exact absurd rfl hname

/-- Without the remote transaction nothing is decoded as one. -/
theorem decodeAt_withoutRemote_ne {v : Json} :
    (Codec.interface .transaction).decodeAt .withoutRemote p v ≠ .ok remote := by
  intro h
  rw [Codec.decodeAt_interface] at h
  cases v with
  | object members =>
    simp only [Interface.decodeAt, table?_withoutRemote] at h
    split at h
    · cases h
    next w hselect =>
      -- a value says the name of the variant that it was read by
      have hw := VariantTable.mem_of_select_ok hselect
      obtain ⟨hmem, hname⟩ := mem_tableWithoutRemote hw
      obtain ⟨fields, hbody, -⟩ := tableWithoutRemote_scalar w hw
      have hbuilds := Interface.variants_build .transaction w hmem
      rw [hbody] at hbuilds h
      have hread := mapError_eq_ok_iff.mp h
      rw [Body.decodeAt_record] at hread
      exact hname (Fields.Builds.of_decodeAt hbuilds hread).symm
  | _ => cases h

theorem decodeAt_eq_withoutRemote {v : Json} (hv : v ≠ .object []) :
    (Codec.interface .transaction).decodeAt .standard p v =
      (Codec.interface .transaction).decodeAt .withoutRemote p v := by
  rw [Codec.decodeAt_interface, Codec.decodeAt_interface]
  cases v with
  | object members =>
    have hmembers : members ≠ [] := by
      rintro rfl
      exact hv rfl
    refine Interface.decodeAt_append_memberless rfl table?_withoutRemote
      (Interface.table?_of_isHandle rfl) (Interface.standardTable_consistent rfl)
      variants_eq_append rfl rfl (by decide) (fun w hw => ?_) hmembers
    obtain ⟨fields, hbody, hscalar⟩ := tableWithoutRemote_scalar w hw
    rw [hbody, Body.decodeAt_record, Body.decodeAt_record]
    exact Fields.decodeAt_of_isScalar hscalar _ _
  | _ => rfl

/-- The remote transaction stands for the empty object and for nothing else. Any other value is
decoded at any path as if the transaction were not registered, with the same value or the same error
at the same place; so no object with a member is decoded as the remote transaction. -/
theorem remote_fallback :
    ∃ R' : Registry, Registry.empty.registerWithoutRemote = .ok R' ∧
      (∀ p v, v ≠ .object [] → (Codec.interface .transaction).run .standard p v =
        (Codec.interface .transaction).run R' p v) ∧
      (∀ p, (Codec.interface .transaction).run .standard p (.object []) = (.ok remote, p)) ∧
      ∀ p m rest, (Codec.interface .transaction).decodeAt .standard p (.object (m :: rest)) ≠
        .ok remote := by
  refine ⟨.withoutRemote, Registry.registerWithoutRemote_empty, fun p v hv => ?_, fun p => ?_,
    fun p m rest hremote => ?_⟩
  · rw [Codec.run_eq, Codec.run_eq, decodeAt_eq_withoutRemote hv]
  · rw [Codec.run_eq]
    rfl
  · rw [decodeAt_eq_withoutRemote (by simp)] at hremote
    exact decodeAt_withoutRemote_ne hremote

/-- Members that belong to no transaction. -/
def unclaimedMembers : List (String × Json) :=
  [("bar", .null), ("foo", .bool true)]

theorem remote_fallback_unclaimed :
    ∃ R' : Registry, Registry.empty.registerWithoutRemote = .ok R' ∧
      Json.object unclaimedMembers ≠ .object [] ∧
      (Codec.interface .transaction).run R' .root (.object unclaimedMembers) =
        (.error ⟨.root, .unknownVariant "ConnectorTransactionHandle" (.keys ["bar", "foo"])⟩,
          .root) := by
  obtain ⟨R', hR', hsame, -, -⟩ := remote_fallback
  have hne : Json.object unclaimedMembers ≠ .object [] := by simp [unclaimedMembers]
  refine ⟨R', hR', hne, ?_⟩
  rw [← hsame .root _ hne]
  rfl

end ConnectorTransaction

end QueryScope
