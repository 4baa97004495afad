import QueryScope.Proofs.Fallback

/-!
# Choosing and reading a handle require the same fields

The variant of a handle is chosen by the keys of its object, and the description of the variant then
requires fields of the same object. Keys and fields are listed apart, but every required field is
among the keys that the choice has seen. So a field of a handle is missing only where the object has
it and its value is `null`.
-/

namespace QueryScope

variable {α : Type} {i : Interface} {p : Path} {v : Json} {e : DecodeError}
  {members : List (String × Json)} {signature : List String}

/-! ## Scalars -/

/-- Whatever a scalar refuses, the error points at the value itself. -/
theorem Codec.Standard.locates_of_isScalar {c : Codec α} (hc : c.Standard)
    (hs : c.isScalar = true) : c.Locates v := by
  cases hc with
  | json => exact locates_scalar fun _ _ h => by cases h
  | bool => exact locates_scalar fun v _ h => by cases v <;> cases h
  | string => exact locates_scalar fun v _ h => by cases v <;> cases h
  | double =>
    refine locates_scalar fun v _ h => ?_
    split at h <;> cases h
  | int64 => exact locates_scalar fun _ _ h => (readInt64_error h).fits
  | int32 => exact locates_scalar fun _ _ h => (readInt32_error h).fits
  | uint64 => exact locates_scalar fun _ _ h => readUInt64_error h
  | uint32 => exact locates_scalar fun _ _ h => readUInt32_error h
  | nameId role => exact locates_text fun _ _ h => NameId.parse_error h
  | queryId => exact locates_text fun _ _ h => QueryId.parse_error h
  | stageId => exact locates_text fun _ _ h => StageId.parse_error h
  | taskId => exact locates_text fun _ _ h => TaskId.parse_error h
  | transactionId => exact locates_text fun _ _ h => TransactionId.parse_error h
  | named α => exact locates_text fun _ _ h => Named.parse_error h
  | measure => exact locates_text fun _ _ h => Measure.parse_error h
  | _ => cases hs

/-- A scalar never says that something is missing. -/
theorem Codec.Standard.not_isMissing {c : Codec α} (hc : c.Standard) (hs : c.isScalar = true)
    (h : c.decodeAt .standard p v = .error e) : ¬e.IsMissing := by
  rintro ⟨field, variant, hfault⟩
  have hlocates : c.Locates v := hc.locates_of_isScalar hs
  cases c with
  | scalar read =>
    rw [decodeAt_scalar, mapError_eq_error_iff] at h
    obtain ⟨refusal, hread, rfl⟩ := h
    have hroot : (scalar read).decode .standard v = .error (.refused .root refusal) := by
      rw [decode, decodeAt_scalar, hread]
      rfl
    cases refusal with
    | malformed m => cases hfault
    | invalid reason =>
      cases hfault
      -- a missing field is below the object that lacks it, but the error stands at the value
      obtain ⟨place, name, members, hpath, -⟩ := (hlocates _ hroot).missing ⟨_, _, rfl⟩
      have hlength : 0 = (place ++ [Path.Segment.field name]).length := congrArg List.length hpath
      rw [List.length_append, List.length_singleton] at hlength
      omega
  | _ => cases hs

/-! ## Required fields -/

/-- The names of the fields that may be neither absent nor null. -/
def Fields.requiredNames : {α : Type} → Fields α → List String
  | _, .pure _ => []
  | _, .required fields name _ => fields.requiredNames ++ [name]
  | _, .optional fields _ _ | _, .defaulted fields _ _ _ | _, .verbatim fields _ _ =>
    fields.requiredNames

/-- Whether the object consists of scalars, and the required ones are among the keys. -/
def Body.isPromisedBy (signature : List String) : Body α → Bool
  | .record fields =>
    fields.entries.all (·.codec.isScalar) && fields.requiredNames.all signature.contains
  | .memberless _ _ => true
  | _ => false

theorem Codec.Standard.not_isMissing_field {β γ : Type} {c : Codec β} {name : String}
    {found : β → γ} {absent : Except DecodeError γ} (hc : c.Standard) (hs : c.isScalar = true)
    (h : c.decodeField .standard p members name found absent = .error e) (hm : e.IsMissing) :
    Json.present? members name = none ∧ absent = .error e := by
  rcases Codec.decodeField_error_iff.mp h with ⟨w, -, hw⟩ | hnone
  · exact absurd hm (hc.not_isMissing hs hw)
  · exact hnone

/-- Where scalars are read, only a required field can be missing. -/
theorem Fields.exists_required_of_isMissing {fields : Fields α} (hf : fields.Standard)
    (hs : ∀ entry ∈ fields.entries, entry.codec.isScalar = true)
    (h : fields.decodeAt .standard p members = .error e) (hm : e.IsMissing) :
    ∃ name ∈ fields.requiredNames,
      Json.present? members name = none ∧ e = .ofField p ⟨name, .missing⟩ := by
  induction fields with
  | pure a => cases h
  | required fields name c ih =>
    rw [entries, List.forall_mem_append, List.forall_mem_singleton] at hs
    rw [decodeAt_required] at h
    rcases bind_eq_error_iff.mp h with h | ⟨build, -, h⟩
    · obtain ⟨before, hbefore, hmissing⟩ := ih hf.1 hs.1 h
      exact ⟨before, List.mem_append_left _ hbefore, hmissing⟩
    rcases bind_eq_error_iff.mp h with h | ⟨_, -, h⟩
    · obtain ⟨hnone, herror⟩ := hf.2.not_isMissing_field hs.2 h hm
      cases herror
      exact ⟨name, List.mem_append_right _ (List.mem_singleton_self name), hnone, rfl⟩
    · cases h
  | optional fields name c ih =>
    rw [entries, List.forall_mem_append, List.forall_mem_singleton] at hs
    rw [decodeAt_optional] at h
    rcases bind_eq_error_iff.mp h with h | ⟨build, -, h⟩
    · exact ih hf.1 hs.1 h
    rcases bind_eq_error_iff.mp h with h | ⟨_, -, h⟩
    · obtain ⟨-, herror⟩ := hf.2.not_isMissing_field hs.2 h hm
      cases herror
    · cases h
  | defaulted fields name c default ih =>
    rw [entries, List.forall_mem_append, List.forall_mem_singleton] at hs
    rw [decodeAt_defaulted] at h
    rcases bind_eq_error_iff.mp h with h | ⟨build, -, h⟩
    · exact ih hf.1 hs.1 h
    rcases bind_eq_error_iff.mp h with h | ⟨_, -, h⟩
    · obtain ⟨-, herror⟩ := hf.2.not_isMissing_field hs.2 h hm
      cases herror
    · cases h
  | verbatim fields name absent ih =>
    rw [entries, List.forall_mem_append] at hs
    rw [decodeAt_verbatim] at h
    rcases bind_eq_error_iff.mp h with h | ⟨build, -, h⟩
    · exact ih hf hs.1 h
    · split at h <;> cases h
      obtain ⟨_, _, hfault⟩ := hm
      cases hfault

/-- Where the keys promise what is required, only a key can be missing. -/
theorem Body.exists_key_of_isMissing {b : Body α} (hb : b.Standard)
    (hp : b.isPromisedBy signature = true) (h : b.decodeAt .standard p members = .error e)
    (hm : e.IsMissing) : ∃ name ∈ signature,
      Json.present? members name = none ∧ e = .ofField p ⟨name, .missing⟩ := by
  cases hb with
  | record hf =>
    rw [isPromisedBy, Bool.and_eq_true, List.all_eq_true, List.all_eq_true] at hp
    obtain ⟨hscalars, hkeys⟩ := hp
    rw [decodeAt_record] at h
    obtain ⟨name, hname, hmissing⟩ := Fields.exists_required_of_isMissing hf hscalars h hm
    exact ⟨name, List.contains_iff_mem.mp (hkeys name hname), hmissing⟩
  | memberless interface a =>
    rw [decodeAt_memberless] at h
    split at h <;> cases h
    obtain ⟨_, _, hfault⟩ := hm
    cases hfault
  | _ => cases hp

/-! ## Handles -/

/-- The keys of every handle promise what its description requires. -/
theorem Interface.isPromisedBy_signature (hi : i.isHandle = true) :
    ∀ w ∈ i.variants, w.body.isPromisedBy (w.signature.getD []) = true := by
  cases i <;> first | decide +kernel | cases hi

theorem Interface.signature_isSome (hi : i.isHandle = true) :
    ∀ w ∈ i.variants, w.signature.isSome = true := by
  cases i <;> first | decide +kernel | cases hi

theorem Interface.isCandidate_of_select {w : Variant i} (hi : i.isHandle = true)
    (h : i.standardTable.select members = .ok w) : i.standardTable.IsCandidate members w := by
  rw [VariantTable.select_of_tagKey (tagKey_of_isHandle hi)] at h
  exact ((i.standardTable_consistent hi).selectByKeys_ok_iff_above.mp h).1

theorem DecodeError.isMissing_of_within {ref : VariantRef} {field : String}
    {variant : Option VariantRef}
    (h : (e.within ref).fault = .validation ⟨field, .missing⟩ variant) : e.IsMissing := by
  obtain ⟨path, fault⟩ := e
  cases fault with
  | validation fault inner => cases inner <;> cases h <;> exact ⟨_, _, rfl⟩
  | _ => cases h

/-- What is missing in a handle is a key of the chosen variant, and its value is `null`. -/
theorem Interface.exists_null_of_missing {field : String} {variant : Option VariantRef}
    (hi : i.isHandle = true)
    (h : (Codec.interface i).decodeAt .standard p (.object members) = .error e)
    (hfault : e.fault = .validation ⟨field, .missing⟩ variant) :
    ∃ w signature, i.variant? members = some w ∧ w.signature = some signature ∧
      field ∈ signature ∧ Json.lookup members field = some .null ∧
        variant = some ⟨i.name, w.name⟩ ∧ e.path = p.child (.field field) := by
  rw [Codec.decodeAt_interface] at h
  simp only [decodeAt, table?_of_isHandle hi] at h
  split at h
  next fault hselect =>
    cases h
    exact absurd hfault (VariantTable.select_error hselect _ _)
  next w hselect =>
    obtain ⟨e', he', rfl⟩ := mapError_eq_error_iff.mp h
    have hcandidate := isCandidate_of_select hi hselect
    obtain ⟨signature, hsignature⟩ :=
      Option.isSome_iff_exists.mp (signature_isSome hi w hcandidate.1)
    have hpromised := isPromisedBy_signature hi w hcandidate.1
    rw [hsignature, Option.getD_some] at hpromised
    obtain ⟨key, hkey, hnone, rfl⟩ := Body.exists_key_of_isMissing
      (i.variants_standard w hcandidate.1) hpromised he' (DecodeError.isMissing_of_within hfault)
    cases hfault
    refine ⟨w, signature, variant?_eq_some_iff.mpr ⟨_, table?_of_isHandle hi, hselect⟩,
      hsignature, hkey, ?_, rfl, rfl⟩
    -- the choice has seen the key, so that it is not absent
    have hpresent : field ∈ members.map Prod.fst :=
      hcandidate.2.2 field (by rw [Variant.keys, hsignature]; exact List.mem_toFinset.mpr hkey)
    rcases Json.present?_eq_none_iff.mp hnone with habsent | hnull
    · exact absurd hpresent (Json.lookup_eq_none_iff.mp habsent)
    · exact hnull

/-- A field is missing in a handle only when it is a key of the chosen variant with the value
`null`; the error stands at that key and names the variant. So nothing is ever missing in an object
that has a value for every key of the chosen variant, whatever other keys it has. -/
theorem Interface.missing_null_of_isHandle (hi : i.isHandle = true) (p : Path)
    (members : List (String × Json)) :
    (∀ e field variant, (Codec.interface i).decodeAt .standard p (.object members) = .error e →
      e.fault = .validation ⟨field, .missing⟩ variant →
        ∃ w signature, i.variant? members = some w ∧ w.signature = some signature ∧
          field ∈ signature ∧ Json.lookup members field = some .null ∧
            variant = some ⟨i.name, w.name⟩ ∧ e.path = p.child (.field field)) ∧
      ∀ w signature, i.variant? members = some w → w.signature = some signature →
        (∀ key ∈ signature, ∃ value, Json.lookup members key = some value ∧ value ≠ .null) →
          ∀ e, (Codec.interface i).decodeAt .standard p (.object members) = .error e →
            ¬e.IsMissing := by
  refine ⟨fun _ _ _ h hfault => exists_null_of_missing hi h hfault,
    fun w signature hw hsignature hvalues e h => ?_⟩
  rintro ⟨field, variant, hfault⟩
  obtain ⟨w', signature', hw', hsignature', hfield, hlookup, -⟩ :=
    exists_null_of_missing hi h hfault
  rw [hw] at hw'
  cases hw'
  rw [hsignature] at hsignature'
  cases hsignature'
  obtain ⟨value, hvalue, hne⟩ := hvalues field hfield
  rw [hlookup] at hvalue
  cases hvalue
  exact hne rfl

/-- The members of a table with a null among them, and with one that belongs to no table. -/
def ConnectorTable.nullMembers : List (String × Json) :=
  [("catalog", .string "lake"), ("schemaName", .null), ("tableName", .string "orders")]

theorem Interface.missing_null_of_isHandle_table :
    ∃ e w, (Codec.interface .table).decodeAt .standard .root
        (.object ConnectorTable.nullMembers) = .error e ∧ e.IsMissing ∧
      Interface.variant? .table ConnectorTable.nullMembers = some w ∧ w.name = "hive" ∧
        Json.lookup ConnectorTable.nullMembers "schemaName" = some .null := by
  have herror : (Codec.interface .table).decodeAt .standard .root
      (.object ConnectorTable.nullMembers) = .error ⟨Path.root.child (.field "schemaName"),
        .validation ⟨"schemaName", .missing⟩ (some ⟨"ConnectorTableHandle", "hive"⟩)⟩ := rfl
  obtain ⟨hnull, -⟩ := missing_null_of_isHandle (i := .table) rfl .root ConnectorTable.nullMembers
  obtain ⟨w, signature, hw, -, -, hlookup, hvariant, -⟩ := hnull _ _ _ herror rfl
  have hname : w.name = "hive" := (congrArg VariantRef.variant (Option.some.inj hvariant)).symm
  exact ⟨_, w, herror, ⟨_, _, rfl⟩, hw, hname, hlookup⟩

end QueryScope
