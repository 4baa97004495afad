import QueryScope.Proofs.Location.Record

/-!
# Every error points at the place that is wrong

The path of an error is made by descending into fields, items and keys, by naming a required field
that is missing and by naming a field that a check refuses. Whichever of these it is, the path leads
through the payload to the value that is wrong, or to the object in which it is missing.
-/

namespace QueryScope

variable {α β : Type} {c : Codec α} {v : Json} {e : DecodeError}
  {members : List (String × Json)}

/-- Readers of kinds of payloads point into the value. -/
def Json.Locating (v : Json) : Prop :=
  ∀ {α : Type} {c : Codec α}, c.Standard → c.Locates v

/-! ## Parts -/

theorem Codec.locates_list (hc : c.Standard) {items : List Json} (ih : ∀ w ∈ items, w.Locating) :
    c.list.Locates (.array items) := by
  intro e he
  rw [decode, decodeAt_list] at he
  obtain ⟨before, w, after, rfl, -, he⟩ := decodeItems_error_iff.mp he
  rw [Nat.zero_add] at he
  have hstep : (Json.array (before ++ w :: after)).step? (.index before.length) = some w := by
    simp [Json.step?]
  exact (ih w (by simp) hc).step hstep rfl he

/-- The keys of a map are distinct, so that each leads to its own value. -/
theorem Codec.locates_keyed {key : String → Except Reason β} (hc : c.Standard)
    (hkey : ∀ name reason, key name = .error reason → reason.IsPlain)
    (hnd : (members.map Prod.fst).Nodup) (ih : ∀ m ∈ members, m.2.Locating) :
    (Codec.keyed key c).Locates (.object members) := by
  intro e he
  rw [decode, decodeAt_keyed] at he
  obtain ⟨before, m, after, rfl, -, hcase⟩ := decodeKeyed_error_iff.mp he
  have hm : m ∈ before ++ m :: after := by simp
  have hstep : (Json.object (before ++ m :: after)).step? (.key m.1) = some m.2 :=
    Json.lookup_of_mem hnd hm
  rcases hcase with ⟨reason, hreason, rfl⟩ | ⟨-, he⟩
  · have hat := DecodeError.LocatedIn.invalid (hkey m.1 reason hreason).fits (v := m.2)
    have hpath := hat.relocate hstep
    rwa [DecodeError.relocate_invalid, Path.append_root] at hpath
  · exact (ih m hm hc).step hstep rfl he

/-! ## Objects -/

theorem Codec.decodeField_error {γ : Type} {name : String} {found : α → γ}
    {absent : Except DecodeError γ} (hc : c.Standard) (ih : ∀ m ∈ members, m.2.Locating)
    (h : c.decodeField .standard .root members name found absent = .error e) :
    e.LocatedIn (.object members) ∨
      (Json.present? members name = none ∧ absent = .error e) := by
  rcases decodeField_error_iff.mp h with ⟨w, hv, h⟩ | hnone
  · have hlookup := (Json.present?_eq_some_iff.mp hv).1
    have hstep : (Json.object members).step? (.field name) = some w := hlookup
    exact Or.inl ((ih (name, w) (Json.mem_of_lookup hlookup) hc).step hstep rfl h)
  · exact Or.inr hnone

theorem DecodeError.LocatedIn.missing_field {name : String}
    (h : Json.present? members name = none) :
    (DecodeError.ofField .root ⟨name, .missing⟩).LocatedIn (.object members) where
  missing _ := ⟨[], name, members, rfl, rfl, Json.present?_eq_none_iff.mp h⟩
  present hm := absurd ⟨_, _, rfl⟩ hm
  field fault variant hf := by
    cases hf
    rfl
  negative field k variant hf := by cases hf

theorem Fields.located {fields : Fields α} (hf : fields.Standard)
    (ih : ∀ m ∈ members, m.2.Locating)
    (h : fields.decodeAt .standard .root members = .error e) : e.LocatedIn (.object members) := by
  induction fields with
  | pure a => cases h
  | required fields name c ihf =>
    rw [decodeAt_required] at h
    rcases bind_eq_error_iff.mp h with h | ⟨build, -, h⟩
    · exact ihf hf.1 h
    rcases bind_eq_error_iff.mp h with h | ⟨_, -, h⟩
    · rcases Codec.decodeField_error hf.2 ih h with h | ⟨hnone, h⟩
      · exact h
      · cases h
        exact .missing_field hnone
    · cases h
  | optional fields name c ihf =>
    rw [decodeAt_optional] at h
    rcases bind_eq_error_iff.mp h with h | ⟨build, -, h⟩
    · exact ihf hf.1 h
    rcases bind_eq_error_iff.mp h with h | ⟨_, -, h⟩
    · rcases Codec.decodeField_error hf.2 ih h with h | ⟨-, h⟩
      · exact h
      · cases h
    · cases h
  | defaulted fields name c default ihf =>
    rw [decodeAt_defaulted] at h
    rcases bind_eq_error_iff.mp h with h | ⟨build, -, h⟩
    · exact ihf hf.1 h
    rcases bind_eq_error_iff.mp h with h | ⟨_, -, h⟩
    · rcases Codec.decodeField_error hf.2 ih h with h | ⟨-, h⟩
      · exact h
      · cases h
    · cases h
  | verbatim fields name absent ihf =>
    rw [decodeAt_verbatim] at h
    rcases bind_eq_error_iff.mp h with h | ⟨build, -, h⟩
    · exact ihf hf h
    · split at h <;> cases h
      exact .malformed absent

theorem Body.located {b : Body α} (hb : b.Standard) (ih : ∀ m ∈ members, m.2.Locating)
    (h : b.decodeAt .standard .root members = .error e) : e.LocatedIn (.object members) := by
  induction hb with
  | record hf =>
    rw [decodeAt_record] at h
    exact Fields.located hf ih h
  | checked hf hcheck =>
    rw [decodeAt_checked] at h
    rcases bind_eq_error_iff.mp h with h | ⟨checked, hchecked, h⟩
    · exact Fields.located hf ih h
    · obtain ⟨fault, rfl, rfl⟩ := mapError_eq_error_iff.mp h
      exact (hcheck members fault
        ((Fields.exists_decodeAt_iff _ .root _).mp ⟨_, hchecked, rfl⟩)).located
  | whenPresent _ _ ihp iha =>
    rw [decodeAt_whenPresent] at h
    split at h
    · exact ihp h
    · exact iha h
  | memberless interface a =>
    rw [decodeAt_memberless] at h
    split at h <;> cases h
    exact .of_present rfl fun _ _ h => by cases h

theorem Interface.located (i : Interface) (ih : ∀ m ∈ members, m.2.Locating)
    (h : i.decodeAt .standard .root members = .error e) : e.LocatedIn (.object members) := by
  rw [decodeAt] at h
  split at h
  · cases h
    exact .of_present rfl fun _ _ h => by cases h
  next t ht =>
    obtain ⟨-, rfl⟩ := isStandard_of_table? ht
    split at h
    next fault hs =>
      cases h
      exact .of_present rfl fun _ _ => VariantTable.select_error hs _ _
    next v hs =>
      obtain ⟨e', he', rfl⟩ := mapError_eq_error_iff.mp h
      have hv := i.variants_standard v (VariantTable.mem_of_select_ok hs)
      exact (Body.located hv ih he').within _

/-! ## Payloads -/

theorem Json.WellFormed.locating (hv : v.WellFormed) : v.Locating := by
  induction v using Json.induction_on with
  | step v ihItems ihMembers =>
    have hitems : ∀ w ∈ v.items, w.Locating := fun w hw => ihItems w hw (hv.item hw)
    have hmembers : ∀ m ∈ v.members, m.2.Locating := fun m hm => ihMembers m hm (hv.member hm)
    intro α c hc
    induction hc with
    | json => exact Codec.locates_scalar fun _ _ h => by cases h
    | bool => exact Codec.locates_scalar fun v _ h => by cases v <;> cases h
    | string => exact Codec.locates_scalar fun v _ h => by cases v <;> cases h
    | double =>
      refine Codec.locates_scalar fun v _ h => ?_
      split at h <;> cases h
    | int64 => exact Codec.locates_scalar fun _ _ h => (Codec.readInt64_error h).fits
    | int32 => exact Codec.locates_scalar fun _ _ h => (Codec.readInt32_error h).fits
    | uint64 => exact Codec.locates_scalar fun _ _ h => Codec.readUInt64_error h
    | uint32 => exact Codec.locates_scalar fun _ _ h => Codec.readUInt32_error h
    | nameId role => exact Codec.locates_text fun _ _ h => NameId.parse_error h
    | queryId => exact Codec.locates_text fun _ _ h => QueryId.parse_error h
    | stageId => exact Codec.locates_text fun _ _ h => StageId.parse_error h
    | taskId => exact Codec.locates_text fun _ _ h => TaskId.parse_error h
    | transactionId => exact Codec.locates_text fun _ _ h => TransactionId.parse_error h
    | named α => exact Codec.locates_text fun _ _ h => Named.parse_error h
    | measure => exact Codec.locates_text fun _ _ h => Measure.parse_error h
    | nullable hc ih =>
      intro e he
      rw [Codec.decode, Codec.decodeAt_nullable] at he
      split at he
      · cases he
      · exact ih e (map_eq_error_iff.mp he)
    | list hc _ =>
      cases v with
      | array items => exact Codec.locates_list hc hitems
      | _ =>
        intro e he
        rw [Codec.decode, Codec.decodeAt_list] at he
        cases he
        exact .malformed _
    | map hc _ =>
      cases v with
      | object members => exact Codec.locates_keyed hc (fun _ _ h => by cases h) hv.nodup hmembers
      | _ =>
        intro e he
        rw [Codec.decode, Codec.map, Codec.decodeAt_keyed] at he
        cases he
        exact .malformed _
    | reservations =>
      cases v with
      | object members =>
        refine Codec.locates_keyed .uint64 (fun name reason h => ?_) hv.nodup hmembers
        obtain ⟨fault, hf, rfl⟩ := mapError_eq_error_iff.mp h
        exact QueryId.parse_error hf
      | _ =>
        intro e he
        rw [Codec.decode, MemoryPool.reservationsCodec, Codec.decodeAt_keyed] at he
        cases he
        exact .malformed _
    | record r =>
      intro e he
      rw [Codec.decode, Codec.decodeAt_record] at he
      cases v with
      | object members => exact Body.located r.body_standard hmembers he
      | _ => cases he; exact .malformed _
    | interface i =>
      intro e he
      rw [Codec.decode, Codec.decodeAt_interface] at he
      cases v with
      | object members => exact i.located hmembers he
      | _ => cases he; exact .malformed _

/-- Every error of decoding a payload points into it. -/
theorem decode_error_locatedIn {c : Codec α} (hc : c.Standard) {P : Json} (hP : P.WellFormed)
    {e : DecodeError} (he : c.decode .standard P = .error e) : e.LocatedIn P :=
  hP.locating hc e he

/-- A pool in which a query holds a negative number of bytes. -/
def MemoryPool.refusedPayload : Json :=
  .object [("maxBytes", .ofInt64 8), ("queryMemoryReservations", .object [("q_1", .ofInt64 (-5))]),
    ("reservedBytes", .ofInt64 3), ("reservedRevocableBytes", .ofInt64 0)]

/-- The error that the pool is refused with. -/
def MemoryPool.refusal : DecodeError :=
  ⟨⟨[.field "queryMemoryReservations", .key "q_1"]⟩,
    .validation ⟨"queryMemoryReservations", .negative (-5)⟩ none⟩

theorem MemoryPool.decode_refusedPayload :
    (Codec.record .memoryPool).decode .standard refusedPayload = .error refusal := by
  rw [Codec.decode, Codec.decodeAt_record]
  show MemoryPool.body.decodeAt .standard .root _ = _
  rw [MemoryPool.body, Body.decodeAt_checked]
  rfl

theorem decode_error_locatedIn_pool :
    (Codec.record .memoryPool).Standard ∧ MemoryPool.refusedPayload.WellFormed ∧
      (Codec.record .memoryPool).decode .standard MemoryPool.refusedPayload =
        .error MemoryPool.refusal ∧ MemoryPool.refusal.LocatedIn MemoryPool.refusedPayload :=
  ⟨.record _, by decide, MemoryPool.decode_refusedPayload,
    decode_error_locatedIn (.record _) (by decide) MemoryPool.decode_refusedPayload⟩

end QueryScope
