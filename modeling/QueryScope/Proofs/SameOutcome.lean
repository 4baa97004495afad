import QueryScope.Proofs.Entries

/-!
# Two runs with the same outcome

Two values are decoded alike when their parts are. Of two objects, the fields that are read have to
be alike, and the keys on which reading depends have to be there in both or in neither. The outcome
is then the same, up to the keys that are listed for an object of which no variant fits.
-/

namespace QueryScope

variable {α β γ : Type} {i : Interface} {c : Codec α} {v v' : Json} {p : Path}
  {members members' : List (String × Json)} {name : String}

/-! ## The same outcome -/

/-- The same fault, but that more keys may be listed of which no variant fits. -/
inductive DecodeFault.MoreKeys : DecodeFault → DecodeFault → Prop where
  | refl (fault : DecodeFault) : MoreKeys fault fault
  | keys {interface : String} {names names' : List String} (h : names.Sublist names') :
      MoreKeys (.unknownVariant interface (.keys names)) (.unknownVariant interface (.keys names'))

/-- The same value, or an error at the same place with the same fault, up to more keys. -/
inductive SameOutcome : Except DecodeError α → Except DecodeError α → Prop where
  | ok (a : α) : SameOutcome (.ok a) (.ok a)
  | error (p : Path) {fault fault' : DecodeFault} (h : fault.MoreKeys fault') :
      SameOutcome (.error ⟨p, fault⟩) (.error ⟨p, fault'⟩)

namespace SameOutcome

theorem refl (x : Except DecodeError α) : SameOutcome x x := by
  cases x with
  | ok a => exact .ok a
  | error e => exact .error e.path (.refl e.fault)

variable {x y : Except DecodeError α}

theorem bind {f g : α → Except DecodeError β} (hx : SameOutcome x y)
    (hf : ∀ a, SameOutcome (f a) (g a)) : SameOutcome (x >>= f) (y >>= g) := by
  cases hx with
  | ok a => exact hf a
  | error p h => exact .error p h

theorem map (f : α → β) (hx : SameOutcome x y) : SameOutcome (f <$> x) (f <$> y) := by
  cases hx with
  | ok a => exact .ok (f a)
  | error p h => exact .error p h

theorem within (ref : VariantRef) (hx : SameOutcome x y) :
    SameOutcome (x.mapError (.within ref)) (y.mapError (.within ref)) := by
  cases hx with
  | ok a => exact .ok a
  | error p h =>
    cases h with
    | refl fault => exact .refl _
    | keys h => exact .error p (.keys h)

theorem eq_ok {a : α} (h : SameOutcome (.ok a) y) : y = .ok a := by
  cases h
  rfl

theorem eq_error {e : DecodeError} (h : SameOutcome (.error e : Except DecodeError α) y) :
    ∃ fault, y = .error ⟨e.path, fault⟩ ∧ e.fault.MoreKeys fault := by
  cases h with
  | error p h => exact ⟨_, rfl, h⟩

end SameOutcome

/-! ## Items and members -/

/-- Two values are decoded with the same outcome, wherever they stand. -/
def Codec.Alike (c : Codec α) (v v' : Json) : Prop :=
  ∀ p, SameOutcome (c.decodeAt .standard p v) (c.decodeAt .standard p v')

theorem Codec.decodeItems_sameOutcome {items items' : List Json}
    (h : List.Forall₂ c.Alike items items') (n : Nat) :
    SameOutcome (c.decodeItems .standard p n items) (c.decodeItems .standard p n items') := by
  induction h generalizing n with
  | nil => exact .refl _
  | cons hv _ ih =>
    exact (hv _).bind fun a => (ih (n + 1)).bind fun _ => .refl _

theorem Codec.decodeKeyed_sameOutcome {key : String → Except Reason β}
    (h : List.Forall₂ (fun m m' => m.1 = m'.1 ∧ c.Alike m.2 m'.2) members members') :
    SameOutcome (c.decodeKeyed key .standard p members)
      (c.decodeKeyed key .standard p members') := by
  induction h with
  | nil => exact .refl _
  | @cons m m' _ _ hm _ ih =>
    obtain ⟨hkey, hvalue⟩ := hm
    rw [decodeKeyed, decodeKeyed, hkey]
    exact (SameOutcome.refl _).bind fun k => (hvalue _).bind fun a => ih.bind fun _ => .refl _

/-! ## Fields -/

/-- The field has no value in either object, or values that are decoded with the same outcome. -/
def Entry.Alike (entry : Entry) (members members' : List (String × Json)) : Prop :=
  (Json.lookup members entry.name = none ∧ Json.lookup members' entry.name = none) ∨
    ∃ w w', Json.lookup members entry.name = some w ∧ Json.lookup members' entry.name = some w' ∧
      w.isNull = w'.isNull ∧ entry.codec.Alike w w'

theorem Codec.decodeField_sameOutcome {c : Codec β} {found : β → γ}
    {absent : Except DecodeError γ} (h : Entry.Alike ⟨name, c⟩ members members') :
    SameOutcome (c.decodeField .standard p members name found absent)
      (c.decodeField .standard p members' name found absent) := by
  rcases h with ⟨hnone, hnone'⟩ | ⟨w, w', hw, hw', hnull, halike⟩
  · have hpresent : Json.present? members name = Json.present? members' name :=
      Json.present?_congr (hnone.trans hnone'.symm)
    rw [decodeField, decodeField, hpresent]
    exact .refl _
  · cases hnull' : w'.isNull with
    | true =>
      have hpresent : Json.present? members name = none := by
        simp [Json.present?, hw, hnull, hnull', Option.filter]
      have hpresent' : Json.present? members' name = none := by
        simp [Json.present?, hw', hnull', Option.filter]
      rw [decodeField, decodeField, hpresent, hpresent']
      exact .refl _
    | false =>
      have hpresent := Json.present?_eq_some_iff.mpr ⟨hw, hnull.trans hnull'⟩
      have hpresent' := Json.present?_eq_some_iff.mpr ⟨hw', hnull'⟩
      rw [decodeField, decodeField, hpresent, hpresent']
      exact (halike _).map found

/-- A value that is kept as it stands has to be the same. -/
theorem Codec.eq_of_json_alike (h : Codec.json.Alike v v') : v = v' := by
  have hroot := h .root
  rw [json, decodeAt_scalar, decodeAt_scalar] at hroot
  cases hroot
  rfl

theorem Fields.decodeAt_sameOutcome {fields : Fields α}
    (h : ∀ entry ∈ fields.entries, entry.Alike members members') :
    SameOutcome (fields.decodeAt .standard p members)
      (fields.decodeAt .standard p members') := by
  induction fields with
  | pure a => exact .ok a
  | required fields name c ih | optional fields name c ih | defaulted fields name c _ ih =>
    rw [entries, List.forall_mem_append, List.forall_mem_singleton] at h
    simp only [decodeAt_required, decodeAt_optional, decodeAt_defaulted]
    exact (ih h.1).bind fun build =>
      (Codec.decodeField_sameOutcome h.2).bind fun _ => .refl _
  | verbatim fields name absent ih =>
    rw [entries, List.forall_mem_append, List.forall_mem_singleton] at h
    rw [decodeAt_verbatim, decodeAt_verbatim]
    refine (ih h.1).bind fun build => ?_
    have hsame : Json.lookup members name = Json.lookup members' name := by
      rcases h.2 with ⟨hnone, hnone'⟩ | ⟨w, w', hw, hw', -, halike⟩
      · exact hnone.trans hnone'.symm
      · rw [hw, hw', Codec.eq_of_json_alike halike]
    rw [hsame]
    exact .refl _

/-! ## Objects -/

/-- The keys on which the reading of an object depends. -/
def Body.keys (members : List (String × Json)) : Body α → List String
  | .record fields | .checked fields => fields.names
  | .whenPresent key present absent =>
    key :: if hasKey members key then present.keys members else absent.keys members
  | .memberless _ _ | .custom _ => []

theorem Body.name_mem_keys {b : Body α} {entry : Entry} (h : entry ∈ b.entries members) :
    entry.name ∈ b.keys members := by
  induction b with
  | record fields | checked fields =>
    rw [entries] at h
    rw [keys]
    exact List.mem_map_of_mem h
  | whenPresent key present absent ihp iha =>
    rw [entries] at h
    rw [keys]
    by_cases hkey : hasKey members key = true
    · rw [if_pos hkey] at h ⊢
      exact List.mem_cons_of_mem _ (ihp h)
    · rw [if_neg hkey] at h ⊢
      exact List.mem_cons_of_mem _ (iha h)
  | memberless _ _ | custom _ =>
    rw [entries] at h
    cases h

/-- Whether the object is read from fields only. -/
def Body.hasFields : Body α → Bool
  | .record _ | .checked _ => true
  | .whenPresent _ present absent => present.hasFields && absent.hasFields
  | .memberless _ _ | .custom _ => false

theorem Record.body_hasFields (r : Record) : r.body.hasFields = true := by
  cases r <;> decide +kernel

/-- Only the handle of a transaction is read from an object without members. -/
theorem Interface.variants_hasFields (hi : i ≠ .transaction) :
    ∀ w ∈ i.variants, w.body.hasFields = true := by
  cases i with
  | transaction => exact absurd rfl hi
  | custom name tagKey => exact fun w hw => by cases hw
  | _ => decide +kernel

theorem Body.decodeAt_sameOutcome {b : Body α} (hb : b.Described)
    (hentries : ∀ entry ∈ b.entries members, entry.Alike members members')
    (hkeys : ∀ key ∈ b.keys members, hasKey members' key = hasKey members key)
    (hnames : (members.map Prod.fst).Sublist (members'.map Prod.fst))
    (hempty : b.hasFields = true ∨ (members = [] → members' = [])) :
    SameOutcome (b.decodeAt .standard p members) (b.decodeAt .standard p members') := by
  induction hb with
  | record fields =>
    rw [entries] at hentries
    rw [decodeAt_record, decodeAt_record]
    exact Fields.decodeAt_sameOutcome hentries
  | checked fields =>
    rw [entries] at hentries
    rw [decodeAt_checked, decodeAt_checked]
    exact (Fields.decodeAt_sameOutcome hentries).bind fun _ => .refl _
  | @whenPresent key _ _ _ _ ihp iha =>
    rw [entries] at hentries
    rw [keys, List.forall_mem_cons] at hkeys
    rw [hasFields, Bool.and_eq_true] at hempty
    rw [decodeAt_whenPresent, decodeAt_whenPresent, hkeys.1]
    by_cases hkey : hasKey members key = true
    · simp only [if_pos hkey] at hentries hkeys ⊢
      exact ihp hentries hkeys.2 (hempty.imp_left And.left)
    · simp only [if_neg hkey] at hentries hkeys ⊢
      exact iha hentries hkeys.2 (hempty.imp_left And.right)
  | memberless interface a =>
    rw [decodeAt_memberless, decodeAt_memberless]
    rw [hasFields] at hempty
    have hempty := hempty.resolve_left Bool.false_ne_true
    cases members with
    | nil =>
      rw [if_pos rfl, if_pos (hempty rfl)]
      exact .ok a
    | cons m rest =>
      have hcons : members' ≠ [] := by
        rintro rfl
        cases hnames
      rw [if_neg (List.cons_ne_nil _ _), if_neg hcons]
      exact .error p (.keys hnames)

end QueryScope
