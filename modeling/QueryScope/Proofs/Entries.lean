import QueryScope.Proofs.Location.Record

/-!
# The entries of an object

What is read from an object as a list: the names of its fields, each with the description of its
value. The standard records and variants keep three rules, which are checked once: no object has two
fields of one name, the name of a field is a word of letters and digits, and where fields are
checked together none of them is itself an abstract position.
-/

namespace QueryScope

variable {α β : Type} {i : Interface} {members members' : List (String × Json)}
  {fault : FieldFault}

/-- A name with the description of the value under it. -/
structure Entry where
  /-- The type of the value. -/
  {type : Type}
  /-- The name. -/
  name : String
  /-- The description. -/
  codec : Codec type

/-- The fields in the order in which they are read. A value that is kept as it stands is described
as JSON. -/
def Fields.entries : {α : Type} → Fields α → List Entry
  | _, .pure _ => []
  | _, .required fields name c => fields.entries ++ [⟨name, c⟩]
  | _, .optional fields name c => fields.entries ++ [⟨name, c⟩]
  | _, .defaulted fields name c _ => fields.entries ++ [⟨name, c⟩]
  | _, .verbatim fields name _ => fields.entries ++ [⟨name, Codec.json⟩]

/-- The names of the fields. -/
def Fields.names (fields : Fields α) : List String :=
  fields.entries.map (·.name)

/-- The fields that are read from an object. -/
def Body.entries (members : List (String × Json)) : Body α → List Entry
  | .record fields | .checked fields => fields.entries
  | .whenPresent key present absent =>
    if hasKey members key then present.entries members else absent.entries members
  | .memberless _ _ | .custom _ => []

/-- The standard variant of an object. -/
def Interface.variant? (i : Interface) (members : List (String × Json)) : Option (Variant i) :=
  (Registry.standard.table? i).bind fun t => (t.select members).toOption

theorem Interface.variant?_eq_some_iff {w : Variant i} :
    i.variant? members = some w ↔
      ∃ t, Registry.standard.table? i = some t ∧ t.select members = .ok w := by
  have hselect (t : VariantTable i) :
      (t.select members).toOption = some w ↔ t.select members = .ok w := by
    cases t.select members <;> simp [Except.toOption]
  simp only [variant?, Option.bind_eq_some_iff, hselect]

theorem Interface.mem_variants_of_variant? {w : Variant i} (h : i.variant? members = some w) :
    w ∈ i.variants := by
  obtain ⟨t, ht, hselect⟩ := variant?_eq_some_iff.mp h
  obtain ⟨-, rfl⟩ := isStandard_of_table? ht
  exact VariantTable.mem_of_select_ok hselect

/-! ## The rules -/

/-- Whether the value itself is an abstract position. -/
def Codec.isInterface : {α : Type} → Codec α → Bool
  | _, .nullable c => c.isInterface
  | _, .interface _ => true
  | _, _ => false

/-- Whether a name is a word of letters and digits. -/
def isFieldName (name : String) : Bool :=
  name ≠ "" && name.toList.all Char.isAlphanum

/-- What stands for the root is no such word. -/
theorem ne_rootField {name : String} (h : isFieldName name = true) : name ≠ rootField := by
  rintro rfl
  exact absurd h (by decide)

/-- Whether the names are distinct words. -/
def Fields.isRegular (fields : Fields α) : Bool :=
  decide fields.names.Nodup && fields.names.all isFieldName

/-- Whether all fields of the object are regular, and those that are checked together are no
abstract positions. -/
def Body.isRegular : Body α → Bool
  | .record fields => fields.isRegular
  | .checked fields => fields.isRegular && fields.entries.all (!·.codec.isInterface)
  | .whenPresent _ present absent => present.isRegular && absent.isRegular
  | .memberless _ _ | .custom _ => true

theorem Fields.isRegular_iff {fields : Fields α} :
    fields.isRegular = true ↔
      fields.names.Nodup ∧ ∀ name ∈ fields.names, isFieldName name = true := by
  rw [isRegular, Bool.and_eq_true, decide_eq_true_eq, List.all_eq_true]

theorem Body.entries_regular {b : Body α} (hb : b.isRegular = true) :
    ((b.entries members).map (·.name)).Nodup ∧ ∀ entry ∈ b.entries members,
      isFieldName entry.name = true := by
  have hfields {β : Type} {fields : Fields β} (hf : fields.isRegular = true) :
      (fields.entries.map (·.name)).Nodup ∧
        ∀ entry ∈ fields.entries, isFieldName entry.name = true := by
    obtain ⟨hnodup, hnames⟩ := Fields.isRegular_iff.mp hf
    exact ⟨hnodup, fun entry hentry => hnames _ (List.mem_map_of_mem hentry)⟩
  induction b with
  | record fields => exact hfields hb
  | checked fields => exact hfields (Bool.and_eq_true_iff.mp hb).1
  | whenPresent key present absent ihp iha =>
    rw [isRegular, Bool.and_eq_true] at hb
    rw [entries]
    split
    · exact ihp hb.1
    · exact iha hb.2
  | memberless _ _ | custom _ => exact ⟨List.nodup_nil, List.forall_mem_nil _⟩

theorem Record.body_isRegular (r : Record) : r.body.isRegular = true := by
  cases r <;> decide +kernel

theorem Interface.variants_isRegular (i : Interface) :
    ∀ v ∈ i.variants, v.body.isRegular = true := by
  cases i with
  | custom name tagKey => exact fun v hv => by cases hv
  | _ => decide +kernel

/-! ## Only the names matter -/

theorem Json.present?_congr {name : String}
    (h : Json.lookup members name = Json.lookup members' name) :
    Json.present? members name = Json.present? members' name := by
  unfold present?
  rw [h]

theorem Json.lookup_filter {p : String → Bool} {name : String} (h : p name = true) :
    Json.lookup (members.filter fun m => p m.1) name = Json.lookup members name := by
  induction members with
  | nil => rfl
  | cons m rest ih =>
    rw [List.filter_cons, lookup_cons]
    by_cases hm : m.1 = name
    · rw [if_pos (by rw [hm, h]), lookup_cons, if_pos hm, if_pos hm]
    · rw [if_neg hm, ← ih]
      split
      · rw [lookup_cons, if_neg hm]
      · rfl

theorem Codec.readsField_congr {c : Codec β} {name : String} {b : β}
    (h : Json.lookup members name = Json.lookup members' name) :
    c.ReadsField members name b ↔ c.ReadsField members' name b := by
  unfold ReadsField
  rw [Json.present?_congr h]

theorem Codec.readsOptional_congr {c : Codec β} {name : String} {o : Option β}
    (h : Json.lookup members name = Json.lookup members' name) :
    c.ReadsOptional members name o ↔ c.ReadsOptional members' name o := by
  unfold ReadsOptional
  rw [Json.present?_congr h]
  simp only [readsField_congr h]

/-- Objects that agree under the names of the fields are read as the same. -/
theorem Fields.yields_congr {fields : Fields α} {Q : α → Prop}
    (h : ∀ name ∈ fields.names, Json.lookup members name = Json.lookup members' name) :
    fields.Yields members Q ↔ fields.Yields members' Q := by
  induction fields with
  | pure a => exact Iff.rfl
  | required fields name c ih | optional fields name c ih | defaulted fields name c _ ih
  | verbatim fields name _ ih =>
    simp only [names, entries, List.map_append, List.forall_mem_append] at h
    have hname : Json.lookup members name = Json.lookup members' name := h.2 name (by simp)
    simp only [Yields, ih h.1, Codec.readsField_congr hname, Codec.readsOptional_congr hname, hname]

/-- A check that blames only fields with a value blames one of the fields that it has read: without
the other members of the object it would blame the same. -/
theorem Fields.mem_names_of_blames {fields : Fields (Except FieldFault α)}
    (hblames : ∀ members fault, fields.Yields members (· = .error fault) → fault.Blames members)
    (h : fields.Yields members (· = .error fault)) : fault.field ∈ fields.names := by
  let own : List (String × Json) := members.filter fun m => decide (m.1 ∈ fields.names)
  have hown : ∀ name ∈ fields.names, Json.lookup members name = Json.lookup own name := by
    intro name hname
    exact (Json.lookup_filter (p := fun name => decide (name ∈ fields.names)) (by simpa)).symm
  obtain ⟨v, hv⟩ := (hblames own fault ((yields_congr hown).mp h)).present
  have hmem : (fault.field, v) ∈ own := Json.mem_of_lookup hv
  simpa using (List.mem_filter.mp hmem).2

end QueryScope
