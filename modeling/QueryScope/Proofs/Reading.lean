import QueryScope.Proofs.Relocation

/-!
# What a value is read as

Under the standard registry, what a value is read as depends on the value alone. Reading an object
comes down to what stands under the names of its fields; a list is read item by item, and a map
member by member.
-/

namespace QueryScope

variable {α β : Type} {a : α} {v : Json} {members : List (String × Json)} {name : String}

/-! ## The standard tables -/

/-- The standard variants of an interface. -/
def Interface.variants : (i : Interface) → List (Variant i)
  | .partitioning => ConnectorPartitioning.variants
  | .transaction => ConnectorTransaction.variants
  | .table => ConnectorTable.variants
  | .column => ConnectorColumn.variants
  | .expression => Expression.variants
  | .planNode => PlanNode.variants
  | .custom _ _ => []

/-- The standard variants with the positions of their tags. -/
def Interface.standardTable (i : Interface) : VariantTable i :=
  ⟨i.variants, i.variants.zipIdx.filterMap fun e => e.1.tag.map (·, e.2)⟩

theorem Registry.standard_tables : Registry.standard.tables =
    [⟨.partitioning, Interface.standardTable .partitioning⟩,
      ⟨.transaction, Interface.standardTable .transaction⟩,
      ⟨.table, Interface.standardTable .table⟩,
      ⟨.column, Interface.standardTable .column⟩,
      ⟨.expression, Interface.standardTable .expression⟩,
      ⟨.planNode, Interface.standardTable .planNode⟩] := rfl

theorem Registry.table?_standard (i : Interface) :
    Registry.standard.table? i = match i with
      | .custom _ _ => none
      | i => some i.standardTable := by
  rw [table?, standard_tables]
  cases i <;> rfl

/-- The interfaces of the standard registry. -/
def Interface.IsStandard (i : Interface) : Prop :=
  Registry.standard.table? i = some i.standardTable

theorem Interface.isStandard_of_table? {i : Interface} {t : VariantTable i}
    (h : Registry.standard.table? i = some t) : i.IsStandard ∧ t = i.standardTable := by
  have heq := Registry.table?_standard i
  unfold IsStandard
  rw [h] at heq ⊢
  cases i <;> simp_all

theorem Interface.variants_described (i : Interface) : ∀ v ∈ i.variants, v.body.Described := by
  cases i <;>
    simp only [variants, ConnectorPartitioning.variants, ConnectorTransaction.variants,
      ConnectorTable.variants, ConnectorColumn.variants, Expression.variants, PlanNode.variants,
      List.forall_mem_cons, List.not_mem_nil, false_imp_iff, implies_true, and_true]
  case transaction => exact ⟨.record _, .record _, .memberless _ _⟩
  all_goals and_intros <;> exact .record _

theorem Registry.described_standard : Registry.standard.Described := by
  intro i t ht v hv
  obtain ⟨-, rfl⟩ := Interface.isStandard_of_table? ht
  exact i.variants_described v hv

/-! ## Values -/

/-- The value is read as `a`. -/
def Codec.Reads (c : Codec α) (v : Json) (a : α) : Prop :=
  c.decode .standard v = .ok a

/-- The value is accepted. -/
def Codec.Accepts (c : Codec α) (v : Json) : Prop :=
  ∃ a, c.Reads v a

/-- Where a value stands does not matter to what it is read as. -/
theorem Codec.decodeAt_ok_iff {c : Codec α} {p : Path} :
    c.decodeAt .standard p v = .ok a ↔ c.Reads v a := by
  have h := relocatable Registry.described_standard v c p .root
  rw [Path.append_root] at h
  rw [h, mapError_eq_ok_iff]
  rfl

/-- The object is read as `a`. -/
def Body.Reads (b : Body α) (members : List (String × Json)) (a : α) : Prop :=
  b.decodeAt .standard .root members = .ok a

theorem Codec.reads_scalar {read : Json → Except Refusal α} :
    (Codec.scalar read).Reads v a ↔ read v = .ok a := by
  rw [Reads, decode, decodeAt_scalar, mapError_eq_ok_iff]

theorem Codec.reads_nullable {c : Codec α} {o : Option α} :
    c.nullable.Reads v o ↔
      (v.isNull = true ∧ o = none) ∨ (v.isNull = false ∧ ∃ a, c.Reads v a ∧ o = some a) := by
  rw [Reads, decode, decodeAt_nullable]
  cases v.isNull with
  | true => simp [eq_comm]
  | false => simp only [Bool.false_eq_true, if_false, map_eq_ok_iff, decodeAt_ok_iff, false_and,
      false_or, true_and, eq_comm (a := o)]

theorem Codec.decodeItems_ok_iff {c : Codec α} {p : Path} {n : Nat} {items : List Json}
    {as : List α} : c.decodeItems .standard p n items = .ok as ↔ List.Forall₂ c.Reads items as := by
  induction items generalizing n as with
  | nil => simp [decodeItems, eq_comm]
  | cons v rest ih =>
    simp only [decodeItems, bind_eq_ok_iff, decodeAt_ok_iff, ih, List.forall₂_cons_left_iff]
    constructor
    · rintro ⟨a, ha, bs, hbs, heq⟩
      exact ⟨a, bs, ha, hbs, (Except.ok.inj heq).symm⟩
    · rintro ⟨a, bs, ha, hbs, rfl⟩
      exact ⟨a, ha, bs, hbs, rfl⟩

/-- The error of a list is that of its first item that is not accepted. -/
theorem Codec.decodeItems_error_iff {c : Codec α} {p : Path} {n : Nat} {items : List Json}
    {e : DecodeError} : c.decodeItems .standard p n items = .error e ↔
      ∃ before v after, items = before ++ v :: after ∧ (∀ w ∈ before, c.Accepts w) ∧
        c.decodeAt .standard (p.child (.index (n + before.length))) v = .error e := by
  constructor
  · intro h
    induction items generalizing n with
    | nil => cases h
    | cons v rest ih =>
      rcases bind_eq_error_iff.mp h with h | ⟨a, ha, h⟩
      · exact ⟨[], v, rest, rfl, List.forall_mem_nil _, h⟩
      rcases bind_eq_error_iff.mp h with h | ⟨_, -, h⟩
      · obtain ⟨before, w, after, rfl, hbefore, hw⟩ := ih h
        refine ⟨v :: before, w, after, rfl, List.forall_mem_cons.mpr ⟨⟨a, ?_⟩, hbefore⟩, ?_⟩
        · exact decodeAt_ok_iff.mp ha
        · rwa [List.length_cons, Nat.add_comm before.length, ← Nat.add_assoc]
      · cases h
  · rintro ⟨before, v, after, rfl, hbefore, hv⟩
    induction before generalizing n with
    | nil => exact bind_eq_error_iff.mpr (Or.inl hv)
    | cons w before ih =>
      obtain ⟨⟨a, ha⟩, hbefore⟩ := List.forall_mem_cons.mp hbefore
      refine bind_eq_error_iff.mpr (Or.inr ⟨a, decodeAt_ok_iff.mpr ha, ?_⟩)
      refine bind_eq_error_iff.mpr (Or.inl (ih hbefore ?_))
      rwa [List.length_cons, Nat.add_comm before.length, ← Nat.add_assoc] at hv

theorem Codec.reads_list {c : Codec α} {as : List α} :
    c.list.Reads v as ↔ ∃ items, v = .array items ∧ List.Forall₂ c.Reads items as := by
  rw [Reads, decode, decodeAt_list]
  cases v <;> simp [decodeItems_ok_iff]

/-- A member is read as an entry: its key and its value. -/
def Codec.ReadsEntry (key : String → Except Reason β) (c : Codec α) (m : String × Json)
    (e : β × α) : Prop :=
  key m.1 = .ok e.1 ∧ c.Reads m.2 e.2

theorem Codec.decodeKeyed_ok_iff {key : String → Except Reason β} {c : Codec α} {p : Path}
    {es : List (β × α)} : c.decodeKeyed key .standard p members = .ok es ↔
      List.Forall₂ (c.ReadsEntry key) members es := by
  induction members generalizing es with
  | nil => simp [decodeKeyed, eq_comm]
  | cons m rest ih =>
    simp only [decodeKeyed, bind_eq_ok_iff, mapError_eq_ok_iff, decodeAt_ok_iff, ih,
      List.forall₂_cons_left_iff, ReadsEntry]
    constructor
    · rintro ⟨k, hk, a, ha, bs, hbs, heq⟩
      exact ⟨(k, a), bs, ⟨hk, ha⟩, hbs, (Except.ok.inj heq).symm⟩
    · rintro ⟨⟨k, a⟩, bs, ⟨hk, ha⟩, hbs, rfl⟩
      exact ⟨k, hk, a, ha, bs, hbs, rfl⟩

/-- The error of a map is that of its first member that is not accepted: of the key, or else of the
value under it. -/
theorem Codec.decodeKeyed_error_iff {key : String → Except Reason β} {c : Codec α} {p : Path}
    {e : DecodeError} : c.decodeKeyed key .standard p members = .error e ↔
      ∃ before m after, members = before ++ m :: after ∧
        (∀ m' ∈ before, ∃ entry, c.ReadsEntry key m' entry) ∧
        ((∃ reason, key m.1 = .error reason ∧ e = .invalid (p.child (.key m.1)) reason) ∨
          (∃ k, key m.1 = .ok k) ∧
            c.decodeAt .standard (p.child (.key m.1)) m.2 = .error e) := by
  constructor
  · intro h
    induction members with
    | nil => cases h
    | cons m rest ih =>
      rcases bind_eq_error_iff.mp h with h | ⟨k, hk, h⟩
      · obtain ⟨reason, hkey, rfl⟩ := mapError_eq_error_iff.mp h
        exact ⟨[], m, rest, rfl, List.forall_mem_nil _, Or.inl ⟨reason, hkey, rfl⟩⟩
      have hkey := mapError_eq_ok_iff.mp hk
      rcases bind_eq_error_iff.mp h with h | ⟨a, ha, h⟩
      · exact ⟨[], m, rest, rfl, List.forall_mem_nil _, Or.inr ⟨⟨k, hkey⟩, h⟩⟩
      rcases bind_eq_error_iff.mp h with h | ⟨_, -, h⟩
      · obtain ⟨before, m', after, rfl, hbefore, hm'⟩ := ih h
        have hentry : c.ReadsEntry key m (k, a) := ⟨hkey, decodeAt_ok_iff.mp ha⟩
        exact ⟨m :: before, m', after, rfl, List.forall_mem_cons.mpr ⟨⟨_, hentry⟩, hbefore⟩, hm'⟩
      · cases h
  · rintro ⟨before, m, after, rfl, hbefore, hm⟩
    induction before with
    | nil =>
      rcases hm with ⟨reason, hkey, rfl⟩ | ⟨⟨k, hkey⟩, hv⟩
      · exact bind_eq_error_iff.mpr (Or.inl (mapError_eq_error_iff.mpr ⟨reason, hkey, rfl⟩))
      · refine bind_eq_error_iff.mpr (Or.inr ⟨k, mapError_eq_ok_iff.mpr hkey, ?_⟩)
        exact bind_eq_error_iff.mpr (Or.inl hv)
    | cons m' before ih =>
      obtain ⟨⟨entry, hkey, hv⟩, hbefore⟩ := List.forall_mem_cons.mp hbefore
      refine bind_eq_error_iff.mpr (Or.inr ⟨entry.1, mapError_eq_ok_iff.mpr hkey, ?_⟩)
      refine bind_eq_error_iff.mpr (Or.inr ⟨entry.2, decodeAt_ok_iff.mpr hv, ?_⟩)
      exact bind_eq_error_iff.mpr (Or.inl (ih hbefore))

theorem Codec.reads_keyed {key : String → Except Reason β} {c : Codec α} {es : List (β × α)} :
    (Codec.keyed key c).Reads v es ↔
      ∃ members, v = .object members ∧ List.Forall₂ (c.ReadsEntry key) members es := by
  rw [Reads, decode, decodeAt_keyed]
  cases v <;> simp [decodeKeyed_ok_iff]

theorem Codec.reads_record {r : Record} {a : r.Value} :
    (Codec.record r).Reads v a ↔ ∃ members, v = .object members ∧ r.body.Reads members a := by
  rw [Reads, decode, decodeAt_record]
  cases v <;> simp [Body.Reads]

theorem Codec.reads_interface {i : Interface} {a : i.Value} :
    (Codec.interface i).Reads v a ↔ ∃ members w, v = .object members ∧ i.IsStandard ∧
      i.standardTable.select members = .ok w ∧ w.body.Reads members a := by
  rw [Reads, decode, decodeAt_interface]
  cases v with
  | object members =>
    simp only [Interface.decodeAt]
    cases ht : Registry.standard.table? i with
    | none => simp [Interface.IsStandard, ht]
    | some t =>
      obtain ⟨hi, rfl⟩ := Interface.isStandard_of_table? ht
      cases hs : i.standardTable.select members with
      | error fault => simp [hs]
      | ok w => simp [hs, hi, mapError_eq_ok_iff, Body.Reads]
  | _ => simp

/-! ## Fields -/

/-- The value under a name, which is not `null`, is read as `b`. -/
def Codec.ReadsField (c : Codec β) (members : List (String × Json)) (name : String) (b : β) :
    Prop :=
  ∃ v, Json.present? members name = some v ∧ c.Reads v b

/-- The value under a name is read as `o`, which is nothing when there is no value but `null`. -/
def Codec.ReadsOptional (c : Codec β) (members : List (String × Json)) (name : String)
    (o : Option β) : Prop :=
  (Json.present? members name = none ∧ o = none) ∨ ∃ b, c.ReadsField members name b ∧ o = some b

/-- The fields are read from an object, and what they are put into has a property. -/
def Fields.Yields (members : List (String × Json)) :
    {α : Type} → Fields α → (α → Prop) → Prop
  | _, .pure a, Q => Q a
  | _, .required fields name c, Q =>
    fields.Yields members fun build => ∃ b, c.ReadsField members name b ∧ Q (build b)
  | _, .optional fields name c, Q =>
    fields.Yields members fun build => ∃ o, c.ReadsOptional members name o ∧ Q (build o)
  | _, .defaulted fields name c default, Q =>
    fields.Yields members fun build =>
      ∃ o, c.ReadsOptional members name o ∧ Q (build (o.getD default))
  | _, .verbatim fields name _, Q =>
    fields.Yields members fun build => ∃ v, Json.lookup members name = some v ∧ Q (build v)

theorem Codec.decodeField_ok_iff {γ : Type} {c : Codec β} {p : Path} {found : β → γ}
    {absent : Except DecodeError γ} {g : γ} :
    c.decodeField .standard p members name found absent = .ok g ↔
      (∃ b, c.ReadsField members name b ∧ found b = g) ∨
        (Json.present? members name = none ∧ absent = .ok g) := by
  rw [decodeField]
  cases hv : Json.present? members name with
  | none => simp [ReadsField, hv]
  | some v => simp [ReadsField, hv, map_eq_ok_iff, decodeAt_ok_iff]

theorem Codec.decodeField_error_iff {γ : Type} {c : Codec β} {p : Path} {found : β → γ}
    {absent : Except DecodeError γ} {e : DecodeError} :
    c.decodeField .standard p members name found absent = .error e ↔
      (∃ v, Json.present? members name = some v ∧
        c.decodeAt .standard (p.child (.field name)) v = .error e) ∨
        (Json.present? members name = none ∧ absent = .error e) := by
  rw [decodeField]
  cases hv : Json.present? members name with
  | none => simp
  | some v => simp [map_eq_error_iff]

theorem Fields.exists_decodeAt_iff (fields : Fields α) (p : Path) (Q : α → Prop) :
    (∃ a, fields.decodeAt .standard p members = .ok a ∧ Q a) ↔ fields.Yields members Q := by
  induction fields with
  | pure a => simp [decodeAt_pure, Yields]
  | required fields name c ih =>
    rw [Yields, ← ih]
    simp only [decodeAt_required, bind_eq_ok_iff, Codec.decodeField_ok_iff]
    constructor
    · rintro ⟨a, ⟨build, hb, b, ⟨b', hb', rfl⟩ | ⟨-, h⟩, heq⟩, hQ⟩
      · exact ⟨build, hb, b', hb', Except.ok.inj heq ▸ hQ⟩
      · cases h
    · rintro ⟨build, hb, b, hb', hQ⟩
      exact ⟨build b, ⟨build, hb, b, Or.inl ⟨b, hb', rfl⟩, rfl⟩, hQ⟩
  | optional fields name c ih =>
    rw [Yields, ← ih]
    simp only [decodeAt_optional, bind_eq_ok_iff, Codec.decodeField_ok_iff]
    constructor
    · rintro ⟨a, ⟨build, hb, o, ⟨b, hb', rfl⟩ | ⟨hn, h⟩, heq⟩, hQ⟩
      · exact ⟨build, hb, some b, Or.inr ⟨b, hb', rfl⟩, Except.ok.inj heq ▸ hQ⟩
      · cases h
        exact ⟨build, hb, none, Or.inl ⟨hn, rfl⟩, Except.ok.inj heq ▸ hQ⟩
    · rintro ⟨build, hb, o, ⟨hn, rfl⟩ | ⟨b, hb', rfl⟩, hQ⟩
      · exact ⟨build none, ⟨build, hb, none, Or.inr ⟨hn, rfl⟩, rfl⟩, hQ⟩
      · exact ⟨build (some b), ⟨build, hb, some b, Or.inl ⟨b, hb', rfl⟩, rfl⟩, hQ⟩
  | defaulted fields name c default ih =>
    rw [Yields, ← ih]
    simp only [decodeAt_defaulted, bind_eq_ok_iff, Codec.decodeField_ok_iff]
    constructor
    · rintro ⟨a, ⟨build, hb, b, ⟨b', hb', rfl⟩ | ⟨hn, h⟩, heq⟩, hQ⟩
      · exact ⟨build, hb, some b', Or.inr ⟨b', hb', rfl⟩, Except.ok.inj heq ▸ hQ⟩
      · cases h
        exact ⟨build, hb, none, Or.inl ⟨hn, rfl⟩, Except.ok.inj heq ▸ hQ⟩
    · rintro ⟨build, hb, o, ⟨hn, rfl⟩ | ⟨b, hb', rfl⟩, hQ⟩
      · exact ⟨build default, ⟨build, hb, default, Or.inr ⟨hn, rfl⟩, rfl⟩, hQ⟩
      · exact ⟨build b, ⟨build, hb, b, Or.inl ⟨b, hb', rfl⟩, rfl⟩, hQ⟩
  | verbatim fields name absent ih =>
    rw [Yields, ← ih]
    simp only [decodeAt_verbatim, bind_eq_ok_iff]
    constructor
    · rintro ⟨a, ⟨build, hb, heq⟩, hQ⟩
      cases hl : Json.lookup members name with
      | none => simp [hl] at heq
      | some v =>
        rw [hl] at heq
        exact ⟨build, hb, v, rfl, Except.ok.inj heq ▸ hQ⟩
    · rintro ⟨build, hb, v, hl, hQ⟩
      exact ⟨build v, ⟨build, hb, by rw [hl]; rfl⟩, hQ⟩

/-! ## Objects -/

theorem Body.reads_record {fields : Fields α} :
    (Body.record fields).Reads members a ↔ fields.Yields members (· = a) := by
  rw [Reads, decodeAt_record, ← fields.exists_decodeAt_iff .root]
  simp

theorem Body.reads_checked {fields : Fields (Except FieldFault α)} :
    (Body.checked fields).Reads members a ↔ fields.Yields members (· = .ok a) := by
  rw [Reads, decodeAt_checked, ← fields.exists_decodeAt_iff .root, bind_eq_ok_iff]
  simp only [mapError_eq_ok_iff]

theorem Body.reads_whenPresent {key : String} {present absent : Body α} :
    (Body.whenPresent key present absent).Reads members a ↔
      if hasKey members key then present.Reads members a else absent.Reads members a := by
  rw [Reads, decodeAt_whenPresent]
  split <;> rfl

theorem Body.reads_memberless {interface : String} {b : α} :
    (Body.memberless interface b).Reads members a ↔ members = [] ∧ b = a := by
  rw [Reads, decodeAt_memberless]
  split <;> simp_all

end QueryScope
