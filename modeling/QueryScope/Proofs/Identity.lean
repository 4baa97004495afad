import QueryScope.Proofs.Restoring.Plan

/-!
# One identity in all tables

What a variant is called stands in several places: under the name of its registration, in its tag,
in what its values say of themselves, and in what is written for them. All of them agree, on
whatever ground the variant was chosen.
-/

namespace QueryScope

variable {α : Type} {reg : Registry} {p : Path} {members : List (String × Json)} {i : Interface}

/-! ## What a body builds -/

/-- Whatever the fields are read as, what they are put into has a property. -/
def Fields.Builds : {α : Type} → Fields α → (α → Prop) → Prop
  | _, .pure a, Q => Q a
  | _, .required fields _ _, Q => fields.Builds fun build => ∀ b, Q (build b)
  | _, .optional fields _ _, Q => fields.Builds fun build => ∀ o, Q (build o)
  | _, .defaulted fields _ _ _, Q => fields.Builds fun build => ∀ b, Q (build b)
  | _, .verbatim fields _ _, Q => fields.Builds fun build => ∀ v, Q (build v)

theorem Fields.Builds.of_yields {fields : Fields α} {Q R : α → Prop} (hQ : fields.Builds Q)
    (hR : fields.Yields members R) : ∃ a, Q a ∧ R a := by
  induction fields with
  | pure a => exact ⟨a, hQ, hR⟩
  | required fields name c ih =>
    obtain ⟨build, hbuild, b, -, hb⟩ := ih hQ hR
    exact ⟨build b, hbuild b, hb⟩
  | optional fields name c ih =>
    obtain ⟨build, hbuild, o, -, ho⟩ := ih hQ hR
    exact ⟨build o, hbuild o, ho⟩
  | defaulted fields name c default ih =>
    obtain ⟨build, hbuild, o, -, ho⟩ := ih hQ hR
    exact ⟨_, hbuild _, ho⟩
  | verbatim fields name absent ih =>
    obtain ⟨build, hbuild, v, -, hv⟩ := ih hQ hR
    exact ⟨build v, hbuild v, hv⟩

/-- What fields are decoded as has the properties of all that they can build. -/
theorem Fields.Builds.of_decodeAt {fields : Fields α} {Q : α → Prop} {a : α} (hQ : fields.Builds Q)
    (h : fields.decodeAt reg p members = .ok a) : Q a := by
  induction fields with
  | pure b =>
    obtain rfl := Except.ok.inj h
    exact hQ
  | required fields name c ih | optional fields name c ih | defaulted fields name c default ih =>
    simp only [decodeAt_required, decodeAt_optional, decodeAt_defaulted] at h
    obtain ⟨build, hbuild, h⟩ := bind_eq_ok_iff.mp h
    obtain ⟨b, -, h⟩ := bind_eq_ok_iff.mp h
    obtain rfl := Except.ok.inj h
    exact ih hQ hbuild b
  | verbatim fields name absent ih =>
    rw [decodeAt_verbatim] at h
    obtain ⟨build, hbuild, h⟩ := bind_eq_ok_iff.mp h
    split at h
    · obtain rfl := Except.ok.inj h
      exact ih hQ hbuild _
    · cases h

/-- Whatever an object is read as has a property. -/
def Body.Builds {α : Type} : Body α → (α → Prop) → Prop
  | .record fields, Q => fields.Builds Q
  | .checked fields, Q => fields.Builds fun r => ∀ a, r = .ok a → Q a
  | .whenPresent _ present absent, Q => present.Builds Q ∧ absent.Builds Q
  | .memberless _ a, Q => Q a
  | .custom _, Q => ∀ a, Q a

theorem Body.Builds.of_reads {b : Body α} {Q : α → Prop} {a : α} (hQ : b.Builds Q)
    (h : b.Reads members a) : Q a := by
  induction b with
  | record fields =>
    obtain ⟨_, hQ, rfl⟩ := Fields.Builds.of_yields hQ (reads_record.mp h)
    exact hQ
  | checked fields =>
    obtain ⟨_, hQ, rfl⟩ := Fields.Builds.of_yields hQ (reads_checked.mp h)
    exact hQ a rfl
  | whenPresent key present absent ihPresent ihAbsent =>
    have h := reads_whenPresent.mp h
    split at h
    · exact ihPresent hQ.1 h
    · exact ihAbsent hQ.2 h
  | memberless interface b =>
    obtain ⟨-, rfl⟩ := reads_memberless.mp h
    exact hQ
  | custom read => exact hQ a

/-! ## Names -/

/-- The name that a value gives of its own variant. -/
def Interface.nameOf : (i : Interface) → i.Value → String
  | .partitioning => ConnectorPartitioning.variant
  | .transaction => ConnectorTransaction.variant
  | .table => ConnectorTable.variant
  | .column => ConnectorColumn.variant
  | .expression => Expression.kind
  | .planNode => PlanNode.kind
  | .custom _ _ => Json.kind

/-- Every variant builds values of its own name. -/
theorem Interface.variants_build (i : Interface) :
    ∀ w ∈ i.variants, w.body.Builds fun a => i.nameOf a = w.name := by
  cases i <;>
    simp only [variants, ConnectorPartitioning.variants, ConnectorTransaction.variants,
      ConnectorTable.variants, ConnectorColumn.variants, Expression.variants, PlanNode.variants,
      List.forall_mem_cons, List.not_mem_nil, false_imp_iff, implies_true, and_true]
  all_goals
    and_intros <;> simp only [Variant.structural, Variant.tagged, Variant.withSignature,
      Expression.variantOf, Expression.binaryVariant, PlanNode.variantOf, Body.Builds,
      Fields.Builds] <;> intros <;> rfl

/-! ## What is written -/

/-- What is written for a value. -/
def Interface.encode : (i : Interface) → i.Value → Json
  | .partitioning => ConnectorPartitioning.encode
  | .transaction => ConnectorTransaction.encode
  | .table => ConnectorTable.encode
  | .column => ConnectorColumn.encode
  | .expression => Expression.encode
  | .planNode => PlanNode.encode
  | .custom _ _ => id

/-- Members lead to the variant of a name, and have the name under the tag key if there is one. -/
structure Interface.Names (i : Interface) (own : List (String × Json)) (d : Variant i)
    (named : String) : Prop where
  select : i.standardTable.select own = .ok d
  name : d.name = named
  tag : ∀ key, i.tagKey = some key →
    d.tag = some named ∧ Json.lookup own key = some (.string named)

/-- An object that starts with a tag leads to the variant that the tag belongs to. -/
theorem Interface.names_of_tagged {v : Json} {key name : String} {fields : List (String × Json)}
    (hkey : i.tagKey = some key) (hv : v = .object ((key, .string name) :: fields))
    (hnd : (key :: fields.map Prod.fst).Nodup)
    (htable : ∃ d, i.standardTable.byTag? name = some d ∧ d.name = name ∧ d.tag = some name) :
    ∃ own d, v.HasMembers own ∧ i.Names own d name := by
  obtain ⟨d, hd, hname, htag⟩ := htable
  have hlookup : Json.lookup ((key, .string name) :: fields) key = some (.string name) := by
    rw [Json.lookup_cons, if_pos rfl]
  refine ⟨(key, .string name) :: fields, d, hv ▸ Json.hasMembers_object hnd, ?_, hname, ?_⟩
  · simp only [VariantTable.select, hkey, hlookup, VariantTable.selectByTag, hd]
  · intro key' hkey'
    obtain rfl := Option.some.inj (hkey.symm.trans hkey')
    exact ⟨htag, hlookup⟩

/-- Without a tag key the name is all that a variant has to have. -/
theorem Interface.names_of_untagged {v : Json} {own : List (String × Json)} {d : Variant i}
    {name : String} (hv : v.HasMembers own) (hkey : i.tagKey = none)
    (hselect : i.standardTable.select own = .ok d) (hname : d.name = name) :
    ∃ own d, v.HasMembers own ∧ i.Names own d name := by
  refine ⟨own, d, hv, hselect, hname, fun key hsome => ?_⟩
  rw [hkey] at hsome
  cases hsome

theorem Expression.encode_names (e : Expression) :
    ∃ own d, e.encode.HasMembers own ∧ Interface.Names .expression own d e.kind := by
  have hencode : ∃ fields, e.encode = tagged e.kind fields ∧
      ("@type" :: fields.map Prod.fst).Nodup := by
    cases e with
    | functionCall name arguments set | cast operand type set =>
      cases set <;> exact ⟨_, rfl, by simp [flag]⟩
    | _ => exact ⟨_, rfl, by simp⟩
  obtain ⟨fields, heq, hnd⟩ := hencode
  refine Interface.names_of_tagged rfl heq hnd ?_
  cases e <;> exact ⟨_, rfl, rfl, rfl⟩

theorem PlanNode.encode_names (node : PlanNode) :
    ∃ own d, node.encode.HasMembers own ∧ Interface.Names .planNode own d node.kind := by
  have hencode : ∃ fields, node.encode = tagged node.kind node.id fields ∧
      ("@type" :: "id" :: fields.map Prod.fst).Nodup := by
    cases node <;> exact ⟨_, rfl, by simp⟩
  obtain ⟨fields, heq, hnd⟩ := hencode
  refine Interface.names_of_tagged rfl heq hnd ?_
  cases node <;> exact ⟨_, rfl, rfl, rfl⟩

/-- Whatever value of a standard interface is written, the members lead to the variant of its
name. -/
theorem Interface.encode_names (hi : i.IsStandard) (a : i.Value) :
    ∃ own d, (i.encode a).HasMembers own ∧ i.Names own d (i.nameOf a) := by
  cases i with
  | expression => exact Expression.encode_names a
  | planNode => exact PlanNode.encode_names a
  | custom name tagKey => cases hi
  | partitioning =>
    cases a with
    | hive count function most =>
      cases most <;>
        exact names_of_untagged (Json.hasMembers_ofMembers (by simp [Json.optionalMember]))
          rfl rfl rfl
    | _ => exact names_of_untagged (Json.hasMembers_ofMembers (by simp)) rfl rfl rfl
  | transaction =>
    cases a with
    | remote => exact names_of_untagged (Json.hasMembers_object .nil) rfl rfl rfl
    | _ => exact names_of_untagged (Json.hasMembers_ofMembers (by simp)) rfl rfl rfl
  | table => cases a <;> exact names_of_untagged (Json.hasMembers_ofMembers (by simp)) rfl rfl rfl
  | column =>
    cases a with
    | hive column type index role comment =>
      cases comment <;>
        exact names_of_untagged (Json.hasMembers_ofMembers (by simp [Json.optionalMember]))
          rfl rfl rfl
    | _ => exact names_of_untagged (Json.hasMembers_ofMembers (by simp)) rfl rfl rfl

theorem Interface.names_nodup (i : Interface) : (i.variants.map (·.name)).Nodup := by
  cases i with
  | custom => exact List.nodup_nil
  | _ => decide

/-- Variants of the same name are the same. -/
theorem Interface.variant_ext {d w : Variant i} (hd : d ∈ i.variants) (hw : w ∈ i.variants)
    (h : d.name = w.name) : d = w :=
  List.inj_on_of_nodup_map i.names_nodup hd hw h

theorem Interface.Names.arranged {f : Json → Json} {own es : List (String × Json)} {d : Variant i}
    {name : String} (hf : Json.Arrangement f) (h : i.Names own d name)
    (harr : Json.Arranged f own es) : i.Names es d name where
  select := VariantTable.select_arranged hf harr h.select
  name := h.name
  tag key hkey := by
    obtain ⟨htag, hlookup⟩ := h.tag key hkey
    refine ⟨htag, ?_⟩
    rw [harr, hlookup, Option.map_some, hf.wellFormed (.string name)]

/-- A value that is decoded at a standard interface says of itself that it is the variant that was
chosen for the object; what is written for it, in the order of writing or ascending, leads to the
same variant again. Where there is a tag key, the name is the variant's tag too, and stands under
the key in what is written. -/
theorem Interface.decode_identity {P : Json} {a : i.Value}
    (h : (Codec.interface i).decode .standard P = .ok a) :
    ∃ table members d own es, Registry.standard.table? i = some table ∧ P = .object members ∧
      table.select members = .ok d ∧ i.nameOf a = d.name ∧
      i.encode a = .object own ∧ table.select own = .ok d ∧
      (i.encode a).sorted = .object es ∧ table.select es = .ok d ∧
      ∀ key, i.tagKey = some key → d.tag = some (i.nameOf a) ∧
        Json.lookup own key = some (.string (i.nameOf a)) ∧
        Json.lookup es key = some (.string (i.nameOf a)) := by
  obtain ⟨members, d, rfl, hi, hselect, hreads⟩ := Codec.reads_interface.mp h
  have hd : d ∈ i.variants := VariantTable.mem_of_select_ok hselect
  have hname : i.nameOf a = d.name := (i.variants_build d hd).of_reads hreads
  obtain ⟨written, w, hwritten, hnames⟩ := Interface.encode_names hi a
  -- names are distinct, so that the variant found again is the one that was chosen
  obtain rfl : d = w :=
    variant_ext hd (VariantTable.mem_of_select_ok hnames.select) (hname.symm.trans hnames.name.symm)
  obtain ⟨own, hown, hownArranged⟩ := Json.Arrangement.id.exists_arranged hwritten
  obtain ⟨es, hes, hesArranged⟩ := Json.Arrangement.sorted.exists_arranged hwritten
  have hwrittenNames := hnames.arranged .id hownArranged
  have hsortedNames := hnames.arranged .sorted hesArranged
  refine ⟨_, members, d, own, es, hi, rfl, hselect, hname, hown, hwrittenNames.select, hes,
    hsortedNames.select, fun key hkey => ?_⟩
  exact ⟨(hnames.tag key hkey).1, (hwrittenNames.tag key hkey).2, (hsortedNames.tag key hkey).2⟩

/-- Constant rows without a tag, as their keys are read from text. -/
def PlanNode.rowsMembers : List (String × Json) :=
  [("id", .string "1"), ("outputSymbols", .array [.string "x"]), ("rows", .array [])]

theorem Interface.decode_identity_rows :
    ∃ node table d own,
      (Codec.interface .planNode).decode .standard (.object PlanNode.rowsMembers) = .ok node ∧
      Registry.standard.table? .planNode = some table ∧ table.select PlanNode.rowsMembers = .ok d ∧
      Interface.nameOf .planNode node = d.name ∧ d.tag = some (Interface.nameOf .planNode node) ∧
      Interface.encode .planNode node = .object own ∧ table.select own = .ok d := by
  have h : (Codec.interface .planNode).decode .standard (.object PlanNode.rowsMembers) =
    .ok (PlanNode.values ⟨"1", by decide⟩ ["x"] []) := rfl
  obtain ⟨table, members, d, own, es, htable, hP, hselect, hname, hown, hagain, -, -, htag⟩ :=
    Interface.decode_identity h
  obtain rfl := Json.object.inj hP
  exact ⟨_, table, d, own, h, htable, hselect, hname, (htag "@type" rfl).1, hown, hagain⟩

end QueryScope
