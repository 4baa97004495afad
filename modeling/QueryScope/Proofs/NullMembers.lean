import QueryScope.Proofs.Entries

/-!
# Null members

A record does not tell a member that is null from one that is not there. This is so at every depth
of the snapshots that consist of fields, lists and maps only: two payloads that become equal when
the null members of all records are deleted are decoded to the same value or refused with the same
error. The binding of an argument is not such a record: it asks whether a key is there, null or not.
-/

namespace QueryScope

variable {α β : Type} {c : Codec α} {v : Json} {p : Path} {members : List (String × Json)}
  {name : String}

/-! ## Deleting null members -/

/-- How a description takes a value apart. -/
inductive Parting : Type 1 where
  /-- Not at all. -/
  | whole
  /-- Into the items of an array. -/
  | items {α : Type} (c : Codec α)
  /-- Into the values of an object whose keys are data. -/
  | values {α : Type} (c : Codec α)
  /-- Into the fields of a record. -/
  | fields (r : Record)

/-- How the description takes a value other than null apart; interfaces are left whole. -/
def Codec.parting : {α : Type} → Codec α → Parting
  | _, .scalar _ => .whole
  | _, .nullable c => c.parting
  | _, .list c => .items c
  | _, .keyed _ c => .values c
  | _, .record r => .fields r
  | _, .interface _ => .whole

mutual

/-- The value without the null members of the records that the description finds in it. -/
def Json.withoutNulls : Json → Parting → Json
  | .array items, .items c => .array (itemsWithoutNulls items c.parting)
  | .object members, .values c => .object (valuesWithoutNulls members c.parting)
  | .object members, .fields r => .object (fieldsWithoutNulls members (r.body.entries members))
  | v, _ => v

/-- The items, each without null members. -/
def itemsWithoutNulls : List Json → Parting → List Json
  | [], _ => []
  | v :: rest, parting => v.withoutNulls parting :: itemsWithoutNulls rest parting

/-- The members, each with its value without null members. -/
def valuesWithoutNulls : List (String × Json) → Parting → List (String × Json)
  | [], _ => []
  | (key, v) :: rest, parting => (key, v.withoutNulls parting) :: valuesWithoutNulls rest parting

/-- The members that are not null, those that are fields with their values without null members. -/
def fieldsWithoutNulls : List (String × Json) → List Entry → List (String × Json)
  | [], _ => []
  | (key, v) :: rest, entries =>
    if v.isNull then fieldsWithoutNulls rest entries
    else
      let parting := match entries.find? (·.name == key) with
        | some entry => entry.codec.parting
        | none => .whole
      (key, v.withoutNulls parting) :: fieldsWithoutNulls rest entries

end

/-- What stands for the value of a member that is not null. -/
def Json.fieldWithoutNulls (entries : List Entry) (name : String) (v : Json) : Json :=
  v.withoutNulls <| match entries.find? (·.name == name) with
    | some entry => entry.codec.parting
    | none => .whole

theorem fieldsWithoutNulls_eq_map (members : List (String × Json)) (entries : List Entry) :
    fieldsWithoutNulls members entries =
      (members.filter fun m => !m.2.isNull).map fun m =>
        (m.1, m.2.fieldWithoutNulls entries m.1) := by
  induction members with
  | nil => rfl
  | cons m rest ih =>
    obtain ⟨key, v⟩ := m
    rw [fieldsWithoutNulls, ih, List.filter_cons]
    cases hv : v.isNull <;> simp [Json.fieldWithoutNulls]

@[simp] theorem Json.withoutNulls_whole (v : Json) : v.withoutNulls .whole = v := by
  cases v <;> rfl

@[simp] theorem Json.isNull_withoutNulls (v : Json) (parting : Parting) :
    (v.withoutNulls parting).isNull = v.isNull := by
  cases v <;> cases parting <;> rfl

namespace Json

theorem lookup_filter_isNull (hnd : (members.map Prod.fst).Nodup) :
    lookup (members.filter fun m => !m.2.isNull) name = present? members name := by
  induction members with
  | nil => rfl
  | cons m rest ih =>
    rw [List.map_cons, List.nodup_cons] at hnd
    rw [List.filter_cons, present?, lookup_cons]
    by_cases hm : m.1 = name
    · subst hm
      -- the key does not occur again, whether or not its member is deleted
      have hrest : present? rest m.1 = none :=
        present?_eq_none_iff.mpr (Or.inl (lookup_eq_none_iff.mpr hnd.1))
      cases hnull : m.2.isNull with
      | true =>
        rw [if_neg (by simp), ih hnd.2, hrest, if_pos rfl, Option.filter_some, hnull]
        rfl
      | false =>
        rw [if_pos (by simp), lookup_cons, if_pos rfl, if_pos rfl, Option.filter_some, hnull]
        rfl
    · rw [if_neg hm, ← present?, ← ih hnd.2]
      split
      · rw [lookup_cons, if_neg hm]
      · rfl

theorem present?_fieldsWithoutNulls (hnd : (members.map Prod.fst).Nodup) (entries : List Entry) :
    present? (fieldsWithoutNulls members entries) name =
      (present? members name).map (fieldWithoutNulls entries name) := by
  have hlookup : lookup (fieldsWithoutNulls members entries) name =
      (present? members name).map (fieldWithoutNulls entries name) := by
    rw [fieldsWithoutNulls_eq_map, ← lookup_filter_isNull hnd]
    exact lookup_map fun key v => v.fieldWithoutNulls entries key
  rw [present?, hlookup]
  cases hv : present? members name with
  | none => rfl
  | some v =>
    have hnull : v.isNull = false := (present?_eq_some_iff.mp hv).2
    simp [fieldWithoutNulls, hnull]

theorem fieldWithoutNulls_of_mem {entries : List Entry} (hnd : (entries.map (·.name)).Nodup)
    {entry : Entry} (h : entry ∈ entries) (v : Json) :
    v.fieldWithoutNulls entries entry.name = v.withoutNulls entry.codec.parting := by
  have hfind : entries.find? (·.name == entry.name) = some entry := by
    induction entries with
    | nil => cases h
    | cons first rest ih =>
      rw [List.map_cons, List.nodup_cons] at hnd
      rcases List.mem_cons.mp h with rfl | h
      · exact List.find?_cons_of_pos (by simp)
      · have hne : first.name ≠ entry.name := fun e => hnd.1 (e ▸ List.mem_map_of_mem h)
        rw [List.find?_cons_of_neg (by simpa using hne), ih hnd.2 h]
  rw [fieldWithoutNulls, hfind]

end Json

/-! ## Reading without null members -/

/-- The value is decoded to the same when null members are deleted, wherever it stands. -/
def Codec.IgnoresNulls (c : Codec α) (v : Json) : Prop :=
  ∀ p, c.decodeAt .standard p (v.withoutNulls c.parting) = c.decodeAt .standard p v

theorem Codec.decodeItems_withoutNulls {items : List Json} (h : ∀ v ∈ items, c.IgnoresNulls v)
    (n : Nat) : c.decodeItems .standard p n (itemsWithoutNulls items c.parting) =
      c.decodeItems .standard p n items := by
  induction items generalizing n with
  | nil => rfl
  | cons v rest ih =>
    obtain ⟨hv, hrest⟩ := List.forall_mem_cons.mp h
    rw [itemsWithoutNulls, decodeItems, decodeItems, hv, ih hrest]

theorem Codec.decodeKeyed_withoutNulls {key : String → Except Reason β}
    (h : ∀ m ∈ members, c.IgnoresNulls m.2) :
    c.decodeKeyed key .standard p (valuesWithoutNulls members c.parting) =
      c.decodeKeyed key .standard p members := by
  induction members with
  | nil => rfl
  | cons m rest ih =>
    obtain ⟨hm, hrest⟩ := List.forall_mem_cons.mp h
    rw [valuesWithoutNulls, decodeKeyed, decodeKeyed, hm, ih hrest]

/-- The field is decoded to the same from both objects. -/
def Entry.SameField (entry : Entry) (p : Path) (members members' : List (String × Json)) : Prop :=
  ∀ (γ : Type) (found : entry.type → γ) (absent : Except DecodeError γ),
    entry.codec.decodeField .standard p members entry.name found absent =
      entry.codec.decodeField .standard p members' entry.name found absent

theorem Entry.sameField_withoutNulls {entries : List Entry} (hnames : (entries.map (·.name)).Nodup)
    (hnd : (members.map Prod.fst).Nodup) {entry : Entry} (hentry : entry ∈ entries)
    (h : ∀ m ∈ members, entry.codec.IgnoresNulls m.2) :
    entry.SameField p (fieldsWithoutNulls members entries) members := by
  intro γ found absent
  unfold Codec.decodeField
  rw [Json.present?_fieldsWithoutNulls hnd]
  cases hv : Json.present? members entry.name with
  | none => rfl
  | some v =>
    have hmem : (entry.name, v) ∈ members :=
      Json.mem_of_lookup (Json.present?_eq_some_iff.mp hv).1
    simp only [Option.map_some]
    rw [Json.fieldWithoutNulls_of_mem hnames hentry, h _ hmem]

/-! ## Snapshots of fields, lists and maps -/

/-- The records of buffers, tasks, counters, failures and pools, which lead to no others. -/
def Record.isPlain : Record → Bool
  | .pageBuffer | .consumerBuffer | .outputBuffer | .taskStatus | .task | .queryStats | .failure
  | .memoryPool => true
  | .stage | .query | .fragment | .partitioningHandle | .partitioning | .partitioningScheme
  | .tableHandle | .argumentBinding => false

/-- Whether all records in the description are plain, and there are no interfaces. -/
def Codec.isPlain : {α : Type} → Codec α → Bool
  | _, .scalar _ => true
  | _, .nullable c => c.isPlain
  | _, .list c => c.isPlain
  | _, .keyed _ c => c.isPlain
  | _, .record r => r.isPlain
  | _, .interface _ => false

/-- Whether all fields are described plainly, and none is kept as it stands. -/
def Fields.isPlain : {α : Type} → Fields α → Bool
  | _, .pure _ => true
  | _, .required fields _ c => fields.isPlain && c.isPlain
  | _, .optional fields _ c => fields.isPlain && c.isPlain
  | _, .defaulted fields _ c _ => fields.isPlain && c.isPlain
  | _, .verbatim _ _ _ => false

/-- Whether the object is read from plain fields. -/
def Body.isPlain : Body α → Bool
  | .record fields | .checked fields => fields.isPlain
  | .whenPresent _ _ _ | .memberless _ _ | .custom _ => false

theorem Record.body_isPlain {r : Record} (h : r.isPlain = true) : r.body.isPlain = true := by
  cases r <;> first | rfl | cases h

theorem Fields.isPlain_of_mem {fields : Fields α} (h : fields.isPlain = true) :
    ∀ entry ∈ fields.entries, entry.codec.isPlain = true := by
  induction fields with
  | pure a => exact List.forall_mem_nil _
  | required fields name c ih | optional fields name c ih | defaulted fields name c _ ih =>
    rw [isPlain, Bool.and_eq_true] at h
    rw [entries, List.forall_mem_append, List.forall_mem_singleton]
    exact ⟨ih h.1, h.2⟩
  | verbatim fields name absent => cases h

theorem Fields.decodeAt_congr {fields : Fields α} {members' : List (String × Json)}
    (hplain : fields.isPlain = true)
    (h : ∀ entry ∈ fields.entries, entry.SameField p members members') :
    fields.decodeAt .standard p members = fields.decodeAt .standard p members' := by
  induction fields with
  | pure a => rfl
  | required fields name c ih | optional fields name c ih | defaulted fields name c _ ih =>
    rw [isPlain, Bool.and_eq_true] at hplain
    rw [entries, List.forall_mem_append, List.forall_mem_singleton] at h
    simp only [decodeAt_required, decodeAt_optional, decodeAt_defaulted, ih hplain.1 h.1, h.2 _]
  | verbatim fields name absent => cases hplain

theorem Fields.decodeAt_withoutNulls {fields : Fields α} (hplain : fields.isPlain = true)
    (hnames : (fields.entries.map (·.name)).Nodup) (hnd : (members.map Prod.fst).Nodup)
    (h : ∀ m ∈ members, ∀ (γ : Type) (c : Codec γ), c.isPlain = true → c.IgnoresNulls m.2) :
    fields.decodeAt .standard p (fieldsWithoutNulls members fields.entries) =
      fields.decodeAt .standard p members := by
  refine decodeAt_congr hplain fun entry hentry => ?_
  have hcodec : entry.codec.isPlain = true := isPlain_of_mem hplain entry hentry
  exact entry.sameField_withoutNulls hnames hnd hentry fun m hm => h m hm _ _ hcodec

theorem Record.decodeAt_withoutNulls {r : Record} (hr : r.isPlain = true)
    (hnd : (members.map Prod.fst).Nodup)
    (h : ∀ m ∈ members, ∀ (γ : Type) (c : Codec γ), c.isPlain = true → c.IgnoresNulls m.2) :
    r.body.decodeAt .standard p (fieldsWithoutNulls members (r.body.entries members)) =
      r.body.decodeAt .standard p members := by
  have hbody := body_isPlain hr
  have hnames : ((r.body.entries members).map (·.name)).Nodup :=
    (Body.entries_regular r.body_isRegular).1
  generalize r.body = b at hbody hnames
  cases b with
  | record fields =>
    rw [Body.decodeAt_record, Body.decodeAt_record, Body.entries]
    exact Fields.decodeAt_withoutNulls hbody hnames hnd h
  | checked fields =>
    rw [Body.decodeAt_checked, Body.decodeAt_checked, Body.entries,
      Fields.decodeAt_withoutNulls hbody hnames hnd h]
  | whenPresent _ _ _ | memberless _ _ | custom _ => cases hbody

theorem Codec.ignoresNulls (hv : v.WellFormed) (hc : c.isPlain = true) : c.IgnoresNulls v := by
  induction v using Json.induction_on generalizing α with
  | step v ihItems ihMembers =>
    have hitems {γ : Type} {c : Codec γ} (hc : c.isPlain = true) :
        ∀ w ∈ v.items, c.IgnoresNulls w :=
      fun w hw => ihItems w hw (hv.item hw) hc
    have hmembers {γ : Type} {c : Codec γ} (hc : c.isPlain = true) :
        ∀ m ∈ v.members, c.IgnoresNulls m.2 :=
      fun m hm => ihMembers m hm (hv.member hm) hc
    induction c with
    | scalar read =>
      intro p
      rw [parting, Json.withoutNulls_whole]
    | nullable c ih =>
      intro p
      rw [decodeAt_nullable, decodeAt_nullable, Json.isNull_withoutNulls, parting, ih hc]
    | list c _ =>
      intro p
      rw [decodeAt_list, decodeAt_list]
      cases v with
      | array items => exact decodeItems_withoutNulls (c := c) (hitems hc) 0
      | _ => rfl
    | keyed key c _ =>
      intro p
      rw [decodeAt_keyed, decodeAt_keyed]
      cases v with
      | object members => exact decodeKeyed_withoutNulls (hmembers hc)
      | _ => rfl
    | record r =>
      intro p
      rw [decodeAt_record, decodeAt_record]
      cases v with
      | object members =>
        exact Record.decodeAt_withoutNulls hc hv.nodup fun m hm γ c hc => hmembers hc m hm
      | _ => rfl
    | interface i => cases hc

/-- Payloads of plain records that are equal without null members are decoded to the same. -/
theorem decode_eq_of_withoutNulls_eq {r : Record} (hr : r.isPlain = true) {P P' : Json}
    (hP : P.WellFormed) (hP' : P'.WellFormed)
    (h : P.withoutNulls (.fields r) = P'.withoutNulls (.fields r)) :
    (Codec.record r).decode .standard P = (Codec.record r).decode .standard P' := by
  have hdeleted : (Codec.record r).IgnoresNulls P := Codec.ignoresNulls hP hr
  have hdeleted' : (Codec.record r).IgnoresNulls P' := Codec.ignoresNulls hP' hr
  calc (Codec.record r).decode .standard P
      = (Codec.record r).decode .standard (P.withoutNulls (.fields r)) := (hdeleted .root).symm
    _ = (Codec.record r).decode .standard (P'.withoutNulls (.fields r)) := by rw [h]
    _ = (Codec.record r).decode .standard P' := hdeleted' .root

/-- A failure with null members, and with a cause that has some. -/
def Failure.nullsPayload : Json :=
  .object [("cause", .object [("cause", .null), ("message", .string "disk full"), ("note", .null),
      ("stack", .null), ("type", .string "IOException")]),
    ("message", .null), ("stack", .array [.string "main"]), ("type", .string "RuntimeException")]

/-- The same failure with these members absent. -/
def Failure.absentPayload : Json :=
  .object [("cause", .object [("message", .string "disk full"), ("type", .string "IOException")]),
    ("stack", .array [.string "main"]), ("type", .string "RuntimeException")]

theorem decode_nulls_eq_absent :
    Failure.nullsPayload.WellFormed ∧ Failure.absentPayload.WellFormed ∧
      Failure.nullsPayload.withoutNulls (.fields .failure) =
        Failure.absentPayload.withoutNulls (.fields .failure) ∧
      (Codec.record .failure).decode .standard Failure.nullsPayload =
        (Codec.record .failure).decode .standard Failure.absentPayload ∧
      ∃ f, (Codec.record .failure).decode .standard Failure.nullsPayload = .ok f := by
  have hnulls : Failure.nullsPayload.WellFormed := by decide
  have habsent : Failure.absentPayload.WellFormed := by decide
  have hdeleted : Failure.nullsPayload.withoutNulls (.fields .failure) =
      Failure.absentPayload.withoutNulls (.fields .failure) := rfl
  have hsame := decode_eq_of_withoutNulls_eq (r := .failure) rfl hnulls habsent hdeleted
  exact ⟨hnulls, habsent, hdeleted, hsame, _, hsame.trans rfl⟩

end QueryScope
