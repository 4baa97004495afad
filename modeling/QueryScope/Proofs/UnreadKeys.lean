import QueryScope.Proofs.SameOutcome

/-!
# Keys that are not read

Objects may have members that nothing reads. Adding such members to a payload, to any of its objects
that are not maps, changes nothing but the list of keys in the error of an object of which no
variant fits.
-/

namespace QueryScope

variable {α β γ : Type} {i : Interface} {c : Codec α} {v v' : Json} {p : Path}
  {members members' : List (String × Json)} {name : String}

/-! ## Payloads with more members -/

/-- The tag key of the interface, the keys of the signatures and the fields of its variants. -/
def Interface.keys (i : Interface) (members : List (String × Json)) : List String :=
  i.tagKey.toList ++ i.variants.flatMap fun w => w.signature.getD [] ++ w.body.keys members

/-- The fields that are read from an object at the position, if a variant is chosen for it. -/
def Interface.entries (i : Interface) (members : List (String × Json)) : List Entry :=
  match i.variant? members with
  | some w => w.body.entries members
  | none => []

/-- The object has more members: none of the keys that are new is reserved, and whatever is not read
as a field is as it was. -/
structure Json.Adds (reserved : List String) (entries : List Entry)
    (members members' : List (String × Json)) : Prop where
  keys : (members.map Prod.fst).Sublist (members'.map Prod.fst)
  unread : ∀ key ∈ members'.map Prod.fst, key ∉ members.map Prod.fst → key ∉ reserved
  same : ∀ key w, key ∉ entries.map (·.name) → lookup members key = some w →
    lookup members' key = some w

/-- The payload has more members, in objects that are read as records and in objects at abstract
positions. Where a field is read, the value may have more members in turn; a map keeps its keys, and
the empty object stays empty where it is a handle of a transaction. -/
inductive Codec.Extended : {α : Type} → Codec α → Json → Json → Prop where
  | same {α : Type} (c : Codec α) (v : Json) : c.Extended v v
  | nullable {α : Type} {c : Codec α} {v v' : Json} (h : c.Extended v v') : c.nullable.Extended v v'
  | list {α : Type} {c : Codec α} {items items' : List Json} (length : items.length = items'.length)
      (h : ∀ k h h', c.Extended (items.get ⟨k, h⟩) (items'.get ⟨k, h'⟩)) :
      c.list.Extended (.array items) (.array items')
  | keyed {κ α : Type} {key : String → Except Reason κ} {c : Codec α}
      {members members' : List (String × Json)} (length : members.length = members'.length)
      (keys : ∀ k h h', (members.get ⟨k, h⟩).1 = (members'.get ⟨k, h'⟩).1)
      (h : ∀ k h h', c.Extended (members.get ⟨k, h⟩).2 (members'.get ⟨k, h'⟩).2) :
      (Codec.keyed key c).Extended (.object members) (.object members')
  | record (r : Record) {members members' : List (String × Json)}
      (adds : Json.Adds (r.body.keys members) (r.body.entries members) members members')
      (h : ∀ entry ∈ r.body.entries members, ∀ w w', Json.lookup members entry.name = some w →
        Json.lookup members' entry.name = some w' → entry.codec.Extended w w') :
      (Codec.record r).Extended (.object members) (.object members')
  | interface (i : Interface) {members members' : List (String × Json)}
      (adds : Json.Adds (i.keys members) (i.entries members) members members')
      (empty : i = .transaction → members = [] → members' = [])
      (h : ∀ entry ∈ i.entries members, ∀ w w', Json.lookup members entry.name = some w →
        Json.lookup members' entry.name = some w' → entry.codec.Extended w w') :
      (Codec.interface i).Extended (.object members) (.object members')

theorem Codec.Extended.isNull_eq (h : c.Extended v v') : v.isNull = v'.isNull := by
  induction h with
  | nullable _ ih => exact ih
  | _ => rfl

theorem Codec.Extended.eq_of_string {s : String} (h : c.Extended (.string s) v') :
    v' = .string s := by
  generalize hv : Json.string s = v at h
  induction h with
  | same c v => rfl
  | nullable _ ih => exact ih hv
  | _ => cases hv

/-! ## Added members -/

namespace Json.Adds

variable {reserved : List String} {entries : List Entry} {key : String}

theorem mem_iff (h : Adds reserved entries members members') (hkey : key ∈ reserved) :
    key ∈ members'.map Prod.fst ↔ key ∈ members.map Prod.fst := by
  constructor
  · intro hmem
    by_contra hnew
    exact h.unread key hmem hnew hkey
  · exact fun hmem => h.keys.subset hmem

theorem hasKey_eq (h : Adds reserved entries members members') (hkey : key ∈ reserved) :
    hasKey members' key = hasKey members key := by
  rw [Bool.eq_iff_iff, hasKey_iff, hasKey_iff]
  exact h.mem_iff hkey

theorem lookup_eq_none (h : Adds reserved entries members members') (hkey : key ∈ reserved)
    (hnone : lookup members key = none) : lookup members' key = none := by
  rw [lookup_eq_none_iff] at hnone ⊢
  exact fun hmem => hnone ((h.mem_iff hkey).mp hmem)

theorem exists_lookup (h : Adds reserved entries members members')
    (hsome : lookup members key = some v) : ∃ w, lookup members' key = some w := by
  cases hw : lookup members' key with
  | some w => exact ⟨w, rfl⟩
  | none =>
    have hmem : key ∈ members.map Prod.fst := List.mem_map_of_mem (mem_of_lookup hsome)
    exact absurd (h.keys.subset hmem) (lookup_eq_none_iff.mp hw)

/-- The values of the fields that are read are decoded with the same outcome if the added members
leave each of them so. -/
theorem alike (h : Adds reserved entries members members') {entry : Entry}
    (hkey : entry.name ∈ reserved) (hvalues : ∀ w w', lookup members entry.name = some w →
      lookup members' entry.name = some w' → w.isNull = w'.isNull ∧ entry.codec.Alike w w') :
    entry.Alike members members' := by
  cases hw : lookup members entry.name with
  | none => exact Or.inl ⟨hw, h.lookup_eq_none hkey hw⟩
  | some w =>
    obtain ⟨w', hw'⟩ := h.exists_lookup hw
    obtain ⟨hnull, halike⟩ := hvalues w w' hw hw'
    exact Or.inr ⟨w, w', hw, hw', hnull, halike⟩

end Json.Adds

/-! ## The choice of a variant -/

namespace VariantTable

variable {t : VariantTable i} {w : Variant i}

/-- The choice looks at nothing but the keys of signatures and the tag. -/
theorem select_of_more (hnames : (members.map Prod.fst).Sublist (members'.map Prod.fst))
    (hkeys : ∀ w ∈ t.variants, ∀ key ∈ w.signature.getD [],
      hasKey members' key = hasKey members key)
    (htag : ∀ key, i.tagKey = some key → Json.lookup members' key = Json.lookup members key) :
    (∃ w, t.select members = .ok w ∧ t.select members' = .ok w) ∨
      ∃ fault fault', fault.MoreKeys fault' ∧ t.select members = .error fault ∧
        t.select members' = .error fault' := by
  have hcandidates : t.candidates members' = t.candidates members := by
    refine List.filterMap_congr fun w hw => ?_
    cases hsig : w.signature with
    | none => rfl
    | some keys =>
      have hw := hkeys w hw
      rw [hsig, Option.getD_some] at hw
      have hall : keys.all (hasKey members') = keys.all (hasKey members) := by
        rw [Bool.eq_iff_iff, List.all_eq_true, List.all_eq_true]
        exact forall₂_congr fun key hkey => by rw [hw key hkey]
      simp only [hall]
  have hbyKeys : (∃ w, t.selectByKeys members = .ok w ∧ t.selectByKeys members' = .ok w) ∨
      ∃ fault fault', fault.MoreKeys fault' ∧ t.selectByKeys members = .error fault ∧
        t.selectByKeys members' = .error fault' := by
    unfold selectByKeys
    rw [hcandidates]
    split
    next only _ => exact Or.inl ⟨only, rfl, rfl⟩
    next => exact Or.inr ⟨_, _, .keys hnames, rfl, rfl⟩
    next => exact Or.inr ⟨_, _, .refl _, rfl, rfl⟩
  unfold select
  split
  · exact hbyKeys
  next key hkey =>
    rw [htag key hkey]
    cases Json.lookup members key with
    | none => exact hbyKeys
    | some tag =>
      cases hselect : t.selectByTag key tag with
      | ok w => exact Or.inl ⟨w, hselect, hselect⟩
      | error fault => exact Or.inr ⟨_, _, .refl _, hselect, hselect⟩

/-- A tag that decides is a text. -/
theorem tag_of_select_ok {key : String} {tag : Json} (hkey : i.tagKey = some key)
    (htag : Json.lookup members key = some tag) (h : t.select members = .ok w) :
    ∃ s, tag = .string s := by
  simp only [select, hkey, htag] at h
  cases tag with
  | string s => exact ⟨s, rfl⟩
  | _ => cases h

end VariantTable

/-- The tag is no object, so that nothing can be added to it even if it is read as a field too. -/
theorem Json.Adds.tag_eq (h : Adds (i.keys members) (i.entries members) members members')
    (hvalues : ∀ entry ∈ i.entries members, ∀ w w', lookup members entry.name = some w →
      lookup members' entry.name = some w' → entry.codec.Extended w w') {key : String}
    (hkey : i.tagKey = some key) : lookup members' key = lookup members key := by
  cases hlookup : lookup members key with
  | none =>
    have hmem : key ∈ i.keys members := by
      rw [Interface.keys, hkey]
      exact List.mem_append_left _ (List.mem_singleton.mpr rfl)
    exact h.lookup_eq_none hmem hlookup
  | some tag =>
    by_cases hentry : key ∈ (i.entries members).map (·.name)
    · obtain ⟨entry, hmem, rfl⟩ := List.mem_map.mp hentry
      obtain ⟨tag', htag'⟩ := h.exists_lookup hlookup
      have hextended := hvalues entry hmem tag tag' hlookup htag'
      obtain ⟨w, hw⟩ : ∃ w, i.variant? members = some w := by
        unfold Interface.entries at hmem
        split at hmem
        next w hw => exact ⟨w, hw⟩
        next => cases hmem
      obtain ⟨t, -, hselect⟩ := Interface.variant?_eq_some_iff.mp hw
      obtain ⟨s, rfl⟩ := VariantTable.tag_of_select_ok hkey hlookup hselect
      rw [htag', hextended.eq_of_string]
    · exact h.same key tag hentry hlookup

theorem Interface.decodeAt_sameOutcome (i : Interface)
    (adds : Json.Adds (i.keys members) (i.entries members) members members')
    (empty : i = .transaction → members = [] → members' = [])
    (h : ∀ entry ∈ i.entries members, ∀ w w', Json.lookup members entry.name = some w →
      Json.lookup members' entry.name = some w' → entry.codec.Extended w w')
    (ih : ∀ entry ∈ i.entries members, ∀ w w', Json.lookup members entry.name = some w →
      Json.lookup members' entry.name = some w' → entry.codec.Alike w w') :
    SameOutcome (i.decodeAt .standard p members) (i.decodeAt .standard p members') := by
  have hkeys {w : Variant i} (hw : w ∈ i.variants) {key : String}
      (hkey : key ∈ w.signature.getD [] ++ w.body.keys members) : key ∈ i.keys members :=
    List.mem_append_right _ (List.mem_flatMap.mpr ⟨w, hw, hkey⟩)
  unfold decodeAt
  cases ht : Registry.standard.table? i with
  | none => exact .refl _
  | some t =>
    obtain ⟨-, rfl⟩ := isStandard_of_table? ht
    have hsignature : ∀ w ∈ i.standardTable.variants, ∀ key ∈ w.signature.getD [],
        hasKey members' key = hasKey members key :=
      fun w hw key hkey => adds.hasKey_eq (hkeys hw (List.mem_append_left _ hkey))
    -- both objects are of the same variant, or of none
    rcases VariantTable.select_of_more adds.keys hsignature fun key => adds.tag_eq h with
      ⟨w, hw, hw'⟩ | ⟨fault, fault', hmore, hfault, hfault'⟩
    · have hmem : w ∈ i.variants := VariantTable.mem_of_select_ok hw
      have hentries : i.entries members = w.body.entries members := by
        rw [entries, variant?_eq_some_iff.mpr ⟨_, ht, hw⟩]
      rw [hentries] at h ih
      simp only [hw, hw']
      refine SameOutcome.within _ (Body.decodeAt_sameOutcome (i.variants_described w hmem)
        (fun entry hentry => ?_) (fun key hkey => ?_) adds.keys ?_)
      · refine adds.alike (hkeys hmem (List.mem_append_right _ (Body.name_mem_keys hentry)))
          fun u u' hu hu' => ?_
        exact ⟨(h entry hentry u u' hu hu').isNull_eq, ih entry hentry u u' hu hu'⟩
      · exact adds.hasKey_eq (hkeys hmem (List.mem_append_right _ hkey))
      · by_cases hi : i = .transaction
        · exact Or.inr (empty hi)
        · exact Or.inl (variants_hasFields hi w hmem)
    · simp only [hfault, hfault']
      exact .error p hmore

/-! ## Payloads -/

theorem Codec.Extended.alike (h : c.Extended v v') : c.Alike v v' := by
  induction h with
  | same c v => exact fun p => .refl _
  | nullable h ih =>
    intro p
    rw [decodeAt_nullable, decodeAt_nullable, h.isNull_eq]
    split
    · exact .refl _
    · exact (ih p).map some
  | list length _ ih =>
    intro p
    rw [decodeAt_list, decodeAt_list]
    exact decodeItems_sameOutcome (List.forall₂_iff_get.mpr ⟨length, ih⟩) 0
  | keyed length keys _ ih =>
    intro p
    rw [decodeAt_keyed, decodeAt_keyed]
    exact decodeKeyed_sameOutcome
      (List.forall₂_iff_get.mpr ⟨length, fun k h h' => ⟨keys k h h', ih k h h'⟩⟩)
  | record r adds h ih =>
    intro p
    rw [decodeAt_record, decodeAt_record]
    refine Body.decodeAt_sameOutcome r.body_described (fun entry hentry => ?_)
      (fun key hkey => adds.hasKey_eq hkey) adds.keys (Or.inl r.body_hasFields)
    refine adds.alike (Body.name_mem_keys hentry) fun u u' hu hu' => ?_
    exact ⟨(h entry hentry u u' hu hu').isNull_eq, ih entry hentry u u' hu hu'⟩
  | interface i adds empty h ih =>
    intro p
    rw [decodeAt_interface, decodeAt_interface]
    exact i.decodeAt_sameOutcome adds empty h ih

/-- Adding members that are not read to the objects of a payload changes neither the value that it
is decoded to nor the error that it is refused with, but that more keys may be listed of which no
variant fits. -/
theorem decode_extended {c : Codec α} {P P' : Json} (h : c.Extended P P') :
    (∀ a, c.decode .standard P = .ok a → c.decode .standard P' = .ok a) ∧
      ∀ e, c.decode .standard P = .error e →
        ∃ fault, c.decode .standard P' = .error ⟨e.path, fault⟩ ∧ e.fault.MoreKeys fault := by
  have hsame : SameOutcome (c.decode .standard P) (c.decode .standard P') := h.alike .root
  constructor
  · intro a ha
    rw [ha] at hsame
    exact hsame.eq_ok
  · intro e he
    rw [he] at hsame
    exact hsame.eq_error

/-- A partitioning whose transaction has no known handle. -/
def PartitioningHandle.strangePayload : Json :=
  .object [("connectorHandle", .object []), ("transactionHandle", .object [("id", .null)])]

/-- The same with a member more in each of two objects. -/
def PartitioningHandle.strangerPayload : Json :=
  .object [("comment", .null), ("connectorHandle", .object []),
    ("transactionHandle", .object [("id", .null), ("zone", .null)])]

theorem PartitioningHandle.extended_strangePayload :
    (Codec.record .partitioningHandle).Extended strangePayload strangerPayload := by
  have htransaction : (Codec.interface .transaction).Extended (.object [("id", .null)])
      (.object [("id", .null), ("zone", .null)]) := by
    refine .interface .transaction ⟨by decide, by decide, fun key w _ hw => ?_⟩
      (fun _ h => by cases h) fun entry hentry => by cases hentry
    have hmem := List.mem_singleton.mp (Json.mem_of_lookup hw)
    cases hmem
    rfl
  refine .record .partitioningHandle ⟨by decide, by decide, fun key w hkey hw => ?_⟩ ?_
  · have hmem := Json.mem_of_lookup hw
    simp only [List.mem_cons, Prod.mk.injEq, List.not_mem_nil, or_false] at hmem
    rcases hmem with ⟨rfl, rfl⟩ | ⟨rfl, rfl⟩
    · exact absurd (by decide) hkey
    · exact absurd (by decide) hkey
  · refine List.forall_mem_cons.mpr ⟨?_, List.forall_mem_cons.mpr ⟨?_, List.forall_mem_cons.mpr
      ⟨?_, List.forall_mem_nil _⟩⟩⟩
    · intro w w' hw
      cases hw
    · intro w w' hw hw'
      cases hw
      cases hw'
      exact htransaction
    · intro w w' hw hw'
      cases hw
      cases hw'
      exact .same _ _

theorem decode_extended_handles :
    (Codec.record .partitioningHandle).Extended PartitioningHandle.strangePayload
        PartitioningHandle.strangerPayload ∧
      ∃ fault, (Codec.record .partitioningHandle).decode .standard
          PartitioningHandle.strangerPayload = .error ⟨⟨[.field "transactionHandle"]⟩, fault⟩ ∧
        (DecodeFault.unknownVariant "ConnectorTransactionHandle" (.keys ["id"])).MoreKeys fault :=
  ⟨PartitioningHandle.extended_strangePayload,
    (decode_extended PartitioningHandle.extended_strangePayload).2
      ⟨⟨[.field "transactionHandle"]⟩, .unknownVariant "ConnectorTransactionHandle" (.keys ["id"])⟩
      rfl⟩

end QueryScope
