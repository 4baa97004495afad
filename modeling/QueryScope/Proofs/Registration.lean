import QueryScope.Proofs.Reading

/-!
# One more connector

Registering one more variant of a connector's handle leaves everything as it was, unless an object
has all keys of the new signature. Where it has, the new variant is chosen if its signature is above
those of all candidates, it does not matter if its signature is below one of them, and the choice is
ambiguous otherwise.
-/

namespace QueryScope

variable {α : Type} {i j : Interface} {reg reg' : Registry} {members : List (String × Json)}

/-! ## Choosing with one more variant -/

namespace VariantTable

variable {t t' : VariantTable i} {v d : Variant i}

theorem isCandidate_append (h : t'.variants = t.variants ++ [v]) :
    t'.IsCandidate members d ↔ t.IsCandidate members d ∨ d = v ∧ v.Fits members := by
  simp only [IsCandidate, h, List.mem_append, List.mem_singleton]
  constructor
  · rintro ⟨hd | rfl, hfits⟩
    · exact Or.inl ⟨hd, hfits⟩
    · exact Or.inr ⟨rfl, hfits⟩
  · rintro (⟨hd, hfits⟩ | ⟨rfl, hfits⟩)
    · exact ⟨Or.inl hd, hfits⟩
    · exact ⟨Or.inr rfl, hfits⟩

theorem fits_iff {keys : List String} (hkeys : v.signature = some keys) :
    v.Fits members ↔ keys.all (hasKey members) = true := by
  simp [Variant.Fits, Variant.keys, hkeys, hasKey_iff]

theorem candidates_append {keys : List String} (h : t'.variants = t.variants ++ [v])
    (hkeys : v.signature = some keys) : t'.candidates members =
      t.candidates members ++ if keys.all (hasKey members) then [(v, keys)] else [] := by
  simp only [candidates, h, List.filterMap_append, List.filterMap_cons, hkeys, List.filterMap_nil]
  split <;> simp_all

theorem select_of_tagKey (hk : i.tagKey = none) : t.select members = t.selectByKeys members :=
  select_untagged fun key hkey => by
    rw [hk] at hkey
    cases hkey

theorem selectByKeys_append_of_not_fits {keys : List String} (h : t'.variants = t.variants ++ [v])
    (hkeys : v.signature = some keys) (hfits : ¬v.Fits members) :
    t'.selectByKeys members = t.selectByKeys members := by
  unfold selectByKeys
  rw [candidates_append h hkeys, if_neg fun hall => hfits ((fits_iff hkeys).mpr hall),
    List.append_nil]

/-- A variant below a candidate neither is among the greatest nor keeps another one out. -/
theorem greatest_append_of_below {keys : List String} (hkeys : v.signature = some keys)
    (h : ∃ c, t.IsCandidate members c ∧ v.keys ⊂ c.keys) :
    greatest (t.candidates members ++ [(v, keys)]) = greatest (t.candidates members) := by
  obtain ⟨c, hc, hbelow⟩ := h
  obtain ⟨keys', hkeys'⟩ := Option.isSome_iff_exists.mp hc.2.1
  have hmem : (c, keys') ∈ t.candidates members := mem_candidates.mpr ⟨hc, hkeys'⟩
  have hbelow' : keys.toFinset ⊂ keys'.toFinset := by
    simpa [Variant.keys, hkeys, hkeys'] using hbelow
  -- whatever is below the variant is below the candidate
  have hany (inner : List String) (hinner : inner.toFinset ⊆ keys.toFinset) :
      (t.candidates members).any (fun other => isStrictSubset inner other.2) = true := by
    refine List.any_eq_true.mpr ⟨_, hmem, ?_⟩
    exact isStrictSubset_iff.mpr (lt_of_le_of_lt hinner hbelow')
  have hold (other : Variant i × List String) :
      (t.candidates members ++ [(v, keys)]).any (fun c => isStrictSubset other.2 c.2) =
        (t.candidates members).any fun c => isStrictSubset other.2 c.2 := by
    rw [List.any_append, List.any_cons, List.any_nil, Bool.or_false]
    by_cases hother : isStrictSubset other.2 keys = true
    · rw [hany other.2 (isStrictSubset_iff.mp hother).1, Bool.true_or]
    · rw [Bool.eq_false_of_not_eq_true hother, Bool.or_false]
  unfold greatest
  simp only [hold, List.filter_append, List.filter_cons, hany keys subset_rfl, Bool.not_true,
    Bool.false_eq_true, if_false, List.filter_nil, List.append_nil]

theorem selectByKeys_append_of_below {keys : List String} (h : t'.variants = t.variants ++ [v])
    (hkeys : v.signature = some keys) (hfits : v.Fits members)
    (hbelow : ∃ c, t.IsCandidate members c ∧ v.keys ⊂ c.keys) :
    t'.selectByKeys members = t.selectByKeys members := by
  unfold selectByKeys
  rw [candidates_append h hkeys, if_pos ((fits_iff hkeys).mp hfits),
    greatest_append_of_below hkeys hbelow]

theorem selectByKeys_append_of_above (ht' : t'.Consistent) (h : t'.variants = t.variants ++ [v])
    (hfits : v.Fits members) (habove : ∀ c, t.IsCandidate members c → c.keys ⊂ v.keys) :
    t'.selectByKeys members = .ok v := by
  refine ht'.selectByKeys_ok_iff_above.mpr ⟨(isCandidate_append h).mpr (Or.inr ⟨rfl, hfits⟩), ?_⟩
  intro c hc hne
  rcases (isCandidate_append h).mp hc with hc | ⟨rfl, -⟩
  · exact habove c hc
  · exact absurd rfl hne

/-- A chosen variant is the new one, or was chosen before. -/
theorem selectByKeys_append_ok (ht : t.Consistent) (ht' : t'.Consistent)
    (h : t'.variants = t.variants ++ [v]) (hd : t'.selectByKeys members = .ok d) :
    d = v ∨ t.selectByKeys members = .ok d := by
  obtain ⟨hcand, habove⟩ := ht'.selectByKeys_ok_iff_above.mp hd
  rcases (isCandidate_append h).mp hcand with hold | ⟨rfl, -⟩
  · refine Or.inr (ht.selectByKeys_ok_iff_above.mpr ⟨hold, fun c hc hne => ?_⟩)
    exact habove c ((isCandidate_append h).mpr (Or.inl hc)) hne
  · exact Or.inl rfl

/-- A variant that is neither below a candidate nor above all of them cannot be told from the
greatest of them. -/
theorem selectByKeys_append_ambiguous (ht' : t'.Consistent) (h : t'.variants = t.variants ++ [v])
    (hfits : v.Fits members) (hbelow : ¬∃ c, t.IsCandidate members c ∧ v.keys ⊂ c.keys)
    (habove : ¬∀ c, t.IsCandidate members c → c.keys ⊂ v.keys) :
    ∃ names, t'.selectByKeys members = .error (.ambiguousVariant i.name names) := by
  have hv : t'.IsCandidate members v := (isCandidate_append h).mpr (Or.inr ⟨rfl, hfits⟩)
  -- names are distinct, so that the new variant is none of the old ones
  have hne {c : Variant i} (hc : t.IsCandidate members c) : c ≠ v := by
    rintro rfl
    have hnodup := ht'.nodup
    rw [h, List.nodup_append] at hnodup
    exact hnodup.2.2 c hc.1 c List.mem_cons_self rfl
  have hno : ¬∃ d, t'.selectByKeys members = .ok d := by
    rintro ⟨d, hd⟩
    obtain ⟨hcand, hdabove⟩ := ht'.selectByKeys_ok_iff_above.mp hd
    rcases (isCandidate_append h).mp hcand with hold | ⟨rfl, -⟩
    · exact hbelow ⟨d, hold, hdabove v hv (hne hold).symm⟩
    · exact habove fun c hc => hdabove c ((isCandidate_append h).mpr (Or.inl hc)) (hne hc)
  obtain ⟨names, hnames, -⟩ := ht'.selectByKeys_ambiguous ⟨v, hv⟩ hno
  exact ⟨names, hnames⟩

end VariantTable

/-! ## The registry with one more variant -/

namespace Registry

theorem lookup_replace (t : VariantTable i) (tables : List ((i : Interface) × VariantTable i)) :
    lookup j (replace i t tables) = if h : i = j then some (h ▸ t) else lookup j tables := by
  induction tables with
  | nil => rfl
  | cons e rest ih =>
    obtain ⟨k, u⟩ := e
    rw [replace]
    split
    next hk =>
      subst hk
      simp only [lookup]
      split <;> rfl
    next hk =>
      simp only [lookup, ih]
      split <;> split
      · rename_i hkj hij
        exact absurd (hkj.trans hij.symm) hk
      all_goals rfl

theorem length_replace {t u : VariantTable i} {tables : List ((i : Interface) × VariantTable i)}
    (h : lookup i tables = some u) : (replace i t tables).length = tables.length := by
  induction tables with
  | nil => cases h
  | cons e rest ih =>
    obtain ⟨k, w⟩ := e
    rw [replace]
    split
    · rfl
    next hk =>
      rw [lookup, dif_neg hk] at h
      rw [List.length_cons, List.length_cons, ih h]

end Registry

/-! ## Decoding under two registries -/

/-- The two registries choose the same variant of every interface, or fail in the same way. -/
def Registry.AgreeOn (reg reg' : Registry) (members : List (String × Json)) : Prop :=
  ∀ i, (reg'.table? i).map (·.select members) = (reg.table? i).map (·.select members)

theorem readVariant_congr {parts : List Member} (hcount : reg'.interfaceCount = reg.interfaceCount)
    (h : reg.AgreeOn reg' (parts.map fun m => (m.key, m.value))) (i : Interface) :
    readVariant reg' i parts = readVariant reg i parts := by
  have hi := h i
  unfold readVariant
  cases ht : reg.table? i with
  | none =>
    rw [ht, Option.map_none, Option.map_eq_none_iff] at hi
    simp only [hi]
  | some t =>
    rw [ht, Option.map_some, Option.map_eq_some_iff] at hi
    obtain ⟨t', ht', hselect⟩ := hi
    simp only [ht', hselect, hcount]

theorem Codec.readAt_congr (hcount : reg'.interfaceCount = reg.interfaceCount) {v : Json}
    {parts : List Member} (items : List Reader)
    (h : ∀ members, v = .object members → reg.AgreeOn reg' (parts.map fun m => (m.key, m.value)))
    (c : Codec α) : c.readAt reg' v items parts = c.readAt reg v items parts := by
  induction c with
  | scalar read => rfl
  | nullable c ih => rw [readAt, readAt, ih]
  | list c _ => rfl
  | keyed key c _ => rfl
  | record r => simp only [readAt, hcount]
  | interface i =>
    cases v with
    | object members => exact readVariant_congr hcount (h members rfl) i
    | _ => rfl

/-- Registries that agree on every object inside a value decode it in the same way. -/
theorem Json.reader_congr (hcount : reg'.interfaceCount = reg.interfaceCount) (v : Json)
    (h : ∀ members, (Json.object members).Inside v → reg.AgreeOn reg' members) :
    v.reader reg' = v.reader reg := by
  induction v using Json.induction_on with
  | step v ihItems ihMembers =>
    have hitems : readers reg' v.items = readers reg v.items := by
      rw [readers_eq_map, readers_eq_map]
      refine List.map_congr_left fun w hw => ?_
      exact ihItems w hw fun members hin => h members (.item hw hin)
    have hmembers : memberReaders reg' v.members = memberReaders reg v.members := by
      rw [memberReaders_eq_map, memberReaders_eq_map]
      refine List.map_congr_left fun m hm => ?_
      rw [ihMembers m hm fun members hin => h members (.member hm hin)]
    -- with the same readers of the parts, only the choice of a variant could make a difference
    funext α c
    rw [reader_eq_readAt, reader_eq_readAt, hitems, hmembers]
    refine Codec.readAt_congr hcount _ (fun members hv => ?_) c
    subst hv
    rw [Json.members, memberReaders_keys]
    exact h members .self

/-! ## One more variant of a handle -/

/-- The interfaces of the connectors' handles. -/
def Interface.isHandle : Interface → Bool
  | .partitioning | .transaction | .table | .column => true
  | _ => false

theorem Interface.tagKey_of_isHandle (hi : i.isHandle = true) : i.tagKey = none := by
  cases i <;> first | rfl | cases hi

theorem Interface.table?_of_isHandle (hi : i.isHandle = true) :
    Registry.standard.table? i = some i.standardTable := by
  rw [Registry.table?_standard]
  cases i <;> first | rfl | cases hi

theorem Interface.standardTable_consistent (hi : i.isHandle = true) :
    i.standardTable.Consistent := by
  have htag : ∀ v ∈ i.variants, v.tag = none := by
    cases i <;> first | decide | cases hi
  have hindex : i.standardTable.tagIndex = [] := by
    cases i <;> first | rfl | cases hi
  refine ⟨?_, ?_, fun hk => absurd (tagKey_of_isHandle hi) hk, ?_⟩
  · cases i <;> first | decide | cases hi
  · rw [hindex]
    exact List.forall_mem_nil _
  · intro v hv w hw tag hvt
    rw [htag v hv] at hvt
    cases hvt

theorem Variant.structural_fits_iff {name : String} {signature : List String}
    {body : Body i.Value} : (structural name signature body).Fits members ↔
      ∀ key ∈ signature, key ∈ members.map Prod.fst := by
  simp [Fits, structural, keys]

/-- The standard table of a handle with one more variant. -/
def Interface.extendedTable (i : Interface) (v : Variant i) : VariantTable i :=
  ⟨i.variants ++ [v], i.standardTable.tagIndex⟩

/-- The standard registry with one more variant of a handle. -/
def Registry.extended (v : Variant i) : Registry :=
  ⟨replace i (i.extendedTable v) standard.tables⟩

theorem Interface.insert_standardTable {v : Variant i} (hi : i.isHandle = true)
    (hname : v.name ∉ i.variants.map (·.name)) (htag : v.tag = none) :
    i.standardTable.insert v = .ok (i.extendedTable v) := by
  have hnew : (i.standardTable.byName? v.name).isSome = false := by
    simpa [VariantTable.byName?, standardTable] using hname
  simp only [VariantTable.insert, hnew, Bool.false_eq_true, if_false, tagKey_of_isHandle hi, htag]
  rfl

theorem Registry.register_standard {v : Variant i} (hi : i.isHandle = true)
    (hname : v.name ∉ i.variants.map (·.name)) (htag : v.tag = none) :
    standard.register v = .ok (extended v) := by
  unfold register
  rw [Interface.table?_of_isHandle hi, Option.getD_some,
    Interface.insert_standardTable hi hname htag]
  rfl

theorem Registry.table?_extended {v : Variant i} :
    (extended v).table? j =
      if h : i = j then some (h ▸ i.extendedTable v) else standard.table? j :=
  lookup_replace _ _

theorem Registry.interfaceCount_extended {v : Variant i} (hi : i.isHandle = true) :
    (extended v).interfaceCount = standard.interfaceCount :=
  length_replace (Interface.table?_of_isHandle hi)

theorem Registry.agreeOn_extended {v : Variant i} {keys : List String} (hi : i.isHandle = true)
    (hkeys : v.signature = some keys) (h : ¬v.Fits members) :
    standard.AgreeOn (extended v) members := by
  intro j
  rw [table?_extended]
  split
  next hij =>
    subst hij
    have hk := Interface.tagKey_of_isHandle hi
    rw [Interface.table?_of_isHandle hi, Option.map_some, Option.map_some,
      VariantTable.select_of_tagKey hk, VariantTable.select_of_tagKey hk]
    exact congrArg some (VariantTable.selectByKeys_append_of_not_fits rfl hkeys h)
  next => rfl

/-- Decoding a payload is left as it was by one more variant of a handle unless some object of the
payload has all keys of its signature. In an object that has them all, the choice is as it was if
the signature is below that of a candidate, it is the new variant if the signatures of all
candidates are below its own, and it is ambiguous otherwise. Whatever the object, no variant is
chosen that was not chosen before, except the new one. -/
theorem register_conservative (hi : i.isHandle = true) {name : String}
    (hname : name ∉ i.variants.map (·.name)) (signature : List String) (body : Body i.Value) :
    ∃ (R' : Registry) (t t' : VariantTable i),
      Registry.standard.register (.structural name signature body) = .ok R' ∧
      Registry.standard.table? i = some t ∧ R'.table? i = some t' ∧
      (∀ {α : Type} (c : Codec α) (P : Json),
        (∀ members, (Json.object members).Inside P →
          ¬∀ key ∈ signature, key ∈ members.map Prod.fst) →
        c.decode R' P = c.decode .standard P) ∧
      (∀ members, (∀ key ∈ signature, key ∈ members.map Prod.fst) →
        ((∃ d, t.IsCandidate members d ∧ signature.toFinset ⊂ d.keys) →
          t'.select members = t.select members) ∧
        ((∀ d, t.IsCandidate members d → d.keys ⊂ signature.toFinset) →
          t'.select members = .ok (.structural name signature body)) ∧
        ((¬∃ d, t.IsCandidate members d ∧ signature.toFinset ⊂ d.keys) →
          (¬∀ d, t.IsCandidate members d → d.keys ⊂ signature.toFinset) →
          ∃ names, t'.select members = .error (.ambiguousVariant i.name names))) ∧
      ∀ members d, t'.select members = .ok d →
        d = .structural name signature body ∨ t.select members = .ok d := by
  let v : Variant i := .structural name signature body
  have hk := Interface.tagKey_of_isHandle hi
  have ht : i.standardTable.Consistent := i.standardTable_consistent hi
  have ht' : (i.extendedTable v).Consistent :=
    ht.insert (Interface.insert_standardTable hi hname rfl)
  have happend : (i.extendedTable v).variants = i.standardTable.variants ++ [v] := rfl
  refine ⟨.extended v, i.standardTable, i.extendedTable v, Registry.register_standard hi hname rfl,
    Interface.table?_of_isHandle hi, ?_, fun c P hP => ?_, fun members hall => ?_, ?_⟩
  · rw [Registry.table?_extended, dif_pos rfl]
  · have hreader : P.reader (.extended v) = P.reader .standard := by
      refine P.reader_congr (Registry.interfaceCount_extended hi) fun members hin => ?_
      refine Registry.agreeOn_extended hi rfl fun hfits => hP members hin ?_
      exact Variant.structural_fits_iff.mp hfits
    unfold Codec.decode Codec.decodeAt Codec.run
    rw [hreader]
  · have hfits : v.Fits members := Variant.structural_fits_iff.mpr hall
    rw [VariantTable.select_of_tagKey hk, VariantTable.select_of_tagKey hk]
    exact ⟨VariantTable.selectByKeys_append_of_below happend rfl hfits,
      VariantTable.selectByKeys_append_of_above ht' happend hfits,
      VariantTable.selectByKeys_append_ambiguous ht' happend hfits⟩
  · intro members d hd
    rw [VariantTable.select_of_tagKey hk] at hd ⊢
    exact VariantTable.selectByKeys_append_ok ht ht' happend hd

/-- How a table that is a topic of messages is read. -/
def ConnectorTable.topicBody : Body ConnectorTable :=
  .record <| Fields.pure (fun topic _ => ConnectorTable.hive "default" topic)
    |>.required "topicName" Codec.string
    |>.required "messageDataFormat" Codec.string

/-- A table that is a topic of messages. -/
def ConnectorTable.topicVariant : Variant .table :=
  .structural "kafka" ["topicName", "messageDataFormat"] topicBody

/-- The keys of a topic, and those of a Hive table besides. -/
def ConnectorTable.mixedMembers : List (String × Json) :=
  [("messageDataFormat", .string "json"), ("schemaName", .string "s"), ("tableName", .string "t"),
    ("topicName", .string "events")]

theorem register_conservative_kafka :
    Interface.isHandle .table = true ∧
      "kafka" ∉ (Interface.variants .table).map (·.name) ∧
      ∃ (R' : Registry) (t' : VariantTable .table),
        Registry.standard.register ConnectorTable.topicVariant = .ok R' ∧
        R'.table? .table = some t' ∧
        (Codec.interface .table).decode R' (.object [("topicName", .null)]) =
          (Codec.interface .table).decode .standard (.object [("topicName", .null)]) ∧
        (∃ names, t'.select ConnectorTable.mixedMembers =
          .error (.ambiguousVariant "ConnectorTableHandle" names)) := by
  obtain ⟨R', t, t', hR', ht, ht', hframe, hchoice, -⟩ :=
    @register_conservative .table rfl "kafka" (by decide) ["topicName", "messageDataFormat"]
      ConnectorTable.topicBody
  obtain rfl : Interface.standardTable .table = t := by
    rw [Interface.table?_of_isHandle rfl] at ht
    exact Option.some.inj ht
  refine ⟨rfl, by decide, R', t', hR', ht', hframe _ _ fun members hin => ?_, ?_⟩
  · cases hin with
    | self => decide
    | item hu _ => cases hu
    | member hm h =>
      obtain rfl := List.mem_singleton.mp hm
      cases h with
      | item hu _ => cases hu
      | member hm _ => cases hm
  · obtain ⟨-, -, hambiguous⟩ := hchoice ConnectorTable.mixedMembers (by decide)
    have hbelow : ∀ d ∈ Interface.variants .table,
        ¬["topicName", "messageDataFormat"].toFinset ⊂ d.keys := by decide
    have hcandidate : ∃ d ∈ Interface.variants .table, d.Fits ConnectorTable.mixedMembers ∧
        ¬d.keys ⊂ ["topicName", "messageDataFormat"].toFinset :=
      ⟨_, List.mem_cons_of_mem _ List.mem_cons_self, ⟨rfl, by decide⟩, by decide⟩
    obtain ⟨d, hd, hfits, hnot⟩ := hcandidate
    exact hambiguous (fun ⟨d, hd, hlt⟩ => hbelow d hd.1 hlt) fun h => hnot (h d ⟨hd, hfits⟩)

end QueryScope
