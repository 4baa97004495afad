import QueryScope.Proofs.Double
import QueryScope.Proofs.Enumeration
import QueryScope.Proofs.Identifier
import QueryScope.Proofs.Reading
import QueryScope.Proofs.Restoring.Arrangement

/-!
# Reading what was written

A reader and a writer of the same type are *faithful* to each other when every value that the reader
gives is read again from what the writer makes of it. Faithfulness is shown for values that come
from payloads of bounded size, so that for types that contain themselves it can be shown by
induction on the bound; a list, a map, a record and an interface are faithful when their parts
are.
-/

namespace QueryScope

variable {α β : Type} {f : Json → Json} {n : Nat}

/-- The JSON `w`, arranged by `f`, restores the value `a`: it is read as `a` provided that some
well-formed JSON smaller than `n` is, and it is not `null` unless that is. -/
def Codec.Restores (f : Json → Json) (n : Nat) (c : Codec α) (a : α) (w : Json) : Prop :=
  ∀ v, v.WellFormed → sizeOf v < n → c.Reads v a →
    c.Reads (f w) a ∧ (v.isNull = false → w.isNull = false)

/-- What is written for a value restores it. -/
def Codec.Faithful (f : Json → Json) (n : Nat) (c : Codec α) (encode : α → Json) : Prop :=
  ∀ a, c.Restores f n a (encode a)

theorem Codec.Faithful.mono {m : Nat} {c : Codec α} {encode : α → Json}
    (h : c.Faithful f m encode) (hle : n ≤ m) : c.Faithful f n encode :=
  fun a v hv hn => h a v hv (by omega)

/-! ## Scalars -/

theorem Codec.readInt64_ofInt64 (k : Int64) : readInt64 (.ofInt64 k) = .ok k := by
  have hle : k.toInt ≤ Int64.maxValue.toInt := by
    have := k.toInt_lt
    rw [show Int64.maxValue.toInt = 9223372036854775807 from rfl]
    omega
  rw [Json.ofInt64, readInt64, if_pos hle, Int64.ofInt_toInt]

theorem Codec.readInt32_ofInt32 (k : Int32) : readInt32 (.ofInt32 k) = .ok k := by
  have hlow : -2147483648 ≤ k.toInt := k.le_toInt
  have hhigh : k.toInt ≤ 2147483647 := Int.le_of_lt_add_one k.toInt_lt
  have hwide : k.toInt64.toInt = k.toInt := Int32.toInt_toInt64 k
  have hread : readInt64 (.ofInt32 k) = .ok k.toInt64 := by
    have heq : Json.ofInt32 k = .ofInt64 k.toInt64 := by
      simp only [Json.ofInt32, Json.ofInt64, hwide]
    rw [heq, readInt64_ofInt64]
  have hrange : Int32.minValue.toInt ≤ k.toInt64.toInt ∧
      k.toInt64.toInt ≤ Int32.maxValue.toInt := by
    rw [hwide]
    exact ⟨hlow, hhigh⟩
  rw [readInt32, hread]
  exact (if_pos hrange).trans (congrArg _ (Int32.toInt32_toInt64 k))

theorem Codec.readUInt64_ofUInt64 (k : UInt64) : readUInt64 (.ofUInt64 k) = .ok k := by
  simp [readUInt64, Json.ofUInt64]

theorem Codec.readUInt32_ofUInt32 (k : UInt32) : readUInt32 (.ofUInt32 k) = .ok k := by
  have hwide : Json.ofUInt32 k = .ofUInt64 k.toUInt64 := rfl
  have hlt : k.toUInt64.toNat < UInt32.size := k.toNat_lt
  rw [readUInt32, hwide, readUInt64_ofUInt64]
  exact (if_pos hlt).trans (congrArg _ (UInt32.toUInt32_toUInt64 k))

section Scalar

variable (hf : Json.Arrangement f)
include hf

theorem Codec.faithful_scalar {read : Json → Except Refusal α} {encode : α → Json}
    (h : ∀ v a, v.WellFormed → read v = .ok a → (encode a).WellFormed ∧ read (encode a) = .ok a ∧
      (v.isNull = false → (encode a).isNull = false)) :
    (Codec.scalar read).Faithful f n encode := by
  intro a v hv _ ha
  obtain ⟨hwf, hread, hnull⟩ := h v a hv (reads_scalar.mp ha)
  rw [hf.wellFormed hwf, reads_scalar]
  exact ⟨hread, hnull⟩

theorem Codec.faithful_json : Codec.json.Faithful f n id := by
  refine faithful_scalar hf fun v a hv ha => ?_
  cases ha
  exact ⟨hv, rfl, id⟩

theorem Codec.faithful_bool : Codec.bool.Faithful f n .bool :=
  faithful_scalar hf fun _ a _ _ => ⟨.bool a, rfl, fun _ => rfl⟩

theorem Codec.faithful_string : Codec.string.Faithful f n .string :=
  faithful_scalar hf fun _ a _ _ => ⟨.string a, rfl, fun _ => rfl⟩

theorem Codec.faithful_double : Codec.double.Faithful f n .ofDouble := by
  refine faithful_scalar hf fun v d hv hd => ?_
  have hfinite : d.isFinite = true := by
    cases hv with
    | float h => cases hd; exact h
    | integer m => cases hd; exact Double.isFinite_ofInt m.lower m.upper
    | null | bool | string | array | object => cases hd
  rw [Json.ofDouble, if_pos hfinite]
  exact ⟨.float hfinite, rfl, fun _ => rfl⟩

theorem Codec.faithful_int64 : Codec.int64.Faithful f n .ofInt64 :=
  faithful_scalar hf fun _ k _ _ => ⟨.integer _, readInt64_ofInt64 k, fun _ => rfl⟩

theorem Codec.faithful_int32 : Codec.int32.Faithful f n .ofInt32 :=
  faithful_scalar hf fun _ k _ _ => ⟨.integer _, readInt32_ofInt32 k, fun _ => rfl⟩

theorem Codec.faithful_uint64 : Codec.uint64.Faithful f n .ofUInt64 :=
  faithful_scalar hf fun _ k _ _ => ⟨.integer _, readUInt64_ofUInt64 k, fun _ => rfl⟩

theorem Codec.faithful_uint32 : Codec.uint32.Faithful f n .ofUInt32 :=
  faithful_scalar hf fun _ k _ _ => ⟨.integer _, readUInt32_ofUInt32 k, fun _ => rfl⟩

theorem Codec.faithful_text {parse : String → Except FieldFault α} {text : α → String}
    (h : ∀ a, parse (text a) = .ok a) : (Codec.text parse).Faithful f n fun a => .string (text a) :=
  faithful_scalar hf fun _ a _ _ =>
    ⟨.string _, by simp [readString, h, bind, Except.bind, Except.mapError], fun _ => rfl⟩

theorem Codec.faithful_nameId {role : NameRole} :
    (Codec.nameId role).Faithful f n fun id => .string id.text :=
  faithful_text hf NameId.parse_text

theorem Codec.faithful_named [Named α] [Named.Lawful α] : (Codec.named α).Faithful f n .ofNamed :=
  faithful_text hf Named.Lawful.parse_name

end Scalar

/-! ## Options, lists and maps -/

/-- The values of the members are well-formed and smaller than `n`. -/
def Json.Below (n : Nat) (members : List (String × Json)) : Prop :=
  ∀ m ∈ members, m.2.WellFormed ∧ sizeOf m.2 < n

theorem Json.below_of_wellFormed {members : List (String × Json)}
    (h : (Json.object members).WellFormed) (hn : sizeOf (Json.object members) < n + 1) :
    Json.Below n members := by
  intro m hm
  have := Json.sizeOf_member_lt hm
  cases h with
  | object _ h => exact ⟨h m hm, by omega⟩

section Container

variable (hf : Json.Arrangement f) {c : Codec α} {encode : α → Json}
include hf

theorem Codec.Faithful.nullable (hc : c.Faithful f n encode) :
    c.nullable.Faithful f n fun o => (o.map encode).getD .null := by
  intro o v hv hn h
  rcases reads_nullable.mp h with ⟨hnull, rfl⟩ | ⟨hnull, a, ha, rfl⟩
  · refine ⟨reads_nullable.mpr (Or.inl ⟨hf.isNull _, rfl⟩), fun hsome => ?_⟩
    rw [hnull] at hsome
    cases hsome
  · obtain ⟨hreads, hsome⟩ := hc a v hv hn ha
    have hnull' : (f (encode a)).isNull = false := by
      rw [hf.isNull, hsome hnull]
    exact ⟨reads_nullable.mpr (Or.inr ⟨hnull', a, hreads, rfl⟩), hsome⟩

theorem Codec.Restores.list {as : List α} {ws : List Json}
    (h : List.Forall₂ (c.Restores f n) as ws) : c.list.Restores f n as (.array ws) := by
  intro v hv hn ha
  obtain ⟨items, rfl, hreads⟩ := reads_list.mp ha
  refine ⟨?_, fun _ => rfl⟩
  have hitems : ∀ w ∈ items, w.WellFormed ∧ sizeOf w < n := by
    intro w hw
    have := Json.sizeOf_item_lt hw
    cases hv with
    | array h => exact ⟨h w hw, by omega⟩
  rw [hf.array, reads_list]
  refine ⟨_, rfl, ?_⟩
  clear ha hv hn
  induction h generalizing items with
  | nil => exact .nil
  | cons hw _ ih =>
    obtain _ | ⟨ha, hrest⟩ := hreads
    obtain ⟨hv, hitems⟩ := List.forall_mem_cons.mp hitems
    exact .cons (hw _ hv.1 hv.2 ha).1 (ih _ hrest hitems)

theorem Codec.Faithful.list (hc : c.Faithful f n encode) :
    c.list.Faithful f n fun as => .array (as.map encode) := by
  intro as
  refine Restores.list hf ?_
  rw [List.forall₂_map_right_iff]
  exact List.forall₂_same.mpr fun a _ => hc a

/-- The keys of a map are written as they were read, so that they ascend again. -/
theorem Codec.Faithful.keyed {key : String → Except Reason β} {text : β → String}
    (hkey : ∀ name k, key name = .ok k → text k = name) (hc : c.Faithful f n encode) :
    (Codec.keyed key c).Faithful f n
      fun es => .object (es.map fun e => (text e.1, encode e.2)) := by
  intro es v hv hn h
  obtain ⟨members, rfl, hreads⟩ := reads_keyed.mp h
  refine ⟨?_, fun _ => rfl⟩
  have hmembers := Json.below_of_wellFormed hv (Nat.lt_succ_of_lt hn)
  -- only members that ascend keep their order in every arrangement, and the list shows the order
  have hkeys : (es.map fun e => (text e.1, encode e.2)).map Prod.fst = members.map Prod.fst := by
    clear h hv hn hmembers
    induction hreads with
    | nil => rfl
    | cons ha _ ih => simp only [List.map_cons, ih, hkey _ _ ha.1]
  have hascending : (members.map Prod.fst).Pairwise (· < ·) := by
    cases hv with
    | object keys _ => exact keys
  rw [hf.ascending _ (hkeys ▸ hascending), reads_keyed]
  refine ⟨_, rfl, ?_⟩
  clear h hv hn hkeys hascending
  induction hreads with
  | nil => exact .nil
  | @cons m e _ _ ha _ ih =>
    obtain ⟨hw, hrest⟩ := List.forall_mem_cons.mp hmembers
    refine .cons ⟨?_, (hc _ _ hw.1 hw.2 ha.2).1⟩ (ih hrest)
    show key (text e.1) = .ok e.1
    rw [hkey _ _ ha.1, ha.1]

theorem Codec.Faithful.map (hc : c.Faithful f n encode) :
    c.map.Faithful f n fun es => .object (es.map fun e => (e.1, encode e.2)) :=
  hc.keyed hf fun _ _ h => (Except.ok.inj h).symm

omit c encode in
theorem Codec.faithful_strings : Codec.strings.Faithful f n .ofStrings :=
  (faithful_string hf).list hf

end Container

/-! ## Fields -/

/-- The members of an object that is read, the members that are written for what it is read as, and
the latter as they are arranged. -/
structure Json.Rewritten (f : Json → Json) (n : Nat) (members own es : List (String × Json)) :
    Prop where
  arrangement : Json.Arrangement f
  below : Json.Below n members
  arranged : Json.Arranged f own es

section Field

variable {members own es : List (String × Json)} {name : String} {c : Codec β} {encode : β → Json}

theorem Codec.ReadsField.of_lookup {v : Json} {b : β} (hf : Json.Arrangement f)
    (harr : Json.Arranged f own es) (hl : Json.lookup own name = some v) (hn : v.isNull = false)
    (h : c.Reads (f v) b) : c.ReadsField es name b := by
  refine ⟨f v, Json.present?_eq_some_iff.mpr ⟨?_, ?_⟩, h⟩
  · rw [harr, hl, Option.map_some]
  · rw [hf.isNull, hn]

theorem Codec.ReadsField.restored_of {b : β} {w : Json} (h : c.ReadsField members name b)
    (hrw : Json.Rewritten f n members own es) (hw : c.Restores f n b w)
    (hl : Json.lookup own name = some w) : c.ReadsField es name b := by
  obtain ⟨v, hv, ha⟩ := h
  obtain ⟨hlookup, hnull⟩ := Json.present?_eq_some_iff.mp hv
  obtain ⟨hwf, hn⟩ := hrw.below _ (Json.mem_of_lookup hlookup)
  obtain ⟨hreads, hsome⟩ := hw v hwf hn ha
  exact .of_lookup hrw.arrangement hrw.arranged hl (hsome hnull) hreads

theorem Codec.ReadsField.restored {b : β} (h : c.ReadsField members name b)
    (hrw : Json.Rewritten f n members own es) (hc : c.Faithful f n encode)
    (hl : Json.lookup own name = some (encode b)) : c.ReadsField es name b :=
  h.restored_of hrw (hc b) hl

theorem Codec.ReadsOptional.of_none (hn : Json.lookup own name = none)
    (harr : Json.Arranged f own es) : c.ReadsOptional es name none := by
  refine Or.inl ⟨Json.present?_eq_none_iff.mpr (Or.inl ?_), rfl⟩
  rw [harr, hn, Option.map_none]

theorem Codec.ReadsOptional.restored {o : Option β} (h : c.ReadsOptional members name o)
    (hrw : Json.Rewritten f n members own es) (hc : c.Faithful f n encode)
    (hl : Json.lookup own name = o.map encode) : c.ReadsOptional es name o := by
  rcases h with ⟨-, rfl⟩ | ⟨b, hb, rfl⟩
  · exact .of_none hl hrw.arranged
  · exact Or.inr ⟨b, hb.restored hrw hc hl, rfl⟩

end Field

/-! ## Records and interfaces -/

/-- A record is restored by members that have its fields. -/
theorem Codec.restores_record {r : Record} {a : r.Value} {w : Json} (hf : Json.Arrangement f)
    (h : ∀ members, Json.Below n members → r.body.Reads members a → ∃ own, w.HasMembers own ∧
      ∀ es, Json.Rewritten f n members own es → r.body.Reads es a) :
    (Codec.record r).Restores f (n + 1) a w := by
  intro v hv hn ha
  obtain ⟨members, rfl, ha⟩ := reads_record.mp ha
  have hbelow := Json.below_of_wellFormed hv hn
  obtain ⟨own, hown, hread⟩ := h members hbelow ha
  obtain ⟨es, hes, harr⟩ := hf.exists_arranged hown
  exact ⟨reads_record.mpr ⟨es, hes, hread es ⟨hf, hbelow, harr⟩⟩, fun _ => hown.isNull⟩

theorem Codec.faithful_record {r : Record} {encode : r.Value → Json} (hf : Json.Arrangement f)
    (h : ∀ a members, Json.Below n members → r.body.Reads members a → ∃ own,
      (encode a).HasMembers own ∧
        ∀ es, Json.Rewritten f n members own es → r.body.Reads es a) :
    (Codec.record r).Faithful f n encode :=
  Faithful.mono (fun a => restores_record hf (h a)) n.le_succ

/-- A variant of an interface is restored by members that lead to it and have its fields. -/
theorem Codec.restores_interface {i : Interface} {a : i.Value} {w : Json} (hi : i.IsStandard)
    (hf : Json.Arrangement f)
    (h : ∀ members, Json.Below n members → ∀ variant ∈ i.variants, variant.body.Reads members a →
      ∃ own, w.HasMembers own ∧ i.standardTable.select own = .ok variant ∧
        ∀ es, Json.Rewritten f n members own es → variant.body.Reads es a) :
    (Codec.interface i).Restores f (n + 1) a w := by
  intro v hv hn ha
  obtain ⟨members, variant, rfl, -, hs, ha⟩ := reads_interface.mp ha
  have hbelow := Json.below_of_wellFormed hv hn
  obtain ⟨own, hown, hselect, hread⟩ :=
    h members hbelow variant (VariantTable.mem_of_select_ok hs) ha
  obtain ⟨es, hes, harr⟩ := hf.exists_arranged hown
  have hvariant := VariantTable.select_arranged hf harr hselect
  have hreads := hread es ⟨hf, hbelow, harr⟩
  exact ⟨reads_interface.mpr ⟨es, variant, hes, hi, hvariant, hreads⟩, fun _ => hown.isNull⟩

theorem Codec.faithful_interface {i : Interface} {encode : i.Value → Json} (hi : i.IsStandard)
    (hf : Json.Arrangement f)
    (h : ∀ a members, Json.Below n members → ∀ variant ∈ i.variants,
      variant.body.Reads members a → ∃ own, (encode a).HasMembers own ∧
        i.standardTable.select own = .ok variant ∧
          ∀ es, Json.Rewritten f n members own es → variant.body.Reads es a) :
    (Codec.interface i).Faithful f n encode :=
  Faithful.mono (fun a => restores_interface hi hf (h a)) n.le_succ

/-! ## Counters -/

theorem Int64.toNat_toUInt64 {m : Int64} (h : ¬m < 0) : (m.toUInt64.toNat : Int) = m.toInt := by
  rw [Int64.lt_iff_toInt_lt, Int64.toInt_zero, not_lt] at h
  have hle : 0 ≤ m := Int64.le_iff_toInt_le.mpr h
  rw [Int64.toNat_toUInt64_of_le hle, Int64.cast_toNatClampNeg m hle]

/-- A count is the number that it was narrowed from. -/
theorem nonNegative_eq_ok {field : String} {m : Int64} {k : UInt64}
    (h : nonNegative field m = .ok k) : (k.toNat : Int) = m.toInt := by
  rw [nonNegative] at h
  split at h
  · cases h
  next hm =>
    cases h
    exact Int64.toNat_toUInt64 hm

theorem nonNegative32_eq_ok {field : String} {m : Int64} {k : UInt32}
    (h : nonNegative32 field m = .ok k) : (k.toNat : Int) = m.toInt := by
  obtain ⟨wide, hwide, h⟩ := bind_eq_ok_iff.mp h
  rw [← nonNegative_eq_ok hwide]
  split at h
  next hlt =>
    cases h
    rw [UInt64.toNat_toUInt32, Nat.mod_eq_of_lt hlt]
  · cases h

theorem Json.ofUInt64_eq_ofInt64 {k : UInt64} {m : Int64} (h : (k.toNat : Int) = m.toInt) :
    Json.ofUInt64 k = .ofInt64 m := by
  simp only [ofUInt64, ofInt64, h]

theorem Json.ofUInt32_eq_ofInt64 {k : UInt32} {m : Int64} (h : (k.toNat : Int) = m.toInt) :
    Json.ofUInt32 k = .ofInt64 m := by
  simp only [ofUInt32, ofInt64, h]

end QueryScope
