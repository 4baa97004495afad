import QueryScope.Proofs.Restoring.Basic

/-!
# Expressions are read again

Every kind of expression carries its tag, which leads back to it. Operands are read from smaller
values than the expression itself, so that faithfulness goes through by induction on the bound.
-/

namespace QueryScope.Expression

open Codec (faithful_string faithful_double faithful_int64 faithful_uint32 faithful_bool
  faithful_json faithful_named)

variable {f : Json → Json} {n : Nat} {members : List (String × Json)}

theorem encodeAll_eq_map (es : List Expression) : encodeAll es = es.map encode := by
  induction es with
  | nil => rfl
  | cons e rest ih => rw [encodeAll, ih, List.map_cons]

/-- What has to be shown of a kind of expression: what is read as it is written as an object that
leads to the kind again and has its fields. -/
def Restored (f : Json → Json) (n : Nat) (members : List (String × Json)) (w : Variant .expression)
    (e : Expression) : Prop :=
  ∃ own, e.encode.HasMembers own ∧ (Interface.standardTable .expression).select own = .ok w ∧
    ∀ es, Json.Rewritten f n members own es → w.body.Reads es e

/-- A flag that is not set is left out, and what is left out is not set. -/
theorem ReadsOptional.flag {own es : List (String × Json)} (key : String) (set : Bool)
    (hrw : Json.Rewritten f n members own es)
    (hl : Json.lookup own key = if set then some (.bool true) else none) :
    ∃ o, Codec.bool.ReadsOptional es key o ∧ o.getD false = set := by
  cases set with
  | false => exact ⟨none, .of_none hl hrw.arranged, rfl⟩
  | true =>
    refine ⟨some true, Or.inr ⟨true, .of_lookup hrw.arrangement hrw.arranged hl rfl ?_, rfl⟩, rfl⟩
    rw [hrw.arrangement.wellFormed (.bool true)]
    exact Codec.reads_scalar.mpr rfl

/-- An object is read as the kind that its tag names. -/
theorem select_of_byTag? {kind : String} {w : Variant .expression} {fields : List (String × Json)}
    (h : (Interface.standardTable .expression).byTag? kind = some w) :
    (Interface.standardTable .expression).select (("@type", .string kind) :: fields) = .ok w := by
  have htag : Json.lookup (("@type", .string kind) :: fields) "@type" = some (.string kind) := by
    rw [Json.lookup_cons, if_pos rfl]
  simp only [VariantTable.select, Interface.tagKey, htag, VariantTable.selectByTag, h]

/-- A kind with a single field. -/
theorem restored_one {α : Type} {kind name : String} {build : α → Expression} {c : Codec α}
    {encodeValue : α → Json} {e : Expression} (hc : c.Faithful f n encodeValue)
    (hencode : ∀ a, (build a).encode = tagged kind [(name, encodeValue a)]) (hname : "@type" ≠ name)
    (htag : (Interface.standardTable .expression).byTag? kind =
      some (variantOf kind (.required (.pure build) name c)))
    (h : (variantOf kind (.required (.pure build) name c)).body.Reads members e) :
    Restored f n members (variantOf kind (.required (.pure build) name c)) e := by
  obtain ⟨a, ha, rfl⟩ := Body.reads_record.mp h
  refine ⟨[("@type", .string kind), (name, encodeValue a)], ?_, select_of_byTag? htag, ?_⟩
  · rw [hencode]
    exact Json.hasMembers_object (by simpa using hname)
  · refine fun es hrw => Body.reads_record.mpr ⟨a, ha.restored hrw hc ?_, rfl⟩
    rw [Json.lookup_cons, if_neg hname, Json.lookup_cons, if_pos rfl]

/-- A kind with an operator and two operands. -/
theorem restored_binary {ω : Type} [Named ω] [Named.Lawful ω] {kind : String}
    {build : ω → Expression → Expression → Expression} {e : Expression}
    (ih : (Codec.interface .expression).Faithful f n encode)
    (hencode : ∀ o left right, (build o left right).encode =
      tagged kind [("operator", .ofNamed o), ("left", left.encode), ("right", right.encode)])
    (htag : (Interface.standardTable .expression).byTag? kind = some (binaryVariant kind build))
    (h : (binaryVariant kind build).body.Reads members e) :
    Restored f n members (binaryVariant kind build) e := by
  obtain ⟨o, ho, left, hleft, right, hright, rfl⟩ := Body.reads_record.mp h
  refine ⟨("@type", .string kind) :: [("operator", .ofNamed o), ("left", left.encode),
    ("right", right.encode)], ?_, select_of_byTag? htag, ?_⟩
  · rw [hencode]
    exact Json.hasMembers_object (by simp)
  · refine fun es hrw => Body.reads_record.mpr ?_
    have ho := ho.restored hrw (faithful_named hrw.arrangement) rfl
    have hleft := hleft.restored hrw ih rfl
    have hright := hright.restored hrw ih rfl
    exact ⟨o, ho, left, hleft, right, hright, rfl⟩

theorem faithful (hf : Json.Arrangement f) (n : Nat) :
    (Codec.interface .expression).Faithful f n encode := by
  induction n with
  | zero => exact fun _ v _ hn => absurd hn (Nat.not_lt_zero _)
  | succ n ih =>
    refine fun e => Codec.restores_interface (i := .expression) rfl hf fun members _ w hw ha => ?_
    simp only [Interface.variants, variants, List.mem_cons, List.not_mem_nil, or_false] at hw
    rcases hw with rfl | rfl | rfl | rfl | rfl | rfl | rfl | rfl | rfl | rfl | rfl | rfl | rfl |
      rfl | rfl | rfl | rfl
    -- identifier
    · exact restored_one (faithful_string hf) (fun _ => rfl) (by decide) rfl ha
    -- symbol
    · exact restored_one (faithful_string hf) (fun _ => rfl) (by decide) rfl ha
    -- long
    · exact restored_one (faithful_int64 hf) (fun _ => rfl) (by decide) rfl ha
    -- double
    · exact restored_one (faithful_double hf) (fun _ => rfl) (by decide) rfl ha
    -- string
    · exact restored_one (faithful_string hf) (fun _ => rfl) (by decide) rfl ha
    -- boolean
    · exact restored_one (faithful_bool hf) (fun _ => rfl) (by decide) rfl ha
    -- null
    · obtain rfl := Body.reads_record.mp ha
      refine ⟨_, Json.hasMembers_object (by simp), select_of_byTag? rfl, fun es _ => ?_⟩
      exact Body.reads_record.mpr rfl
    -- parameter
    · exact restored_one (faithful_uint32 hf) (fun _ => rfl) (by decide) rfl ha
    -- comparison
    · exact restored_binary ih (fun _ _ _ => rfl) rfl ha
    -- logicalBinary
    · exact restored_binary ih (fun _ _ _ => rfl) rfl ha
    -- arithmeticBinary
    · exact restored_binary ih (fun _ _ _ => rfl) rfl ha
    -- not
    · exact restored_one ih (fun _ => rfl) (by decide) rfl ha
    -- isNull
    · exact restored_one ih (fun _ => rfl) (by decide) rfl ha
    -- between
    · obtain ⟨value, hvalue, low, hlow, high, hhigh, rfl⟩ := Body.reads_record.mp ha
      refine ⟨_, Json.hasMembers_object (by simp), select_of_byTag? rfl, fun es hrw => ?_⟩
      have hvalue := hvalue.restored hrw ih rfl
      have hlow := hlow.restored hrw ih rfl
      have hhigh := hhigh.restored hrw ih rfl
      exact Body.reads_record.mpr ⟨value, hvalue, low, hlow, high, hhigh, rfl⟩
    -- functionCall
    · obtain ⟨name, hname, arguments, harguments, o, -, rfl⟩ := Body.reads_record.mp ha
      refine ⟨("@type", .string "functionCall") :: ([("name", .string name),
        ("arguments", .array (arguments.map encode))] ++ flag "distinct" (o.getD false)),
        ?_, select_of_byTag? rfl, fun es hrw => ?_⟩
      · rw [encode, encodeAll_eq_map]
        refine Json.hasMembers_object ?_
        cases o.getD false <;> simp [flag]
      · obtain ⟨distinct, hdistinct, heq⟩ := ReadsOptional.flag "distinct" (o.getD false) hrw
          (by cases o.getD false <;> rfl)
        have hname := hname.restored hrw (faithful_string hf) rfl
        have harguments := harguments.restored hrw (ih.list hf) rfl
        exact Body.reads_record.mpr ⟨name, hname, arguments, harguments, distinct, hdistinct,
          by rw [heq]⟩
    -- cast
    · obtain ⟨operand, hoperand, type, htype, o, -, rfl⟩ := Body.reads_record.mp ha
      refine ⟨("@type", .string "cast") :: ([("expression", operand.encode),
        ("type", .string type)] ++ flag "safe" (o.getD false)), ?_, select_of_byTag? rfl,
        fun es hrw => ?_⟩
      · rw [encode]
        refine Json.hasMembers_object ?_
        cases o.getD false <;> simp [flag]
      · obtain ⟨safe, hsafe, heq⟩ := ReadsOptional.flag "safe" (o.getD false) hrw
          (by cases o.getD false <;> rfl)
        have hoperand := hoperand.restored hrw ih rfl
        have htype := htype.restored hrw (faithful_string hf) rfl
        exact Body.reads_record.mpr ⟨operand, hoperand, type, htype, safe, hsafe, by rw [heq]⟩
    -- subquery
    · exact restored_one (faithful_json hf) (fun _ => rfl) (by decide) rfl ha

end QueryScope.Expression
