import QueryScope.Proofs.Preorder
import QueryScope.Proofs.Restoring.Snapshot

/-!
# What payloads lead to

A value that is read from a payload is made of parts that are read from what is inside the payload,
under whatever registry. In this way every stage of a query, at any depth, and every plan is read
from JSON itself.
-/

namespace QueryScope

variable {α : Type} {reg : Registry} {p : Path} {v w : Json} {members : List (String × Json)}

theorem Json.Inside.trans {u : Json} (h : u.Inside w) (hw : w.Inside v) : u.Inside v := by
  induction hw with
  | self => exact h
  | item hmem _ ih => exact .item hmem ih
  | member hmem _ ih => exact .member hmem ih

theorem Json.WellFormed.inside (h : v.WellFormed) (hw : w.Inside v) : w.WellFormed := by
  induction hw with
  | self => exact h
  | item hmem _ ih => exact ih (h.item hmem)
  | member hmem _ ih => exact ih (h.member hmem)

/-- The payload, or something inside it, is read as `a`. -/
def Codec.Produces (c : Codec α) (reg : Registry) (v : Json) (a : α) : Prop :=
  ∃ p w, w.Inside v ∧ c.decodeAt reg p w = .ok a

/-! ## Parts -/

namespace Codec

variable {c : Codec α}

theorem Produces.inside {a : α} (h : c.Produces reg w a) (hw : w.Inside v) :
    c.Produces reg v a := by
  obtain ⟨p, u, hu, ha⟩ := h
  exact ⟨p, u, hu.trans hw, ha⟩

theorem exists_decodeAt_of_mem {n : Nat} {items : List Json} {as : List α} {a : α}
    (h : c.decodeItems reg p n items = .ok as) (ha : a ∈ as) :
    ∃ q, ∃ w ∈ items, c.decodeAt reg q w = .ok a := by
  induction items generalizing n as with
  | nil =>
    obtain rfl := Except.ok.inj h
    cases ha
  | cons v rest ih =>
    obtain ⟨b, hb, h⟩ := bind_eq_ok_iff.mp h
    obtain ⟨bs, hbs, h⟩ := bind_eq_ok_iff.mp h
    obtain rfl := Except.ok.inj h
    rcases List.mem_cons.mp ha with rfl | ha
    · exact ⟨_, v, List.mem_cons_self, hb⟩
    · obtain ⟨q, w, hw, ha⟩ := ih hbs ha
      exact ⟨q, w, List.mem_cons_of_mem _ hw, ha⟩

theorem Produces.mem {as : List α} {a : α} (h : c.list.Produces reg v as) (ha : a ∈ as) :
    c.Produces reg v a := by
  obtain ⟨p, w, hw, h⟩ := h
  rw [decodeAt_list] at h
  split at h
  · next items =>
    obtain ⟨q, u, hu, ha⟩ := exists_decodeAt_of_mem h ha
    exact ⟨q, u, Json.Inside.trans (.item hu .self) hw, ha⟩
  · cases h

/-- What is found in a field is read from the object, or else there is nothing in the field. -/
theorem produces_of_decodeField {γ : Type} {name : String} {found : α → γ}
    {absent : Except DecodeError γ} {b : γ}
    (h : c.decodeField reg p members name found absent = .ok b) :
    (∃ a, c.Produces reg (.object members) a ∧ b = found a) ∨ absent = .ok b := by
  rw [decodeField] at h
  split at h
  next v hv =>
    obtain ⟨a, ha, rfl⟩ := map_eq_ok_iff.mp h
    obtain ⟨hlookup, -⟩ := Json.present?_eq_some_iff.mp hv
    exact Or.inl ⟨a, ⟨_, v, .member (Json.mem_of_lookup hlookup) .self, ha⟩, rfl⟩
  next => exact Or.inr h

end Codec

/-- What the fields are put into has a property, if they hold what is read from the payload. -/
def Fields.BuildsFrom (reg : Registry) (v : Json) : {α : Type} → Fields α → (α → Prop) → Prop
  | _, .pure a, Q => Q a
  | _, .required fields _ c, Q => fields.BuildsFrom reg v fun build =>
    ∀ b, c.Produces reg v b → Q (build b)
  | _, .optional fields _ c, Q => fields.BuildsFrom reg v fun build =>
    ∀ o, (∀ b, o = some b → c.Produces reg v b) → Q (build o)
  | _, .defaulted fields _ c default, Q => fields.BuildsFrom reg v fun build =>
    ∀ b, c.Produces reg v b ∨ b = default → Q (build b)
  | _, .verbatim fields _ _, Q => fields.BuildsFrom reg v fun build => ∀ w, Q (build w)

theorem Fields.BuildsFrom.of_decodeAt {fields : Fields α} {Q : α → Prop} {a : α}
    (hQ : fields.BuildsFrom reg (.object members) Q)
    (h : fields.decodeAt reg p members = .ok a) : Q a := by
  induction fields with
  | pure b =>
    obtain rfl := Except.ok.inj h
    exact hQ
  | required fields name c ih =>
    rw [decodeAt_required] at h
    obtain ⟨build, hbuild, h⟩ := bind_eq_ok_iff.mp h
    obtain ⟨b, hb, h⟩ := bind_eq_ok_iff.mp h
    obtain rfl := Except.ok.inj h
    rcases Codec.produces_of_decodeField hb with ⟨b, hb, rfl⟩ | habsent
    · exact ih hQ hbuild b hb
    · cases habsent
  | optional fields name c ih =>
    rw [decodeAt_optional] at h
    obtain ⟨build, hbuild, h⟩ := bind_eq_ok_iff.mp h
    obtain ⟨o, ho, h⟩ := bind_eq_ok_iff.mp h
    obtain rfl := Except.ok.inj h
    rcases Codec.produces_of_decodeField ho with ⟨b, hb, rfl⟩ | habsent
    · exact ih hQ hbuild (some b) fun _ heq => Option.some.inj heq ▸ hb
    · obtain rfl := Except.ok.inj habsent
      exact ih hQ hbuild none nofun
  | defaulted fields name c default ih =>
    rw [decodeAt_defaulted] at h
    obtain ⟨build, hbuild, h⟩ := bind_eq_ok_iff.mp h
    obtain ⟨b, hb, h⟩ := bind_eq_ok_iff.mp h
    obtain rfl := Except.ok.inj h
    rcases Codec.produces_of_decodeField hb with ⟨b, hb, rfl⟩ | habsent
    · exact ih hQ hbuild b (Or.inl hb)
    · obtain rfl := Except.ok.inj habsent
      exact ih hQ hbuild _ (Or.inr rfl)
  | verbatim fields name absent ih =>
    rw [decodeAt_verbatim] at h
    obtain ⟨build, hbuild, h⟩ := bind_eq_ok_iff.mp h
    split at h
    · obtain rfl := Except.ok.inj h
      exact ih hQ hbuild _
    · cases h

/-- A checked record is made from fields that hold what is read from its object. -/
theorem Record.exists_of_produces {r : Record} {fields : Fields (Except FieldFault r.Value)}
    {Q : Except FieldFault r.Value → Prop} {a : r.Value} (hbody : r.body = .checked fields)
    (hQ : ∀ members, (Json.object members).Inside v →
      fields.BuildsFrom reg (.object members) Q)
    (h : (Codec.record r).Produces reg v a) : Q (.ok a) := by
  obtain ⟨p, w, hw, h⟩ := h
  rw [Codec.decodeAt_record] at h
  cases w with
  | object members =>
    simp only [hbody, Body.decodeAt_checked] at h
    obtain ⟨made, hmade, h⟩ := bind_eq_ok_iff.mp h
    obtain rfl := mapError_eq_ok_iff.mp h
    exact (hQ members hw).of_decodeAt hmade
  | _ => cases h

/-! ## Stages and queries -/

/-- A stage is made with a plan and with stages that feed it that are read from payloads, as the
stage is. -/
theorem Stage.exists_of_produces {s : Stage} (h : (Codec.record .stage).Produces reg v s) :
    ∃ id state plan tasks subStages, make id state plan tasks subStages = .ok s ∧
      (∀ f, plan = some f → (Codec.record .fragment).Produces reg v f) ∧
      ∀ c ∈ subStages, (Codec.record .stage).Produces reg v c := by
  refine Record.exists_of_produces (r := .stage) (Q := fun made =>
    ∃ id state plan tasks subStages, make id state plan tasks subStages = made ∧
      (∀ f, plan = some f → (Codec.record .fragment).Produces reg v f) ∧
      ∀ c ∈ subStages, (Codec.record .stage).Produces reg v c) rfl ?_ h
  intro members hmembers id _ state _ plan hplan tasks _ subStages hsubStages
  exact ⟨id, state, plan, tasks, subStages, rfl, fun f hf => (hplan f hf).inside hmembers,
    fun c hc => (hsubStages.mem hc).inside hmembers⟩

/-- The plan of a stage and the stages that feed it are read from payloads, as the stage is. -/
theorem Stage.produces_parts {s : Stage} (h : (Codec.record .stage).Produces reg v s) :
    (∀ f, s.plan = some f → (Codec.record .fragment).Produces reg v f) ∧
      ∀ c ∈ s.subStages, (Codec.record .stage).Produces reg v c := by
  obtain ⟨id, state, plan, tasks, subStages, hmake, hplan, hsubStages⟩ := exists_of_produces h
  obtain rfl := make_eq_ok hmake
  exact ⟨hplan, hsubStages⟩

theorem Query.make_eq_ok {id : QueryId} {state : QueryState} {pool : MemoryPoolId}
    {scheduled : Bool} {self query : String} {stats : QueryStats}
    {transaction : Option TransactionId} {outputStage : Option Stage} {failure : Option Failure}
    {q : Query} (h : make id state pool scheduled self query stats transaction outputStage failure =
      .ok q) :
    q = ⟨id, state, pool, scheduled, self, query, stats, transaction, outputStage, failure⟩ ∧
      ∀ s, outputStage = some s → s.id.query = id := by
  have hrest (h : (do return ⟨id, state, pool, scheduled, ← nonEmpty "self" self, query, stats,
      transaction, outputStage, failure⟩) = Except.ok q) :
      q = ⟨id, state, pool, scheduled, self, query, stats, transaction, outputStage, failure⟩ := by
    obtain ⟨_, hself, heq⟩ := bind_eq_ok_iff.mp h
    obtain rfl := nonEmpty_eq_ok hself
    exact (Except.ok.inj heq).symm
  cases outputStage with
  | none => exact ⟨hrest h, by simp⟩
  | some stage =>
    by_cases hid : stage.id.query = id
    · refine ⟨hrest ?_, by simpa using hid⟩
      simpa only [make, ne_eq, hid, not_true_eq_false, if_false] using h
    · simp only [make, ne_eq, hid, not_false_eq_true, if_true] at h
      cases h

/-- A query is made with an output stage that is read from a payload, as the query is. -/
theorem Query.exists_of_produces {q : Query} (h : (Codec.record .query).Produces reg v q) :
    ∃ id state pool scheduled self query stats transaction outputStage failure,
      make id state pool scheduled self query stats transaction outputStage failure = .ok q ∧
        ∀ s, outputStage = some s → (Codec.record .stage).Produces reg v s := by
  refine Record.exists_of_produces (r := .query) (Q := fun made =>
    ∃ id state pool scheduled self query stats transaction outputStage failure,
      make id state pool scheduled self query stats transaction outputStage failure = made ∧
        ∀ s, outputStage = some s → (Codec.record .stage).Produces reg v s) rfl ?_ h
  intro members hmembers id _ state _ pool _ scheduled _ self _ query _ stats _ transaction _
    outputStage houtput failure _
  exact ⟨id, state, pool, scheduled, self, query, stats, transaction, outputStage, failure, rfl,
    fun s hs => (houtput s hs).inside hmembers⟩

/-- Every stage of a query is read from a payload, at whatever depth it stands. -/
theorem Query.produces_stages {q : Query} (h : (Codec.record .query).Produces reg v q) :
    ∀ s ∈ q.stages, (Codec.record .stage).Produces reg v s := by
  obtain ⟨id, state, pool, scheduled, self, query, stats, transaction, outputStage, failure, hmake,
    houtput⟩ := exists_of_produces h
  obtain ⟨rfl, -⟩ := Query.make_eq_ok hmake
  refine forall_mem_preorder (fun s hs => ?_) fun s hs => (Stage.produces_parts hs).2
  exact houtput s (Option.mem_toList.mp hs)

theorem Query.produces_fragments {q : Query} (h : (Codec.record .query).Produces reg v q) :
    ∀ f ∈ q.fragments, (Codec.record .fragment).Produces reg v f := by
  intro f hf
  obtain ⟨s, hs, hplan⟩ := List.mem_filterMap.mp hf
  exact (Stage.produces_parts (q.produces_stages h s hs)).1 f hplan

theorem Query.stages_eq (q : Query) :
    q.stages = q.outputStage.toList.flatMap Stage.depthFirst := by
  rw [stages, Stage.preorder_eq_depthFirst]

theorem Query.fragments_eq (q : Query) :
    q.fragments = (q.outputStage.toList.flatMap Stage.depthFirst).filterMap (·.plan) := by
  rw [fragments, stages_eq]

end QueryScope
