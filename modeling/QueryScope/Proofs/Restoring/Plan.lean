import QueryScope.Proofs.Json.Place
import QueryScope.Proofs.Restoring.Expression
import QueryScope.Proofs.Restoring.Handle
import QueryScope.Wire.Payload

/-!
# Plans are read again, with or without their tags

The keys of every node but the projection tell its kind as well as its tag does. So a plan is read
again from what is written for it also when the tags of any such nodes are left out.
-/

namespace QueryScope.PlanNode

open Codec (faithful_string faithful_strings faithful_uint64 faithful_nameId faithful_named)
open QueryScope.Path (Segment)

variable {f : Json → Json} {n : Nat} {node : PlanNode} {chosen : Json.Places}

/-! ## The objects of the nodes -/

/-- Nodes behind one more step. -/
def behind (s : Segment) (places : List (List Segment × PlanNode)) :
    List (List Segment × PlanNode) :=
  places.map fun e => (s :: e.1, e.2)

mutual

/-- A node and all nodes below it, each with the place of its object in the node's JSON. -/
def places : PlanNode → List (List Segment × PlanNode)
  | node@(.output _ source _ _) => ([], node) :: behind (.field "source") source.places
  | node@(.project _ source _) => ([], node) :: behind (.field "source") source.places
  | node@(.filter _ source _) => ([], node) :: behind (.field "source") source.places
  | node@(.aggregation _ source _ _ _) => ([], node) :: behind (.field "source") source.places
  | node@(.limit _ source _ _) => ([], node) :: behind (.field "source") source.places
  | node@(.exchange _ _ _ _ sources) =>
    ([], node) :: behind (.field "sources") (placesFrom 0 sources)
  | node@(.tableScan ..) => [([], node)]
  | node@(.remoteSource ..) => [([], node)]
  | node@(.values ..) => [([], node)]

/-- The same for the nodes of a list from a position on. -/
def placesFrom (n : Nat) : List PlanNode → List (List Segment × PlanNode)
  | [] => []
  | node :: rest => behind (.index n) node.places ++ placesFrom (n + 1) rest

end

theorem mem_behind {s t : Segment} {place : List Segment} {m : PlanNode}
    {places : List (List Segment × PlanNode)} :
    (t :: place, m) ∈ behind s places ↔ t = s ∧ (place, m) ∈ places := by
  simp [behind, eq_comm, and_comm]

theorem root_notMem_behind {s : Segment} {m : PlanNode}
    {places : List (List Segment × PlanNode)} : ([], m) ∉ behind s places := by
  simp [behind]

theorem follow_behind {s : Segment} {v w : Json} {inner : List (List Segment × PlanNode)}
    (hstep : v.step? s = some w)
    (h : ∀ place m, (place, m) ∈ inner → w.follow place = some m.encode)
    {place : List Segment} {m : PlanNode} (hm : (place, m) ∈ behind s inner) :
    v.follow place = some m.encode := by
  obtain ⟨⟨rest, m'⟩, hmem, heq⟩ := List.mem_map.mp hm
  obtain ⟨rfl, rfl⟩ := Prod.mk.inj heq
  rw [Json.follow, hstep, Option.bind_some, h rest m' hmem]

mutual

/-- At the place of a node stands what is written for it. -/
theorem follow_encode : ∀ (node : PlanNode) (place : List Segment) (m : PlanNode),
    (place, m) ∈ node.places → node.encode.follow place = some m.encode
  | .output id source names outputs, place, m, hm => by
    rcases List.mem_cons.mp hm with heq | hm
    · cases heq; rfl
    · exact follow_behind rfl source.follow_encode hm
  | .project id source assignments, place, m, hm => by
    rcases List.mem_cons.mp hm with heq | hm
    · cases heq; rfl
    · exact follow_behind rfl source.follow_encode hm
  | .filter id source predicate, place, m, hm => by
    rcases List.mem_cons.mp hm with heq | hm
    · cases heq; rfl
    · exact follow_behind rfl source.follow_encode hm
  | .aggregation id source aggregations keys step, place, m, hm => by
    rcases List.mem_cons.mp hm with heq | hm
    · cases heq; rfl
    · exact follow_behind rfl source.follow_encode hm
  | .limit id source count step, place, m, hm => by
    rcases List.mem_cons.mp hm with heq | hm
    · cases heq; rfl
    · exact follow_behind rfl source.follow_encode hm
  | .exchange id type scope scheme sources, place, m, hm => by
    rcases List.mem_cons.mp hm with heq | hm
    · cases heq; rfl
    · exact follow_behind rfl (follow_encodeAll sources []) hm
  | .tableScan .., place, m, hm => by cases List.mem_singleton.mp hm; rfl
  | .remoteSource .., place, m, hm => by cases List.mem_singleton.mp hm; rfl
  | .values .., place, m, hm => by cases List.mem_singleton.mp hm; rfl

/-- The same for a list of nodes behind other items. -/
theorem follow_encodeAll : ∀ (nodes : List PlanNode) (before : List Json) (place : List Segment)
    (m : PlanNode), (place, m) ∈ placesFrom before.length nodes →
      (Json.array (before ++ encodeAll nodes)).follow place = some m.encode
  | [], _, _, _, hm => by cases hm
  | node :: rest, before, place, m, hm => by
    rcases List.mem_append.mp hm with hm | hm
    · exact follow_behind (by simp [Json.step?, encodeAll]) node.follow_encode hm
    · have h := follow_encodeAll rest (before ++ [node.encode]) place m (by simpa using hm)
      rwa [List.append_assoc, List.singleton_append] at h

end

/-- A choice of the objects of nodes that are no projections. -/
def Untaggable (node : PlanNode) (chosen : Json.Places) : Prop :=
  ∀ place, chosen place = true → ∃ m, (place, m) ∈ node.places ∧ m.kind ≠ "project"

theorem untaggable_of_isEmpty (h : chosen.IsEmpty) : node.Untaggable chosen := by
  intro place hplace
  simp [h place] at hplace

/-! ## Leaving out tags -/

/-- The member of the tag, which may be left out. -/
def tag (kind : String) (dropped : Bool) : List (String × Json) :=
  if dropped then [] else [("@type", .string kind)]

/-- The members of the object of a node whose own tag may be left out, and those of the chosen nodes
below. -/
def untagged (kind : String) (dropped : Bool) (id : PlanNodeId) (fields : List (String × Json))
    (chosen : Json.Places) : List (String × Json) :=
  tag kind dropped ++ ("id", .string id.text) :: fields.map fun m =>
    (m.1, m.2.without "@type" (chosen.behind (.field m.1)))

section Untagged

variable {kind : String} {id : PlanNodeId} {fields : List (String × Json)}

theorem without_tagged (hfields : ∀ m ∈ fields, m.1 ≠ "@type") :
    (tagged kind id fields).without "@type" chosen =
      .object (untagged kind (chosen []) id fields chosen) := by
  have hrest : ∀ m ∈ ("id", Json.string id.text) :: fields, m.1 ≠ "@type" := by
    rw [List.forall_mem_cons]
    exact ⟨by simp, hfields⟩
  rw [tagged, Json.without, Json.membersWithout, Json.membersWithout_of_ne hrest, untagged, tag]
  cases chosen [] <;> simp [Json.without]

theorem hasMembers_without (hnames : ("@type" :: "id" :: fields.map Prod.fst).Nodup) :
    ((tagged kind id fields).without "@type" chosen).HasMembers
      (untagged kind (chosen []) id fields chosen) := by
  have hfields : ∀ m ∈ fields, m.1 ≠ "@type" := by
    intro m hm heq
    rw [List.nodup_cons] at hnames
    exact hnames.1 (List.mem_cons_of_mem _ (heq ▸ List.mem_map_of_mem hm))
  rw [without_tagged hfields]
  refine Json.hasMembers_object ?_
  have hkeys : (untagged kind (chosen []) id fields chosen).map Prod.fst =
      (tag kind (chosen [])).map Prod.fst ++ "id" :: fields.map Prod.fst := by
    simp [untagged]
  rw [hkeys, tag]
  cases chosen [] with
  | false => exact hnames
  | true => exact hnames.of_cons

/-- What is found under the name of a field, whether the tag stands before the fields or not. -/
theorem lookup_untagged {name : String} {dropped : Bool} (htag : "@type" ≠ name)
    (hid : "id" ≠ name) : Json.lookup (untagged kind dropped id fields chosen) name =
      (Json.lookup fields name).map (·.without "@type" (chosen.behind (.field name))) := by
  rw [untagged, Json.lookup_append, Json.lookup_cons, if_neg hid,
    Json.lookup_map fun name v => v.without "@type" (chosen.behind (.field name))]
  have hnone : Json.lookup (tag kind dropped) name = none := by
    rw [tag]
    cases dropped with
    | false => rw [if_neg Bool.false_ne_true, Json.lookup_cons, if_neg htag, Json.lookup_nil]
    | true => rfl
  rw [hnone, Option.none_or]

theorem lookup_untagged_id {dropped : Bool} :
    Json.lookup (untagged kind dropped id fields chosen) "id" = some (.string id.text) := by
  rw [untagged, tag]
  cases dropped <;> rfl

end Untagged

/-- In a node whose sources all stand behind one field, the other fields are left alone. -/
theorem Untaggable.without_field {step : String} {inner : List (List Segment × PlanNode)}
    (h : node.Untaggable chosen) (hplaces : node.places = ([], node) :: behind (.field step) inner)
    (name : String) (hname : name ≠ step) (v : Json) :
    v.without "@type" (chosen.behind (.field name)) = v := by
  refine Json.without_of_isEmpty fun place => Bool.eq_false_iff.mpr fun hp => ?_
  obtain ⟨m, hm, -⟩ := h _ hp
  rw [hplaces, List.mem_cons, mem_behind] at hm
  rcases hm with hm | ⟨hm, -⟩
  · cases hm
  · exact hname (Segment.field.inj hm)

theorem Untaggable.behind {step : Segment} {inner : List (List Segment × PlanNode)}
    (h : node.Untaggable chosen)
    (hplaces : node.places = ([], node) :: PlanNode.behind step inner) :
    ∀ place, chosen.behind step place = true → ∃ m, (place, m) ∈ inner ∧ m.kind ≠ "project" := by
  intro place hp
  obtain ⟨m, hm, hkind⟩ := h _ hp
  rw [hplaces, List.mem_cons, mem_behind] at hm
  rcases hm with hm | ⟨-, hm⟩
  · cases hm
  · exact ⟨m, hm, hkind⟩

theorem Untaggable.without_leaf (h : node.Untaggable chosen) (hplaces : node.places = [([], node)])
    (name : String) (v : Json) : v.without "@type" (chosen.behind (.field name)) = v := by
  refine Json.without_of_isEmpty fun place => Bool.eq_false_iff.mpr fun hp => ?_
  obtain ⟨m, hm, -⟩ := h _ hp
  simp [hplaces] at hm

theorem Untaggable.root_eq_false {step : Segment} {inner : List (List Segment × PlanNode)}
    (h : node.Untaggable chosen)
    (hplaces : node.places = ([], node) :: PlanNode.behind step inner)
    (hkind : node.kind = "project") : chosen [] = false := by
  refine Bool.eq_false_iff.mpr fun hp => ?_
  obtain ⟨m, hm, hne⟩ := h _ hp
  rw [hplaces, List.mem_cons] at hm
  rcases hm with hm | hm
  · exact hne ((Prod.mk.inj hm).2 ▸ hkind)
  · exact root_notMem_behind hm

theorem le_of_mem_placesFrom {k i : Nat} {place : List Segment} {m : PlanNode}
    {nodes : List PlanNode} (h : (.index i :: place, m) ∈ placesFrom k nodes) : k ≤ i := by
  induction nodes generalizing k with
  | nil => cases h
  | cons node rest ih =>
    rw [placesFrom, List.mem_append, mem_behind] at h
    rcases h with ⟨heq, -⟩ | h
    · rw [Segment.index.inj heq]
    · exact Nat.le_of_succ_le (ih h)

/-! ## Reading plans again -/

/-- What has to be shown of a kind of node: what is read as it is written, without its chosen tags,
as an object that leads to the kind again and has its fields. -/
def Restored (f : Json → Json) (n : Nat) (members : List (String × Json)) (chosen : Json.Places)
    (w : Variant .planNode) (node : PlanNode) : Prop :=
  ∃ own, (node.encode.without "@type" chosen).HasMembers own ∧
    (Interface.standardTable .planNode).select own = .ok w ∧
      ∀ es, Json.Rewritten f n members own es → w.body.Reads es node

section Kind

variable {members : List (String × Json)} {w : Variant .planNode} {kind : String} {id : PlanNodeId}
  {fields : List (String × Json)}

/-- A kind is restored when the values under the names of its fields, each without the chosen tags,
are read as its fields. -/
theorem restored_of_fields (hf : Json.Arrangement f) (hencode : node.encode = tagged kind id fields)
    (hnames : ("@type" :: "id" :: fields.map Prod.fst).Nodup)
    (hselect : (Interface.standardTable .planNode).select
      (untagged kind (chosen []) id fields chosen) = .ok w)
    (hid : (Codec.nameId .planNode).ReadsField members "id" id)
    (hread : ∀ own es, Json.Rewritten f n members own es →
      (Codec.nameId .planNode).ReadsField es "id" id →
      (∀ name, name ∉ ["@type", "id"] → Json.lookup own name =
        (Json.lookup fields name).map (·.without "@type" (chosen.behind (.field name)))) →
      w.body.Reads es node) : Restored f n members chosen w node := by
  refine ⟨untagged kind (chosen []) id fields chosen, ?_, hselect, fun es hrw => ?_⟩
  · rw [hencode]
    exact hasMembers_without hnames
  · have hid := hid.restored hrw (faithful_nameId hf) lookup_untagged_id
    refine hread _ es hrw hid fun name hname => ?_
    simp only [List.mem_cons, List.not_mem_nil, or_false, not_or] at hname
    exact lookup_untagged (Ne.symm hname.1) (Ne.symm hname.2)

/-- A kind whose sources all stand behind one field: the other fields are written as ever. -/
theorem Untaggable.restored_behind {step : String} {inner : List (List Segment × PlanNode)}
    (hf : Json.Arrangement f) (h : node.Untaggable chosen)
    (hplaces : node.places = ([], node) :: PlanNode.behind (.field step) inner)
    (hstep : step ∉ ["@type", "id"]) (hencode : node.encode = tagged kind id fields)
    (hnames : ("@type" :: "id" :: fields.map Prod.fst).Nodup)
    (hselect : (Interface.standardTable .planNode).select
      (untagged kind (chosen []) id fields chosen) = .ok w)
    (hid : (Codec.nameId .planNode).ReadsField members "id" id)
    (hread : ∀ own es, Json.Rewritten f n members own es →
      (Codec.nameId .planNode).ReadsField es "id" id →
      (∀ name, name ∉ ["@type", "id", step] → Json.lookup own name = Json.lookup fields name) →
      Json.lookup own step =
        (Json.lookup fields step).map (·.without "@type" (chosen.behind (.field step))) →
      w.body.Reads es node) : Restored f n members chosen w node := by
  refine restored_of_fields hf hencode hnames hselect hid fun own es hrw hid hown => ?_
  refine hread own es hrw hid (fun name hname => ?_) (hown step hstep)
  have hnot : name ∉ ["@type", "id"] := fun hmem => hname (List.mem_append_left [step] hmem)
  have hne : name ≠ step := fun heq => hname (by simp [heq])
  rw [hown name hnot, funext (h.without_field hplaces name hne)]
  exact Option.map_id'

/-- A kind without sources: all fields are written as ever. -/
theorem Untaggable.restored_leaf (hf : Json.Arrangement f) (h : node.Untaggable chosen)
    (hplaces : node.places = [([], node)]) (hencode : node.encode = tagged kind id fields)
    (hnames : ("@type" :: "id" :: fields.map Prod.fst).Nodup)
    (hselect : (Interface.standardTable .planNode).select
      (untagged kind (chosen []) id fields chosen) = .ok w)
    (hid : (Codec.nameId .planNode).ReadsField members "id" id)
    (hread : ∀ own es, Json.Rewritten f n members own es →
      (Codec.nameId .planNode).ReadsField es "id" id →
      (∀ name, name ∉ ["@type", "id"] → Json.lookup own name = Json.lookup fields name) →
      w.body.Reads es node) : Restored f n members chosen w node := by
  refine restored_of_fields hf hencode hnames hselect hid fun own es hrw hid hown => ?_
  refine hread own es hrw hid fun name hname => ?_
  rw [hown name hname, funext (h.without_leaf hplaces name)]
  exact Option.map_id'

end Kind

/-- The sources of a node are restored one by one, whatever is chosen in each. -/
theorem restores_items (ih : ∀ node chosen, node.Untaggable chosen →
      (Codec.interface .planNode).Restores f n node (node.encode.without "@type" chosen))
    {nodes : List PlanNode} (k : Nat)
    (h : ∀ i, k ≤ i → ∀ place, chosen (.index i :: place) = true →
      ∃ m, (.index i :: place, m) ∈ placesFrom k nodes ∧ m.kind ≠ "project") :
    List.Forall₂ ((Codec.interface .planNode).Restores f n) nodes
      (Json.itemsWithout "@type" chosen k (encodeAll nodes)) := by
  induction nodes generalizing k with
  | nil => exact .nil
  | cons node rest ihn =>
    have hsplit (i : Nat) (place : List Segment) (m : PlanNode) :
        (.index i :: place, m) ∈ placesFrom k (node :: rest) ↔
          (i = k ∧ (place, m) ∈ node.places) ∨
            (.index i :: place, m) ∈ placesFrom (k + 1) rest := by
      rw [placesFrom, List.mem_append, mem_behind, Segment.index.injEq]
    refine .cons (ih node _ fun place hp => ?_) (ihn (k + 1) fun i hi place hp => ?_)
    · obtain ⟨m, hm, hkind⟩ := h k le_rfl place hp
      rcases (hsplit k place m).mp hm with ⟨-, hm⟩ | hm
      · exact ⟨m, hm, hkind⟩
      · have := le_of_mem_placesFrom hm
        omega
    · obtain ⟨m, hm, hkind⟩ := h i (by omega) place hp
      rcases (hsplit i place m).mp hm with ⟨rfl, -⟩ | hm
      · omega
      · exact ⟨m, hm, hkind⟩

theorem restores (hf : Json.Arrangement f) (n : Nat) : ∀ node chosen, node.Untaggable chosen →
    (Codec.interface .planNode).Restores f n node (node.encode.without "@type" chosen) := by
  have hexpression := Expression.faithful hf
  induction n with
  | zero => exact fun _ _ _ v _ hn => absurd hn (Nat.not_lt_zero _)
  | succ n ih =>
    intro node chosen h
    refine Codec.restores_interface (i := .planNode) rfl hf fun members _ w hw ha => ?_
    show Restored f n members chosen w node
    simp only [Interface.variants, variants, List.mem_cons, List.not_mem_nil, or_false] at hw
    rcases hw with rfl | rfl | rfl | rfl | rfl | rfl | rfl | rfl | rfl
    -- output
    · obtain ⟨id, hid, source, hsource, names, hnames, outputs, houtputs, rfl⟩ :=
        Body.reads_record.mp ha
      refine h.restored_behind hf rfl (by decide) rfl (by simp) (by cases chosen [] <;> rfl) hid
        fun own es hrw hid hown hsub => Body.reads_record.mpr ?_
      have hsource := hsource.restored_of hrw (ih source _ (h.behind rfl)) hsub
      have hnames := hnames.restored hrw (faithful_strings hf) (hown _ (by decide))
      have houtputs := houtputs.restored hrw (faithful_strings hf) (hown _ (by decide))
      exact ⟨id, hid, source, hsource, names, hnames, outputs, houtputs, rfl⟩
    -- project
    · obtain ⟨id, hid, source, hsource, assignments, hassignments, rfl⟩ :=
        Body.reads_record.mp ha
      -- a projection cannot be told by its keys, but then its tag is not among those left out
      have htag : chosen [] = false := h.root_eq_false rfl rfl
      refine h.restored_behind hf rfl (by decide) rfl (by simp) (by rw [htag]; rfl) hid
        fun own es hrw hid hown hsub => Body.reads_record.mpr ?_
      have hsource := hsource.restored_of hrw (ih source _ (h.behind rfl)) hsub
      have hassignments := hassignments.restored hrw ((hexpression n).map hf) (hown _ (by decide))
      exact ⟨id, hid, source, hsource, assignments, hassignments, rfl⟩
    -- filter
    · obtain ⟨id, hid, source, hsource, predicate, hpredicate, rfl⟩ := Body.reads_record.mp ha
      refine h.restored_behind hf rfl (by decide) rfl (by simp) (by cases chosen [] <;> rfl) hid
        fun own es hrw hid hown hsub => Body.reads_record.mpr ?_
      have hsource := hsource.restored_of hrw (ih source _ (h.behind rfl)) hsub
      have hpredicate := hpredicate.restored hrw (hexpression n) (hown _ (by decide))
      exact ⟨id, hid, source, hsource, predicate, hpredicate, rfl⟩
    -- tablescan
    · obtain ⟨id, hid, table, htable, symbols, hsymbols, assignments, hassignments, rfl⟩ :=
        Body.reads_record.mp ha
      refine h.restored_leaf hf rfl rfl (by simp) (by cases chosen [] <;> rfl) hid
        fun own es hrw hid hown => Body.reads_record.mpr ?_
      have htable := htable.restored hrw (TableHandle.faithful hf n) (hown _ (by decide))
      have hsymbols := hsymbols.restored hrw (faithful_strings hf) (hown _ (by decide))
      have hassignments := hassignments.restored hrw ((ConnectorColumn.faithful hf n).map hf)
        (hown _ (by decide))
      exact ⟨id, hid, table, htable, symbols, hsymbols, assignments, hassignments, rfl⟩
    -- aggregation
    · obtain ⟨id, hid, source, hsource, aggregations, haggregations, keys, hkeys, step, hstep,
        rfl⟩ := Body.reads_record.mp ha
      refine h.restored_behind hf rfl (by decide) rfl (by simp) (by cases chosen [] <;> rfl) hid
        fun own es hrw hid hown hsub => Body.reads_record.mpr ?_
      have hsource := hsource.restored_of hrw (ih source _ (h.behind rfl)) hsub
      have haggregations := haggregations.restored hrw ((hexpression n).map hf)
        (hown _ (by decide))
      have hkeys := hkeys.restored hrw (faithful_strings hf) (hown _ (by decide))
      have hstep := hstep.restored hrw (faithful_named hf) (hown _ (by decide))
      exact ⟨id, hid, source, hsource, aggregations, haggregations, keys, hkeys, step, hstep, rfl⟩
    -- limit
    · obtain ⟨id, hid, source, hsource, count, hcount, step, hstep, rfl⟩ :=
        Body.reads_record.mp ha
      refine h.restored_behind hf rfl (by decide) rfl (by simp) (by cases chosen [] <;> rfl) hid
        fun own es hrw hid hown hsub => Body.reads_record.mpr ?_
      have hsource := hsource.restored_of hrw (ih source _ (h.behind rfl)) hsub
      have hcount := hcount.restored hrw (faithful_uint64 hf) (hown _ (by decide))
      have hstep := hstep.restored hrw (faithful_named hf) (hown _ (by decide))
      exact ⟨id, hid, source, hsource, count, hcount, step, hstep, rfl⟩
    -- exchange
    · obtain ⟨id, hid, type, htype, scope, hscope, scheme, hscheme, sources, hsources, rfl⟩ :=
        Body.reads_record.mp ha
      have hitems := restores_items ih 0 fun i _ place hp => h.behind rfl (.index i :: place) hp
      refine h.restored_behind hf rfl (by decide) rfl (by simp) (by cases chosen [] <;> rfl) hid
        fun own es hrw hid hown hsub => Body.reads_record.mpr ?_
      have htype := htype.restored hrw (faithful_named hf) (hown _ (by decide))
      have hscope := hscope.restored hrw (faithful_named hf) (hown _ (by decide))
      have hscheme := hscheme.restored hrw (PartitioningScheme.faithful hf n) (hown _ (by decide))
      have hsources := hsources.restored_of hrw (Codec.Restores.list hf hitems) hsub
      exact ⟨id, hid, type, htype, scope, hscope, scheme, hscheme, sources, hsources, rfl⟩
    -- remoteSource
    · obtain ⟨id, hid, fragments, hfragments, outputs, houtputs, type, htype, rfl⟩ :=
        Body.reads_record.mp ha
      refine h.restored_leaf hf rfl rfl (by simp) (by cases chosen [] <;> rfl) hid
        fun own es hrw hid hown => Body.reads_record.mpr ?_
      have hfragments := hfragments.restored hrw ((faithful_nameId hf).list hf)
        (hown _ (by decide))
      have houtputs := houtputs.restored hrw (faithful_strings hf) (hown _ (by decide))
      have htype := htype.restored hrw (faithful_named hf) (hown _ (by decide))
      exact ⟨id, hid, fragments, hfragments, outputs, houtputs, type, htype, rfl⟩
    -- values
    · obtain ⟨id, hid, symbols, hsymbols, rows, hrows, rfl⟩ := Body.reads_record.mp ha
      refine h.restored_leaf hf rfl rfl (by simp) (by cases chosen [] <;> rfl) hid
        fun own es hrw hid hown => Body.reads_record.mpr ?_
      have hsymbols := hsymbols.restored hrw (faithful_strings hf) (hown _ (by decide))
      have hencode : Expression.encodeAll = List.map Expression.encode :=
        funext Expression.encodeAll_eq_map
      have hrows := hrows.restored hrw (((hexpression n).list hf).list hf) (by
        rw [hown _ (by decide), hencode]
        rfl)
      exact ⟨id, hid, symbols, hsymbols, rows, hrows, rfl⟩

theorem faithful (hf : Json.Arrangement f) (n : Nat) :
    (Codec.interface .planNode).Faithful f n encode := by
  intro node
  have h := restores hf n node (fun _ => false) (untaggable_of_isEmpty fun _ => rfl)
  rwa [Json.without_of_isEmpty fun _ => rfl] at h

/-- A plan is decoded again from its JSON without the tags of any nodes that are no projections,
whether its members stand in the order of writing or ascend. -/
theorem decode_without_tags {P : Json} (hP : P.WellFormed) {node : PlanNode}
    (hnode : Payload.decode PlanNode P = .ok node) {chosen : Json.Places}
    (hchosen : node.Untaggable chosen) :
    Payload.decode PlanNode ((Payload.encode node).without "@type" chosen) = .ok node ∧
      Payload.decode PlanNode ((Payload.encode node).without "@type" chosen).sorted = .ok node := by
  have hn : sizeOf P < sizeOf P + 1 := Nat.lt_succ_self _
  have hwritten := (restores .id (sizeOf P + 1) node chosen hchosen P hP hn hnode).1
  have hsorted := (restores .sorted (sizeOf P + 1) node chosen hchosen P hP hn hnode).1
  exact ⟨hwritten, hsorted⟩

/-- A limit over a projection of constant rows. -/
def sample : PlanNode :=
  .limit ⟨"3", by decide⟩ (.project ⟨"2", by decide⟩ (.values ⟨"1", by decide⟩ ["x"] [])
    [("x", .null)]) 5 .finalStep

/-- The JSON of the sample as it is read from text. -/
def samplePayload : Json :=
  .object [("@type", .string "limit"), ("count", .ofUInt64 5), ("id", .string "3"),
    ("source", .object [("@type", .string "project"),
      ("assignments", .object [("x", .object [("@type", .string "null")])]), ("id", .string "2"),
      ("source", .object [("@type", .string "values"), ("id", .string "1"),
        ("outputSymbols", .array [.string "x"]), ("rows", .array [])])]),
    ("step", .string "FINAL")]

/-- The places of the limit and of the rows, but not of the projection between them. -/
def samplePlaces : Json.Places :=
  fun place => place = [] ∨ place = [.field "source", .field "source"]

theorem decode_samplePayload : Payload.decode PlanNode samplePayload = .ok sample := by
  refine Codec.reads_interface.mpr ⟨_, _, rfl, rfl, rfl, Body.reads_record.mpr
    ⟨_, ⟨_, rfl, rfl⟩, _, ⟨_, rfl, ?_⟩, _, ⟨_, rfl, rfl⟩, _, ⟨_, rfl, rfl⟩, rfl⟩⟩
  refine Codec.reads_interface.mpr ⟨_, _, rfl, rfl, rfl, Body.reads_record.mpr
    ⟨_, ⟨_, rfl, rfl⟩, _, ⟨_, rfl, ?_⟩, _, ⟨_, rfl, ?_⟩, rfl⟩⟩
  · exact Codec.reads_interface.mpr ⟨_, _, rfl, rfl, rfl, Body.reads_record.mpr
      ⟨_, ⟨_, rfl, rfl⟩, _, ⟨_, rfl, rfl⟩, _, ⟨_, rfl, rfl⟩, rfl⟩⟩
  · refine Codec.reads_keyed.mpr ⟨_, rfl, .cons ⟨rfl, ?_⟩ .nil⟩
    exact Codec.reads_interface.mpr ⟨_, _, rfl, rfl, rfl, Body.reads_record.mpr rfl⟩

theorem untaggable_sample : sample.Untaggable samplePlaces := by
  intro place h
  simp only [samplePlaces, decide_eq_true_eq] at h
  rcases h with rfl | rfl
  · exact ⟨sample, List.mem_cons_self, by decide⟩
  · exact ⟨.values ⟨"1", by decide⟩ ["x"] [], by simp [sample, places, behind], by decide⟩

theorem decode_without_tags_sample : samplePayload.WellFormed ∧
    Payload.decode PlanNode samplePayload = .ok sample ∧ sample.Untaggable samplePlaces ∧
      Payload.decode PlanNode ((Payload.encode sample).without "@type" samplePlaces) = .ok sample ∧
        Payload.decode PlanNode ((Payload.encode sample).without "@type" samplePlaces).sorted =
          .ok sample :=
  ⟨by decide, decode_samplePayload, untaggable_sample,
    decode_without_tags (by decide) decode_samplePayload untaggable_sample⟩

end QueryScope.PlanNode

namespace QueryScope

theorem Fragment.faithful {f : Json → Json} (hf : Json.Arrangement f) (n : Nat) :
    (Codec.record .fragment).Faithful f n Fragment.encode := by
  refine Codec.faithful_record (r := .fragment) hf fun a members _ ha => ?_
  obtain ⟨id, hid, root, hroot, partitioning, hpartitioning, scheme, hscheme, rfl⟩ :=
    Body.reads_record.mp ha
  refine ⟨_, Json.hasMembers_object (by simp), fun es hrw => Body.reads_record.mpr ?_⟩
  have hid := hid.restored hrw (Codec.faithful_nameId hf) rfl
  have hroot := hroot.restored hrw (PlanNode.faithful hf n) rfl
  have hpartitioning := hpartitioning.restored hrw (PartitioningHandle.faithful hf n) rfl
  have hscheme := hscheme.restored hrw (PartitioningScheme.faithful hf n) rfl
  exact ⟨id, hid, root, hroot, partitioning, hpartitioning, scheme, hscheme, rfl⟩

end QueryScope
