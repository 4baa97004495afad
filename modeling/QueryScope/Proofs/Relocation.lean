import QueryScope.Proofs.Decoding
import QueryScope.Proofs.Selection

/-!
# Reading at another place

Reading a value at a path further in does what reading it at the root does, with the path in front
of that of an error. Only a fault that lies in no field of the value takes another name, that of the
innermost field of the path. This holds of every registry without readers that clients define.
-/

namespace QueryScope

variable {α β γ : Type} {reg : Registry} {p q : Path}

namespace Path

@[simp] theorem append_root (p : Path) : p.append .root = p := by
  simp [append, root]

theorem append_child (p q : Path) (s : Segment) :
    p.append (q.child s) = (p.append q).child s := by
  simp [append, child]

/-- Whether some step of the path leads into a field. -/
def hasField (p : Path) : Bool :=
  p.segments.any (·.fieldName?.isSome)

theorem currentField_append (p q : Path) :
    (p.append q).currentField = if q.hasField then q.currentField else p.currentField := by
  unfold currentField append
  rw [List.reverse_append, List.findSome?_append]
  cases hq : q.segments.reverse.findSome? Segment.fieldName? with
  | some name =>
    obtain ⟨s, hs, hname⟩ := List.exists_of_findSome?_eq_some hq
    have : q.hasField = true := List.any_eq_true.mpr ⟨s, List.mem_reverse.mp hs, by simp [hname]⟩
    rw [if_pos this]
    rfl
  | none =>
    rw [List.findSome?_eq_none_iff] at hq
    have : q.hasField = false := by
      refine List.any_eq_false.mpr fun s hs => ?_
      simp [hq s (List.mem_reverse.mpr hs)]
    rw [this, Option.none_or]
    rfl

@[simp] theorem hasField_child_field (p : Path) (name : String) :
    (p.child (.field name)).hasField = true := by
  simp [hasField, child, Segment.fieldName?]

end Path

/-- The error of the same value at another place. -/
def DecodeError.relocate (p : Path) (e : DecodeError) : DecodeError where
  path := p.append e.path
  fault := match e.fault with
    | .validation fault v =>
      .validation ⟨if e.path.hasField then fault.field else p.currentField, fault.reason⟩ v
    | fault => fault

namespace DecodeError

theorem relocate_invalid (p q : Path) (reason : Reason) :
    (invalid q reason).relocate p = invalid (p.append q) reason := by
  simp only [relocate, invalid, Path.currentField_append]
  rfl

theorem relocate_refused (p q : Path) (r : Refusal) :
    (refused q r).relocate p = refused (p.append q) r := by
  cases r with
  | malformed m => rfl
  | invalid reason => exact relocate_invalid p q reason

theorem relocate_ofField (p q : Path) (fault : FieldFault) :
    (ofField q fault).relocate p = ofField (p.append q) fault := by
  simp only [relocate, ofField, Path.hasField_child_field, if_true, Path.append_child]

theorem relocate_within (p : Path) (v : VariantRef) (e : DecodeError) :
    (e.within v).relocate p = (e.relocate p).within v := by
  obtain ⟨path, fault⟩ := e
  cases fault with
  | validation fault variant => cases variant <;> rfl
  | _ => rfl

/-- A fault of a field comes from one with the same reason, in the same variant; only a fault that
lies in no field is renamed. -/
theorem relocate_validation {e : DecodeError} {fault : FieldFault} {variant : Option VariantRef}
    (h : (e.relocate p).fault = .validation fault variant) :
    ∃ fault', e.fault = .validation fault' variant ∧ fault.reason = fault'.reason ∧
      fault.field = if e.path.hasField then fault'.field else p.currentField := by
  obtain ⟨path, efault⟩ := e
  cases efault with
  | validation fault' variant' =>
    cases h
    exact ⟨fault', rfl, rfl, rfl⟩
  | _ => cases h

end DecodeError

/-- The body is described by fields and checks alone. -/
inductive Body.Described : {α : Type} → Body α → Prop where
  /-- Fields. -/
  | record {α : Type} (fields : Fields α) : Described (.record fields)
  /-- Fields with a check. -/
  | checked {α : Type} (fields : Fields (Except FieldFault α)) : Described (.checked fields)
  /-- One of two such bodies. -/
  | whenPresent {α : Type} (key : String) {present absent : Body α} (hp : present.Described)
      (ha : absent.Described) : Described (.whenPresent key present absent)
  /-- The empty object. -/
  | memberless {α : Type} (interface : String) (a : α) : Described (.memberless interface a)

/-- No variant is read in a way that a client defines. -/
def Registry.Described (reg : Registry) : Prop :=
  ∀ i t, reg.table? i = some t → ∀ v ∈ t.variants, v.body.Described

theorem Record.body_described (r : Record) : r.body.Described := by
  cases r with
  | argumentBinding => exact .whenPresent _ (.record _) (.record _)
  | _ => constructor

/-! ## The relocated run -/

section Relocation

/-- The outcomes of reading at two places are the same, up to the place of an error. -/
abbrev Relocates (p : Path) (there here : Except DecodeError α) : Prop :=
  there = here.mapError (.relocate p)

theorem Relocates.bind {x y : Except DecodeError α} {f g : α → Except DecodeError β}
    (hx : Relocates p x y) (hf : ∀ a, Relocates p (f a) (g a)) :
    Relocates p (x >>= f) (y >>= g) := by
  subst hx
  cases y with
  | ok a => exact hf a
  | error e => rfl

theorem Relocates.map {x y : Except DecodeError α} (f : α → β) (hx : Relocates p x y) :
    Relocates p (f <$> x) (f <$> y) := by
  subst hx
  cases y <;> rfl

variable {members : List (String × Json)}

/-- Reading the value at another place goes the same way. -/
def Relocatable (reg : Registry) (v : Json) : Prop :=
  ∀ {α : Type} (c : Codec α) (p q : Path),
    Relocates p (c.decodeAt reg (p.append q) v) (c.decodeAt reg q v)

theorem decodeItems_relocates {items : List Json} (h : ∀ w ∈ items, Relocatable reg w)
    (c : Codec α) (n : Nat) :
    Relocates p (c.decodeItems reg (p.append q) n items) (c.decodeItems reg q n items) := by
  induction items generalizing n with
  | nil => rfl
  | cons v rest ih =>
    simp only [Codec.decodeItems]
    refine .bind ?_ fun a => .bind (ih (fun w hw => h w (List.mem_cons_of_mem _ hw)) _) fun _ => rfl
    rw [← Path.append_child]
    exact h v List.mem_cons_self c p _

theorem decodeKeyed_relocates (h : ∀ m ∈ members, Relocatable reg m.2)
    (key : String → Except Reason β) (c : Codec α) :
    Relocates p (c.decodeKeyed key reg (p.append q) members) (c.decodeKeyed key reg q members) := by
  induction members with
  | nil => rfl
  | cons m rest ih =>
    obtain ⟨name, v⟩ := m
    simp only [Codec.decodeKeyed]
    refine .bind ?_ fun k => .bind ?_ fun a =>
      .bind (ih fun w hw => h w (List.mem_cons_of_mem _ hw)) fun _ => rfl
    · rw [← Path.append_child]
      cases key name with
      | ok k => rfl
      | error r => simp only [Except.mapError, Relocates, DecodeError.relocate_invalid]
    · rw [← Path.append_child]
      exact h (name, v) List.mem_cons_self c p _

theorem decodeField_relocates (h : ∀ m ∈ members, Relocatable reg m.2) (c : Codec β)
    (name : String) (found : β → γ) {absent absent' : Except DecodeError γ}
    (ha : Relocates p absent absent') :
    Relocates p (c.decodeField reg (p.append q) members name found absent)
      (c.decodeField reg q members name found absent') := by
  unfold Codec.decodeField
  cases hv : Json.present? members name with
  | none => exact ha
  | some v =>
    have hm := Json.mem_of_lookup (Json.present?_eq_some_iff.mp hv).1
    rw [← Path.append_child]
    exact .map found (h _ hm c p _)

theorem Fields.decodeAt_relocates (h : ∀ m ∈ members, Relocatable reg m.2) (fields : Fields α) :
    Relocates p (fields.decodeAt reg (p.append q) members) (fields.decodeAt reg q members) := by
  induction fields with
  | pure a => rfl
  | required fields name c ih =>
    rw [decodeAt_required, decodeAt_required]
    refine ih.bind fun build => .bind (decodeField_relocates h c name id ?_) fun _ => rfl
    simp only [Relocates, Except.mapError, DecodeError.relocate_ofField]
  | optional fields name c ih =>
    rw [decodeAt_optional, decodeAt_optional]
    exact ih.bind fun build => .bind (decodeField_relocates h c name some rfl) fun _ => rfl
  | defaulted fields name c default ih =>
    rw [decodeAt_defaulted, decodeAt_defaulted]
    exact ih.bind fun build => .bind (decodeField_relocates h c name id rfl) fun _ => rfl
  | verbatim fields name absent ih =>
    rw [decodeAt_verbatim, decodeAt_verbatim]
    refine ih.bind fun build => ?_
    cases Json.lookup members name <;> rfl

theorem Body.decodeAt_relocates (h : ∀ m ∈ members, Relocatable reg m.2) {b : Body α}
    (hb : b.Described) :
    Relocates p (b.decodeAt reg (p.append q) members) (b.decodeAt reg q members) := by
  induction hb with
  | record fields =>
    rw [decodeAt_record, decodeAt_record]
    exact fields.decodeAt_relocates h
  | checked fields =>
    rw [decodeAt_checked, decodeAt_checked]
    refine (fields.decodeAt_relocates h).bind fun checked => ?_
    cases checked with
    | ok a => rfl
    | error fault => simp only [Relocates, Except.mapError, DecodeError.relocate_ofField]
  | whenPresent key _ _ ihp iha =>
    rw [decodeAt_whenPresent, decodeAt_whenPresent]
    split
    · exact ihp
    · exact iha
  | memberless interface a =>
    rw [decodeAt_memberless, decodeAt_memberless]
    split <;> rfl

theorem Interface.decodeAt_relocates (hreg : reg.Described)
    (h : ∀ m ∈ members, Relocatable reg m.2) (i : Interface) :
    Relocates p (i.decodeAt reg (p.append q) members) (i.decodeAt reg q members) := by
  unfold Interface.decodeAt
  cases ht : reg.table? i with
  | none => rfl
  | some t =>
    simp only
    cases hs : t.select members with
    | error fault =>
      cases fault with
      | validation e v => exact absurd rfl (VariantTable.select_error hs e v)
      | _ => rfl
    | ok v =>
      have hv := hreg i t ht v (VariantTable.mem_of_select_ok hs)
      simp only [Body.decodeAt_relocates h hv]
      cases v.body.decodeAt reg q members with
      | ok a => rfl
      | error e => simp only [Relocates, Except.mapError, DecodeError.relocate_within]

theorem relocatable (hreg : reg.Described) (v : Json) : Relocatable reg v := by
  induction v using Json.induction_on with
  | step v ihi ihm =>
    intro α c p q
    induction c with
    | scalar read =>
      rw [Codec.decodeAt_scalar, Codec.decodeAt_scalar]
      cases read v with
      | ok a => rfl
      | error r => simp only [Relocates, Except.mapError, DecodeError.relocate_refused]
    | nullable c ih =>
      rw [Codec.decodeAt_nullable, Codec.decodeAt_nullable]
      split
      · rfl
      · exact .map some ih
    | list c _ =>
      rw [Codec.decodeAt_list, Codec.decodeAt_list]
      cases v with
      | array items => exact decodeItems_relocates ihi c 0
      | _ => rfl
    | keyed key c _ =>
      rw [Codec.decodeAt_keyed, Codec.decodeAt_keyed]
      cases v with
      | object members => exact decodeKeyed_relocates ihm key c
      | _ => rfl
    | record r =>
      rw [Codec.decodeAt_record, Codec.decodeAt_record]
      cases v with
      | object members => exact Body.decodeAt_relocates ihm r.body_described
      | _ => rfl
    | interface i =>
      rw [Codec.decodeAt_interface, Codec.decodeAt_interface]
      cases v with
      | object members => exact i.decodeAt_relocates hreg ihm
      | _ => rfl

end Relocation

end QueryScope
