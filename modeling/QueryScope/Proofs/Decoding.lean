import QueryScope.Proofs.Decoder
import QueryScope.Wire.Standard

/-!
# What reading does, step by step

The readers of a value's parts are given up again: every description is unfolded into the readings
of the parts at their paths. Reading a field comes in three kinds, which differ only in what stands
for an absent value.
-/

namespace QueryScope

open Decoder (accept inside outcome_pure outcome_accept outcome_bind outcome_inside outcome_map)

variable {α β γ : Type} {reg : Registry} {p : Path}

/-! ## Outcomes -/

section Except

universe u

variable {ε ε' : Type} {α β : Type u}

theorem bind_eq_ok_iff {x : Except ε α} {f : α → Except ε β} {b : β} :
    x >>= f = .ok b ↔ ∃ a, x = .ok a ∧ f a = .ok b := by
  cases x <;> simp [bind, Except.bind]

theorem bind_eq_error_iff {x : Except ε α} {f : α → Except ε β} {e : ε} :
    x >>= f = .error e ↔ x = .error e ∨ ∃ a, x = .ok a ∧ f a = .error e := by
  cases x <;> simp [bind, Except.bind]

theorem map_eq_ok_iff {x : Except ε α} {f : α → β} {b : β} :
    f <$> x = .ok b ↔ ∃ a, x = .ok a ∧ f a = b := by
  cases x <;> simp [Functor.map, Except.map]

theorem map_eq_error_iff {x : Except ε α} {f : α → β} {e : ε} :
    f <$> x = .error e ↔ x = .error e := by
  cases x <;> simp [Functor.map, Except.map]

theorem mapError_eq_ok_iff {x : Except ε α} {f : ε → ε'} {a : α} :
    x.mapError f = .ok a ↔ x = .ok a := by
  cases x <;> simp [Except.mapError]

theorem mapError_eq_error_iff {x : Except ε α} {f : ε → ε'} {e : ε'} :
    x.mapError f = .error e ↔ ∃ e', x = .error e' ∧ f e' = e := by
  cases x <;> simp [Except.mapError]

end Except

/-! ## Readers of the parts -/

theorem find?_memberReaders (members : List (String × Json)) (name : String) :
    (memberReaders reg members).find? (·.key == name) =
      (Json.lookup members name).map fun v => ⟨name, v, v.reader reg⟩ := by
  induction members with
  | nil => rfl
  | cons m rest ih =>
    rw [memberReaders, Json.lookup_cons, List.find?_cons]
    by_cases h : m.1 = name
    · simp [h]
    · rw [beq_false_of_ne h, if_neg h, ih]

theorem presentMember?_memberReaders (members : List (String × Json)) (name : String) :
    presentMember? (memberReaders reg members) name =
      (Json.present? members name).map fun v => ⟨name, v, v.reader reg⟩ := by
  rw [presentMember?, find?_memberReaders, Json.present?]
  cases hl : Json.lookup members name with
  | none => rfl
  | some v => cases hn : v.isNull <;> simp [Option.filter, hn]

@[simp] theorem memberReaders_keys (members : List (String × Json)) :
    (memberReaders reg members).map (fun m => (m.key, m.value)) = members := by
  rw [memberReaders_eq_map, List.map_map]
  exact List.map_id' members

theorem Codec.decodeAt_eq_readAt (c : Codec α) (v : Json) :
    c.decodeAt reg p v =
      (c.readAt reg v (readers reg v.items) (memberReaders reg v.members)).outcome p := by
  rw [← v.reader_eq_readAt]
  rfl

/-! ## Lists and maps -/

/-- Decode the items of an array from a position on. -/
def Codec.decodeItems (c : Codec α) (reg : Registry) (p : Path) :
    (position : Nat) → List Json → Except DecodeError (List α)
  | _, [] => .ok []
  | n, v :: rest => do
    let a ← c.decodeAt reg (p.child (.index n)) v
    return a :: (← c.decodeItems reg p (n + 1) rest)

/-- Decode the members of an object whose keys are data. -/
def Codec.decodeKeyed (key : String → Except Reason β) (c : Codec α) (reg : Registry) (p : Path) :
    List (String × Json) → Except DecodeError (List (β × α))
  | [] => .ok []
  | (name, v) :: rest => do
    let k ← (key name).mapError (.invalid (p.child (.key name)))
    let a ← c.decodeAt reg (p.child (.key name)) v
    return (k, a) :: (← decodeKeyed key c reg p rest)

theorem readItems_readers (c : Codec α) (items : List Json) (n : Nat) :
    (readItems c n (readers reg items)).outcome p = c.decodeItems reg p n items := by
  induction items generalizing n with
  | nil => rfl
  | cons v rest ih =>
    have hv : (inside (.index n) (v.reader reg α c)).Restores := .inside (v.reader_restores c)
    have hrest : (readItems c (n + 1) (readers reg rest)).Restores :=
      readItems_restores (readers_restores fun w _ => w.reader_restores) c (n + 1)
    rw [readers, readItems, outcome_bind hv, Codec.decodeItems]
    refine congrArg _ (funext fun a => ?_)
    rw [outcome_bind hrest, ih]
    rfl

theorem readKeyed_memberReaders (key : String → Except Reason β) (c : Codec α)
    (members : List (String × Json)) :
    (readKeyed key c (memberReaders reg members)).outcome p = c.decodeKeyed key reg p members := by
  induction members with
  | nil => rfl
  | cons m rest ih =>
    obtain ⟨name, v⟩ := m
    have hkey : (accept .invalid (key name)).Restores := .accept
    have hv : (v.reader reg α c).Restores := v.reader_restores c
    have hrest : (readKeyed key c (memberReaders reg rest)).Restores :=
      readKeyed_restores (memberReaders_restores fun m _ => m.2.reader_restores) key c
    rw [memberReaders, readKeyed, Codec.decodeKeyed,
      outcome_bind (.inside (.bind hkey fun _ => .bind hv fun _ => .pure _)), outcome_inside,
      outcome_bind hkey, outcome_accept]
    simp only [outcome_bind hv, outcome_bind hrest, outcome_pure, bind_assoc, pure_bind, ih]
    rfl

/-! ## Descriptions -/

theorem Codec.decodeAt_scalar (read : Json → Except Refusal α) (v : Json) :
    (Codec.scalar read).decodeAt reg p v = (read v).mapError (.refused p) := by
  rw [decodeAt_eq_readAt, readAt, outcome_accept]

theorem Codec.decodeAt_nullable (c : Codec α) (v : Json) :
    c.nullable.decodeAt reg p v = if v.isNull then .ok none else some <$> c.decodeAt reg p v := by
  rw [decodeAt_eq_readAt, readAt, decodeAt_eq_readAt]
  split
  · rfl
  · rw [outcome_map]

theorem Codec.decodeAt_list (c : Codec α) (v : Json) :
    c.list.decodeAt reg p v = match v with
      | .array items => c.decodeItems reg p 0 items
      | _ => .error (.malformed p (.mismatch "array" v.kind)) := by
  cases v with
  | array items =>
    rw [decodeAt_eq_readAt]
    exact readItems_readers c items 0
  | _ => rfl

theorem Codec.decodeAt_keyed (key : String → Except Reason β) (c : Codec α) (v : Json) :
    (Codec.keyed key c).decodeAt reg p v = match v with
      | .object members => c.decodeKeyed key reg p members
      | _ => .error (.malformed p (.mismatch "object" v.kind)) := by
  cases v with
  | object members =>
    rw [decodeAt_eq_readAt]
    exact readKeyed_memberReaders key c members
  | _ => rfl

/-- Decode the object of a record or of a variant at a path. -/
def Body.decodeAt (b : Body α) (reg : Registry) (p : Path) (members : List (String × Json)) :
    Except DecodeError α :=
  (b.read (memberReaders reg members) reg.interfaceCount).outcome p

theorem Codec.decodeAt_record (r : Record) (v : Json) :
    (Codec.record r).decodeAt reg p v = match v with
      | .object members => r.body.decodeAt reg p members
      | _ => .error (.malformed p (.mismatch "object" v.kind)) := by
  cases v <;> rfl

/-- Decode the object of an interface at a path. -/
def Interface.decodeAt (i : Interface) (reg : Registry) (p : Path)
    (members : List (String × Json)) : Except DecodeError i.Value :=
  match reg.table? i with
  | none => .error ⟨p, .unknownVariant i.name .nothingRegistered⟩
  | some t =>
    match t.select members with
    | .error fault => .error ⟨p, fault⟩
    | .ok v => (v.body.decodeAt reg p members).mapError (.within ⟨i.name, v.name⟩)

theorem Codec.decodeAt_interface (i : Interface) (v : Json) :
    (Codec.interface i).decodeAt reg p v = match v with
      | .object members => i.decodeAt reg p members
      | _ => .error (.malformed p (.mismatch "object" v.kind)) := by
  cases v with
  | object members =>
    rw [decodeAt_eq_readAt, readAt, readVariant, Json.members, memberReaders_keys]
    unfold Interface.decodeAt
    cases reg.table? i with
    | none => rfl
    | some t => cases ht : t.select members <;> simp only [ht] <;> rfl
  | _ => rfl

/-! ## Fields -/

/-- Decode what stands under a name; `absent` is the outcome without a value. -/
def Codec.decodeField (c : Codec β) (reg : Registry) (p : Path) (members : List (String × Json))
    (name : String) (found : β → γ) (absent : Except DecodeError γ) : Except DecodeError γ :=
  match Json.present? members name with
  | some v => found <$> c.decodeAt reg (p.child (.field name)) v
  | none => absent

/-- Decode fields of the object at a path, in order. -/
abbrev Fields.decodeAt (fields : Fields α) (reg : Registry) (p : Path)
    (members : List (String × Json)) : Except DecodeError α :=
  (fields.read (memberReaders reg members)).outcome p

variable {members : List (String × Json)} {name : String}

/-- Reading fields restores the path, so that what comes behind them is read where they are. -/
theorem Fields.outcome_bind (fields : Fields α) (f : α → Decoder β) :
    (fields.read (memberReaders reg members) >>= f).outcome p =
      fields.decodeAt reg p members >>= fun a => (f a).outcome p :=
  Decoder.outcome_bind
    (fields.read_restores (memberReaders_restores fun m _ => m.2.reader_restores)) f

/-- Reading a part and putting it to use decodes the part one step further in. -/
theorem Codec.outcome_inside (c : Codec β) (s : Path.Segment) (v : Json) (f : β → γ) :
    (inside s (v.reader reg β c) >>= fun b => pure (f b)).outcome p =
      c.decodeAt reg (p.child s) v >>= fun b => pure (f b) :=
  Decoder.outcome_bind (.inside (v.reader_restores c)) _

theorem Fields.decodeAt_pure (a : α) : (Fields.pure a).decodeAt reg p members = .ok a := rfl

theorem Fields.decodeAt_required (fields : Fields (β → α)) (c : Codec β) :
    (fields.required name c).decodeAt reg p members = (do
      let build ← fields.decodeAt reg p members
      let b ← c.decodeField reg p members name id (.error (.ofField p ⟨name, .missing⟩))
      return build b) := by
  rw [Fields.decodeAt, Fields.read, Fields.outcome_bind]
  refine congrArg _ (funext fun build => ?_)
  rw [presentMember?_memberReaders, Codec.decodeField]
  cases Json.present? members name with
  | none => rfl
  | some v => simp only [Option.map_some, Codec.outcome_inside, id_map]

theorem Fields.decodeAt_optional (fields : Fields (Option β → α)) (c : Codec β) :
    (fields.optional name c).decodeAt reg p members = (do
      let build ← fields.decodeAt reg p members
      let b ← c.decodeField reg p members name some (.ok none)
      return build b) := by
  rw [Fields.decodeAt, Fields.read, Fields.outcome_bind]
  refine congrArg _ (funext fun build => ?_)
  rw [presentMember?_memberReaders, Codec.decodeField]
  cases Json.present? members name with
  | none => rfl
  | some v => simp only [Option.map_some, Codec.outcome_inside, bind_map_left]

theorem Fields.decodeAt_defaulted (fields : Fields (β → α)) (c : Codec β) (default : β) :
    (fields.defaulted name c default).decodeAt reg p members = (do
      let build ← fields.decodeAt reg p members
      let b ← c.decodeField reg p members name id (.ok default)
      return build b) := by
  rw [Fields.decodeAt, Fields.read, Fields.outcome_bind]
  refine congrArg _ (funext fun build => ?_)
  rw [presentMember?_memberReaders, Codec.decodeField]
  cases Json.present? members name with
  | none => rfl
  | some v => simp only [Option.map_some, Codec.outcome_inside, id_map]

theorem Fields.decodeAt_verbatim (fields : Fields (Json → α)) (absent : Malformation) :
    (fields.verbatim name absent).decodeAt reg p members = (do
      let build ← fields.decodeAt reg p members
      match Json.lookup members name with
      | some v => return build v
      | none => .error (.malformed p absent)) := by
  rw [Fields.decodeAt, Fields.read, Fields.outcome_bind]
  refine congrArg _ (funext fun build => ?_)
  rw [find?_memberReaders]
  cases Json.lookup members name <;> rfl

/-! ## Bodies -/

theorem Body.decodeAt_record (fields : Fields α) :
    (Body.record fields).decodeAt reg p members = fields.decodeAt reg p members := by
  rw [decodeAt, read]

theorem Body.decodeAt_checked (fields : Fields (Except FieldFault α)) :
    (Body.checked fields).decodeAt reg p members = (do
      let checked ← fields.decodeAt reg p members
      checked.mapError (.ofField p)) := by
  rw [decodeAt, read, Fields.outcome_bind]
  simp only [outcome_accept]

theorem Body.decodeAt_whenPresent (key : String) (present absent : Body α) :
    (Body.whenPresent key present absent).decodeAt reg p members =
      if hasKey members key then present.decodeAt reg p members
      else absent.decodeAt reg p members := by
  have hany : (memberReaders reg members).any (·.key == key) = hasKey members key := by
    rw [memberReaders_eq_map, List.any_map]
    rfl
  rw [decodeAt, read, hany]
  split <;> rfl

theorem Body.decodeAt_memberless (interface : String) (a : α) :
    (Body.memberless interface a).decodeAt reg p members =
      if members = [] then .ok a
      else .error ⟨p, .unknownVariant interface (.keys (members.map Prod.fst))⟩ := by
  cases members with
  | nil =>
    rw [decodeAt, memberReaders, read, if_pos rfl]
    rfl
  | cons m rest =>
    rw [decodeAt, memberReaders_eq_map, List.map_cons, read, if_neg (List.cons_ne_nil _ _),
      List.map_cons, List.map_map]
    rfl

end QueryScope
