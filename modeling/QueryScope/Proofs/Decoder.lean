import QueryScope.Proofs.Json.WellFormed
import QueryScope.Wire.Decode

/-!
# The path comes back

Reading moves the path into the parts of a value, and an error leaves it wherever it is. That it is
nevertheless back where it was when a value has been read, accepted or not, is a property of every
step that reading is made of, and so of reading as a whole. The outcome can then be followed as if
every part were read at a path of its own.
-/

namespace QueryScope

variable {α β ε : Type} {reg : Registry}

namespace Decoder

/-- The outcome of reading from a path on. -/
def outcome (d : Decoder α) (p : Path) : Except DecodeError α := (d.runAt p).1

/-- Reading ends at the path at which it began, whatever the outcome. -/
def Restores (d : Decoder α) : Prop := ∀ p, (d.runAt p).2 = p

variable {d : Decoder α} {p : Path}

theorem Restores.runAt_eq (hd : d.Restores) : d.runAt p = (d.outcome p, p) :=
  Prod.ext rfl (hd p)

/-! ## Steps that restore the path -/

namespace Restores

theorem pure (a : α) : (Pure.pure a : Decoder α).Restores := by
  intro p
  rw [runAt_pure]

theorem fail (e : Path → DecodeError) : (Decoder.fail e : Decoder α).Restores := by
  intro p
  rw [runAt_fail]

theorem accept {e : Path → ε → DecodeError} {x : Except ε α} : (Decoder.accept e x).Restores := by
  intro p
  rw [runAt_accept]

theorem bind {f : α → Decoder β} (hd : d.Restores) (hf : ∀ a, (f a).Restores) :
    (d >>= f).Restores := by
  intro p
  rw [runAt_bind, hd.runAt_eq]
  cases d.outcome p with
  | ok a => exact hf a p
  | error e => rfl

theorem map (hd : d.Restores) (f : α → β) : (f <$> d).Restores := by
  intro p
  rw [runAt_map]
  exact hd p

/-- The step that was taken in is taken back, since reading the part has come back to it. -/
theorem inside (hd : d.Restores) {s : Path.Segment} : (Decoder.inside s d).Restores := by
  intro p
  rw [runAt_inside, hd (p.child s)]
  exact p.parent_child s

theorem adapt (hd : d.Restores) (f : DecodeError → DecodeError) :
    Decoder.Restores (ExceptT.adapt f d) := by
  intro p
  rw [runAt_adapt]
  exact hd p

end Restores

/-! ## Outcomes -/

theorem outcome_pure (a : α) : (pure a : Decoder α).outcome p = pure a := rfl

theorem outcome_accept (e : Path → ε → DecodeError) (x : Except ε α) :
    (accept e x).outcome p = x.mapError (e p) := by
  rw [outcome, runAt_accept]

theorem outcome_inside (s : Path.Segment) : (inside s d).outcome p = d.outcome (p.child s) := rfl

/-- What comes behind a step that restores the path is read where that step was read. -/
theorem outcome_bind (hd : d.Restores) (f : α → Decoder β) :
    (d >>= f).outcome p = d.outcome p >>= fun a => (f a).outcome p := by
  rw [outcome, runAt_bind, hd.runAt_eq]
  cases d.outcome p <;> rfl

theorem outcome_map (f : α → β) : (f <$> d).outcome p = f <$> d.outcome p := by
  rw [outcome, runAt_map, outcome]

end Decoder

/-! ## Reading restores the path -/

open Decoder (Restores)

/-- Whatever a value is read as, the path is restored. -/
def Reader.Restores (read : Reader) : Prop :=
  ∀ {α : Type} (c : Codec α), (read α c).Restores

theorem readItems_restores {items : List Reader} (h : ∀ read ∈ items, read.Restores) (c : Codec α)
    (n : Nat) : (readItems c n items).Restores := by
  induction items generalizing n with
  | nil => exact .pure []
  | cons read rest ih =>
    obtain ⟨hread, hrest⟩ := List.forall_mem_cons.mp h
    exact .bind (.inside (hread c)) fun _ => .bind (ih hrest (n + 1)) fun _ => .pure _

section

variable {members : List Member} (h : ∀ m ∈ members, m.read.Restores)

include h

theorem Fields.read_restores (fields : Fields α) : (fields.read members).Restores := by
  have hpart {name : String} {m : Member} (hm : presentMember? members name = some m)
      {β : Type} (c : Codec β) : (Decoder.inside (.field name) (m.read β c)).Restores := by
    refine Decoder.Restores.inside (h m ?_ c)
    unfold presentMember? at hm
    split at hm
    next m' hfind =>
      split at hm <;> cases hm
      exact List.mem_of_find?_eq_some hfind
    next => cases hm
  induction fields with
  | pure a => exact .pure a
  | required fields name c ih =>
    refine .bind ih fun build => ?_
    split
    next m hm => exact .bind (hpart hm c) fun b => .pure _
    next => exact .fail _
  | optional fields name c ih =>
    refine .bind ih fun build => ?_
    split
    next m hm => exact .bind (hpart hm c) fun b => .pure _
    next => exact .pure _
  | defaulted fields name c default ih =>
    refine .bind ih fun build => ?_
    split
    next m hm => exact .bind (hpart hm c) fun b => .pure _
    next => exact .pure _
  | verbatim fields name absent ih =>
    refine .bind ih fun build => ?_
    split
    next => exact .pure _
    next => exact .fail _

theorem Body.read_restores (b : Body α) (interfaces : Nat) :
    (b.read members interfaces).Restores := by
  induction b with
  | record fields =>
    rw [Body.read]
    exact fields.read_restores h
  | checked fields =>
    rw [Body.read]
    exact .bind (fields.read_restores h) fun _ => .accept
  | whenPresent key present absent ihp iha =>
    rw [Body.read]
    split
    · exact ihp
    · exact iha
  | memberless interface a =>
    cases members with
    | nil =>
      rw [Body.read]
      exact .pure a
    | cons m rest =>
      rw [Body.read]
      exact .fail _
  | custom read =>
    intro p
    rw [Body.read, Decoder.runAt_bind]
    exact Decoder.Restores.accept p

theorem readKeyed_restores (key : String → Except Reason β) (c : Codec α) :
    (readKeyed key c members).Restores := by
  induction members with
  | nil => exact .pure _
  | cons m rest ih =>
    obtain ⟨hm, hrest⟩ := List.forall_mem_cons.mp h
    have hentry : (Decoder.inside (.key m.key) do
        let k ← Decoder.accept .invalid (key m.key)
        return (k, ← m.read α c)).Restores :=
      .inside (.bind .accept fun k => .bind (hm c) fun a => .pure (k, a))
    exact .bind hentry fun _ => .bind (ih hrest) fun _ => .pure _

theorem readVariant_restores (i : Interface) : (readVariant reg i members).Restores := by
  unfold readVariant
  split
  · exact .fail _
  · split
    · exact .fail _
    next v _ => exact .adapt (v.body.read_restores h _) _

end

theorem Codec.readAt_restores {items : List Reader} {members : List Member}
    (hi : ∀ read ∈ items, read.Restores) (hm : ∀ m ∈ members, m.read.Restores) (v : Json)
    (c : Codec α) : (c.readAt reg v items members).Restores := by
  induction c with
  | scalar read => exact .accept
  | nullable c ih =>
    rw [readAt]
    split
    · exact .pure none
    · exact .map ih some
  | list c _ =>
    cases v with
    | array _ => exact readItems_restores hi c 0
    | _ => exact .fail _
  | keyed key c _ =>
    cases v with
    | object _ => exact readKeyed_restores hm key c
    | _ => exact .fail _
  | record r =>
    cases v with
    | object _ => exact r.body.read_restores hm _
    | _ => exact .fail _
  | interface i =>
    cases v with
    | object _ => exact readVariant_restores hm i
    | _ => exact .fail _

theorem readers_eq_map (items : List Json) : readers reg items = items.map (·.reader reg) := by
  induction items with
  | nil => rfl
  | cons v rest ih => rw [readers, ih, List.map_cons]

theorem memberReaders_eq_map (members : List (String × Json)) :
    memberReaders reg members = members.map fun m => ⟨m.1, m.2, m.2.reader reg⟩ := by
  induction members with
  | nil => rfl
  | cons m rest ih => rw [memberReaders, ih, List.map_cons]

theorem readers_restores {items : List Json} (h : ∀ w ∈ items, (w.reader reg).Restores) :
    ∀ read ∈ readers reg items, read.Restores := by
  intro read hread
  rw [readers_eq_map] at hread
  obtain ⟨w, hw, rfl⟩ := List.mem_map.mp hread
  exact h w hw

theorem memberReaders_restores {members : List (String × Json)}
    (h : ∀ m ∈ members, (m.2.reader reg).Restores) :
    ∀ m ∈ memberReaders reg members, m.read.Restores := by
  intro m hm
  rw [memberReaders_eq_map] at hm
  obtain ⟨e, he, rfl⟩ := List.mem_map.mp hm
  exact h e he

theorem Json.reader_eq_readAt (v : Json) (c : Codec α) :
    v.reader reg α c = c.readAt reg v (readers reg v.items) (memberReaders reg v.members) := by
  cases v <;> simp [reader, items, members, readers, memberReaders]

theorem Json.reader_restores (v : Json) : (v.reader reg).Restores := by
  induction v using induction_on with
  | step v ihItems ihMembers =>
    intro α c
    rw [reader_eq_readAt]
    exact c.readAt_restores (readers_restores ihItems) (memberReaders_restores ihMembers) v

/-- After a value has been decoded at a path, accepted or not, the path is the same again. -/
theorem Codec.run_eq (c : Codec α) (p : Path) (v : Json) :
    c.run reg p v = (c.decodeAt reg p v, p) :=
  (v.reader_restores c).runAt_eq

end QueryScope
