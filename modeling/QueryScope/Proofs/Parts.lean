import QueryScope.Proofs.Entries

/-!
# The parts of a value

Decoding a value comes to its parts one after the other, as long as everything before is accepted.
There is at most one part behind every step, and it is an item or a member of the value.
-/

namespace QueryScope

open QueryScope.Path (Segment)

variable {α β : Type} {c : Codec α} {v : Json} {members : List (String × Json)} {s : Segment}

/-! ## Parts -/

/-- A value with the description as which it is read. -/
structure Part where
  /-- The type of what it is read as. -/
  {type : Type}
  /-- The description. -/
  codec : Codec type
  /-- The value. -/
  value : Json

variable {part part' : Part}

/-- The fields are accepted. -/
def Fields.Accepts (fields : Fields α) (members : List (String × Json)) : Prop :=
  fields.Yields members fun _ => True

/-- Reading the fields in order comes to the part behind a step. -/
def Fields.ComesTo (members : List (String × Json)) (s : Segment) (part : Part) :
    {α : Type} → Fields α → Prop
  | _, .pure _ => False
  | _, .required fields name c | _, .optional fields name c | _, .defaulted fields name c _ =>
    fields.ComesTo members s part ∨ fields.Accepts members ∧ s = .field name ∧
      ∃ v, Json.present? members name = some v ∧ part = ⟨c, v⟩
  | _, .verbatim fields _ _ => fields.ComesTo members s part

/-- Reading an object comes to the part behind a step. -/
def Body.ComesTo (members : List (String × Json)) (s : Segment) (part : Part) : Body α → Prop
  | .record fields | .checked fields => fields.ComesTo members s part
  | .whenPresent key present absent =>
    if hasKey members key then present.ComesTo members s part
    else absent.ComesTo members s part
  | .memberless _ _ | .custom _ => False

/-- Decoding a value comes to the part behind a step: whatever is read before is accepted, and at an
abstract position a variant is chosen. -/
def Codec.ComesTo (v : Json) (s : Segment) (part : Part) : {α : Type} → Codec α → Prop
  | _, .scalar _ => False
  | _, .nullable c => v.isNull = false ∧ c.ComesTo v s part
  | _, .list c => ∃ before w after, v = .array (before ++ w :: after) ∧
      (∀ u ∈ before, c.Accepts u) ∧ s = .index before.length ∧ part = ⟨c, w⟩
  | _, .keyed key c => ∃ before m after, v = .object (before ++ m :: after) ∧
      (∀ m' ∈ before, ∃ entry, c.ReadsEntry key m' entry) ∧ (∃ k, key m.1 = .ok k) ∧
        s = .key m.1 ∧ part = ⟨c, m.2⟩
  | _, .record r => ∃ members, v = .object members ∧ r.body.ComesTo members s part
  | _, .interface i => ∃ members w, v = .object members ∧ i.variant? members = some w ∧
      w.body.ComesTo members s part

/-- The variant that decoding the value enters, when the value is an object at an abstract
position. -/
def Codec.entered? (v : Json) : {α : Type} → Codec α → Option VariantRef
  | _, .nullable c => if v.isNull then none else c.entered? v
  | _, .interface i =>
    match v with
    | .object members => (i.variant? members).map fun w => ⟨i.name, w.name⟩
    | _ => none
  | _, _ => none

/-! ## One part behind each step -/

/-- A part of an object stands under one of the fields that are read. -/
theorem Fields.ComesTo.entry {fields : Fields α} (h : fields.ComesTo members s part) :
    ∃ entry ∈ fields.entries, s = .field entry.name ∧
      ∃ v, Json.present? members entry.name = some v ∧ part = ⟨entry.codec, v⟩ := by
  induction fields with
  | pure a => exact h.elim
  | required fields name c ih | optional fields name c ih | defaulted fields name c _ ih =>
    rcases h with h | ⟨-, hs, hpart⟩
    · obtain ⟨entry, hentry, hrest⟩ := ih h
      exact ⟨entry, List.mem_append_left _ hentry, hrest⟩
    · exact ⟨⟨name, c⟩, by simp [entries], hs, hpart⟩
  | verbatim fields name _ ih =>
    obtain ⟨entry, hentry, hrest⟩ := ih h
    exact ⟨entry, List.mem_append_left _ hentry, hrest⟩

theorem Body.ComesTo.entry {b : Body α} (h : b.ComesTo members s part) :
    ∃ entry ∈ b.entries members, s = .field entry.name ∧
      ∃ v, Json.present? members entry.name = some v ∧ part = ⟨entry.codec, v⟩ := by
  induction b with
  | record fields | checked fields =>
    rw [ComesTo] at h
    rw [entries]
    exact h.entry
  | whenPresent key present absent ihp iha =>
    rw [ComesTo] at h
    by_cases hkey : hasKey members key = true
    · rw [if_pos hkey] at h
      rw [entries, if_pos hkey]
      exact ihp h
    · rw [if_neg hkey] at h
      rw [entries, if_neg hkey]
      exact iha h
  | memberless _ _ | custom _ =>
    rw [ComesTo] at h
    exact h.elim

theorem Body.ComesTo.unique {b : Body α} (hb : b.isRegular = true)
    (h : b.ComesTo members s part) (h' : b.ComesTo members s part') : part = part' := by
  obtain ⟨entry, hentry, rfl, w, hw, rfl⟩ := h.entry
  obtain ⟨entry', hentry', hs, w', hw', rfl⟩ := h'.entry
  have hname : entry.name = entry'.name := by injection hs
  obtain rfl : entry = entry' :=
    List.inj_on_of_nodup_map (Body.entries_regular hb).1 hentry hentry' hname
  rw [hw] at hw'
  cases hw'
  rfl

theorem Codec.ComesTo.unique (hv : v.WellFormed) (h : c.ComesTo v s part)
    (h' : c.ComesTo v s part') : part = part' := by
  induction c with
  | scalar read => exact h.elim
  | nullable c ih => exact ih h.2 h'.2
  | list c _ =>
    obtain ⟨before, w, after, rfl, -, rfl, rfl⟩ := h
    obtain ⟨before', w', after', heq, -, hs, rfl⟩ := h'
    have hitems : before ++ w :: after = before' ++ w' :: after' := by injection heq
    have hlength : before.length = before'.length := by injection hs
    obtain ⟨-, hrest⟩ := List.append_inj hitems hlength
    cases hrest
    rfl
  | keyed key c _ =>
    obtain ⟨before, m, after, rfl, -, -, rfl, rfl⟩ := h
    obtain ⟨before', m', after', heq, -, -, hs, rfl⟩ := h'
    have hmembers : before ++ m :: after = before' ++ m' :: after' := by injection heq
    have hkey : m.1 = m'.1 := by injection hs
    -- the keys of an object are distinct
    have hm : m = m' := List.inj_on_of_nodup_map hv.nodup (by simp) (by simp [hmembers]) hkey
    rw [hm]
  | record r =>
    obtain ⟨members, rfl, h⟩ := h
    obtain ⟨members', heq, h'⟩ := h'
    cases heq
    exact h.unique r.body_isRegular h'
  | interface i =>
    obtain ⟨members, w, rfl, hw, h⟩ := h
    obtain ⟨members', w', heq, hw', h'⟩ := h'
    cases heq
    rw [hw] at hw'
    cases hw'
    exact h.unique (i.variants_isRegular w (Interface.mem_variants_of_variant? hw)) h'

/-- A part is an item or a member of the value. -/
theorem Codec.ComesTo.inside (h : c.ComesTo v s part) :
    part.value ∈ v.items ∨ ∃ m ∈ v.members, m.2 = part.value := by
  have hbody {β : Type} {b : Body β} {members : List (String × Json)}
      (h : b.ComesTo members s part) : ∃ m ∈ members, m.2 = part.value := by
    obtain ⟨entry, -, -, w, hw, rfl⟩ := h.entry
    exact ⟨(entry.name, w), Json.mem_of_lookup (Json.present?_eq_some_iff.mp hw).1, rfl⟩
  induction c with
  | scalar read => exact h.elim
  | nullable c ih => exact ih h.2
  | list c _ =>
    obtain ⟨before, w, after, rfl, -, -, rfl⟩ := h
    exact Or.inl (List.mem_append_right before List.mem_cons_self)
  | keyed key c _ =>
    obtain ⟨before, m, after, rfl, -, -, -, rfl⟩ := h
    exact Or.inr ⟨m, List.mem_append_right before List.mem_cons_self, rfl⟩
  | record r =>
    obtain ⟨members, rfl, h⟩ := h
    exact Or.inr (hbody h)
  | interface i =>
    obtain ⟨members, w, rfl, -, h⟩ := h
    exact Or.inr (hbody h)

/-- To prove a property of all values, prove it of a value whose parts have it. -/
theorem Json.part_induction {motive : Json → Prop} (v : Json)
    (step : ∀ v, (∀ {α : Type} (c : Codec α) s part, c.ComesTo v s part → motive part.value) →
      motive v) : motive v := by
  induction v using Json.induction_on with
  | step v ihItems ihMembers =>
    refine step v fun c s part h => ?_
    rcases h.inside with hitem | ⟨m, hm, heq⟩
    · exact ihItems _ hitem
    · exact heq ▸ ihMembers m hm

theorem Json.WellFormed.of_comesTo (hv : v.WellFormed) (h : c.ComesTo v s part) :
    part.value.WellFormed := by
  rcases h.inside with hitem | ⟨m, hm, heq⟩
  · exact hv.item hitem
  · exact heq ▸ hv.member hm

end QueryScope
