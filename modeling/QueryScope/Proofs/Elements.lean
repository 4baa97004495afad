import QueryScope.Proofs.ErrorOrigin

/-!
# Element by element

A value is decoded in the same way wherever it stands. Only its errors tell: they have the path of
the value in front, and a fault that would be reported of the root is reported of the innermost
field of that path. Lists and maps therefore decode as their elements do, each on its own.
-/

namespace QueryScope

open QueryScope.Path (Segment)

variable {α : Type} {c : Codec α} {v : Json} {e : DecodeError} {p : Path} {s : Segment}
  {part : Part} {members : List (String × Json)}

/-! ## Names of fields -/

namespace Path

theorem currentField_of_not_hasField (h : p.hasField = false) : p.currentField = rootField := by
  have happend := currentField_append root p
  rw [h] at happend
  exact happend

theorem currentField_of_hasField (h : p.hasField = true) :
    .field p.currentField ∈ p.segments := by
  have hsome : ∃ name, p.segments.reverse.findSome? Segment.fieldName? = some name := by
    obtain ⟨s, hs, hname⟩ := List.any_eq_true.mp h
    obtain ⟨name, hname⟩ := Option.isSome_iff_exists.mp hname
    rw [← Option.isSome_iff_exists, List.findSome?_isSome_iff]
    exact ⟨s, List.mem_reverse.mpr hs, by simp [hname]⟩
  obtain ⟨name, hname⟩ := hsome
  obtain ⟨s, hs, hfield⟩ := List.exists_of_findSome?_eq_some hname
  have hcurrent : p.currentField = name := by rw [currentField, hname, Option.getD_some]
  cases s with
  | field name' =>
    cases hfield
    rw [hcurrent]
    exact List.mem_reverse.mp hs
  | _ => cases hfield

end Path

/-- Every field that decoding comes to has a word as its name. -/
theorem Codec.ComesTo.proper {name : String} (h : c.ComesTo v (.field name) part) :
    isFieldName name = true := by
  have hbody {β : Type} {b : Body β} {members : List (String × Json)} (hb : b.isRegular = true)
      (h : b.ComesTo members (.field name) part) : isFieldName name = true := by
    obtain ⟨entry, hentry, hs, -⟩ := h.entry
    have hname : name = entry.name := by injection hs
    rw [hname]
    exact (Body.entries_regular hb).2 entry hentry
  induction c with
  | scalar read => exact h.elim
  | nullable c ih => exact ih h.2
  | list c _ =>
    obtain ⟨_, _, _, -, -, hs, -⟩ := h
    cases hs
  | keyed key c _ =>
    obtain ⟨_, _, _, -, -, -, hs, -⟩ := h
    cases hs
  | record r =>
    obtain ⟨members, rfl, h⟩ := h
    exact hbody r.body_isRegular h
  | interface i =>
    obtain ⟨members, w, rfl, hw, h⟩ := h
    exact hbody (i.variants_isRegular w (Interface.mem_variants_of_variant? hw)) h

namespace DecodeError.Named

theorem charged (h : e.Named) (ref? : Option VariantRef) : (e.charged ref?).Named := by
  refine ⟨fun fault variant hf => ?_, ?_⟩
  · obtain ⟨own, hown, -⟩ := charged_validation hf
    rw [charged_path]
    exact h.reported fault own hown
  · rw [charged_path]
    exact h.proper

theorem relocate (h : e.Named) (hs : ∀ name, s = .field name → isFieldName name = true) :
    (e.relocate (Path.root.child s)).Named := by
  refine ⟨fun fault variant hf => ?_, fun name hname => ?_⟩
  · obtain ⟨fault', hf', -, hfield⟩ := relocate_validation hf
    rw [hfield, h.reported fault' variant hf']
    exact (Path.currentField_append _ _).symm
  · rcases List.mem_cons.mp hname with heq | hname
    · exact hs name heq.symm
    · exact h.proper name hname

end DecodeError.Named

theorem Codec.decode_named (h : c.decode .standard v = .error e) : e.Named := by
  induction v using Json.part_induction generalizing α e with
  | step v ih =>
    obtain ⟨e₀, hcases, rfl⟩ := c.decode_error h
    refine DecodeError.Named.charged ?_ _
    rcases hcases with ⟨s, part, hpart, hfails⟩ | hraised
    · -- the step outwards adds a field only where a field was read
      obtain ⟨e₁, he₁, rfl⟩ := Part.failsBehind_iff.mp hfails
      refine (ih c s part hpart he₁).relocate ?_
      rintro name rfl
      exact hpart.proper
    · exact hraised.named

/-! ## Errors behind a path -/

/-- The error of the same value behind a path. -/
def DecodeError.behind (p : Path) (e : DecodeError) : DecodeError where
  path := p.append e.path
  fault := match e.fault with
    | .validation fault variant =>
      .validation ⟨if fault.field = rootField then p.currentField else fault.field, fault.reason⟩
        variant
    | fault => fault

theorem DecodeError.Named.relocate_eq_behind (h : e.Named) : e.relocate p = e.behind p := by
  obtain ⟨path, efault⟩ := e
  cases efault with
  | validation fault variant =>
    have hreported := h.reported fault variant rfl
    simp only [DecodeError.relocate, DecodeError.behind]
    cases hfield : path.hasField with
    | true =>
      have hproper := ne_rootField (h.proper _ (Path.currentField_of_hasField hfield))
      rw [if_pos rfl, if_neg (by rw [hreported]; exact hproper)]
    | false =>
      have hroot : fault.field = rootField := by
        rw [hreported]
        exact Path.currentField_of_not_hasField hfield
      rw [if_neg Bool.false_ne_true, if_pos hroot]
  | _ => rfl

theorem Codec.decodeAt_eq_behind (c : Codec α) (p : Path) (v : Json) :
    c.decodeAt .standard p v = (c.decode .standard v).mapError (.behind p) := by
  have h := relocatable Registry.described_standard v c p .root
  rw [Path.append_root] at h
  rw [h]
  show (c.decode .standard v).mapError _ = _
  cases hd : c.decode .standard v with
  | ok a => rfl
  | error e => simp only [Except.mapError, (decode_named hd).relocate_eq_behind]

theorem Codec.decodeAt_error_iff {c : Codec α} : c.decodeAt .standard p v = .error e ↔
    ∃ e', c.decode .standard v = .error e' ∧ e = e'.behind p := by
  rw [decodeAt_eq_behind, mapError_eq_error_iff]
  simp only [eq_comm]

/-- A step that leads to no field leaves the fault as it is. -/
theorem DecodeError.behind_child (hs : s.fieldName? = none) (e : DecodeError) :
    e.behind (Path.root.child s) = ⟨⟨s :: e.path.segments⟩, e.fault⟩ := by
  have hcurrent : (Path.root.child s).currentField = rootField := by
    refine Path.currentField_of_not_hasField ?_
    simp [Path.hasField, Path.root, Path.child, hs]
  obtain ⟨path, efault⟩ := e
  cases efault with
  | validation fault variant =>
    have hfield : (if fault.field = rootField then rootField else fault.field) = fault.field := by
      split
      next h => exact h.symm
      next => rfl
    simp only [behind, hcurrent, hfield]
    rfl
  | _ => rfl

/-! ## Lists and maps -/

theorem Codec.decode_list_ok_iff {items : List Json} {as : List α} :
    c.list.decode .standard (.array items) = .ok as ↔
      List.Forall₂ (fun v a => c.decode .standard v = .ok a) items as := by
  rw [decode, decodeAt_list]
  exact decodeItems_ok_iff

theorem Codec.decode_list_error_iff {items : List Json} :
    c.list.decode .standard (.array items) = .error e ↔
      ∃ before v after e', items = before ++ v :: after ∧
        (∀ w ∈ before, ∃ a, c.decode .standard w = .ok a) ∧ c.decode .standard v = .error e' ∧
          e = ⟨⟨.index before.length :: e'.path.segments⟩, e'.fault⟩ := by
  rw [decode, decodeAt_list]
  simp only [decodeItems_error_iff, decodeAt_error_iff, Nat.zero_add,
    DecodeError.behind_child (s := .index _) rfl, Accepts, Reads, exists_and_left]

theorem Codec.decode_map_ok_iff {as : List (String × α)} :
    c.map.decode .standard (.object members) = .ok as ↔
      List.Forall₂ (fun m a => a.1 = m.1 ∧ c.decode .standard m.2 = .ok a.2) members as := by
  have hentry : c.ReadsEntry .ok = fun m a => a.1 = m.1 ∧ c.decode .standard m.2 = .ok a.2 := by
    funext m a
    simp only [ReadsEntry, Except.ok.injEq, eq_comm, Reads]
  rw [decode, map, decodeAt_keyed, ← hentry]
  exact decodeKeyed_ok_iff

/-- In front of a member of an object stand those with smaller keys. -/
theorem Json.mem_before_iff {before after : List (String × Json)} {m m' : String × Json}
    (hkeys : ((before ++ m :: after).map Prod.fst).Pairwise (· < ·)) :
    m' ∈ before ↔ m' ∈ before ++ m :: after ∧ m'.1 < m.1 := by
  rw [List.pairwise_map, List.pairwise_append, List.pairwise_cons] at hkeys
  obtain ⟨-, ⟨hafter, -⟩, hbefore⟩ := hkeys
  constructor
  · intro h
    exact ⟨List.mem_append_left _ h, hbefore m' h m List.mem_cons_self⟩
  · rintro ⟨h, hlt⟩
    rcases List.mem_append.mp h with h | h
    · exact h
    rcases List.mem_cons.mp h with rfl | h
    · exact absurd hlt (lt_irrefl _)
    · exact absurd hlt (lt_asymm (hafter m' h))

theorem Codec.decode_map_error_iff (hkeys : (members.map Prod.fst).Pairwise (· < ·)) :
    c.map.decode .standard (.object members) = .error e ↔
      ∃ key v e', Json.lookup members key = some v ∧
        (∀ key' w, key' < key → Json.lookup members key' = some w →
          ∃ a, c.decode .standard w = .ok a) ∧ c.decode .standard v = .error e' ∧
          e = ⟨⟨.key key :: e'.path.segments⟩, e'.fault⟩ := by
  have hnodup : (members.map Prod.fst).Nodup := hkeys.imp fun hlt => ne_of_lt hlt
  rw [decode, map, decodeAt_keyed]
  simp only [decodeKeyed_error_iff, decodeAt_error_iff,
    DecodeError.behind_child (s := .key _) rfl]
  constructor
  · rintro ⟨before, ⟨key, v⟩, after, rfl, hbefore, ⟨_, hkey, -⟩ | ⟨-, e', he', rfl⟩⟩
    · cases hkey
    refine ⟨key, v, e', Json.lookup_of_mem hnodup (by simp), fun key' w hlt hw => ?_, he', rfl⟩
    have hmem := (Json.mem_before_iff hkeys).mpr ⟨Json.mem_of_lookup hw, hlt⟩
    obtain ⟨entry, -, hentry⟩ := hbefore _ hmem
    exact ⟨entry.2, hentry⟩
  · rintro ⟨key, v, e', hv, hbefore, he', rfl⟩
    obtain ⟨before, after, rfl⟩ := List.append_of_mem (Json.mem_of_lookup hv)
    refine ⟨before, (key, v), after, rfl, fun m hm => ?_, Or.inr ⟨⟨_, rfl⟩, e', he', rfl⟩⟩
    obtain ⟨hmem, hlt⟩ := (Json.mem_before_iff hkeys).mp hm
    obtain ⟨a, ha⟩ := hbefore m.1 m.2 hlt (Json.lookup_of_mem hnodup hmem)
    exact ⟨(m.1, a), rfl, ha⟩

/-- Wherever a value is decoded, the outcome is that of decoding it on its own, an error being
behind the path, and the path is the same afterwards. A list of values is accepted when each of them
is, and otherwise has the error of the first that is not, behind its position; so has a map, in the
order of the keys. -/
theorem run_relocates (c : Codec α) :
    (∀ p v, c.run .standard p v = ((c.decode .standard v).mapError (.behind p), p)) ∧
    (∀ items,
      (∀ as, c.list.decode .standard (.array items) = .ok as ↔
        List.Forall₂ (fun v a => c.decode .standard v = .ok a) items as) ∧
      ∀ e, c.list.decode .standard (.array items) = .error e ↔
        ∃ before v after e', items = before ++ v :: after ∧
          (∀ w ∈ before, ∃ a, c.decode .standard w = .ok a) ∧ c.decode .standard v = .error e' ∧
            e = ⟨⟨.index before.length :: e'.path.segments⟩, e'.fault⟩) ∧
    ∀ members : List (String × Json), (members.map Prod.fst).Pairwise (· < ·) →
      (∀ as, c.map.decode .standard (.object members) = .ok as ↔
        List.Forall₂ (fun m a => a.1 = m.1 ∧ c.decode .standard m.2 = .ok a.2) members as) ∧
      ∀ e, c.map.decode .standard (.object members) = .error e ↔
        ∃ key v e', Json.lookup members key = some v ∧
          (∀ key' w, key' < key → Json.lookup members key' = some w →
            ∃ a, c.decode .standard w = .ok a) ∧ c.decode .standard v = .error e' ∧
            e = ⟨⟨.key key :: e'.path.segments⟩, e'.fault⟩ := by
  refine ⟨fun p v => ?_, fun items => ⟨fun as => ?_, fun e => ?_⟩,
    fun members hkeys => ⟨fun as => ?_, fun e => ?_⟩⟩
  · rw [c.run_eq, c.decodeAt_eq_behind]
  · exact Codec.decode_list_ok_iff
  · exact Codec.decode_list_error_iff
  · exact Codec.decode_map_ok_iff
  · exact Codec.decode_map_error_iff hkeys

theorem run_relocates_counts :
    ([("a", Json.ofInt64 1), ("b", .ofInt64 (-2)), ("c", .null)].map Prod.fst).Pairwise (· < ·) ∧
      Codec.uint64.run .standard ⟨[.field "rows"]⟩ (.ofInt64 (-2)) =
        (.error ⟨⟨[.field "rows"]⟩, .validation ⟨"rows", .negative (-2)⟩ none⟩,
          ⟨[.field "rows"]⟩) ∧
      Codec.uint64.map.decode .standard
          (.object [("a", .ofInt64 1), ("b", .ofInt64 (-2)), ("c", .null)]) =
        .error ⟨⟨[.key "b"]⟩, .validation ⟨"$", .negative (-2)⟩ none⟩ := by
  obtain ⟨hrun, -, hmap⟩ := run_relocates Codec.uint64
  refine ⟨by decide, hrun _ _, ((hmap _ (by decide)).2 _).mpr ⟨"b", _, _, rfl, ?_, rfl, rfl⟩⟩
  intro key w hlt hw
  have hmem := Json.mem_of_lookup hw
  simp only [List.mem_cons, Prod.mk.injEq, List.not_mem_nil, or_false] at hmem
  rcases hmem with ⟨rfl, rfl⟩ | ⟨rfl, rfl⟩ | ⟨rfl, rfl⟩
  · exact ⟨1, rfl⟩
  · exact absurd hlt (by decide)
  · exact absurd hlt (by decide)

end QueryScope
