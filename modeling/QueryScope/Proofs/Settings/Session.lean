import QueryScope.CommandLine.Execution
import QueryScope.Proofs.Settings.Store
import QueryScope.Proofs.Settings.Text

/-!
# Sessions with preferences

Every command reads the preferences anew from the store. Over a sequence of commands that show and
change them, with saving made to fail or to work before each one, they nevertheless behave as one
record: it is changed by every change that succeeds, and by nothing else.
-/

namespace QueryScope

/-! ## Stores in memory -/

namespace MemoryStore

theorem runOn_loadText {s : MemoryStore} (h : s.loadsFail = false) (key : String) :
    (Store.loadText key : StoreM MemoryStore String).runOn s =
      (match textUnder? key s.texts with
        | some text => .ok text
        | none => .error .notFound, { s with loads := s.loads + 1 }) := by
  obtain ⟨texts, loads, saves, loadsFail, savesFail⟩ := s
  obtain rfl : loadsFail = false := h
  show StoreM.runOn (match textUnder? key texts with
    | some text => (return text : StoreM MemoryStore String)
    | none => throw .notFound) _ = _
  cases textUnder? key texts <;> rfl

theorem runOn_saveText (s : MemoryStore) (key text : String) :
    (Store.saveText key text : StoreM MemoryStore Unit).runOn s =
      if s.savesFail then (.error .savesFail, { s with saves := s.saves + 1 })
      else (.ok (), { s with saves := s.saves + 1, texts := putText key text s.texts }) := by
  obtain ⟨texts, loads, saves, loadsFail, savesFail⟩ := s
  cases savesFail <;> rfl

end MemoryStore

/-! ## Changes one after the other -/

namespace Preferences

/-- Every value is the last one that the changes name, or the one from before if they name none. -/
structure Latest (before : Preferences) (changes : List Overrides) (p : Preferences) : Prop where
  bestEffort : p.decode.bestEffort =
    (changes.filterMap (·.bestEffort)).getLast?.getD before.decode.bestEffort
  pretty : p.decode.pretty = (changes.filterMap (·.pretty)).getLast?.getD before.decode.pretty
  showLayout : p.plan.showLayout =
    (changes.filterMap (·.showLayout)).getLast?.getD before.plan.showLayout
  indent : p.plan.indent = (changes.filterMap (·.indent)).getLast?.getD before.plan.indent

theorem get_foldl_override {γ : Type} (get : Preferences → γ) (named : Overrides → Option γ)
    (h : ∀ p o, get (p.override o) = (named o).getD (get p)) (changes : List Overrides)
    (p : Preferences) :
    get (changes.foldl override p) = (changes.filterMap named).getLast?.getD (get p) := by
  induction changes generalizing p with
  | nil => rfl
  | cons o rest ih =>
    rw [List.foldl_cons, ih, h, List.filterMap_cons]
    cases named o with
    | none => rfl
    | some value => rw [List.getLast?_cons, Option.getD_some, Option.getD_some]

theorem latest_foldl_override (changes : List Overrides) (p : Preferences) :
    p.Latest changes (changes.foldl override p) where
  bestEffort :=
    get_foldl_override (·.decode.bestEffort) (·.bestEffort) (fun _ _ => rfl) changes p
  pretty := get_foldl_override (·.decode.pretty) (·.pretty) (fun _ _ => rfl) changes p
  showLayout := get_foldl_override (·.plan.showLayout) (·.showLayout) (fun _ _ => rfl) changes p
  indent := get_foldl_override (·.plan.indent) (·.indent) (fun _ _ => rfl) changes p

end Preferences

namespace CommandLine

/-! ## Changing preferences -/

variable {s : MemoryStore} {p : Preferences}

theorem unlines_singleton (line : String) : unlines [line] = line ++ "\n" := by
  simp [unlines]

theorem run_changePreferences_same {o : Overrides} (hsame : p.override o = p) (s : MemoryStore) :
    StateT.run (changePreferences p o) s = (.ok (p.text ++ "\n"), s) := by
  simp only [changePreferences, if_pos hsame, unlines_singleton]
  rw [hsame]
  rfl

theorem run_changePreferences {o : Overrides} (hnew : p.override o ≠ p) (s : MemoryStore) :
    StateT.run (changePreferences p o) s =
      if s.savesFail then (.error (.saving .savesFail), { s with saves := s.saves + 1 })
      else (.ok ((p.override o).text ++ "\n"), { s with
        saves := s.saves + 1, texts := putText preferencesKey (p.override o).text s.texts }) := by
  have hsave : StateT.run (ExceptT.run (Store.save preferencesKey (p.override o))) s = pure
      (if s.savesFail then (.error .savesFail, { s with saves := s.saves + 1 })
      else (.ok (), { s with
        saves := s.saves + 1, texts := putText preferencesKey (p.override o).text s.texts })) :=
    MemoryStore.runOn_saveText s preferencesKey (p.override o).text
  simp only [changePreferences, if_neg hnew, unlines_singleton]
  rw [StateT.run_bind, hsave, pure_bind]
  cases s.savesFail <;> rfl

/-! ## Turns -/

/-- A command on preferences, before which saving is made to fail or to work. -/
structure Turn where
  /-- Whether saving fails. -/
  savesFail : Bool
  /-- The changes that are asked for; none where preferences are only shown. -/
  changes? : Option Overrides

/-- The command of the turn. -/
def Turn.command (t : Turn) : Command :=
  match t.changes? with
  | none => .showPreferences
  | some changes => .setPreferences changes

/-- A turn with its answer and the store before and after it. -/
structure Exchange where
  /-- The turn. -/
  turn : Turn
  /-- The store before it. -/
  before : MemoryStore
  /-- The answer of the command. -/
  answer : Answer
  /-- The store after it. -/
  after : MemoryStore

/-- The changes of a turn that succeeded. -/
def Exchange.applied? (x : Exchange) : Option Overrides :=
  if x.answer.ending = .done then x.turn.changes? else none

/-- The store after the exchanges of a session. -/
def closing (start : MemoryStore) (log : List Exchange) : MemoryStore :=
  match log.getLast? with
  | some x => x.after
  | none => start

/-- The changes that were applied, in order. -/
def applied (log : List Exchange) : List Overrides :=
  log.filterMap Exchange.applied?

theorem closing_cons (start : MemoryStore) (x : Exchange) (log : List Exchange) :
    closing start (x :: log) = closing x.after log := by
  rw [closing, closing, List.getLast?_cons]
  cases log.getLast? <;> rfl

theorem foldl_applied_cons (x : Exchange) (log : List Exchange) (p : Preferences) :
    (applied (x :: log)).foldl Preferences.override p =
      (applied log).foldl Preferences.override
        (x.applied?.toList.foldl Preferences.override p) := by
  rw [applied, List.filterMap_cons]
  cases x.applied? <;> rfl

/-! ## Preferences in a store -/

section

variable [Parser String Preferences]

/-- The store can be read, and the text that it keeps stands for the preferences. -/
def Holds (s : MemoryStore) (p : Preferences) : Prop :=
  s.loadsFail = false ∧ match textUnder? preferencesKey s.texts with
    | none => p = {}
    | some text => if text = "" then p = {} else Parser.parse text = .ok p

/-- The preferences that a command finds. -/
def inEffect (s : MemoryStore) : Preferences :=
  (StateT.run storedPreferences s).1

theorem Holds.runOn_load (h : Holds s p) :
    (Store.loadOrDefault preferencesKey : StoreM MemoryStore Preferences).runOn s =
      (.ok p, { s with loads := s.loads + 1 }) := by
  obtain ⟨hloads, hp⟩ := h
  rw [Store.loadOrDefault, StoreM.runOn_bind, Store.load, Store.loadWith, StoreM.runOn_bind,
    StoreM.runOn_tryCatch, MemoryStore.runOn_loadText hloads]
  cases htext : textUnder? preferencesKey s.texts with
  | none =>
    rw [htext] at hp
    subst hp
    rfl
  | some text =>
    simp only [htext] at hp
    by_cases hempty : text = ""
    · rw [if_pos hempty] at hp
      subst hp hempty
      rfl
    · rw [if_neg hempty] at hp
      simp only [if_neg hempty, hp]
      rfl

theorem Holds.run_storedPreferences (h : Holds s p) :
    StateT.run storedPreferences s = (p, { s with loads := s.loads + 1 }) := by
  have hload : StateT.run (ExceptT.run (Store.loadOrDefault preferencesKey)) s =
      pure (.ok p, { s with loads := s.loads + 1 }) := h.runOn_load
  rw [storedPreferences, StateT.run_bind, hload, pure_bind]
  rfl

theorem Holds.inEffect_eq (h : Holds s p) : inEffect s = p := by
  rw [inEffect, h.run_storedPreferences]

theorem holds_of_text (hread : Parser.ReadsBack Preferences.text) (hloads : s.loadsFail = false)
    (htext : textUnder? preferencesKey s.texts = some p.text) : Holds s p := by
  have hne : p.text ≠ "" := by
    intro hempty
    have hlength := p.length_text
    rw [hempty] at hlength
    exact absurd hlength (by decide)
  refine ⟨hloads, ?_⟩
  simp only [htext, if_neg hne]
  exact hread p

/-! ## One turn -/

/-- The store after it was read, with saving set to fail or to work. -/
def reached (s : MemoryStore) (savesFail : Bool) : MemoryStore :=
  { s with loads := s.loads + 1, savesFail }

/-- All that a turn can come to when preferences are in effect. -/
inductive Outcome (p : Preferences) (s : MemoryStore) : Exchange → Prop where
  | shown (fails : Bool) :
      Outcome p s ⟨⟨fails, none⟩, s, { text := p.text ++ "\n" }, reached s fails⟩
  | same (fails : Bool) {o : Overrides} (h : p.override o = p) :
      Outcome p s ⟨⟨fails, some o⟩, s, { text := p.text ++ "\n" }, reached s fails⟩
  | refused {o : Overrides} (h : p.override o ≠ p) :
      Outcome p s ⟨⟨true, some o⟩, s, { ending := .failed (.saving .savesFail) },
        { reached s true with saves := s.saves + 1 }⟩
  | saved {o : Overrides} (h : p.override o ≠ p) :
      Outcome p s ⟨⟨false, some o⟩, s, { text := (p.override o).text ++ "\n" },
        { reached s false with
          saves := s.saves + 1, texts := putText preferencesKey (p.override o).text s.texts }⟩

/-! ## What a turn owes -/

/-- Whether the turn would change the preferences that it finds. -/
def Exchange.wouldChange (x : Exchange) : Bool :=
  x.turn.changes?.any fun o => decide ((inEffect x.before).override o ≠ inEffect x.before)

/-- What a turn owes to its user. -/
structure Exchange.Lawful (x : Exchange) : Prop where
  /-- Preferences can always be shown. -/
  shows : x.turn.changes? = none → x.answer.ending = .done
  /-- A turn that succeeds prints the preferences that are then in effect, and a line break. -/
  prints : x.answer.ending = .done → x.answer.text = (inEffect x.after).text ++ "\n"
  /-- A change of nothing succeeds and does not save. -/
  keeps : ∀ o, x.turn.changes? = some o → (inEffect x.before).override o = inEffect x.before →
    x.answer.ending = .done ∧ x.after.saves = x.before.saves
  /-- A change of something succeeds when saving works. -/
  saves : ∀ o, x.turn.changes? = some o → (inEffect x.before).override o ≠ inEffect x.before →
    x.turn.savesFail = false → x.answer.ending = .done
  /-- It fails when saving does, and leaves the texts in the store as they were. -/
  refuses : ∀ o, x.turn.changes? = some o → (inEffect x.before).override o ≠ inEffect x.before →
    x.turn.savesFail = true → x.answer = { ending := .failed (.saving .savesFail) } ∧
      x.after.texts = x.before.texts

variable {x : Exchange}

theorem Outcome.holds (hread : Parser.ReadsBack Preferences.text) (hs : Holds s p)
    (h : Outcome p s x) :
    Holds x.after (x.applied?.toList.foldl Preferences.override p) := by
  cases h with
  | shown fails => exact hs
  | @same fails o hsame =>
    show Holds _ (p.override o)
    rw [hsame]
    exact hs
  | refused hnew => exact hs
  | saved hnew => exact holds_of_text hread hs.1 (textUnder?_putText _ _ _)

theorem Outcome.prints (hread : Parser.ReadsBack Preferences.text) (hs : Holds s p)
    (h : Outcome p s x) (hdone : x.answer.ending = .done) :
    x.answer.text = (inEffect x.after).text ++ "\n" := by
  rw [(h.holds hread hs).inEffect_eq]
  cases h with
  | shown fails => rfl
  | @same fails o hsame =>
    show p.text ++ "\n" = (p.override o).text ++ "\n"
    rw [hsame]
  | refused hnew => cases hdone
  | saved hnew => rfl

theorem Outcome.lawful (hread : Parser.ReadsBack Preferences.text) (hs : Holds s p)
    (h : Outcome p s x) : x.Lawful := by
  have hbefore := hs.inEffect_eq
  have hprints := h.prints hread hs
  cases h with
  | shown fails => exact ⟨fun _ => rfl, hprints, nofun, nofun, nofun⟩
  | @same fails o hsame =>
    refine ⟨nofun, hprints, fun _ _ _ => ⟨rfl, rfl⟩, ?_, ?_⟩
    · rintro o' ⟨⟩ hnew
      exact absurd hsame (hbefore ▸ hnew)
    · rintro o' ⟨⟩ hnew
      exact absurd hsame (hbefore ▸ hnew)
  | @refused o hnew =>
    refine ⟨nofun, hprints, ?_, nofun, fun _ _ _ _ => ⟨rfl, rfl⟩⟩
    rintro o' ⟨⟩ hsame
    exact absurd (hbefore ▸ hsame) hnew
  | @saved o hnew =>
    refine ⟨nofun, hprints, ?_, fun _ _ _ _ => rfl, nofun⟩
    rintro o' ⟨⟩ hsame
    exact absurd (hbefore ▸ hsame) hnew

theorem Outcome.saves_eq (hs : Holds s p) (h : Outcome p s x) :
    x.after.saves = s.saves + if x.wouldChange then 1 else 0 := by
  have hbefore := hs.inEffect_eq
  cases h with
  | shown fails => rfl
  | same fails hsame => simp [Exchange.wouldChange, hbefore, hsame, reached]
  | refused hnew => simp [Exchange.wouldChange, hbefore, hnew]
  | saved hnew => simp [Exchange.wouldChange, hbefore, hnew]

/-! ## Sessions -/

variable [Parser String Json]

/-- Set saving to fail or to work and execute the command. -/
def Turn.execute (t : Turn) (inputs : Inputs) (s : MemoryStore) : Exchange :=
  let (answer, after) :=
    StateT.run (t.command.executeWith inputs) { s with savesFail := t.savesFail }
  ⟨t, s, answer, after⟩

theorem Holds.execute_eq (h : Holds s p) (inputs : Inputs) (t : Turn) :
    t.execute inputs s = match t.changes? with
      | none => ⟨t, s, { text := p.text ++ "\n" }, reached s t.savesFail⟩
      | some o =>
        let (result, after) := StateT.run (changePreferences p o) (reached s t.savesFail)
        ⟨t, s, .ofResult result, after⟩ := by
  have hset : Holds { s with savesFail := t.savesFail } p := h
  have hstored : StateT.run storedPreferences { s with savesFail := t.savesFail } =
      pure (p, reached s t.savesFail) := hset.run_storedPreferences
  obtain ⟨fails, changes?⟩ := t
  rw [Turn.execute, Command.executeWith, StateT.run_bind, hstored, pure_bind]
  cases changes? with
  | none =>
    rw [← unlines_singleton]
    rfl
  | some o => rfl

theorem Holds.outcome (h : Holds s p) (inputs : Inputs) (t : Turn) :
    Outcome p s (t.execute inputs s) := by
  rw [h.execute_eq]
  obtain ⟨fails, changes?⟩ := t
  cases changes? with
  | none => exact .shown fails
  | some o =>
    by_cases hsame : p.override o = p
    · simp only [run_changePreferences_same hsame]
      exact .same fails hsame
    · simp only [run_changePreferences hsame]
      cases fails with
      | true => exact .refused hsame
      | false => exact .saved hsame

/-- One exchange for each turn, the store passing from each to the next. -/
def session (inputs : Inputs) (s : MemoryStore) : List Turn → List Exchange
  | [] => []
  | t :: rest =>
    let x := t.execute inputs s
    x :: session inputs x.after rest

/-- What is in effect after a session are the preferences before it with all applied changes. -/
theorem Holds.session_holds (hread : Parser.ReadsBack Preferences.text) (hs : Holds s p)
    (inputs : Inputs) (turns : List Turn) :
    Holds (closing s (session inputs s turns))
      ((applied (session inputs s turns)).foldl Preferences.override p) := by
  induction turns generalizing s p with
  | nil => exact hs
  | cons t rest ih =>
    have hnext := (hs.outcome inputs t).holds hread hs
    rw [session, closing_cons, foldl_applied_cons]
    exact ih hnext

theorem Holds.session_exchange (hread : Parser.ReadsBack Preferences.text) (hs : Holds s p)
    {inputs : Inputs} {turns : List Turn} {earlier later : List Exchange}
    (h : session inputs s turns = earlier ++ x :: later) :
    Holds x.after ((applied (earlier ++ [x])).foldl Preferences.override p) ∧ x.Lawful := by
  induction turns generalizing s p earlier with
  | nil =>
    rw [session] at h
    cases earlier <;> cases h
  | cons t rest ih =>
    have houtcome := hs.outcome inputs t
    rw [session] at h
    cases earlier with
    | nil =>
      obtain rfl : t.execute inputs s = x := (List.cons.inj h).1
      rw [List.nil_append, foldl_applied_cons]
      exact ⟨houtcome.holds hread hs, houtcome.lawful hread hs⟩
    | cons first earlier =>
      obtain ⟨rfl, hrest⟩ := List.cons.inj h
      rw [List.cons_append, foldl_applied_cons]
      exact ih (houtcome.holds hread hs) hrest

theorem Holds.session_saves (hread : Parser.ReadsBack Preferences.text) (hs : Holds s p)
    (inputs : Inputs) (turns : List Turn) :
    (closing s (session inputs s turns)).saves =
      s.saves + (session inputs s turns).countP Exchange.wouldChange := by
  induction turns generalizing s p with
  | nil => rfl
  | cons t rest ih =>
    have houtcome := hs.outcome inputs t
    rw [session, closing_cons, ih (houtcome.holds hread hs), houtcome.saves_eq hs,
      List.countP_cons]
    omega

/-- Preferences are one record, if they are parsed from their own texts. After a session of commands
that show and change them, those of the start are in effect with the changes that succeeded applied
in order; every answer is as it should be, and the store was written once for every command that
would have changed something. -/
theorem session_preferences (hread : Parser.ReadsBack Preferences.text) {start : MemoryStore}
    {p₀ : Preferences} (h : Holds start p₀) (inputs : Inputs) (turns : List Turn) :
    let log := session inputs start turns
    let p := inEffect (closing start log)
    p = (applied log).foldl Preferences.override p₀ ∧ p₀.Latest (applied log) p ∧
      (∀ earlier x later, log = earlier ++ x :: later →
        inEffect x.after = (applied (earlier ++ [x])).foldl Preferences.override p₀ ∧ x.Lawful) ∧
      (closing start log).saves = start.saves + log.countP Exchange.wouldChange := by
  have hclosing := (h.session_holds hread inputs turns).inEffect_eq
  refine ⟨hclosing, ?_, fun earlier x later hlog => ?_, h.session_saves hread inputs turns⟩
  · rw [hclosing]
    exact Preferences.latest_foldl_override _ _
  · obtain ⟨hafter, hlawful⟩ := h.session_exchange hread hlog
    exact ⟨hafter.inEffect_eq, hlawful⟩

end

/-- Ask for the pretty form, again while saving fails, then for another indentation, which fails,
and show what there is. -/
def sampleTurns : List Turn := [⟨false, some { pretty := some true }⟩,
  ⟨true, some { pretty := some true }⟩, ⟨true, some { indent := some 2 }⟩, ⟨true, none⟩]

/-- What all but the third of these turns print. -/
def samplePrinted : String :=
  "\x7b\n  \"decode\": \x7b\n    \"best_effort\": false,\n    \"pretty\": true\n  \x7d,\n" ++
    "  \"plan\": \x7b\n    \"show_layout\": false,\n    \"indent\": 4\n  \x7d\n\x7d\n"

theorem session_preferences_sample :
    Parser.ReadsBack Preferences.text ∧ Holds {} {} ∧
      let log := session (fun _ => .error "no such file") {} sampleTurns
      inEffect (closing {} log) = { decode := { pretty := true } } ∧
        (closing {} log).saves = 2 ∧
        log.map (·.answer) = [{ text := samplePrinted }, { text := samplePrinted },
          { ending := .failed (.saving .savesFail) }, { text := samplePrinted }] := by
  have hread := Preferences.readsBack_text
  have hstart : Holds {} {} := ⟨rfl, rfl⟩
  obtain ⟨hclosing, -, -, hsaves⟩ :=
    session_preferences hread hstart (fun _ => .error "no such file") sampleTurns
  refine ⟨hread, hstart, hclosing.trans ?_, hsaves.trans ?_, ?_⟩
  all_goals decide +kernel

end CommandLine

end QueryScope
