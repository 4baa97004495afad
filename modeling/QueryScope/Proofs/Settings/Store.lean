import QueryScope.Settings.Store

/-!
# Using a store

What becomes of a store in a use that is made of others, and which text is then under a key.
-/

namespace QueryScope

namespace StoreM

variable {α β σ : Type}

theorem runOn_bind (use : StoreM σ α) (next : α → StoreM σ β) (s : σ) :
    (use >>= next).runOn s = match use.runOn s with
      | (.ok a, t) => (next a).runOn t
      | (.error e, t) => (.error e, t) := by
  show ExceptT.bindCont next (use.runOn s).1 (use.runOn s).2 = _
  rcases use.runOn s with ⟨a | e, t⟩ <;> rfl

theorem runOn_get_bind (next : σ → StoreM σ β) (s : σ) :
    ((get : StoreM σ σ) >>= next).runOn s = (next s).runOn s := rfl

theorem runOn_tryCatch (use : StoreM σ α) (handle : StoreError → StoreM σ α) (s : σ) :
    (tryCatch use handle).runOn s = match use.runOn s with
      | (.ok a, t) => (.ok a, t)
      | (.error e, t) => (handle e).runOn t := by
  show StateT.run (ExceptT.run (ExceptT.tryCatch use handle)) s = _
  cases h : use.runOn s with
  | mk result t =>
    rw [ExceptT.tryCatch, ExceptT.run_mk, StateT.run_bind]
    have hrun : StateT.run use s = pure (result, t) := h
    rw [hrun, pure_bind]
    cases result <;> rfl

end StoreM

/-! ## Texts under keys -/

variable {key other text : String} {texts : List (String × String)}

theorem textUnder?_cons (first : String × String) (rest : List (String × String)) :
    textUnder? key (first :: rest) =
      if first.1 = key then some first.2 else textUnder? key rest := by
  by_cases h : first.1 = key
  · rw [textUnder?, List.find?_cons_of_pos (by simpa using h), if_pos h, Option.map_some]
  · rw [textUnder?, List.find?_cons_of_neg (by simpa using h), if_neg h, ← textUnder?]

theorem textUnder?_putText (key text : String) (texts : List (String × String)) :
    textUnder? key (putText key text texts) = some text := by
  induction texts with
  | nil => rw [putText, textUnder?_cons, if_pos rfl]
  | cons first rest ih =>
    obtain ⟨k, t⟩ := first
    rw [putText]
    split
    next => rw [textUnder?_cons, if_pos rfl]
    next =>
      split
      next => rw [textUnder?_cons, if_pos rfl]
      next hne => rw [textUnder?_cons, if_neg (Ne.symm hne), ih]

/-- Only the text under the key changes. -/
theorem textUnder?_putText_of_ne (h : other ≠ key) (text : String)
    (texts : List (String × String)) :
    textUnder? other (putText key text texts) = textUnder? other texts := by
  induction texts with
  | nil => rw [putText, textUnder?_cons, if_neg h.symm]
  | cons first rest ih =>
    obtain ⟨k, t⟩ := first
    rw [putText]
    split
    next => rw [textUnder?_cons, if_neg h.symm]
    next =>
      split
      next hkey => rw [textUnder?_cons, if_neg h.symm, textUnder?_cons, if_neg (hkey ▸ h.symm)]
      next => rw [textUnder?_cons, textUnder?_cons, ih]

/-- Without the text under a key there is none under it, and the same ones under the others. -/
theorem textUnder?_filter (key other : String) (texts : List (String × String)) :
    textUnder? other (texts.filter fun t => t.1 ≠ key) =
      if other = key then none else textUnder? other texts := by
  induction texts with
  | nil => simp [textUnder?]
  | cons first rest ih =>
    rw [List.filter_cons]
    by_cases hfirst : first.1 = key
    · rw [if_neg (by simpa using hfirst), ih, textUnder?_cons]
      by_cases hother : other = key
      · rw [if_pos hother, if_pos hother]
      · rw [if_neg hother, if_neg hother, if_neg (hfirst ▸ Ne.symm hother)]
    · rw [if_pos (by simpa using hfirst), textUnder?_cons, ih, textUnder?_cons]
      by_cases hother : other = key
      · rw [if_pos hother, if_pos hother, if_neg (hother ▸ hfirst)]
      · rw [if_neg hother, if_neg hother]

end QueryScope
