import QueryScope.Proofs.Identifier
import QueryScope.Proofs.Rendering

/-!
# Operands in their places

The text of an expression with operands is what its kind opens with, and then the text of each
operand with what closes it. An expression that replaces another one anywhere in a tree therefore
has its text in the same surroundings, and when it has none the rendering fails as before.
-/

namespace QueryScope.Expression

variable {p : Option (List Json)} {e : Expression} {es : List Expression}

/-! ## Several operands -/

theorem allToSql_append_cons (before after : List Expression) (e : Expression) :
    allToSql p (before ++ e :: after) = do
      let front ← allToSql p before
      let text ← e.toSql p
      let back ← allToSql p after
      return front ++ text :: back := by
  induction before with
  | nil => rfl
  | cons b before ih =>
    rw [List.cons_append, allToSql, ih, allToSql]
    simp only [bind_assoc, pure_bind, List.cons_append]

theorem length_of_allToSql {texts : List String} (h : allToSql p es = .ok texts) :
    texts.length = es.length := by
  induction es generalizing texts with
  | nil =>
    cases h
    rfl
  | cons e rest ih =>
    rw [allToSql] at h
    cases he : e.toSql p with
    | error x =>
      rw [he] at h
      cases h
    | ok text =>
      cases hrest : allToSql p rest with
      | error x =>
        rw [he, hrest] at h
        cases h
      | ok others =>
        rw [he, hrest] at h
        cases h
        rw [List.length_cons, List.length_cons, ih hrest]

/-! ## The layout of a kind -/

/-- The expression of the same kind with as many other operands. -/
def withOperands : Expression → List Expression → Expression
  | .comparison operator _ _, [left, right] => .comparison operator left right
  | .logicalBinary operator _ _, [left, right] => .logicalBinary operator left right
  | .arithmeticBinary operator _ _, [left, right] => .arithmeticBinary operator left right
  | .not _, [value] => .not value
  | .isNull _, [value] => .isNull value
  | .between _ _ _, [value, min, max] => .between value min max
  | .functionCall name _ distinct, arguments => .functionCall name arguments distinct
  | .cast _ targetType safe, [operand] => .cast operand targetType safe
  | e, _ => e

/-- What stands in front of the first operand. -/
def opening : Expression → String
  | .not _ => "(NOT "
  | .functionCall name _ distinct => name ++ "(" ++ (if distinct then "DISTINCT " else "")
  | .cast _ _ safe => (if safe then "TRY_CAST" else "CAST") ++ "("
  | _ => "("

/-- What stands after each of the operands. -/
def closings : Expression → List String
  | .comparison operator _ _ => [" " ++ operator.symbol ++ " ", ")"]
  | .logicalBinary operator _ _ => [" " ++ Named.name operator ++ " ", ")"]
  | .arithmeticBinary operator _ _ => [" " ++ operator.symbol ++ " ", ")"]
  | .not _ => [")"]
  | .isNull _ => [" IS NULL)"]
  | .between _ _ _ => [" BETWEEN ", " AND ", ")"]
  | .functionCall _ arguments _ => List.replicate (arguments.length - 1) ", " ++ [")"]
  | .cast _ targetType _ => [" AS " ++ targetType ++ ")"]
  | _ => []

/-- Each text with what stands after it. -/
def interleave : (texts closings : List String) → String
  | [], _ => ""
  | text :: texts, closings => text ++ closings.headD "" ++ interleave texts closings.tail

theorem withOperands_children (e : Expression) : e.withOperands e.children = e := by
  cases e <;> rfl

theorem commaSeparated_close {texts : List String} (h : texts ≠ []) :
    Sql.commaSeparated texts ++ ")" =
      interleave texts (List.replicate (texts.length - 1) ", " ++ [")"]) := by
  induction texts with
  | nil => exact absurd rfl h
  | cons text rest ih =>
    cases rest with
    | nil => simp [Sql.commaSeparated, interleave]
    | cons next rest =>
      have hrest := ih (List.cons_ne_nil _ _)
      rw [Sql.commaSeparated] at hrest
      rw [Sql.commaSeparated, String.intercalate_cons_cons, String.append_assoc, hrest]
      rfl

/-- The kind of an expression lays out the texts of its operands, whichever they are. -/
theorem toSql_withOperands (hne : e.children ≠ []) (hlength : es.length = e.children.length) :
    (e.withOperands es).toSql p =
      (allToSql p es).map fun texts => e.opening ++ interleave texts e.closings := by
  cases e with
  | comparison operator | logicalBinary operator | arithmeticBinary operator =>
    obtain ⟨left, right, rfl⟩ := List.length_eq_two.mp hlength
    simp only [withOperands, toSql, allToSql]
    cases left.toSql p with
    | error x => rfl
    | ok l =>
      cases right.toSql p with
      | error x => rfl
      | ok r =>
        refine congrArg Except.ok ?_
        simp [Sql.binary, toString_eq_self, opening, closings, interleave, String.append_assoc]
  | not | isNull | cast =>
    obtain ⟨value, rfl⟩ := List.length_eq_one_iff.mp hlength
    simp only [withOperands, toSql, allToSql]
    cases value.toSql p with
    | error x => rfl
    | ok v =>
      refine congrArg Except.ok ?_
      simp [Sql.negation, Sql.nullTest, Sql.conversion, toString_eq_self, opening, closings,
        interleave, String.append_assoc]
  | between =>
    obtain ⟨value, low, high, rfl⟩ := List.length_eq_three.mp hlength
    simp only [withOperands, toSql, allToSql]
    cases value.toSql p with
    | error x => rfl
    | ok v =>
      cases low.toSql p with
      | error x => rfl
      | ok l =>
        cases high.toSql p with
        | error x => rfl
        | ok h =>
          refine congrArg Except.ok ?_
          simp [Sql.range, toString_eq_self, opening, closings, interleave, String.append_assoc]
  | functionCall name arguments distinct =>
    rw [withOperands, toSql]
    cases htexts : allToSql p es with
    | error x => rfl
    | ok texts =>
      have hsame : texts.length = arguments.length := (length_of_allToSql htexts).trans hlength
      have hnonempty : texts ≠ [] := by
        rintro rfl
        exact hne (List.length_eq_zero_iff.mp hsame.symm)
      have hclose := commaSeparated_close hnonempty
      rw [hsame] at hclose
      refine congrArg Except.ok ?_
      simp [Sql.call, toString_eq_self, opening, closings, ← hclose, String.append_assoc]
  | _ => exact absurd rfl hne

/-- A single text stands in surroundings that do not depend on it. -/
theorem exists_surroundings (front back closings : List String) :
    ∃ before after, ∀ text,
      interleave (front ++ text :: back) closings = before ++ text ++ after := by
  induction front generalizing closings with
  | nil =>
    refine ⟨"", closings.headD "" ++ interleave back closings.tail, fun text => ?_⟩
    rw [List.nil_append, interleave, String.empty_append, String.append_assoc]
  | cons first front ih =>
    obtain ⟨before, after, hinner⟩ := ih closings.tail
    refine ⟨first ++ closings.headD "" ++ before, after, fun text => ?_⟩
    rw [List.cons_append, interleave, hinner]
    simp only [String.append_assoc]

/-! ## Replacing -/

/-- The last expression is the one before it with `b` in the place of one `a` in it. -/
inductive Replaces (a b : Expression) : Expression → Expression → Prop where
  /-- The whole expression is replaced. -/
  | whole : Replaces a b a b
  /-- The expression is replaced in one of the operands. -/
  | operand {e c d : Expression} {before after : List Expression}
    (hchildren : e.children = before ++ c :: after) (hreplaces : Replaces a b c d) :
    Replaces a b e (e.withOperands (before ++ d :: after))

/-- Both expressions have the two texts in the same surroundings, or both fail alike. -/
def SameAround (p : Option (List Json)) (s t : String) (e e' : Expression) : Prop :=
  (∃ before after, e.toSql p = .ok (before ++ s ++ after) ∧
    e'.toSql p = .ok (before ++ t ++ after)) ∨
  ∃ x, e.toSql p = .error x ∧ e'.toSql p = .error x

/-- What holds of an operand holds of the expression. -/
theorem SameAround.operand {s t : String} {c d : Expression} {before after : List Expression}
    (hchildren : e.children = before ++ c :: after) (h : SameAround p s t c d) :
    SameAround p s t e (e.withOperands (before ++ d :: after)) := by
  have hne : e.children ≠ [] := by
    rw [hchildren]
    exact List.append_ne_nil_of_right_ne_nil _ (List.cons_ne_nil _ _)
  have hlength : (before ++ d :: after).length = e.children.length := by simp [hchildren]
  have he : e.toSql p = (allToSql p (before ++ c :: after)).map fun texts =>
      e.opening ++ interleave texts e.closings := by
    rw [← hchildren, ← toSql_withOperands hne rfl, withOperands_children]
  rw [SameAround, he, toSql_withOperands hne hlength, allToSql_append_cons, allToSql_append_cons]
  cases allToSql p before with
  | error x => exact Or.inr ⟨x, rfl, rfl⟩
  | ok front =>
    rcases h with ⟨left, right, hc, hd⟩ | ⟨x, hc, hd⟩
    · rw [hc, hd]
      cases allToSql p after with
      | error x => exact Or.inr ⟨x, rfl, rfl⟩
      | ok back =>
        obtain ⟨outerLeft, outerRight, houter⟩ := exists_surroundings front back e.closings
        refine Or.inl ⟨e.opening ++ outerLeft ++ left, right ++ outerRight, ?_, ?_⟩
        · refine congrArg Except.ok ?_
          simp only [houter, String.append_assoc]
        · refine congrArg Except.ok ?_
          simp only [houter, String.append_assoc]
    · rw [hc, hd]
      exact Or.inr ⟨x, rfl, rfl⟩

theorem Replaces.sameAround {a b e' : Expression} {s t : String} (h : Replaces a b e e')
    (ha : a.toSql p = .ok s) (hb : b.toSql p = .ok t) : SameAround p s t e e' := by
  induction h with
  | whole => exact Or.inl ⟨"", "", by simpa using ha, by simpa using hb⟩
  | operand hchildren _ ih => exact ih.operand hchildren

theorem Replaces.toSql_ne {a b e' : Expression} {s t text : String} (h : Replaces a b e e')
    (ha : a.toSql p = .ok s) (hb : b.toSql p = .ok t) (hne : s ≠ t) (htext : e.toSql p = .ok text) :
    ∃ changed, e'.toSql p = .ok changed ∧ changed ≠ text := by
  rcases h.sameAround ha hb with ⟨before, after, he, he'⟩ | ⟨x, he, -⟩
  · refine ⟨_, he', fun heq => hne ?_⟩
    have hsame : before ++ s ++ after = before ++ t ++ after :=
      (Except.ok.inj (he.symm.trans htext)).trans heq.symm
    exact (String.append_right_inj _).mp ((String.append_left_inj _).mp hsame)
  · cases he.symm.trans htext

end QueryScope.Expression
