import QueryScope.Proofs.Rendering

/-!
# Parameters are substituted literals

Parameters and literal nodes are written by different rules: the ones as JSON values, the others as
expressions. Where both can hold a value they write it alike, and what is written of an expression
depends on its placeholders only through their texts, so that giving parameters comes to the same as
putting literal nodes in the place of the placeholders first.
-/

namespace QueryScope.Expression

variable {ps : List Json} {position : UInt32}

/-! ## Substitution -/

mutual

/-- The expression with another one in the place of each placeholder. -/
def substitute (σ : UInt32 → Expression) : Expression → Expression
  | .parameter position => σ position
  | .comparison operator left right =>
    .comparison operator (left.substitute σ) (right.substitute σ)
  | .logicalBinary operator left right =>
    .logicalBinary operator (left.substitute σ) (right.substitute σ)
  | .arithmeticBinary operator left right =>
    .arithmeticBinary operator (left.substitute σ) (right.substitute σ)
  | .not value => .not (value.substitute σ)
  | .isNull value => .isNull (value.substitute σ)
  | .between value min max => .between (value.substitute σ) (min.substitute σ) (max.substitute σ)
  | .functionCall name arguments distinct =>
    .functionCall name (substituteAll σ arguments) distinct
  | .cast operand targetType safe => .cast (operand.substitute σ) targetType safe
  | .identifier value => .identifier value
  | .symbol name => .symbol name
  | .long value => .long value
  | .double value => .double value
  | .string value => .string value
  | .boolean value => .boolean value
  | .null => .null
  | .subquery query => .subquery query

def substituteAll (σ : UInt32 → Expression) : List Expression → List Expression
  | [] => []
  | e :: rest => e.substitute σ :: substituteAll σ rest

end

theorem allToSql_congr {p q : Option (List Json)} {σ : UInt32 → Expression} {es : List Expression}
    (h : ∀ c ∈ es, c.toSql p = (c.substitute σ).toSql q) :
    allToSql p es = allToSql q (substituteAll σ es) := by
  induction es with
  | nil => rfl
  | cons c rest ih =>
    obtain ⟨hc, hrest⟩ := List.forall_mem_cons.mp h
    rw [substituteAll, allToSql, allToSql, hc, ih hrest]

/-- When every placeholder has the text of what takes its place, so has the whole expression. -/
theorem toSql_substitute {p q : Option (List Json)} {σ : UInt32 → Expression} (e : Expression)
    (h : ∀ position, .parameter position ∈ leaves e →
      Sql.placeholder p position = (σ position).toSql q) :
    e.toSql p = (e.substitute σ).toSql q := by
  induction e using Branching.induction_on with
  | step e ih =>
    by_cases hchildren : e.children = []
    · rw [leaves_of_children_eq_nil hchildren] at h
      cases e with
      | parameter position => exact h position List.mem_cons_self
      | functionCall name arguments distinct =>
        obtain rfl : arguments = [] := hchildren
        rfl
      | identifier | symbol | long | double | string | boolean | null | subquery => rfl
      | _ => cases hchildren
    · rw [leaves_of_children_ne_nil hchildren] at h
      have hoperand : ∀ c ∈ e.children, c.toSql p = (c.substitute σ).toSql q := by
        intro c hc
        refine ih c hc fun position hposition => h position ?_
        exact List.mem_flatMap.mpr ⟨c, hc, hposition⟩
      cases e with
      | comparison _ left right | logicalBinary _ left right | arithmeticBinary _ left right =>
        have hleft := hoperand left (by simp [children])
        have hright := hoperand right (by simp [children])
        simp only [substitute, toSql, hleft, hright]
      | not value | isNull value | cast value =>
        have hvalue := hoperand value (by simp [children])
        simp only [substitute, toSql, hvalue]
      | between value low high =>
        have hvalue := hoperand value (by simp [children])
        have hlow := hoperand low (by simp [children])
        have hhigh := hoperand high (by simp [children])
        simp only [substitute, toSql, hvalue, hlow, hhigh]
      | functionCall name arguments distinct =>
        have harguments : allToSql p arguments = allToSql q (substituteAll σ arguments) :=
          allToSql_congr hoperand
        rw [substitute, toSql, toSql, harguments]
      | _ => exact absurd rfl hchildren

/-! ## Parameters as nodes -/

/-- A value that a literal node can hold: null, a truth value, a signed 64-bit integer or a text. -/
inductive IsScalar : Json → Prop where
  | null : IsScalar .null
  | bool (b : Bool) : IsScalar (.bool b)
  | integer (n : Json.Integer) (h : n.val ≤ 9223372036854775807) :
    IsScalar (.number (.integer n))
  | string (s : String) : IsScalar (.string s)

/-- The literal node that holds a value. -/
def literalNode? : Json → Option Expression
  | .null => some .null
  | .bool b => some (.boolean b)
  | .number (.integer n) => some (.long (Int64.ofInt n.val))
  | .string s => some (.string s)
  | _ => none

/-- What a list of parameters puts in the place of a placeholder. -/
def parameterNode (ps : List Json) (position : UInt32) : Expression :=
  (ps[position.toNat]?.bind literalNode?).getD (.parameter position)

theorem IsScalar.exists_literalNode {v : Json} (h : IsScalar v) :
    ∃ node text, literalNode? v = some node ∧ Sql.literal? v = some text ∧
      node.toSql none = .ok text := by
  cases h with
  | null => exact ⟨.null, "null", rfl, rfl, rfl⟩
  | bool b => exact ⟨.boolean b, toString b, rfl, rfl, rfl⟩
  | integer n h =>
    have hval : (Int64.ofInt n.val).toInt = n.val :=
      Int64.toInt_ofInt_of_le n.lower (Int.lt_add_one_of_le h)
    have htext : toString (Int64.ofInt n.val) = toString n.val := congrArg toString hval
    exact ⟨.long (Int64.ofInt n.val), toString n.val, rfl, rfl, by rw [toSql, htext]⟩
  | string s => exact ⟨.string s, Sql.quoteString s, rfl, rfl, rfl⟩

theorem placeholder_eq_toSql_parameterNode (hps : ∀ v ∈ ps, IsScalar v)
    (h : position.toNat < ps.length) :
    Sql.placeholder (some ps) position = (parameterNode ps position).toSql none := by
  have hget : ps[position.toNat]? = some ps[position.toNat] := List.getElem?_eq_getElem h
  obtain ⟨node, text, hnode, hliteral, htext⟩ :=
    (hps _ (List.getElem_mem h)).exists_literalNode
  simp only [Sql.placeholder, parameterNode, hget, hliteral, Option.bind_some, hnode,
    Option.getD_some, htext]

/-- When the parameters are scalars and there are enough of them, rendering with parameters is
rendering, without parameters, the expression with their literal nodes in it: the text is the same,
or the error. -/
theorem toSql_eq_substitute (e : Expression) (ps : List Json) (hps : ∀ v ∈ ps, IsScalar v)
    (henough : ∀ position, .parameter position ∈ leaves e → position.toNat < ps.length) :
    e.toSql (some ps) = (e.substitute (parameterNode ps)).toSql none :=
  toSql_substitute e fun position hposition =>
    placeholder_eq_toSql_parameterNode hps (henough position hposition)

theorem toSql_eq_substitute_comparison :
    let e : Expression := .comparison .equal (.parameter 0) (.parameter 1)
    let ps : List Json := [.ofInt64 42, .string "x"]
    (∀ v ∈ ps, IsScalar v) ∧
      (∀ position, .parameter position ∈ leaves e → position.toNat < ps.length) ∧
      e.toSql (some ps) = (Expression.comparison .equal (.long 42) (.string "x")).toSql none ∧
      e.toSql (some ps) = .ok "(42 = 'x')" := by
  intro e ps
  have hscalar : ∀ v ∈ ps, IsScalar v :=
    List.forall_mem_cons.mpr ⟨.integer _ (by decide), List.forall_mem_singleton.mpr (.string "x")⟩
  have hleaves : leaves e = [.parameter 0, .parameter 1] := by
    have hchildren : Branching.children e = [.parameter 0, .parameter 1] := rfl
    have hleaf (position : UInt32) :
        leaves (.parameter position : Expression) = [.parameter position] :=
      leaves_of_children_eq_nil rfl
    rw [leaves_of_children_ne_nil (hchildren ▸ List.cons_ne_nil _ _), hchildren]
    simp [hleaf]
  have henough : ∀ position, .parameter position ∈ leaves e → position.toNat < ps.length := by
    simp [hleaves, ps]
  have hnode : e.substitute (parameterNode ps) = .comparison .equal (.long 42) (.string "x") := rfl
  have hsame := toSql_eq_substitute e ps hscalar henough
  rw [hnode] at hsame
  exact ⟨hscalar, henough, hsame, hsame.trans (by decide +kernel)⟩

end QueryScope.Expression
