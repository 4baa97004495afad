import QueryScope.Expression.Sql
import QueryScope.Proofs.Json.WellFormed
import QueryScope.Proofs.Preorder

/-!
# Where rendering fails

An expression has SQL text unless one of its leaves has none. Rendering goes from left to right, so
that of several such leaves it is the first whose error is reported. Whether the parameters are
enough for all placeholders can be told from the highest position.
-/

namespace QueryScope

/-! ## Literals -/

namespace Sql

theorem literals?_eq_none_iff (items : List Json) :
    literals? items = none ↔ ∃ v ∈ items, literal? v = none := by
  induction items with
  | nil => simp [literals?]
  | cons v rest ih =>
    rw [literals?, List.exists_mem_cons_iff, ← ih]
    cases literal? v <;> simp

/-- A value has no literal when there is an object in it, however deep. -/
theorem literal?_eq_none_iff (v : Json) :
    literal? v = none ↔ ∃ members, (Json.object members).Inside v := by
  induction v using Json.induction_on with
  | step v ihItems _ =>
    cases v with
    | object members => simpa [literal?] using ⟨members, .self⟩
    | array items =>
      rw [literal?, Option.map_eq_none_iff, literals?_eq_none_iff]
      constructor
      · rintro ⟨w, hw, hnone⟩
        obtain ⟨members, hin⟩ := (ihItems w hw).mp hnone
        exact ⟨members, .item hw hin⟩
      · rintro ⟨members, hin⟩
        cases hin with
        | item hw hin => exact ⟨_, hw, (ihItems _ hw).mpr ⟨members, hin⟩⟩
        | member hm => cases hm
    | null | bool | number | string =>
      simp only [literal?, reduceCtorEq, false_iff]
      rintro ⟨members, hin⟩
      cases hin with
      | item hw => cases hw
      | member hm => cases hm

end Sql

namespace Expression

variable {ps : List Json} {parameters : Option (List Json)} {e : Expression} {x : VisitError}

/-! ## From operands to expressions -/

/-- The error of a result, if it is one. -/
def failure? {ε α : Type} : Except ε α → Option ε
  | .error x => some x
  | .ok _ => none

theorem failure?_eq_some_iff {ε α : Type} {r : Except ε α} {x : ε} :
    failure? r = some x ↔ r = .error x := by
  cases r <;> simp [failure?]

/-- Several expressions fail as the first of them that fails. -/
theorem failure?_allToSql (es : List Expression) :
    failure? (allToSql parameters es) = es.findSome? fun e => failure? (e.toSql parameters) := by
  induction es with
  | nil => rfl
  | cons e rest ih =>
    rw [allToSql, List.findSome?_cons, ← ih]
    cases e.toSql parameters with
    | error x => rfl
    | ok text => cases allToSql parameters rest <;> rfl

/-- An expression with operands is put together from their texts, and fails where they do. -/
theorem failure?_toSql (h : e.children ≠ []) :
    failure? (e.toSql parameters) = failure? (allToSql parameters e.children) := by
  cases e with
  | comparison _ left right | logicalBinary _ left right | arithmeticBinary _ left right =>
    simp only [toSql, children, allToSql]
    cases left.toSql parameters <;> cases right.toSql parameters <;> rfl
  | not value | isNull value | cast value =>
    simp only [toSql, children, allToSql]
    cases value.toSql parameters <;> rfl
  | between value low high =>
    simp only [toSql, children, allToSql]
    cases value.toSql parameters <;> cases low.toSql parameters <;>
      cases high.toSql parameters <;> rfl
  | functionCall name arguments distinct =>
    rw [toSql, children]
    cases allToSql parameters arguments <;> rfl
  | _ => exact absurd rfl h

/-- An expression fails as the first of its leaves that fails. -/
theorem failure?_eq_findSome?_leaves (e : Expression) :
    failure? (e.toSql parameters) =
      (leaves e).findSome? fun leaf => failure? (leaf.toSql parameters) := by
  induction e using Branching.induction_on with
  | step e ih =>
    by_cases h : e.children = []
    · rw [leaves_of_children_eq_nil h, List.findSome?_singleton]
    · rw [failure?_toSql h, failure?_allToSql, leaves_of_children_ne_nil h]
      exact findSome?_flatMap ih

/-- The error of an expression is that of a leaf before which no leaf fails. -/
theorem toSql_error_iff : e.toSql parameters = .error x ↔
    ∃ before leaf after, leaves e = before ++ leaf :: after ∧
      (∀ l ∈ before, ∀ y, l.toSql parameters ≠ .error y) ∧ leaf.toSql parameters = .error x := by
  have hnone (l : Expression) :
      failure? (l.toSql parameters) = none ↔ ∀ y, l.toSql parameters ≠ .error y := by
    cases l.toSql parameters <;> simp [failure?]
  rw [← failure?_eq_some_iff, failure?_eq_findSome?_leaves, List.findSome?_eq_some_iff]
  simp only [failure?_eq_some_iff, hnone]
  constructor
  · rintro ⟨before, leaf, after, heq, hleaf, hbefore⟩
    exact ⟨before, leaf, after, heq, hbefore, hleaf⟩
  · rintro ⟨before, leaf, after, heq, hbefore, hleaf⟩
    exact ⟨before, leaf, after, heq, hleaf, hbefore⟩

/-- An expression fails if and only if one of its leaves does. -/
theorem exists_toSql_error_iff : (∃ x, e.toSql parameters = .error x) ↔
    ∃ leaf ∈ leaves e, ∃ x, leaf.toSql parameters = .error x := by
  simp only [← failure?_eq_some_iff, failure?_eq_findSome?_leaves e, ← Option.isSome_iff_exists,
    List.findSome?_isSome_iff]

/-! ## Leaves that fail -/

/-- Why a leaf has no text under a list of parameters. -/
inductive LeafFault (ps : List Json) : Expression → VisitError → Prop where
  /-- There is no text for a subquery. -/
  | subquery (query : Json) : LeafFault ps (.subquery query) (.unsupported "subquery")
  /-- The position is past the end of the parameters. -/
  | missing {position : UInt32} (h : ps.length ≤ position.toNat) :
    LeafFault ps (.parameter position) (.missingParameter position ps.length)
  /-- There is an object in the parameter. -/
  | invalid {position : UInt32} {v : Json} {members : List (String × Json)}
      (h : ps[position.toNat]? = some v) (hin : (Json.object members).Inside v) :
    LeafFault ps (.parameter position) (.invalidParameter position)

theorem placeholder_error_iff {position : UInt32} :
    Sql.placeholder (some ps) position = .error x ↔ LeafFault ps (.parameter position) x := by
  constructor
  · intro h
    simp only [Sql.placeholder] at h
    split at h
    next hnone =>
      cases h
      exact .missing (List.getElem?_eq_none_iff.mp hnone)
    next v hv =>
      split at h
      next hliteral =>
        cases h
        obtain ⟨members, hin⟩ := (Sql.literal?_eq_none_iff v).mp hliteral
        exact .invalid hv hin
      next => cases h
  · intro h
    cases h with
    | missing hle => simp only [Sql.placeholder, List.getElem?_eq_none hle]
    | @invalid _ v _ hv hin =>
      simp only [Sql.placeholder, hv, (Sql.literal?_eq_none_iff v).mpr ⟨_, hin⟩]

/-- A leaf fails only if it is a subquery or a placeholder without a literal. -/
theorem toSql_leaf_error_iff (h : e.children = []) :
    e.toSql (some ps) = .error x ↔ LeafFault ps e x := by
  cases e with
  | parameter position => exact placeholder_error_iff
  | subquery query =>
    constructor
    · rintro ⟨⟩
      exact .subquery query
    · rintro ⟨⟩
      rfl
  | identifier | symbol | long | double | string | boolean | null =>
    constructor <;> rintro ⟨⟩
  | functionCall name arguments distinct =>
    obtain rfl : arguments = [] := h
    constructor <;> rintro ⟨⟩
  | _ => cases h

/-- Without parameters the placeholders stay, and only a subquery has no text. -/
theorem toSql_leaf_none_error_iff (h : e.children = []) :
    e.toSql none = .error x ↔ (∃ query, e = .subquery query) ∧ x = .unsupported "subquery" := by
  cases e with
  | subquery query =>
    rw [toSql, Except.error.injEq]
    exact ⟨fun h => ⟨⟨query, rfl⟩, h.symm⟩, fun h => h.2.symm⟩
  | functionCall name arguments distinct =>
    obtain rfl : arguments = [] := h
    simp [toSql, allToSql, bind, Except.bind, pure, Except.pure]
  | identifier | symbol | long | double | string | boolean | null | parameter =>
    simp [toSql, Sql.placeholder]
  | _ => cases h

/-! ## Enough parameters -/

/-- The position, if there is one, is below a bound. -/
def Below (bound : Nat) (o : Option UInt32) : Prop :=
  ∀ position, o = some position → position.toNat < bound

theorem below_higher {bound : Nat} {a b : Option UInt32} :
    Below bound (higher a b) ↔ Below bound a ∧ Below bound b := by
  cases a with
  | none => simp [higher, Below]
  | some a =>
    cases b with
    | none => simp [higher, Below]
    | some b =>
      have hhigher : higher (some a) (some b) = some (if a ≤ b then b else a) := rfl
      simp only [hhigher, Below, Option.some.injEq, forall_eq']
      split
      next hle =>
        have := UInt32.le_iff_toNat_le.mp hle
        omega
      next hle =>
        have := mt UInt32.le_iff_toNat_le.mpr hle
        omega

theorem below_maxParameters {bound : Nat} (es : List Expression) :
    Below bound (maxParameters es) ↔ ∀ e ∈ es, Below bound e.maxParameter := by
  induction es with
  | nil => simp [maxParameters, Below]
  | cons e rest ih => rw [maxParameters, below_higher, ih, List.forall_mem_cons]

/-- The highest position in an expression with operands is that in its operands. -/
theorem below_maxParameter {bound : Nat} (h : e.children ≠ []) :
    Below bound e.maxParameter ↔ ∀ c ∈ e.children, Below bound c.maxParameter := by
  cases e with
  | functionCall name arguments distinct => exact below_maxParameters arguments
  | comparison | logicalBinary | arithmeticBinary | not | isNull | between | cast =>
    simp [maxParameter, children, below_higher]
  | _ => exact absurd rfl h

/-- The highest position is below a bound when those of all placeholders are. -/
theorem below_maxParameter_iff {bound : Nat} (e : Expression) :
    Below bound e.maxParameter ↔
      ∀ position, .parameter position ∈ leaves e → position.toNat < bound := by
  induction e using Branching.induction_on with
  | step e ih =>
    by_cases h : e.children = []
    · rw [leaves_of_children_eq_nil h]
      cases e with
      | parameter position => simp [maxParameter, Below]
      | functionCall name arguments distinct =>
        obtain rfl : arguments = [] := h
        simp [maxParameter, maxParameters, Below]
      | identifier | symbol | long | double | string | boolean | null | subquery =>
        simp [maxParameter, Below]
      | _ => cases h
    · rw [below_maxParameter h, leaves_of_children_ne_nil h]
      simp only [List.mem_flatMap, forall_exists_index, and_imp]
      constructor
      · intro hall position c hc hposition
        exact (ih c hc).mp (hall c hc) position hposition
      · intro hall c hc
        exact (ih c hc).mpr fun position => hall position c hc

/-! ## Rendering -/

/-- Without parameters an expression fails at a subquery in it. -/
theorem toSql_none_error_iff : e.toSql none = .error x ↔
    (∃ query, .subquery query ∈ leaves e) ∧ x = .unsupported "subquery" := by
  have honly (y : VisitError) (h : e.toSql none = .error y) :
      (∃ query, .subquery query ∈ leaves e) ∧ y = .unsupported "subquery" := by
    obtain ⟨before, leaf, after, heq, -, hy⟩ := toSql_error_iff.mp h
    have hleaf : leaf ∈ leaves e := heq ▸ List.mem_append_right _ List.mem_cons_self
    obtain ⟨⟨query, rfl⟩, rfl⟩ :=
      (toSql_leaf_none_error_iff (children_eq_nil_of_mem_leaves hleaf)).mp hy
    exact ⟨⟨query, hleaf⟩, rfl⟩
  constructor
  · exact honly x
  · rintro ⟨⟨query, hquery⟩, rfl⟩
    have hleaf : (subquery query).toSql none = .error (.unsupported "subquery") :=
      (toSql_leaf_none_error_iff rfl).mpr ⟨⟨query, rfl⟩, rfl⟩
    obtain ⟨y, hy⟩ := exists_toSql_error_iff.mpr ⟨_, hquery, _, hleaf⟩
    obtain ⟨-, rfl⟩ := honly y hy
    exact hy

/-- Where no parameter has an object in it, a leaf other than a subquery fails only if it is a
placeholder whose position is past the end. -/
theorem forall_not_leafFault_iff (hsubquery : ∀ query, e ≠ .subquery query)
    (hobject : ∀ v ∈ ps, ∀ members, ¬(Json.object members).Inside v) :
    (∀ x, ¬LeafFault ps e x) ↔
      ∀ position, e = .parameter position → position.toNat < ps.length := by
  constructor
  · rintro h position rfl
    by_contra hge
    exact h _ (.missing (Nat.le_of_not_lt hge))
  · intro h x hx
    cases hx with
    | subquery query => exact hsubquery query rfl
    | @missing position hle => exact absurd (h position rfl) (Nat.not_lt.mpr hle)
    | invalid hv hin => exact hobject _ (List.mem_of_getElem? hv) _ hin

/-- With parameters, an expression has no text if and only if some leaf has none, and the error is
that of the first such leaf; without parameters it has no text if and only if there is a subquery in
it. When there is neither a subquery in the expression nor an object in a parameter, there is a text
if and only if the highest position of a placeholder is below the number of parameters. -/
theorem toSql_fails_at_leaf (e : Expression) (ps : List Json) :
    (∀ x, e.toSql (some ps) = .error x ↔
      ∃ before leaf after, leaves e = before ++ leaf :: after ∧
        (∀ l ∈ before, ∀ y, ¬LeafFault ps l y) ∧ LeafFault ps leaf x) ∧
    ((∃ x, e.toSql (some ps) = .error x) ↔ ∃ leaf ∈ leaves e, ∃ x, LeafFault ps leaf x) ∧
    (∀ x, e.toSql none = .error x ↔
      (∃ query, .subquery query ∈ leaves e) ∧ x = .unsupported "subquery") ∧
    ((∀ query, .subquery query ∉ leaves e) →
      (∀ v ∈ ps, ∀ members, ¬(Json.object members).Inside v) →
      ((∃ text, e.toSql (some ps) = .ok text) ↔
        ∀ position, e.maxParameter = some position → position.toNat < ps.length)) := by
  have hleaf {l : Expression} (hl : l ∈ leaves e) (x : VisitError) :
      l.toSql (some ps) = .error x ↔ LeafFault ps l x :=
    toSql_leaf_error_iff (children_eq_nil_of_mem_leaves hl)
  have hfails : (∃ x, e.toSql (some ps) = .error x) ↔
      ∃ leaf ∈ leaves e, ∃ x, LeafFault ps leaf x := by
    rw [exists_toSql_error_iff]
    exact exists_congr fun l => and_congr_right fun hl => exists_congr (hleaf hl)
  refine ⟨fun x => ?_, hfails, fun x => toSql_none_error_iff, fun hsubquery hobject => ?_⟩
  · rw [toSql_error_iff]
    refine exists_congr fun before => exists_congr fun l => exists_congr fun after =>
      and_congr_right fun heq => ?_
    have hbefore {m : Expression} (hm : m ∈ before) : m ∈ leaves e :=
      heq ▸ List.mem_append_left _ hm
    have hl : l ∈ leaves e := heq ▸ List.mem_append_right _ List.mem_cons_self
    refine and_congr ?_ (hleaf hl x)
    exact forall₂_congr fun m hm => forall_congr' fun y => not_congr (hleaf (hbefore hm) y)
  · have hok : (∃ text, e.toSql (some ps) = .ok text) ↔ ¬∃ x, e.toSql (some ps) = .error x := by
      cases e.toSql (some ps) <;> simp
    rw [hok, hfails, ← Below, below_maxParameter_iff]
    simp only [not_exists, not_and]
    have hleaves : (∀ leaf ∈ leaves e, ∀ x, ¬LeafFault ps leaf x) ↔
        ∀ leaf ∈ leaves e, ∀ position, leaf = .parameter position → position.toNat < ps.length :=
      forall₂_congr fun leaf hl =>
        forall_not_leafFault_iff (fun query heq => hsubquery query (heq ▸ hl)) hobject
    rw [hleaves]
    exact ⟨fun h position hl => h _ hl position rfl,
      fun h leaf hl position heq => h position (heq ▸ hl)⟩

theorem toSql_fails_at_leaf_comparison :
    let e : Expression := .comparison .equal (.parameter 0) .null
    (∀ query, .subquery query ∉ leaves e) ∧
      (∀ v ∈ [Json.null], ∀ members, ¬(Json.object members).Inside v) ∧
      ∃ text, e.toSql (some [.null]) = .ok text := by
  intro e
  have hleaves : leaves e = [.parameter 0, .null] := by
    have hleft : leaves (.parameter 0 : Expression) = [.parameter 0] :=
      leaves_of_children_eq_nil rfl
    have hright : leaves (.null : Expression) = [.null] := leaves_of_children_eq_nil rfl
    have hchildren : Branching.children e = [.parameter 0, .null] := rfl
    rw [leaves_of_children_ne_nil (hchildren ▸ List.cons_ne_nil _ _), hchildren]
    simp [hleft, hright]
  have hsubquery : ∀ query, .subquery query ∉ leaves e := by simp [hleaves]
  have hobject : ∀ v ∈ [Json.null], ∀ members, ¬(Json.object members).Inside v := by
    intro v hv members hin
    obtain rfl := List.mem_singleton.mp hv
    cases hin with
    | item hu => cases hu
    | member hm => cases hm
  refine ⟨hsubquery, hobject, ?_⟩
  obtain ⟨-, -, -, henough⟩ := toSql_fails_at_leaf e [.null]
  refine (henough hsubquery hobject).mpr fun position hposition => ?_
  obtain rfl : 0 = position := Option.some.inj hposition
  exact Nat.zero_lt_one

end Expression

end QueryScope
