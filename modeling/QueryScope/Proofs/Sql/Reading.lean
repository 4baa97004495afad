import QueryScope.Proofs.Sql.Literals

/-!
# Operator trees are read back

A reader for the SQL text of operator trees. It knows no precedence: an opening parenthesis starts
an operation, what stands behind the first operand says which one it is, and a closing parenthesis
ends it. Every operator tree is read back from its text, whatever names and texts there are in it,
so no two of them have the same text.
-/

namespace QueryScope

namespace Sql

/-! ## The characters of a text -/

theorem toList_open : "(".toList = ['('] := by decide

theorem toList_close : ")".toList = [')'] := by decide

theorem toList_blank : " ".toList = [' '] := by decide

theorem toList_binary (sign left right : String) : (binary sign left right).toList =
    '(' :: (left.toList ++ (' ' :: (sign.toList ++ [' ']) ++ (right.toList ++ [')']))) := by
  simp only [binary, toString_eq_self, String.toList_append, toList_open, toList_close,
    toList_blank, List.append_assoc, List.cons_append, List.nil_append]

theorem toList_negation (value : String) : (negation value).toList =
    '(' :: ("NOT ".toList ++ (value.toList ++ [')'])) := by
  have hopen : "(NOT ".toList = '(' :: "NOT ".toList := by decide
  simp only [negation, toString_eq_self, String.toList_append, hopen, toList_close,
    List.append_assoc, List.cons_append]

theorem toList_nullTest (value : String) : (nullTest value).toList =
    '(' :: (value.toList ++ " IS NULL)".toList) := by
  simp only [nullTest, toString_eq_self, String.toList_append, toList_open, List.cons_append,
    List.nil_append]

theorem toList_range (value low high : String) : (range value low high).toList =
    '(' :: (value.toList ++ (" BETWEEN ".toList ++
      (low.toList ++ (" AND ".toList ++ (high.toList ++ [')']))))) := by
  simp only [range, toString_eq_self, String.toList_append, toList_open, toList_close,
    List.append_assoc, List.cons_append, List.nil_append]

end Sql

namespace Expression

open Sql (isWordStart isWordChar lexBody? lexBody?_doubled)

theorem dropPrefix?_append (start rest : List Char) :
    (start ++ rest).dropPrefix? start = some rest :=
  List.dropPrefix?_append_of_beq rest (beq_self_eq_true _)

/-! ## What follows the first operand -/

/-- What may follow the first operand of an operation. -/
inductive Continuation where
  | comparison (operator : ComparisonOperator)
  | logical (operator : LogicalOperator)
  | arithmetic (operator : ArithmeticOperator)
  | isNull
  | between
deriving DecidableEq

namespace Continuation

def spaced (sign : String) : List Char :=
  ' ' :: (sign.toList ++ [' '])

def text : Continuation → List Char
  | .comparison operator => spaced operator.symbol
  | .logical operator => spaced (Named.name operator)
  | .arithmetic operator => spaced operator.symbol
  | .isNull => " IS NULL)".toList
  | .between => " BETWEEN ".toList

def all : List Continuation :=
  (Named.all : List ComparisonOperator).map .comparison ++
    (Named.all : List LogicalOperator).map .logical ++
    (Named.all : List ArithmeticOperator).map .arithmetic ++ [.isNull, .between]

def read? (text : List Char) : Option (Continuation × List Char) :=
  all.findSome? fun c => (text.dropPrefix? c.text).map fun rest => (c, rest)

theorem mem_all (c : Continuation) : c ∈ all := by
  cases c with
  | comparison operator => cases operator <;> decide
  | logical operator => cases operator <;> decide
  | arithmetic operator => cases operator <;> decide
  | isNull => decide
  | between => decide

theorem exists_text (c : Continuation) : ∃ tail, c.text = ' ' :: tail := by
  cases c with
  | comparison operator | logical operator | arithmetic operator => exact ⟨_, rfl⟩
  | isNull => exact ⟨"IS NULL)".toList, by decide⟩
  | between => exact ⟨"BETWEEN ".toList, by decide⟩

/-- The blank behind it keeps a sign apart from a longer one. -/
theorem eq_of_isPrefix : ∀ c ∈ all, ∀ d ∈ all, c.text <+: d.text → c = d := by
  decide

theorem read?_text (c : Continuation) (rest : List Char) :
    read? (c.text ++ rest) = some (c, rest) := by
  have hfound : (read? (c.text ++ rest)).isSome := by
    rw [read?, List.findSome?_isSome_iff]
    refine ⟨c, c.mem_all, ?_⟩
    rw [dropPrefix?_append]
    rfl
  obtain ⟨found, hread⟩ := Option.isSome_iff_exists.mp hfound
  obtain ⟨d, hd, hmap⟩ := List.exists_of_findSome?_eq_some hread
  obtain ⟨after, hdrop, rfl⟩ := Option.map_eq_some_iff.mp hmap
  obtain ⟨start, htext, hstart⟩ := List.dropPrefix?_eq_some_iff.mp hdrop
  obtain rfl := eq_of_beq hstart
  -- both are at the start of the same text, so one of them starts the other
  have hstarts : d.text <+: c.text ++ rest := ⟨after, htext.symm⟩
  have hstarts : d.text <+: c.text ∨ c.text <+: d.text :=
    List.prefix_or_prefix_of_prefix hstarts (List.prefix_append _ _)
  obtain rfl : d = c := by
    rcases hstarts with h | h
    · exact eq_of_isPrefix d hd c c.mem_all h
    · exact (eq_of_isPrefix c c.mem_all d hd h).symm
  rw [hread, List.append_cancel_left htext]

end Continuation

/-! ## The reader -/

/-- The leaf at the start of a text, and what comes after it. -/
def readLeaf? : List Char → Option (Expression × List Char)
  | [] => none
  | c :: body =>
    if c = '\'' then
      (lexBody? '\'' body).map fun (chars, rest) => (.string (String.ofList chars), rest)
    else if c = '"' then
      (lexBody? '"' body).map fun (chars, rest) => (.identifier (String.ofList chars), rest)
    else if isWordStart c then
      some (.identifier (String.ofList ((c :: body).takeWhile isWordChar)),
        (c :: body).dropWhile isWordChar)
    else if c = '-' then
      some (.long (Int64.ofInt (-digitsValue (body.takeWhile Char.isDigit))),
        body.dropWhile Char.isDigit)
    else
      some (.long (Int64.ofInt (digitsValue ((c :: body).takeWhile Char.isDigit))),
        (c :: body).dropWhile Char.isDigit)

/-- The last operand, and the parenthesis behind it. -/
def readLast? (read : List Char → Option (Expression × List Char)) (build : Expression → Expression)
    (text : List Char) : Option (Expression × List Char) := do
  let (last, text) ← read text
  let rest ← text.dropPrefix? [')']
  return (build last, rest)

/-- What remains of an operation after its first operand and what follows that. -/
def Continuation.finish? (read : List Char → Option (Expression × List Char)) (first : Expression) :
    Continuation → List Char → Option (Expression × List Char)
  | .comparison operator, text => readLast? read (.comparison operator first) text
  | .logical operator, text => readLast? read (.logicalBinary operator first) text
  | .arithmetic operator, text => readLast? read (.arithmeticBinary operator first) text
  | .isNull, text => some (.isNull first, text)
  | .between, text => do
    let (min, text) ← read text
    let text ← text.dropPrefix? " AND ".toList
    readLast? read (.between first min) text

/-- The operator tree at the start of a text, and what comes after it. The fuel bounds the depth. -/
def read? : (fuel : Nat) → List Char → Option (Expression × List Char)
  | 0, _ => none
  | fuel + 1, '(' :: body =>
    match body.dropPrefix? "NOT ".toList with
    | some text => readLast? (read? fuel) .not text
    | none => do
      let (first, text) ← read? fuel body
      let (c, text) ← Continuation.read? text
      c.finish? (read? fuel) first text
  | _ + 1, text => readLeaf? text

/-- The operator tree that a text is. -/
def ofSql? (text : String) : Option Expression :=
  match read? (text.length + 1) text.toList with
  | some (e, []) => some e
  | _ => none

/-! ## Leaves -/

/-- A tree of operators over names, integers and texts. -/
inductive IsOperatorTree : Expression → Prop where
  | identifier (value : String) : IsOperatorTree (.identifier value)
  | long (value : Int64) : IsOperatorTree (.long value)
  | string (value : String) : IsOperatorTree (.string value)
  | comparison (operator : ComparisonOperator) {left right : Expression}
    (hleft : IsOperatorTree left) (hright : IsOperatorTree right) :
    IsOperatorTree (.comparison operator left right)
  | logicalBinary (operator : LogicalOperator) {left right : Expression}
    (hleft : IsOperatorTree left) (hright : IsOperatorTree right) :
    IsOperatorTree (.logicalBinary operator left right)
  | arithmeticBinary (operator : ArithmeticOperator) {left right : Expression}
    (hleft : IsOperatorTree left) (hright : IsOperatorTree right) :
    IsOperatorTree (.arithmeticBinary operator left right)
  | not {value : Expression} (hvalue : IsOperatorTree value) : IsOperatorTree (.not value)
  | isNull {value : Expression} (hvalue : IsOperatorTree value) : IsOperatorTree (.isNull value)
  | between {value min max : Expression} (hvalue : IsOperatorTree value)
    (hmin : IsOperatorTree min) (hmax : IsOperatorTree max) :
    IsOperatorTree (.between value min max)

/-- An operand ends where the text does, at a blank or at a closing parenthesis. -/
def IsEnd (rest : List Char) : Prop :=
  ∀ c, rest.head? = some c → c = ' ' ∨ c = ')'

variable {rest : List Char}

theorem span_append {p : Char → Bool} {chars : List Char} (h : ∀ c ∈ chars, p c = true)
    (hrest : IsEnd rest) (hblank : p ' ' = false) (hclose : p ')' = false) :
    (chars ++ rest).takeWhile p = chars ∧ (chars ++ rest).dropWhile p = rest := by
  have hstop : ∀ c, rest.head? = some c → p c = false := by
    intro c hc
    rcases hrest c hc with rfl | rfl
    · exact hblank
    · exact hclose
  exact ⟨takeWhile_word h hstop, dropWhile_word h hstop⟩

theorem IsEnd.head?_ne (h : IsEnd rest) {c : Char} (hblank : c ≠ ' ') (hclose : c ≠ ')') :
    rest.head? ≠ some c := by
  intro heq
  rcases h c heq with rfl | rfl
  · exact hblank rfl
  · exact hclose rfl

theorem readLeaf?_string (s : String) (hrest : IsEnd rest) :
    readLeaf? ((Sql.quoteString s).toList ++ rest) = some (.string s, rest) := by
  have hbody := lexBody?_doubled (hrest.head?_ne (c := '\'') (by decide) (by decide)) s.toList
  rw [Sql.quoteString, String.toList_ofList, Sql.delimited, List.cons_append, readLeaf?,
    if_pos rfl, List.append_assoc, List.singleton_append, hbody]
  simp only [Option.map_some, String.ofList_toList]

theorem readLeaf?_identifier (name : String) (hrest : IsEnd rest) :
    readLeaf? ((Sql.quoteIdentifier name).toList ++ rest) = some (.identifier name, rest) := by
  by_cases hword : Sql.IsWord name
  · rw [Sql.quoteIdentifier_of_isWord hword]
    have hchars : ∀ c ∈ name.toList, isWordChar c = true :=
      fun c hc => Sql.isWordChar_iff.mpr (hword.letters c hc)
    obtain ⟨htake, hdrop⟩ := span_append hchars hrest (by decide) (by decide)
    obtain ⟨c, tail, hname, hstart⟩ := hword.startsWith
    have hquote : c ≠ '\'' := by
      rintro rfl
      cases hstart
    have hdouble : c ≠ '"' := by
      rintro rfl
      cases hstart
    rw [hname, List.cons_append] at htake hdrop
    rw [hname, List.cons_append, readLeaf?, if_neg hquote, if_neg hdouble, if_pos hstart, htake,
      hdrop, ← hname, String.ofList_toList]
  · have hbody := lexBody?_doubled (hrest.head?_ne (c := '"') (by decide) (by decide)) name.toList
    rw [Sql.quoteIdentifier_of_not_isWord hword, String.toList_ofList, Sql.delimited,
      List.cons_append, readLeaf?, if_neg (by decide), if_pos rfl, List.append_assoc,
      List.singleton_append, hbody]
    simp only [Option.map_some, String.ofList_toList]

theorem readLeaf?_long (n : Int64) (hrest : IsEnd rest) :
    readLeaf? ((toString n).toList ++ rest) = some (.long n, rest) := by
  have hdigits (k : Nat) := span_append (p := Char.isDigit)
    (fun c (hc : c ∈ (Nat.repr k).toList) => isDigit_of_mem_repr hc) hrest (by decide) (by decide)
  have hvalue (k : Nat) : digitsValue (Nat.repr k).toList = k := by
    rw [Nat.toList_repr, digitsValue_toDigits]
  have htext : toString n = Int.repr n.toInt := rfl
  rw [htext]
  cases hn : n.toInt with
  | ofNat k =>
    obtain ⟨htake, hdrop⟩ := hdigits k
    -- a digit starts nothing but a number
    obtain ⟨c, tail, hrepr, hc⟩ := startsWith_repr k
    obtain ⟨hword, hdouble⟩ := Sql.isForeign_of_isNumberStart (Bool.or_eq_true_iff.mpr (Or.inl hc))
    have hquote : c ≠ '\'' := by
      rintro rfl
      cases hc
    have hsign : c ≠ '-' := by
      rintro rfl
      cases hc
    have hread : Int64.ofInt (digitsValue (c :: tail)) = n := by
      rw [← hrepr, hvalue, ← Int64.ofInt_toInt n, hn]
      rfl
    rw [hrepr, List.cons_append] at htake hdrop
    rw [show (Int.repr (.ofNat k)).toList = c :: tail from hrepr, List.cons_append, readLeaf?,
      if_neg hquote, if_neg hdouble, if_neg (Bool.eq_false_iff.mp hword), if_neg hsign, htake,
      hdrop, hread]
  | negSucc k =>
    obtain ⟨htake, hdrop⟩ := hdigits (k + 1)
    have hread : Int64.ofInt (-(digitsValue (Nat.repr (k + 1)).toList : Nat)) = n := by
      rw [hvalue, ← Int64.ofInt_toInt n, hn]
      rfl
    have hrepr : (Int.repr (.negSucc k)).toList = '-' :: (Nat.repr (k + 1)).toList := by
      simp [Int.repr]
    rw [hrepr, List.cons_append, readLeaf?, if_neg (by decide), if_neg (by decide),
      if_neg (by decide), if_pos rfl, htake, hdrop, hread]

/-! ## Operations -/

/-- The text of an expression, from which it is read back when the operand ends there. -/
structure ReadsBack (e : Expression) (text : String) : Prop where
  toSql : ∀ p, e.toSql p = .ok text
  startsWith : StartsWith (· != 'N') text.toList
  read? : ∀ rest, IsEnd rest → ∀ fuel, text.length < fuel →
    read? fuel (text.toList ++ rest) = some (e, rest)

theorem read?_of_ne (fuel : Nat) {c : Char} (h : c ≠ '(') (body : List Char) :
    read? (fuel + 1) (c :: body) = readLeaf? (c :: body) := by
  rw [read?]
  intro tail heq
  exact h (List.cons.inj heq).1

theorem isEnd_close (rest : List Char) : IsEnd (')' :: rest) := by
  rintro c ⟨⟩
  exact Or.inr rfl

theorem isEnd_blank (rest : List Char) : IsEnd (' ' :: rest) := by
  rintro c ⟨⟩
  exact Or.inl rfl

namespace ReadsBack

variable {e left right low high : Expression} {text leftText rightText lowText highText : String}
  {fuel : Nat}

theorem leaf {start : Char → Bool} (htext : ∀ p, e.toSql p = .ok text)
    (hstart : StartsWith start text.toList) (hN : start 'N' = false)
    (hparenthesis : start '(' = false)
    (hread : ∀ rest, IsEnd rest → readLeaf? (text.toList ++ rest) = some (e, rest)) :
    ReadsBack e text := by
  have hdiffers {c d : Char} (hc : start c = true) (hd : start d = false) : c ≠ d := by
    rintro rfl
    cases hc.symm.trans hd
  refine ⟨htext, hstart.mono fun c hc => bne_iff_ne.mpr (hdiffers hc hN), ?_⟩
  intro rest hrest fuel hfuel
  obtain ⟨fuel, rfl⟩ := Nat.exists_eq_succ_of_ne_zero (Nat.ne_of_gt (Nat.zero_lt_of_lt hfuel))
  obtain ⟨c, tail, hchars, hc⟩ := hstart
  rw [← hread rest hrest, hchars, List.cons_append, read?_of_ne fuel (hdiffers hc hparenthesis)]

theorem readLast? (h : ReadsBack e text) (build : Expression → Expression)
    (hfuel : text.length < fuel) (rest : List Char) :
    Expression.readLast? (Expression.read? fuel) build (text.toList ++ ')' :: rest) =
      some (build e, rest) := by
  have hclose : (')' :: rest).dropPrefix? [')'] = some rest := dropPrefix?_append [')'] rest
  simp only [Expression.readLast?, h.read? _ (isEnd_close rest) fuel hfuel, Option.bind_eq_bind,
    Option.bind_some, hclose]
  rfl

theorem dropPrefix?_not (h : ReadsBack e text) (rest : List Char) :
    (text.toList ++ rest).dropPrefix? "NOT ".toList = none := by
  obtain ⟨c, tail, htext, hc⟩ := h.startsWith
  rw [Option.eq_none_iff_forall_ne_some]
  intro after hdrop
  obtain ⟨start, hsame, hstart⟩ := List.dropPrefix?_eq_some_iff.mp hdrop
  obtain rfl := eq_of_beq hstart
  -- no operand starts with that letter: a name with it is written in double quotes
  have hnot : "NOT ".toList = 'N' :: "OT ".toList := by decide
  rw [htext, hnot, List.cons_append, List.cons_append] at hsame
  exact bne_iff_ne.mp hc (List.cons.inj hsame).1

/-- The first operand is read up to what follows it, which says which operation it is. -/
theorem read?_continuation (h : ReadsBack e text) (c : Continuation) (hfuel : text.length < fuel)
    (rest : List Char) :
    Expression.read? (fuel + 1) ('(' :: (text.toList ++ (c.text ++ rest))) =
      c.finish? (Expression.read? fuel) e rest := by
  have hend : IsEnd (c.text ++ rest) := by
    obtain ⟨tail, htext⟩ := c.exists_text
    rw [htext]
    exact isEnd_blank _
  simp only [Expression.read?, h.dropPrefix?_not, h.read? _ hend fuel hfuel, Option.bind_eq_bind,
    Option.bind_some, Continuation.read?_text]

/-- To read an operation back, read what is behind its parenthesis with fuel for the operands. -/
theorem operation {body : List Char} (htext : ∀ p, e.toSql p = .ok text)
    (hbody : text.toList = '(' :: body)
    (hread : ∀ rest fuel, body.length < fuel + 1 →
      Expression.read? (fuel + 1) ('(' :: (body ++ rest)) = some (e, rest)) :
    ReadsBack e text where
  toSql := htext
  startsWith := ⟨'(', body, hbody, by decide⟩
  read? rest _ fuel hfuel := by
    obtain ⟨fuel, rfl⟩ := Nat.exists_eq_succ_of_ne_zero (Nat.ne_of_gt (Nat.zero_lt_of_lt hfuel))
    have hlength : text.length = body.length + 1 := by
      rw [← String.length_toList, hbody, List.length_cons]
    rw [hbody]
    exact hread rest fuel (by omega)

theorem binary (hleft : ReadsBack left leftText) (hright : ReadsBack right rightText)
    (build : Expression → Expression → Expression) (c : Continuation) {sign : String}
    (hsign : c.text = Continuation.spaced sign)
    (htext : ∀ p, (build left right).toSql p =
      return Sql.binary sign (← left.toSql p) (← right.toSql p))
    (hfinish : ∀ read text, c.finish? read left text =
      Expression.readLast? read (build left) text) :
    ReadsBack (build left right) (Sql.binary sign leftText rightText) := by
  have hbody : (Sql.binary sign leftText rightText).toList =
      '(' :: (leftText.toList ++ (c.text ++ (rightText.toList ++ [')']))) := by
    rw [Sql.toList_binary, hsign]
    rfl
  refine operation (fun p => ?_) hbody fun rest fuel hfuel => ?_
  · rw [htext, hleft.toSql, hright.toSql]
    rfl
  · simp only [List.length_append, String.length_toList, List.length_singleton] at hfuel
    simp only [List.append_assoc, List.singleton_append]
    rw [hleft.read?_continuation c (by omega), hfinish, hright.readLast? _ (by omega)]

theorem not (h : ReadsBack e text) : ReadsBack (.not e) (Sql.negation text) := by
  refine operation (fun p => ?_) (Sql.toList_negation text) fun rest fuel hfuel => ?_
  · rw [Expression.toSql, h.toSql]
    rfl
  · simp only [List.length_append, String.length_toList, List.length_singleton] at hfuel
    simp only [List.append_assoc, List.singleton_append, Expression.read?, dropPrefix?_append]
    rw [h.readLast? _ (by omega)]

theorem isNull (h : ReadsBack e text) : ReadsBack (.isNull e) (Sql.nullTest text) := by
  refine operation (fun p => ?_) (Sql.toList_nullTest text) fun rest fuel hfuel => ?_
  · rw [Expression.toSql, h.toSql]
    rfl
  · have hlength : 0 < " IS NULL)".length := by decide
    simp only [List.length_append, String.length_toList] at hfuel
    rw [List.append_assoc]
    exact h.read?_continuation .isNull (by omega) rest

theorem between (h : ReadsBack e text) (hlow : ReadsBack low lowText)
    (hhigh : ReadsBack high highText) :
    ReadsBack (.between e low high) (Sql.range text lowText highText) := by
  have hbody : (Sql.range text lowText highText).toList =
      '(' :: (text.toList ++ (Continuation.between.text ++
        (lowText.toList ++ (" AND ".toList ++ (highText.toList ++ [')']))))) :=
    Sql.toList_range text lowText highText
  refine operation (fun p => ?_) hbody fun rest fuel hfuel => ?_
  · rw [Expression.toSql, h.toSql, hlow.toSql, hhigh.toSql]
    rfl
  · simp only [List.length_append, String.length_toList, List.length_singleton] at hfuel
    have hand : " AND ".toList = ' ' :: "AND ".toList := by decide
    have hend (rest : List Char) : IsEnd (" AND ".toList ++ rest) := by
      rw [hand]
      exact isEnd_blank _
    simp only [List.append_assoc, List.singleton_append]
    rw [h.read?_continuation .between (by omega), Continuation.finish?,
      hlow.read? _ (hend _) _ (by omega)]
    simp only [Option.bind_eq_bind, Option.bind_some, dropPrefix?_append]
    rw [hhigh.readLast? _ (by omega)]

theorem identifier (name : String) : ReadsBack (.identifier name) (Sql.quoteIdentifier name) := by
  have hread : ∀ rest, IsEnd rest →
      readLeaf? ((Sql.quoteIdentifier name).toList ++ rest) = some (.identifier name, rest) :=
    fun _ => readLeaf?_identifier name
  by_cases hword : Sql.IsWord name
  · have hstart : StartsWith isWordStart (Sql.quoteIdentifier name).toList := by
      rw [Sql.quoteIdentifier_of_isWord hword]
      exact hword.startsWith
    exact leaf (fun _ => rfl) hstart (by decide) (by decide) hread
  · have hstart : StartsWith (· == '"') (Sql.quoteIdentifier name).toList := by
      rw [Sql.quoteIdentifier_of_not_isWord hword, String.toList_ofList, Sql.delimited]
      exact ⟨'"', _, rfl, by decide⟩
    exact leaf (fun _ => rfl) hstart (by decide) (by decide) hread

theorem long (n : Int64) : ReadsBack (.long n) (toString n) :=
  leaf (fun _ => rfl) (startsWith_toString n) (by decide) (by decide) fun _ => readLeaf?_long n

theorem string (s : String) : ReadsBack (.string s) (Sql.quoteString s) := by
  have hstart : StartsWith (· == '\'') (Sql.quoteString s).toList :=
    ⟨'\'', _, String.toList_ofList, by decide⟩
  exact leaf (fun _ => rfl) hstart (by decide) (by decide) fun _ => readLeaf?_string s

end ReadsBack

/-! ## Trees -/

theorem IsOperatorTree.exists_readsBack {e : Expression} (h : IsOperatorTree e) :
    ∃ text, ReadsBack e text := by
  induction h with
  | identifier name => exact ⟨_, .identifier name⟩
  | long n => exact ⟨_, .long n⟩
  | string s => exact ⟨_, .string s⟩
  | comparison operator _ _ ihleft ihright =>
    obtain ⟨_, hleft⟩ := ihleft
    obtain ⟨_, hright⟩ := ihright
    exact ⟨_, hleft.binary hright (.comparison operator) (.comparison operator) rfl
      (fun _ => rfl) fun _ _ => rfl⟩
  | logicalBinary operator _ _ ihleft ihright =>
    obtain ⟨_, hleft⟩ := ihleft
    obtain ⟨_, hright⟩ := ihright
    exact ⟨_, hleft.binary hright (.logicalBinary operator) (.logical operator) rfl
      (fun _ => rfl) fun _ _ => rfl⟩
  | arithmeticBinary operator _ _ ihleft ihright =>
    obtain ⟨_, hleft⟩ := ihleft
    obtain ⟨_, hright⟩ := ihright
    exact ⟨_, hleft.binary hright (.arithmeticBinary operator) (.arithmetic operator) rfl
      (fun _ => rfl) fun _ _ => rfl⟩
  | not _ ih =>
    obtain ⟨_, hvalue⟩ := ih
    exact ⟨_, hvalue.not⟩
  | isNull _ ih =>
    obtain ⟨_, hvalue⟩ := ih
    exact ⟨_, hvalue.isNull⟩
  | between _ _ _ ihvalue ihlow ihhigh =>
    obtain ⟨_, hvalue⟩ := ihvalue
    obtain ⟨_, hlow⟩ := ihlow
    obtain ⟨_, hhigh⟩ := ihhigh
    exact ⟨_, hvalue.between hlow hhigh⟩

/-- An operator tree has a text, under any parameters, and is read back from it. -/
theorem IsOperatorTree.exists_ofSql? {e : Expression} (h : IsOperatorTree e) :
    ∃ text, (∀ p, e.toSql p = .ok text) ∧ ofSql? text = some e := by
  obtain ⟨text, htext⟩ := h.exists_readsBack
  refine ⟨text, htext.toSql, ?_⟩
  have hread : read? (text.length + 1) text.toList = some (e, []) := by
    have hempty := htext.read? [] nofun (text.length + 1) (Nat.lt_succ_self _)
    rwa [List.append_nil] at hempty
  simp only [ofSql?, hread]

/-- Two operator trees have the same text only if they are the same tree, whatever names and texts
there are in them and whatever parameters they are written with. -/
theorem toSql_inj_of_isOperatorTree {e₁ e₂ : Expression} (h₁ : IsOperatorTree e₁)
    (h₂ : IsOperatorTree e₂) (p₁ p₂ : Option (List Json)) :
    ∃ t₁ t₂, e₁.toSql p₁ = .ok t₁ ∧ e₂.toSql p₂ = .ok t₂ ∧ (t₁ = t₂ → e₁ = e₂) := by
  obtain ⟨t₁, htext₁, hread₁⟩ := h₁.exists_ofSql?
  obtain ⟨t₂, htext₂, hread₂⟩ := h₂.exists_ofSql?
  refine ⟨t₁, t₂, htext₁ p₁, htext₂ p₂, ?_⟩
  rintro rfl
  exact Option.some.inj (hread₁.symm.trans hread₂)

theorem toSql_inj_of_isOperatorTree_conjunction :
    let e₁ : Expression := .logicalBinary .and (.identifier "a") (.identifier "b")
    let e₂ : Expression := .identifier "(a AND b)"
    IsOperatorTree e₁ ∧ IsOperatorTree e₂ ∧
      ∃ t₁ t₂, e₁.toSql none = .ok t₁ ∧ e₂.toSql none = .ok t₂ ∧ t₁ ≠ t₂ := by
  intro e₁ e₂
  have h₁ : IsOperatorTree e₁ := .logicalBinary .and (.identifier "a") (.identifier "b")
  have h₂ : IsOperatorTree e₂ := .identifier "(a AND b)"
  have hne : e₁ ≠ e₂ := by simp [e₁, e₂]
  obtain ⟨t₁, t₂, htext₁, htext₂, hinj⟩ := toSql_inj_of_isOperatorTree h₁ h₂ none none
  exact ⟨h₁, h₂, t₁, t₂, htext₁, htext₂, fun heq => hne (hinj heq)⟩

end Expression

end QueryScope
