/-!
# Parsers from outside

JSON, stored preferences and universally unique identifiers are parsed by libraries that the program
builds on. The program is written for any such parsers; they refuse in words of their own, which it
passes on. Each of these types comes with a parser that follows the published form of its texts.
-/

namespace QueryScope

/-- A parser of values of type `α` from input of type `σ`. -/
class Parser (σ α : Type) where
  /-- The value that the input stands for, or why it stands for none. -/
  parse : σ → Except String α

namespace Parser

variable {σ α : Type}

/-- What is written for a value is parsed as this value. -/
def ReadsBack [Parser σ α] (write : α → σ) : Prop :=
  ∀ a, parse (write a) = .ok a

/-- Every value that is parsed has a property. -/
def Yields (σ : Type) [Parser σ α] (P : α → Prop) : Prop :=
  ∀ (input : σ) (a : α), parse input = .ok a → P a

/-- The parser that refuses all input that stands for nothing in the same words. -/
@[reducible] def ofOption (refusal : String) (parse? : σ → Option α) : Parser σ α where
  parse input := (parse? input).elim (.error refusal) .ok

section

variable {refusal : String} {parse? : σ → Option α}

theorem parse_ofOption_eq_ok_iff {input : σ} {a : α} :
    (ofOption refusal parse?).parse input = .ok a ↔ parse? input = some a := by
  change (parse? input).elim (Except.error refusal) Except.ok = Except.ok a ↔ _
  cases parse? input <;> simp

/-- A parser knows the texts of all values if it finds each value in its own text. -/
theorem readsBack_ofOption {write : α → σ} (h : ∀ a, parse? (write a) = some a) :
    @ReadsBack _ _ (ofOption refusal parse?) write :=
  fun a => parse_ofOption_eq_ok_iff.mpr (h a)

end

end Parser

end QueryScope
