import KeyChord.When.Parser

/-!
# When-clauses

A when-clause as it stands in a keymap: its text, and the expression that the text writes, which is
read once. A text that writes none is kept as a clause that never holds, so that a slip disables a
binding instead of enabling it everywhere.
-/

namespace KeyChord.When

/-- A when-clause of a command. -/
structure Clause where
  /-- The text of the clause. -/
  source : String
  /-- The expression that the text writes, if it writes one. -/
  expr : Option Expr
  /-- The expression is that of the text. -/
  expr_eq : expr = (parse source).toOption
  deriving DecidableEq

namespace Clause

/-- The clause of a text. -/
def ofSource (source : String) : Clause :=
  ⟨source, (parse source).toOption, rfl⟩

/-- Whether the text writes an expression. -/
def isValid (clause : Clause) : Bool :=
  clause.expr.isSome

/-- Whether the clause holds in a context. -/
def holds (clause : Clause) (c : Context) : Bool :=
  clause.expr.any (·.eval c)

/-- The clause of a text is valid exactly if the text parses. -/
theorem isValid_ofSource (source : String) :
    (ofSource source).isValid = true ↔ ∃ e, parse source = .ok e := by
  cases h : parse source <;> simp [ofSource, isValid, Except.toOption, h]

end Clause

end KeyChord.When
