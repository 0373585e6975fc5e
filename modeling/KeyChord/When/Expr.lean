import KeyChord.Context.Basic

/-!
# When-clause expressions

The conditions under which a keybinding is active: a boolean language over context keys. A key alone
holds when its value counts as true; a comparison reads the value of its key, and neither `==` nor
`!=` holds of a key without a value.

- `When.Expr.keys_eq_eraseDups`: the listed keys are the occurrences without their repetitions.
- `When.Expr.mem_keys`: the listed keys are those that occur.
-/

namespace KeyChord

/-- Whether two values are of one kind and equal. -/
def Value.agrees : Value → Value → Bool
  | .bool a, .bool b => a == b
  | .number a, .number b => a.equals b
  | .string a, .string b => a == b
  | _, _ => false

namespace When

/-- A condition on contexts. -/
inductive Expr where
  /-- The value of the key counts as true. -/
  | key (key : String)
  /-- The condition does not hold. -/
  | not (inner : Expr)
  /-- The key has the given value. -/
  | equals (key : String) (value : Value)
  /-- The key has another value than the given one. -/
  | differs (key : String) (value : Value)
  /-- Both conditions hold. -/
  | and (left right : Expr)
  /-- At least one of the conditions holds. -/
  | or (left right : Expr)
  deriving DecidableEq, Repr

namespace Expr

/-- Whether the condition holds in a context. -/
def eval (c : Context) : Expr → Bool
  | key k => c.isTruthy k
  | not inner => !inner.eval c
  | equals k value => (c.get? k).any value.agrees
  | differs k value => (c.get? k).any (!value.agrees ·)
  | and left right => left.eval c && right.eval c
  | or left right => left.eval c || right.eval c

/-- Whether the key occurs in the condition. -/
def Mentions (k : String) : Expr → Prop
  | key k' => k = k'
  | not inner => inner.Mentions k
  | equals k' _ => k = k'
  | differs k' _ => k = k'
  | and left right => left.Mentions k ∨ right.Mentions k
  | or left right => left.Mentions k ∨ right.Mentions k

/-- The keys from left to right, once for each time that they occur. -/
def occurrences : Expr → List String
  | key k => [k]
  | not inner => inner.occurrences
  | equals k _ => [k]
  | differs k _ => [k]
  | and left right => left.occurrences ++ right.occurrences
  | or left right => left.occurrences ++ right.occurrences

/-- The keys that have been found, and behind them those of the condition that are new. -/
def collectKeys (found : List String) : Expr → List String
  | key k | equals k _ | differs k _ => if found.contains k then found else found ++ [k]
  | not inner => inner.collectKeys found
  | and left right | or left right => right.collectKeys (left.collectKeys found)

/-- The keys that occur, in the order of their first occurrence. -/
def keys (e : Expr) : List String :=
  e.collectKeys []

/-- The text of a condition, with parentheses around each `&&` and `||`. -/
def text : Expr → String
  | key k => k
  | not inner => "!" ++ inner.text
  | equals k value => k ++ " == " ++ value.text
  | differs k value => k ++ " != " ++ value.text
  | and left right => "(" ++ left.text ++ " && " ++ right.text ++ ")"
  | or left right => "(" ++ left.text ++ " || " ++ right.text ++ ")"

/-- The greatest number of operators on a way from the top of the condition to a key. -/
def height : Expr → Nat
  | key _ => 0
  | not inner => inner.height + 1
  | equals _ _ => 0
  | differs _ _ => 0
  | and left right => max left.height right.height + 1
  | or left right => max left.height right.height + 1

theorem mem_occurrences {k : String} {e : Expr} : k ∈ e.occurrences ↔ e.Mentions k := by
  induction e with
  | key | equals | differs => simp [occurrences, Mentions]
  | not _ ih => simpa [occurrences, Mentions] using ih
  | and _ _ ihl ihr | or _ _ ihl ihr => simp [occurrences, Mentions, ihl, ihr]

/-- Keys that have been found once each are followed by those of the condition that are new. -/
theorem collectKeys_eraseDups (e : Expr) (found : List String) :
    e.collectKeys found.eraseDups = (found ++ e.occurrences).eraseDups := by
  induction e generalizing found with
  | key k | equals k _ | differs k _ =>
    rw [collectKeys, occurrences, List.eraseDups_append]
    by_cases hk : k ∈ found <;> simp [List.removeAll, List.eraseDups_cons, hk]
  | not inner ih => exact ih found
  | and left right ihl ihr | or left right ihl ihr =>
    rw [collectKeys, occurrences, ihl, ihr, List.append_assoc]

/-- The listed keys are the occurrences without their repetitions. -/
theorem keys_eq_eraseDups (e : Expr) : e.keys = e.occurrences.eraseDups :=
  e.collectKeys_eraseDups []

/-- The listed keys are those that occur. -/
theorem mem_keys {k : String} {e : Expr} : k ∈ e.keys ↔ e.Mentions k := by
  rw [keys_eq_eraseDups, List.mem_eraseDups, mem_occurrences]

end Expr

end When

end KeyChord
