import KeyChord.Context.Value

/-!
# Contexts

A context is what an application says about itself when a keystroke arrives: a value for each of
some keys. Keys are listed in the order in which they first got a value.

- `Context.get?_set`: a key that is given a value has this value, and other keys keep theirs.
- `Context.get?_erase`: a key that is removed has no value, and other keys keep theirs.
-/

namespace KeyChord

/-- A value for each of finitely many keys. -/
structure Context where
  /-- The keys and their values. -/
  entries : List (String × Value)
  deriving DecidableEq

namespace Context

/-- The context without keys. -/
def empty : Context := ⟨[]⟩

/-- The value of a key. -/
def get? (c : Context) (key : String) : Option Value :=
  c.entries.lookup key

/-- The number of keys. -/
def size (c : Context) : Nat :=
  c.entries.length

/-- Puts a value at the place of its key, or at the end if the key is new. -/
def setEntry (key : String) (value : Value) : List (String × Value) → List (String × Value)
  | [] => [(key, value)]
  | entry :: rest =>
    if key == entry.1 then (key, value) :: rest else entry :: setEntry key value rest

/-- The context in which the key has the value. -/
def set (c : Context) (key : String) (value : Value) : Context :=
  ⟨setEntry key value c.entries⟩

/-- The context in which the key has no value. -/
def erase (c : Context) (key : String) : Context :=
  ⟨c.entries.filter (·.1 != key)⟩

/-- Whether the key has a value that counts as true. -/
def isTruthy (c : Context) (key : String) : Bool :=
  (c.get? key).any Value.isTruthy

@[simp]
theorem get?_empty (key : String) : empty.get? key = none := rfl

theorem lookup_setEntry (key : String) (value : Value) (entries : List (String × Value))
    (k : String) :
    (setEntry key value entries).lookup k = if k = key then some value else entries.lookup k := by
  induction entries with
  | nil => grind [setEntry]
  | cons entry rest ih => grind [setEntry]

@[simp]
theorem get?_set (c : Context) (key : String) (value : Value) (k : String) :
    (c.set key value).get? k = if k = key then some value else c.get? k :=
  lookup_setEntry key value c.entries k

@[simp]
theorem get?_erase (c : Context) (key k : String) :
    (c.erase key).get? k = if k = key then none else c.get? k := by
  unfold erase get?
  induction c.entries with
  | nil => simp
  | cons entry rest ih => grind

end Context

end KeyChord
