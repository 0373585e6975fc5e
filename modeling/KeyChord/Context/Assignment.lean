import KeyChord.Context.Basic

/-!
# Context assignments

An assignment `key=value` gives a context key a value; a key alone is given the value true.
-/

namespace KeyChord.Context

/-- The key and the value of an assignment, which is cut at its first equals sign. There is none
without a key. -/
def readAssignment? (text : String) : Option (String × Value) :=
  let cs := text.toList
  let key := String.ofList (Text.trimChars (cs.takeWhile (· != '=')))
  let value := match cs.dropWhile (· != '=') with
    | [] => .bool true
    | _ :: rest => Value.read (String.ofList rest)
  if key = "" then none else some (key, value)

/-- The context after some assignments in turn, or the first of them that is none. -/
def assign (c : Context) (assignments : List String) : Except String Context :=
  assignments.foldlM (fun c text =>
    match readAssignment? text with
    | some (key, value) => .ok (c.set key value)
    | none => .error text) c

end KeyChord.Context
