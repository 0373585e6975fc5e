import KeyChord.Context.Basic
import KeyChord.Json.Reader

/-!
# Contexts in JSON

A context is written as a JSON object of truth values, numbers and texts. Of several members of one
name the last counts.
-/

namespace KeyChord

/-- The context value that a JSON value stands for. -/
def Value.ofJson? : Json → Option Value
  | .bool b => some (.bool b)
  | .number n => n.value?.map .number
  | .string s => some (.string s)
  | _ => none

/-- The context that a JSON value stands for. -/
def Context.ofJson? : Json → Option Context
  | .object members =>
    members.foldlM (fun c (key, json) => (Value.ofJson? json).map (c.set key)) empty
  | _ => none

/-- The context that a JSON text writes. -/
def Context.readJson (text : String) : Except Json.Error Context := do
  match ofJson? (← Json.read text) with
  | some c => .ok c
  | none => .error .form

end KeyChord
