import KeyChord.Resolver.Basic
import KeyChord.Yaml.Decode

/-!
# Settings

What a user can set about chords, and the YAML text in which it is kept. Settings that are left out
have their default values, and a text that cannot be read gives the default settings altogether.
-/

namespace KeyChord

/-- The settings of the resolver. -/
structure Settings where
  /-- How long a chord waits, in milliseconds; times out of range are clamped on use. -/
  timeoutMs : UInt64 := 750
  /-- What happens to a keystroke that breaks a chord. -/
  policy : BreakPolicy := .swallow
  deriving DecidableEq

namespace Settings

instance : Inhabited Settings := ⟨{}⟩

/-- How long a chord waits, by a clock. -/
def timeout (s : Settings) (clock : Clock := .milliseconds) : Timeout :=
  clock.clamp (s.timeoutMs.toNat * clock.perMs)

/-- The resolver of a registry that works by the settings, with no chord pending. -/
def resolver (s : Settings) (registry : Registry) (clock : Clock := .milliseconds) : Resolver :=
  .ofRegistry registry (s.timeout clock) s.policy

/-- The text in which settings are kept. -/
def text (s : Settings) : String :=
  "chord_timeout_ms: " ++ toString s.timeoutMs ++ "\nchord_break: " ++ s.policy.word ++ "\n"

open Yaml

/-- Reads settings. -/
def reading (node : Node) : Reading Settings := do
  let fields ← node.fields ["chord_timeout_ms", "chord_break"]
  return {
    timeoutMs := ← fieldOr fields "chord_timeout_ms" 750 Node.uint64
    policy := ← fieldOr fields "chord_break" .swallow (Node.word "a policy" BreakPolicy.ofWord?) }

/-- The settings that a text describes. -/
def read (text : String) : Except Yaml.Error Settings :=
  decode reading text

/-- The settings that a text describes, or the default ones. -/
def ofText (text : String) : Settings :=
  (read text).toOption.getD default

end Settings

end KeyChord
