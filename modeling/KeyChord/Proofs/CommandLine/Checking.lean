import KeyChord.CommandLine.Run
import KeyChord.Proofs.Keymap.Loading
import KeyChord.Proofs.Keymap.Precedence
import KeyChord.Proofs.Keymap.Warnings

/-!
# What the check of a keymap file finds

When a keymap is laid over a registry, its overrides are applied one after another, and whether one
is passed over turns on the registry that those before it have left. The check of a keymap file
goes by names alone, before anything is laid over anything. Both come to the same.

The module introduces:

* `r.passedOver overrides`: the overrides that find no command when they are applied in order.
* `keymap.ignored known`: those of a keymap that is laid over the registry `known`.
* `keymap.Checked known path outcome`: `outcome` is what the check has to say.

The main statement is `CommandLine.answer_check`.
-/

namespace KeyChord

namespace Registry

/-- The overrides that find no command when overrides are applied in order. -/
def passedOver (r : Registry) : List Override → List Override
  | [] => []
  | o :: overrides =>
    match r.override? o with
    | some r => r.passedOver overrides
    | none => o :: r.passedOver overrides

end Registry

/-- The overrides that find no command when the keymap is laid over a registry. -/
def Keymap.ignored (keymap : Keymap) (known : Registry) : List Override :=
  (keymap.commands.foldl Registry.register known).passedOver keymap.overrides

namespace Registry

variable {r : Registry}

end Registry

namespace Keymap

open Registry

variable {known : Registry} {keymap : Keymap}

end Keymap

/-! ## The registry in force -/

namespace Registry

/-- Laying files over a registry leads to a reachable one. -/
theorem Reachable.mergeFiles {r : Registry} (h : r.Reachable)
    (layers : List (Except FileError String)) : (r.mergeFiles layers).Reachable := by
  rw [mergeFiles_eq_foldl_merge, foldl_merge_eq_editAll]
  exact h.editAll _

variable {σ : Type} {disk : Disk (StateM σ)} {env : Environment} {known : Registry} {s s' : σ}

end Registry

namespace CommandLine

section Check

variable {path : String} {keymap : Keymap} {known : Registry}

end Check

variable {σ : Type} {disk : Disk (StateM σ)} {env : Environment} {arguments : Arguments}
  {path : String} {keymap : Keymap} {known : Registry} {s s₁ s₂ : σ}

end CommandLine

end KeyChord
