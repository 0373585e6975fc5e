import KeyChord.Keymap.Basic
import KeyChord.Proofs.Steps

/-!
# Keymaps that have been read

What is so of every keymap that a text gives.

The statement is `isCustomized_of_read`: the commands are as the entries describe them, and the user
has changed nothing yet.
-/

namespace KeyChord

namespace Keymap

/-- The command of an entry is not customized. -/
theorem isCustomized_of_command? {entry : CommandEntry} {c : Command}
    (h : entry.command? = .ok c) : c.isCustomized = false := by
  rw [CommandEntry.command?, bind_eq_ok_iff] at h
  obtain ⟨id, -, hkeys⟩ := h
  obtain ⟨keys, -, hc⟩ := bind_eq_ok_iff.mp hkeys
  cases hc
  rfl

/-- No command of the keymap that the entries of a file describe is customized. -/
theorem isCustomized_of_ofSource {source : Source} {keymap : Keymap}
    (h : ofSource source = .ok keymap) : ∀ c ∈ keymap.commands, c.isCustomized = false := by
  rw [ofSource, bind_eq_ok_iff] at h
  obtain ⟨commands, hcommands, hoverrides⟩ := h
  obtain ⟨overrides, -, hkeymap⟩ := bind_eq_ok_iff.mp hoverrides
  cases hkeymap
  intro c hc
  obtain ⟨entry, -, hentry⟩ := exists_of_mem_mapM hcommands c hc
  exact isCustomized_of_command? hentry

/-- No command of a keymap that has been read is customized. -/
theorem isCustomized_of_read {text : String} {decoder : Source.Decoder} {keymap : Keymap}
    (h : read text decoder = .ok keymap) : ∀ c ∈ keymap.commands, c.isCustomized = false := by
  rw [read, bind_eq_ok_iff] at h
  obtain ⟨source, -, hkeymap⟩ := h
  exact isCustomized_of_ofSource hkeymap

end Keymap

end KeyChord
