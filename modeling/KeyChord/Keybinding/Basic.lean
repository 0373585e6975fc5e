import KeyChord.Keystroke.Basic

/-!
# Keybindings

A keybinding is the sequence of keystrokes that triggers a command: one keystroke is a plain
shortcut, several are a chord. There is always a first keystroke.

- `Keybinding.startsWith_iff`: starting with a sequence is equalling it or extending it.
- `Keybinding.properlyExtends_iff`: extending a sequence is starting with it and not equalling it.
-/

namespace KeyChord

/-- How a sequence of keystrokes is shown. -/
def Keystroke.sequenceText (keystrokes : List Keystroke) : String :=
  " ".intercalate (keystrokes.map Keystroke.text)

/-- A non-empty sequence of keystrokes. -/
@[ext]
structure Keybinding where
  /-- The keystrokes, in the order of typing. -/
  keystrokes : List Keystroke
  /-- There is a first keystroke. -/
  nonempty : keystrokes ≠ []
  deriving DecidableEq

namespace Keybinding

/-- The keybinding of one keystroke. -/
def ofKeystroke (k : Keystroke) : Keybinding :=
  ⟨[k], List.cons_ne_nil _ _⟩

/-- The keybinding of a sequence of keystrokes, unless it is empty. -/
def ofList? : List Keystroke → Option Keybinding
  | [] => none
  | k :: rest => some ⟨k :: rest, List.cons_ne_nil _ _⟩

/-- The keybinding with one more keystroke at the end. -/
def push (kb : Keybinding) (k : Keystroke) : Keybinding :=
  ⟨kb.keystrokes ++ [k], by simp⟩

/-- The number of keystrokes. -/
def length (kb : Keybinding) : Nat :=
  kb.keystrokes.length

/-- Whether more than one keystroke is needed. -/
def isChord (kb : Keybinding) : Bool :=
  1 < kb.length

/-- The first keystroke. -/
def first (kb : Keybinding) : Keystroke :=
  kb.keystrokes.head kb.nonempty

/-- Whether the keybinding is the sequence. -/
def isExactly (kb : Keybinding) (sequence : List Keystroke) : Bool :=
  kb.keystrokes == sequence

/-- Whether the keybinding starts with the sequence, or is it. -/
def startsWith (kb : Keybinding) (sequence : List Keystroke) : Bool :=
  sequence.isPrefixOf kb.keystrokes

/-- Whether the keybinding starts with the sequence and goes on. -/
def properlyExtends (kb : Keybinding) (sequence : List Keystroke) : Bool :=
  sequence.length < kb.length && kb.startsWith sequence

/-- How a keybinding is shown: its keystrokes, separated by spaces. -/
def text (kb : Keybinding) : String :=
  Keystroke.sequenceText kb.keystrokes

/-- A keybinding starts with a sequence exactly if it is the sequence or extends it. -/
theorem startsWith_iff (kb : Keybinding) (sequence : List Keystroke) :
    kb.startsWith sequence = true ↔
      kb.isExactly sequence = true ∨ kb.properlyExtends sequence = true := by
  simp only [startsWith, isExactly, properlyExtends, length, List.isPrefixOf_iff_prefix, beq_iff_eq,
    Bool.and_eq_true]
  constructor
  · intro h
    rcases Nat.lt_or_eq_of_le h.length_le with hlt | heq
    · exact Or.inr ⟨decide_eq_true hlt, h⟩
    · exact Or.inl (h.eq_of_length heq).symm
  · rintro (h | h)
    · exact h ▸ List.prefix_refl _
    · exact h.2

/-- A keybinding extends a sequence exactly if it starts with it and is another. -/
theorem properlyExtends_iff (kb : Keybinding) (sequence : List Keystroke) :
    kb.properlyExtends sequence = true ↔
      sequence <+: kb.keystrokes ∧ kb.keystrokes ≠ sequence := by
  rw [properlyExtends, startsWith, length, Bool.and_eq_true, decide_eq_true_iff,
    List.isPrefixOf_iff_prefix]
  constructor
  · rintro ⟨hlt, hstart⟩
    refine ⟨hstart, fun heq => ?_⟩
    rw [heq] at hlt
    exact Nat.lt_irrefl _ hlt
  · rintro ⟨hstart, hne⟩
    refine ⟨Nat.lt_of_le_of_ne hstart.length_le fun hlen => hne ?_, hstart⟩
    exact (hstart.eq_of_length hlen).symm

end Keybinding

end KeyChord
