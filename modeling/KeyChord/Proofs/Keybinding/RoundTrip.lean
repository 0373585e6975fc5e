import KeyChord.Proofs.Keystroke.NormalForm
import KeyChord.Proofs.Keystroke.Reading
import KeyChord.Proofs.Steps

/-!
# Keybindings are read as they are shown

A keystroke is shown as the words of its modifiers and the label of its key. Read again, it names
the label as its key, and the normal spelling of the label is the key, provided that the key can be
typed (`Key.Typeable`): it is not shown by a sign of its own, and its name has nothing in it that
would be taken for something else. The plus key is the one whose label has a plus sign in it, and
behind modifiers it is shown in the way in which it has to be written.

Since no label has a blank in it, the keystrokes of a keybinding can be told apart
(`words_sequenceText`), and the keybinding is read as it is shown
(`Keybinding.read_text_and_text_injective`).
-/

namespace KeyChord

namespace Key

/-- The keys that are shown by a sign. -/
def signKeys : List String :=
  ["ArrowUp", "ArrowDown", "ArrowLeft", "ArrowRight", "Enter", "Escape", "Tab", "Space"]

/-- The key is shown by a text that can be typed. -/
inductive Typeable : String → Prop
  /-- The key is a visible character. -/
  | char {c : Char} (hvisible : Text.IsVisible c) : Typeable (String.singleton c)
  /-- The key has a name that is not shown by a sign, and not taken for anything else. -/
  | name {key : String} (hlength : 2 ≤ key.length) (hplus : '+' ∉ key.toList)
      (hblank : ∀ c ∈ key.toList, Text.isBlank c = false) (hword : ¬Modifiers.IsWord key)
      (hsign : key ∉ signKeys) : Typeable key

variable {key : String} {c : Char}

/-! ## Labels -/

theorem label_of_not_sign (h : key ∉ signKeys) :
    label key = match key.toList with
      | [c] => String.ofList (Text.upper c)
      | _ => key := by
  unfold label
  split
  case h_9 => rfl
  all_goals exact absurd (by decide) h

/-- A visible character is shown in upper case. -/
theorem label_singleton (h : Text.IsVisible c) :
    label (String.singleton c) = String.singleton c.toUpper := by
  have hlength : ∀ key ∈ signKeys, key.length ≠ 1 := by
    decide
  rw [label_of_not_sign fun hsign => hlength _ hsign String.length_singleton,
    String.toList_singleton]
  show String.ofList (Text.upper c) = String.singleton c.toUpper
  rw [Text.upper_of_isVisible h, String.singleton_eq_ofList]

theorem label_name (hlength : 2 ≤ key.length) (hsign : key ∉ signKeys) : label key = key := by
  rw [label_of_not_sign hsign]
  split
  case h_1 c hchar =>
    rw [← String.length_toList, hchar, List.length_singleton] at hlength
    omega
  case h_2 => rfl

/-- A visible character is no word for a modifier. -/
theorem not_isWord_singleton (h : Text.IsVisible c) : ¬Modifiers.IsWord (String.singleton c) := by
  have hlength : ∀ word ∈ Modifiers.words, word.length ≠ 1 := by
    decide
  intro hword
  apply hlength _ hword
  rw [Text.toLower, String.toList_singleton, List.flatMap_singleton, Text.lower_of_isVisible h,
    String.length_ofList, List.length_singleton]

/-- The label of a key is another spelling of it. -/
theorem normalize_label (hnormal : IsNormal key) (h : Typeable key) :
    normalize (label key) = key := by
  rw [isNormal_iff] at hnormal
  cases h with
  | @char c hvisible =>
    have hspace : ∀ d, Text.IsVisible d → d ≠ ' ' := fun d hd hspace => by
      rw [hspace] at hd
      exact absurd hd (by decide)
    rw [normalize_singleton (hspace c hvisible)] at hnormal
    have hupper := hspace c.toUpper (Text.isVisible_toUpper.mpr hvisible)
    rw [label_singleton hvisible, normalize_singleton hupper, Text.toLower_toUpper, hnormal]
  | name hlength _ _ _ hsign => rw [label_name hlength hsign, hnormal]

/-- The label of a key is the plus sign, or names a key wherever it stands. -/
theorem label_cases (h : Typeable key) :
    label key = "+" ∨
      (label key ≠ "" ∧ '+' ∉ (label key).toList ∧ ¬Modifiers.IsWord (label key)) := by
  cases h with
  | @char c hvisible =>
    rw [label_singleton hvisible]
    by_cases hplus : c.toUpper = '+'
    · rw [hplus]
      exact Or.inl rfl
    · refine Or.inr ⟨by simp, ?_, not_isWord_singleton (Text.isVisible_toUpper.mpr hvisible)⟩
      simpa [eq_comm] using hplus
  | name hlength hplus _ hword hsign =>
    rw [label_name hlength hsign]
    refine Or.inr ⟨?_, hplus, hword⟩
    rintro rfl
    exact absurd hlength (by decide)

theorem isBlank_of_mem_label (h : Typeable key) :
    ∀ c ∈ (label key).toList, Text.isBlank c = false := by
  cases h with
  | char hvisible =>
    rw [label_singleton hvisible, String.toList_singleton]
    simpa using Text.isBlank_of_isVisible (Text.isVisible_toUpper.mpr hvisible)
  | name hlength _ hblank _ hsign => rwa [label_name hlength hsign]

end Key

/-! ## Modifiers are shown by words for them -/

namespace Modifiers

variable {mods : Modifiers} {text : String}

theorem ofWords_labels (mods : Modifiers) : ofWords mods.labels = mods := by
  rcases mods with ⟨_ | _, _ | _, _ | _, _ | _⟩ <;> rfl

theorem mem_of_mem_labels (h : text ∈ mods.labels) : text ∈ ["Ctrl", "Alt", "Shift", "Meta"] := by
  obtain ⟨⟨held, label⟩, hmem, hlabel⟩ := List.mem_filterMap.mp h
  obtain ⟨-, ⟨⟩⟩ := Option.ite_none_right_eq_some.mp hlabel
  exact List.mem_map_of_mem (f := Prod.snd) hmem

theorem isWord_of_mem_labels (h : text ∈ mods.labels) : IsWord text := by
  have hwords : ∀ text ∈ ["Ctrl", "Alt", "Shift", "Meta"], IsWord text := by
    decide
  exact hwords text (mem_of_mem_labels h)

theorem isBlank_of_mem_labels (h : text ∈ mods.labels) :
    ∀ c ∈ text.toList, Text.isBlank c = false := by
  have hblanks : ∀ text ∈ ["Ctrl", "Alt", "Shift", "Meta"],
      text.toList.any Text.isBlank = false := by
    decide
  exact Text.forall_mem_of_any_eq_false (hblanks text (mem_of_mem_labels h))

end Modifiers

/-! ## Keystrokes -/

namespace Keystroke

variable {k : Keystroke} {mods : Modifiers} {raw : String}

/-- The key of the keystroke is in its normal spelling and can be typed. -/
def Typeable (k : Keystroke) : Prop :=
  Key.IsNormal k.key ∧ Key.Typeable k.key

/-- A key behind modifiers is named, if it is not the plus key. -/
theorem names_labels (hne : raw ≠ "") (hplus : '+' ∉ raw.toList) (hword : ¬Modifiers.IsWord raw) :
    Names ("+".intercalate (mods.labels ++ [raw])) raw mods := by
  have hend : ¬['+', '+'] <:+ ("+".intercalate (mods.labels ++ [raw])).toList := by
    intro hend
    -- The text ends with the key, which is not empty, so that the plus sign would be in the key.
    have hlast : ['+'] <:+ ("+".intercalate (mods.labels ++ [raw])).toList :=
      (List.suffix_cons '+' ['+']).trans hend
    have hlength : ['+'].length ≤ raw.toList.length :=
      List.length_pos_iff.mpr (mt String.toList_eq_nil_iff.mp hne)
    have hraw : ['+'] <:+ raw.toList :=
      List.suffix_of_suffix_length_le hlast (Text.suffix_intercalate "+" mods.labels raw) hlength
    exact hplus (hraw.subset (List.mem_singleton.mpr rfl))
  have hlabels : ∀ text ∈ mods.labels, IsBeside text := fun _ htext =>
    Or.inr (Modifiers.isWord_of_mem_labels htext)
  have hnames : Names _ raw (Modifiers.ofWords (mods.labels ++ [])) :=
    .key hlabels (by simp) hne hplus hword hend
  rwa [List.append_nil, Modifiers.ofWords_labels] at hnames

/-- The plus key behind modifiers is named, and also without them. -/
theorem names_labels_plus (mods : Modifiers) :
    Names ("+".intercalate (mods.labels ++ ["+"])) "+" mods := by
  by_cases hnil : mods.labels = []
  · have hmods : mods = .none := by
      rw [← Modifiers.ofWords_labels mods, hnil]
      rfl
    rw [hnil, hmods]
    exact .plusAlone
  · -- The plus sign that joins and the one that is the key are the two at the end.
    have hnames : Names _ "+" (Modifiers.ofWords mods.labels) :=
      .plusKey fun _ htext => Or.inr (Modifiers.isWord_of_mem_labels htext)
    have hplus : "+" ++ "+" = "++" := rfl
    rw [String.intercalate_append_of_ne_nil hnil (by simp), String.intercalate_singleton,
      String.append_assoc, hplus]
    rwa [Modifiers.ofWords_labels] at hnames

/-- What a keystroke is shown as names its label. -/
theorem names_text (h : k.Typeable) : Names k.text (Key.label k.key) k.mods := by
  unfold text
  rcases Key.label_cases h.2 with hlabel | ⟨hne, hplus, hword⟩
  · rw [hlabel]
    exact names_labels_plus k.mods
  · exact names_labels hne hplus hword

/-- A keystroke is read as it is shown. -/
theorem read_text (h : k.Typeable) : read k.text = .ok k := by
  rw [(names_text h).read_eq, ofKey, Key.normalize_label h.1 h.2]

theorem text_ne_empty (h : k.Typeable) : k.text ≠ "" := by
  intro hempty
  -- The empty text is read as no keystroke at all.
  have hread := read_text h
  rw [hempty] at hread
  cases hread

theorem isBlank_of_mem_text (h : k.Typeable) : ∀ c ∈ k.text.toList, Text.isBlank c = false := by
  have hplus : ∀ c ∈ "+".toList, Text.isBlank c = false :=
    Text.forall_mem_of_any_eq_false (by decide)
  refine Text.forall_mem_intercalate hplus fun text htext => ?_
  rcases List.mem_append.mp htext with htext | htext
  · exact Modifiers.isBlank_of_mem_labels htext
  · rw [List.mem_singleton.mp htext]
    exact Key.isBlank_of_mem_label h.2

/-- Keystrokes that are shown one after another can be told apart. -/
theorem words_sequenceText {keystrokes : List Keystroke} (h : ∀ k ∈ keystrokes, k.Typeable) :
    Text.words (sequenceText keystrokes) = keystrokes.map text := by
  have htexts : ∀ s ∈ keystrokes.map text, s ≠ "" ∧ ∀ c ∈ s.toList, Text.isBlank c = false := by
    intro s hs
    obtain ⟨k, hk, rfl⟩ := List.mem_map.mp hs
    exact ⟨text_ne_empty (h k hk), isBlank_of_mem_text (h k hk)⟩
  have hblank : Text.isBlank ' ' = true := by
    decide
  rw [sequenceText, Text.words, Text.pieces_intercalate rfl hblank fun s hs => (htexts s hs).2,
    List.filter_eq_self]
  intro s hs
  exact decide_eq_true (htexts s hs).1

end Keystroke

/-! ## Keybindings -/

namespace Keybinding

theorem ofList?_keystrokes (kb : Keybinding) : ofList? kb.keystrokes = some kb := by
  obtain ⟨_ | ⟨k, keystrokes⟩, hne⟩ := kb
  · exact absurd rfl hne
  · rfl

/-- A keybinding of keys that can be typed is read as it is shown. -/
theorem read_text_of_typeable {kb : Keybinding} (h : ∀ k ∈ kb.keystrokes, k.Typeable) :
    read kb.text = .ok kb := by
  have hread : (kb.keystrokes.map Keystroke.text).mapM Keystroke.read = .ok kb.keystrokes := by
    rw [mapM_eq_ok_iff, List.forall₂_map_left_iff, List.forall₂_same]
    exact fun k hk => Keystroke.read_text (h k hk)
  unfold read text
  rw [Keystroke.words_sequenceText h, hread]
  refine bind_eq_ok_iff.mpr ⟨kb.keystrokes, rfl, ?_⟩
  rw [ofList?_keystrokes]

/-- A keybinding of keys that can be typed is read as it is shown, and shown as no other of them. -/
theorem read_text_and_text_injective {kb : Keybinding} (h : ∀ k ∈ kb.keystrokes, k.Typeable) :
    read kb.text = .ok kb ∧
      ∀ kb' : Keybinding, (∀ k ∈ kb'.keystrokes, k.Typeable) → kb'.text = kb.text → kb' = kb := by
  refine ⟨read_text_of_typeable h, fun kb' h' htext => ?_⟩
  have hread := read_text_of_typeable h'
  rw [htext, read_text_of_typeable h] at hread
  exact (Except.ok.inj hread).symm

/-- The plus key with a modifier, a function key and a letter, one after another. -/
def plusThenLetter : Keybinding :=
  ⟨[⟨"+", { ctrl := true }⟩, ⟨"F5", { alt := true }⟩, ⟨"k", .none⟩], by simp⟩

theorem typeable_plusThenLetter : ∀ k ∈ plusThenLetter.keystrokes, k.Typeable := by
  have hplus : Key.Typeable (String.singleton '+') := .char (by decide)
  have hblank : ∀ c ∈ "F5".toList, Text.isBlank c = false :=
    Text.forall_mem_of_any_eq_false (by decide)
  have hname : Key.Typeable "F5" :=
    .name (by decide) (by decide) hblank (by decide) (by decide)
  have hletter : Key.Typeable (String.singleton 'k') := .char (by decide)
  unfold plusThenLetter
  simp only [List.forall_mem_cons, Keystroke.Typeable, Key.isNormal_iff]
  exact ⟨⟨by decide, hplus⟩, ⟨by decide, hname⟩, ⟨by decide, hletter⟩, by simp⟩

theorem read_text_plusThenLetter :
    plusThenLetter.text = "Ctrl++ Alt+F5 K" ∧ (∀ k ∈ plusThenLetter.keystrokes, k.Typeable) ∧
      read plusThenLetter.text = .ok plusThenLetter :=
  ⟨by decide, typeable_plusThenLetter, (read_text_and_text_injective typeable_plusThenLetter).1⟩

end Keybinding

end KeyChord
