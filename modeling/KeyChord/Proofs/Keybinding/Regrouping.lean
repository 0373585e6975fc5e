import KeyChord.Keybinding.Reader
import KeyChord.Proofs.Steps
import KeyChord.Proofs.Text.Pieces

/-!
# Keystrokes in one text or in several

Only the words of the texts count, in their order, and not which of them stand together in one text
(`readAll_eq_mapM`): they are read one after another, and the first bad one is reported. A text
without words is a fault by itself, which is reported in its turn (`readAll_append_cons`). The main
statement is `readAll_of_regrouped`.
-/

namespace KeyChord

section Words

variable {text : String} {texts : List String}

/-- A text has no words exactly if it is blank. -/
theorem words_eq_nil_iff : Text.words text = [] ↔ Text.isBlankText text = true := by
  rw [Text.words, Text.pieces_eq_nil_iff, Text.isBlankText, List.all_eq_true]

theorem words_ne_nil (h : Text.isBlankText text = false) : Text.words text ≠ [] :=
  fun hnil => Bool.false_ne_true (h.symm.trans (words_eq_nil_iff.mp hnil))

/-- Texts that have been joined by spaces have the words of each of them. -/
theorem words_intercalate (texts : List String) :
    Text.words (" ".intercalate texts) = texts.flatMap Text.words :=
  Text.pieces_intercalate_eq_flatMap rfl (by decide) texts

/-- Texts with words have words when they have been joined. -/
theorem isBlankText_intercalate (hne : texts ≠ [])
    (h : ∀ text ∈ texts, Text.isBlankText text = false) :
    Text.isBlankText (" ".intercalate texts) = false := by
  obtain ⟨text, texts, rfl⟩ := List.exists_cons_of_ne_nil hne
  rw [← Bool.not_eq_true, ← words_eq_nil_iff, words_intercalate, List.flatMap_cons]
  exact List.append_ne_nil_of_left_ne_nil (words_ne_nil (h text List.mem_cons_self)) _

/-- A text with words is read word by word. -/
theorem Keybinding.map_read (h : Text.isBlankText text = false) :
    (Keybinding.read text).map Keybinding.keystrokes = (Text.words text).mapM Keystroke.read := by
  rw [Keybinding.read]
  cases hread : (Text.words text).mapM Keystroke.read with
  | error error => rfl
  | ok keystrokes =>
    -- There are as many keystrokes as words.
    have hlength := (mapM_eq_ok_iff.mp hread).length_eq
    cases keystrokes with
    | nil => exact absurd (List.length_eq_zero_iff.mp hlength) (words_ne_nil h)
    | cons k keystrokes => rfl

/-- A blank text is no keybinding. -/
theorem Keybinding.read_of_isBlankText (h : Text.isBlankText text = true) :
    Keybinding.read text = .error (.noKeystrokes text) := by
  rw [Keybinding.read, words_eq_nil_iff.mpr h]
  rfl

end Words

namespace Keystroke

variable {texts : List String}

/-- The first text is read first. -/
theorem readAll_cons (text : String) (texts : List String) :
    readAll (text :: texts) =
      (Keybinding.read text).map Keybinding.keystrokes >>= fun first =>
        (readAll texts).map (first ++ ·) := by
  rw [readAll, List.mapM_cons, readAll]
  cases Keybinding.read text with
  | error error => rfl
  | ok kb => cases texts.mapM Keybinding.read <;> rfl

/-- Texts with words are read word by word. -/
theorem readAll_eq_mapM (h : ∀ text ∈ texts, Text.isBlankText text = false) :
    readAll texts = (texts.flatMap Text.words).mapM Keystroke.read := by
  induction texts with
  | nil => rfl
  | cons text texts ih =>
    obtain ⟨htext, htexts⟩ := List.forall_mem_cons.mp h
    rw [readAll_cons, Keybinding.map_read htext, ih htexts, List.flatMap_cons, List.mapM_append]
    rfl

/-- A blank text is refused, if the texts before it are not. -/
theorem readAll_append_cons (front : List String) {blank : String} (back : List String)
    (h : Text.isBlankText blank = true) :
    readAll (front ++ blank :: back) =
      readAll front >>= fun _ => .error (.noKeystrokes blank) := by
  induction front with
  | nil =>
    rw [List.nil_append, readAll_cons, Keybinding.read_of_isBlankText h]
    rfl
  | cons text front ih =>
    rw [List.cons_append, readAll_cons, readAll_cons, ih]
    cases (Keybinding.read text).map Keybinding.keystrokes with
    | error error => rfl
    | ok first => cases readAll front <;> rfl

/-- Texts with words are read as the one text into which they are joined, be it as keystrokes or
with an error, and so are any other texts with the same words in the same order. If one of the texts
is blank, it is refused in its turn. -/
theorem readAll_of_regrouped (texts : List String) :
    ((∀ text ∈ texts, Text.isBlankText text = false) →
      (texts ≠ [] →
        readAll texts =
          (Keybinding.read (" ".intercalate texts)).map Keybinding.keystrokes) ∧
      ∀ texts', (∀ text ∈ texts', Text.isBlankText text = false) →
        texts'.flatMap Text.words = texts.flatMap Text.words → readAll texts' = readAll texts) ∧
      ∀ front blank back, texts = front ++ blank :: back → Text.isBlankText blank = true →
        ∃ error, readAll texts = .error error ∧
          ∀ keystrokes, readAll front = .ok keystrokes → error = .noKeystrokes blank := by
  refine ⟨fun h => ⟨fun hne => ?_, fun texts' h' hwords => ?_⟩, ?_⟩
  · rw [Keybinding.map_read (isBlankText_intercalate hne h), words_intercalate,
      readAll_eq_mapM h]
  · rw [readAll_eq_mapM h, readAll_eq_mapM h', hwords]
  · rintro front blank back rfl hblank
    rw [readAll_append_cons front back hblank]
    cases readAll front with
    | error error => exact ⟨error, rfl, nofun⟩
    | ok keystrokes => exact ⟨_, rfl, fun _ _ => rfl⟩

/-- The words `ctrl+k`, `ctrl+s` and `x` may stand in two texts in either way, or in one; the wide
space separates them as any blank does. -/
theorem readAll_of_regrouped_chord :
    readAll ["ctrl+k", "ctrl+s\tx "] = readAll ["ctrl+k\u3000ctrl+s", " x"] ∧
      readAll ["ctrl+k\u3000ctrl+s", " x"] =
        (Keybinding.read "ctrl+k\u3000ctrl+s  x").map Keybinding.keystrokes ∧
      ∃ error, readAll ["ctrl+k", " "] = .error error := by
  obtain ⟨hregrouped, -⟩ := readAll_of_regrouped ["ctrl+k\u3000ctrl+s", " x"]
  obtain ⟨hjoined, hsame⟩ := hregrouped (by decide)
  obtain ⟨error, herror, -⟩ := (readAll_of_regrouped ["ctrl+k", " "]).2 ["ctrl+k"] " " [] rfl
    (by decide)
  exact ⟨hsame _ (by decide) (by decide), hjoined (by decide), error, herror⟩

end Keystroke

end KeyChord
