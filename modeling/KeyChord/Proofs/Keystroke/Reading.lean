import KeyChord.Keybinding.Reader
import KeyChord.Proofs.Text.Pieces

/-!
# What a text names as a keystroke

The plus sign joins the words of a keystroke and is a key itself. A text is first told apart by
its end: after modifiers, the plus key is written as a plus sign behind the joining one. What is
left is a row of segments, of which the empty ones do not count, those that are words for modifiers
may stand anywhere, and of the others there has to be exactly one if there is no plus key.

The module introduces:

* `Modifiers.words`: the words for modifiers; `Modifiers.IsWord` admits them in any letter case.
* `Modifiers.ofWords texts`: the modifiers that the texts name, each by one of its own words.
* `Names text raw mods`: the text names the key `raw`, and otherwise only the modifiers `mods`.
* `namedKeys text`, `namedMods text`: what a text names, be it one key, none or several.

Every text is read by these (`read_eq_outcome`), and a text names a key exactly if it is the only
one in the text (`names_iff`). The main statement is `read_of_names`.
-/

namespace KeyChord

namespace Modifiers

/-- The words for the control key, in small letters. -/
def ctrlWords : List String := ["cmd", "mod", "ctrl", "control"]

/-- The words for the alt key. -/
def altWords : List String := ["alt", "option", "opt"]

/-- The words for the shift key. -/
def shiftWords : List String := ["shift"]

/-- The words for the command key. -/
def superWords : List String := ["meta", "super", "win"]

/-- The words for modifiers. -/
def words : List String := ctrlWords ++ altWords ++ shiftWords ++ superWords

/-- The text is a word for a modifier, in any letter case. -/
def IsWord (text : String) : Prop :=
  Text.toLower text ∈ words

instance : DecidablePred IsWord := fun text =>
  inferInstanceAs (Decidable (Text.toLower text ∈ words))

/-- One of the texts is one of the words, in any letter case. -/
def isNamed (words texts : List String) : Bool :=
  texts.any fun text => Text.toLower text ∈ words

/-- The modifiers that the texts name: those of which a word is among them. -/
def ofWords (texts : List String) : Modifiers where
  ctrl := isNamed ctrlWords texts
  alt := isNamed altWords texts
  shift := isNamed shiftWords texts
  super := isNamed superWords texts

theorem union_assoc (a b c : Modifiers) : (a.union b).union c = a.union (b.union c) := by
  simp [union, Bool.or_assoc]

@[simp]
theorem none_union (a : Modifiers) : none.union a = a := by
  simp [union, none]

@[simp]
theorem union_none (a : Modifiers) : a.union none = a := by
  simp [union, none]

/-- A word is read as the modifier that it names, and no other text is read. -/
theorem ofWord?_eq_ite (text : String) :
    ofWord? text = if IsWord text then some (ofWords [text]) else .none := by
  unfold ofWord? IsWord ofWords isNamed
  simp only [List.any_cons, List.any_nil, Bool.or_false]
  generalize Text.toLower text = word
  split
  -- A text that is none of the words is in none of their lists.
  case h_12 => simp_all [words, ctrlWords, altWords, shiftWords, superWords]
  all_goals rfl

theorem ofWord?_eq_none_iff {text : String} : ofWord? text = .none ↔ ¬IsWord text := by
  rw [ofWord?_eq_ite]
  split <;> simp [*]

@[simp]
theorem ofWords_nil : ofWords [] = none := rfl

/-- The modifiers of two rows of texts are those of the first with those of the second. -/
theorem ofWords_append (before after : List String) :
    ofWords (before ++ after) = (ofWords before).union (ofWords after) := by
  simp [ofWords, isNamed, union]

/-- A text that is no word for a modifier names none. -/
theorem ofWords_singleton_of_not_isWord {text : String} (h : ¬IsWord text) :
    ofWords [text] = none := by
  simp only [IsWord, words, List.mem_append, not_or] at h
  simp [ofWords, isNamed, none, h]

theorem ofWords_cons (text : String) (texts : List String) :
    ofWords (text :: texts) = ((ofWord? text).getD none).union (ofWords texts) := by
  rw [← List.singleton_append, ofWords_append, ofWord?_eq_ite]
  split
  next => rfl
  next h => rw [ofWords_singleton_of_not_isWord h, Option.getD_none]

/-- A text that is no word for a modifier adds none. -/
theorem ofWords_of_not_isWord {before after : List String} {text : String} (h : ¬IsWord text) :
    ofWords (before ++ text :: after) = ofWords (before ++ after) := by
  rw [ofWords_append, ← List.singleton_append, ofWords_append,
    ofWords_singleton_of_not_isWord h, none_union, ofWords_append]

end Modifiers

namespace Keystroke

/-- The stretches of the text between the plus signs. -/
def segments (cs : List Char) : List String :=
  (cs.splitOn '+').map String.ofList

/-- The text may stand beside a key: it is empty or a word for a modifier. -/
def IsBeside (text : String) : Prop :=
  text = "" ∨ Modifiers.IsWord text

instance : DecidablePred IsBeside := fun text =>
  inferInstanceAs (Decidable (text = "" ∨ Modifiers.IsWord text))

/-- The segments that name a key. -/
def keysAmong (texts : List String) : List String :=
  texts.filter fun text => ¬IsBeside text

/-- The plus key, if the text is written as one that ends with it, and the segments beside it. -/
def parts (text : String) : List String × List String :=
  if text = "+" then (["+"], [])
  else if ['+', '+'] <:+ text.toList then (["+"], segments text.toList.dropLast.dropLast)
  else ([], segments text.toList)

/-- The keys that the text names. -/
def namedKeys (text : String) : List String :=
  (parts text).1 ++ keysAmong (parts text).2

/-- The modifiers that the text names. -/
def namedMods (text : String) : Modifiers :=
  Modifiers.ofWords (parts text).2

/-- The text names one key, and otherwise nothing but modifiers. -/
inductive Names : String → String → Modifiers → Prop
  /-- The key is a segment, with modifiers and empty segments before and after it. -/
  | key {before after : List String} {raw : String} (hbefore : ∀ text ∈ before, IsBeside text)
      (hafter : ∀ text ∈ after, IsBeside text) (hne : raw ≠ "") (hplus : '+' ∉ raw.toList)
      (hword : ¬Modifiers.IsWord raw)
      (hend : ¬['+', '+'] <:+ ("+".intercalate (before ++ raw :: after)).toList) :
      Names ("+".intercalate (before ++ raw :: after)) raw (Modifiers.ofWords (before ++ after))
  /-- The key is the plus key, behind modifiers and empty segments. -/
  | plusKey {before : List String} (hbefore : ∀ text ∈ before, IsBeside text) :
      Names ("+".intercalate before ++ "++") "+" (Modifiers.ofWords before)
  /-- The key is the plus key by itself. -/
  | plusAlone : Names "+" "+" Modifiers.none

/-- What a text is read as that names some keys and modifiers. -/
def outcome (text : String) (keys : List String) (mods : Modifiers) : Except KeyError Keystroke :=
  match keys with
  | [] => .error (.noKey text)
  | [raw] => .ok (ofKey raw mods)
  | _ => .error (.severalKeys text)

/-! ## Taking words one after another -/

section Segments

variable {text raw : String} {texts : List String}

theorem keysAmong_cons_of_isBeside (h : IsBeside text) :
    keysAmong (text :: texts) = keysAmong texts :=
  List.filter_cons_of_neg (by simpa using h)

theorem keysAmong_cons_of_not_isBeside (h : ¬IsBeside text) :
    keysAmong (text :: texts) = text :: keysAmong texts :=
  List.filter_cons_of_pos (by simpa using h)

/-- One key is named exactly if everything before and after it may stand beside a key. -/
theorem keysAmong_eq_singleton_iff :
    keysAmong texts = [raw] ↔ ∃ before after, texts = before ++ raw :: after ∧
      (∀ text ∈ before, IsBeside text) ∧ ¬IsBeside raw ∧ ∀ text ∈ after, IsBeside text := by
  rw [keysAmong, List.filter_eq_cons_iff]
  simp only [List.filter_eq_nil_iff, decide_not, Bool.not_eq_true', decide_eq_false_iff_not,
    Decidable.not_not]

theorem keysAmong_eq_nil_iff : keysAmong texts = [] ↔ ∀ text ∈ texts, IsBeside text := by
  rw [keysAmong, List.filter_eq_nil_iff]
  simp only [decide_not, Bool.not_eq_true', decide_eq_false_iff_not, Decidable.not_not]

/-- Segments that are taken one after another leave their modifiers and their key, unless there is
more than one key. -/
theorem foldlM_add? (draft : Draft) (texts : List String) :
    (texts.filter (· ≠ "")).foldlM Draft.add? draft =
      match draft.key.toList ++ keysAmong texts with
      | [] => some ⟨draft.mods.union (Modifiers.ofWords texts), none⟩
      | [raw] => some ⟨draft.mods.union (Modifiers.ofWords texts), some raw⟩
      | _ => none := by
  induction texts generalizing draft with
  | nil =>
    obtain ⟨mods, key⟩ := draft
    cases key <;> simp [keysAmong]
  | cons text texts ih =>
    obtain ⟨mods, key⟩ := draft
    rw [Modifiers.ofWords_cons]
    by_cases hempty : text = ""
    · -- An empty segment is passed over, and names nothing.
      subst hempty
      have hnone : Modifiers.ofWord? "" = none := rfl
      rw [List.filter_cons_of_neg (by simp), ih, keysAmong_cons_of_isBeside (Or.inl rfl), hnone]
      simp
    rw [List.filter_cons_of_pos (by simpa using hempty), List.foldlM_cons]
    by_cases hword : Modifiers.IsWord text
    · obtain ⟨mods', hmods'⟩ : ∃ mods', Modifiers.ofWord? text = some mods' := by
        rw [← Option.ne_none_iff_exists']
        exact fun hnone => Modifiers.ofWord?_eq_none_iff.mp hnone hword
      have hadd : Draft.add? ⟨mods, key⟩ text = some ⟨mods.union mods', key⟩ := by
        simp [Draft.add?, hmods']
      rw [hadd, keysAmong_cons_of_isBeside (Or.inr hword), hmods']
      refine (ih _).trans ?_
      simp only [Modifiers.union_assoc, Option.getD_some]
    · have hnone : Modifiers.ofWord? text = none := Modifiers.ofWord?_eq_none_iff.mpr hword
      rw [keysAmong_cons_of_not_isBeside (not_or.mpr ⟨hempty, hword⟩), hnone]
      cases key with
      | none =>
        have hadd : Draft.add? ⟨mods, none⟩ text = some ⟨mods, some text⟩ := by
          simp [Draft.add?, hnone]
        rw [hadd]
        refine (ih _).trans ?_
        simp
      | some raw =>
        -- A second key is refused at once, whatever follows.
        have hadd : Draft.add? ⟨mods, some raw⟩ text = none := by
          simp [Draft.add?, hnone]
        simp [hadd]

end Segments

/-! ## What is read -/

theorem beforePlusKey?_append (front : List Char) :
    beforePlusKey? (front ++ ['+', '+']) = some front := by
  have halone : front ++ ['+', '+'] ≠ ['+'] := fun h => by simpa using congrArg List.length h
  unfold beforePlusKey?
  rw [if_neg halone, List.reverse_append]
  show some front.reverse.reverse = some front
  rw [List.reverse_reverse]

theorem beforePlusKey?_eq_none {cs : List Char} (halone : cs ≠ ['+'])
    (hend : ¬['+', '+'] <:+ cs) : beforePlusKey? cs = none := by
  unfold beforePlusKey?
  rw [if_neg halone]
  split
  case h_1 rest hreverse =>
    refine absurd ⟨rest.reverse, ?_⟩ hend
    rw [← List.reverse_inj, hreverse, List.reverse_append, List.reverse_reverse]
    rfl
  case h_2 => rfl

/-- The pieces between plus signs are the segments, save the empty ones. -/
theorem pieces_eq_segments (text : String) :
    Text.pieces (· == '+') text = (segments text.toList).filter (· ≠ "") := by
  unfold Text.pieces segments
  rw [List.filter_map, List.splitOn_eq_splitOnP]
  congr 1
  apply List.filter_congr
  intro stretch _
  rw [Bool.eq_iff_iff]
  simp

theorem parts_append (front : String) :
    parts (front ++ "++") = (["+"], segments front.toList) := by
  have hplus : "++".toList = ['+', '+'] := rfl
  have halone : front ++ "++" ≠ "+" := fun h => by
    simpa [hplus] using congrArg (fun text => text.toList.length) h
  have hend : ['+', '+'] <:+ (front ++ "++").toList := ⟨front.toList, by simp⟩
  rw [parts, if_neg halone, if_pos hend, String.toList_append, hplus, List.append_cons,
    List.dropLast_concat, List.dropLast_concat]

theorem parts_of_not_suffix {text : String} (halone : text ≠ "+")
    (hend : ¬['+', '+'] <:+ text.toList) : parts text = ([], segments text.toList) := by
  rw [parts, if_neg halone, if_neg hend]

/-- A text is the plus key, or ends with it, or does not. -/
theorem plus_cases (text : String) :
    text = "+" ∨ (∃ front, text = front ++ "++") ∨
      (text ≠ "+" ∧ ¬['+', '+'] <:+ text.toList) := by
  by_cases halone : text = "+"
  · exact Or.inl halone
  by_cases hend : ['+', '+'] <:+ text.toList
  · obtain ⟨front, hfront⟩ := hend
    refine Or.inr (Or.inl ⟨String.ofList front, ?_⟩)
    rw [← String.toList_inj, ← hfront, String.toList_append, String.toList_ofList]
    rfl
  · exact Or.inr (Or.inr ⟨halone, hend⟩)

/-- A text is read by the keys and the modifiers that it names. -/
theorem read_eq_outcome (text : String) :
    read text = outcome text (namedKeys text) (namedMods text) := by
  unfold namedKeys namedMods
  rcases plus_cases text with rfl | ⟨front, rfl⟩ | ⟨halone, hend⟩
  · rfl
  · have hfront : beforePlusKey? (front ++ "++").toList = some front.toList := by
      rw [String.toList_append]
      exact beforePlusKey?_append front.toList
    rw [read, hfront, parts_append]
    simp only [pieces_eq_segments, String.toList_ofList, foldlM_add?]
    match keysAmong (segments front.toList) with
    | [] => rfl
    | _ :: _ => rfl
  · have hne : text.toList ≠ ['+'] := fun h => halone (String.toList_inj.mp h)
    rw [read, beforePlusKey?_eq_none hne hend, parts_of_not_suffix halone hend]
    simp only [pieces_eq_segments, foldlM_add?]
    match keysAmong (segments text.toList) with
    | [] => rfl
    | [_] => rfl
    | _ :: _ :: _ => rfl

/-! ## What a text names -/

/-- What may stand beside a key has no plus sign in it. -/
theorem plus_not_mem_of_isBeside {text : String} (h : IsBeside text) : '+' ∉ text.toList := by
  rcases h with rfl | hword
  · simp
  · intro hplus
    have hlower : '+' ∈ (Text.toLower text).toList := by
      rw [Text.toLower, String.toList_ofList, List.mem_flatMap]
      exact ⟨'+', hplus, List.mem_singleton.mpr rfl⟩
    have hwords : ∀ word ∈ Modifiers.words, '+' ∉ word.toList := by
      decide
    exact hwords _ hword hlower

/-- A text is its segments, joined. -/
theorem intercalate_segments (text : String) : "+".intercalate (segments text.toList) = text := by
  have hsep : "+".toList = ['+'] := rfl
  rw [← String.toList_inj, String.toList_intercalate, hsep, segments, List.map_map]
  simp only [Function.comp_def, String.toList_ofList, List.map_id', List.intercalate_splitOn]

/-- Texts without plus signs that have been joined are the segments again. -/
theorem segments_intercalate {texts : List String} (hne : texts ≠ [])
    (h : ∀ text ∈ texts, '+' ∉ text.toList) : segments ("+".intercalate texts).toList = texts := by
  have hsep : "+".toList = ['+'] := rfl
  rw [String.toList_intercalate, hsep, segments, List.splitOn_intercalate '+' (by simpa using h)
    (by simpa using hne), List.map_map]
  simp only [Function.comp_def, String.ofList_toList, List.map_id']

theorem plus_not_mem_of_mem_segments {cs : List Char} {text : String} (h : text ∈ segments cs) :
    '+' ∉ text.toList := by
  rw [segments, List.splitOn_eq_splitOnP] at h
  obtain ⟨stretch, hstretch, rfl⟩ := List.mem_map.mp h
  intro hplus
  rw [String.toList_ofList] at hplus
  simpa using Text.not_separates_of_mem_splitOnP hstretch '+' hplus

section Names

variable {text raw : String} {mods : Modifiers} {before after : List String}

/-- A key and what stands beside it are told apart again when they have been joined. -/
theorem segments_key (hbefore : ∀ text ∈ before, IsBeside text)
    (hafter : ∀ text ∈ after, IsBeside text) (hplus : '+' ∉ raw.toList) :
    segments ("+".intercalate (before ++ raw :: after)).toList = before ++ raw :: after := by
  refine segments_intercalate (by simp) fun text htext => ?_
  rcases List.mem_append.mp htext with htext | htext
  · exact plus_not_mem_of_isBeside (hbefore text htext)
  rcases List.mem_cons.mp htext with rfl | htext
  · exact hplus
  · exact plus_not_mem_of_isBeside (hafter text htext)

/-- All segments of the plus key by itself are empty, so that no other key is among them. -/
theorem ne_plus_of_mem_segments (hmem : raw ∈ segments text.toList) (hne : raw ≠ "") :
    text ≠ "+" := by
  rintro rfl
  have hempty : ∀ segment ∈ segments "+".toList, segment = "" := by
    decide
  exact hne (hempty raw hmem)

/-- A text that names a key has it as its only one. -/
theorem Names.namedKeys_eq (h : Names text raw mods) :
    namedKeys text = [raw] ∧ namedMods text = mods := by
  unfold namedKeys namedMods
  cases h with
  | @key before after _ hbefore hafter hne hplus hword hend =>
    have hsegments := segments_key hbefore hafter hplus
    have hmem : raw ∈ segments ("+".intercalate (before ++ raw :: after)).toList := by
      rw [hsegments]
      exact List.mem_append_cons_self
    rw [parts_of_not_suffix (ne_plus_of_mem_segments hmem hne) hend, hsegments]
    refine ⟨?_, Modifiers.ofWords_of_not_isWord hword⟩
    exact keysAmong_eq_singleton_iff.mpr
      ⟨before, after, rfl, hbefore, not_or.mpr ⟨hne, hword⟩, hafter⟩
  | @plusKey before hbefore =>
    rw [parts_append]
    cases before with
    | nil =>
      -- Nothing is joined, and the segment of nothing is empty.
      exact ⟨rfl, rfl⟩
    | cons text before =>
      rw [segments_intercalate (by simp) fun text htext =>
        plus_not_mem_of_isBeside (hbefore text htext), keysAmong_eq_nil_iff.mpr hbefore]
      exact ⟨rfl, rfl⟩
  | plusAlone => exact ⟨rfl, rfl⟩

/-- A text of only one key names it. -/
theorem names_of_namedKeys_eq (hkeys : namedKeys text = [raw]) :
    Names text raw (namedMods text) := by
  unfold namedKeys at hkeys
  unfold namedMods
  rcases plus_cases text with rfl | ⟨front, rfl⟩ | ⟨halone, hend⟩
  · obtain rfl : "+" = raw := List.singleton_inj.mp hkeys
    exact .plusAlone
  · rw [parts_append] at hkeys ⊢
    obtain ⟨rfl, hnil⟩ := List.cons_eq_cons.mp hkeys
    have hnames := Names.plusKey (keysAmong_eq_nil_iff.mp hnil)
    rwa [intercalate_segments] at hnames
  · rw [parts_of_not_suffix halone hend] at hkeys ⊢
    obtain ⟨before, after, hsegments, hbefore, hraw, hafter⟩ :=
      keysAmong_eq_singleton_iff.mp hkeys
    obtain ⟨hne, hword⟩ := not_or.mp hraw
    have htext : text = "+".intercalate (before ++ raw :: after) := by
      rw [← hsegments, intercalate_segments]
    have hplus : '+' ∉ raw.toList :=
      plus_not_mem_of_mem_segments (hsegments ▸ List.mem_append_cons_self)
    have hnames := Names.key hbefore hafter hne hplus hword (by rwa [← htext])
    rwa [← htext, ← Modifiers.ofWords_of_not_isWord hword, ← hsegments] at hnames

/-- A text names a key exactly if that is the only key that is named. -/
theorem names_iff : Names text raw mods ↔ namedKeys text = [raw] ∧ namedMods text = mods := by
  constructor
  · exact Names.namedKeys_eq
  · rintro ⟨hkeys, rfl⟩
    exact names_of_namedKeys_eq hkeys

theorem Names.read_eq (h : Names text raw mods) : read text = .ok (ofKey raw mods) := by
  obtain ⟨hkeys, rfl⟩ := names_iff.mp h
  rw [read_eq_outcome, hkeys]
  rfl

end Names

/-- A text that names one key and otherwise only modifiers is read as the keystroke of them, and
every other text is refused: it names no key or more than one. -/
theorem read_of_names (text : String) :
    (∀ raw mods, Names text raw mods → read text = .ok (ofKey raw mods)) ∧
      ((∀ raw mods, ¬Names text raw mods) →
        (namedKeys text = [] ∧ read text = .error (.noKey text)) ∨
          (2 ≤ (namedKeys text).length ∧ read text = .error (.severalKeys text))) := by
  refine ⟨fun raw mods h => h.read_eq, fun hnone => ?_⟩
  rw [read_eq_outcome]
  match hkeys : namedKeys text with
  | [] => exact Or.inl ⟨rfl, rfl⟩
  | [raw] => exact absurd (names_iff.mpr ⟨hkeys, rfl⟩) (hnone raw (namedMods text))
  | _ :: _ :: rest => exact Or.inr ⟨by simp, rfl⟩

/-- Modifiers may stand on both sides of a key, in any letter case and repeatedly, and empty
segments do not count. The plus key has its own place at the end, where it is a second key beside
another. -/
theorem read_shiftedKeys :
    read "SHIFT++k+Mod+shift" = .ok (ofKey "k" { ctrl := true, shift := true }) ∧
      read "opt+win++" = .ok (ofKey "+" { alt := true, super := true }) ∧
      read "ctrl+p++" = .error (.severalKeys "ctrl+p++") := by
  have hkey : Names "SHIFT++k+Mod+shift" "k" { ctrl := true, shift := true } := by
    have hbefore : ∀ text ∈ ["SHIFT", ""], IsBeside text := by decide +kernel
    have hafter : ∀ text ∈ ["Mod", "shift"], IsBeside text := by decide +kernel
    have hne : "k" ≠ "" := by decide
    exact .key hbefore hafter hne (by decide) (by decide +kernel) (by decide +kernel)
  have hplus : Names "opt+win++" "+" { alt := true, super := true } := by
    have hbefore : ∀ text ∈ ["opt", "win"], IsBeside text := by decide +kernel
    exact .plusKey hbefore
  have hkeys : namedKeys "ctrl+p++" = ["+", "p"] := by decide +kernel
  have hnone : ∀ raw mods, ¬Names "ctrl+p++" raw mods := by
    intro raw mods h
    rw [names_iff, hkeys] at h
    cases h.1
  refine ⟨(read_of_names _).1 _ _ hkey, (read_of_names _).1 _ _ hplus, ?_⟩
  rcases (read_of_names "ctrl+p++").2 hnone with ⟨hnil, -⟩ | ⟨-, hread⟩
  · rw [hkeys] at hnil
    cases hnil
  · exact hread

end Keystroke

end KeyChord
