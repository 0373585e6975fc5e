import KeyChord.Proofs.Files.ReadingBack
import KeyChord.Proofs.Yaml.BlockMapping
import KeyChord.Proofs.Yaml.Meaning
import KeyChord.Settings.Store

/-!
# Settings survive being saved and loaded

The text in which settings are kept describes them, whatever the timeout and the policy are. What
any text says of either setting is told by `Says`, and this is what is loaded, with the default for
a setting that is left out. Of a text that is wrong in any way nothing is loaded at all.

* `read_eq_ok_iff`: the settings that a text describes are those that it says.
* `not_says_of_isSpoilt`: one setting that is wrong spoils the other one too.
* `says_text`: the text of some settings says both of them.
* `loadFrom_of_saveTo`: the settings in a file are those that have been saved in it.

The main statement is `survive_files`.
-/

namespace KeyChord.Settings

open Yaml

/-! ## What a text says -/

/-- The number of milliseconds that a node writes. -/
def milliseconds? (d : Document) : Node → Option UInt64 :=
  d.literal? Node.intTag Node.uint64?

/-- The policy that a node names. -/
def namedPolicy? (d : Document) (node : Node) : Option BreakPolicy :=
  (d.word? node).bind BreakPolicy.ofWord?

/-- The text is a document of a mapping, in which each setting is given or left out. -/
def Says (text : String) (timeout? : Option UInt64) (policy? : Option BreakPolicy) : Prop :=
  ∃ d entries, Document.read text = .ok d ∧ d.entries? d.top = some entries ∧
    FieldIs entries "chord_timeout_ms" (milliseconds? d) timeout? ∧
    FieldIs entries "chord_break" (namedPolicy? d) policy?

/-- The settings that a node describes. -/
def value? (d : Document) (node : Node) : Option Settings := do
  let fields ← d.fields? ["chord_timeout_ms", "chord_break"] node
  let timeoutMs ← (fields.lookup "chord_timeout_ms").elim (some 750) (milliseconds? d)
  let policy ← (fields.lookup "chord_break").elim (some .swallow) (namedPolicy? d)
  return { timeoutMs, policy }

theorem evaluates_reading {d : Document} {node : Node} (hown : node.IsOwn) :
    Evaluates d (reading node) (node.width + 2) (value? d node) :=
  (Evaluates.fields hown).bind fun _ => (Evaluates.fieldOr Evaluates.literal).bind (m := 1) fun _ =>
    (Evaluates.fieldOr Evaluates.word).bind fun _ => Evaluates.pure _

/-- A node describes the settings that its entries give, with the defaults for those that they leave
out. -/
theorem value?_eq_some_iff {d : Document} {node : Node} {s : Settings} :
    value? d node = some s ↔
      ∃ entries timeout? policy?, d.entries? node = some entries ∧
        FieldIs entries "chord_timeout_ms" (milliseconds? d) timeout? ∧
        FieldIs entries "chord_break" (namedPolicy? d) policy? ∧
        ⟨timeout?.getD 750, policy?.getD .swallow⟩ = s := by
  have htimeout : "chord_timeout_ms" ∈ ["chord_timeout_ms", "chord_break"] := by
    decide
  have hpolicy : "chord_break" ∈ ["chord_timeout_ms", "chord_break"] := by
    decide
  constructor
  · intro h
    obtain ⟨fields, hfields, h⟩ := Option.bind_eq_some_iff.mp h
    obtain ⟨timeoutMs, ht, h⟩ := Option.bind_eq_some_iff.mp h
    obtain ⟨policy, hp, h⟩ := Option.bind_eq_some_iff.mp h
    obtain ⟨entries, hentries, honce, rfl⟩ := Document.fields?_eq_some_iff.mp hfields
    rw [lookup_filter_known htimeout, elim_lookup_eq_some_iff (honce _ htimeout)] at ht
    rw [lookup_filter_known hpolicy, elim_lookup_eq_some_iff (honce _ hpolicy)] at hp
    obtain ⟨timeout?, htimeout?, rfl⟩ := ht
    obtain ⟨policy?, hpolicy?, rfl⟩ := hp
    exact ⟨entries, timeout?, policy?, hentries, htimeout?, hpolicy?, Option.some.inj h⟩
  · rintro ⟨entries, timeout?, policy?, hentries, htimeout?, hpolicy?, rfl⟩
    -- Neither setting is there twice, or nothing could be said of it.
    have honce : ∀ name ∈ ["chord_timeout_ms", "chord_break"],
        (entries.filter (·.1 = name)).length ≤ 1 := by
      rw [List.forall_mem_cons, List.forall_mem_singleton]
      exact ⟨htimeout?.length_filter_le, hpolicy?.length_filter_le⟩
    refine Option.bind_eq_some_iff.mpr
      ⟨_, Document.fields?_eq_some_iff.mpr ⟨entries, hentries, honce, rfl⟩, ?_⟩
    rw [lookup_filter_known htimeout, lookup_filter_known hpolicy]
    refine Option.bind_eq_some_iff.mpr
      ⟨_, (elim_lookup_eq_some_iff (honce _ htimeout)).mpr ⟨timeout?, htimeout?, rfl⟩, ?_⟩
    exact Option.bind_eq_some_iff.mpr
      ⟨_, (elim_lookup_eq_some_iff (honce _ hpolicy)).mpr ⟨policy?, hpolicy?, rfl⟩, rfl⟩

/-- A text describes the settings that it says, with the defaults for those that it leaves out. -/
theorem read_eq_ok_iff {text : String} {s : Settings} :
    read text = .ok s ↔
      ∃ timeout? policy?, Says text timeout? policy? ∧
        ⟨timeout?.getD 750, policy?.getD .swallow⟩ = s := by
  have hevaluates : ∀ d, Document.read text = .ok d →
      Evaluates d (reading d.top) (100 * d.size) (value? d d.top) := by
    -- The node at the top is no alias, and the size of the document counts its pairs.
    intro d hd
    obtain ⟨tokens, -, htokens⟩ := bind_eq_ok_iff.mp hd
    obtain ⟨hown, hwidth⟩ := Document.top_of_ofTokens htokens
    have hpos := d.top.width_pos
    exact (evaluates_reading hown).mono (by omega)
  rw [read, decode_eq_ok_iff hevaluates]
  simp only [value?_eq_some_iff]
  constructor
  · rintro ⟨d, hd, entries, timeout?, policy?, hentries, htimeout, hpolicy, hs⟩
    exact ⟨timeout?, policy?, ⟨d, entries, hd, hentries, htimeout, hpolicy⟩, hs⟩
  · rintro ⟨timeout?, policy?, ⟨d, entries, hd, hentries, htimeout, hpolicy⟩, hs⟩
    exact ⟨d, hd, entries, timeout?, policy?, hentries, htimeout, hpolicy, hs⟩

/-- An entry of the name of a setting is something else than a setting. -/
def IsSpoilt (d : Document) (entries : List (String × Node)) : Prop :=
  (∃ node, ("chord_timeout_ms", node) ∈ entries ∧ milliseconds? d node = none) ∨
    ∃ node, ("chord_break", node) ∈ entries ∧ namedPolicy? d node = none

/-- One setting that is wrong spoils the text, and so the other one does not count. -/
theorem not_says_of_isSpoilt {text : String} {d : Document} {entries : List (String × Node)}
    (hd : Document.read text = .ok d) (hentries : d.entries? d.top = some entries)
    (h : IsSpoilt d entries) (timeout? : Option UInt64) (policy? : Option BreakPolicy) :
    ¬Says text timeout? policy? := by
  rintro ⟨d', entries', hd', hentries', htimeout, hpolicy⟩
  obtain rfl : d = d' := Except.ok.inj (hd.symm.trans hd')
  obtain rfl : entries = entries' := Option.some.inj (hentries.symm.trans hentries')
  rcases h with ⟨node, hmem, hnone⟩ | ⟨node, hmem, hnone⟩
  · exact htimeout.value?_ne_none hmem hnone
  · exact hpolicy.value?_ne_none hmem hnone

/-- A text that says nothing of the settings cannot be read. -/
theorem exists_error_of_not_says {text : String}
    (h : ∀ timeout? policy?, ¬Says text timeout? policy?) : ∃ error, read text = .error error := by
  cases hread : read text with
  | error error => exact ⟨error, rfl⟩
  | ok s =>
    obtain ⟨timeout?, policy?, hsaid, -⟩ := read_eq_ok_iff.mp hread
    exact absurd hsaid (h timeout? policy?)

/-! ## What is written -/

/-- The settings as they are written. -/
def fields (s : Settings) : List (String × String) :=
  [("chord_timeout_ms", toString s.timeoutMs), ("chord_break", s.policy.word)]

theorem text_eq (s : Settings) : s.text = String.ofList (s.fields.flatMap fieldLine) := by
  have htimeout : "chord_timeout_ms: ".toList = "chord_timeout_ms".toList ++ [':', ' '] := by
    rfl
  have hpolicy : "\nchord_break: ".toList = '\n' :: "chord_break".toList ++ [':', ' '] := by
    rfl
  have hend : "\n".toList = ['\n'] := by
    rfl
  rw [← String.toList_inj]
  unfold text fields
  simp only [fieldLine, String.toList_append, String.toList_ofList, htimeout, hpolicy, hend,
    List.flatMap_cons, List.flatMap_nil]
  simp only [List.append_assoc, List.cons_append, List.nil_append, List.append_nil]

/-- Neither the digits of a number nor the word for a policy need quotes. -/
theorem isPlainField_of_mem_fields (s : Settings) : ∀ field ∈ s.fields, IsPlainField field := by
  have htimeout : IsWord (toString s.timeoutMs).toList := by
    show IsWord (toString s.timeoutMs.toNat).toList
    rw [Nat.toString_eq_ofList_toDigits, String.toList_ofList]
    refine ⟨Nat.toDigits_ne_nil, fun c hc => ?_⟩
    have hdigit : c.isDigit = true := Nat.isDigit_of_mem_toDigits (by decide) (by decide) hc
    simp [isWordChar, Char.isAlphanum, hdigit]
  have hpolicy : IsWord s.policy.word.toList := by
    cases s.policy <;> exact isWord_of_all (by decide)
  have htimeoutName : IsWord "chord_timeout_ms".toList := isWord_of_all (by decide)
  have hpolicyName : IsWord "chord_break".toList := isWord_of_all (by decide)
  have hlengths : Cursor.byteCount "chord_timeout_ms".toList ≤ 1024 ∧
      Cursor.byteCount "chord_break".toList ≤ 1024 := by
    decide
  rw [fields, List.forall_mem_cons, List.forall_mem_singleton]
  exact ⟨⟨htimeoutName, htimeout, hlengths.1⟩, ⟨hpolicyName, hpolicy, hlengths.2⟩⟩

/-- The text in which settings are kept says all of them. -/
theorem says_text (s : Settings) : Says s.text (some s.timeoutMs) (some s.policy) := by
  have hread := Document.read_fieldLines s.isPlainField_of_mem_fields
  rw [text_eq]
  refine ⟨_, s.fields.map fun field => (field.1, .scalar none .plain field.2), hread, rfl,
    .present rfl ?_, .present rfl ?_⟩
  · exact Node.uint64?_toString s.timeoutMs
  · exact BreakPolicy.ofWord?_word s.policy

/-- The text in which settings are kept describes them. -/
theorem read_text (s : Settings) : read s.text = .ok s :=
  read_eq_ok_iff.mpr ⟨_, _, s.says_text, rfl⟩

/-! ## Files -/

/-- The settings are loaded from any file that has the text. -/
def Loads (text : String) (s : Settings) : Prop :=
  ∀ ⦃σ : Type⦄ (disk : Disk (StateM σ)) (path : String) (world : σ),
    ((disk.read path).run world).1 = .ok text.toUTF8 → ((loadFrom disk path).run world).1 = s

/-- What is loaded depends on the text of the file alone. -/
theorem loads_ofText (text : String) : Loads text (ofText text) := by
  intro σ disk path world h
  have hfile : ((loadFrom disk path).run world).1 =
      ofFile (fileText ((disk.read path).run world).1) := rfl
  rw [hfile, h, fileText_toUTF8]
  rfl

/-- The settings that a text describes are loaded. -/
theorem loads_of_read {text : String} {s : Settings} (h : read text = .ok s) : Loads text s := by
  have hs : ofText text = s := by
    rw [ofText, h]
    rfl
  rw [← hs]
  exact loads_ofText text

/-- Of a text that cannot be read nothing is loaded. -/
theorem loads_default {text : String} {error : Yaml.Error} (h : read text = .error error) :
    Loads text default := by
  have hdefault : ofText text = default := by
    rw [ofText, h]
    rfl
  rw [← hdefault]
  exact loads_ofText text

section Files

variable {σ : Type} {disk : Disk (StateM σ)} {path : String} {world world' : σ}

/-- If settings have been saved, their text has been written. -/
theorem write_of_saveTo {s : Settings} (h : (s.saveTo disk path).run world = (.ok (), world')) :
    ∃ world'', (disk.write path s.text.toUTF8).run world'' = (.ok (), world') := by
  rw [saveTo] at h
  split at h
  · obtain ⟨_, world'', -, hwrite⟩ := exists_of_run_bind h
    exact ⟨world'', run_of_run_mapError hwrite⟩
  · exact ⟨world, run_of_run_mapError h⟩

/-- The settings in a file are those that have been saved in it. -/
theorem loadFrom_of_saveTo (hdisk : disk.ReadsBack) {s : Settings}
    (h : (s.saveTo disk path).run world = (.ok (), world')) :
    ((loadFrom disk path).run world').1 = s := by
  obtain ⟨world'', hwrite⟩ := write_of_saveTo h
  exact loads_of_read s.read_text disk path world' (hdisk path _ world'' world' hwrite)

/-- The settings of the user are those that the user has saved. -/
theorem load_of_save (hdisk : disk.ReadsBack) {env : Environment} {s : Settings}
    (h : (s.save disk env).run world = (.ok (), world')) :
    ((load disk env).run world').1 = s := by
  cases hfile : env.settingsFile with
  | none =>
    rw [save, hfile] at h
    cases congrArg Prod.fst h
  | some path =>
    rw [save, hfile] at h
    rw [load, hfile]
    exact loadFrom_of_saveTo hdisk h

end Files

/-- Settings survive being saved in a file and loaded from it, and a resolver works by them. What
the text of a file says is loaded, with the defaults for what it leaves out, and nothing but the
defaults if it is wrong in any way. -/
theorem survive_files (s : Settings) :
    read s.text = .ok s ∧
    (∀ {σ : Type} (disk : Disk (StateM σ)) (path : String) (world world' : σ), disk.ReadsBack →
      (s.saveTo disk path).run world = (.ok (), world') →
        ((loadFrom disk path).run world').1 = s) ∧
    (∀ registry clock, (s.resolver registry clock).machine.policy = s.policy ∧
      (s.resolver registry clock).machine.timeout.clock = clock ∧
      (s.resolver registry clock).machine.timeout.ticks =
        max 100 (min 10000 s.timeoutMs.toNat) * clock.perMs) ∧
    (∀ text timeout? policy?, Says text timeout? policy? →
      read text = .ok ⟨timeout?.getD 750, policy?.getD .swallow⟩ ∧
        Loads text ⟨timeout?.getD 750, policy?.getD .swallow⟩) ∧
    (∀ text, (∀ timeout? policy?, ¬Says text timeout? policy?) →
      (∃ error, read text = .error error) ∧ Loads text default) ∧
    ∀ text d entries, Document.read text = .ok d → d.entries? d.top = some entries →
      IsSpoilt d entries → (∃ error, read text = .error error) ∧ Loads text default := by
  have hwrong : ∀ text, (∀ timeout? policy?, ¬Says text timeout? policy?) →
      (∃ error, read text = .error error) ∧ Loads text default := by
    intro text hnot
    obtain ⟨error, herror⟩ := exists_error_of_not_says hnot
    exact ⟨⟨error, herror⟩, loads_default herror⟩
  refine ⟨s.read_text, fun disk path world world' hdisk h => loadFrom_of_saveTo hdisk h,
    fun registry clock => ⟨rfl, rfl, clock.ticks_clamp_mul _⟩,
    fun text timeout? policy? hsaid => ?_, hwrong,
    fun text d entries hd hentries h => hwrong text (not_says_of_isSpoilt hd hentries h)⟩
  have hread := read_eq_ok_iff.mpr ⟨timeout?, policy?, hsaid, rfl⟩
  exact ⟨hread, loads_of_read hread⟩

/-- A file tree with one text, in the directory from which paths start. -/
def treeOf (text : String) : FileTree :=
  { entries := [(["config.yaml"], .file text.toUTF8)] }

theorem survive_files_longest_timeout :
    (let s : Settings := ⟨18446744073709551615, .reevaluate⟩;
      let saved := (s.saveTo FileTree.disk "chordmap/config.yaml").run (treeOf "");
      saved.1 = .ok () ∧
        ((loadFrom FileTree.disk "chordmap/config.yaml").run saved.2).1 = s) ∧
    (let tree := treeOf "chord_break: reevaluate\n";
      ((loadFrom FileTree.disk "config.yaml").run tree).1 = ⟨750, .reevaluate⟩) ∧
    (let tree := treeOf "chord_timeout_ms: soon\nchord_break: reevaluate\n";
      ((loadFrom FileTree.disk "config.yaml").run tree).1 = default) ∧
    ∃ error, read "chord_timeout_ms: soon\nchord_break: reevaluate\n" = .error error := by
  obtain ⟨-, hsurvive, -, hsaid, hnot, hspoilt⟩ :=
    survive_files ⟨18446744073709551615, .reevaluate⟩
  have hsaved : ∀ s : Settings,
      ((s.saveTo FileTree.disk "chordmap/config.yaml").run (treeOf "")).1 = .ok () :=
    fun _ => rfl
  have htree : ∀ text : String,
      ((FileTree.disk.read "config.yaml").run (treeOf text)).1 = .ok text.toUTF8 :=
    fun _ => rfl
  have hpolicy : IsPlainField ("chord_break", "reevaluate") :=
    ⟨isWord_of_all (by decide), isWord_of_all (by decide), by decide⟩
  have htimeout : IsPlainField ("chord_timeout_ms", "soon") :=
    ⟨isWord_of_all (by decide), isWord_of_all (by decide), by decide⟩
  have hpartly := Document.read_fieldLines (List.forall_mem_singleton.mpr hpolicy)
  have hwrong := Document.read_fieldLines
    (List.forall_mem_cons.mpr ⟨htimeout, List.forall_mem_singleton.mpr hpolicy⟩)
  have hpartlyText : String.ofList ([("chord_break", "reevaluate")].flatMap fieldLine) =
      "chord_break: reevaluate\n" := by
    rfl
  have hwrongText : String.ofList
      ([("chord_timeout_ms", "soon"), ("chord_break", "reevaluate")].flatMap fieldLine) =
      "chord_timeout_ms: soon\nchord_break: reevaluate\n" := by
    rfl
  rw [hpartlyText] at hpartly
  rw [hwrongText] at hwrong
  have hpresent : Says "chord_break: reevaluate\n" none (some .reevaluate) :=
    ⟨_, [("chord_break", .scalar none .plain "reevaluate")], hpartly, rfl, .missing (by simp),
      .present rfl rfl⟩
  have hsoon : ∀ d, IsSpoilt d [("chord_timeout_ms", .scalar none .plain "soon"),
      ("chord_break", .scalar none .plain "reevaluate")] :=
    fun _ => Or.inl ⟨_, List.mem_cons_self, rfl⟩
  refine ⟨⟨hsaved _, hsurvive FileTree.disk _ _ _ FileTree.readsBack_disk
    (Prod.ext (hsaved _) rfl)⟩, ?_, ?_, ?_⟩
  · exact (hsaid _ none (some .reevaluate) hpresent).2 FileTree.disk _ _ (htree _)
  · exact (hspoilt _ _ _ hwrong rfl (hsoon _)).2 FileTree.disk _ _ (htree _)
  · exact (hnot _ (not_says_of_isSpoilt hwrong rfl (hsoon _))).1

end KeyChord.Settings
