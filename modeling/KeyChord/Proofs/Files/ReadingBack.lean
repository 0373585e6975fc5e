import KeyChord.Files.Tree
import KeyChord.Proofs.Steps

/-!
# Files are read back

A disk on which something has been written gives it back, as long as nothing else happens. This is
what the library relies on in a disk, and a file tree is such a disk: a file is never written in the
place of a directory, so that its path leads to it as before.

The main statement is `FileTree.readsBack_disk`.
-/

namespace KeyChord

/-- What has been written to a path is what is read there next. -/
def Disk.ReadsBack {σ : Type} (disk : Disk (StateM σ)) : Prop :=
  ∀ path bytes world world', (disk.write path bytes).run world = (.ok (), world') →
    ((disk.read path).run world').1 = .ok bytes

/-- A text is the text of its bytes. -/
theorem fileText_toUTF8 (text : String) : fileText (.ok text.toUTF8) = .ok text := by
  have htext : String.fromUTF8? text.toUTF8 = some text := by
    rw [String.fromUTF8?, String.toUTF8_eq_toByteArray, dif_pos text.isValidUTF8]
    rfl
  refine bind_eq_ok_iff.mpr ⟨text.toUTF8, rfl, ?_⟩
  rw [htext]

namespace FileTree

variable {tree : FileTree} {place : List String} {entry : Entry}

theorem entry?_put_self (tree : FileTree) (hplace : place ≠ []) (entry : Entry) :
    entry? (tree.put place entry) place = some entry := by
  unfold entry?
  rw [if_neg hplace]
  exact List.lookup_cons_self

/-- Directories stay where they are if something is put elsewhere. -/
theorem entry?_put_of_directory (hplace : tree.entry? place ≠ some .directory) {names : List String}
    (h : tree.entry? names = some .directory) :
    entry? (tree.put place entry) names = some .directory := by
  have hne : (names == place) = false := by
    rw [beq_eq_false_iff_ne]
    rintro rfl
    exact hplace h
  unfold entry? at h ⊢
  split at h
  case isTrue hnil => rw [if_pos hnil]
  case isFalse hnil =>
    rw [if_neg hnil, put, List.lookup_cons, hne]
    exact h

theorem enter_put (hplace : tree.entry? place ≠ some .directory) {here there names : List String}
    (h : tree.enter here names = .ok there) :
    (tree.put place entry).enter here names = .ok there := by
  induction names generalizing here with
  | nil => exact h
  | cons name names ih =>
    rw [enter] at h ⊢
    split at h
    case h_1 hdirectory =>
      rw [entry?_put_of_directory hplace hdirectory]
      exact ih h
    case h_2 => cases h
    case h_3 => cases h

/-- Paths lead where they led if something is put where no directory is. -/
theorem locate_put (hplace : tree.entry? place ≠ some .directory) {path : String}
    {names : List String} (h : tree.locate path = .ok names) :
    (tree.put place entry).locate path = .ok names := by
  have hstart : (tree.put place entry).start path = tree.start path := rfl
  rw [locate, hstart]
  rw [locate] at h
  dsimp only at h ⊢
  split_ifs at h ⊢ with hempty hdirectory
  · exact enter_put hplace h
  · obtain ⟨there, hthere, hnames⟩ := bind_eq_ok_iff.mp h
    exact bind_eq_ok_iff.mpr ⟨there, enter_put hplace hthere, hnames⟩

/-- What is written is a file where its path leads, and there has been no directory. -/
theorem write_eq_ok_iff {path : String} {bytes : ByteArray} {tree' : FileTree} :
    tree.write path bytes = .ok tree' ↔
      ∃ names, tree.locate path = .ok names ∧ tree.entry? names ≠ some .directory ∧
        tree' = tree.put names (.file bytes) := by
  rw [write, bind_eq_ok_iff]
  refine exists_congr fun names => and_congr_right fun _ => ?_
  split
  case h_1 hdirectory => simp [hdirectory]
  case h_2 hnone =>
    rw [Except.ok.injEq]
    exact ⟨fun h => ⟨hnone, h.symm⟩, fun h => h.2.symm⟩

theorem read_of_write {path : String} {bytes : ByteArray} {tree' : FileTree}
    (h : tree.write path bytes = .ok tree') : tree'.read path = .ok bytes := by
  obtain ⟨names, hlocate, hplace, rfl⟩ := write_eq_ok_iff.mp h
  have hnames : names ≠ [] := by
    rintro rfl
    exact hplace rfl
  -- The path still leads to the same place, where the file is the latest entry.
  have hfind : (tree.put names (.file bytes)).find path = .ok (.file bytes) := by
    rw [find, bind_eq_ok_iff]
    exact ⟨names, locate_put hplace hlocate, by rw [entry?_put_self tree hnames]⟩
  rw [read, bind_eq_ok_iff]
  exact ⟨.file bytes, hfind, rfl⟩

/-- A file tree gives back what has been written in it. -/
theorem readsBack_disk : disk.ReadsBack := by
  intro path bytes tree tree' h
  have hwrite : tree.write path bytes = .ok tree' := by
    simp only [disk, update, StateT.run_bind, StateT.run_get] at h
    simp only [pure_bind] at h
    split at h
    case h_1 tree'' hwrite =>
      obtain rfl : tree'' = tree' := congrArg Prod.snd h
      exact hwrite
    case h_2 => cases congrArg Prod.fst h
  exact read_of_write hwrite

end FileTree

end KeyChord
