import GroupUnify.CommandLine.FileStore
import Mathlib.Data.List.Basic

/-!
# Files that give back what was written

Whether a text is read where it was written is up to the files (`Files.GivesBack`). In a store where a path
leads depends on the folders. Files matter only for the reason why a path leads nowhere, and writing a file
makes no folder. So the path at which a file is created leads to the same place afterwards
(`locate_of_folders`), and there stands the text that was written, unless a device has lost it.

* `FileStore.read_of_create`: reading after writing.
* `FileStore.givesBack_iff`: the paths of a store that give back what is written.
-/

namespace GroupUnify.CommandLine

/-- Every text that is written at the path is read there afterwards. -/
def Files.GivesBack {σ ε : Type} [Files σ ε] (store : σ) (path : String) : Prop :=
  ∀ written text, create store path = .ok written → read (written text) path = .ok text

namespace FileStore

variable {store store' : FileStore} {place : Location} {names : List String} {path : String}
  {slash : Bool}

/-! ### Folders decide where a path leads -/

theorem isFolder_of_folders (h : store'.folders = store.folders) (place : Location) :
    store'.isFolder place = store.isFolder place := by
  rw [isFolder, isFolder, h]

theorem walk_of_folders (h : store'.folders = store.folders) : ∀ {folder : Location},
    store.walk folder names = .ok place → store'.walk folder names = .ok place := by
  induction names with
  | nil => exact fun hwalk => hwalk
  | cons name names ih =>
    intro folder hwalk
    simp only [walk] at hwalk ⊢
    rw [isFolder_of_folders h]
    by_cases hnext : store.isFolder (folder.step name) = true
    · rw [if_pos hnext] at hwalk ⊢
      exact ih hwalk
    · -- what is no folder ends the walk, whatever stands there
      rw [if_neg hnext] at hwalk
      split at hwalk
      · cases hwalk
      · split at hwalk <;> cases hwalk

/-- **A path that leads somewhere leads to the same place in every store with these folders.** -/
theorem locate_of_folders (h : store'.folders = store.folders)
    (hlocate : store.locate path = .ok (place, slash)) : store'.locate path = .ok (place, slash) := by
  simp only [locate] at hlocate ⊢
  by_cases hzero : path.toList.contains '\x00' = true
  · rw [if_pos hzero] at hlocate
    cases hlocate
  rw [if_neg hzero] at hlocate ⊢
  by_cases hlong : pathLimit ≤ path.utf8ByteSize
  · rw [if_pos hlong] at hlocate
    cases hlocate
  rw [if_neg hlong] at hlocate ⊢
  split at hlocate
  · exact hlocate
  · next last before _ =>
    cases hwalk : store.walk (Location.start path) before.reverse with
    | error cause =>
      rw [hwalk] at hlocate
      cases hlocate
    | ok folder =>
      rw [hwalk] at hlocate
      rw [walk_of_folders h hwalk]
      exact hlocate

/-! ### Writing and reading -/

theorem folders_write (store : FileStore) (place : Location) (text : String) :
    (store.write place text).folders = store.folders := by
  rw [write]
  split <;> rfl

theorem lookup_write (store : FileStore) (hplace : place ∉ devices) (text : String) :
    (store.write place text).files.lookup place = some text := by
  rw [write, if_neg hplace]
  exact List.lookup_cons_self

/-- A file is created where no folder stands, at a path without a slash at its end. -/
theorem locate_of_create (h : store.create path = .ok place) :
    store.locate path = .ok (place, false) ∧ store.isFolder place = false ∧
      place.isTooLong = false := by
  rw [create] at h
  cases hlocate : store.locate path with
  | error cause =>
    rw [hlocate] at h
    cases h
  | ok found =>
    obtain ⟨place', slash⟩ := found
    rw [hlocate] at h
    simp only [bind, Except.bind, pure, Except.pure, Bool.or_eq_true] at h
    split at h
    · cases h
    · next hfree =>
      split at h
      · cases h
      · next hshort =>
        cases h
        rw [not_or, Bool.not_eq_true, Bool.not_eq_true] at hfree
        rw [Bool.not_eq_true] at hshort
        rw [hfree.2]
        exact ⟨rfl, hfree.1, hshort⟩

/-- **What is written at a path is read there**, unless the path leads to a device. -/
theorem read_of_create (h : store.create path = .ok place) (hplace : place ∉ devices)
    (text : String) : (store.write place text).read path = .ok text := by
  obtain ⟨hlocate, hfolder, hshort⟩ := locate_of_create h
  have hfolders := folders_write store place text
  have hagain := locate_of_folders hfolders hlocate
  rw [read, hagain]
  simp only [bind, Except.bind, isFolder_of_folders hfolders, hfolder, hshort,
    lookup_write store hplace, Bool.false_eq_true, if_false]
  rfl

/-- **A store gives back what is written at a path** exactly if the path does not lead to a device. -/
theorem givesBack_iff (h : store.create path = .ok place) :
    Files.GivesBack store path ↔ place ∉ devices := by
  have hcreate : Files.create store path = .ok (store.write place) := by
    change (store.create path).map store.write = _
    rw [h]
    rfl
  constructor
  · intro hback hdevice
    -- two texts cannot both be read at a place that neither of them changes
    have hzero := hback _ "0" hcreate
    have hone := hback _ "1" hcreate
    rw [write, if_pos hdevice] at hzero hone
    exact absurd (hzero.symm.trans hone) (by decide)
  · intro hplace written text hwritten
    cases hcreate.symm.trans hwritten
    exact read_of_create h hplace text

end FileStore

end GroupUnify.CommandLine
