import AlarmView.Folder
import AlarmView.Proofs.Table

/-!
# Files that were written

A file that was written can be read under the same path, because no folder on the way to it has
changed.  Nothing else in the folder has changed either.
-/

namespace AlarmView.Folder

variable {folder after : Folder} {path : String} {text : Option String}

/-- The key of the entry at a place. -/
def keyOf (names : List String) : String :=
  "/".intercalate names

theorem write_eq_ok :
    folder.write path text = .ok after ↔
      ∃ place, folder.locate path = .ok place ∧ place.entry ≠ some .folder ∧
        place.slash = false ∧ after = folder.insert (keyOf place.names) (.file text) := by
  rw [write]
  cases folder.locate path with
  | error error => simp [bind, Except.bind]
  | ok place =>
      obtain ⟨names, entry, slash⟩ := place
      simp only [bind, Except.bind, Except.ok.injEq, exists_eq_left']
      rcases entry with _ | _ | old <;> cases slash <;>
        simp [pure, Except.pure, throw, throwThe, MonadExceptOf.throw, keyOf, @eq_comm _ _ after]

/-- The entries at other places, and every folder, stay where they are. -/
theorem entryAt?_insert {key : String} {entry : FolderEntry} {names : List String}
    (notFolder : folder.get? key ≠ some .folder) (isFolder : folder.entryAt? names = some .folder) :
    entryAt? (folder.insert key entry) names = some .folder := by
  rw [entryAt?] at isFolder ⊢
  split
  · rfl
  · next inside =>
      rw [if_neg inside] at isFolder
      have other : "/".intercalate names ≠ key := by
        rintro rfl
        exact notFolder isFolder
      rw [Table.get?_insert, if_neg other, isFolder]

/-- Writing a file changes no way through the folder. -/
theorem follow_insert {key : String} (entry : FolderEntry)
    (notFolder : folder.get? key ≠ some .folder) {names passed reached : List String}
    (leads : folder.follow passed names = .ok reached) :
    follow (folder.insert key entry) passed names = .ok reached := by
  induction names generalizing passed with
  | nil => exact leads
  | cons name names ih =>
      rw [follow] at leads
      split at leads
      · cases leads
      · cases leads
      · next isFolder =>
          rw [follow, entryAt?_insert notFolder isFolder]
          simp only
          split at leads
          · next stay =>
              rw [if_pos stay]
              exact ih leads
          · next move =>
              rw [if_neg move]
              split at leads
              · next up =>
                  rw [if_pos up]
                  exact ih leads
              · next down =>
                  rw [if_neg down]
                  exact ih leads

theorem locate_eq_ok {place : Place} :
    folder.locate path = .ok place ↔
      path.startsWith "/" = false ∧ ∃ passed,
        folder.follow [] ((path.splitOn "/").reverse.dropWhile (· == "")).reverse = .ok passed ∧
        place =
          { names := passed, entry := folder.entryAt? passed
            slash :=
              ((path.splitOn "/").reverse.dropWhile (· == "")).reverse != path.splitOn "/" } := by
  rw [locate]
  split
  · next outside => simp [outside]
  · next inside =>
      cases leads : folder.follow [] ((path.splitOn "/").reverse.dropWhile (· == "")).reverse with
      | error error => simp [bind, Except.bind, leads]
      | ok passed => simp [inside, bind, Except.bind, pure, Except.pure, leads, @eq_comm _ _ place]

theorem read_eq_ok {text : String} :
    folder.read path = .ok text ↔
      ∃ place, folder.locate path = .ok place ∧ place.entry = some (.file (some text)) ∧
        place.slash = false := by
  rw [read]
  cases folder.locate path with
  | error error => simp [bind, Except.bind]
  | ok place =>
      obtain ⟨names, entry, slash⟩ := place
      simp only [bind, Except.bind, Except.ok.injEq, exists_eq_left']
      rcases entry with _ | _ | _ | old <;> cases slash <;>
        simp [pure, Except.pure, throw, throwThe, MonadExceptOf.throw]

theorem write_of_read {old : String} (readable : folder.read path = .ok old)
    (text : Option String) : ∃ after, folder.write path text = .ok after := by
  obtain ⟨place, located, isFile, noSlash⟩ := read_eq_ok.mp readable
  exact ⟨_, write_eq_ok.mpr ⟨place, located, by simp [isFile], noSlash, rfl⟩⟩

/-- A file that was written holds its text. -/
theorem read_write {text : String} (written : folder.write path (some text) = .ok after) :
    after.read path = .ok text := by
  obtain ⟨place, located, notFolder, noSlash, rfl⟩ := write_eq_ok.mp written
  obtain ⟨inside, passed, leads, rfl⟩ := locate_eq_ok.mp located
  have nonempty : passed ≠ [] := by
    rintro rfl
    exact notFolder rfl
  have entry {folder : Folder} : folder.entryAt? passed = folder.get? (keyOf passed) := by
    rw [entryAt?, if_neg nonempty, keyOf]
  have now := locate_eq_ok.mpr ⟨inside, passed,
    follow_insert (.file (some text)) (entry ▸ notFolder) leads, rfl⟩
  have here : entryAt? (folder.insert (keyOf passed) (.file (some text))) passed =
      some (.file (some text)) := by
    rw [entry, Table.get?_insert, if_pos rfl]
  exact read_eq_ok.mpr ⟨_, now, here, noSlash⟩

end AlarmView.Folder
