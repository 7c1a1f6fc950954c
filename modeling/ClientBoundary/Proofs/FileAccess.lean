import ClientBoundary.Files.Tree

/-! Reading and overwriting the files of a tree. A file reads as it was written, files at other
places stay as they are, and so files at different places can be overwritten in any order. -/
namespace ClientBoundary.FileTree

def text? (tree : FileTree) (path : String) : Option String :=
  (tree.file? path).bind (·.contents.text?)

def fileAt? (tree : FileTree) (names : List String) : Option File :=
  match tree.at? names with
  | some (.file found) => some found
  | _ => none

theorem fileAt?_cons (tree : FileTree) (name : String) (rest : List String) :
    tree.fileAt? (name :: rest) = (tree.child? name).bind (·.fileAt? rest) := by
  rw [fileAt?, at?]
  cases tree.child? name <;> rfl

theorem file?_eq (tree : FileTree) (path : String) :
    tree.file? path = if path.endsWith "/" then none else (names? path).bind tree.fileAt? := by
  unfold file? lookup?
  cases names? path with
  | none => simp
  | some names =>
    cases found : tree.at? names with
    | none => simp [fileAt?, found]
    | some item => cases item <;> cases path.endsWith "/" <;> simp [fileAt?, found, isFolder]

theorem file?_eq_some {tree : FileTree} {path : String} {found : File}
    (here : tree.file? path = some found) :
    path.endsWith "/" = false ∧ ∃ names, names? path = some names ∧
      tree.fileAt? names = some found := by
  rw [file?_eq] at here
  cases slash : path.endsWith "/" with
  | true => simp [slash] at here
  | false => exact ⟨rfl, Option.bind_eq_some_iff.mp (by simpa [slash] using here)⟩

section Entries

variable {name other : String} {change later : Option FileTree → FileTree}

theorem find?_changeEntry (entries : List (String × FileTree)) :
    ((changeEntry name change entries).find? (·.1 = name)).map (·.2) =
      some (change ((entries.find? (·.1 = name)).map (·.2))) := by
  induction entries with
  | nil => simp [changeEntry]
  | cons entry rest ih =>
    obtain ⟨first, tree⟩ := entry
    by_cases same : first = name
    · simp [changeEntry, same]
    · simpa [changeEntry, same] using ih

theorem find?_changeEntry_of_ne (different : other ≠ name) (entries : List (String × FileTree)) :
    (changeEntry name change entries).find? (·.1 = other) = entries.find? (·.1 = other) := by
  induction entries with
  | nil => simp [changeEntry, different.symm]
  | cons entry rest ih =>
    obtain ⟨first, tree⟩ := entry
    by_cases same : first = name
    · simp [changeEntry, same, different.symm]
    · simp only [changeEntry, same, if_false, List.find?_cons, ih]

/-- Nothing is asked of a change but what it makes of the entry that is there. -/
theorem changeEntry_congr {entries : List (String × FileTree)}
    (alike : change ((entries.find? (·.1 = name)).map (·.2)) =
      later ((entries.find? (·.1 = name)).map (·.2))) :
    changeEntry name change entries = changeEntry name later entries := by
  induction entries with
  | nil => simpa [changeEntry] using alike
  | cons entry rest ih =>
    obtain ⟨first, tree⟩ := entry
    by_cases same : first = name
    · simpa [changeEntry, same] using alike
    · simpa [changeEntry, same] using ih (by simpa [same] using alike)

theorem changeEntry_changeEntry (entries : List (String × FileTree)) :
    changeEntry name later (changeEntry name change entries) =
      changeEntry name (fun old => later (some (change old))) entries := by
  induction entries with
  | nil => simp [changeEntry]
  | cons entry rest ih =>
    obtain ⟨first, tree⟩ := entry
    by_cases same : first = name
    · simp [changeEntry, same]
    · simp [changeEntry, same, ih]

/-- Changes of different entries can be made in any order; were both new, the order would show. -/
theorem changeEntry_comm (different : other ≠ name) {entries : List (String × FileTree)}
    (there : (entries.find? (·.1 = name)).isSome) :
    changeEntry other later (changeEntry name change entries) =
      changeEntry name change (changeEntry other later entries) := by
  induction entries with
  | nil => simp at there
  | cons entry rest ih =>
    obtain ⟨first, tree⟩ := entry
    by_cases isName : first = name
    · simp [changeEntry, isName, different.symm]
    · by_cases isOther : first = other
      · simp [changeEntry, isOther, different]
      · simpa [changeEntry, isName, isOther] using ih (by simpa [isName] using there)

end Entries

section Put

variable (tree item : FileTree) (name : String) (rest : List String)

theorem child?_put :
    (tree.put item (name :: rest)).child? name =
      some (((tree.child? name).getD (.folder [])).put item rest) :=
  find?_changeEntry tree.entries

theorem child?_put_of_ne {other : String} (different : other ≠ name) :
    (tree.put item (name :: rest)).child? other = tree.child? other :=
  congrArg (Option.map Prod.snd) (find?_changeEntry_of_ne different tree.entries)

end Put

/-- Two things put below one entry are put there one after the other. -/
theorem put_put (tree item later : FileTree) (name : String) (rest others : List String) :
    (tree.put item (name :: rest)).put later (name :: others) =
      .folder (changeEntry name
        (fun child => ((child.getD (.folder [])).put item rest).put later others) tree.entries) :=
  congrArg folder (changeEntry_changeEntry tree.entries)

section Place

variable {tree : FileTree} {place other : List String}

theorem child?_of_fileAt? {name : String} {rest : List String}
    (there : (tree.fileAt? (name :: rest)).isSome) :
    ∃ child, tree.child? name = some child ∧ (child.fileAt? rest).isSome := by
  rw [fileAt?_cons, Option.isSome_bind] at there
  exact (Option.any_eq_true _ _).mp there

theorem fileAt?_put (tree : FileTree) (file : File) (place : List String) :
    (tree.put (.file file) place).fileAt? place = some file := by
  induction place generalizing tree with
  | nil => rfl
  | cons name rest ih => rw [fileAt?_cons, child?_put, Option.bind_some, ih]

/-- Above a file there are folders, and below it there is nothing. -/
theorem fileAt?_put_of_ne (file : File) (there : (tree.fileAt? place).isSome)
    (different : other ≠ place) :
    (tree.put (.file file) place).fileAt? other = tree.fileAt? other := by
  induction place generalizing tree other with
  | nil =>
    obtain ⟨name, rest, rfl⟩ := List.exists_cons_of_ne_nil different
    cases tree with
    | file old => rfl
    | folder entries => simp [fileAt?, at?] at there
  | cons name rest ih =>
    obtain ⟨child, isChild, below⟩ := child?_of_fileAt? there
    cases other with
    | nil =>
      cases tree with
      | file old => simp [child?, entries] at isChild
      | folder entries => rfl
    | cons first others =>
      rw [fileAt?_cons, fileAt?_cons]
      by_cases same : first = name
      · subst same
        rw [child?_put, isChild, Option.getD_some, Option.bind_some, Option.bind_some]
        exact ih below (by simpa using different)
      · rw [child?_put_of_ne _ _ _ _ same]

theorem put_comm (old new : File) (there : (tree.fileAt? place).isSome)
    (also : (tree.fileAt? other).isSome) (different : other ≠ place) :
    (tree.put (.file old) place).put (.file new) other =
      (tree.put (.file new) other).put (.file old) place := by
  induction place generalizing tree other with
  | nil =>
    obtain ⟨name, rest, rfl⟩ := List.exists_cons_of_ne_nil different
    cases tree with
    | file file => simp [fileAt?, at?, child?, entries] at also
    | folder entries => simp [fileAt?, at?] at there
  | cons name rest ih =>
    obtain ⟨child, isChild, below⟩ := child?_of_fileAt? there
    cases other with
    | nil =>
      cases tree with
      | file file => simp [child?, entries] at isChild
      | folder entries => simp [fileAt?, at?] at also
    | cons first others =>
      obtain ⟨second, isSecond, beside⟩ := child?_of_fileAt? also
      by_cases same : first = name
      · subst same
        cases isChild.symm.trans isSecond
        -- Both places are below one entry, so the inner trees commute.
        have inner := ih below beside (by simpa using different)
        rw [put_put, put_put]
        refine congrArg folder (changeEntry_congr ?_)
        change (((tree.child? first).getD _).put _ _).put _ _ =
          (((tree.child? first).getD _).put _ _).put _ _
        rwa [isChild]
      · refine congrArg folder (changeEntry_comm same ?_)
        rw [child?] at isChild
        exact Option.isSome_map.symm.trans (congrArg Option.isSome isChild)

end Place

/-- Two paths do not lead to one place. A path that leads out of the tree leads to no place in
it. -/
def Apart (first second : String) : Prop :=
  names? first = none ∨ names? first ≠ names? second

instance (first second : String) : Decidable (Apart first second) :=
  inferInstanceAs (Decidable (_ ∨ _))

theorem Apart.symm {first second : String} (apart : Apart first second) : Apart second first := by
  unfold Apart at *
  grind

theorem Apart.ne {first second : String} {place other : List String} (apart : Apart first second)
    (leads : names? first = some place) (leadsToo : names? second = some other) : other ≠ place := by
  rintro rfl
  rcases apart with nowhere | different
  · rw [leads] at nowhere
    cases nowhere
  · exact different (leads.trans leadsToo.symm)

section Write

variable {tree after : FileTree} {path other text : String}

theorem write?_eq_some (written : tree.write? path text = some after) :
    ∃ found names, tree.file? path = some found ∧ found.isWritable = true ∧
      names? path = some names ∧ tree.fileAt? names = some found ∧
      after = tree.put (.file { found with contents := .text text }) names := by
  unfold write? at written
  cases here : tree.file? path with
  | none => simp [here] at written
  | some found =>
    obtain ⟨_, names, leads, isThere⟩ := file?_eq_some here
    cases writable : found.isWritable with
    | false => simp [here, writable] at written
    | true =>
      refine ⟨found, names, rfl, writable, leads, isThere, Eq.symm ?_⟩
      simpa [here, writable, leads] using written

theorem text?_write? (written : tree.write? path text = some after) :
    after.text? path = some text := by
  obtain ⟨found, names, here, _, leads, _, rfl⟩ := write?_eq_some written
  have noSlash := (file?_eq_some here).1
  rw [text?, file?_eq, noSlash, leads]
  simp [fileAt?_put, Contents.text?]

theorem file?_write? (written : tree.write? path text = some after) (apart : Apart path other) :
    after.file? other = tree.file? other := by
  obtain ⟨found, names, _, _, leads, isThere, rfl⟩ := write?_eq_some written
  rw [file?_eq, file?_eq]
  cases elsewhere : names? other with
  | none => rfl
  | some place =>
    have other := fileAt?_put_of_ne { found with contents := .text text }
      (isThere ▸ rfl : (tree.fileAt? names).isSome) (apart.ne leads elsewhere)
    rw [Option.bind_some, Option.bind_some, other]

/-- Whether a file can be overwritten is for the file to say. -/
theorem isSome_write? (tree : FileTree) (path text : String) :
    (tree.write? path text).isSome = (tree.file? path).any (·.isWritable) := by
  cases here : tree.file? path with
  | none => simp [write?, here]
  | some found =>
    obtain ⟨_, names, leads, _⟩ := file?_eq_some here
    cases writable : found.isWritable <;> simp [write?, here, leads, writable]

def overwrite (tree : FileTree) (path text : String) : FileTree :=
  (tree.write? path text).getD tree

theorem file?_overwrite (tree : FileTree) (apart : Apart path other) (text : String) :
    (tree.overwrite path text).file? other = tree.file? other := by
  unfold overwrite
  cases written : tree.write? path text with
  | none => rfl
  | some after => exact file?_write? written apart

theorem overwrite_of_file? {found : File} {names : List String} (here : tree.file? path = some found)
    (leads : names? path = some names) (text : String) :
    tree.overwrite path text =
      if found.isWritable then tree.put (.file { found with contents := .text text }) names
      else tree := by
  cases writable : found.isWritable <;> simp [overwrite, write?, here, leads, writable]

theorem overwrite_of_no_file (missing : tree.file? path = none) (text : String) :
    tree.overwrite path text = tree := by
  simp [overwrite, write?, missing]

theorem overwrite_comm (tree : FileTree) (apart : Apart path other) (text later : String) :
    (tree.overwrite path text).overwrite other later =
      (tree.overwrite other later).overwrite path text := by
  have keeps := tree.file?_overwrite apart text
  have keepsToo := tree.file?_overwrite apart.symm later
  cases here : tree.file? path with
  | none =>
    rw [overwrite_of_no_file here, overwrite_of_no_file (keepsToo.trans here)]
  | some found =>
    cases elsewhere : tree.file? other with
    | none =>
      rw [overwrite_of_no_file elsewhere, overwrite_of_no_file (keeps.trans elsewhere)]
    | some second =>
      obtain ⟨_, names, leads, isThere⟩ := file?_eq_some here
      obtain ⟨_, place, leadsToo, isThereToo⟩ := file?_eq_some elsewhere
      rw [overwrite_of_file? (keeps.trans elsewhere) leadsToo,
        overwrite_of_file? (keepsToo.trans here) leads, overwrite_of_file? here leads,
        overwrite_of_file? elsewhere leadsToo]
      cases found.isWritable <;> cases second.isWritable <;> try rfl
      exact put_comm _ _ (isThere ▸ rfl) (isThereToo ▸ rfl) (apart.ne leads leadsToo)

end Write

end ClientBoundary.FileTree
