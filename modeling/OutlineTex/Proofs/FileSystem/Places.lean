/-
Paths and the places that they lead to.

A path is followed component by component, through directories that exist. Where that succeeds,
it leads to the place that the path resolves to, so what is read through a path is what the file
at that place holds. Writing goes to the same place. It is not a directory, so no path goes on
from there, and every path that could be followed before can be followed afterwards. That is why
what has been written is what is read back.
-/
import OutlineTex.World

set_option autoImplicit false

namespace OutlineTex

open OutlineTex.Text

/-! ## Components -/

/-- The last of the components of a path is its name. -/
theorem Path.parts_eq_concat {path : Path} (h : path.parts ≠ []) :
    path.parts = path.parts.dropLast ++ [path.name] := by
  rw [name, List.getLast?_eq_some_getLast h, Option.getD_some, List.dropLast_concat_getLast h]

/-- A path resolves to a step from where it resolves to without its name. -/
theorem Path.resolve_eq_step {path : Path} (cwd : Location) (h : path.parts ≠ []) :
    path.resolve cwd = (path.parent.resolve cwd).step path.name := by
  have hparent : path.parent.resolve cwd = path.parts.dropLast.foldl Location.step
      (path.start cwd) := rfl
  rw [resolve, parts_eq_concat h, List.foldl_append, hparent]
  rfl

/-- The name of a path when its suffix is replaced. -/
def Path.nameWith (path : Path) (suffix : String) : String :=
  String.ofList (stem path.name.toList ++ suffix.toList)

/-- Replacing the suffix of a path changes its last component, if it has one and the suffix is one
that names can take. -/
theorem Path.withSuffix_eq_ok {path target : Path} {suffix : String} :
    path.withSuffix suffix = .ok target ↔
      isSuffix suffix.toList = true ∧ path.name ≠ "" ∧
        target = { path with parts := path.parts.dropLast ++ [path.nameWith suffix] } := by
  unfold withSuffix
  by_cases hsuffix : isSuffix suffix.toList = true
  · by_cases hname : path.name = ""
    · simp [hsuffix, hname]
    · rw [if_neg (by simp [hsuffix]), if_neg (by simpa using hname)]
      constructor
      · intro h
        exact ⟨hsuffix, hname, (Except.ok.inj h).symm⟩
      · rintro ⟨-, -, rfl⟩
        rfl
  · simp [hsuffix]

/-! ## Files that can be read -/

namespace FileSystem

/-- A component can be followed from a directory, if its name is not too long and something stands
where it leads. -/
theorem follow_cons_eq_ok {fs : FileSystem} {part : String} {rest : List String}
    {place target : Location} : fs.follow place (part :: rest) = .ok target ↔
      fs.find? place = some .directory ∧ part.utf8ByteSize ≤ nameLimit ∧
        (∃ entry, fs.find? (place.step part) = some entry) ∧
        fs.follow (place.step part) rest = .ok target := by
  rw [follow]
  cases hplace : fs.find? place with
  | none => simp
  | some entry =>
    cases entry with
    | file content => simp
    | directory =>
      by_cases hlong : nameLimit < part.utf8ByteSize
      · simp [hlong, Nat.not_le.mpr hlong]
      · cases hnext : fs.find? (place.step part) <;> simp [hlong, hnext, Nat.le_of_not_lt hlong]

/-- Where a path can be followed, it leads where it resolves to. -/
theorem eq_of_follow {fs : FileSystem} {parts : List String} {place target : Location}
    (h : fs.follow place parts = .ok target) : target = parts.foldl Location.step place := by
  induction parts generalizing place with
  | nil => exact (Except.ok.inj h).symm
  | cons part rest ih =>
    obtain ⟨-, -, -, hrest⟩ := follow_cons_eq_ok.mp h
    exact ih hrest

/-- Unless its text is too long or has a NUL, locating a path is following it from its start. -/
theorem locate_eq_iff {fs : FileSystem} {path : Path} {result : Except OpenFault Location}
    (hlength : result ≠ .error .nameTooLong) (hnul : result ≠ .error .nul) :
    fs.locate path = result ↔
      (path.hasNul = false ∧ path.text.utf8ByteSize ≤ pathLimit) ∧
        fs.follow (path.start fs.cwd) path.parts = result := by
  unfold locate
  by_cases hnamed : path.hasNul = true
  · simp [hnamed, hnul.symm]
  · by_cases hlong : pathLimit < path.text.utf8ByteSize
    · simp [hnamed, hlong, Nat.not_le.mpr hlong, hlength.symm]
    · simp [hnamed, hlong, Nat.le_of_not_lt hlong]

theorem locate_eq_ok {fs : FileSystem} {path : Path} {place : Location} :
    fs.locate path = .ok place ↔
      (path.hasNul = false ∧ path.text.utf8ByteSize ≤ pathLimit) ∧
        fs.follow (path.start fs.cwd) path.parts = .ok place :=
  locate_eq_iff (by simp) (by simp)

/-- A file can be read if its path leads to it. -/
theorem read_eq_ok {fs : FileSystem} {path : Path} {content : List UInt8} :
    fs.read path = .ok content ↔
      ∃ place, fs.locate path = .ok place ∧ fs.find? place = some (.file content) := by
  unfold read
  cases hlocate : fs.locate path with
  | error fault => simp
  | ok place =>
    cases hplace : fs.find? place with
    | none => simp [hplace]
    | some entry => cases entry <;> simp [hplace]

/-- A file that can be read stands at the place that its path resolves to. -/
theorem find?_of_read {fs : FileSystem} {path : Path} {content : List UInt8}
    (h : fs.read path = .ok content) :
    fs.find? (path.resolve fs.cwd) = some (.file content) := by
  obtain ⟨place, hlocate, hfile⟩ := read_eq_ok.mp h
  obtain ⟨-, hfollow⟩ := locate_eq_ok.mp hlocate
  rw [eq_of_follow hfollow] at hfile
  exact hfile

/-- Files are in the table. -/
theorem mem_of_find? {fs : FileSystem} {place : Location} {content : List UInt8}
    (h : fs.find? place = some (.file content)) : (place, .file content) ∈ fs.entries := by
  unfold find? at h
  split at h
  · exact absurd h (by simp)
  · obtain ⟨before, behind, hentries, -⟩ := List.lookup_eq_some_iff.mp h
    rw [hentries]
    exact List.mem_append_right _ List.mem_cons_self

/-! ## Setting a place anew -/

variable {fs : FileSystem} {place new : Location} {content : List UInt8}

/-- Setting a place below the root changes what stands there and nothing else. -/
theorem find?_put_of_ne_nil (fs : FileSystem) (hnew : new ≠ []) (entry : Entry) (other : Location) :
    (fs.put new entry).find? other = if other = new then some entry else fs.find? other := by
  by_cases hroot : other = []
  · rw [if_neg (by rw [hroot]; exact hnew.symm), hroot]
    rfl
  · exact find?_put fs new other entry hroot

/-- The root is a directory. -/
theorem ne_nil_of_find? (h : fs.find? place ≠ some .directory) : place ≠ [] := by
  rintro rfl
  exact h rfl

/-- A path is followed in two parts, one after the other. -/
theorem follow_append (fs : FileSystem) (place : Location) (first second : List String) :
    fs.follow place (first ++ second) =
      (fs.follow place first).bind fun middle => fs.follow middle second := by
  induction first generalizing place with
  | nil => rfl
  | cons part rest ih =>
    rw [List.cons_append, follow, follow]
    split
    · rfl
    · rfl
    · dsimp only
      split
      · rfl
      · split
        · rfl
        · exact ih _

/-- Something stands where a path leads to, if something stands where it starts. -/
theorem find?_of_follow {parts : List String} {target : Location}
    (h : fs.follow place parts = .ok target) (hplace : ∃ entry, fs.find? place = some entry) :
    ∃ entry, fs.find? target = some entry := by
  induction parts generalizing place with
  | nil =>
    obtain rfl : place = target := Except.ok.inj h
    exact hplace
  | cons part rest ih =>
    obtain ⟨-, -, hnext, hrest⟩ := follow_cons_eq_ok.mp h
    exact ih hrest hnext

/-- A file in the place of what is no directory is in the way of no path. -/
theorem follow_put {parts : List String} {target : Location}
    (h : fs.follow place parts = .ok target) (hnew : fs.find? new ≠ some .directory) :
    (fs.put new (.file content)).follow place parts = .ok target := by
  have hfind := fs.find?_put_of_ne_nil (ne_nil_of_find? hnew) (.file content)
  induction parts generalizing place with
  | nil => exact h
  | cons part rest ih =>
    obtain ⟨hplace, hlong, ⟨entry, hnext⟩, hrest⟩ := follow_cons_eq_ok.mp h
    refine follow_cons_eq_ok.mpr ⟨?_, hlong, ?_, ih hrest⟩
    · rw [hfind, if_neg, hplace]
      rintro rfl
      exact hnew hplace
    · rw [hfind]
      split
      · exact ⟨_, rfl⟩
      · exact ⟨entry, hnext⟩

/-! ## Writing -/

variable {path : Path}

/-- A component that is missing is missing from a directory, and nothing stands where it leads. -/
theorem of_follow_singleton_missing {part : String} (h : fs.follow place [part] = .error .missing)
    (hplace : ∃ entry, fs.find? place = some entry) :
    fs.find? place = some .directory ∧ part.utf8ByteSize ≤ nameLimit ∧
      fs.find? (place.step part) = none := by
  rw [follow] at h
  obtain ⟨entry, hentry⟩ := hplace
  rw [hentry] at h ⊢
  cases entry with
  | file content => simp at h
  | directory =>
    by_cases hlong : nameLimit < part.utf8ByteSize
    · simp [hlong] at h
    · cases hnext : fs.find? (place.step part) with
      | some entry => simp [hlong, hnext, follow] at h
      | none => exact ⟨rfl, Nat.le_of_not_lt hlong, rfl⟩

/-- Where nothing stands in a directory, a new file can be put, and then the path leads to it. -/
theorem of_missing {directory : Location}
    (hstart : ∃ entry, fs.find? (path.start fs.cwd) = some entry)
    (hmissing : fs.locate path = .error .missing)
    (hparent : fs.locate path.parent = .ok directory) :
    directory.step path.name = path.resolve fs.cwd ∧
      fs.find? (directory.step path.name) ≠ some .directory ∧
      (fs.put (directory.step path.name) (.file content)).locate path =
        .ok (directory.step path.name) := by
  obtain ⟨-, hfront⟩ := locate_eq_ok.mp hparent
  have hfront : fs.follow (path.start fs.cwd) path.parts.dropLast = .ok directory := hfront
  obtain ⟨hshort, hfollow⟩ := (locate_eq_iff (by simp) (by simp)).mp hmissing
  have hne : path.parts ≠ [] := by
    intro hnil
    rw [hnil] at hfollow
    exact absurd hfollow (by simp [follow])
  have hparts := Path.parts_eq_concat hne
  -- so what is missing is the last component
  rw [hparts, follow_append, hfront] at hfollow
  have hexists := find?_of_follow hfront hstart
  obtain ⟨hdirectory, hlong, hnone⟩ := of_follow_singleton_missing hfollow hexists
  have hplace : directory.step path.name = path.resolve fs.cwd := by
    rw [Path.resolve_eq_step fs.cwd hne, eq_of_follow hfront]
    rfl
  have hnew : fs.find? (directory.step path.name) ≠ some .directory := by
    rw [hnone]
    simp
  refine ⟨hplace, hnew, locate_eq_ok.mpr ⟨hshort, ?_⟩⟩
  have hfind := fs.find?_put_of_ne_nil (ne_nil_of_find? hnew) (.file content)
  have hkept : (fs.put (directory.step path.name) (.file content)).follow (path.start fs.cwd)
      path.parts.dropLast = .ok directory := follow_put hfront hnew
  show (fs.put (directory.step path.name) (.file content)).follow (path.start fs.cwd) path.parts = _
  rw [hparts, follow_append, hkept]
  refine follow_cons_eq_ok.mpr ⟨?_, hlong, ⟨_, (hfind _).trans (if_pos rfl)⟩, rfl⟩
  rw [hfind, if_neg, hdirectory]
  intro hsame
  rw [← hsame] at hnew
  exact hnew hdirectory

/-- The place at which a file is written is the one that its path resolves to, and no directory.
Once the file is there, the path leads to it. -/
theorem of_target (content : List UInt8) (hcwd : ∃ entry, fs.find? fs.cwd = some entry)
    (h : fs.target path = .ok place) :
    place = path.resolve fs.cwd ∧ fs.find? place ≠ some .directory ∧
      (fs.put place (.file content)).locate path = .ok place := by
  have hstart : ∃ entry, fs.find? (path.start fs.cwd) = some entry := by
    unfold Path.start
    split
    · exact ⟨.directory, rfl⟩
    · exact hcwd
  unfold target at h
  cases hlocate : fs.locate path with
  | ok found =>
    -- the path leads to a file already, or it leads nowhere but to a place that can be taken
    simp only [hlocate] at h
    split at h
    · exact absurd h (by simp)
    · next hdirectory =>
      obtain rfl : found = place := Except.ok.inj h
      obtain ⟨hshort, hfollow⟩ := locate_eq_ok.mp hlocate
      exact ⟨eq_of_follow hfollow, hdirectory,
        locate_eq_ok.mpr ⟨hshort, follow_put hfollow hdirectory⟩⟩
  | error fault =>
    cases fault with
    | missing =>
      simp only [hlocate] at h
      cases hparent : fs.locate path.parent with
      | error fault => simp [hparent] at h
      | ok directory =>
        obtain rfl : directory.step path.name = place := by simpa [hparent] using h
        exact of_missing hstart hlocate hparent
    | _ => simp [hlocate] at h

/-- A NUL is no fault of following components, -/
theorem follow_ne_nul (fs : FileSystem) (place : Location) (parts : List String) :
    fs.follow place parts ≠ .error .nul := by
  induction parts generalizing place with
  | nil => simp [follow]
  | cons part rest ih =>
    rw [follow]
    split
    · simp
    · simp
    · dsimp only
      split
      · simp
      · split
        · simp
        · exact ih _

/-- but of locating a path that has one, -/
theorem locate_eq_nul {fs : FileSystem} {path : Path} :
    fs.locate path = .error .nul ↔ path.hasNul = true := by
  unfold locate
  split
  · next hnul => exact ⟨fun _ => hnul, fun _ => rfl⟩
  · next hnul =>
    refine ⟨fun h => ?_, fun h => absurd h hnul⟩
    split at h
    · exact absurd h (by simp)
    · exact absurd h (follow_ne_nul fs _ _)

/-- and so of finding a place for a file. -/
theorem target_eq_nul {fs : FileSystem} {path : Path} :
    fs.target path = .error .nul ↔ path.hasNul = true := by
  rw [← @locate_eq_nul fs, target]
  cases hlocate : fs.locate path with
  | ok place =>
    dsimp only
    split <;> simp
  | error fault =>
    cases fault with
    | missing =>
      -- the directory of a path without a NUL has none either
      have hparent : fs.locate path.parent ≠ .error .nul := by
        intro h
        obtain ⟨part, hpart, hnul⟩ := List.any_eq_true.mp (locate_eq_nul.mp h)
        have hpath : path.hasNul = true :=
          List.any_eq_true.mpr ⟨part, List.dropLast_subset _ hpart, hnul⟩
        exact absurd (hlocate.symm.trans (locate_eq_nul.mpr hpath)) (by simp)
      dsimp only
      split
      · simp
      · next fault h => simpa [h] using hparent
    | _ => simp

/-- Writing is setting the place of the path anew, -/
theorem write_eq_ok {after : FileSystem} : fs.write path content = .ok after ↔
    ∃ place, fs.target path = .ok place ∧ after = fs.put place (.file content) := by
  unfold write
  cases fs.target path with
  | error fault => simp
  | ok place => simp [eq_comm]

/-- and fails only where there is no such place. -/
theorem write_eq_error {fault : OpenFault} :
    fs.write path content = .error fault ↔ fs.target path = .error fault := by
  unfold write
  cases fs.target path <;> simp

/-- What is written is read back, and it stands at the place that the path resolves to, where there
was no directory. Everywhere else all is as before. -/
theorem of_write {after : FileSystem} (hcwd : ∃ entry, fs.find? fs.cwd = some entry)
    (h : fs.write path content = .ok after) :
    fs.find? (path.resolve fs.cwd) ≠ some .directory ∧ after.read path = .ok content ∧
      ∀ other, after.find? other =
        if other = path.resolve fs.cwd then some (.file content) else fs.find? other := by
  obtain ⟨place, htarget, rfl⟩ := write_eq_ok.mp h
  obtain ⟨rfl, hdirectory, hlocate⟩ := of_target content hcwd htarget
  have hfind := fs.find?_put_of_ne_nil (ne_nil_of_find? hdirectory) (.file content)
  exact ⟨hdirectory, read_eq_ok.mpr ⟨_, hlocate, (hfind _).trans (if_pos rfl)⟩, hfind⟩

end FileSystem

/-! ## Outlines -/

/-- Lines that can be read are those of a file that can be read. -/
theorem FileSystem.exists_read {fs : FileSystem} {path : Path} {lines : List (List Char)}
    (h : fs.readLines path = .ok lines) : ∃ content, fs.read path = .ok content := by
  unfold readLines at h
  split at h
  · exact absurd h (by simp)
  · next content hread => exact ⟨content, hread⟩

/-- An outline that can be read is a file that can be read. -/
theorem World.exists_read {world : World} {path : Path} {nodes : List Node}
    (h : world.readOutline path = .ok nodes) : ∃ content, world.files.read path = .ok content := by
  unfold readOutline at h
  cases hlines : world.files.readLines path with
  | error fault => exact absurd h (by simp [hlines, Except.map])
  | ok lines => exact FileSystem.exists_read hlines

/-- An outline that can be read has no NUL in its path. -/
theorem World.hasNul_of_readOutline {world : World} {path : Path} {nodes : List Node}
    (h : world.readOutline path = .ok nodes) : path.hasNul = false := by
  obtain ⟨content, hread⟩ := World.exists_read h
  obtain ⟨place, hlocate, -⟩ := FileSystem.read_eq_ok.mp hread
  exact (FileSystem.locate_eq_ok.mp hlocate).1.1

/-- An outline that can be read is what a file at its place holds. -/
theorem World.find?_of_readOutline {world : World} {path : Path} {nodes : List Node}
    (h : world.readOutline path = .ok nodes) :
    ∃ content text, world.files.find? (path.resolve world.files.cwd) = some (.file content) ∧
      Utf8.decode content = .ok text ∧ nodes = Outline.parse path.text (splitLines text) := by
  unfold readOutline FileSystem.readLines at h
  cases hread : world.files.read path with
  | error fault => simp [hread, Except.map] at h
  | ok content =>
    cases hdecode : Utf8.decode content with
    | error fault => simp [hread, hdecode, Except.map] at h
    | ok text =>
      simp only [hread, hdecode, Except.map, Except.ok.injEq] at h
      exact ⟨content, text, FileSystem.find?_of_read hread, hdecode, h.symm⟩

end OutlineTex
