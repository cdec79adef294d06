/-
Names and the places below a directory.

Where files lie in directories, a file stands in the place of a directory under the last component
of its path. So two paths whose last components differ, and neither of which goes up, lead to two
places. What is known of the name of a file by its spelling, such as how it ends, is known of the
last component too, because slashes and dots at the end of a text are not what a suffix is.
-/
import OutlineTex.Inclusion
import OutlineTex.Proofs.FileSystem.Places

set_option autoImplicit false

namespace OutlineTex

/-! ## How names end -/

namespace Path

/-- A text without slashes is one stretch. -/
theorem splitSlashes_of_not_mem {text : List Char} (h : '/' ∉ text) :
    splitSlashes text = [text] := by
  induction text with
  | nil => rfl
  | cons c rest ih =>
    have hc : ¬ (c == '/') = true := by
      intro hc
      exact h (beq_iff_eq.mp hc ▸ List.mem_cons_self)
    rw [splitSlashes, if_neg hc, ih fun hrest => h (List.mem_cons_of_mem c hrest)]

/-- The stretch behind the last slash of a text ends as the text does. -/
theorem splitSlashes_eq_concat {suffix text : List Char} (hslash : '/' ∉ suffix)
    (h : suffix <:+ text) :
    ∃ front last, splitSlashes text = front ++ [last] ∧ suffix <:+ last := by
  induction text with
  | nil => exact ⟨[], [], rfl, h⟩
  | cons c rest ih =>
    rcases List.suffix_cons_iff.mp h with rfl | hrest
    · exact ⟨[], c :: rest, splitSlashes_of_not_mem hslash, List.suffix_refl _⟩
    · obtain ⟨front, last, hsplit, hlast⟩ := ih hrest
      rw [splitSlashes, hsplit]
      by_cases hc : (c == '/') = true
      · rw [if_pos hc]
        exact ⟨[] :: front, last, rfl, hlast⟩
      · rw [if_neg hc]
        cases front with
        | nil => exact ⟨[], c :: last, rfl, hlast.trans (List.suffix_cons c last)⟩
        | cons part parts => exact ⟨(c :: part) :: parts, last, rfl, hlast⟩

/-- What ends with a suffix that is not empty is no idle component. -/
theorem isIdle_of_suffix {suffix part : List Char} (hsuffix : isSuffix suffix = true)
    (hne : suffix ≠ []) (h : suffix <:+ part) : isIdle part = false := by
  have hdot : suffix ≠ ['.'] := by
    rintro rfl
    exact absurd hsuffix (by decide)
  unfold isIdle
  rw [Bool.or_eq_false_iff, beq_eq_false_iff_ne, beq_eq_false_iff_ne]
  constructor
  · rintro rfl
    exact hne (List.suffix_nil.mp h)
  · rintro rfl
    rcases List.suffix_cons_iff.mp h with rfl | hnil
    · exact hdot rfl
    · exact hne (List.suffix_nil.mp hnil)

/-- A text that ends with a suffix is the text of a path whose last component does. -/
theorem parts_ofText_of_suffix {suffix : List Char} {text : String}
    (hsuffix : isSuffix suffix = true) (hne : suffix ≠ []) (h : suffix <:+ text.toList) :
    ∃ front last, (ofText text).parts = front ++ [last] ∧ suffix <:+ last.toList := by
  have hslash : '/' ∉ suffix := by
    intro hmem
    rw [isSuffix, List.contains_iff_mem.mpr hmem] at hsuffix
    exact absurd hsuffix (by simp)
  obtain ⟨front, last, hsplit, hlast⟩ := splitSlashes_eq_concat hslash h
  have hidle := isIdle_of_suffix hsuffix hne hlast
  refine ⟨(front.filter (!isIdle ·)).map String.ofList, String.ofList last, ?_, ?_⟩
  · rw [ofText, hsplit, List.filter_append, List.filter_cons_of_pos (by simp [hidle]),
      List.map_append]
    rfl
  · rw [String.toList_ofList]
    exact hlast

/-- The name of a path that is joined is the one of the second path, if that has any. -/
theorem name_join {path other : Path} (h : other.parts ≠ []) :
    (path.join other).name = other.name := by
  unfold join
  split
  · rfl
  · rw [name, name, List.getLast?_append, Option.or_of_isSome (by simp [h])]

end Path

/-- A name that ends with a suffix stands for a path whose name does, wherever the directive is. -/
theorem suffix_of_includedPath {suffix : List Char} {source name : String}
    (hsuffix : Path.isSuffix suffix = true) (h : suffix <:+ name.toList) :
    suffix <:+ (includedPath source name).name.toList := by
  by_cases hne : suffix = []
  · rw [hne]
    exact List.nil_suffix
  · obtain ⟨front, last, hparts, hlast⟩ := Path.parts_ofText_of_suffix hsuffix hne h
    rw [includedPath, Path.name_join (by simp [hparts]), Path.name, hparts, List.getLast?_concat]
    exact hlast

/-! ## Trees -/

namespace FileSystem

/-- Files and directories lie in directories, and so does whoever looks at them. -/
structure IsTree (fs : FileSystem) : Prop where
  cwd : fs.find? fs.cwd = some .directory
  above : ∀ place entry, fs.find? place = some entry →
    fs.find? place.dropLast = some .directory

/-- It is enough to look at what is in the table. -/
theorem IsTree.of_entries {fs : FileSystem} (hcwd : fs.find? fs.cwd = some .directory)
    (h : ∀ pair ∈ fs.entries, fs.find? pair.1.dropLast = some .directory) : fs.IsTree := by
  refine ⟨hcwd, fun place entry hentry => ?_⟩
  unfold find? at hentry
  split at hentry
  · next hroot =>
    rw [List.isEmpty_iff.mp hroot]
    rfl
  · obtain ⟨before, behind, hentries, -⟩ := List.lookup_eq_some_iff.mp hentry
    exact h (place, entry) (hentries ▸ List.mem_append_right _ List.mem_cons_self)

variable {fs : FileSystem} {path : Path}

/-- A path starts in a directory. -/
theorem IsTree.find?_start (h : fs.IsTree) : fs.find? (path.start fs.cwd) = some .directory := by
  unfold Path.start
  split
  · rfl
  · exact h.cwd

/-- A path with components through which a file can be read lies in a directory. -/
theorem find?_parent_of_read {content : List UInt8} (hread : fs.read path = .ok content)
    (hparts : path.parts ≠ []) :
    fs.find? (path.parent.resolve fs.cwd) = some .directory := by
  obtain ⟨place, hlocate, -⟩ := read_eq_ok.mp hread
  obtain ⟨-, hfollow⟩ := locate_eq_ok.mp hlocate
  rw [← List.dropLast_concat_getLast hparts, follow_append] at hfollow
  cases hfront : fs.follow (path.start fs.cwd) path.parts.dropLast with
  | error fault => exact absurd hfollow (by simp [hfront, Except.bind])
  | ok directory =>
    -- the last component is looked up in the directory that the others lead to
    rw [hfront] at hfollow
    obtain ⟨hdirectory, -⟩ := follow_cons_eq_ok.mp hfollow
    rw [eq_of_follow hfront] at hdirectory
    exact hdirectory

/-- What can be read through a path lies in the directory that the path is in. -/
theorem IsTree.find?_parent (h : fs.IsTree) {content : List UInt8}
    (hread : fs.read path = .ok content) :
    fs.find? (path.parent.resolve fs.cwd) = some .directory := by
  by_cases hparts : path.parts = []
  · rw [Path.resolve, Path.parent, hparts]
    exact h.find?_start
  · exact find?_parent_of_read hread hparts

/-- A path to what is no directory leads from the directory that it is in to the place with its
name. -/
theorem IsTree.resolve_eq (h : fs.IsTree)
    (hparent : fs.find? (path.parent.resolve fs.cwd) = some .directory)
    (hplace : fs.find? (path.resolve fs.cwd) ≠ some .directory) :
    path.resolve fs.cwd = path.parent.resolve fs.cwd ++ [path.name] := by
  by_cases hparts : path.parts = []
  · have hsame : path.resolve fs.cwd = path.parent.resolve fs.cwd := by
      rw [Path.resolve, Path.resolve, Path.parent, hparts]
      rfl
    exact absurd (hsame ▸ hparent) hplace
  · have hstep := Path.resolve_eq_step fs.cwd hparts
    rw [hstep] at hplace ⊢
    -- one step up or none leads to a directory
    unfold Location.step at hplace ⊢
    split
    · next hup =>
      rw [if_pos hup] at hplace
      exact absurd (h.above _ _ hparent) hplace
    · next hup =>
      rw [if_neg hup] at hplace
      split
      · next hidle =>
        rw [if_pos hidle] at hplace
        exact absurd hparent hplace
      · rfl

/-- So does a path through which a file can be read. -/
theorem IsTree.resolve_of_read (h : fs.IsTree) {content : List UInt8}
    (hread : fs.read path = .ok content) :
    path.resolve fs.cwd = path.parent.resolve fs.cwd ++ [path.name] := by
  have hfile := find?_of_read hread
  exact h.resolve_eq (h.find?_parent hread) (by simp [hfile])

end FileSystem

end OutlineTex
