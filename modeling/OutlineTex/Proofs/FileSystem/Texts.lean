/-
Paths and their texts.

A path is handed on as a text more than once: it is printed into the labels of an outline, and taken
out of them again where a directive asks for the directory it stands in. This file says that nothing
is lost on the way. A text is cut at its slashes, so what it is cut into has none, and the idle
stretches are dropped. A path made of what is left is the path of its own text, however it starts,
and joining such paths or going up from them leads to no others.

In a label the path stands before the last colon, because a number has none. So colons in the path
do no harm.
-/
import OutlineTex.Inclusion
import OutlineTex.Outline
import OutlineTex.Proofs.FileSystem.Names

set_option autoImplicit false

namespace OutlineTex

namespace Path

/-! ## Normal paths -/

/-- A stretch of a text that is a component: not an idle one, and without slashes. -/
def IsComponent (part : List Char) : Prop :=
  isIdle part = false ∧ '/' ∉ part

/-- A path is normal if it is made of components that a text can be cut into. -/
def IsNormal (path : Path) : Prop :=
  ∀ part ∈ path.parts, IsComponent part.toList

theorem not_mem_of_mem_splitSlashes {text stretch : List Char} (h : stretch ∈ splitSlashes text) :
    '/' ∉ stretch := by
  induction text generalizing stretch with
  | nil => simp [List.mem_singleton.mp h]
  | cons c rest ih =>
    rw [splitSlashes] at h
    split at h
    · rcases List.mem_cons.mp h with rfl | hrest
      · exact List.not_mem_nil
      · exact ih hrest
    · next hc =>
      have hslash : '/' ≠ c := fun hsame => hc (by rw [hsame]; exact beq_self_eq_true c)
      cases hsplit : splitSlashes rest with
      | nil =>
        rw [hsplit] at h
        rw [List.mem_singleton.mp h]
        exact fun hmem => hslash (List.mem_singleton.mp hmem)
      | cons part parts =>
        -- the sign goes in front of the first stretch of the rest
        rw [hsplit] at h ih
        rcases List.mem_cons.mp h with rfl | hrest
        · exact List.not_mem_cons_of_ne_of_not_mem hslash (ih List.mem_cons_self)
        · exact ih (List.mem_cons_of_mem part hrest)

theorem isNormal_ofText (text : String) : (ofText text).IsNormal := by
  intro part hpart
  obtain ⟨stretch, hstretch, rfl⟩ := List.mem_map.mp hpart
  obtain ⟨hmem, hidle⟩ := List.mem_filter.mp hstretch
  rw [String.toList_ofList]
  exact ⟨by simpa using hidle, not_mem_of_mem_splitSlashes hmem⟩

section Normal

variable {path other : Path}

theorem IsNormal.join (h : path.IsNormal) (hother : other.IsNormal) :
    (path.join other).IsNormal := by
  unfold Path.join
  split
  · exact hother
  · intro part hpart
    exact (List.mem_append.mp hpart).elim (h part) (hother part)

theorem IsNormal.parent (h : path.IsNormal) : path.parent.IsNormal :=
  fun part hpart => h part ((List.dropLast_subset _) hpart)

/-! ## Reading a text back -/

theorem splitSlashes_append_slash {part : List Char} (h : '/' ∉ part) (rest : List Char) :
    splitSlashes (part ++ '/' :: rest) = part :: splitSlashes rest := by
  induction part with
  | nil => rfl
  | cons c part ih =>
    obtain ⟨hc, hpart⟩ := not_or.mp (mt List.mem_cons.mpr h)
    have hslash : ¬(c == '/') = true := fun hsame => hc (beq_iff_eq.mp hsame).symm
    rw [List.cons_append, splitSlashes, if_neg hslash, ih hpart]

/-- The components between slashes are the stretches that are not idle. -/
theorem filter_splitSlashes_intercalate {parts : List (List Char)}
    (h : ∀ part ∈ parts, IsComponent part) :
    (splitSlashes (['/'].intercalate parts)).filter (!isIdle ·) = parts := by
  induction parts with
  | nil => rfl
  | cons part parts ih =>
    obtain ⟨hidle, hslash⟩ := h part List.mem_cons_self
    cases parts with
    | nil =>
      rw [List.intercalate_singleton, splitSlashes_of_not_mem hslash,
        List.filter_cons_of_pos (by simp [hidle]), List.filter_nil]
    | cons next rest =>
      rw [List.intercalate_cons_cons, List.append_assoc, List.singleton_append,
        splitSlashes_append_slash hslash, List.filter_cons_of_pos (by simp [hidle]),
        ih fun other hother => h other (List.mem_cons_of_mem part hother)]

/-- No component begins with a slash, so none stands at the beginning of them all. -/
theorem intercalate_ne_slash {parts : List (List Char)} (h : ∀ part ∈ parts, IsComponent part)
    (rest : List Char) : ['/'].intercalate parts ≠ '/' :: rest := by
  intro hslash
  cases parts with
  | nil => exact absurd hslash (by simp [List.intercalate])
  | cons part parts =>
    obtain ⟨hidle, hpart⟩ := h part List.mem_cons_self
    cases part with
    | nil => exact absurd hidle (by decide)
    | cons c part =>
      have hc : c = '/' := by
        cases parts with
        | nil =>
          rw [List.intercalate_singleton] at hslash
          exact (List.cons.inj hslash).1
        | cons next parts =>
          rw [List.intercalate_cons_cons] at hslash
          exact (List.cons.inj hslash).1
      exact hpart (hc ▸ List.mem_cons_self)

/-- The signs of a root are the text of one. -/
theorem toList_rootText (root : Root) : (rootText root).toList =
    match root with
    | .relative => []
    | .single => ['/']
    | .double => ['/', '/'] := by
  cases root <;> decide +kernel

/-- A root is read back from in front of what begins with no slash, -/
theorem rootOf_append (root : Root) {behind : List Char} (h : ∀ rest, behind ≠ '/' :: rest) :
    rootOf ((rootText root).toList ++ behind) = root := by
  rw [toList_rootText]
  cases behind with
  | nil => cases root <;> rfl
  | cons c rest =>
    have hc : c ≠ '/' := fun hslash => h rest (by rw [hslash])
    cases root <;> simp [rootOf, hc]

/-- and adds no components. -/
theorem filter_splitSlashes_root (root : Root) (behind : List Char) :
    (splitSlashes ((rootText root).toList ++ behind)).filter (!isIdle ·) =
      (splitSlashes behind).filter (!isIdle ·) := by
  rw [toList_rootText]
  cases root <;> rfl

theorem text_eq {root : Root} {parts : List String} (h : ¬(root = .relative ∧ parts = [])) :
    text ⟨root, parts⟩ = rootText root ++ "/".intercalate parts := by
  cases root with
  | relative =>
    cases parts with
    | nil => exact absurd ⟨rfl, rfl⟩ h
    | cons part parts => rfl
  | _ => rfl

/-- **A normal path is the path of its text.** -/
theorem ofText_text (h : path.IsNormal) : ofText path.text = path := by
  obtain ⟨root, parts⟩ := path
  have hparts : ∀ part ∈ parts.map String.toList, IsComponent part := by
    intro part hpart
    obtain ⟨text, htext, rfl⟩ := List.mem_map.mp hpart
    exact h text htext
  by_cases hdot : root = .relative ∧ parts = []
  · obtain ⟨rfl, rfl⟩ := hdot
    decide +kernel
  · have htext : (text ⟨root, parts⟩).toList =
        (rootText root).toList ++ ['/'].intercalate (parts.map String.toList) := by
      rw [text_eq hdot, String.toList_append, String.toList_intercalate]
      rfl
    rw [ofText, htext, rootOf_append root (intercalate_ne_slash hparts), filter_splitSlashes_root,
      filter_splitSlashes_intercalate hparts, List.map_map]
    simp

end Normal

end Path

/-! ## Labels -/

/-- The directory of a label is the one that the path in it is in, whatever signs that has. -/
theorem sourceDirectory_label (name : String) (number : Nat) :
    sourceDirectory (Outline.label name number) = (Path.ofText name).parent := by
  have hlabel : (Outline.label name number).toList =
      name.toList ++ ':' :: Nat.toDigits 10 number := by
    simp [Outline.label, toString, Nat.repr]
  have hdigits : ∀ c ∈ (Nat.toDigits 10 number).reverse, (c != ':') = true := by
    intro c hc
    have hdigit := Nat.isDigit_of_mem_toDigits (by decide) (by decide) (List.mem_reverse.mp hc)
    rw [bne_iff_ne]
    rintro rfl
    exact absurd hdigit (by decide)
  -- seen from the end, the number is passed over, and the colon ends it
  rw [sourceDirectory, hlabel, List.reverse_append, List.reverse_cons, List.append_assoc,
    List.dropWhile_append_of_pos hdigits]
  simp

theorem sourceDirectory_label_text {path : Path} (h : path.IsNormal) (number : Nat) :
    sourceDirectory (Outline.label path.text number) = path.parent := by
  rw [sourceDirectory_label, Path.ofText_text h]

end OutlineTex
