/-
Numbers of lines.

A label is meant to say where a line is found, and whoever looks for it counts the lines that an
editor shows: those that end with a line feed, a carriage return, or one behind the other. Files are
cut at more than these ends. A page break, a separator or the line boundary of another script begins
a line too, which is numbered like any other, so behind it every number is too large, and what is
left of the line it stands in has no tabs in front.

This file says exactly when that happens. Both ways to cut a text are one function of what ends a
line. The number of the last line that is not blank is how many ends there are before its last
character that is no blank, so the two countings part as soon as there is one further boundary
before that. Behind it nothing is read, and there such boundaries do no harm.
-/
import OutlineTex.Proofs.FileSystem.Places
import OutlineTex.Proofs.Outline.Blocks

set_option autoImplicit false

namespace OutlineTex

/-! ## Cutting at given ends -/

namespace Text

/-- The lines of a text if the given characters end them, with the line read so far, last character
first. A carriage return with the line feed after it is one end. -/
def linesAt (ends : Char → Bool) : List Char → List Char → List (List Char)
  | [], [] => []
  | [], line => [line.reverse]
  | '\r' :: '\n' :: rest, line => line.reverse :: linesAt ends rest []
  | c :: rest, line =>
    if ends c then line.reverse :: linesAt ends rest [] else linesAt ends rest (c :: line)

/-- A character that ends a line in a file: the line feed and the carriage return. -/
def isLineEnd (c : Char) : Bool :=
  c == '\n' || c == '\r'

/-- The lines of a text as files have them. -/
def physicalLines (s : List Char) : List (List Char) :=
  linesAt isLineEnd s []

/-- A line boundary that is no end of a line in a file. -/
def isStray (c : Char) : Bool :=
  isLineBreak c && !isLineEnd c

example : physicalLines "a\r\nb\x0cc\r\rd\n".toList =
    ["a".toList, "b\x0cc".toList, [], "d".toList] := by
  decide

theorem splitLines_eq (s : List Char) : splitLines s = linesAt isLineBreak s [] := by
  suffices hread : ∀ line, splitLines.go s line = linesAt isLineBreak s line from hread []
  intro line
  fun_induction linesAt isLineBreak s line with
  | case1 => rfl
  | case2 line hne => rw [splitLines.go]; exact hne
  | case3 rest line ih => rw [splitLines.go, ih]
  | case4 c rest line hne hc ih => rw [splitLines.go, if_pos hc, ih]; exact hne
  | case5 c rest line hne hc ih => rw [splitLines.go, if_neg hc, ih]; exact hne

/-- A line boundary is a blank. -/
theorem isBlank_of_isLineBreak {c : Char} (h : isLineBreak c = true) : isBlank c = true := by
  simp only [isLineBreak, isBlank, Bool.or_eq_true, Bool.and_eq_true, decide_eq_true_eq,
    beq_iff_eq] at h ⊢
  omega

theorem isLineBreak_of_isLineEnd {c : Char} (h : isLineEnd c = true) : isLineBreak c = true := by
  rcases Bool.or_eq_true_iff.mp h with h | h <;> rw [eq_of_beq h] <;> decide

/-- Cutting a blank off the end of a text changes nothing if the blanks there are cut off anyway. -/
theorem trimEnd_append_blank (s : List Char) {c : Char} (h : isBlank c = true) :
    trimEnd (s ++ [c]) = trimEnd s := by
  induction s with
  | nil => simp [trimEnd, h]
  | cons d rest ih => rw [List.cons_append, trimEnd, trimEnd, ih]

/-! ## Counting ends -/

/-- The number of ends in a text. -/
def countEnds (ends : Char → Bool) : List Char → Nat
  | [] => 0
  | '\r' :: '\n' :: rest => countEnds ends rest + 1
  | c :: rest => countEnds ends rest + if ends c then 1 else 0

theorem countEnds_le (s : List Char) : countEnds isLineEnd s ≤ countEnds isLineBreak s := by
  fun_induction countEnds isLineEnd s with
  | case1 => exact Nat.le_refl 0
  | case2 rest ih =>
    rw [countEnds]
    omega
  | case3 c rest hne ih =>
    rw [countEnds]
    · by_cases hc : isLineEnd c = true
      · rw [if_pos hc, if_pos (isLineBreak_of_isLineEnd hc)]
        omega
      · rw [if_neg hc]
        omega
    · exact hne

/-- Every stray boundary is one end more. -/
theorem countEnds_lt {s : List Char} {c : Char} (hmem : c ∈ s) (hc : isStray c = true) :
    countEnds isLineEnd s < countEnds isLineBreak s := by
  obtain ⟨hbreak, hend⟩ := Bool.and_eq_true_iff.mp hc
  fun_induction countEnds isLineEnd s with
  | case1 => exact absurd hmem List.not_mem_nil
  | case2 rest ih =>
    have hrest : c ∈ rest := by
      rcases List.mem_cons.mp hmem with rfl | hmem
      · exact absurd hend (by decide)
      · rcases List.mem_cons.mp hmem with rfl | hmem
        · exact absurd hend (by decide)
        · exact hmem
    have hlt := ih hrest
    rw [countEnds]
    omega
  | case3 d rest hne ih =>
    rw [countEnds]
    · rcases List.mem_cons.mp hmem with rfl | hrest
      · have hle := countEnds_le rest
        rw [if_neg (by simpa using hend), if_pos hbreak]
        omega
      · have hlt := ih hrest
        by_cases hd : isLineEnd d = true
        · rw [if_pos hd, if_pos (isLineBreak_of_isLineEnd hd)]
          omega
        · rw [if_neg hd]
          omega
    · exact hne

end Text

/-! ## Entries of lines -/

namespace Outline

open OutlineTex.Text

/-- Of a line only what is left without the blanks at its end is read. -/
theorem entryOfLine?_congr {line other : List Char} (h : trimEnd line = trimEnd other)
    (source : String) (number : Nat) :
    entryOfLine? source line number = entryOfLine? source other number := by
  unfold entryOfLine?
  by_cases hblank : trimEnd line = []
  · rw [if_pos hblank, if_pos (h ▸ hblank)]
  · have hother : trimEnd other ≠ [] := by rwa [← h]
    rw [if_neg hblank, if_neg hother, ← depth_trimEnd hblank, ← depth_trimEnd hother, h]

/-- Blanks behind a line add nothing to it, and no line, whatever ends lines among them. -/
theorem entriesFrom_linesAt_blank {ends : Char → Bool} (source : String) (number : Nat)
    {s line : List Char} (h : s.all isBlank = true) :
    entriesFrom source number (linesAt ends s line) =
      (entryOfLine? source line.reverse number).toList := by
  have hempty : ∀ number, entryOfLine? source [] number = none := fun number => if_pos rfl
  fun_induction linesAt ends s line generalizing number with
  | case1 =>
    rw [List.reverse_nil, hempty]
    rfl
  | case2 line hne =>
    rw [entriesFrom_cons]
    exact List.append_nil _
  | case3 rest line ih =>
    rw [List.all_cons, List.all_cons, Bool.and_eq_true, Bool.and_eq_true] at h
    rw [entriesFrom_cons, ih _ h.2.2, List.reverse_nil, hempty]
    exact List.append_nil _
  | case4 c rest line hne hc ih =>
    rw [List.all_cons, Bool.and_eq_true] at h
    rw [entriesFrom_cons, ih _ h.2, List.reverse_nil, hempty]
    exact List.append_nil _
  | case5 c rest line hne hc ih =>
    rw [List.all_cons, Bool.and_eq_true] at h
    rw [ih _ h.2, List.reverse_cons]
    exact congrArg Option.toList (entryOfLine?_congr (trimEnd_append_blank _ h.1) source number)

/-- The last line that is not blank has as many ends before it as there are before its last
character that is no blank. -/
theorem getLast?_entriesFrom (ends : Char → Bool)
    (hends : ∀ c, ends c = true → isBlank c = true) (source : String) (number : Nat)
    (front line : List Char) {c : Char} {behind : List Char}
    (hc : isBlank c = false) (hbehind : behind.all isBlank = true) :
    ∃ entry, (entriesFrom source number (linesAt ends (front ++ c :: behind) line)).getLast? =
      some entry ∧ entry.source = label source (number + countEnds ends front) := by
  have hend : ¬ ends c = true := fun h => by simp [hends c h] at hc
  fun_induction countEnds ends front generalizing number line with
  | case1 =>
    have hne : trimEnd (c :: line).reverse ≠ [] := by
      rw [List.reverse_cons, Ne, trimEnd_eq_nil_iff]
      simp [hc]
    rw [List.nil_append, linesAt, if_neg hend, entriesFrom_linesAt_blank source number hbehind,
      entryOfLine?_of_ne source number hne]
    · exact ⟨_, rfl, rfl⟩
    · rintro rest rfl
      exact absurd hc (by decide)
  | case2 rest ih =>
    obtain ⟨entry, hentry, hsource⟩ := ih (number + 1) []
    rw [List.cons_append, List.cons_append, linesAt, entriesFrom_cons, List.getLast?_append, hentry]
    exact ⟨entry, rfl, by rw [hsource]; congr 1; omega⟩
  | case3 d rest hne ih =>
    have hcut : linesAt ends (d :: rest ++ c :: behind) line =
        if ends d then line.reverse :: linesAt ends (rest ++ c :: behind) []
        else linesAt ends (rest ++ c :: behind) (d :: line) := by
      rw [List.cons_append, linesAt]
      rintro other rfl hother
      cases rest with
      | nil =>
        obtain ⟨rfl, -⟩ := List.cons.inj hother
        exact absurd hc (by decide)
      | cons e rest => exact hne rest rfl (by rw [(List.cons.inj hother).1])
    rw [hcut]
    by_cases hd : ends d = true
    · obtain ⟨entry, hentry, hsource⟩ := ih (number + 1) []
      rw [if_pos hd, if_pos hd, entriesFrom_cons, List.getLast?_append, hentry]
      exact ⟨entry, rfl, by rw [hsource]; congr 1; omega⟩
    · rw [if_neg hd, if_neg hd]
      exact ih number (d :: line)

/-! ## Stray boundaries -/

/-- Nothing but blanks stands behind the stray boundaries of a text. -/
def StraysTrail (s : List Char) : Prop :=
  ∀ front c behind, s = front ++ c :: behind → isStray c = true → behind.all isBlank = true

theorem StraysTrail.tail {c : Char} {rest : List Char} (h : StraysTrail (c :: rest)) :
    StraysTrail rest := by
  rintro front d behind rfl hd
  exact h (c :: front) d behind rfl hd

/-- Where stray boundaries trail, cutting at them makes no difference. -/
theorem StraysTrail.entriesFrom_eq {s : List Char} (h : StraysTrail s) (source : String)
    (number : Nat) (line : List Char) :
    entriesFrom source number (linesAt isLineBreak s line) =
      entriesFrom source number (linesAt isLineEnd s line) := by
  fun_induction linesAt isLineBreak s line generalizing number with
  | case1 => rfl
  | case2 line hne =>
    rw [linesAt]
    exact hne
  | case3 rest line ih => rw [linesAt, entriesFrom_cons, entriesFrom_cons, ih h.tail.tail]
  | case4 c rest line hne hc ih =>
    rw [linesAt]
    · by_cases hend : isLineEnd c = true
      · rw [if_pos hend, entriesFrom_cons, entriesFrom_cons, ih h.tail]
      · -- a stray boundary: the line ends here or goes on with blanks to the end of the text
        have hblank : rest.all isBlank = true :=
          h [] c rest rfl (Bool.and_eq_true_iff.mpr ⟨hc, by simpa using hend⟩)
        have hline : trimEnd (c :: line).reverse = trimEnd line.reverse := by
          rw [List.reverse_cons, trimEnd_append_blank _ (isBlank_of_isLineBreak hc)]
        rw [if_neg hend, entriesFrom_cons, entriesFrom_linesAt_blank source _ hblank,
          entriesFrom_linesAt_blank source _ hblank, entryOfLine?_congr hline source number]
        exact List.append_nil _
    · exact hne
  | case5 c rest line hne hc ih =>
    have hend : ¬ isLineEnd c = true := fun hend => hc (isLineBreak_of_isLineEnd hend)
    rw [linesAt, if_neg hend, ih h.tail]
    exact hne

/-- A text that is not blank has a last character that is no blank. -/
theorem exists_last_of_not_blank {s : List Char} (h : ¬ s.all isBlank = true) :
    ∃ front c behind, s = front ++ c :: behind ∧ isBlank c = false ∧
      behind.all isBlank = true := by
  induction s with
  | nil => exact absurd rfl h
  | cons c rest ih =>
    by_cases hrest : rest.all isBlank = true
    · exact ⟨[], c, rest, rfl, by simpa [hrest] using h, hrest⟩
    · obtain ⟨front, d, behind, rfl, hd, hbehind⟩ := ih hrest
      exact ⟨c :: front, d, behind, rfl, hd, hbehind⟩

/-- If even the labels are those of the physical lines, stray boundaries trail: the last labels
would differ. -/
theorem straysTrail_of_labels {source : String} {s : List Char}
    (h : (lineEntries source (splitLines s)).map Entry.source =
      (lineEntries source (physicalLines s)).map Entry.source) : StraysTrail s := by
  intro front c behind hs hc
  by_contra hblank
  obtain ⟨between, d, rest, rfl, hd, hrest⟩ := exists_last_of_not_blank hblank
  have hsplit : s = (front ++ c :: between) ++ d :: rest := by
    rw [hs, List.append_assoc, List.cons_append]
  obtain ⟨entry, hentry, hsource⟩ := getLast?_entriesFrom isLineBreak
    (fun _ => isBlank_of_isLineBreak) source 1 (front ++ c :: between) [] hd hrest
  obtain ⟨other, hother, hlabel⟩ := getLast?_entriesFrom isLineEnd
    (fun _ hend => isBlank_of_isLineBreak (isLineBreak_of_isLineEnd hend)) source 1
    (front ++ c :: between) [] hd hrest
  have hlast := congrArg List.getLast? h
  rw [splitLines_eq, physicalLines, hsplit, List.getLast?_map, List.getLast?_map, lineEntries,
    lineEntries, ← entriesFrom, ← entriesFrom, hentry, hother, Option.map_some, Option.map_some,
    hsource, hlabel, Option.some.injEq, label_inj] at hlast
  have hmem : c ∈ front ++ c :: between := List.mem_append_right _ List.mem_cons_self
  have hlt := countEnds_lt hmem hc
  omega

/-! ## Outlines that were read -/

theorem filter_value_bridged {added : List Entry} (h : ∀ entry ∈ added, entry.value.isSome = true)
    (floor : Nat) : (bridged floor added).filter (·.value.isSome) = added := by
  have hbridge : ∀ source floor level,
      (bridge source floor level).filter (·.value.isSome) = [] := by
    intro source floor level
    rw [bridge, List.filter_map, List.map_eq_nil_iff]
    exact List.filter_eq_nil_iff.mpr fun _ _ => Bool.false_ne_true
  induction added generalizing floor with
  | nil => rfl
  | cons entry rest ih =>
    obtain ⟨hentry, hrest⟩ := List.forall_mem_cons.mp h
    rw [bridged, List.filter_append, hbridge, List.nil_append,
      List.filter_cons_of_pos (by simpa using hentry), ih hrest]

theorem isSome_value_of_mem_lineEntries {source : String} {lines : List (List Char)} :
    ∀ entry ∈ lineEntries source lines, entry.value.isSome = true := by
  intro entry hentry
  obtain ⟨⟨line, number⟩, -, hread⟩ := List.mem_filterMap.mp hentry
  dsimp only [entryOfLine?] at hread
  split at hread
  · exact absurd hread (by simp)
  · rw [← Option.some.inj hread]
    rfl

/-- The nodes of a forest that are no placeholders, as they are listed. -/
def listed (forest : List Node) : List Entry :=
  (entriesOf 0 forest).filter (·.value.isSome)

theorem listed_parse (source : String) (lines : List (List Char)) :
    listed (parse source lines) = lineEntries source lines := by
  rw [listed, parse_eq_plant, entriesOf_plant, filter_value_bridged isSome_value_of_mem_lineEntries]

end Outline

/-! ## Outlines in files -/

namespace World

open Outline Text

/-- A file that holds text is an outline. -/
theorem readOutline_eq {world : World} {path : Path} {content : List UInt8} {text : List Char}
    (hread : world.files.read path = .ok content) (htext : Utf8.decode content = .ok text) :
    world.readOutline path = .ok (parse path.text (splitLines text)) := by
  simp only [readOutline, FileSystem.readLines, hread, htext]
  rfl

/-- **Nodes and physical lines.** A file that holds text is an outline, with one node for every line
that is not blank, in order, as deep as the line has tabs in front and labelled with its number,
where a line ends at any boundary. These are the physical lines and their numbers just if no other
boundary than the end of a physical line has anything but blanks behind it. If one has, not even the
labels are those of the physical lines. -/
theorem readOutline_numbers {world : World} {path : Path} {content : List UInt8}
    {text : List Char} (hread : world.files.read path = .ok content)
    (htext : Utf8.decode content = .ok text) :
    ∃ nodes, world.readOutline path = .ok nodes ∧
      listed nodes = lineEntries path.text (splitLines text) ∧
      (listed nodes = lineEntries path.text (physicalLines text) ↔ StraysTrail text) ∧
      ((listed nodes).map Entry.source =
          (lineEntries path.text (physicalLines text)).map Entry.source ↔ StraysTrail text) := by
  have hagree : StraysTrail text → lineEntries path.text (splitLines text) =
      lineEntries path.text (physicalLines text) := by
    intro htrail
    rw [splitLines_eq]
    exact htrail.entriesFrom_eq path.text 1 []
  refine ⟨_, readOutline_eq hread htext, listed_parse _ _, ?_, ?_⟩
  · rw [listed_parse]
    exact ⟨fun h => straysTrail_of_labels (congrArg (List.map Entry.source) h), hagree⟩
  · rw [listed_parse]
    exact ⟨straysTrail_of_labels, fun h => congrArg (List.map Entry.source) (hagree h)⟩

/-- A world with one outline. -/
def holding (text : String) : World :=
  { files := ⟨[], [(["a.otl"], .file (Utf8.encode text))]⟩ }

/-- Lines that end in three ways, a blank one among them, and a page break at the end. -/
theorem readOutline_numbers_mixed :
    let text := "A\r\n\n\tB\rC\x0c\n"
    let path : Path := ⟨.relative, ["a.otl"]⟩
    (holding text).files.read path = .ok (Utf8.encode text) ∧
      Utf8.decode (Utf8.encode text) = .ok text.toList ∧ StraysTrail text.toList ∧
      ∃ nodes, (holding text).readOutline path = .ok nodes ∧
        listed nodes = [⟨0, some "A", "a.otl:1"⟩, ⟨1, some "B", "a.otl:3"⟩,
          ⟨0, some "C", "a.otl:4"⟩] := by
  intro text path
  have hread : (holding text).files.read path = .ok (Utf8.encode text) := by decide +kernel
  have htext : Utf8.decode (Utf8.encode text) = .ok text.toList := by decide +kernel
  obtain ⟨nodes, hnodes, hlisted, hphysical, -⟩ := readOutline_numbers hread htext
  have hsame : lineEntries path.text (splitLines text.toList) =
      lineEntries path.text (physicalLines text.toList) := by decide +kernel
  refine ⟨hread, htext, hphysical.mp (hlisted.trans hsame), nodes, hnodes, hlisted.trans ?_⟩
  decide +kernel

/-- A line separator within a line begins a line of its own, at the top of the outline, and the
number of the line behind it is too large. -/
theorem separator_shifts_labels :
    let text := "Top\n\tNote\u2028more\n\tLast"
    let path : Path := ⟨.relative, ["a.otl"]⟩
    ((holding text).readOutline path).map listed = .ok [⟨0, some "Top", "a.otl:1"⟩,
        ⟨1, some "Note", "a.otl:2"⟩, ⟨0, some "more", "a.otl:3"⟩, ⟨1, some "Last", "a.otl:4"⟩] ∧
      lineEntries path.text (physicalLines text.toList) = [⟨0, some "Top", "a.otl:1"⟩,
        ⟨1, some "Note\u2028more", "a.otl:2"⟩, ⟨1, some "Last", "a.otl:3"⟩] := by
  decide +kernel

end World

end OutlineTex
