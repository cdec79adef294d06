/-
Lines of a text.

Two different ideas of a line meet in this program. A file, and what a script prints,
is cut at every line boundary, and there are ten of those, not one: form feeds, the
information separators and the Unicode separators end a line as well. A carriage
return, alone or with the line feed after it, is among them, so it makes no difference
which of the three customary line ends a file uses. Script blocks and documents, on
the other hand, are lines joined by line feeds, and only the line feed counts when they
are taken apart again.
-/
import OutlineTex.Text.Blank

set_option autoImplicit false

namespace OutlineTex.Text

/-! ## Line boundaries -/

/-- A character that ends a line: line feed, vertical tab, form feed, carriage return,
the file, group and record separators, next line, line and paragraph separator. The
unit separator is a blank but ends no line. -/
def isLineBreak (c : Char) : Bool :=
  let n := c.toNat
  (0x0A ≤ n && n ≤ 0x0D) || (0x1C ≤ n && n ≤ 0x1E) || n == 0x85 || n == 0x2028 || n == 0x2029

/-- The lines of a text without their boundaries. A carriage return with the line feed
after it is one boundary, and a boundary at the very end opens no further line. -/
def splitLines (s : List Char) : List (List Char) :=
  go s []
where
  /-- Reads on with the line read so far, last character first. -/
  go : List Char → List Char → List (List Char)
    | [], [] => []
    | [], line => [line.reverse]
    | '\r' :: '\n' :: rest, line => line.reverse :: go rest []
    | c :: rest, line =>
      if isLineBreak c then line.reverse :: go rest [] else go rest (c :: line)

/-- The induction is on the reading, so it carries along that no character of the line read so
far ends a line. -/
theorem isLineBreak_of_mem_splitLines_go {s line : List Char}
    (hline : ∀ c ∈ line, isLineBreak c = false) :
    ∀ other ∈ splitLines.go s line, ∀ c ∈ other, isLineBreak c = false := by
  have hreverse : ∀ c ∈ line.reverse, isLineBreak c = false :=
    fun c hc => hline c (List.mem_reverse.mp hc)
  have hnone : ∀ c ∈ ([] : List Char), isLineBreak c = false :=
    fun _ h => absurd h List.not_mem_nil
  induction s, line using splitLines.go.induct with
  | case1 => simp [splitLines.go]
  | case2 line hne =>
    rw [splitLines.go]
    · simpa using hline
    · exact hne
  | case3 rest line ih =>
    rw [splitLines.go, List.forall_mem_cons]
    exact ⟨hreverse, ih hnone (by simp)⟩
  | case4 c rest line hne hc ih =>
    rw [splitLines.go, if_pos hc, List.forall_mem_cons]
    · exact ⟨hreverse, ih hnone (by simp)⟩
    · exact hne
  | case5 c rest line hne hc ih =>
    have hlonger : ∀ d ∈ c :: line, isLineBreak d = false := by
      rw [List.forall_mem_cons]
      exact ⟨by simpa using hc, hline⟩
    rw [splitLines.go, if_neg hc]
    · exact ih hlonger fun d hd => hlonger d (List.mem_reverse.mp hd)
    · exact hne

/-- No character of a line ends a line. -/
theorem isLineBreak_of_mem_splitLines {s line : List Char} (h : line ∈ splitLines s) :
    ∀ c ∈ line, isLineBreak c = false :=
  isLineBreak_of_mem_splitLines_go (fun _ h => absurd h List.not_mem_nil) line h

/-! ## Cutting and joining at line feeds -/

/-- The stretches between line feeds. There is always at least one. -/
def splitFeeds : List Char → List (List Char)
  | [] => [[]]
  | c :: rest =>
    if c == '\n' then [] :: splitFeeds rest
    else match splitFeeds rest with
      | [] => [[c]]
      | line :: lines => (c :: line) :: lines

/-- The lines with one line feed between each and the next. -/
def joinFeeds (lines : List (List Char)) : List Char :=
  ['\n'].intercalate lines

end OutlineTex.Text
