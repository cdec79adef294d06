/-
Wrapping a text into lines of a width.

A text is cut into chunks at all places where a line may end: beside a space, behind the
hyphen of a compound word, and on both sides of a dash. Whether a place is one of them
depends on a few characters around it only, so the cutting is one pass over the text.

A line takes chunks as long as they fit. A chunk that fits on no line is cut so that it
fills the line that has been begun, behind a hyphen if there is one in the room left. A
line begins and ends with no blank chunk, but only one chunk is dropped at either end,
and a line that is full when an overlong chunk follows keeps the blank at its end.
-/
import OutlineTex.Text.Blank
import OutlineTex.Text.Digit
import OutlineTex.Text.WordChar

set_option autoImplicit false

namespace OutlineTex.Text

/-! ## Where a line may end -/

/-- A word character that is no digit. -/
def isLetter (c : Char) : Bool :=
  isWordChar c && (digitValue? c).isNone

/-- A character that a dash may follow: a word character or a mark that ends a part of a
sentence. -/
def precedesDash (c : Char) : Bool :=
  isWordChar c || ['!', '"', '\'', '&', '.', ',', '?'].contains c

/-- Two letters at the head of a text, side by side or with a hyphen between them. -/
def twoLetters : List Char → Bool
  | a :: '-' :: b :: _ => isLetter a && isLetter b
  | a :: b :: _ => isLetter a && isLetter b
  | _ => false

/-- The place is behind the hyphen of a compound word: it has two letters on either side.
The text before the place is given from the place back to its start. -/
def behindHyphen (before after : List Char) : Bool :=
  match before with
  | '-' :: part => twoLetters part && twoLetters after
  | _ => false

/-- Two hyphens or more at the head of a text, and behind them a character of a class. -/
def dashTo (isNext : Char → Bool) (s : List Char) : Bool :=
  match s with
  | '-' :: '-' :: rest =>
    match rest.dropWhile (· == '-') with
    | c :: _ => isNext c
    | [] => false
  | _ => false

/-- The place is on one side of a dash between words. -/
def besideDash : List Char → List Char → Bool
  | b :: before, a :: after =>
    (precedesDash b && dashTo isWordChar (a :: after))
      || (isWordChar a && dashTo precedesDash (b :: before))
  | _, _ => false

/-- The place is between a space and a word. -/
def besideSpace : List Char → List Char → Bool
  | b :: _, a :: _ => isAsciiBlank b != isAsciiBlank a
  | _, _ => false

/-- Whether a line may end at the place between two parts of a text, the part before it
given backwards. -/
def mayEnd (before after : List Char) : Bool :=
  besideSpace before after || behindHyphen before after || besideDash before after

/-- The chunks of what follows some text, that text given backwards. -/
def chunksFrom (before : List Char) : List Char → List (List Char)
  | [] => []
  | c :: rest =>
    match chunksFrom (c :: before) rest with
    | [] => [[c]]
    | chunk :: chunks =>
      if mayEnd (c :: before) rest then [c] :: chunk :: chunks else (c :: chunk) :: chunks

/-- The chunks of a text: what is between two places where a line may end. -/
def chunks (s : List Char) : List (List Char) :=
  chunksFrom [] s

/-! ## Lines -/

/-- Nothing but blanks of any script. -/
def isBlankChunk (chunk : List Char) : Bool :=
  chunk.all isBlank

/-- The chunks without a blank one in front. -/
def dropBlank : List (List Char) → List (List Char)
  | chunk :: rest => if isBlankChunk chunk then rest else chunk :: rest
  | [] => []

/-- The chunks that fit into the room, one after the other, and those that are left. -/
def fit (room : Nat) : List (List Char) → List (List Char) × List (List Char)
  | [] => ([], [])
  | chunk :: rest =>
    if chunk.length ≤ room then
      let (line, left) := fit (room - chunk.length) rest
      (chunk :: line, left)
    else ([], chunk :: rest)

/-- Where an overlong chunk is cut: behind the last hyphen in the room, if there is
something else than hyphens before it, and otherwise where the room ends. -/
def cutPlace (room : Nat) (chunk : List Char) : Nat :=
  let toHyphen := (chunk.take room).reverse.dropWhile (· != '-')
  if toHyphen.tail.any (· != '-') then toHyphen.length else room

/-- The chunks that a line is filled with, and those that are left. -/
def fill (width : Nat) (chunks : List (List Char)) : List (List Char) × List (List Char) :=
  match fit width chunks with
  | (line, []) => (line, [])
  | (line, chunk :: rest) =>
    if width < chunk.length then
      let cut := cutPlace (width - line.flatten.length) chunk
      (line ++ [chunk.take cut], chunk.drop cut :: rest)
    else (line, chunk :: rest)

/-- The next line, in chunks, and the chunks behind it. `begun` tells whether there is a
line before it. -/
def nextLine (width : Nat) (begun : Bool) (chunks : List (List Char)) :
    List (List Char) × List (List Char) :=
  let (line, left) := fill width (if begun then dropBlank chunks else chunks)
  (if (line.getLast?.map isBlankChunk).getD false then line.dropLast else line, left)

/-! ## All lines

Each line takes something, so the lines end. What it takes is counted in characters and
chunks, because a chunk may be cut and an empty one be taken. -/

/-- The characters and the chunks that are left, counted together. -/
def remaining : List (List Char) → Nat
  | [] => 0
  | chunk :: rest => chunk.length + 1 + remaining rest

/-- Nothing is left of no chunks. -/
theorem remaining_nil : remaining [] = 0 := rfl

/-- A chunk in front adds its characters and itself. -/
theorem remaining_cons (chunk : List Char) (rest : List (List Char)) :
    remaining (chunk :: rest) = chunk.length + 1 + remaining rest := rfl

/-- What is left of two rows of chunks is what is left of both. -/
theorem remaining_append (front rest : List (List Char)) :
    remaining (front ++ rest) = remaining front + remaining rest := by
  induction front with
  | nil => rw [List.nil_append, remaining_nil, Nat.zero_add]
  | cons chunk front ih => rw [List.cons_append, remaining_cons, remaining_cons, ih]; omega

/-- Dropping a blank chunk leaves no more than there was. -/
theorem remaining_dropBlank_le (chunks : List (List Char)) :
    remaining (dropBlank chunks) ≤ remaining chunks := by
  cases chunks with
  | nil => exact Nat.le_refl _
  | cons chunk rest =>
    rw [dropBlank]
    split
    · rw [remaining_cons]
      omega
    · exact Nat.le_refl _

/-- What fits and what is left are all the chunks. -/
theorem fit_append (room : Nat) (chunks : List (List Char)) :
    (fit room chunks).1 ++ (fit room chunks).2 = chunks := by
  induction chunks generalizing room with
  | nil => rfl
  | cons chunk rest ih =>
    by_cases h : chunk.length ≤ room
    · simp [fit, h, ih]
    · simp [fit, h]

/-- An overlong chunk is cut behind its first character at the earliest, if there is
room. -/
theorem cutPlace_pos (room : Nat) (chunk : List Char) (h : 0 < room) :
    0 < cutPlace room chunk := by
  unfold cutPlace
  simp only
  split
  · next hany =>
    cases hs : (chunk.take room).reverse.dropWhile (· != '-') with
    | nil => simp [hs] at hany
    | cons c rest => simp
  · exact h

/-- Filling a line leaves less than there was: a chunk that fits is taken, and one that
does not is cut. -/
theorem remaining_fill_lt (width : Nat) (chunks : List (List Char)) (hw : 0 < width)
    (hne : chunks ≠ []) : remaining (fill width chunks).2 < remaining chunks := by
  have happend := fit_append width chunks
  have htaken : (fit width chunks).1 = [] → ∃ chunk rest,
      (fit width chunks).2 = chunk :: rest ∧ width < chunk.length := by
    intro hnone
    cases chunks with
    | nil => exact absurd rfl hne
    | cons chunk rest =>
      by_cases hfits : chunk.length ≤ width
      · simp [fit, hfits] at hnone
      · exact ⟨chunk, rest, by simp [fit, hfits], by omega⟩
  generalize hfit : fit width chunks = fitted at happend htaken
  obtain ⟨line, left⟩ := fitted
  subst happend
  have hline : line ≠ [] → 0 < remaining line := by
    intro h
    cases line with
    | nil => exact absurd rfl h
    | cons chunk rest => rw [remaining_cons]; omega
  rw [fill, hfit, remaining_append]
  cases left with
  | nil =>
    have hpos := hline (by intro h; simpa using htaken h)
    simp only [remaining_nil]
    omega
  | cons chunk rest =>
    simp only
    split
    · next hlong =>
      simp only [remaining_cons, List.length_drop]
      by_cases hempty : line = []
      · have hcut := cutPlace_pos (width - line.flatten.length) chunk (by simpa [hempty] using hw)
        omega
      · have hpos := hline hempty
        omega
    · next hshort =>
      have hpos := hline (by
        intro h
        obtain ⟨first, others, heq, hlong⟩ := htaken h
        obtain ⟨rfl, rfl⟩ := List.cons.inj heq
        exact hshort hlong)
      simp only [remaining_cons]
      omega

/-- A line leaves less than there was. -/
theorem remaining_nextLine_lt (width : Nat) (begun : Bool) (chunks : List (List Char))
    (hw : 0 < width) (hne : chunks ≠ []) :
    remaining (nextLine width begun chunks).2 < remaining chunks := by
  cases begun with
  | false => exact remaining_fill_lt width chunks hw hne
  | true =>
    have hle := remaining_dropBlank_le chunks
    by_cases hdropped : dropBlank chunks = []
    · have hnothing : (nextLine width true chunks).2 = [] := by
        simp only [nextLine, if_true, hdropped, fill, fit]
      rw [hnothing, remaining_nil]
      cases chunks with
      | nil => exact absurd rfl hne
      | cons chunk rest => rw [remaining_cons]; omega
    · exact Nat.lt_of_lt_of_le (remaining_fill_lt width (dropBlank chunks) hw hdropped) hle

/-- The lines for chunks. `begun` tells whether there is a line before them. -/
def linesFrom (width : Nat) (positive : 0 < width) (begun : Bool) (chunks : List (List Char)) :
    List (List Char) :=
  if chunks = [] then []
  else
    let next := nextLine width begun chunks
    if next.1.isEmpty then linesFrom width positive begun next.2
    else next.1.flatten :: linesFrom width positive true next.2
termination_by remaining chunks
decreasing_by all_goals exact remaining_nextLine_lt _ _ _ positive ‹_›

/-- A text in lines of a width. -/
def wrap (width : Nat) (positive : 0 < width) (s : List Char) : List (List Char) :=
  linesFrom width positive false (chunks s)

end OutlineTex.Text
