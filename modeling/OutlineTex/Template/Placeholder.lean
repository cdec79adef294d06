/-
The pieces of a template: its ordinary characters, and its placeholders.

A placeholder begins with a percent sign. It may name the value that it shows, in
parentheses that balance; then come signs that say how the value is laid out, a width, a
precision behind a point, and one letter that says which text of the value is meant. A
percent sign written twice stands for itself.

Cutting a template into pieces cannot fail. A placeholder that the end of the template
cuts short is a piece like any other, and what is wrong with it shows when its value is
looked for.
-/

set_option autoImplicit false

namespace OutlineTex.Template

/-! ## Pieces -/

/-- Which value a placeholder shows. -/
inductive Subject
  /-- The value that no placeholder has shown so far. -/
  | next
  /-- The value of a name. -/
  | named (name : String)
  /-- The value of a name whose parenthesis is never closed. -/
  | unclosed
deriving DecidableEq, Repr

/-- A width or a precision. -/
inductive Measure
  /-- None is written. -/
  | none
  /-- A number that is written out. -/
  | number (n : Nat)
  /-- The number that the value itself is. -/
  | value
deriving DecidableEq, Repr

/-- A placeholder of a template. `conversion` is the letter that says what is shown and
`position` its place in the template; there is no letter if the template ends before
it. -/
structure Placeholder where
  subject : Subject
  signs : List Char
  width : Measure
  precision : Option Measure
  conversion : Option Char
  position : Nat
deriving DecidableEq, Repr

/-- A piece of a template. -/
inductive Piece
  | char (c : Char)
  | placeholder (placeholder : Placeholder)
deriving DecidableEq, Repr

/-! ## Reading a placeholder

Each part of a placeholder is read off the front of a text. What follows the part is
returned with it and is never longer than the text was. -/

/-- A name up to the parenthesis that closes it, behind `depth` parentheses that are
open within it. -/
def readName (depth : Nat) : List Char → Option (List Char × List Char)
  | [] => none
  | c :: rest =>
    if c == ')' && depth == 0 then some ([], rest)
    else
      let inner := if c == ')' then depth - 1 else if c == '(' then depth + 1 else depth
      (readName inner rest).map fun (name, rest) => (c :: name, rest)

/-- Which value is shown. A name that is never closed takes the rest of the text. -/
def readSubject : List Char → Subject × List Char
  | '(' :: rest =>
    match readName 0 rest with
    | some (name, rest) => (.named (String.ofList name), rest)
    | none => (.unclosed, [])
  | s => (.next, s)

/-- Whether a character says how a value is laid out. -/
def isSign (c : Char) : Bool :=
  ['-', '+', ' ', '#', '0'].contains c

/-- A width or a precision. -/
def readMeasure : List Char → Measure × List Char
  | [] => (.none, [])
  | c :: rest =>
    if c == '*' then (.value, rest)
    else if c.isDigit then
      let digits := (c :: rest).takeWhile Char.isDigit
      (.number (digits.foldl (fun n d => n * 10 + (d.toNat - '0'.toNat)) 0),
        rest.dropWhile Char.isDigit)
    else (.none, c :: rest)

/-- A precision behind its point. -/
def readPrecision : List Char → Option Measure × List Char
  | '.' :: rest =>
    let (measure, rest) := readMeasure rest
    (some measure, rest)
  | s => (none, s)

/-- A text without a letter for the size of a number, which says nothing here. -/
def dropSize : List Char → List Char
  | c :: rest => if ['h', 'l', 'L'].contains c then rest else c :: rest
  | [] => []

/-- A placeholder, given the text behind its percent sign and the place of that text. -/
def readPlaceholder (start : Nat) (s : List Char) : Placeholder × List Char :=
  let (subject, afterSubject) := readSubject s
  let (width, afterWidth) := readMeasure (afterSubject.dropWhile isSign)
  let (precision, afterPrecision) := readPrecision afterWidth
  let left := dropSize afterPrecision
  ({ subject, width, precision
     signs := afterSubject.takeWhile isSign
     conversion := left.head?
     position := start + (s.length - left.length) }, left.tail)

/-! ## The rest is shorter -/

/-- What follows a name is no longer than what it was read from. -/
theorem length_readName_le {depth : Nat} {s name rest : List Char}
    (h : readName depth s = some (name, rest)) : rest.length ≤ s.length := by
  induction s generalizing depth name with
  | nil => simp [readName] at h
  | cons c s ih =>
    rw [readName] at h
    split at h
    · simp_all
    · simp only [Option.map_eq_some_iff, Prod.exists, Prod.mk.injEq] at h
      obtain ⟨inner, left, hread, -, rfl⟩ := h
      exact Nat.le_succ_of_le (ih hread)

/-- What follows a subject is no longer than what it was read from. -/
theorem length_readSubject_le (s : List Char) : (readSubject s).2.length ≤ s.length := by
  unfold readSubject
  split
  · split
    · next hread => exact Nat.le_succ_of_le (length_readName_le hread)
    · simp
  · exact Nat.le_refl _

/-- What follows a measure is no longer than what it was read from. -/
theorem length_readMeasure_le (s : List Char) : (readMeasure s).2.length ≤ s.length := by
  cases s with
  | nil => simp [readMeasure]
  | cons c rest =>
    rw [readMeasure]
    split
    · simp
    · split
      · exact Nat.le_succ_of_le (List.dropWhile_sublist Char.isDigit).length_le
      · exact Nat.le_refl _

/-- What follows a precision is no longer than what it was read from. -/
theorem length_readPrecision_le (s : List Char) : (readPrecision s).2.length ≤ s.length := by
  unfold readPrecision
  split
  · exact Nat.le_succ_of_le (length_readMeasure_le _)
  · exact Nat.le_refl _

/-- Dropping a letter makes no text longer. -/
theorem length_dropSize_le (s : List Char) : (dropSize s).length ≤ s.length := by
  unfold dropSize
  split
  · split <;> simp
  · exact Nat.le_refl _

/-- What follows a placeholder is no longer than what it was read from. -/
theorem length_readPlaceholder_le (start : Nat) (s : List Char) :
    (readPlaceholder start s).2.length ≤ s.length := by
  have hsubject := length_readSubject_le s
  have hsigns : ((readSubject s).2.dropWhile isSign).length ≤ (readSubject s).2.length :=
    (List.dropWhile_sublist isSign).length_le
  have hwidth := length_readMeasure_le ((readSubject s).2.dropWhile isSign)
  have hprecision :=
    length_readPrecision_le (readMeasure ((readSubject s).2.dropWhile isSign)).2
  have hsize := length_dropSize_le
    (readPrecision (readMeasure ((readSubject s).2.dropWhile isSign)).2).2
  simp only [readPlaceholder, List.length_tail]
  omega

/-! ## All pieces -/

/-- The pieces of a text that begins at a place of the template. -/
def piecesFrom (start : Nat) (s : List Char) : List Piece :=
  match s with
  | [] => []
  | '%' :: '%' :: rest => .char '%' :: piecesFrom (start + 2) rest
  | '%' :: rest =>
    let read := readPlaceholder (start + 1) rest
    .placeholder read.1 :: piecesFrom (start + 1 + (rest.length - read.2.length)) read.2
  | c :: rest => .char c :: piecesFrom (start + 1) rest
termination_by s.length
decreasing_by
  · exact Nat.lt_succ_of_lt (Nat.lt_succ_self _)
  · exact Nat.lt_succ_of_le (length_readPlaceholder_le _ _)
  · exact Nat.lt_succ_self _

/-- The pieces of a template. -/
def pieces (template : String) : List Piece :=
  piecesFrom 0 template.toList

end OutlineTex.Template
