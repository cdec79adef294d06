/-
The words of a command line, and what each of them is.

A word that begins with a dash is normally a flag, written out, shortened, or with its
value attached. It is an ordinary word after all if it is the dash alone, or if no flag
is meant and it is a negative number or contains a space. Two dashes alone end the
flags: every word behind them is an ordinary one. Attached to a flag as its value, they
leave the flag without one.
-/
import OutlineTex.CommandLine.Flag
import OutlineTex.Text.Digit

set_option autoImplicit false

namespace OutlineTex.CommandLine

open OutlineTex.Text

/-- A value attached to a flag: behind an equals sign, or right behind the letter of a
flag with one dash. -/
structure Attached where
  equals : Bool
  text : List Char
deriving DecidableEq, Repr

/-- What a flag is given: a text, or nothing, which is not the same as an empty text. -/
inductive Given
  | text (content : String)
  | nothing
deriving DecidableEq, Repr

/-- The text that is given, if it is one. -/
def Given.text? : Given → Option String
  | text content => some content
  | nothing => none

/-- What an attached value gives to its flag. -/
def Attached.given (attached : Attached) : Given :=
  if attached.text == ['-', '-'] then .nothing else .text (String.ofList attached.text)

/-- What a word of the command line is. -/
inductive Token
  /-- An ordinary word. -/
  | word (text : String)
  /-- The end of the flags. -/
  | separator
  /-- A flag, `short` if it is spelled with one dash, and the value attached to it. -/
  | flag (flag : Flag) (short : Bool) (attached : Option Attached)
  /-- A word that looks like a flag and is none. -/
  | unknown (text : String)
deriving DecidableEq, Repr

/-- A shortened flag that could be several. -/
structure Ambiguity where
  text : String
  spellings : List String
deriving DecidableEq, Repr

namespace Token

/-- The two parts of a text at its first equals sign. -/
def splitEquals (s : List Char) : List Char × Option (List Char) :=
  (s.takeWhile (· != '='), match s.dropWhile (· != '=') with
    | [] => none
    | _ :: rest => some rest)

/-- One digit or more of any script, and nothing else. -/
def isDigits (s : List Char) : Bool :=
  !s.isEmpty && s.all fun c => (digitValue? c).isSome

/-- A text without one line feed at its end. -/
def dropFinalFeed (s : List Char) : List Char :=
  if s.getLast? == some '\n' then s.dropLast else s

/-- A negative number: a dash, digits, and possibly a point with digits behind it. -/
def isNegativeNumber : List Char → Bool
  | '-' :: rest =>
    let s := dropFinalFeed rest
    let whole := s.takeWhile (· != '.')
    match s.dropWhile (· != '.') with
    | [] => isDigits whole
    | _ :: places => (whole.isEmpty || isDigits whole) && isDigits places
  | _ => false

/-- What a word is that begins with a dash and is no spelling of a flag. -/
def other (text : String) : Token :=
  if isNegativeNumber text.toList || text.toList.contains ' ' then .word text
  else .unknown text

/-- What a word with two dashes is that is no full spelling: a shortened one that only
one flag has. -/
def ofLong (text : String) : Except Ambiguity Token :=
  let (name, value) := splitEquals text.toList
  match Flag.spellings.filter fun (spelling, _) => name.isPrefixOf spelling.toList with
  | [] => .ok (other text)
  | [(_, only)] => .ok (.flag only false (value.map (⟨true, ·⟩)))
  | several => .error ⟨text, several.map (·.1)⟩

/-- What a word with one dash is that is no full spelling: a flag with its value right
behind it. -/
def ofShort (text : String) : Token :=
  match Flag.ofSpelling? (text.toList.take 2) with
  | some found => .flag found true (some ⟨false, text.toList.drop 2⟩)
  | none => other text

/-- What a word before the end of the flags is. -/
def ofWord (text : String) : Except Ambiguity Token :=
  match text.toList with
  | '-' :: c :: _ =>
    let short := c != '-'
    match Flag.ofSpelling? text.toList, splitEquals text.toList with
    | some found, _ => .ok (.flag found short none)
    | none, (name, some value) =>
      match Flag.ofSpelling? name with
      | some found => .ok (.flag found short (some ⟨true, value⟩))
      | none => if short then .ok (ofShort text) else ofLong text
    | none, (_, none) => if short then .ok (ofShort text) else ofLong text
  | _ => .ok (.word text)

/-- What the words of a command line are. -/
def ofWords : List String → Except Ambiguity (List Token)
  | [] => .ok []
  | text :: rest =>
    if text == "--" then .ok (.separator :: rest.map .word)
    else match ofWord text with
      | .error ambiguity => .error ambiguity
      | .ok token => (ofWords rest).map (token :: ·)

end Token

end OutlineTex.CommandLine
