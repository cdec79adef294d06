/-
What a command line asks for.

The tokens are read from left to right. The first ordinary word names the outline; any
other one is left over, as is a word that looks like a flag and is none. A flag that
takes a value takes the part attached to it or else the next word, and may be given
nothing by it. Asking for help ends the reading at once, so faults to the right of it do
not matter, whereas a shortened flag that could be several is found before anything is
read.

The end of the flags is skipped where it stands right before or right behind the word
that names the outline, and is left over elsewhere.
-/
import OutlineTex.CommandLine.Token
import OutlineTex.Path

set_option autoImplicit false

namespace OutlineTex.CommandLine

open OutlineTex.Text

/-- What a command line asks for. There is no style code or no threshold if its flag was
given nothing. -/
structure Arguments where
  input : Path
  output : Option Path := none
  stdout : Bool := false
  format : Option String
  noEscape : Bool := false
  showPreliminary : Bool := false
  noScripts : Bool := false
  logLevel : Option String
deriving DecidableEq, Repr

/-- Why a command line cannot be understood. -/
inductive Fault
  | ambiguous (ambiguity : Ambiguity)
  | expectedValue (flag : Flag)
  | ignoredValue (flag : Flag) (value : List Char)
  | conflict (flag earlier : Flag)
  | missingInput
  | unrecognized (words : List String)
deriving DecidableEq, Repr

/-- The fault in words. -/
def Fault.message : Fault → String
  | .ambiguous ambiguity =>
    let choices := ", ".intercalate ambiguity.spellings
    s!"ambiguous option: {ambiguity.text} could match {choices}"
  | .expectedValue flag => s!"argument {flag.title}: expected one argument"
  | .ignoredValue flag value =>
    s!"argument {flag.title}: ignored explicit argument {quoted (String.ofList value)}"
  | .conflict flag earlier =>
    s!"argument {flag.title}: not allowed with argument {earlier.title}"
  | .missingInput => "the following arguments are required: input"
  | .unrecognized words =>
    let all := " ".intercalate words
    s!"unrecognized arguments: {all}"

/-- Why the reading of a command line ends early. -/
inductive Stop
  | help
  | fault (fault : Fault)
deriving DecidableEq, Repr

/-- What has been read of a command line. -/
structure Progress where
  input : Option String := none
  output : Option Given := none
  stdout : Bool := false
  format : Option Given := none
  noEscape : Bool := false
  showPreliminary : Bool := false
  noScripts : Bool := false
  logLevel : Option Given := none
  leftOver : List String := []
deriving DecidableEq, Repr

namespace Progress

/-- Takes a flag. A value that the flag does not take is not looked at. -/
def take (progress : Progress) (flag : Flag) (value : Given) : Except Stop Progress :=
  match flag with
  | .help => .error .help
  | .output =>
    if progress.stdout then .error (.fault (.conflict .output .stdout))
    else .ok { progress with output := some value }
  | .stdout =>
    if progress.output.isSome then .error (.fault (.conflict .stdout .output))
    else .ok { progress with stdout := true }
  | .format => .ok { progress with format := some value }
  | .noEscape => .ok { progress with noEscape := true }
  | .showPreliminary => .ok { progress with showPreliminary := true }
  | .noScripts => .ok { progress with noScripts := true }
  | .logLevel => .ok { progress with logLevel := some value }

/-- Takes a word: it names the outline if none has. -/
def takeWord (progress : Progress) (word : String) : Progress :=
  match progress.input with
  | none => { progress with input := some word }
  | some _ => { progress with leftOver := progress.leftOver ++ [word] }

end Progress

/-! ## Flags in a cluster -/

/-- How the letters behind the letter of a flag without a value end. They are flags with
one dash themselves, up to one that takes a value. Help is asked for in the end, because
no other flag with one dash is without a value, unless a letter is no flag or a value is
missing. `wordFollows` tells whether a word follows the cluster. -/
def clusterStop (wordFollows : Bool) (flag : Flag) : List Char → Stop
  | [] => .help
  | c :: rest =>
    match Flag.ofSpelling? ['-', c] with
    | none => .fault (.ignoredValue flag (c :: rest))
    | some next =>
      if !next.takesValue then clusterStop wordFollows next rest
      else if rest.isEmpty && !wordFollows then .fault (.expectedValue next)
      else .help

/-- Why a value attached to a flag that takes none ends the reading. Behind one dash its
letters are flags, with an equals sign before them or not. -/
def attachedStop (flag : Flag) (short : Bool) (attached : Attached) (wordFollows : Bool) : Stop :=
  if short && !attached.text.isEmpty then clusterStop wordFollows flag attached.text
  else .fault (.ignoredValue flag attached.text)

/-! ## Reading -/

/-- Whether the next token is an ordinary word. -/
def wordFollows : List Token → Bool
  | .word _ :: _ => true
  | _ => false

/-- The words of tokens that are words. -/
def wordsOf (tokens : List Token) : List String :=
  tokens.filterMap fun token =>
    match token with
    | .word text => some text
    | _ => none

/-- What is read behind the end of the flags. `named` tells whether the outline was named
right before it. -/
def readWords (progress : Progress) (named : Bool) (words : List String) : Progress :=
  if named then { progress with leftOver := progress.leftOver ++ words }
  else match progress.input, words with
    | none, word :: rest =>
      { progress with input := some word, leftOver := progress.leftOver ++ rest }
    | _, words => { progress with leftOver := progress.leftOver ++ "--" :: words }

/-- Reads tokens. `named` tells whether the token before them named the outline. -/
def readFrom (progress : Progress) (named : Bool) : List Token → Except Stop Progress
  | [] => .ok progress
  | .word text :: rest => readFrom (progress.takeWord text) progress.input.isNone rest
  | .separator :: rest => .ok (readWords progress named (wordsOf rest))
  | .unknown text :: rest =>
    readFrom { progress with leftOver := progress.leftOver ++ [text] } false rest
  | .flag flag short attached :: rest =>
    if flag.takesValue then
      match attached, rest with
      | some attached, rest => do
        readFrom (← progress.take flag attached.given) false rest
      | none, .word value :: rest => do
        readFrom (← progress.take flag (.text value)) false rest
      | none, _ => .error (.fault (.expectedValue flag))
    else
      match attached with
      | some attached => .error (attachedStop flag short attached (wordFollows rest))
      | none => do readFrom (← progress.take flag .nothing) false rest

/-- What a command line asks for, given the style code and the threshold for when it names
none. -/
def Arguments.ofWords (format logLevel : String) (words : List String) :
    Except Stop Arguments := do
  let tokens ← (Token.ofWords words).mapError fun ambiguity => .fault (.ambiguous ambiguity)
  let progress ← readFrom {} false tokens
  match progress.input with
  | none => .error (.fault .missingInput)
  | some input =>
    if !progress.leftOver.isEmpty then .error (.fault (.unrecognized progress.leftOver))
    else .ok {
      input := Path.ofText input
      output := (progress.output.bind Given.text?).map Path.ofText
      stdout := progress.stdout
      format := (progress.format.getD (.text format)).text?
      noEscape := progress.noEscape
      showPreliminary := progress.showPreliminary
      noScripts := progress.noScripts
      logLevel := (progress.logLevel.getD (.text logLevel)).text? }

end OutlineTex.CommandLine
