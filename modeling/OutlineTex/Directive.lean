/-
Directives: lines that say something to the program.

A value is a directive if it begins with an exclamation mark and a name, in any case,
and if what follows has the form that the name asks for. Most names are followed by
nothing, or by blanks and a text that runs to the end of the line. The rest ask for
words: one, at most one, or any number. Whatever fits none of the forms is ordinary
text, even when it begins with an exclamation mark.

A value is normally one line. Where it is not, a text has to end with the value or
right before a line feed that ends it, because a text never runs over a line feed.
-/
import OutlineTex.Text.Blank
import OutlineTex.Text.Letter
import OutlineTex.Text.WordChar

set_option autoImplicit false

namespace OutlineTex

open OutlineTex.Text

/-- What a directive asks for. -/
inductive Directive
  /-- Files to be put in here, `once` if those that were included before are skipped. -/
  | inclusion (once : Bool) (names : List String)
  /-- A text to be copied as it stands, and the lines below it. -/
  | verbatim (text : String)
  /-- A part of the document's preamble, which leaves nothing here. -/
  | preamble
  /-- Preliminary parts are rendered from here on. -/
  | showPreliminary
  /-- A comment. -/
  | comment (text : String)
  /-- A preliminary part. -/
  | preliminary (text : String)
  /-- Escaping is switched. -/
  | escaping (on : Bool)
  /-- The styles are switched, for one line if `temporary`. -/
  | format (temporary : Bool) (code : String)
  /-- A script, whose own lines are shown as well if `verbose`. -/
  | script (verbose : Bool) (code : String)
deriving DecidableEq, Repr, Inhabited

namespace Directive

/-- The name under which a directive is reported. -/
def name : Directive → String
  | .inclusion .. => "include"
  | .verbatim _ => "verbatim"
  | .preamble => "preamble"
  | .showPreliminary => "showPreliminary"
  | .comment _ => "comment"
  | .preliminary _ => "preliminary"
  | .escaping _ => "escape"
  | .format .. => "format"
  | .script .. => "ruby"

/-! ## Forms of what follows a name -/

/-- What follows the exclamation mark and a name. -/
def after? (name : String) : List Char → Option (List Char)
  | '!' :: rest => afterName? name.toList rest
  | _ => none

/-- The line that a text is, possibly with a line feed at its end. -/
def line? (s : List Char) : Option (List Char) :=
  let line := s.takeWhile (· != '\n')
  let rest := s.dropWhile (· != '\n')
  if rest == [] || rest == ['\n'] then some line else none

/-- Whether a text begins with a blank. -/
def startsBlank : List Char → Bool
  | c :: _ => isBlank c
  | [] => false

/-- The text behind a name: nothing at all, or blanks and a line. -/
def tail? (rest : List Char) : Option (List Char) :=
  if rest.isEmpty then some []
  else if startsBlank rest then line? (trimStart rest)
  else none

/-- The words behind a name, which blanks separate from it. -/
def words? (rest : List Char) : Option (List (List Char)) :=
  if startsBlank rest then some (words rest) else none

/-- Whether nothing but a blank and a line follows, or nothing at all. Unlike in a tail,
the line may begin with further blanks, but a line feed among them ends it. -/
def isSpacedLine : List Char → Bool
  | [] => true
  | c :: rest => isBlank c && (line? rest).isSome

/-- The name ends here: the end of the value or a character of no word follows. -/
def endsWord : List Char → Bool
  | [] => true
  | c :: _ => !isWordChar c

/-! ## The forms -/

/-- An inclusion: a dash right behind the name asks for once. -/
def inclusion? (value : List Char) : Option Directive := do
  let rest ← after? "include" value
  let (once, rest) := match rest with
    | '-' :: rest => (true, rest)
    | rest => (false, rest)
  let names ← tail? rest
  return .inclusion once ((words names).map String.ofList)

/-- A directive that takes a text. -/
def withText? (name : String) (build : String → Directive) (value : List Char) :
    Option Directive := do
  let text ← tail? (← after? name value)
  return build (String.ofList text)

/-- The arguments of a document class directive, which may follow its name directly but
cannot lengthen it to another word. -/
def documentClass? (value : List Char) : Option (List Char) := do
  let rest ← after? "documentclass" value
  if endsWord rest then line? rest else none

/-- A part of the preamble: the name of the preamble or of the document class. -/
def preamble? (value : List Char) : Option Directive :=
  if (after? "preamble" value).any isSpacedLine || (documentClass? value).isSome then
    some .preamble
  else none

/-- The switch that shows preliminary parts stands alone. -/
def showPreliminary? (value : List Char) : Option Directive := do
  let rest ← after? "showpreliminary" value
  if rest.all isBlank then some .showPreliminary else none

/-- The words that switch escaping on; any other word, and none, switches it off. -/
def isOn (word : List Char) : Bool :=
  word == ['1'] || word.map Char.toLower == "true".toList

/-- The switch of escaping takes at most one word. -/
def escaping? (value : List Char) : Option Directive := do
  let rest ← after? "escape" value
  if rest.all isBlank then some (.escaping false)
  else match ← words? rest with
    | [word] => some (.escaping (isOn word))
    | _ => none

/-- A switch of styles takes one word, the code. -/
def format? (value : List Char) : Option Directive := do
  let (temporary, rest) ← match after? "tmpformat" value with
    | some rest => some (true, rest)
    | none => (after? "format" value).map (false, ·)
  match ← words? rest with
  | [code] => some (.format temporary (String.ofList code))
  | _ => none

/-- A script goes by either of two names, which `-verbose` may follow. -/
def script? (value : List Char) : Option Directive := do
  let rest ← (after? "ruby" value).orElse fun _ => after? "python" value
  let (verbose, rest) := match afterName? "-verbose".toList rest with
    | some rest => (true, rest)
    | none => (false, rest)
  let code ← tail? rest
  return .script verbose (String.ofList code)

/-- The forms, in the order in which they are tried. -/
def forms : List (List Char → Option Directive) :=
  [inclusion?, withText? "verbatim" .verbatim, preamble?, showPreliminary?,
    withText? "comment" .comment, withText? "preliminary" .preliminary, escaping?, format?,
    script?]

/-- The directive that a value is, if it is one. -/
def ofValue? (value : String) : Option Directive :=
  forms.findSome? (· value.toList)

end Directive

end OutlineTex
