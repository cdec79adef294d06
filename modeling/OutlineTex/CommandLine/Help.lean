/-
The help and usage texts of the command line.

The texts are fixed but for one explanation: that of the style code shows the code that
is in force when none is given, so it may need more than one line. The explanation is a
template, and so is the code within it: what the code writes with a percent sign is
filled in from what is known about the flag, and a code that is no template leaves the
program without a help text.
-/
import OutlineTex.CommandLine.Arguments
import OutlineTex.Template.Expansion
import OutlineTex.Text.Wrap

set_option autoImplicit false

namespace OutlineTex.CommandLine

open OutlineTex.Text

/-- The name of the program. -/
def programName : String := "otl2latex"

/-- Lines as they are written, each ended by a line feed. -/
def written (lines : List String) : String :=
  String.join (lines.map (· ++ "\n"))

/-- How the program is called. -/
def usage : List String :=
  ["usage: otl2latex [-h] [-o OUTPUT | --stdout] [-f FORMAT] [--no-escape]",
    "                 [--show-preliminary] [--no-scripts] [--log-level LOG_LEVEL]",
    "                 input"]

/-- What is written when a command line cannot be understood. -/
def Fault.report (fault : Fault) : String :=
  written (usage ++ [s!"{programName}: error: {fault.message}"])

/-- The column in which explanations stand. -/
def helpColumn : Nat := 24

/-- The width of an explanation. -/
def helpWidth : Nat := 54

/-- The explanation of the style code, not yet filled in. -/
def formatTemplate (format : String) : String :=
  s!"Initial style code (default: {format})"

/-- What is known about the flag of the style code, by name. -/
def formatFields (format : String) : List (String × Template.Value) :=
  [("option_strings", .texts ["-f", "--format"]), ("dest", .text "format"), ("nargs", .absent),
    ("const", .absent), ("default", .text format), ("type", .absent), ("choices", .absent),
    ("required", .off), ("help", .text (formatTemplate format)), ("metavar", .absent),
    ("container", .group), ("prog", .text programName)]

/-- A text with one space for each stretch of blanks, and none at its ends. -/
def singleSpaced (s : List Char) : List Char :=
  [' '].intercalate (wordsBy isAsciiBlank s)

/-- The explanation of the style code, in lines of the help's width. -/
def formatHelp (format : String) : Except Template.Fault (List String) :=
  (Template.fillIn (formatFields format) (formatTemplate format)).map fun text =>
    (wrap helpWidth (by decide) (singleSpaced text.toList)).map fun line =>
      String.ofList (List.replicate helpColumn ' ' ++ line)

/-- The help text around the explanation of the style code. -/
def helpAround (explanation : List String) : String :=
  written <| usage ++ [
    "",
    "Convert a tab-indented outline into a LaTeX document.",
    "",
    "positional arguments:",
    "  input                 Outline file (.otl)",
    "",
    "options:",
    "  -h, --help            show this help message and exit",
    "  -o OUTPUT, --output OUTPUT",
    "                        Output path (default: input with .tex suffix)",
    "  --stdout              Write the document to standard output",
    "  -f FORMAT, --format FORMAT"] ++ explanation ++ [
    "  --no-escape           Do not escape LaTeX special characters",
    "  --show-preliminary    Render !preliminary subtrees",
    "  --no-scripts          Do not evaluate !ruby blocks",
    "  --log-level LOG_LEVEL",
    "                        Logging level name"]

/-- The help text, given the style code for when the command line names none. -/
def help (format : String) : Except Template.Fault String :=
  (formatHelp format).map helpAround

end OutlineTex.CommandLine
