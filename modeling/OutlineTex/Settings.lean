/-
Settings: what the environment may change.

Every setting has a variable and a value for when the variable is not set. Texts are
taken as they are, switches are on for four words and off for any other, and the seconds
that a script may take are a decimal numeral, whose reading is the only thing that can
fail.
-/
import OutlineTex.Decimal.Layout
import OutlineTex.Decimal.Numeral
import OutlineTex.Text.Quoted

set_option autoImplicit false

namespace OutlineTex

open OutlineTex.Text OutlineTex.Decimal

/-- The settings of the program. -/
structure Settings where
  styleCode : String := "SSSI"
  outlineSuffix : String := ".otl"
  outputSuffix : String := ".tex"
  documentClass : String := "\x7barticle\x7d"
  escape : Bool := true
  allowScripts : Bool := true
  scriptTimeout : Binary := Binary.ofDecimal false 30 0
  logLevel : String := "WARNING"
deriving DecidableEq, Repr, Inhabited

namespace Settings

/-- A text that should be a number of seconds and is none. -/
structure NumeralFault where
  text : String
deriving DecidableEq, Repr

/-- The fault in words. -/
def NumeralFault.message (fault : NumeralFault) : String :=
  s!"could not convert string to float: {quoted fault.text}"

/-- The words that switch something on. -/
def truthy : List String :=
  ["1", "true", "yes", "on"]

/-- A switch: blanks around the word and its case do not count. -/
def switch (value : String) : Bool :=
  truthy.contains (String.ofList ((trim value.toList).map Char.toLower))

/-- The variables that make the settings. -/
def variableNames : List String :=
  ["OTL2LATEX_STYLE_CODE", "OTL2LATEX_OUTLINE_SUFFIX", "OTL2LATEX_OUTPUT_SUFFIX",
    "OTL2LATEX_DOCUMENTCLASS", "OTL2LATEX_ESCAPE", "OTL2LATEX_ALLOW_SCRIPTS",
    "OTL2LATEX_SCRIPT_TIMEOUT_S", "OTL2LATEX_LOG_LEVEL"]

/-- The settings that the variables of an environment make. -/
def ofEnvironment (valueOf? : String → Option String) : Except NumeralFault Settings :=
  let defaults : Settings := {}
  let text (name : String) (default : String) := (valueOf? name).getD default
  let flag (name : String) (default : Bool) := ((valueOf? name).map switch).getD default
  let settings : Settings := {
    styleCode := text "OTL2LATEX_STYLE_CODE" defaults.styleCode
    outlineSuffix := text "OTL2LATEX_OUTLINE_SUFFIX" defaults.outlineSuffix
    outputSuffix := text "OTL2LATEX_OUTPUT_SUFFIX" defaults.outputSuffix
    documentClass := text "OTL2LATEX_DOCUMENTCLASS" defaults.documentClass
    escape := flag "OTL2LATEX_ESCAPE" defaults.escape
    allowScripts := flag "OTL2LATEX_ALLOW_SCRIPTS" defaults.allowScripts
    logLevel := text "OTL2LATEX_LOG_LEVEL" defaults.logLevel }
  match valueOf? "OTL2LATEX_SCRIPT_TIMEOUT_S" with
  | none => .ok settings
  | some value =>
    match Binary.ofText? value with
    | some scriptTimeout => .ok { settings with scriptTimeout }
    | none => .error ⟨value⟩

end Settings

end OutlineTex
