/-
The flags of the command line.

A flag has one or two spellings, and either takes a value or does not. A long spelling
may be shortened as long as no other one begins alike, so the order of the table is
visible: it is the order in which the spellings that a shortened one could stand for are
listed.
-/

set_option autoImplicit false

namespace OutlineTex.CommandLine

/-- A flag of the command line. -/
inductive Flag
  | help
  | output
  | stdout
  | format
  | noEscape
  | showPreliminary
  | noScripts
  | logLevel
deriving DecidableEq, Repr

namespace Flag

/-- All spellings with their flags, in order. -/
def spellings : List (String × Flag) :=
  [("-h", help), ("--help", help), ("-o", output), ("--output", output), ("--stdout", stdout),
    ("-f", format), ("--format", format), ("--no-escape", noEscape),
    ("--show-preliminary", showPreliminary), ("--no-scripts", noScripts),
    ("--log-level", logLevel)]

/-- The flag with a spelling. -/
def ofSpelling? (spelling : List Char) : Option Flag :=
  spellings.lookup (String.ofList spelling)

/-- Whether a flag takes a value. -/
def takesValue : Flag → Bool
  | output => true
  | format => true
  | logLevel => true
  | _ => false

/-- The spellings of a flag, as messages name it. -/
def title (flag : Flag) : String :=
  "/".intercalate ((spellings.filter (·.2 == flag)).map (·.1))

end Flag

end OutlineTex.CommandLine
