/-
Conversions: from an outline file to a document.

The outline is read, its preamble is gathered, the style code is read, and the forest is
rendered; the first of these that fails decides the failure. The outline counts as
included from the start, so a directive that includes files only once never includes it.

A document may be written to a file. Where that is, and whether it can be, is looked at
only when the document exists, so nothing is written for an outline that fails.
-/
import OutlineTex.Document
import OutlineTex.Render
import OutlineTex.Settings

set_option autoImplicit false

namespace OutlineTex

open OutlineTex.Text
open Rendering

/-- How an outline is to be converted. -/
structure ConversionOptions where
  styleCode : String
  escaping : Bool := true
  showPreliminary : Bool := false
deriving DecidableEq, Repr

/-- The result of a conversion: the body, the whole document, the arguments of its class
and the lines of its preamble. -/
structure Conversion where
  body : String
  document : String
  documentClass : String
  preamble : List String
deriving DecidableEq, Repr

namespace World

/-- The lines of a forest rendered from the top, as they are written. -/
def renderedLines (world : World) (nodes : List Node) (setting : Setting) :
    Rendering (List String) := do
  let (_, blocks) ← listen (world.render nodes 0 setting)
  return (Block.linesOf blocks).map (·.written)

/-- The steps of a conversion, in a run that knows the outline as included. -/
def conversion (world : World) (defaultClass : String) (options : ConversionOptions)
    (path : Path) : Rendering Conversion := do
  let nodes ← ofExcept ((world.readOutline path).mapError .unreadable)
  let preamble := Preamble.ofNodes nodes
  let styles ← ofExcept (StyleStack.ofCode options.styleCode)
  let lines ← world.renderedLines nodes ⟨styles, options.escaping⟩
  let body := "\n".intercalate lines
  report (.rendered path lines.length)
  return {
    body
    document := Document.text defaultClass path.name body preamble
    documentClass := Document.classArguments defaultClass preamble.documentClass
    preamble := preamble.lines }

/-- Converts an outline in a run of its own. -/
def convert (world : World) (defaultClass : String) (options : ConversionOptions)
    (path : Path) : Outcome Conversion :=
  world.conversion defaultClass options path
    { included := [path.resolve world.files.cwd], showPreliminary := options.showPreliminary }

end World

/-! ## Documents in files -/

/-- The path that the document of an outline is written to: the one asked for, or the
outline's with its suffix replaced. -/
def Conversion.outputPath (suffix : String) (input : Path) (output : Option Path) :
    Except Path.SuffixFault Path :=
  match output with
  | some path => .ok path
  | none => input.withSuffix suffix

/-- A document file that was written: its path, and the files as they are then. -/
structure FileConversion where
  path : Path
  files : FileSystem

/-- Why an outline file was not converted to a document file. -/
inductive FileConversionFault
  | conversion (failure : Failure)
  | outputSuffix (fault : Path.SuffixFault)
  | writing (path : Path) (fault : OpenFault)
deriving DecidableEq, Repr

/-- The document file that a conversion comes to. -/
def FileConversion.ofResult (files : FileSystem) (suffix : String) (input : Path)
    (output : Option Path) (result : Except Failure Conversion) :
    Except FileConversionFault FileConversion := do
  let conversion ← result.mapError .conversion
  let path ← (Conversion.outputPath suffix input output).mapError .outputSuffix
  let files ← (files.write path (Utf8.encode conversion.document)).mapError (.writing path)
  return ⟨path, files⟩

end OutlineTex
