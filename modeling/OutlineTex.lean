import OutlineTex.CommandLine.Arguments
import OutlineTex.CommandLine.Flag
import OutlineTex.CommandLine.Help
import OutlineTex.CommandLine.Token
import OutlineTex.Conversion
import OutlineTex.Decimal.Binary
import OutlineTex.Decimal.Layout
import OutlineTex.Decimal.Numeral
import OutlineTex.Decimal.Significant
import OutlineTex.Directive
import OutlineTex.Document
import OutlineTex.Escape
import OutlineTex.Event
import OutlineTex.Failure
import OutlineTex.FileSystem
import OutlineTex.Inclusion
import OutlineTex.Level
import OutlineTex.Line
import OutlineTex.Main
import OutlineTex.Math
import OutlineTex.Node
import OutlineTex.Outline
import OutlineTex.Path
import OutlineTex.Preamble
import OutlineTex.Program
import OutlineTex.Proofs.Directive.Forms
import OutlineTex.Proofs.Directive.Grammar
import OutlineTex.Proofs.Escape.Backslashes
import OutlineTex.Proofs.Escape.ClosedForm
import OutlineTex.Proofs.Escape.Fragments
import OutlineTex.Proofs.Escape.Rescan
import OutlineTex.Proofs.FileSystem.Names
import OutlineTex.Proofs.FileSystem.Places
import OutlineTex.Proofs.FileSystem.Texts
import OutlineTex.Proofs.Inclusion.Chains
import OutlineTex.Proofs.Inclusion.InPlace
import OutlineTex.Proofs.Inclusion.Once
import OutlineTex.Proofs.Inclusion.Several
import OutlineTex.Proofs.Inclusion.Termination
import OutlineTex.Proofs.Outline.Blocks
import OutlineTex.Proofs.Outline.Canonical
import OutlineTex.Proofs.Outline.Numbering
import OutlineTex.Proofs.Outline.Preorder
import OutlineTex.Proofs.Preamble.Agreement
import OutlineTex.Proofs.Preamble.Parts
import OutlineTex.Proofs.Preamble.Walk
import OutlineTex.Proofs.Program.Delivery
import OutlineTex.Proofs.Program.Refusal
import OutlineTex.Proofs.Program.Sources
import OutlineTex.Proofs.Rendering.Arrivals
import OutlineTex.Proofs.Rendering.Comparison
import OutlineTex.Proofs.Rendering.Contract
import OutlineTex.Proofs.Rendering.Diagnostics
import OutlineTex.Proofs.Rendering.Escaping
import OutlineTex.Proofs.Rendering.Evaluations
import OutlineTex.Proofs.Rendering.Failures
import OutlineTex.Proofs.Rendering.Growth
import OutlineTex.Proofs.Rendering.Inert
import OutlineTex.Proofs.Rendering.Listless
import OutlineTex.Proofs.Rendering.MathState
import OutlineTex.Proofs.Rendering.Nesting
import OutlineTex.Proofs.Rendering.Preliminary
import OutlineTex.Proofs.Rendering.Prose
import OutlineTex.Proofs.Rendering.Refusal
import OutlineTex.Proofs.Rendering.Restoration
import OutlineTex.Proofs.Rendering.Scope
import OutlineTex.Proofs.Rendering.Scripts
import OutlineTex.Proofs.Rendering.Siblings
import OutlineTex.Proofs.Rendering.Switches
import OutlineTex.Proofs.Rendering.Unbroken
import OutlineTex.Proofs.Rendering.Visits
import OutlineTex.Proofs.Rendering.Wrappers
import OutlineTex.Proofs.Style.Codes
import OutlineTex.Proofs.Style.Overlay
import OutlineTex.Proofs.Style.Stack
import OutlineTex.Render
import OutlineTex.Rendering
import OutlineTex.Script
import OutlineTex.Settings
import OutlineTex.Style
import OutlineTex.StyleStack
import OutlineTex.Template.Expansion
import OutlineTex.Template.Placeholder
import OutlineTex.Template.Value
import OutlineTex.Text.Blank
import OutlineTex.Text.Dedent
import OutlineTex.Text.Digit
import OutlineTex.Text.Letter
import OutlineTex.Text.Lines
import OutlineTex.Text.NulChar
import OutlineTex.Text.Printable
import OutlineTex.Text.Quoted
import OutlineTex.Text.Ranges
import OutlineTex.Text.Uppercase
import OutlineTex.Text.Utf8
import OutlineTex.Text.WordChar
import OutlineTex.Text.Wrap
import OutlineTex.World
