/-
What stands for a script that failed.

The lines of a failed script are set as they are, in a verbatim environment, below a line that says
where the script stands and what went wrong. Nothing is escaped there, and nothing needs to be but
for one text, the one that ends such an environment, wherever it comes first. So what is written is
one environment just if neither the label nor the message nor any line of the script has that text
in it. Otherwise the lines behind it are read like all other lines of the document.

The label and the message stand between spaces and colons, and the text has neither. That is why it
cannot come about by putting them next to each other, and why the line in front of the script can be
told by its two parts.
-/
import OutlineTex.Proofs.Rendering.Arrivals
import OutlineTex.Proofs.Rendering.Scripts
import OutlineTex.Proofs.Rendering.Steps

set_option autoImplicit false

namespace OutlineTex

open Rendering

/-! ## Verbatim environments -/

namespace Verbatim

/-- The line that begins a verbatim environment. -/
def opening : String :=
  "\\begin\x7bverbatim\x7d"

/-- The text that ends one. -/
def terminator : String :=
  "\\end\x7bverbatim\x7d"

/-- A verbatim environment ends in a line that has the terminator anywhere in it. -/
def EndsIn (line : String) : Prop :=
  terminator.toList <:+: line.toList

instance : DecidablePred EndsIn := fun line =>
  inferInstanceAs (Decidable (terminator.toList <:+: line.toList))

/-- Lines that are one verbatim environment: it begins with the first of them, and ends with the
last and not before. -/
def IsWhole (lines : List String) : Prop :=
  ∃ inner, lines = opening :: inner ++ [terminator] ∧ ∀ line ∈ inner, ¬EndsIn line

theorem isWhole_iff (inner : List String) :
    IsWhole (opening :: inner ++ [terminator]) ↔ ∀ line ∈ inner, ¬EndsIn line := by
  constructor
  · rintro ⟨other, hother, hends⟩
    obtain ⟨rfl, -⟩ := List.append_inj' (List.cons.inj hother).2 rfl
    exact hends
  · exact fun hends => ⟨inner, rfl, hends⟩

/-- A text without a sign is found on one side of the sign if it is found at all. -/
theorem infix_append_cons_iff {α : Type} {pattern before behind : List α} {sign : α}
    (h : sign ∉ pattern) :
    pattern <:+: before ++ sign :: behind ↔ pattern <:+: before ∨ pattern <:+: behind := by
  -- a beginning of what the sign begins is nothing, or has the sign
  have hnothing : ∀ {part : List α}, part ⊆ pattern → part <+: sign :: behind → part = [] := by
    intro part hpart hprefix
    rcases List.prefix_cons_iff.mp hprefix with hnil | ⟨rest, rfl, -⟩
    · exact hnil
    · exact absurd (hpart List.mem_cons_self) h
  constructor
  · intro hinfix
    rcases List.infix_append_iff.mp hinfix with hbefore | hsign | ⟨front, back, rfl, hfront, hback⟩
    · exact .inl hbefore
    · rcases List.infix_cons_iff.mp hsign with hprefix | hbehind
      · exact .inl (hnothing (List.Subset.refl _) hprefix ▸ List.nil_infix)
      · exact .inr hbehind
    · rw [hnothing (List.subset_append_right _ _) hback, List.append_nil]
      exact .inl hfront.isInfix
  · rintro (hbefore | hbehind)
    · exact hbefore.trans (List.prefix_append _ _).isInfix
    · exact hbehind.trans ((List.suffix_cons _ _).trans (List.suffix_append _ _)).isInfix

/-! ## Diagnostics -/

/-- The terminator is in the line about a failure just if it is in the label or in the message. -/
theorem endsIn_report_iff (source message : String) :
    EndsIn s!"Script evaluation failed at {source}: {message}" ↔
      EndsIn source ∨ EndsIn message := by
  have hhead : "Script evaluation failed at ".toList =
      "Script evaluation failed at".toList ++ [' '] := by decide +kernel
  have hbetween : ": ".toList = [':', ' '] := by decide +kernel
  have htext : s!"Script evaluation failed at {source}: {message}".toList =
      "Script evaluation failed at".toList ++
        ' ' :: (source.toList ++ ':' :: ([] ++ ' ' :: message.toList)) := by
    simp only [toString, String.toList_append, hhead, hbetween]
    simp only [List.append_assoc, List.cons_append, List.nil_append]
  have hspace : ' ' ∉ terminator.toList := by decide +kernel
  have hcolon : ':' ∉ terminator.toList := by decide +kernel
  have hown : ¬terminator.toList <:+: "Script evaluation failed at".toList := by decide +kernel
  have hnil : ¬terminator.toList <:+: [] := by decide +kernel
  rw [EndsIn, htext, infix_append_cons_iff hspace, infix_append_cons_iff hcolon,
    infix_append_cons_iff hspace, or_iff_right hown, or_iff_right hnil]
  exact Iff.rfl

/-- What stands for a failed script is one verbatim environment just if nothing that is put into it
has the terminator. -/
theorem isWhole_diagnostic_iff (source : String) (lines : List String) (fault : ScriptFault) :
    IsWhole (diagnostic source lines fault) ↔
      ∀ text ∈ source :: fault.message :: lines, ¬EndsIn text := by
  refine (isWhole_iff _).trans ?_
  simp only [List.forall_mem_cons, endsIn_report_iff, not_or, and_assoc]

end Verbatim

/-! ## Failed scripts -/

/-- A script that fails is a line for each text of its diagnostic, in its own place. -/
theorem runScript_of_fault (world : World) (source : String) {block : ScriptBlock} {run : Run}
    {fault : ScriptFault} (h : (world.evaluate block run).result = .ok (.error fault)) :
    (runScript world source block run).result = .ok () ∧
      Block.linesOf (runScript world source block run).blocks =
        (diagnostic source block.lines fault).map .script := by
  have hblocks : (world.evaluate block run).blocks = [] := by
    obtain ⟨launches, events, ⟨answer, hanswer⟩ | ⟨cause, hcause⟩⟩ := world.evaluate_eq block run
    · rw [hanswer]
    · rw [hcause]
  rw [runScript, then_of_ok h, hblocks]
  exact ⟨rfl, Block.linesOf_map_line _⟩

theorem renderNode_of_fault (world : World) (enter : Entering) (next : Option Node) {node : Node}
    (level : Level) {run : Run} {verbose : Bool} {code : String} {fault : ScriptFault}
    (hscript : node.value.bind Directive.ofValue? = some (.script verbose code))
    (hfault : (world.evaluate ⟨scriptLines code node, verbose⟩ run).result = .ok (.error fault)) :
    (renderNode world enter next node level run).result = .ok level ∧
      (Block.linesOf (renderNode world enter next node level run).blocks).map Line.written =
        diagnostic node.source (scriptLines code node) fault := by
  obtain ⟨hresult, hlines⟩ := runScript_of_fault world node.source hfault
  have hdispatch : (dispatch world enter level node run).result = .ok .done := by
    rw [dispatch_of_directive world enter hscript, carryOut_script]
    exact congrArg (Except.map fun _ => Verdict.done) hresult
  rw [renderNode_eq, then_of_ok hdispatch, dispatch_of_directive world enter hscript,
    carryOut_script]
  refine ⟨rfl, ?_⟩
  show List.map Line.written (Block.linesOf (_ ++ [])) = _
  rw [List.append_nil, hlines, List.map_map]
  exact List.map_id _

/-- **A failed script in its place.** Where a script fails, rendering goes on as if its node were
not there, and in its place are the line that begins a verbatim environment, one that says where the
script stands and what the fault is, all lines of the script, in order and as they are, and the line
that ends the environment. These are one environment just if the text that ends it is in none of the
label, the message and the lines. -/
theorem renderNode_of_script_failed (world : World) (enter : Entering) (next : Option Node)
    (node : Node) (level : Level) (run : Run) (verbose : Bool) (code : String) (fault : ScriptFault)
    (hscript : node.value.bind Directive.ofValue? = some (.script verbose code))
    (hfault : (world.evaluate ⟨scriptLines code node, verbose⟩ run).result = .ok (.error fault)) :
    let rendered := renderNode world enter next node level run
    let lines := (Block.linesOf rendered.blocks).map Line.written
    rendered.result = .ok level ∧
      lines = "\\begin\x7bverbatim\x7d" ::
        s!"Script evaluation failed at {node.source}: {fault.message}" ::
        scriptLines code node ++ ["\\end\x7bverbatim\x7d"] ∧
      (Verbatim.IsWhole lines ↔
        ∀ text ∈ node.source :: fault.message :: scriptLines code node, ¬Verbatim.EndsIn text) := by
  intro rendered lines
  obtain ⟨hresult, hlines⟩ : rendered.result = .ok level ∧
      lines = diagnostic node.source (scriptLines code node) fault :=
    renderNode_of_fault world enter next level hscript hfault
  refine ⟨hresult, hlines, ?_⟩
  rw [hlines]
  exact Verbatim.isWhole_diagnostic_iff node.source (scriptLines code node) fault

/-- A script that prints another environment, and a fault about the beginning of an end. -/
theorem renderNode_of_script_failed_listing :
    let world : World :=
      { files := ⟨[], []⟩, evaluator := .custom fun _ _ => .error (.custom "no \\end") }
    let node : Node :=
      ⟨some "!ruby-verbose a", "t:1", [⟨some "puts '\\end\x7bitemize\x7d'", "t:2", []⟩]⟩
    let level : Level := { depth := 0, styles := ⟨[{ id := "N" }]⟩ }
    let rendered := renderNode world (enterOutline world 0) none node level {}
    node.value.bind Directive.ofValue? = some (.script true "a") ∧
      rendered.result = .ok level ∧
      Verbatim.IsWhole ((Block.linesOf rendered.blocks).map Line.written) := by
  intro world node level rendered
  have hscript : node.value.bind Directive.ofValue? = some (.script true "a") := by decide +kernel
  obtain ⟨hresult, -, hwhole⟩ := renderNode_of_script_failed world (enterOutline world 0) none node
    level {} true "a" (.custom "no \\end") hscript rfl
  exact ⟨hscript, hresult, hwhole.mpr (by decide +kernel)⟩

/-- A message ends the environment before the script, none of whose own lines would. -/
theorem script_behind_message_with_terminator :
    let world : World := {
      files := ⟨[], []⟩
      evaluator := .interpreter "python3" (.ofFraction false 30 1)
      processes := fun _ _ => .finished 1 "" "missing \\end\x7bverbatim\x7d\n" }
    let node : Node := ⟨some "!python", "t:1", [⟨some "import sys", "t:2", []⟩,
      ⟨some "sys.exit(r'missing \\end' '\x7bverbatim\x7d')", "t:3", []⟩]⟩
    let level : Level := { depth := 0, styles := ⟨[{ id := "N" }]⟩ }
    let lines := (Block.linesOf
      (renderNode world (enterOutline world 0) none node level {}).blocks).map Line.written
    let report :=
      "Script evaluation failed at t:1: exited with status 1: missing \\end\x7bverbatim\x7d"
    (∀ line ∈ node.valuesBelow, ¬Verbatim.EndsIn line) ∧
      lines = "\\begin\x7bverbatim\x7d" :: (report :: node.valuesBelow) ++
        ["\\end\x7bverbatim\x7d"] ∧
      ¬Verbatim.IsWhole lines := by
  intro world node level lines report
  have hlines : lines = Verbatim.opening :: (report :: node.valuesBelow) ++
      [Verbatim.terminator] := by
    decide +kernel
  refine ⟨by decide +kernel, hlines, fun hwhole => ?_⟩
  rw [hlines, Verbatim.isWhole_iff] at hwhole
  exact hwhole report List.mem_cons_self (by decide +kernel)

end OutlineTex
