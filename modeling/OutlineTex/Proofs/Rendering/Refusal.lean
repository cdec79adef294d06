/-
Scripts that are not run.

Where scripts are disabled, a script leaves a note in its place: that it was not evaluated, at which
line, and its own lines as they stand. This file compares the renderings of one forest in two
worlds. In the first one scripts are disabled, and in the second one each of them runs in a process
of its own, whatever becomes of the processes.

What the two renderings share is a sequence of pieces, in document order: the lines that stand for
no script, and the scripts that rendering comes to, wherever they are included from. Read in one
way, in which scripts are refused, the pieces are what the first rendering writes. Read in another
way, in which they are performed one after the other, they are what the second one writes, and
nothing else is different. But performing the pieces may break off, at a script that no process can
be given or at a process that wrote no text. Then this is what the second rendering fails with,
while the first one goes on.
-/
import OutlineTex.Proofs.Rendering.Arrivals
import OutlineTex.Proofs.Rendering.Scripts
import OutlineTex.Proofs.Preamble.Agreement

set_option autoImplicit false

namespace OutlineTex

open OutlineTex.Decimal
open Rendering

/-! ## Pieces -/

/-- The script that an event says was recognised: its node, whether it is to be shown, and its own
text. -/
def Event.script? : Event → Option (Node × Bool × String)
  | .recognised node (.script verbose code) => some (node, verbose, code)
  | _ => none

theorem Event.script?_eq_none {event : Event} (h : event.announcesScript = false) :
    event.script? = none := by
  unfold announcesScript at h
  unfold script?
  split <;> simp_all

/-- The scripts that a step comes to, in order. -/
def Outcome.scriptNodes {α : Type} (outcome : Outcome α) : List (Node × Bool × String) :=
  outcome.events.filterMap Event.script?

/-- A piece of what a rendering writes: a line that stands for no script, or what stands for a
script, with the node that the script is. -/
inductive Piece
  | line (own : Line)
  | script (node : Node) (verbose : Bool) (code : String)

namespace Piece

/-- The script of a piece, if it is one. -/
def script? : Piece → Option (Node × Bool × String)
  | .line _ => none
  | .script node verbose code => some (node, verbose, code)

/-- The lines of a piece where scripts are refused, given what is noted for a script, by its node
and its own text. -/
def refused (note : Node → String → List String) : Piece → List Line
  | .line own => [own]
  | .script node _ code => (note node code).map .script

/-- The lines that stand for a script whose process has come to an end. There are none if it could
not be started with the script, or if what it wrote is no text. -/
def answered (source : String) (block : ScriptBlock) (launch : Launch) (ending : Ending) :
    Except Breakdown (List Line) :=
  if launch.hasNul then .error .nul
  else (block.output launch ending).map fun answer =>
    match answer with
    | .ok lines => lines.map .script
    | .error fault => (diagnostic source block.lines fault).map .script

variable (executable : String) (timeout : Binary) (processes : ProcessWorld)

/-- The process that the script of a piece runs in. -/
def launch? : Piece → Option Launch
  | .line _ => none
  | .script node verbose code =>
    some ((⟨scriptLines code node, verbose⟩ : ScriptBlock).launch executable timeout)

/-- The lines of pieces where every script runs in a process of its own, given the processes that
were started before. It breaks off at the first script that there are no lines for. -/
def performed : List Launch → List Piece → Except Breakdown (List Line)
  | _, [] => return []
  | before, .line own :: rest => do
    let further ← performed before rest
    return own :: further
  | before, .script node verbose code :: rest => do
    let block : ScriptBlock := ⟨scriptLines code node, verbose⟩
    let launch := block.launch executable timeout
    let own ← answered node.source block launch (processes before launch)
    let further ← performed (before ++ [launch]) rest
    return own ++ further

/-- Further pieces are performed behind the processes that the first ones have started. -/
theorem performed_append (before : List Launch) (first second : List Piece) :
    performed executable timeout processes before (first ++ second) = (do
      let own ← performed executable timeout processes before first
      let further ← performed executable timeout processes
        (before ++ first.filterMap (launch? executable timeout)) second
      return own ++ further) := by
  induction first generalizing before with
  | nil => simp only [List.nil_append, performed, pure_bind, List.filterMap_nil, List.append_nil,
      bind_pure]
  | cons piece rest ih =>
    cases piece with
    | line own =>
      have hlaunches : (line own :: rest).filterMap (launch? executable timeout) =
          rest.filterMap (launch? executable timeout) := rfl
      simp only [List.cons_append, performed, ih, hlaunches, bind_assoc, pure_bind]
    | script node verbose code =>
      -- the process of the script is the first one that the pieces start
      have hlaunches : (script node verbose code :: rest).filterMap (launch? executable timeout) =
          (⟨scriptLines code node, verbose⟩ : ScriptBlock).launch executable timeout ::
            rest.filterMap (launch? executable timeout) := rfl
      simp only [List.cons_append, performed, ih, hlaunches, bind_assoc, pure_bind,
        List.append_assoc, List.nil_append]

/-- Lines that stand for no script are the same either way. -/
theorem refused_lines (note : Node → String → List String) (lines : List Line) :
    (lines.map Piece.line).flatMap (refused note) = lines := by
  induction lines with
  | nil => rfl
  | cons own rest ih => rw [List.map_cons, List.flatMap_cons, ih, refused, List.singleton_append]

theorem performed_lines (before : List Launch) (lines : List Line) :
    performed executable timeout processes before (lines.map .line) = .ok lines := by
  induction lines with
  | nil => rfl
  | cons own rest ih =>
    rw [List.map_cons, performed, ih]
    rfl

end Piece

/-- What is noted for a script where scripts are disabled. -/
def disabledNote (node : Node) (code : String) : List String :=
  diagnostic node.source (scriptLines code node) .disabled

/-! ## Outcomes that share their pieces -/

section Refusing

/-- A step of the first rendering writes pieces with their scripts refused, and starts no
process. -/
structure Outcome.Refuses {α : Type} (outcome : Outcome α) (run : Run) (pieces : List Piece) :
    Prop where
  refused : Block.linesOf outcome.blocks = pieces.flatMap (Piece.refused disabledNote)
  scripts : outcome.scriptNodes = pieces.filterMap Piece.script?
  idle : outcome.run.launches = run.launches
  lines : ∀ own, .line own ∈ pieces → own.isScript = false

/-- An outcome with the value or failure of another one, in a run that agrees, with these lines and
these processes started. -/
structure Outcome.Follows {α : Type} (first second : Outcome α) (written : List Line)
    (launches : List Launch) : Prop where
  result : first.result = second.result
  run : first.run.Agrees second.run
  lines : Block.linesOf second.blocks = written
  launches : second.run.launches = launches

/-- An outcome of what is broken off, with none but these processes started. -/
structure Outcome.BreaksOff {α : Type} (outcome : Outcome α) (cause : Breakdown)
    (launches : List Launch) : Prop where
  result : outcome.result = .error (.brokenDown cause)
  launches : outcome.run.launches <+: launches

variable (executable : String) (timeout : Binary) (processes : ProcessWorld)

/-- A step of the second rendering, which began in the given run, performs pieces. It does what a
step of the first rendering does, unless performing them breaks off. -/
structure Outcome.Performs {α : Type} (first second : Outcome α) (run : Run) (pieces : List Piece) :
    Prop where
  follows : ∀ written,
    Piece.performed executable timeout processes run.launches pieces = .ok written →
    first.Follows second written
      (run.launches ++ pieces.filterMap (Piece.launch? executable timeout))
  breaksOff : ∀ cause,
    Piece.performed executable timeout processes run.launches pieces = .error cause →
    second.BreaksOff cause (run.launches ++ pieces.filterMap (Piece.launch? executable timeout))

/-- Steps that come to the same pieces wherever they begin alike. The scripts among these are
refused by the first one and performed by the second. -/
def refusing : Comparison := fun _ first second =>
  ∀ run other, run.Agrees other → ∃ pieces, (first run).Refuses run pieces ∧
    (first run).Performs executable timeout processes (second other) other pieces

/-- Marking a file starts no process. -/
theorem Run.launches_mark (run : Run) (place : Location) :
    (run.mark place).launches = run.launches := by
  unfold mark
  split <;> rfl

namespace Outcome.Refuses

variable {α β : Type} {step : Rendering α} {next : α → Rendering β} {run : Run}
  {pieces further : List Piece}

/-- A step that writes nothing, starts no process and comes to no script. -/
theorem of_silent {result : Except Failure α} {after : Run} {events : List Event}
    (hevents : ∀ event ∈ events, event.script? = none) (hrun : after.launches = run.launches) :
    (⟨result, after, [], events⟩ : Outcome α).Refuses run [] where
  refused := rfl
  scripts := List.filterMap_eq_nil_iff.mpr hevents
  idle := hrun
  lines _ hmem := absurd hmem List.not_mem_nil

theorem stopping (h : (step run).Refuses run pieces) {failure : Failure}
    (hresult : (step run).result = .error failure) : ((step >>= next) run).Refuses run pieces := by
  rw [then_of_error hresult]
  exact ⟨h.refused, h.scripts, h.idle, h.lines⟩

/-- The pieces of a sequence of steps are those of its steps, one after the other. -/
theorem continuing (h : (step run).Refuses run pieces) {a : α} (hresult : (step run).result = .ok a)
    (hnext : (next a (step run).run).Refuses (step run).run further) :
    ((step >>= next) run).Refuses run (pieces ++ further) := by
  rw [then_of_ok hresult]
  refine ⟨?_, ?_, hnext.idle.trans h.idle, fun own hown => ?_⟩
  · rw [Block.linesOf_append, h.refused, hnext.refused, List.flatMap_append]
  · rw [List.filterMap_append, ← h.scripts, ← hnext.scripts]
    exact List.filterMap_append
  · exact (List.mem_append.mp hown).elim (h.lines own) (hnext.lines own)

end Outcome.Refuses

namespace Outcome.Performs

variable {executable timeout processes} {α β : Type} {first second : Rendering α}
  {next other : α → Rendering β} {run run' : Run} {pieces further : List Piece}

theorem of_ok {one two : Outcome α} {written : List Line}
    (hperformed : Piece.performed executable timeout processes run'.launches pieces = .ok written)
    (h : one.Follows two written
      (run'.launches ++ pieces.filterMap (Piece.launch? executable timeout))) :
    one.Performs executable timeout processes two run' pieces where
  follows other hother := Except.ok.inj (hperformed.symm.trans hother) ▸ h
  breaksOff cause hcause := absurd (hperformed.symm.trans hcause) (by simp)

theorem of_error {one two : Outcome α} {cause : Breakdown}
    (hperformed : Piece.performed executable timeout processes run'.launches pieces = .error cause)
    (h : two.BreaksOff cause
      (run'.launches ++ pieces.filterMap (Piece.launch? executable timeout))) :
    one.Performs executable timeout processes two run' pieces where
  follows written hwritten := absurd (hperformed.symm.trans hwritten) (by simp)
  breaksOff other hother := Except.error.inj (hperformed.symm.trans hother) ▸ h

/-- A step that writes nothing and starts no process performs nothing. -/
theorem of_silent {result : Except Failure α} {after after' : Run} {events events' : List Event}
    (hafter : after.Agrees after') (hlaunches : after'.launches = run'.launches) :
    (⟨result, after, [], events⟩ : Outcome α).Performs executable timeout processes
      ⟨result, after', [], events'⟩ run' [] :=
  of_ok rfl ⟨rfl, hafter, rfl, hlaunches.trans (List.append_nil _).symm⟩

/-- If the first step fails, nothing is performed after it. -/
theorem stopping
    (h : (first run).Performs executable timeout processes (second run') run' pieces)
    {failure : Failure} (hresult : (first run).result = .error failure) :
    ((first >>= next) run).Performs executable timeout processes ((second >>= other) run') run'
      pieces := by
  cases hperformed : Piece.performed executable timeout processes run'.launches pieces with
  | error cause =>
    have hbroken := h.breaksOff cause hperformed
    rw [then_of_error hbroken.result]
    exact of_error hperformed ⟨rfl, hbroken.launches⟩
  | ok written =>
    have hfollows := h.follows written hperformed
    rw [then_of_error hresult, then_of_error (hfollows.result ▸ hresult)]
    exact of_ok hperformed ⟨rfl, hfollows.run, hfollows.lines, hfollows.launches⟩

/-- If performing the first pieces breaks off, further ones make no difference. -/
theorem breaking {cause : Breakdown}
    (h : (first run).Performs executable timeout processes (second run') run' pieces)
    (hperformed : Piece.performed executable timeout processes run'.launches pieces =
      .error cause) (further : List Piece) :
    ((first >>= next) run).Performs executable timeout processes ((second >>= other) run') run'
      (pieces ++ further) := by
  have hbroken := h.breaksOff cause hperformed
  rw [then_of_error hbroken.result]
  refine of_error ?_ ⟨rfl, hbroken.launches.trans ?_⟩
  · rw [Piece.performed_append, hperformed]
    rfl
  · rw [List.filterMap_append, ← List.append_assoc]
    exact List.prefix_append _ _

/-- Otherwise further ones are performed behind the processes that the first ones have started. -/
theorem continuing {written : List Line}
    (h : (first run).Performs executable timeout processes (second run') run' pieces)
    (hperformed : Piece.performed executable timeout processes run'.launches pieces = .ok written)
    {a : α} (hresult : (first run).result = .ok a)
    (hnext : (next a (first run).run).Performs executable timeout processes
      (other a (second run').run) (second run').run further) :
    ((first >>= next) run).Performs executable timeout processes ((second >>= other) run') run'
      (pieces ++ further) := by
  have hfollows := h.follows written hperformed
  have hlaunches : run'.launches ++ (pieces ++ further).filterMap (Piece.launch? executable timeout)
      = (second run').run.launches ++ further.filterMap (Piece.launch? executable timeout) := by
    rw [hfollows.launches, List.filterMap_append, List.append_assoc]
  rw [then_of_ok hresult, then_of_ok (hfollows.result ▸ hresult)]
  cases hfurther : Piece.performed executable timeout processes (second run').run.launches
      further with
  | error cause =>
    have hbroken := hnext.breaksOff cause hfurther
    refine of_error ?_ ⟨hbroken.result, hlaunches ▸ hbroken.launches⟩
    rw [Piece.performed_append, hperformed, ← hfollows.launches, hfurther]
    rfl
  | ok behind =>
    have hbehind := hnext.follows behind hfurther
    have hboth : Piece.performed executable timeout processes run'.launches (pieces ++ further) =
        .ok (written ++ behind) := by
      rw [Piece.performed_append, hperformed, ← hfollows.launches, hfurther]
      rfl
    refine of_ok hboth ⟨hbehind.result, hbehind.run, ?_, hlaunches ▸ hbehind.launches⟩
    rw [Block.linesOf_append, hfollows.lines, hbehind.lines]

end Outcome.Performs

namespace refusing

variable {executable timeout processes}

/-- A step that is silent in both renderings comes to no pieces. -/
theorem of_silent {α : Type} {first second : Rendering α}
    (h : ∀ run other, run.Agrees other → ∃ result after after' events events',
      first run = ⟨result, after, [], events⟩ ∧ second other = ⟨result, after', [], events'⟩ ∧
        (∀ event ∈ events, event.script? = none) ∧ after.Agrees after' ∧
        after.launches = run.launches ∧ after'.launches = other.launches) :
    refusing executable timeout processes α first second := by
  intro run other hrun
  obtain ⟨result, after, after', events, events', hfirst, hsecond, hevents, hafter, hidle,
    hlaunches⟩ := h run other hrun
  rw [hfirst, hsecond]
  exact ⟨[], .of_silent hevents hidle, .of_silent hafter hlaunches⟩

/-- If the second rendering has been broken off, the first one goes on, and then its further pieces
count as well. -/
theorem inSequence {α β : Type} {first second : Rendering α} {next other : α → Rendering β}
    (hsteps : refusing executable timeout processes α first second)
    (hnext : ∀ a, refusing executable timeout processes β (next a) (other a)) :
    refusing executable timeout processes β (first >>= next) (second >>= other) := by
  intro run run' hrun
  obtain ⟨pieces, hrefuses, hperforms⟩ := hsteps run run' hrun
  cases hresult : (first run).result with
  | error failure => exact ⟨pieces, hrefuses.stopping hresult, hperforms.stopping hresult⟩
  | ok a =>
    cases hperformed : Piece.performed executable timeout processes run'.launches pieces with
    | error cause =>
      obtain ⟨further, hfurther, -⟩ := hnext a (first run).run (first run).run (.refl _)
      exact ⟨pieces ++ further, hrefuses.continuing hresult hfurther,
        hperforms.breaking hperformed further⟩
    | ok written =>
      obtain ⟨further, hfurther, hbehind⟩ :=
        hnext a _ _ (hperforms.follows written hperformed).run
      exact ⟨pieces ++ further, hrefuses.continuing hresult hfurther,
        hperforms.continuing hperformed hresult hbehind⟩

/-- A line that stands for no script is a piece by itself. -/
theorem writing {lines : List Line} (hlines : ∀ line ∈ lines, line.isScript = false) :
    refusing executable timeout processes Unit (emitAll lines) (emitAll lines) := by
  intro run other hrun
  have hnone : (lines.map Piece.line).filterMap Piece.script? = [] ∧
      (lines.map Piece.line).filterMap (Piece.launch? executable timeout) = [] := by
    simp [Piece.script?, Piece.launch?, List.filterMap_map, Function.comp_def]
  refine ⟨lines.map .line, ⟨?_, hnone.1.symm, rfl, fun own hown => ?_⟩, ?_⟩
  · rw [Piece.refused_lines]
    exact Block.linesOf_map_line lines
  · obtain ⟨line, hline, heq⟩ := List.mem_map.mp hown
    rw [← Piece.line.inj heq]
    exact hlines line hline
  · refine .of_ok (Piece.performed_lines _ _ _ _ _)
      ⟨rfl, hrun, Block.linesOf_map_line lines, ?_⟩
    rw [hnone.2, List.append_nil]
    rfl

theorem registering : (refusing executable timeout processes).Registering where
  returning a := of_silent fun _ _ hrun =>
    ⟨.ok a, _, _, [], [], rfl, rfl, by simp, hrun, rfl, rfl⟩
  inSequence := inSequence
  failing failure _ := of_silent fun _ _ hrun =>
    ⟨.error failure, _, _, [], [], rfl, rfl, by simp, hrun, rfl, rfl⟩
  restoring styles := of_silent fun _ _ hrun =>
    ⟨.ok (), _, _, _, _, rfl, rfl, by simp [Event.script?], hrun, rfl, rfl⟩
  writing _ hlines := writing hlines
  reporting event _ hscript := of_silent fun _ _ hrun =>
    ⟨.ok (), _, _, _, _, rfl, rfl, by simpa using Event.script?_eq_none hscript, hrun, rfl, rfl⟩
  showing := of_silent fun _ _ hrun => ⟨.ok (), _, _, [], [], rfl, rfl, by simp,
    ⟨hrun.included, rfl, hrun.scripts⟩, rfl, rfl⟩
  asking hboth run other hrun := by
    obtain ⟨pieces, hrefuses, hperforms⟩ :=
      hboth run other hrun.included hrun.showPreliminary run other hrun
    rw [then_of_ok rfl, then_of_ok rfl]
    exact ⟨pieces, hrefuses, hperforms⟩
  enclosing wrap hwrap hsteps run other hrun := by
    obtain ⟨pieces, hrefuses, hperforms⟩ := hsteps run other hrun
    refine ⟨pieces, ⟨(hwrap _).trans hrefuses.refused, hrefuses.scripts, hrefuses.idle,
      hrefuses.lines⟩, fun written hwritten => ?_, fun cause hcause => ?_⟩
    · obtain ⟨hresult, hafter, hlines, hlaunches⟩ := hperforms.follows written hwritten
      exact ⟨hresult, hafter, (hwrap _).trans hlines, hlaunches⟩
    · obtain ⟨hresult, hlaunches⟩ := hperforms.breaksOff cause hcause
      exact ⟨hresult, hlaunches⟩
  marking place := of_silent fun run other hrun => ⟨.ok (), _, _, [], [], rfl, rfl, by simp,
    hrun.mark place, run.launches_mark place, other.launches_mark place⟩
  announcing event hscript := of_silent fun _ _ hrun =>
    ⟨.ok (), _, _, _, _, rfl, rfl, by simpa using Event.script?_eq_none hscript, hrun, rfl, rfl⟩

end refusing

/-! ## Running a script -/

/-- Where scripts are disabled, what is noted for a script is written at once. -/
theorem runScript_disabled {world : World} (h : world.evaluator = .disabled) (source : String)
    (block : ScriptBlock) (run : Run) : runScript world source block run =
      ⟨.ok (), { run with scripts := run.scripts ++ [block] },
        ((diagnostic source block.lines .disabled).map Line.script).map .line,
        [.scriptFailed source .disabled]⟩ := by
  obtain ⟨files, outlineSuffix, evaluator, processes⟩ := world
  obtain rfl : evaluator = .disabled := h
  rfl

section Interpreters

variable {executable timeout} {world : World}
  (h : world.evaluator = .interpreter executable timeout) {source : String} {block : ScriptBlock}
  {launch : Launch} (hlaunch : block.launch executable timeout = launch) {run : Run}
include h hlaunch

/-- Where scripts run in processes, what is written is what the process came to, -/
theorem runScript_of_lines {lines : List Line}
    (hanswered : Piece.answered source block launch (world.processes run.launches launch) =
      .ok lines) :
    ∃ events, runScript world source block run =
      ⟨.ok (), { run with
          scripts := run.scripts ++ [block], launches := run.launches ++ [launch] },
        lines.map .line, events⟩ := by
  unfold Piece.answered at hanswered
  cases hnul : launch.hasNul with
  | true => simp [hnul] at hanswered
  | false =>
    have hended := World.evaluate_of_launch h block run hlaunch hnul
    simp only [hnul, Bool.false_eq_true, if_false] at hanswered
    cases houtput : block.output launch (world.processes run.launches launch) with
    | error cause =>
      rw [houtput] at hanswered
      exact absurd hanswered (by simp [Except.map])
    | ok answer =>
      rw [houtput] at hanswered hended
      obtain rfl := Except.ok.inj hanswered
      rw [runScript, then_of_ok (congrArg Outcome.result hended), hended]
      cases answer with
      | ok lines => exact ⟨_, rfl⟩
      | error fault => exact ⟨_, rfl⟩

/-- and where it came to nothing, the rendering is broken off. -/
theorem runScript_of_breakdown {cause : Breakdown}
    (hanswered : Piece.answered source block launch (world.processes run.launches launch) =
      .error cause) :
    ∃ launches events, launches <+: run.launches ++ [launch] ∧ runScript world source block run =
      ⟨.error (.brokenDown cause), { run with scripts := run.scripts ++ [block], launches }, [],
        events⟩ := by
  unfold Piece.answered at hanswered
  cases hnul : launch.hasNul with
  | true =>
    have hfails := World.evaluate_of_hasNul h block run (hlaunch ▸ hnul)
    obtain rfl : .nul = cause := by simpa [hnul] using hanswered
    refine ⟨run.launches, [.evaluating block.lines.length], List.prefix_append _ _, ?_⟩
    rw [runScript, then_of_error (congrArg Outcome.result hfails), hfails]
  | false =>
    have hended := World.evaluate_of_launch h block run hlaunch hnul
    simp only [hnul, Bool.false_eq_true, if_false] at hanswered
    cases houtput : block.output launch (world.processes run.launches launch) with
    | error other =>
      rw [houtput] at hanswered hended
      obtain rfl : other = cause := Except.error.inj hanswered
      refine ⟨run.launches ++ [launch], [.evaluating block.lines.length], List.prefix_refl _, ?_⟩
      rw [runScript, then_of_error (congrArg Outcome.result hended), hended]
    | ok answer =>
      rw [houtput] at hanswered
      exact absurd hanswered (by simp [Except.map])

end Interpreters

/-- A script is a piece by itself. -/
theorem refusing.joins {first second : World} (hoff : first.evaluator = .disabled)
    (hon : second.evaluator = .interpreter executable timeout) :
    (refusing executable timeout second.processes).Joins first second where
  script {enter other level node verbose code} hdirective := by
    intro run run' hrun
    rw [dispatch_of_directive first enter hdirective, dispatch_of_directive second other hdirective,
      carryOut_script, carryOut_script, runScript_disabled hoff]
    refine ⟨[.script node verbose code], ⟨?_, rfl, rfl, fun own hown => ?_⟩, ?_⟩
    · rw [List.flatMap_singleton]
      exact Block.linesOf_map_line _
    · exact absurd (List.mem_singleton.mp hown) (by simp)
    · have hperformed : Piece.performed executable timeout second.processes run'.launches
          [.script node verbose code] = Piece.answered node.source ⟨scriptLines code node, verbose⟩
            (ScriptBlock.launch ⟨scriptLines code node, verbose⟩ executable timeout)
            (second.processes run'.launches
              (ScriptBlock.launch ⟨scriptLines code node, verbose⟩ executable timeout)) := by
        simp only [Piece.performed, pure_bind, List.append_nil, bind_pure]
      refine ⟨fun lines hlines => ?_, fun cause hcause => ?_⟩
      · obtain ⟨events, hscript⟩ := runScript_of_lines hon rfl (hperformed.symm.trans hlines)
        rw [hscript]
        exact ⟨rfl, ⟨hrun.included, hrun.showPreliminary, congrArg (· ++ _) hrun.scripts⟩,
          Block.linesOf_map_line lines, rfl⟩
      · obtain ⟨launches, events, hlaunches, hscript⟩ :=
          runScript_of_breakdown hon rfl (hperformed.symm.trans hcause)
        rw [hscript]
        exact ⟨rfl, hlaunches⟩
  endless path := of_silent fun _ _ hrun =>
    ⟨.error (.endlessInclusion path), _, _, [], [], rfl, rfl, by simp, hrun, rfl, rfl⟩

end Refusing

/-! ## Conversions -/

end OutlineTex
