/-
Scripts reach nothing but their own lines.

What a script comes to is for the world to say, and two worlds may say different things: one
lets a script print what the other lets it fail on, or remembers the scripts before it in
another way. This file compares the renderings of one forest in two such worlds. They succeed
or fail alike, evaluate the same scripts, include the same files, end with the same in force,
and write the same lines but for those that stand for scripts.

Nearly all of it is that rendering is made of steps that do not ask how scripts come out. The
one step that does, running a script, notes its block and nothing else that is asked for later,
and writes lines of scripts only. It fails just where the evaluation of the script is broken off,
and then with this as the failure. So what is said here is said of renderings in which every script
that was evaluated was answered, by lines or by a fault.
-/
import OutlineTex.Proofs.Rendering.Comparison

set_option autoImplicit false

namespace OutlineTex

open OutlineTex.Decimal OutlineTex.Text
open Rendering

/-! ## Evaluations that are answered -/

/-- Every script that was evaluated came to lines or to a fault. An evaluation that is broken off
ends the step that it is part of. -/
def Outcome.Answered {α : Type} (outcome : Outcome α) : Prop :=
  ∀ cause, outcome.result ≠ .error (.brokenDown cause)

namespace Outcome.Answered

variable {α β : Type} {step : Rendering α} {next : α → Rendering β} {run : Run}

theorem of_ok {outcome : Outcome α} {a : α} (h : outcome.result = .ok a) : outcome.Answered := by
  intro cause hcause
  exact absurd (h.symm.trans hcause) (by simp)

/-- What is answered in a sequence of steps is answered in the first of them, -/
theorem first (h : ((step >>= next) run).Answered) : (step run).Answered := by
  intro cause hcause
  exact h cause (by rw [then_of_error hcause])

/-- and in the rest. -/
theorem rest {a : α} (h : ((step >>= next) run).Answered) (ha : (step run).result = .ok a) :
    (next a (step run).run).Answered := by
  intro cause hcause
  exact h cause (by rw [then_of_ok ha, hcause])

end Outcome.Answered

section Interpreters

variable {world : World} {executable : String} {timeout : Binary}
  (h : world.evaluator = .interpreter executable timeout) (block : ScriptBlock) (run : Run)
include h

/-- No process is started for a script with a NUL. -/
theorem World.evaluate_of_hasNul (hnul : (block.launch executable timeout).hasNul = true) :
    world.evaluate block run =
      ⟨.error (.brokenDown .nul), { run with scripts := run.scripts ++ [block] }, [],
        [.evaluating block.lines.length]⟩ := by
  obtain ⟨files, outlineSuffix, evaluator, processes⟩ := world
  obtain rfl : evaluator = .interpreter executable timeout := h
  simp only [evaluate, hnul, if_true]
  rfl

/-- For any other script there is one, and it decides what the script comes to. -/
theorem World.evaluate_of_launch {launch : Launch}
    (hlaunch : block.launch executable timeout = launch) (hstarted : launch.hasNul = false) :
    world.evaluate block run =
      ⟨(block.output launch (world.processes run.launches launch)).mapError .brokenDown,
        { run with scripts := run.scripts ++ [block], launches := run.launches ++ [launch] }, [],
        [.evaluating block.lines.length]⟩ := by
  obtain ⟨files, outlineSuffix, evaluator, processes⟩ := world
  obtain rfl : evaluator = .interpreter executable timeout := h
  simp only [evaluate, hlaunch, hstarted, if_false, Bool.false_eq_true]
  rfl

end Interpreters

/-- A block is noted, and nothing is written. If there is no answer, the evaluation was broken
off. -/
theorem World.evaluate_eq (world : World) (block : ScriptBlock) (run : Run) :
    ∃ (launches : List Launch) (events : List Event),
      let after : Run := { run with scripts := run.scripts ++ [block], launches }
      (∃ answer, world.evaluate block run = ⟨.ok answer, after, [], events⟩) ∨
        ∃ cause, world.evaluate block run = ⟨.error (.brokenDown cause), after, [], events⟩ := by
  cases hevaluator : world.evaluator with
  | disabled => exact ⟨run.launches, [], .inl ⟨_, by simp only [evaluate, hevaluator]; rfl⟩⟩
  | custom answer => exact ⟨run.launches, [], .inl ⟨_, by simp only [evaluate, hevaluator]; rfl⟩⟩
  | interpreter executable timeout =>
    cases hnul : (block.launch executable timeout).hasNul with
    | true => exact ⟨run.launches, _, .inr ⟨.nul, evaluate_of_hasNul hevaluator block run hnul⟩⟩
    | false =>
      have hended := evaluate_of_launch hevaluator block run rfl hnul
      cases houtput : block.output (block.launch executable timeout)
          (world.processes run.launches (block.launch executable timeout)) with
      | error cause => exact ⟨_, _, .inr ⟨cause, by rw [hended, houtput]; rfl⟩⟩
      | ok answer => exact ⟨_, _, .inl ⟨answer, by rw [hended, houtput]; rfl⟩⟩

/-- A script is noted, and what is written are lines of a script, whether it ran or not. It fails
the rendering only if its evaluation was broken off. -/
theorem runScript_eq (world : World) (source : String) (block : ScriptBlock) (run : Run) :
    ∃ (launches : List Launch) (events : List Event),
      let after : Run := { run with scripts := run.scripts ++ [block], launches }
      (∃ lines : List String, runScript world source block run =
          ⟨.ok (), after, (lines.map Line.script).map .line, events⟩) ∨
        ∃ cause, runScript world source block run =
          ⟨.error (.brokenDown cause), after, [], events⟩ := by
  obtain ⟨launches, events, ⟨answer, hanswer⟩ | ⟨cause, hcause⟩⟩ := world.evaluate_eq block run
  · rw [runScript, then_of_ok (congrArg Outcome.result hanswer), hanswer]
    cases answer with
    | ok lines => exact ⟨launches, _, .inl ⟨lines, rfl⟩⟩
    | error fault => exact ⟨launches, _, .inl ⟨diagnostic source block.lines fault, rfl⟩⟩
  · rw [runScript, then_of_error (congrArg Outcome.result hcause), hcause]
    exact ⟨launches, events, .inr ⟨cause, rfl⟩⟩

/-- The run behind a script differs from the one before it in the script and in processes. -/
theorem run_runScript (world : World) (source : String) (block : ScriptBlock) (run : Run) :
    ∃ launches, (runScript world source block run).run =
      { run with scripts := run.scripts ++ [block], launches } := by
  obtain ⟨launches, events, ⟨lines, hscript⟩ | ⟨cause, hscript⟩⟩ :=
    runScript_eq world source block run <;> exact ⟨launches, by rw [hscript]⟩

/-- A script that is answered does not fail. -/
theorem runScript_of_answered {world : World} {source : String} {block : ScriptBlock} {run : Run}
    (h : (runScript world source block run).Answered) :
    ∃ (lines : List String) (launches : List Launch) (events : List Event),
      runScript world source block run =
        ⟨.ok (), { run with scripts := run.scripts ++ [block], launches },
          (lines.map Line.script).map .line, events⟩ := by
  obtain ⟨launches, events, ⟨lines, hscript⟩ | ⟨cause, hscript⟩⟩ :=
    runScript_eq world source block run
  · exact ⟨lines, launches, events, hscript⟩
  · exact absurd (congrArg Outcome.result hscript) (h cause)

/-- The comparison, of a step with itself, that every script is answered. -/
def answering : Comparison := fun _ step _ =>
  ∀ run, (step run).Answered

namespace answering

theorem registering : answering.Registering where
  returning _ _ := .of_ok rfl
  inSequence {α β} first _ next _ hfirst hnext run := by
    intro cause hcause
    cases hresult : (first run).result with
    | error failure =>
      rw [then_of_error hresult] at hcause
      exact hfirst run cause (hresult.trans (congrArg _ (Except.error.inj hcause)))
    | ok a =>
      rw [then_of_ok hresult] at hcause
      exact hnext a _ cause hcause
  failing failure hfailure _ cause hcause := by
    rw [Except.error.inj hcause] at hfailure
    exact Bool.noConfusion hfailure
  restoring _ _ := .of_ok rfl
  writing _ _ _ := .of_ok rfl
  reporting _ _ _ _ := .of_ok rfl
  showing _ := .of_ok rfl
  asking hboth run := by
    intro cause hcause
    rw [then_of_ok rfl] at hcause
    exact hboth run run rfl rfl run cause hcause
  enclosing _ _ hstep := hstep
  marking _ _ := .of_ok rfl
  announcing _ _ _ := .of_ok rfl

end answering

/-- An evaluator that answers every block is one that no rendering is broken off by. -/
theorem World.answered_render {world : World}
    (h : ∀ block run, ∃ answer, (world.evaluate block run).result = .ok answer)
    (nodes : List Node) (depth : Nat) (setting : Setting) (run : Run) :
    (world.render nodes depth setting run).Answered := by
  have hjoins : answering.Joins world world := by
    refine ⟨fun {enter other level node verbose code} hdirective => ?_, fun path run => ?_⟩
    · simp only [dispatch, hdirective, carryOut]
      have hregistering := answering.registering
      refine hregistering.inSequence (fun _ => .of_ok rfl) fun _ => ?_
      refine hregistering.inSequence (fun run => ?_) fun _ => hregistering.returning _
      obtain ⟨answer, hanswer⟩ := h ⟨scriptLines code node, verbose⟩ run
      rw [runScript, then_of_ok hanswer]
      cases answer <;> exact .of_ok rfl
    · intro cause hcause
      exact absurd (Except.error.inj hcause) (by simp)
  exact answering.registering.rendersAlike ⟨rfl, rfl⟩ hjoins nodes depth setting run

/-! ## Outcomes that agree -/

/-- The lines of blocks that stand for no script. -/
def Block.unscripted (blocks : List Block) : List Line :=
  (linesOf blocks).filter (!·.isScript)

theorem Block.unscripted_append (first second : List Block) :
    unscripted (first ++ second) = unscripted first ++ unscripted second := by
  rw [unscripted, linesOf_append, List.filter_append]
  rfl

/-- Lines of scripts leave none. -/
theorem Block.unscripted_scripts (lines : List String) :
    unscripted ((lines.map Line.script).map .line) = [] := by
  rw [unscripted, linesOf_map_line, List.filter_eq_nil_iff]
  intro line hline
  obtain ⟨text, -, rfl⟩ := List.mem_map.mp hline
  simp [Line.isScript]

/-- Runs that differ at most in the processes that were started. -/
structure Run.Agrees (run other : Run) : Prop where
  included : run.included = other.included
  showPreliminary : run.showPreliminary = other.showPreliminary
  scripts : run.scripts = other.scripts

theorem Run.Agrees.refl (run : Run) : run.Agrees run :=
  ⟨rfl, rfl, rfl⟩

theorem Run.Agrees.mark {run other : Run} (h : run.Agrees other) (place : Location) :
    (run.mark place).Agrees (other.mark place) := by
  unfold Run.mark Run.hasIncluded
  rw [h.included]
  split
  · exact h
  · exact ⟨rfl, h.showPreliminary, h.scripts⟩

/-- Outcomes with the same value or failure, that evaluated the same scripts, in runs that
agree, with the same lines but for those of scripts. -/
structure Outcome.Agrees {α : Type} (first second : Outcome α) : Prop where
  result : first.result = second.result
  run : first.run.Agrees second.run
  lines : Block.unscripted first.blocks = Block.unscripted second.blocks

/-- Steps that come out alike wherever they begin alike, if all scripts are answered in both. -/
def alike : Comparison := fun _ first second =>
  ∀ run other, run.Agrees other → (first run).Answered → (second other).Answered →
    (first run).Agrees (second other)

namespace alike

theorem inSequence {α β : Type} {first second : Rendering α} {next other : α → Rendering β}
    (hsteps : alike α first second) (hnext : ∀ a, alike β (next a) (other a)) :
    alike β (first >>= next) (second >>= other) := by
  intro run run' hrun hanswered hanswered'
  obtain ⟨hresult, hafter, hlines⟩ := hsteps run run' hrun hanswered.first hanswered'.first
  -- both runs stop here or both go on, with the same value and in runs that agree
  cases hfirst : (first run).result with
  | error failure =>
    rw [then_of_error hfirst, then_of_error (hresult ▸ hfirst)]
    exact ⟨rfl, hafter, hlines⟩
  | ok a =>
    have hsecond : (second run').result = .ok a := hresult ▸ hfirst
    obtain ⟨hresult', hafter', hlines'⟩ :=
      hnext a _ _ hafter (hanswered.rest hfirst) (hanswered'.rest hsecond)
    rw [then_of_ok hfirst, then_of_ok hsecond]
    refine ⟨hresult', hafter', ?_⟩
    rw [Block.unscripted_append, Block.unscripted_append, hlines, hlines']

/-- Marking a file is seen by all later steps, and it is the same in both runs. -/
theorem marking (place : Location) :
    alike Unit (change (·.mark place)) (change (·.mark place)) :=
  fun _ _ hrun _ _ => ⟨rfl, hrun.mark place, rfl⟩

theorem registering : alike.Registering where
  returning _ _ _ hrun _ _ := ⟨rfl, hrun, rfl⟩
  inSequence := inSequence
  failing _ _ _ _ hrun _ _ := ⟨rfl, hrun, rfl⟩
  restoring _ _ _ hrun _ _ := ⟨rfl, hrun, rfl⟩
  writing _ _ _ _ hrun _ _ := ⟨rfl, hrun, rfl⟩
  reporting _ _ _ _ _ hrun _ _ := ⟨rfl, hrun, rfl⟩
  showing _ _ hrun _ _ := ⟨rfl, ⟨hrun.included, rfl, hrun.scripts⟩, rfl⟩
  asking hboth run other hrun hanswered hanswered' := by
    have hlooked := hboth run other hrun.included hrun.showPreliminary run other hrun
      (hanswered.rest rfl) (hanswered'.rest rfl)
    rw [then_of_ok rfl, then_of_ok rfl]
    exact ⟨hlooked.result, hlooked.run, hlooked.lines⟩
  enclosing wrap hwrap hsteps run other hrun hanswered hanswered' := by
    obtain ⟨hresult, hafter, hlines⟩ := hsteps run other hrun hanswered hanswered'
    refine ⟨hresult, hafter, ?_⟩
    show Block.unscripted [wrap _] = Block.unscripted [wrap _]
    rw [Block.unscripted, Block.unscripted, hwrap, hwrap]
    exact hlines
  marking := marking
  announcing _ _ _ _ hrun _ _ := ⟨rfl, hrun, rfl⟩

end alike

/-! ## Running a script -/

namespace alike

/-- Whatever the answer to a script, it is noted and its lines do not count. -/
theorem runScript (first second : World) (source : String) (block : ScriptBlock) :
    alike Unit (runScript first source block) (runScript second source block) := by
  intro run other hrun hanswered hanswered'
  obtain ⟨lines, launches, events, hfirst⟩ := runScript_of_answered hanswered
  obtain ⟨lines', launches', events', hsecond⟩ := runScript_of_answered hanswered'
  rw [hfirst, hsecond]
  refine ⟨rfl, ⟨hrun.included, hrun.showPreliminary, ?_⟩, ?_⟩
  · show run.scripts ++ [block] = other.scripts ++ [block]
    rw [hrun.scripts]
  · show Block.unscripted _ = Block.unscripted _
    rw [Block.unscripted_scripts, Block.unscripted_scripts]

theorem joins (first second : World) : alike.Joins first second where
  script hdirective := by
    simp only [dispatch, hdirective, carryOut]
    refine inSequence (fun _ _ hrun _ _ => ⟨rfl, hrun, rfl⟩) fun _ => ?_
    exact inSequence (runScript first second _ _) fun _ => registering.returning _
  endless _ _ _ hrun _ _ := ⟨rfl, hrun, rfl⟩

theorem renderSiblings {first second : World} (hworld : first.SharesFiles second) (room : Nat)
    (nodes : List Node) (level : Level) :
    alike Level (renderSiblings first (enterOutline first room) nodes level)
      (renderSiblings second (enterOutline second room) nodes level) :=
  registering.siblingsAlike hworld (joins first second) room nodes level

end alike

/-! ## Renderings -/

/-- **Scripts do not interfere.** In two worlds that differ only in how scripts are evaluated
and what becomes of processes, take the renderings of a forest from one run, and let every script be
answered in both, by lines or by a fault. They end with the same value or failure, in runs with the
same scripts, files and preliminary parts, and with the same lines once those of scripts are left
out. And no script that is answered fails the rendering by itself. -/
theorem unscripted_render (world : World) (evaluator : Evaluator) (processes : ProcessWorld)
    (nodes : List Node) (depth : Nat) (setting : Setting) (run : Run)
    (hanswered : (world.render nodes depth setting run).Answered)
    (hanswered' : ({ world with evaluator, processes }.render nodes depth setting run).Answered) :
    let first := world.render nodes depth setting run
    let second := { world with evaluator, processes }.render nodes depth setting run
    first.result = second.result ∧ first.run.scripts = second.run.scripts ∧
      first.run.included = second.run.included ∧
      first.run.showPreliminary = second.run.showPreliminary ∧
      (Block.linesOf first.blocks).filter (!·.isScript) =
        (Block.linesOf second.blocks).filter (!·.isScript) ∧
      ∀ source block after answer, (world.evaluate block after).result = .ok answer →
        (runScript world source block after).result = .ok () := by
  intro first second
  have hworld : world.SharesFiles { world with evaluator, processes } := ⟨rfl, rfl⟩
  have hsiblings := alike.renderSiblings hworld world.nestingBound nodes (.fresh depth setting)
  obtain ⟨hresult, hrun, hlines⟩ : first.Agrees second :=
    alike.inSequence hsiblings (fun level => alike.registering.returning _) run run (.refl run)
      hanswered hanswered'
  refine ⟨hresult, hrun.scripts, hrun.included, hrun.showPreliminary, hlines, ?_⟩
  intro source block after answer hanswer
  rw [runScript, then_of_ok hanswer]
  cases answer <;> rfl

/-- A world with an outline to include, in which the first script prints a line and no later one
comes to an end. -/
def World.printingOnce : World where
  files := ⟨["r"], [(["r"], .directory),
    (["r", "b.otl"], .file (Utf8.encode "B\n\t!ruby-verbose\n\t\tx = 2"))]⟩
  evaluator := .interpreter "python3" (.ofFraction false 30 1)
  processes := fun before _ => if before.isEmpty then .finished 0 "1\n" "" else .timedOut

/-- Two scripts, one of them in the outline that is included. Another evaluator, which knows how
many scripts there were, fails on the first of them and repeats the second. -/
theorem unscripted_render_nested :
    let evaluator : Evaluator := .custom fun before block =>
      if before.isEmpty then .error (.custom "no") else .ok block.lines
    let nodes := Outline.parse "a" ["A".toList, "\t!python print(1)".toList,
      "!include b.otl".toList, "C".toList]
    let setting : Setting := ⟨⟨[{ id := "N" }]⟩, true⟩
    let first := World.printingOnce.render nodes 0 setting {}
    let second := World.render ⟨World.printingOnce.files, World.printingOnce.outlineSuffix,
      evaluator, World.printingOnce.processes⟩ nodes 0 setting {}
    first.Answered ∧ second.Answered ∧ first.run.scripts = second.run.scripts ∧
      first.run.scripts.length = 2 ∧
      (Block.linesOf first.blocks).filter (!·.isScript) =
        (Block.linesOf second.blocks).filter (!·.isScript) ∧
      ((Block.linesOf first.blocks).filter (!·.isScript)).map Line.written =
        ["A % a:1", "% !include b.otl", "B % b.otl:1", "C % a:4"] := by
  intro evaluator nodes setting first second
  have hfirst : first.result = .ok setting := by decide +kernel
  -- the other evaluator has an answer to whatever it is asked
  have hsecond : second.Answered := World.answered_render (fun _ _ => ⟨_, rfl⟩) nodes 0 setting {}
  obtain ⟨-, hscripts, -, -, hlines, -⟩ := unscripted_render World.printingOnce evaluator
    World.printingOnce.processes nodes 0 setting {} (.of_ok hfirst) hsecond
  have hsame : first.run.scripts = second.run.scripts := by
    simpa only [first, second] using hscripts
  exact ⟨.of_ok hfirst, hsecond, hsame, by decide +kernel, hlines, by decide +kernel⟩

end OutlineTex
