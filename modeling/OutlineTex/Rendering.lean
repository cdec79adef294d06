/-
The steps of a rendering.

A run of the renderer shares a few things between all its levels: which files have been
included, whether preliminary parts are shown, and which scripts and processes there
were. A step reads and changes these, writes blocks, reports events, and ends with a
value or a failure. A failure stops everything after it, but what was reported and
changed up to there stays known.

What a step writes is kept apart from what was written before it: a step returns its own
blocks and events, and a sequence of steps returns theirs one after the other. So a step
cannot look at earlier output, let alone change it, and no lemma has to say so.
-/
import OutlineTex.Event
import OutlineTex.Line

set_option autoImplicit false

namespace OutlineTex

/-! ## What a run shares -/

/-- What all levels of a run share: the places of the files included so far, whether
preliminary parts are shown, and the scripts evaluated and processes started so far. -/
structure Run where
  included : List Location := []
  showPreliminary : Bool := false
  scripts : List ScriptBlock := []
  launches : List Launch := []
deriving Repr, Inhabited

/-- Whether a file has been included. -/
def Run.hasIncluded (run : Run) (place : Location) : Bool :=
  run.included.contains place

/-- The run in which a file has been included. -/
def Run.mark (run : Run) (place : Location) : Run :=
  if run.hasIncluded place then run else { run with included := run.included ++ [place] }

/-! ## Steps -/

/-- How a step ended: its value or failure, the run after it, what it wrote and what it
reported. -/
structure Outcome (α : Type) where
  result : Except Failure α
  run : Run
  blocks : List Block := []
  events : List Event := []

/-- A step of a rendering. -/
def Rendering (α : Type) : Type :=
  Run → Outcome α

/-- The outcome of a step followed by another that takes its value. -/
def Outcome.andThen {α β : Type} (first : Outcome α) (next : α → Rendering β) : Outcome β :=
  match first.result with
  | .error failure => ⟨.error failure, first.run, first.blocks, first.events⟩
  | .ok a =>
    let second := next a first.run
    ⟨second.result, second.run, first.blocks ++ second.blocks, first.events ++ second.events⟩

namespace Rendering

instance : Monad Rendering where
  pure a := fun run => ⟨.ok a, run, [], []⟩
  bind step next := fun run => (step run).andThen next

/-- The step that fails. -/
def fail {α : Type} (failure : Failure) : Rendering α :=
  fun run => ⟨.error failure, run, [], []⟩

/-- The step that ends as a computation ended. -/
def ofExcept {α : Type} (result : Except Failure α) : Rendering α :=
  fun run => ⟨result, run, [], []⟩

/-- The step that writes one block. -/
def write (block : Block) : Rendering Unit :=
  fun run => ⟨.ok (), run, [block], []⟩

/-- The step that writes one line. -/
def emit (line : Line) : Rendering Unit :=
  write (.line line)

/-- The step that writes lines. -/
def emitAll (lines : List Line) : Rendering Unit :=
  fun run => ⟨.ok (), run, lines.map .line, []⟩

/-- The step that reports an event. -/
def report (event : Event) : Rendering Unit :=
  fun run => ⟨.ok (), run, [], [event]⟩

/-- The step that looks at the run. -/
def look : Rendering Run :=
  fun run => ⟨.ok run, run, [], []⟩

/-- The step that changes the run. -/
def change (f : Run → Run) : Rendering Unit :=
  fun run => ⟨.ok (), f run, [], []⟩

/-- A step whose blocks are put into one. -/
def within {α : Type} (wrap : List Block → Block) (step : Rendering α) : Rendering α :=
  fun run =>
    let outcome := step run
    { outcome with blocks := [wrap outcome.blocks] }

/-- A step together with the blocks that it writes. -/
def listen {α : Type} (step : Rendering α) : Rendering (α × List Block) :=
  fun run =>
    let outcome := step run
    { outcome with result := outcome.result.map (·, outcome.blocks) }

/-! ## Sequences of steps

A sequence succeeds where both its steps do, and then writes what they write; where the
first step fails it ends there. A step that only returns a value is no step, and how
steps are grouped does not matter.
-/

/-- After a step that succeeds, the next one goes on in the run it leaves. -/
theorem then_of_ok {α β : Type} {step : Rendering α} {next : α → Rendering β} {run : Run}
    {a : α} (h : (step run).result = .ok a) :
    (step >>= next) run = {
      result := (next a (step run).run).result
      run := (next a (step run).run).run
      blocks := (step run).blocks ++ (next a (step run).run).blocks
      events := (step run).events ++ (next a (step run).run).events } := by
  simp only [bind, Outcome.andThen, h]

/-- After a step that fails, nothing follows. -/
theorem then_of_error {α β : Type} {step : Rendering α} {next : α → Rendering β} {run : Run}
    {failure : Failure} (h : (step run).result = .error failure) :
    (step >>= next) run =
      ⟨.error failure, (step run).run, (step run).blocks, (step run).events⟩ := by
  simp only [bind, Outcome.andThen, h]

/-- Returning the value of a step is no step. -/
theorem map_id_step {α : Type} (step : Rendering α) : id <$> step = step := by
  funext run
  show Outcome.andThen (step run) (fun a run => ⟨.ok a, run, [], []⟩) = step run
  obtain ⟨result, after, blocks, events⟩ := step run
  cases result <;> simp [Outcome.andThen]

/-- A step that only returns a value is no step. -/
theorem pure_then {α β : Type} (a : α) (next : α → Rendering β) : (pure a >>= next) = next a := by
  funext run
  simp [bind, pure, Outcome.andThen]

/-- The last step sees the run that the other two leave, however they are grouped. -/
theorem then_assoc {α β γ : Type} (step : Rendering α) (next : α → Rendering β)
    (last : β → Rendering γ) :
    (step >>= next >>= last) = (step >>= fun a => next a >>= last) := by
  funext run
  simp only [bind, Outcome.andThen]
  cases (step run).result with
  | error failure => rfl
  | ok a =>
    simp only
    cases (next a (step run).run).result <;> simp

instance : LawfulMonad Rendering :=
  LawfulMonad.mk' Rendering map_id_step pure_then then_assoc

end Rendering

end OutlineTex
