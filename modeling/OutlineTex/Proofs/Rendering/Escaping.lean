/-
Escaping changes texts and nothing else.

Whether escaping is on decides how the text of a line is written, and in which state of math a level
goes on. Nothing that a rendering does otherwise looks at either. So two renderings that begin with
escaping on and with escaping off go side by side: they ask the world for the same things, report
the same, fail alike or not at all, and write the same lines but for the texts.

The two do not go through the same levels, because what differs is part of a level, and so the steps
that are compared here end with values of their own. What is kept is that these are alike: levels
but for escaping and math, settings but for escaping, verdicts but for the escaping behind included
files. A step that looks at none of this is next to itself, and for the rest there is one rule for
sequences and one for levels within levels.
-/
import Mathlib.Data.List.Forall2
import OutlineTex.Proofs.Rendering.Steps

set_option autoImplicit false

namespace OutlineTex

open Rendering

/-! ## Lines that are alike -/

/-- Two lines are alike if they are the same, or are one line of the outline but for whether, and
from which state of math, its text is escaped. -/
inductive Line.Alike : Line → Line → Prop
  | same (line : Line) : Alike line line
  | text (line : TextLine) (escapedFrom : Option Bool) :
      Alike (.content line) (.content { line with escapedFrom })

namespace TextLine

/-- What is written in front of the text of a line: its depth, what the style puts there, and the
beginning of a link. -/
def front (line : TextLine) : String :=
  tabs line.depth ++ line.before ++
    match line.address with
    | some address => s!"\\href\x7b{linkTarget address}\x7d\x7b"
    | none => ""

/-- What is written behind the text of a line: the end of a link, what the style puts there, and
where the line comes from. -/
def back (line : TextLine) : String :=
  (if line.address.isSome then "\x7d" else "") ++ line.after ++ s!" % {line.source}"

/-- A line is written with its text between what stands in front of it and behind it. -/
theorem written_eq (line : TextLine) : line.written = line.front ++ line.body ++ line.back := by
  unfold written front back linked
  cases line.address with
  | none => simp [String.append_assoc, toString]
  | some address => simp [String.append_assoc, toString]

end TextLine

/-! ## Steps that are alike -/

/-- Results that are alike: both failed with one failure, or both have values that are related. -/
inductive ResultsAlike {α β : Type} (related : α → β → Prop) :
    Except Failure α → Except Failure β → Prop
  | ok {a : α} {b : β} (h : related a b) : ResultsAlike related (.ok a) (.ok b)
  | error (failure : Failure) : ResultsAlike related (.error failure) (.error failure)

/-- Outcomes that are alike: what was done to the run and what was reported is the same, and the
results and the lines are alike. -/
structure Outcome.Alike {α β : Type} (related : α → β → Prop) (first : Outcome α)
    (second : Outcome β) : Prop where
  result : ResultsAlike related first.result second.result
  run : first.run = second.run
  events : first.events = second.events
  lines : List.Forall₂ Line.Alike (Block.linesOf first.blocks) (Block.linesOf second.blocks)

/-- Steps that are alike, wherever they begin. -/
def Rendering.Alike {α β : Type} (related : α → β → Prop) (first : Rendering α)
    (second : Rendering β) : Prop :=
  ∀ run, (first run).Alike related (second run)

namespace Rendering.Alike

variable {α β γ δ : Type} {related : α → β → Prop} {related' : γ → δ → Prop}

/-- A step is like itself. -/
theorem same {related : α → α → Prop} (h : ∀ a, related a a) (step : Rendering α) :
    Rendering.Alike related step step := by
  intro run
  refine ⟨?_, rfl, rfl, List.forall₂_same.mpr fun line _ => .same line⟩
  cases (step run).result with
  | ok a => exact .ok (h a)
  | error failure => exact .error failure

theorem returning {a : α} {b : β} (h : related a b) :
    Rendering.Alike related (pure a) (pure b) :=
  fun _ => ⟨.ok h, rfl, rfl, .nil⟩

/-- The line of one level is like the line of the other. -/
theorem emit {line other : Line} (h : line.Alike other) :
    Rendering.Alike Eq (emit line) (emit other) :=
  fun _ => ⟨.ok rfl, rfl, rfl, .cons h .nil⟩

/-- Steps one after the other are alike if the first ones are, and the next ones whenever they go on
with values that are related. -/
theorem inSequence {first : Rendering α} {second : Rendering β} {next : α → Rendering γ}
    {other : β → Rendering δ} (h : Rendering.Alike related first second)
    (hnext : ∀ a b, related a b → Rendering.Alike related' (next a) (other b)) :
    Rendering.Alike related' (first >>= next) (second >>= other) := by
  intro run
  obtain ⟨hresult, hrun, hevents, hlines⟩ := h run
  generalize hfirst : (first run).result = ended at hresult
  generalize hsecond : (second run).result = ended' at hresult
  cases hresult with
  | error failure =>
    rw [then_of_error hfirst, then_of_error hsecond]
    exact ⟨.error failure, hrun, hevents, hlines⟩
  | ok hvalues =>
    -- the next steps begin in one run, so they are alike there
    have hboth := hnext _ _ hvalues (first run).run
    rw [then_of_ok hfirst, then_of_ok hsecond, ← hrun, ← hevents]
    refine ⟨hboth.result, hboth.run, congrArg ((first run).events ++ ·) hboth.events, ?_⟩
    rw [Block.linesOf_append, Block.linesOf_append]
    exact List.rel_append hlines hboth.lines

/-- After one and the same step only what follows is compared. -/
theorem after {next : α → Rendering γ} {other : α → Rendering δ} (step : Rendering α)
    (hnext : ∀ a, Rendering.Alike related' (next a) (other a)) :
    Rendering.Alike related' (step >>= next) (step >>= other) := by
  refine inSequence (same (fun _ => rfl) step) fun a b hab => ?_
  obtain rfl : a = b := hab
  exact hnext a

/-- What is put into a block keeps its lines. -/
theorem enclosing {first : Rendering α} {second : Rendering β} {wrap : List Block → Block}
    {outer depth : Nat} (hwrap : Enclosure outer wrap depth)
    (h : Rendering.Alike related first second) :
    Rendering.Alike related (within wrap first) (within wrap second) := by
  intro run
  obtain ⟨hresult, hrun, hevents, hlines⟩ := h run
  refine ⟨hresult, hrun, hevents, ?_⟩
  show List.Forall₂ Line.Alike (Block.linesOf [wrap _]) (Block.linesOf [wrap _])
  rw [hwrap.linesOf, hwrap.linesOf]
  exact hlines

end Rendering.Alike

/-! ## Levels, settings and verdicts -/

/-- Levels that are the same but for escaping and math. -/
def Level.Alike (level other : Level) : Prop :=
  ∃ escaping inMath, other = { level with escaping, inMath }

/-- Settings that are the same but for escaping. -/
def Setting.Alike (setting other : Setting) : Prop :=
  setting.styles = other.styles

/-- Verdicts that are the same, but for the escaping that is in force behind included files. -/
inductive Verdict.Alike : Verdict → Verdict → Prop
  | same (verdict : Verdict) : Alike verdict verdict
  | included (styles : StyleStack) (escaping escaping' : Bool) :
      Alike (.included styles escaping) (.included styles escaping')

namespace Level

theorem Alike.refl (level : Level) : level.Alike level :=
  ⟨level.escaping, level.inMath, rfl⟩

theorem alike_fresh (depth : Nat) {setting other : Setting} (h : setting.Alike other) :
    (fresh depth setting).Alike (fresh depth other) :=
  ⟨other.escaping, false, by rw [fresh, fresh, h]⟩

/-- A step of a level is neutral if it is alike on levels that are alike. -/
def Neutral (step : Level → Rendering Level) : Prop :=
  ∀ {level other : Level}, level.Alike other →
    Rendering.Alike Level.Alike (step level) (step other)

theorem neutral_closeRun : Neutral closeRun := by
  rintro ⟨depth, styles, _, openStyle, _, pending, temporaryUsed⟩ _ ⟨escaping, inMath, rfl⟩
  cases openStyle with
  | none => exact .returning ⟨escaping, inMath, rfl⟩
  | some style =>
    simp only [closeRun]
    cases style.environment with
    | none => exact .returning ⟨escaping, inMath, rfl⟩
    | some environment => exact .after _ fun _ => .returning ⟨escaping, inMath, rfl⟩

theorem neutral_openRun (style : Style) (source : String) : Neutral (openRun style source) := by
  rintro ⟨depth, styles, _, openStyle, _, pending, temporaryUsed⟩ _ ⟨escaping, inMath, rfl⟩
  unfold openRun
  cases style.environment with
  | none => exact .returning ⟨escaping, inMath, rfl⟩
  | some environment =>
    cases openStyle with
    | none => exact .after _ fun _ => .returning ⟨escaping, inMath, rfl⟩
    | some current => exact .returning ⟨escaping, inMath, rfl⟩

theorem neutral_settleRun (style : Style) (source : String) :
    Neutral fun level => level.settleRun style source := by
  intro level other h
  simp only [settleRun_eq]
  refine .inSequence ?_ fun _ _ => neutral_openRun style source
  obtain ⟨escaping, inMath, rfl⟩ := h
  dsimp only
  split
  · exact neutral_closeRun ⟨escaping, inMath, rfl⟩
  · exact .returning ⟨escaping, inMath, rfl⟩

theorem neutral_switchStyles (styles : StyleStack) (temporary : Bool) :
    Neutral fun level => level.switchStyles styles temporary := by
  intro level other h
  unfold switchStyles
  refine .inSequence (neutral_closeRun h) ?_
  rintro closed _ ⟨escaping, inMath, rfl⟩
  refine .returning ⟨escaping, inMath, ?_⟩
  dsimp only
  split <;> rfl

theorem neutral_restoreTemporary : Neutral restoreTemporary := by
  rintro ⟨depth, _, _, openStyle, _, pending, temporaryUsed⟩ _ ⟨escaping, inMath, rfl⟩
  cases pending with
  | none => exact .returning ⟨escaping, inMath, rfl⟩
  | some styles =>
    simp only [restoreTemporary]
    split
    · exact .returning ⟨escaping, inMath, rfl⟩
    · refine .inSequence (neutral_closeRun ⟨escaping, inMath, rfl⟩) ?_
      rintro closed _ ⟨escaping, inMath, rfl⟩
      exact .after _ fun _ => .returning ⟨escaping, inMath, rfl⟩

/-- The line of a value is the only place where escaping and math are looked at, and there they
decide about the text. -/
theorem neutral_writeLine (source : String) (address value : Option String) (next : Option Node) :
    Neutral fun level => level.writeLine source address value next := by
  intro level other h
  cases value with
  | none =>
    obtain ⟨escaping, inMath, rfl⟩ := h
    exact .same Alike.refl _
  | some value =>
    have hready : Neutral fun level => if Node.isContinuation (some value) then pure level
        else level.restoreTemporary := by
      intro level other h
      dsimp only
      split
      · exact .returning h
      · exact neutral_restoreTemporary h
    simp only [writeLine_some]
    refine .inSequence (hready h) ?_
    rintro ready _ ⟨escaping, inMath, rfl⟩
    refine .after _ fun style => ?_
    refine .inSequence (neutral_settleRun style source ⟨escaping, inMath, rfl⟩) ?_
    rintro settled _ ⟨escaping, inMath, rfl⟩
    -- this is the one line that differs, and behind it the levels differ in the state of math
    refine .inSequence (.emit (.text _ _)) fun _ _ _ => .returning ?_
    obtain ⟨inMath', hpast⟩ := settled.exists_pastLine value
    obtain ⟨inMath'', hpast'⟩ := exists_pastLine { settled with escaping, inMath } value
    rw [hpast, hpast']
    exact ⟨escaping, inMath'', rfl⟩

end Level

/-! ## Directives -/

section Directives

variable (world : World) {enter : Entering}

/-- A way of entering outlines is neutral if the escaping behind an outline is all that depends on
the escaping before it. -/
def Entering.Neutral (enter : Entering) : Prop :=
  ∀ path depth {setting other : Setting}, setting.Alike other →
    Rendering.Alike Setting.Alike (enter path depth setting) (enter path depth other)

variable (henter : enter.Neutral)
include henter

theorem alike_includeFile (source : String) (depth : Nat) (once : Bool) (name : String)
    {setting other : Setting} (h : setting.Alike other) :
    Rendering.Alike Setting.Alike (includeFile world enter source depth once name setting)
      (includeFile world enter source depth once name other) := by
  unfold includeFile
  dsimp only
  split
  · exact fun _ => ⟨.error _, rfl, rfl, .nil⟩
  · -- both runs have marked the same files, so both skip the file or neither does
    refine .after _ fun run => ?_
    split
    · exact .after _ fun _ => .returning h
    · refine .after _ fun _ => ?_
      split
      · exact .after _ fun _ => henter _ _ h
      · exact .after _ fun _ => .after _ fun _ => .after _ fun _ => .returning h

theorem alike_includeFiles (source : String) (depth : Nat) (once : Bool) (names : List String)
    {setting other : Setting} (h : setting.Alike other) :
    Rendering.Alike Setting.Alike (includeFiles world enter source depth once names setting)
      (includeFiles world enter source depth once names other) := by
  induction names generalizing setting other with
  | nil => exact .returning h
  | cons name rest ih =>
    exact .inSequence (alike_includeFile world henter source depth once name h) fun _ _ => ih

/-- Only a directive that includes files hands the escaping on; no other one looks at it. -/
theorem alike_carryOut {level other : Level} (h : level.Alike other) (node : Node)
    (directive : Directive) :
    Rendering.Alike Verdict.Alike (carryOut world enter level node directive)
      (carryOut world enter other node directive) := by
  obtain ⟨escaping, inMath, rfl⟩ := h
  cases directive with
  | inclusion once names =>
    -- what is handed on are styles, which are the same, and an escaping, which may differ
    refine .after _ fun _ => .inSequence (alike_includeFiles world henter _ _ once names rfl) ?_
    rintro ⟨styles, before⟩ ⟨_, behind⟩ rfl
    exact .returning (.included styles before behind)
  | _ => exact .same Verdict.Alike.same _

theorem alike_dispatch {level other : Level} (h : level.Alike other) (node : Node) :
    Rendering.Alike Verdict.Alike (dispatch world enter level node)
      (dispatch world enter other node) := by
  unfold dispatch
  cases node.value.bind Directive.ofValue? with
  | none => exact .returning (.same _)
  | some directive => exact .after _ fun _ => alike_carryOut world henter h node directive

end Directives

namespace Level

theorem alike_follow {level other : Level} (h : level.Alike other) {verdict verdict' : Verdict}
    (hverdict : verdict.Alike verdict') :
    Rendering.Alike Level.Alike (level.follow verdict) (other.follow verdict') := by
  cases hverdict with
  | same verdict =>
    cases verdict with
    | styles styles temporary => exact neutral_switchStyles styles temporary h
    | _ =>
      obtain ⟨escaping, inMath, rfl⟩ := h
      exact .returning ⟨_, inMath, rfl⟩
  | included styles before behind =>
    obtain ⟨escaping, inMath, rfl⟩ := h
    exact .returning ⟨behind, inMath, rfl⟩

/-- A level within a level hands on styles and an escaping, and begins with no others. -/
theorem neutral_descend {step : Level → Rendering Level} (hstep : Neutral step) :
    Neutral fun level => level.descend step := by
  rintro level _ ⟨escaping, inMath, rfl⟩
  simp only [descend_eq]
  have hfresh : (fresh (level.depth + 1) level.setting).Alike
      (fresh (level.depth + 1) ⟨level.styles, escaping⟩) := alike_fresh _ rfl
  have hinside := Rendering.Alike.inSequence (hstep hfresh) fun _ _ => neutral_closeRun
  have hbelow : Enclosure level.depth .subtree (level.depth + 1) := .below
  refine .inSequence (.enclosing hbelow hinside) ?_
  rintro inner _ ⟨behind, inMath', rfl⟩
  exact .returning ⟨behind, inMath, rfl⟩

end Level

/-! ## The forest -/

section Forest

variable (world : World) {enter : Entering} (henter : enter.Neutral)
include henter

theorem neutral_renderNode (next : Option Node) {node : Node}
    (hsubtree : Level.Neutral (renderNodes world enter node.subtree)) :
    Level.Neutral (renderNode world enter next node) := by
  intro level other h
  rw [renderNode_eq, renderNode_eq]
  refine .inSequence (alike_dispatch world henter h node) fun verdict verdict' hverdict => ?_
  cases hverdict with
  | included styles before behind => exact Level.alike_follow h (.included styles before behind)
  | same verdict =>
    -- only a line leads below the node
    cases verdict with
    | proceed value =>
      refine .inSequence (Level.neutral_writeLine _ _ value next h) fun written written' h => ?_
      unfold renderBelow
      split
      · exact .returning h
      · exact Level.neutral_descend hsubtree h
    | _ => exact Level.alike_follow h (.same _)

/-- Siblings are rendered alike. The induction is on the forest, down what is rendered below each
node. -/
theorem neutral_renderNodes (nodes : List Node) :
    Level.Neutral (renderNodes world enter nodes) := by
  induction nodes using Node.subtree_induction with
  | nil => exact fun h => .returning h
  | cons node rest ihsubtree ihrest =>
    intro level other h
    rw [renderNodes, renderNodes]
    exact .inSequence (neutral_renderNode world henter rest.head? ihsubtree h) fun _ _ => ihrest

theorem neutral_renderSiblings (nodes : List Node) :
    Level.Neutral (renderSiblings world enter nodes) :=
  fun h => .inSequence (neutral_renderNodes world henter nodes h) fun _ _ => Level.neutral_closeRun

end Forest

/-- Outlines are entered alike, however many may be open within one another. -/
theorem neutral_enterOutline (world : World) (nesting : Nat) :
    Entering.Neutral (enterOutline world nesting) := by
  induction nesting with
  | zero =>
    intro path depth setting other h
    have hsame : ∀ setting : Setting, setting.Alike setting := fun _ => rfl
    exact .same hsame (fail (.endlessInclusion path))
  | succ nesting ih =>
    intro path depth setting other h
    unfold enterOutline
    refine .after _ fun nodes => ?_
    have hincluded : Enclosure depth (.outline path) depth := .included path
    have hinside := neutral_renderSiblings world ih nodes (Level.alike_fresh depth h)
    refine .inSequence (.enclosing hincluded hinside) ?_
    rintro inner _ ⟨escaping, inMath, rfl⟩
    exact .returning rfl

/-- Forests are rendered alike in settings with the same styles. -/
theorem alike_render (world : World) (nodes : List Node) (depth : Nat) {setting other : Setting}
    (h : setting.Alike other) :
    Rendering.Alike Setting.Alike (world.render nodes depth setting)
      (world.render nodes depth other) := by
  have henter : Entering.Neutral world.enter := neutral_enterOutline world world.nestingBound
  have hinside := neutral_renderSiblings world henter nodes (Level.alike_fresh depth h)
  refine .inSequence hinside ?_
  rintro level _ ⟨escaping, inMath, rfl⟩
  exact .returning rfl

/-! ## With escaping and without -/

/-- **Escaping changes texts and nothing else.** A forest is rendered with escaping on and with
escaping off, from the same run and with the same styles. Both renderings fail with one failure, or
both end with the same styles; they include the same files, show preliminary parts or not, evaluate
the same scripts in the same processes, and report the same. And they write as many lines, one like
the other: the same line, or one line of the outline, in which what stands in front of the text and
behind it is the same. -/
theorem escaping_render (world : World) (nodes : List Node) (depth : Nat) (styles : StyleStack)
    (run : Run) :
    let escaped := world.render nodes depth ⟨styles, true⟩ run
    let plain := world.render nodes depth ⟨styles, false⟩ run
    escaped.result.map (·.styles) = plain.result.map (·.styles) ∧
      escaped.run = plain.run ∧ escaped.events = plain.events ∧
      List.Forall₂ (fun line other => line = other ∨ ∃ text text' : TextLine,
          line = .content text ∧ other = .content text' ∧
          text' = { text with escapedFrom := text'.escapedFrom } ∧
          line.written = text.front ++ text.body ++ text.back ∧
          other.written = text.front ++ text'.body ++ text.back)
        (Block.linesOf escaped.blocks) (Block.linesOf plain.blocks) := by
  intro escaped plain
  have hsettings : Setting.Alike ⟨styles, true⟩ ⟨styles, false⟩ := rfl
  obtain ⟨hresult, hrun, hevents, hlines⟩ := alike_render world nodes depth hsettings run
  refine ⟨?_, hrun, hevents, hlines.imp fun line other halike => ?_⟩
  · show Except.map _ escaped.result = Except.map _ plain.result
    generalize escaped.result = ended, plain.result = ended' at hresult
    cases hresult with
    | ok hvalues => exact congrArg Except.ok hvalues
    | error failure => rfl
  · cases halike with
    | same => exact .inl rfl
    | text text escapedFrom =>
      exact .inr ⟨text, { text with escapedFrom }, rfl, rfl, rfl, text.written_eq,
        TextLine.written_eq { text with escapedFrom }⟩

end OutlineTex
