/-
Switches of styles among siblings.

A switch of styles brings its own first style to the lines behind it on its level. Two things can
bring back other styles: a further switch or an inclusion, and a temporary switch that is still to
be undone, even one that stands before the switch in question. This file says what is to be undone
behind any number of siblings, and how many lines it takes until that happens. With it the style of
every line behind a switch is known, up to the next sibling that sets the styles.

Lines that continue others do not count. The first line that leads after a temporary switch spends
the switch, and the second one undoes it.
-/
import Mathlib.Data.List.Basic
import Mathlib.Logic.Function.Iterate
import OutlineTex.Proofs.Rendering.Siblings

set_option autoImplicit false

namespace OutlineTex

open Rendering

/-! ## Siblings that set no styles -/

namespace Turn

/-- Whether a turn sets the styles by its directive. -/
def setsStyles (turn : Turn) : Bool :=
  turn.arrival.directive?.any Directive.setsStyles

/-- Whether a turn leads a line: it has a text that continues no other. -/
def leads (turn : Turn) : Bool :=
  turn.text?.any fun value => !Node.isContinuation (some value)

/-- Whether a turn continues the line before it. -/
def continues (turn : Turn) : Bool :=
  turn.text?.any fun value => Node.isContinuation (some value)

variable {world : World} {nesting : Nat} {turn : Turn} {after : Level}

/-- A directive that is followed without setting the styles resembles no directive at all. -/
theorem resembles_of_follow {directive : Directive} {level : Level} {shown : Bool}
    {verdict : Verdict} {run : Run} (hsteady : directive.setsStyles = false)
    (hhidden : ∀ text, directive = .preliminary text → shown = false)
    (hyields : directive.Yields level shown verdict)
    (hafter : (level.follow verdict run).result = .ok after) : after.Resembles level := by
  cases directive with
  | inclusion once names => exact absurd hsteady (by simp [Directive.setsStyles])
  | format temporary code => exact absurd hsteady (by simp [Directive.setsStyles])
  | preliminary text =>
    have hdone : verdict = if shown then .proceed (some text) else .done := hyields
    rw [hhidden text rfl] at hdone
    subst hdone
    rw [← Except.ok.inj hafter]
    exact .refl level
  | escaping on =>
    obtain rfl : verdict = .escaping on := hyields
    rw [← Except.ok.inj hafter]
    exact ⟨rfl, fun _ _ => rfl, rfl, rfl⟩
  | verbatim | preamble | showPreliminary | comment | script =>
    obtain rfl : verdict = .done := hyields
    rw [← Except.ok.inj hafter]
    exact .refl level

/-- A turn that sets no styles undoes a temporary switch if it leads a line, and does nothing else
to the styles of its depth. -/
theorem resembles_of_steady (hsteady : turn.setsStyles = false)
    (hafter : (turn.outcome world nesting).result = .ok after) :
    after.Resembles (if turn.leads then turn.level.undone else turn.level) := by
  unfold leads
  cases htext : turn.text? with
  | some value =>
    have hready := resembles_of_text? world nesting htext hafter
    rw [Level.ready] at hready
    rw [Option.any_some]
    cases hvalue : Node.isContinuation (some value) <;> rw [hvalue] at hready <;> exact hready
  | none =>
    rcases text?_eq_none htext with hvalue | ⟨directive, hdirective, hhidden⟩
    · have hfails := (outcome_of_placeholder world nesting hvalue).1
      exact absurd (hfails.symm.trans hafter) (by simp)
    · obtain ⟨verdict, run, hyields, hfollow⟩ :=
        follow_of_directive world nesting hdirective hhidden hafter
      rw [setsStyles, hdirective, Option.any_some] at hsteady
      exact resembles_of_follow hsteady hhidden hyields hfollow

end Turn

/-- A level is ready for the line of a turn when a step of undoing has been taken, if the line
leads. -/
theorem Level.Resembles.ready {level : Level} {turn : Turn} {value : String} {count : Nat}
    (h : turn.level.Resembles (Level.undone^[count] level)) (hvalue : turn.text? = some value) :
    (turn.level.ready value).Resembles
      (Level.undone^[count + if turn.leads then 1 else 0] level) := by
  unfold Level.ready Turn.leads
  rw [hvalue, Option.any_some]
  cases hcontinues : Node.isContinuation (some value) with
  | true => simpa [hcontinues] using h
  | false =>
    have hstep := h.undone
    rw [← Function.iterate_succ_apply' Level.undone] at hstep
    simpa [hcontinues] using hstep

/-- Behind siblings that set no styles, as many steps of undoing have been taken as there were lines
that lead. -/
theorem resembles_of_turns {world : World} {nesting : Nat} {nodes : List Node} {level : Level}
    {run : Run} {here : Turn} {between later : List Turn}
    (h : turns world nesting nodes level run = between ++ here :: later)
    (hsteady : ∀ turn ∈ between, turn.setsStyles = false) :
    here.level.Resembles (Level.undone^[between.countP Turn.leads] level) := by
  suffices hall : (∀ turn ∈ between, turn.setsStyles = false) →
      here.level.Resembles (Level.undone^[between.countP Turn.leads] level) from hall hsteady
  refine turns_induction (P := fun before level' => (∀ turn ∈ before, turn.setsStyles = false) →
    level'.Resembles (Level.undone^[before.countP Turn.leads] level)) ?_ (fun _ => .refl level) h
  intro before turn after hbefore hafter hsteady
  have hlevel := hbefore fun other hother => hsteady other (List.mem_append_left _ hother)
  have hturn := Turn.resembles_of_steady
    (hsteady turn (List.mem_append_right _ List.mem_cons_self)) hafter
  rw [List.countP_append, List.countP_singleton]
  cases hleads : turn.leads with
  | true =>
    rw [hleads, if_pos rfl] at hturn
    rw [if_pos rfl, Function.iterate_succ_apply']
    exact hturn.trans hlevel.undone
  | false =>
    rw [hleads, if_neg (by simp)] at hturn
    rw [if_neg (by simp)]
    exact hturn.trans hlevel

/-! ## What is to be undone -/

/-- A temporary switch that is to be undone: the styles that it gave way to, and whether a line has
been written in its own ones. -/
structure Undoing where
  styles : StyleStack
  spent : Bool
deriving DecidableEq, Repr

namespace Undoing

/-- What is to be undone behind a line that leads. The first one spends a switch, and the next one
undoes it. -/
def pastLead : Option Undoing → Option Undoing
  | some ⟨styles, false⟩ => some ⟨styles, true⟩
  | _ => none

/-- What is to be undone behind a turn. A temporary switch is the one to be undone unless there is
one already. -/
def past (undoing : Option Undoing) (turn : Turn) : Option Undoing :=
  match turn.arrival.directive? with
  | some (.format true _) => undoing.or (some ⟨turn.level.styles, false⟩)
  | _ => if turn.leads then pastLead undoing else undoing

theorem past_of_steady {turn : Turn} (h : turn.setsStyles = false) (undoing : Option Undoing) :
    past undoing turn = if turn.leads then pastLead undoing else undoing := by
  unfold past
  split
  · next hdirective =>
    rw [Turn.setsStyles, hdirective] at h
    exact absurd h (by simp [Directive.setsStyles])
  · rfl

/-- What is to be undone behind turns, where nothing is in the beginning. -/
def behind (turns : List Turn) : Option Undoing :=
  turns.foldl past none

theorem behind_concat (turns : List Turn) (turn : Turn) :
    behind (turns ++ [turn]) = past (behind turns) turn := by
  rw [behind, List.foldl_append]
  rfl

/-- The styles that so many lines that lead bring back. -/
def broughtBack (undoing : Option Undoing) (leading : Nat) : Option StyleStack :=
  undoing.bind fun undoing =>
    if 2 ≤ leading + undoing.spent.toNat then some undoing.styles else none

end Undoing

/-- The temporary switch that is to be undone on a level. -/
def Level.undoing (level : Level) : Option Undoing :=
  level.pending.map fun styles => ⟨styles, level.temporaryUsed⟩

theorem Level.Resembles.undoing {level other : Level} (h : level.Resembles other) :
    level.undoing = other.undoing := by
  rw [Level.undoing, Level.undoing, h.pending, h.temporaryUsed]

theorem Level.undoing_undone (level : Level) :
    level.undone.undoing = Undoing.pastLead level.undoing := by
  obtain ⟨depth, styles, escaping, openStyle, inMath, pending, temporaryUsed⟩ := level
  cases pending with
  | none => rfl
  | some kept => cases temporaryUsed <;> rfl

/-- After so many steps of undoing, the styles in force are those that they bring back, or are as
they were. -/
theorem Level.styles_undone_iterate (level : Level) (leading : Nat) :
    (undone^[leading] level).styles =
      (Undoing.broughtBack level.undoing leading).getD level.styles := by
  have hnothing (still : Level) (h : still.pending = none) (count : Nat) :
      undone^[count] still = still := by
    induction count with
    | zero => rfl
    | succ count ih =>
      have hundone : still.undone = still := by rw [undone, h]
      rw [Function.iterate_succ_apply, hundone, ih]
  obtain ⟨depth, styles, escaping, openStyle, inMath, pending, temporaryUsed⟩ := level
  cases pending with
  | none => rw [hnothing _ rfl]; rfl
  | some kept =>
    -- one step undoes a switch that is spent, and two undo one that is not
    cases temporaryUsed with
    | true =>
      cases leading with
      | zero => rfl
      | succ leading =>
        rw [Function.iterate_succ_apply, hnothing _ rfl]
        simp [undone, undoing, Undoing.broughtBack]
    | false =>
      match leading with
      | 0 => rfl
      | 1 => rfl
      | leading + 2 =>
        rw [Function.iterate_succ_apply, Function.iterate_succ_apply, hnothing _ rfl]
        simp [undone, undoing, Undoing.broughtBack]

namespace Turn

variable {world : World} {nesting : Nat} {turn : Turn} {after : Level} {code : String}
  {temporary : Bool}

/-- A turn that sets the styles leads no line. -/
theorem leads_of_setsStyles (h : turn.setsStyles = true) : turn.leads = false := by
  obtain ⟨directive, hdirective, hsets⟩ := (Option.any_eq_true _ _).mp h
  have hdirective : turn.arrival.directive? = some directive := hdirective
  unfold leads Visit.text?
  rw [hdirective]
  cases directive with
  | inclusion | format => rfl
  | _ => exact absurd hsets (by simp [Directive.setsStyles])

/-- A turn that switches the styles puts those of its code over those that were in force. -/
theorem after_of_switch (h : turn.arrival.directive? = some (.format temporary code))
    (hafter : (turn.outcome world nesting).result = .ok after) :
    ∃ below, StyleStack.ofCode code = .ok below ∧
      after.styles = turn.level.styles.overlay turn.level.depth below ∧
      after.undoing = Undoing.past turn.level.undoing turn := by
  have hhidden (text : String) (heq : Directive.format temporary code = .preliminary text) :
      turn.run.showPreliminary = false := absurd heq (by simp)
  obtain ⟨verdict, run, ⟨styles, hupdate, rfl⟩, hfollow⟩ :=
    follow_of_directive world nesting h hhidden hafter
  obtain ⟨below, hbelow, rfl⟩ : ∃ below, StyleStack.ofCode code = .ok below ∧
      turn.level.styles.overlay turn.level.depth below = styles := by
    cases hcode : StyleStack.ofCode code with
    | error failure => simp [StyleStack.update, hcode, Except.map] at hupdate
    | ok below => exact ⟨below, rfl, by simpa [StyleStack.update, hcode, Except.map] using hupdate⟩
  rw [Level.follow, Level.result_switchStyles, Except.ok.injEq] at hfollow
  subst hfollow
  refine ⟨below, hbelow, ?_⟩
  have hleads : turn.leads = false := leads_of_setsStyles (by rw [setsStyles, h]; rfl)
  unfold Undoing.past Level.undoing
  rw [h, hleads]
  cases temporary with
  | false => exact ⟨rfl, rfl⟩
  | true => cases turn.level.pending <;> simp

/-- What is to be undone behind a turn follows from what was to be undone before it. -/
theorem undoing_after (hafter : (turn.outcome world nesting).result = .ok after) :
    after.undoing = Undoing.past turn.level.undoing turn := by
  cases hsets : turn.setsStyles with
  | false =>
    -- only a line that leads takes a step of undoing
    rw [(resembles_of_steady hsets hafter).undoing, Undoing.past_of_steady hsets]
    split
    · exact turn.level.undoing_undone
    · rfl
  | true =>
    obtain ⟨directive, hdirective, hdirectiveSets⟩ := (Option.any_eq_true _ _).mp hsets
    have hdirective : turn.arrival.directive? = some directive := hdirective
    cases directive with
    | format temporary code =>
      obtain ⟨_, _, _, hundoing⟩ := after_of_switch hdirective hafter
      exact hundoing
    | inclusion once names =>
      have hhidden (text : String) (heq : Directive.inclusion once names = .preliminary text) :
          turn.run.showPreliminary = false := absurd heq (by simp)
      obtain ⟨verdict, run, ⟨setting, rfl⟩, hfollow⟩ :=
        follow_of_directive world nesting hdirective hhidden hafter
      rw [← Except.ok.inj hfollow]
      unfold Undoing.past
      rw [hdirective, leads_of_setsStyles hsets]
      rfl
    | _ => exact absurd hdirectiveSets (by simp [Directive.setsStyles])

end Turn

/-- A turn leaves the depth of its level as it is. -/
theorem Turn.depth_after {world : World} {nesting : Nat} {turn : Turn} {after : Level}
    (hafter : (turn.outcome world nesting).result = .ok after) :
    after.depth = turn.level.depth := by
  have henter := scopes.elementary.enterOutline world nesting
  have hsubtree := scopes.elementary.renderNodes world henter turn.node.subtree
  exact (scopes.elementary.renderNode world henter hsubtree turn.next turn.level turn.run after
    hafter).1

/-- What is to be undone on the level of a turn is what the turns before it say. -/
theorem undoing_of_turns {world : World} {nesting : Nat} {nodes : List Node} {depth : Nat}
    {setting : Setting} {run : Run} {here : Turn} {earlier later : List Turn}
    (h : turns world nesting nodes (.fresh depth setting) run = earlier ++ here :: later) :
    here.level.depth = depth ∧ here.level.undoing = Undoing.behind earlier := by
  refine turns_induction (P := fun before level =>
    level.depth = depth ∧ level.undoing = Undoing.behind before) ?_ ⟨rfl, rfl⟩ h
  rintro before turn after ⟨hdepth, hundoing⟩ hafter
  refine ⟨(Turn.depth_after hafter).trans hdepth, ?_⟩
  rw [Turn.undoing_after hafter, hundoing, Undoing.behind_concat]

/-! ## Lines behind switches -/

/-- Behind siblings that set no styles, the style of a line is what the lines that have led by then,
and the line itself, leave of the level that the siblings begin on. -/
theorem styleAt_ready {world : World} {nesting : Nat} {nodes : List Node} {level : Level}
    {run : Run} {here : Turn} {between later : List Turn} {value : String}
    (h : turns world nesting nodes level run = between ++ here :: later)
    (hsteady : ∀ turn ∈ between, turn.setsStyles = false) (hvalue : here.text? = some value) :
    (here.level.ready value).styles.styleAt here.level.depth =
      ((Undoing.broughtBack level.undoing ((between ++ [here]).countP Turn.leads)).getD
        level.styles).styleAt here.level.depth := by
  have hready := (resembles_of_turns h hsteady).ready hvalue
  obtain ⟨_, _, _, _, hsame⟩ := here.level.ready_eq value
  have hdown : here.level.depth ≤ (here.level.ready value).depth := by rw [hsame]
  rw [hready.styleAt _ hdown, List.countP_append, List.countP_singleton,
    Level.styles_undone_iterate]

/-- A turn writes one line of the outline on its level, in a style, with the label of its node. -/
def Turn.Writes (world : World) (nesting : Nat) (turn : Turn) (style : Style) : Prop :=
  ∃ line, Block.textLines (turn.outcome world nesting).blocks = [line] ∧
    line.source = turn.node.source ∧ line.style = style

section Switches

variable {world : World} {nesting : Nat} {nodes : List Node} {depth : Nat} {setting : Setting}
  {run : Run} {switch here : Turn} {earlier between later : List Turn} {code : String}
  {temporary : Bool}

/-- A turn with a text writes its line in the style that is in force when its level is ready. -/
theorem Turn.writes_of_ready {turn : Turn} {value : String} {style : Style}
    (htext : turn.text? = some value)
    (hstyle : (turn.level.ready value).styles.styleAt turn.level.depth = .ok style) :
    turn.Writes world nesting style := by
  refine ⟨turn.level.textLine style turn.node.source turn.node.link? value turn.next, ?_, rfl, rfl⟩
  rw [textLines_outcome, line?, htext, Option.bind_some, hstyle]
  rfl

/-- **Lines behind a switch.** Between a switch and the next sibling that sets the styles, every
line is in the style that the switch brings to the depth, until as many lines have led as it takes
to bring back the styles of a temporary switch; from then on it is in one of those. -/
theorem writes_behind_switch
    (hturns : turns world nesting nodes (.fresh depth setting) run =
      earlier ++ switch :: (between ++ here :: later))
    (hswitch : switch.arrival.directive? = some (.format temporary code))
    (hsteady : ∀ turn ∈ between, turn.setsStyles = false) (htext : here.text?.isSome = true) :
    ∃ below, StyleStack.ofCode code = .ok below ∧ ∀ style,
      ((Undoing.broughtBack (Undoing.behind (earlier ++ [switch]))
          ((between ++ [here]).countP Turn.leads)).getD
        (switch.level.styles.overlay depth below)).styleAt depth = .ok style →
      here.Writes world nesting style := by
  obtain ⟨hdepth, hundoing⟩ := undoing_of_turns hturns
  obtain ⟨nodes', hfrom⟩ := turns_of_append hturns
  obtain ⟨-, -, rest, -, -, hbehind⟩ := of_turns_eq_cons hfrom
  obtain ⟨after, hafter, hrest⟩ := hbehind (by simp)
  obtain ⟨below, hbelow, hstyles, hundoingAfter⟩ := Turn.after_of_switch hswitch hafter
  refine ⟨below, hbelow, fun style hstyle => ?_⟩
  obtain ⟨value, hvalue⟩ := Option.isSome_iff_exists.mp htext
  have hundone : after.undoing = Undoing.behind (earlier ++ [switch]) := by
    rw [hundoingAfter, hundoing, Undoing.behind_concat]
  have hhere : here.level.depth = depth := by
    have hsplit : earlier ++ switch :: (between ++ here :: later) =
        (earlier ++ switch :: between) ++ here :: later := by simp
    exact (undoing_of_turns (hturns.trans hsplit)).1
  refine Turn.writes_of_ready hvalue ?_
  rw [styleAt_ready hrest hsteady hvalue, hundone, hstyles, hhere, hdepth]
  exact hstyle

/-- The code of a switch spells a first style. -/
theorem Turn.exists_first {below : StyleStack}
    (hswitch : switch.arrival.directive? = some (.format temporary code))
    (hbelow : StyleStack.ofCode code = .ok below) : ∃ first rest, below.styles = first :: rest := by
  obtain ⟨value, -, hvalue⟩ := Option.bind_eq_some_iff.mp hswitch
  obtain ⟨hne, hletters⟩ := Directive.code_of_ofValue? hvalue
  obtain ⟨letter, hletter⟩ := List.exists_mem_of_ne_nil _ hne
  exact List.exists_cons_of_ne_nil
    (StyleStack.ne_nil_of_ofCode hbelow ⟨letter, hletter, hletters letter hletter⟩)

/-- **A temporary switch takes effect, unless one before it is spent.** Take a temporary switch and
the first line behind it that leads, with nothing between them that sets the styles. If no switch
that is to be undone was spent before, the line is in the first style of the code. If one was, it is
the line that undoes it, so that it is in one of the styles which that switch gave way to. -/
theorem writes_behind_temporary_switch
    (hturns : turns world nesting nodes (.fresh depth setting) run =
      earlier ++ switch :: (between ++ here :: later))
    (hswitch : switch.arrival.directive? = some (.format true code))
    (hbetween : ∀ turn ∈ between, turn.setsStyles = false ∧ turn.leads = false)
    (hhere : here.leads = true) :
    ∃ below first rest, StyleStack.ofCode code = .ok below ∧ below.styles = first :: rest ∧
      ((∀ styles, Undoing.behind earlier ≠ some ⟨styles, true⟩) →
        switch.level.styles.styles ≠ [] ∨ depth = 0 → here.Writes world nesting first) ∧
      ∀ styles style, Undoing.behind earlier = some ⟨styles, true⟩ →
        styles.styleAt depth = .ok style → here.Writes world nesting style := by
  have htext : here.text?.isSome = true := by
    obtain ⟨value, hvalue, -⟩ := (Option.any_eq_true _ _).mp hhere
    rw [hvalue]
    rfl
  obtain ⟨below, hbelow, hwrites⟩ :=
    writes_behind_switch hturns hswitch (fun turn hturn => (hbetween turn hturn).1) htext
  obtain ⟨first, rest, hfirst⟩ := Turn.exists_first hswitch hbelow
  -- the line is the first one that leads, and the switch is to be undone unless one was before
  have hcount : (between ++ [here]).countP Turn.leads = 1 := by
    rw [List.countP_append, List.countP_singleton, if_pos hhere, List.countP_eq_zero.mpr]
    intro turn hturn
    simp [(hbetween turn hturn).2]
  have hbehind : Undoing.behind (earlier ++ [switch]) =
      (Undoing.behind earlier).or (some ⟨switch.level.styles, false⟩) := by
    rw [Undoing.behind_concat, Undoing.past, hswitch]
  rw [hcount, hbehind] at hwrites
  refine ⟨below, first, rest, hbelow, hfirst, fun hnone hstyles => ?_, ?_⟩
  · refine hwrites first ?_
    have hkept : Undoing.broughtBack
        ((Undoing.behind earlier).or (some ⟨switch.level.styles, false⟩)) 1 = none := by
      cases hundoing : Undoing.behind earlier with
      | none => rfl
      | some undoing =>
        obtain ⟨styles, spent⟩ := undoing
        cases spent with
        | false => rfl
        | true => exact absurd hundoing (hnone styles)
    rw [hkept, Option.getD_none]
    exact StyleStack.styleAt_overlay_self hstyles hfirst
  · intro styles style hundoing hstyle
    refine hwrites style ?_
    rw [hundoing]
    exact hstyle

end Switches

/-- A world without files. -/
def bareWorld : World :=
  { files := ⟨[], []⟩ }

/-- The style of sections, which headings have in these examples, -/
def sectionStyle : Style :=
  .heading "S1" "section"

/-- and the one of sections without a number. -/
def starredStyle : Style :=
  .heading "s1" "section*"

/-- A switch for one line, below which the styles are switched again, and a line behind it. -/
def starredOnce : List Node :=
  [{ value := some "!tmpformat s", source := "t:1" },
    { value := some "A", source := "t:2",
      children := [{ value := some "!format E", source := "t:3" }, { value := some "x" }] },
    { value := some "B", source := "t:5" }]

theorem writes_behind_temporary_switch_starred :
    ∃ switch here last,
      turns bareWorld 0 starredOnce (.fresh 0 ⟨⟨[sectionStyle]⟩, true⟩) {} =
        [switch, here, last] ∧
      here.node.source = "t:2" ∧ here.Writes bareWorld 0 starredStyle := by
  obtain ⟨switch, here, last, hturns⟩ := List.length_eq_three.mp
    (show (turns bareWorld 0 starredOnce (.fresh 0 ⟨⟨[sectionStyle]⟩, true⟩) {}).length = 3 by
      decide +kernel)
  have hfacts : (turns bareWorld 0 starredOnce (.fresh 0 ⟨⟨[sectionStyle]⟩, true⟩) {}).map
      (fun turn => (turn.node.source, turn.arrival.directive?, turn.leads)) =
      [("t:1", some (.format true "s"), false), ("t:2", none, true), ("t:5", none, true)] := by
    decide +kernel
  rw [hturns] at hfacts
  simp only [List.map_cons, List.map_nil, List.cons.injEq, Prod.mk.injEq] at hfacts
  obtain ⟨⟨-, hswitch, -⟩, ⟨hsource, -, hleads⟩, -⟩ := hfacts
  have hsplit : turns bareWorld 0 starredOnce (.fresh 0 ⟨⟨[sectionStyle]⟩, true⟩) {} =
      [] ++ switch :: ([] ++ here :: [last]) := hturns
  obtain ⟨below, first, rest, hbelow, hfirst, hwrites, -⟩ :=
    writes_behind_temporary_switch hsplit hswitch
      (fun turn hturn => absurd hturn List.not_mem_nil) hleads
  have hstarred : StyleStack.ofCode "s" = .ok ⟨[starredStyle]⟩ := by decide +kernel
  obtain rfl := Except.ok.inj (hstarred.symm.trans hbelow)
  obtain ⟨rfl, -⟩ := List.cons.inj hfirst
  exact ⟨switch, here, last, hturns, hsource,
    hwrites (fun _ => by simp [Undoing.behind]) (.inr rfl)⟩

/-- Two switches for one line each, with one line behind either of them. -/
def starredTwice : List Node :=
  [{ value := some "!tmpformat s", source := "t:1" }, { value := some "A", source := "t:2" },
    { value := some "!tmpformat I", source := "t:3" }, { value := some "B", source := "t:4" }]

/-- The second switch is undone by its own first line, because the first one is spent by then. -/
theorem second_temporary_switch_without_effect :
    let outcome := renderSiblings bareWorld (enterOutline bareWorld 0) starredTwice
      (.fresh 0 ⟨⟨[sectionStyle]⟩, true⟩) {}
    Directive.ofValue? "!tmpformat I" = some (.format true "I") ∧
      StyleStack.ofCode "I" = .ok ⟨[.list "I" "itemize"]⟩ ∧
      outcome.result.isOk = true ∧
      (Block.textLines outcome.blocks).map (fun line => (line.source, line.style)) =
        [("t:2", starredStyle), ("t:4", sectionStyle)] := by
  decide +kernel

section Switches

variable {world : World} {nesting : Nat} {nodes : List Node} {depth : Nat} {setting : Setting}
  {run : Run} {switch here : Turn} {earlier between later : List Turn} {code : String}

/-- **A permanent switch persists, unless a temporary one is still to be undone.** Between a
permanent switch and the next sibling that sets the styles, every line is in the first style of the
code, as long as the lines that have led by then bring back no styles. From the line on that brings
back those of a temporary switch, which is one before the permanent switch, the lines are in one of
these. -/
theorem writes_behind_permanent_switch
    (hturns : turns world nesting nodes (.fresh depth setting) run =
      earlier ++ switch :: (between ++ here :: later))
    (hswitch : switch.arrival.directive? = some (.format false code))
    (hbetween : ∀ turn ∈ between, turn.setsStyles = false) (hhere : here.text?.isSome = true) :
    ∃ below first rest, StyleStack.ofCode code = .ok below ∧ below.styles = first :: rest ∧
      let leading := (between ++ [here]).countP Turn.leads
      (Undoing.broughtBack (Undoing.behind earlier) leading = none →
        switch.level.styles.styles ≠ [] ∨ depth = 0 → here.Writes world nesting first) ∧
      ∀ styles style, Undoing.broughtBack (Undoing.behind earlier) leading = some styles →
        styles.styleAt depth = .ok style → here.Writes world nesting style := by
  obtain ⟨below, hbelow, hwrites⟩ := writes_behind_switch hturns hswitch hbetween hhere
  obtain ⟨first, rest, hfirst⟩ := Turn.exists_first hswitch hbelow
  have hleads : switch.leads = false := by
    refine Turn.leads_of_setsStyles ?_
    rw [Turn.setsStyles, hswitch]
    rfl
  have hbehind : Undoing.behind (earlier ++ [switch]) = Undoing.behind earlier := by
    rw [Undoing.behind_concat, Undoing.past, hswitch, hleads]
    rfl
  rw [hbehind] at hwrites
  refine ⟨below, first, rest, hbelow, hfirst, fun hkept hstyles => ?_, ?_⟩
  · refine hwrites first ?_
    rw [hkept, Option.getD_none]
    exact StyleStack.styleAt_overlay_self hstyles hfirst
  · intro styles style hback hstyle
    refine hwrites style ?_
    rw [hback]
    exact hstyle

end Switches

/-- A switch of all lines, with a line below which the styles are switched, and another line. -/
def itemsFromHere : List Node :=
  [{ value := some "!format I", source := "t:1" },
    { value := some "A", source := "t:2",
      children := [{ value := some "!tmpformat E", source := "t:3" }, { value := some "x" }] },
    { value := some "B", source := "t:5" }]

theorem writes_behind_permanent_switch_items :
    ∃ switch first here,
      turns bareWorld 0 itemsFromHere (.fresh 0 ⟨⟨[sectionStyle]⟩, true⟩) {} =
        [switch, first, here] ∧
      here.node.source = "t:5" ∧ here.Writes bareWorld 0 (.list "I" "itemize") := by
  obtain ⟨switch, first, here, hturns⟩ := List.length_eq_three.mp
    (show (turns bareWorld 0 itemsFromHere (.fresh 0 ⟨⟨[sectionStyle]⟩, true⟩) {}).length = 3 by
      decide +kernel)
  have hfacts : (turns bareWorld 0 itemsFromHere (.fresh 0 ⟨⟨[sectionStyle]⟩, true⟩) {}).map
      (fun turn => (turn.node.source, turn.arrival.directive?, turn.setsStyles,
        turn.text?.isSome)) =
      [("t:1", some (.format false "I"), true, false), ("t:2", none, false, true),
        ("t:5", none, false, true)] := by
    decide +kernel
  rw [hturns] at hfacts
  simp only [List.map_cons, List.map_nil, List.cons.injEq, Prod.mk.injEq] at hfacts
  obtain ⟨⟨-, hswitch, -⟩, ⟨-, -, hsteady, -⟩, ⟨hsource, -, -, htext⟩, -⟩ := hfacts
  have hsplit : turns bareWorld 0 itemsFromHere (.fresh 0 ⟨⟨[sectionStyle]⟩, true⟩) {} =
      [] ++ switch :: ([first] ++ here :: []) := hturns
  obtain ⟨below, style, rest, hbelow, hstyle, hwrites, -⟩ :=
    writes_behind_permanent_switch hsplit hswitch
      (fun turn hturn => by rw [List.mem_singleton.mp hturn]; exact hsteady) htext
  have hitems : StyleStack.ofCode "I" = .ok ⟨[.list "I" "itemize"]⟩ := by decide +kernel
  obtain rfl := Except.ok.inj (hitems.symm.trans hbelow)
  obtain ⟨rfl, -⟩ := List.cons.inj hstyle
  exact ⟨switch, first, here, hturns, hsource, hwrites rfl (.inr rfl)⟩

/-- A switch for one line, and behind that line a switch of all lines. -/
def itemsTooLate : List Node :=
  [{ value := some "!tmpformat s", source := "t:1" }, { value := some "A", source := "t:2" },
    { value := some "!format I", source := "t:3" }, { value := some "B", source := "t:4" }]

/-- The line behind the permanent switch undoes the temporary one, and with it the permanent one. -/
theorem permanent_switch_undone :
    let outcome := renderSiblings bareWorld (enterOutline bareWorld 0) itemsTooLate
      (.fresh 0 ⟨⟨[sectionStyle]⟩, true⟩) {}
    Directive.ofValue? "!format I" = some (.format false "I") ∧
      StyleStack.ofCode "I" = .ok ⟨[.list "I" "itemize"]⟩ ∧
      outcome.result.isOk = true ∧
      (Block.textLines outcome.blocks).map (fun line => (line.source, line.style)) =
        [("t:2", starredStyle), ("t:4", sectionStyle)] := by
  decide +kernel

end OutlineTex
