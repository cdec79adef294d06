/-
A switch of styles never reaches the levels above.

The styles in force at the end of a level go on above it, and the levels above may be deep
in a list of their own, so what a switch leaves there has to be what was there. This file
shows that it is: whatever happens on a level and on the levels within it, the styles of
the depths above the level stay as they were.

It takes more than the styles in force to say so. A temporary switch gives way to the
styles that a level keeps aside, and they come back in the place of others. The invariant is
therefore about both of them, and it compares both with one fixed stack: at every step the
styles in force and those kept aside agree with it above the depth of the level. For a level
within a level that stack is the one that was in force around it.
-/
import OutlineTex.Proofs.Directive.Forms
import OutlineTex.Proofs.Rendering.Contract
import OutlineTex.Proofs.Style.Stack

set_option autoImplicit false

namespace OutlineTex

open Rendering

/-! ## Stacks that agree above a depth -/

/-- A stack that has styles, and above a depth those of another stack. -/
def StyleStack.KeepsAbove (stack : StyleStack) (depth : Nat) (reference : StyleStack) : Prop :=
  stack.styles ≠ [] ∧ ∀ k < depth, stack.styleAt k = reference.styleAt k

namespace StyleStack.KeepsAbove

variable {reference stack styles : StyleStack} {depth : Nat}

theorem refl (h : stack.styles ≠ []) : stack.KeepsAbove depth stack :=
  ⟨h, fun _ _ => rfl⟩

/-- What is kept above a depth is kept above every lesser one. -/
theorem trans {inner : Nat} (hstyles : styles.KeepsAbove inner stack)
    (hstack : stack.KeepsAbove depth reference) (hle : depth ≤ inner) :
    styles.KeepsAbove depth reference :=
  ⟨hstyles.1, fun k hk => (hstyles.2 k (Nat.lt_of_lt_of_le hk hle)).trans (hstack.2 k hk)⟩

/-- A switch to a code with a letter keeps what is above it. -/
theorem update {code : String} (hstack : stack.KeepsAbove depth reference)
    (hletter : ∃ letter ∈ code.toList, Text.isBlank letter = false)
    (h : stack.update depth code = .ok styles) : styles.KeepsAbove depth reference := by
  unfold StyleStack.update at h
  cases hbelow : ofCode code with
  | error failure => simp [hbelow, Except.map] at h
  | ok below =>
    obtain rfl : stack.overlay depth below = styles := by
      rw [hbelow] at h
      exact Except.ok.inj h
    refine ⟨?_, fun k hk => ?_⟩
    · have hne := ne_nil_of_ofCode hbelow hletter
      unfold overlay
      exact List.append_ne_nil_of_right_ne_nil _ hne
    · rw [styleAt_overlay_of_lt hstack.1 hk, hstack.2 k hk]

end StyleStack.KeepsAbove

/-! ## The invariant of a level -/

/-- The styles that are or may come into force on a level agree with a stack above its
depth. -/
structure Level.KeepsAbove (level : Level) (reference : StyleStack) : Prop where
  styles : level.styles.KeepsAbove level.depth reference
  pending : ∀ styles, level.pending = some styles → styles.KeepsAbove level.depth reference

/-- A fresh level keeps above it the styles that it begins with. -/
theorem Level.keepsAbove_fresh {depth : Nat} {setting : Setting} (h : setting.styles.styles ≠ []) :
    (fresh depth setting).KeepsAbove setting.styles :=
  ⟨.refl h, fun _ hkept => absurd hkept (by simp [fresh])⟩

/-- A step keeps whatever the styles above the level agree with. -/
def Level.ScopesTo (level : Level) (_ : List Block) (after : Level) : Prop :=
  after.depth = level.depth ∧ ∀ reference, level.KeepsAbove reference → after.KeepsAbove reference

theorem Level.ScopesTo.trans {level middle after : Level} {first second : List Block}
    (hfirst : level.ScopesTo first middle) (hsecond : middle.ScopesTo second after) :
    level.ScopesTo (first ++ second) after :=
  ⟨hsecond.1.trans hfirst.1, fun reference h => hsecond.2 reference (hfirst.2 reference h)⟩

/-- The contract of scope. -/
def scopes : Contract :=
  .ofSuccess Level.ScopesTo

namespace scopes

variable {level after : Level} {run end_ : Run} {blocks : List Block} {events : List Event}

/-- A step that leaves alone the styles of the level and those it keeps aside. -/
theorem of_same (hdepth : after.depth = level.depth) (hstyles : after.styles = level.styles)
    (hpending : after.pending = level.pending) :
    scopes level run ⟨.ok after, end_, blocks, events⟩ := by
  refine Contract.ofSuccess.of_ok ⟨hdepth, fun reference hlevel => ⟨?_, ?_⟩⟩
  · rw [hdepth, hstyles]
    exact hlevel.styles
  · rw [hdepth, hpending]
    exact hlevel.pending

theorem of_error {failure : Failure} : scopes level run ⟨.error failure, end_, blocks, events⟩ :=
  Contract.ofSuccess.of_error

theorem inSequence {first : Outcome Level} {next : Level → Rendering Level}
    (hfirst : scopes level run first)
    (hnext : ∀ middle, first.result = .ok middle →
      scopes middle first.run (next middle first.run)) :
    scopes level run (first.andThen next) := by
  refine Contract.ofSuccess.inSequence ?_ hfirst hnext
  exact Level.ScopesTo.trans

theorem basic : scopes.Basic where
  still _ _ := of_same rfl rfl rfl
  inSequence hfirst hnext := inSequence hfirst hnext
  failing _ _ _ := of_error
  reporting _ _ _ _ := of_same rfl rfl rfl
  changing _ _ _ _ := of_same rfl rfl rfl
  entering _ _ _ _ _ _ _ := of_same rfl rfl rfl
  writing _ _ _ _ := of_same rfl rfl rfl

theorem closeRun : scopes.Holds Level.closeRun := by
  intro level run after hafter
  rw [Level.result_closeRun, Except.ok.injEq] at hafter
  subst hafter
  exact ⟨rfl, fun _ hlevel => ⟨hlevel.styles, hlevel.pending⟩⟩

/-- The styles that a temporary switch gives way to are those that were in force. -/
theorem switchStyles {styles : StyleStack} {temporary : Bool}
    (hstyles : ∀ reference, level.KeepsAbove reference → styles.KeepsAbove level.depth reference) :
    scopes level run (level.switchStyles styles temporary run) := by
  intro after hafter
  rw [Level.result_switchStyles, Except.ok.injEq] at hafter
  subst hafter
  by_cases hkept : (temporary && level.pending.isNone) = true
  · rw [if_pos hkept]
    refine ⟨rfl, fun reference hlevel => ⟨hstyles reference hlevel, ?_⟩⟩
    -- the styles that are kept aside from here on were in force until now
    rintro kept ⟨⟩
    exact hlevel.styles
  · rw [if_neg hkept]
    exact ⟨rfl, fun reference hlevel => ⟨hstyles reference hlevel, hlevel.pending⟩⟩

/-- What comes back are styles that were kept aside. -/
theorem restoreTemporary : scopes.Holds Level.restoreTemporary := by
  intro level run after hafter
  rw [Level.result_restoreTemporary, Except.ok.injEq] at hafter
  subst hafter
  cases hpending : level.pending with
  | none => exact ⟨rfl, fun _ hlevel => hlevel⟩
  | some styles =>
    dsimp only
    by_cases hused : level.temporaryUsed = true
    · rw [if_pos hused]
      refine ⟨rfl, fun reference hlevel => ⟨hlevel.pending styles hpending, ?_⟩⟩
      rintro kept ⟨⟩
    · rw [if_neg hused]
      refine ⟨rfl, fun reference hlevel => ⟨hlevel.styles, ?_⟩⟩
      intro kept hkept
      exact hlevel.pending kept (hpending.trans hkept)

theorem settleRun (style : Style) (source : String) :
    scopes.Holds fun level => level.settleRun style source := by
  intro level run after hafter
  rw [Level.result_settleRun, Except.ok.injEq] at hafter
  subst hafter
  exact ⟨rfl, fun _ hlevel => ⟨hlevel.styles, hlevel.pending⟩⟩

/-- Of the steps in which a line is written only the first one touches the styles. -/
theorem writeLine (source : String) (address value : Option String) (next : Option Node) :
    scopes.Holds fun level => level.writeLine source address value next := by
  refine basic.writeLine restoreTemporary (fun style value level run => ?_) value
  refine inSequence (settleRun style source level run) fun settled _ => ?_
  obtain ⟨inMath, hpast⟩ := settled.exists_pastLine value
  rw [hpast]
  exact of_same rfl rfl rfl

/-- A step on a fresh level keeps the styles above it. -/
theorem keepsAbove {step : Level → Rendering Level} (hstep : scopes.Holds step)
    {depth : Nat} {setting : Setting} (hstyles : setting.styles.styles ≠ []) {run : Run}
    {after : Level} (h : (step (.fresh depth setting) run).result = .ok after) :
    after.styles.KeepsAbove depth setting.styles := by
  obtain ⟨hdepth, hkeeps⟩ := hstep _ run after h
  have hafter := (hkeeps setting.styles (Level.keepsAbove_fresh hstyles)).styles
  rw [hdepth] at hafter
  exact hafter

/-- A level within a level begins with the styles around it, so it keeps what they are above
its own depth, and that is no less deep than the level around it. -/
theorem enclosing {wrap : List Block → Block} {depth : Nat} {step : Level → Rendering Level}
    (run : Run) (hwrap : Enclosure level.depth wrap depth) (hstep : scopes.Holds step) :
    scopes level run (level.enclose wrap depth step run) := by
  intro after hafter
  obtain ⟨inner, hinner, rfl⟩ := Level.of_enclose hafter
  refine ⟨rfl, fun reference hlevel => ⟨?_, hlevel.pending⟩⟩
  have hinside : inner.styles.KeepsAbove depth level.styles :=
    keepsAbove (basic.bind hstep closeRun) hlevel.styles.1 hinner
  exact hinside.trans hlevel.styles hwrap.le

/-- A directive that switches styles has a code with a letter, and switches at the depth of
its level. -/
theorem switching {value code : String} {temporary : Bool} (source : String)
    (hvalue : Directive.ofValue? value = some (.format temporary code)) :
    scopes.Holds fun level => (do
      let styles ← ofExcept (level.styles.update level.depth code)
      report (.switched source styles temporary)
      level.switchStyles styles temporary) := by
  intro level run
  obtain ⟨hne, hletters⟩ := Directive.code_of_ofValue? hvalue
  obtain ⟨letter, hletter⟩ := List.exists_mem_of_ne_nil _ hne
  refine basic.afterOfExcept fun styles hupdate => basic.afterReport rfl ?_
  refine switchStyles fun reference hlevel => ?_
  exact hlevel.styles.update ⟨letter, hletter, hletters letter hletter⟩ hupdate

/-- The contract of scope is elementary. -/
theorem elementary : scopes.Elementary where
  toBasic := basic
  escaping _ _ _ := of_same rfl rfl rfl
  switching source hvalue := switching source hvalue
  closing := closeRun
  content := writeLine
  enclosing := enclosing

end scopes

/-! ## Rendering -/

/-- **Switches of styles stay below.** Rendering siblings at a depth leaves a stack that has
styles, and for every depth above those that it began with. So when what is below a line has
been rendered, its level is as before but for what is in force, and down to its own depth
the styles in force are the same. -/
theorem styleAt_kept_above (world : World) (nesting : Nat) :
    (∀ (nodes : List Node) (depth : Nat) (setting : Setting) (run : Run) (after : Level),
      setting.styles.styles ≠ [] →
      (renderSiblings world (enterOutline world nesting) nodes (.fresh depth setting) run).result =
        .ok after →
      after.styles.styles ≠ [] ∧ ∀ k < depth, after.styles.styleAt k = setting.styles.styleAt k) ∧
    ∀ (nodes : List Node) (level : Level) (run : Run) (after : Level), level.styles.styles ≠ [] →
      (renderBelow world (enterOutline world nesting) nodes level run).result = .ok after →
      ∃ setting : Setting, after = level.adopt setting ∧ setting.styles.styles ≠ [] ∧
        ∀ k ≤ level.depth, setting.styles.styleAt k = level.styles.styleAt k := by
  have henter := scopes.elementary.enterOutline world nesting
  refine ⟨?_, ?_⟩
  · intro nodes depth setting run after hstyles h
    exact scopes.keepsAbove (scopes.elementary.renderSiblings world henter nodes) hstyles h
  · intro nodes level run after hstyles h
    unfold renderBelow at h
    by_cases hempty : nodes.isEmpty = true
    · rw [if_pos hempty] at h
      obtain rfl : level = after := Except.ok.inj h
      exact ⟨level.setting, rfl, hstyles, fun _ _ => rfl⟩
    · rw [if_neg hempty, Level.descend_eq] at h
      -- the inner level is one deeper, so the depth of the line itself is above it
      obtain ⟨inner, hinner, rfl⟩ := Level.of_enclose h
      have hinside : inner.styles.KeepsAbove (level.depth + 1) level.styles :=
        scopes.keepsAbove (scopes.elementary.renderSiblings world henter nodes) hstyles hinner
      exact ⟨inner.setting, rfl, hinside.1, fun k hk => hinside.2 k (Nat.lt_succ_of_le hk)⟩

/-- A world with one outline, of one line, and it switches the styles to paragraphs. -/
def switchingWorld : World :=
  { files := ⟨[], [(["p.otl"], .file [33, 102, 111, 114, 109, 97, 116, 32, 80])]⟩ }

/-- Items that are numbered for one line. Below them the styles are switched twice, by an
outline and for a line, and neither is undone. -/
def switches : List Node :=
  [{ value := some "!tmpformat E" },
    { value := some "a", children := [{ value := some "!include p.otl" }, { value := some "b" }] },
    { value := some "c", children := [{ value := some "!tmpformat N" }, { value := some "d" }] }]

theorem styleAt_kept_above_switches :
    let item := Style.list "I" "itemize"
    let enter := enterOutline switchingWorld 1
    let level := Level.fresh 2 ⟨⟨[item]⟩, true⟩
    let siblings : Level := { depth := 2, styles := ⟨[item, item, item, { id := "N" }]⟩ }
    let below : Level := { depth := 2, styles := ⟨[item, item, item, item, { id := "N" }]⟩ }
    (renderSiblings switchingWorld enter switches level {}).result = .ok siblings ∧
      (∀ k < 2, siblings.styles.styleAt k = .ok item) ∧
      (renderBelow switchingWorld enter switches level {}).result = .ok below ∧
      ∃ setting, below = level.adopt setting ∧
        ∀ k ≤ 2, setting.styles.styleAt k = level.styles.styleAt k := by
  intro item enter level siblings below
  have hsiblings :
      (renderSiblings switchingWorld enter switches level {}).result = .ok siblings := by
    decide +kernel
  have hbelow : (renderBelow switchingWorld enter switches level {}).result = .ok below := by
    decide +kernel
  have hitem : ([item] : List Style) ≠ [] := List.cons_ne_nil _ _
  obtain ⟨hstyles, hkept⟩ := styleAt_kept_above switchingWorld 1
  obtain ⟨-, habove⟩ := hstyles switches 2 ⟨⟨[item]⟩, true⟩ {} siblings hitem hsiblings
  obtain ⟨setting, hadopt, -, hsame⟩ := hkept switches level {} below hitem hbelow
  refine ⟨hsiblings, fun k hk => (habove k hk).trans ?_, hbelow, setting, hadopt, hsame⟩
  rw [StyleStack.styleAt, StyleStack.styleAt?, List.length_singleton, Nat.min_zero]
  rfl

end OutlineTex
