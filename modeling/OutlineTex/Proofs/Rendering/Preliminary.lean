/-
Preliminary parts that are shown.

Once preliminary parts are shown, one of them is nothing but a line with another text than its
value. That it is a directive could still be noticed in two places: the sibling before it looks at
its value, to know whether the line goes on, and the run is told that a directive was recognised.
Neither matters. No directive continues a line, and no text of a preliminary part does, because
blanks in front of the text are dropped. And what is reported is not looked at by anything later.

So the value may be replaced by the text, among any siblings, and nothing is different but one
report. The argument needs that preliminary parts are still shown when rendering comes to the node,
whatever the siblings before it do: a run only gains.
-/
import OutlineTex.Proofs.Directive.Grammar
import OutlineTex.Proofs.Rendering.Growth
import OutlineTex.Proofs.Rendering.Siblings

set_option autoImplicit false

namespace OutlineTex

open Rendering

/-! ## One node -/

section Shown

variable (world : World) (enter : Entering) {value text source : String} {children : List Node}
  {run : Run}

/-- A preliminary part that is shown is reported, and then it is rendered as the line that has its
text for a value. -/
theorem renderNode_of_shown (h : Directive.ofValue? value = some (.preliminary text))
    (hplain : Directive.ofValue? text = none) (hshown : run.showPreliminary = true)
    (next : Option Node) (level : Level) :
    renderNode world enter next ⟨some value, source, children⟩ level run = (do
      report (.recognised ⟨some value, source, children⟩ (.preliminary text))
      renderNode world enter next ⟨some text, source, children⟩ level) run := by
  have hdispatch : dispatch world enter level ⟨some value, source, children⟩ run =
      ⟨.ok (.proceed (some text)), run, [],
        [.recognised ⟨some value, source, children⟩ (.preliminary text)]⟩ :=
    dispatch_of_shown world enter h hshown
  have hline : dispatch world enter level ⟨some text, source, children⟩ =
      pure (.proceed (some text)) := by
    simp only [dispatch, Option.bind_some, hplain]
  rw [renderNode_eq, renderNode_eq, hline, pure_bind,
    then_of_ok (congrArg Outcome.result hdispatch), hdispatch, then_of_ok rfl]
  rfl

theorem renderSiblings_of_shown (h : Directive.ofValue? value = some (.preliminary text))
    (hplain : Directive.ofValue? text = none) (hshown : run.showPreliminary = true)
    (after : List Node) (level : Level) :
    renderSiblings world enter (⟨some value, source, children⟩ :: after) level run = (do
      report (.recognised ⟨some value, source, children⟩ (.preliminary text))
      renderSiblings world enter (⟨some text, source, children⟩ :: after) level) run := by
  rw [renderSiblings_cons, renderSiblings_cons, ← bind_assoc]
  exact congrArg (Outcome.andThen · (renderSiblings world enter after))
    (renderNode_of_shown world enter h hplain hshown after.head? level)

end Shown

/-! ## Among siblings -/

section Siblings

variable (world : World) (nesting : Nat) {value text source : String} {children : List Node}

/-- What looks at the head of siblings, to know whether it continues a line, cannot tell a node
there from another if neither does. -/
theorem isContinuation_head?_append {node other : Node} (after : List Node)
    (hnode : Node.isContinuation node.value = false)
    (hother : Node.isContinuation other.value = false) (before : List Node) :
    Node.isContinuation ((before ++ node :: after).head?.bind (·.value)) =
      Node.isContinuation ((before ++ other :: after).head?.bind (·.value)) := by
  cases before with
  | nil => exact hnode.trans hother.symm
  | cons => rfl

/-- The siblings around a preliminary part that is shown have their turns on the same levels and in
the same runs as around its text, and so has the part itself. The induction is on the siblings
before it, behind each of which preliminary parts are still shown. -/
theorem begun_turns_of_shown (h : Directive.ofValue? value = some (.preliminary text))
    (hplain : Directive.ofValue? text = none) (before after : List Node) (level : Level) (run : Run)
    (hshown : run.showPreliminary = true) :
    (turns world nesting (before ++ ⟨some value, source, children⟩ :: after) level run).map
        (fun turn => (turn.level, turn.run)) =
      (turns world nesting (before ++ ⟨some text, source, children⟩ :: after) level run).map
        (fun turn => (turn.level, turn.run)) := by
  induction before generalizing level run with
  | nil =>
    rw [List.nil_append, List.nil_append, turns, turns, Turn.outcome, Turn.outcome,
      renderNode_of_shown _ _ h hplain hshown, then_of_ok rfl]
    rfl
  | cons node rest ih =>
    have hnext : Node.isContinuation
          ((rest ++ ⟨some value, source, children⟩ :: after).head?.bind (·.value)) =
        Node.isContinuation
          ((rest ++ ⟨some text, source, children⟩ :: after).head?.bind (·.value)) :=
      isContinuation_head?_append after (Directive.isContinuation_of_ofValue? h)
        (Directive.isContinuation_of_preliminary h) rest
    -- the first sibling comes out alike, whichever of the two nodes is ahead
    rw [List.cons_append, List.cons_append, turns, turns, Turn.outcome, Turn.outcome,
      renderNode_congr_next _ _ hnext]
    simp only [List.map_cons, List.cons.injEq, true_and]
    have hgrows := Run.grows_renderNode world nesting
      (rest ++ ⟨some text, source, children⟩ :: after).head? node level run
    split
    · rfl
    · exact ih _ _ (hgrows.shown hshown)

/-- **A preliminary part that is shown is an ordinary line.** Among any siblings, and on any level,
a node whose value is a preliminary part may have the text of the part for its value, if that is no
directive itself: the siblings fail alike or end in the same run and with the same in force, they
write the same, and each of them has its turn on the same level and in the same run. -/
theorem renderSiblings_preliminary (before after : List Node) (level : Level) (run : Run)
    (hline : '\n' ∉ value.toList) (hmeans : Directive.Means value.toList (.preliminary text))
    (hplain : Directive.ofValue? text = none) (hshown : run.showPreliminary = true) :
    let rendered := fun node =>
      renderSiblings world (enterOutline world nesting) (before ++ node :: after) level run
    let begun := fun node =>
      (turns world nesting (before ++ node :: after) level run).map fun turn =>
        (turn.level, turn.run)
    let preliminary : Node := ⟨some value, source, children⟩
    let plain : Node := ⟨some text, source, children⟩
    (rendered preliminary).result = (rendered plain).result ∧
      (rendered preliminary).run = (rendered plain).run ∧
      (rendered preliminary).blocks = (rendered plain).blocks ∧
      begun preliminary = begun plain := by
  intro rendered begun preliminary plain
  have h := (Directive.ofValue?_eq_some_iff hline _).mpr hmeans
  suffices hrendered : (rendered preliminary).result = (rendered plain).result ∧
      (rendered preliminary).run = (rendered plain).run ∧
      (rendered preliminary).blocks = (rendered plain).blocks from
    ⟨hrendered.1, hrendered.2.1, hrendered.2.2,
      begun_turns_of_shown world nesting h hplain before after level run hshown⟩
  -- neither node continues a line, so the siblings before it do not look at it
  have hcut (node : Node) (hnode : Node.isContinuation node.value = false) : rendered node =
      (renderNodes world (enterOutline world nesting) before level >>=
        renderSiblings world (enterOutline world nesting) (node :: after)) run := by
    have hhead : Node.isContinuation ((node :: after).head?.bind (·.value)) = false := hnode
    exact congrFun (renderSiblings_append _ _ before hhead level) run
  have hgrows := Run.grows_renderNodes world nesting before level run
  rw [hcut preliminary (Directive.isContinuation_of_ofValue? h),
    hcut plain (Directive.isContinuation_of_preliminary h)]
  cases hbefore : (renderNodes world (enterOutline world nesting) before level run).result with
  | error failure =>
    rw [then_of_error hbefore, then_of_error hbefore]
    exact ⟨rfl, rfl, rfl⟩
  | ok middle =>
    rw [then_of_ok hbefore, then_of_ok hbefore,
      renderSiblings_of_shown _ _ h hplain (hgrows.shown hshown), then_of_ok rfl]
    exact ⟨rfl, rfl, rfl⟩

/-- A preliminary part behind the first line of a temporary switch, in math, and before a line that
continues it. It has a link, and below it another part, without a text. -/
theorem renderSiblings_preliminary_linked :
    let world : World := { files := ⟨[], []⟩ }
    let level : Level := { depth := 0, styles := ⟨[{ id := "P", after := "\\par" }]⟩ }
    let before : List Node :=
      [{ value := some "!tmpformat I", source := "t:1" }, { value := some "a $x", source := "t:2" }]
    let children : List Node := [{ value := some "http://x.org", source := "t:4" },
      { value := some "!preliminary", source := "t:5" }]
    let after : List Node :=
      [{ value := some " b", source := "t:6" }, { value := some "c_2", source := "t:7" }]
    let rendered := fun value => renderSiblings world (enterOutline world 0)
      (before ++ ⟨some value, "t:3", children⟩ :: after) level { showPreliminary := true }
    Directive.Means "!Preliminary  y_1$".toList (.preliminary "y_1$") ∧
      Directive.ofValue? "y_1$" = none ∧
      (rendered "!Preliminary  y_1$").result = (rendered "y_1$").result ∧
      (rendered "!Preliminary  y_1$").run = (rendered "y_1$").run ∧
      (rendered "!Preliminary  y_1$").blocks = (rendered "y_1$").blocks ∧
      (Block.linesOf (rendered "!Preliminary  y_1$").blocks).map Line.written =
        ["\\begin\x7bitemize\x7d % t:2", "\\item a $x % t:2", "\\end\x7bitemize\x7d",
          "\\href\x7bhttp://x.org\x7d\x7by_1$\x7d % t:3", "\t\\par % t:5", "b\\par % t:6",
          "c\\_2\\par % t:7"] := by
  intro world level before children after rendered
  have hmeans : Directive.Means "!Preliminary  y_1$".toList (.preliminary "y_1$") :=
    ⟨by decide +kernel, by decide +kernel⟩
  have hplain : Directive.ofValue? "y_1$" = none := by decide +kernel
  obtain ⟨hresult, hrun, hblocks, -⟩ := @renderSiblings_preliminary world 0 _ _ "t:3" children
    before after level { showPreliminary := true } (by decide +kernel) hmeans hplain rfl
  exact ⟨hmeans, hplain, hresult, hrun, hblocks, by decide +kernel⟩

end Siblings

end OutlineTex
