/-
Outlines without directives lose no text.

Where no value is a directive, an outline is only text, and what is written for it can be said
without a look at how it is rendered: one line for every node in document order, apart from the
web addresses that are folded into the line above them. The line of a node depends on where the
node stands: on its depth, the siblings before it, the sibling behind it and its first child. The
lines that open and close lists stand between these lines and change none of them.

Rendering carries a state from line to line, and the proof says which part of it is visible. The
styles and the escaping stay as they are, no switch waits to be undone, and math is open as the
siblings before have left it. Which list is open does not matter.
-/
import OutlineTex.Proofs.Rendering.Steps
import OutlineTex.Proofs.Style.Stack

set_option autoImplicit false

namespace OutlineTex

open Rendering

/-! ## Where nodes stand -/

/-- A node where it stands in a forest: its depth, the siblings before it that have lines of
their own, the sibling behind it, and whether it is folded into the line of its parent. -/
structure Spot where
  depth : Nat
  node : Node
  earlier : List Node
  next : Option Node
  folded : Bool

mutual

/-- The spots of a node and of everything below it, in document order. The first child is folded
if the node links to it. -/
def spots (depth : Nat) (folded : Bool) (earlier : List Node) (next : Option Node) :
    Node → List Spot
  | ⟨value, source, children⟩ =>
    ⟨depth, ⟨value, source, children⟩, earlier, next, folded⟩ ::
      spotsOf (depth + 1) (Node.leadingAddress? children).isSome [] children

/-- The spots of nodes of one depth and of everything below them, in document order. At most the
first of the nodes is folded, and it does not count among the siblings before the others. -/
def spotsOf (depth : Nat) (folded : Bool) (earlier : List Node) : List Node → List Spot
  | [] => []
  | node :: rest =>
    spots depth folded earlier rest.head? node ++
      spotsOf depth false (if folded then earlier else earlier ++ [node]) rest

end

namespace Spot

/-- The entry of the node. -/
def entry (spot : Spot) : Outline.Entry :=
  ⟨spot.depth, spot.node.value, spot.node.source⟩

/-- The text of the node: its value, without the space that marks a continuation. -/
def text (spot : Spot) : List Char :=
  Level.textOf (spot.node.value.getD "")

/-- Whether math is open behind the texts of siblings. It is not open before the first. -/
def mathBehind (earlier : List Node) : Bool :=
  earlier.foldl (fun inMath node => Math.after inMath (Level.textOf (node.value.getD ""))) false

/-- The line of a node in a style: tabs, what the style has before the text or its width in
spaces, the text, escaped if that is asked for and linked if an address is folded into it, what
the style has after the text unless the next sibling goes on, and the label. -/
def line (spot : Spot) (style : Style) (escaping : Bool) : String :=
  let before := if Node.isContinuation spot.node.value
    then String.ofList (List.replicate style.before.length ' ') else style.before
  let text := String.ofList <|
    if escaping then Escape.text (mathBehind spot.earlier) spot.text else spot.text
  let linked := match spot.node.link? with
    | some address => s!"\\href\x7b{TextLine.linkTarget address}\x7d\x7b{text}\x7d"
    | none => text
  let after := if Node.isContinuation (spot.next.bind (·.value)) then "" else style.after
  s!"{tabs spot.depth}{before}{linked}{after} % {spot.node.source}"

end Spot

/-- The entry of a line that is text: it is no placeholder, and no directive. -/
def Outline.Entry.IsProse (entry : Outline.Entry) : Prop :=
  ∃ value, entry.value = some value ∧ Directive.ofValue? value = none

/-- The spots of a forest are its entries, so no node is missing and none is there twice. -/
theorem entry_spotsOf (depth : Nat) (folded : Bool) (earlier : List Node) (nodes : List Node) :
    (spotsOf depth folded earlier nodes).map Spot.entry = Outline.entriesOf depth nodes := by
  induction nodes using Node.forest_induction generalizing depth folded earlier with
  | nil => rfl
  | cons value source children rest ihchildren ihrest =>
    rw [spotsOf, spots, Outline.entriesOf, Outline.entries, List.map_append, List.map_cons,
      ihchildren, ihrest]
    rfl

/-- The spots that have lines of their own. -/
def linedSpots (depth : Nat) (earlier : List Node) (nodes : List Node) : List Spot :=
  (spotsOf depth false earlier nodes).filter (!·.folded)

/-- Nothing lies below an address that is folded. -/
theorem eq_nil_of_leadingAddress? {first : Node} {rest : List Node} {address : String}
    (h : Node.leadingAddress? (first :: rest) = some address) : first.children = [] := by
  rw [Node.leadingAddress?] at h
  split at h
  · split at h
    · next hboth => exact List.isEmpty_iff.mp (Bool.and_eq_true_iff.mp hboth).1
    · exact absurd h (by simp)
  · exact absurd h (by simp)

/-- What has lines below a node is what is rendered there. -/
theorem filter_spotsOf_children (depth : Nat) (node : Node) :
    (spotsOf depth node.link?.isSome [] node.children).filter (!·.folded) =
      linedSpots depth [] node.subtree := by
  obtain ⟨value, source, children⟩ := node
  rw [linedSpots, Node.subtree]
  cases hlink : Node.link? ⟨value, source, children⟩ with
  | none => rfl
  | some address =>
    cases children with
    | nil => exact absurd hlink (by simp [Node.link?, Node.leadingAddress?])
    | cons first rest =>
      -- the first child has no line, and being a leaf it has none below it either
      have hleaf : first.children = [] := eq_nil_of_leadingAddress? hlink
      obtain ⟨firstValue, firstSource, below⟩ := first
      obtain rfl : below = [] := hleaf
      rfl

/-- A node that is not folded has a line, then there are the lines below it and then those of
its siblings. -/
theorem linedSpots_cons (depth : Nat) (earlier : List Node) (node : Node) (rest : List Node) :
    linedSpots depth earlier (node :: rest) =
      ⟨depth, node, earlier, rest.head?, false⟩ :: linedSpots (depth + 1) [] node.subtree ++
        linedSpots depth (earlier ++ [node]) rest := by
  rw [← filter_spotsOf_children, linedSpots, spotsOf, List.filter_append]
  obtain ⟨value, source, children⟩ := node
  rfl

theorem Outline.entries_eq (depth : Nat) (node : Node) :
    entries depth node =
      ⟨depth, node.value, node.source⟩ :: entriesOf (depth + 1) node.children := by
  obtain ⟨value, source, children⟩ := node
  rfl

/-- The entries of what is rendered below a node are entries of the node. -/
theorem Outline.entriesOf_subtree (depth : Nat) (node : Node) :
    entriesOf (depth + 1) node.subtree ⊆ entries depth node := by
  obtain ⟨folded, hchildren⟩ := node.subtree_suffix
  have hall : entriesOf (depth + 1) node.subtree ⊆ entriesOf (depth + 1) node.children := by
    rw [← hchildren, entriesOf_append]
    exact List.subset_append_right _ _
  rw [entries_eq]
  exact List.subset_cons_of_subset _ hall

/-! ## Steps that print -/

/-- A line that opens or closes a list. -/
def Line.isMark : Line → Bool
  | .opening .. | .closing .. => true
  | _ => false

/-- The lines of blocks as they are written, but for those that open or close lists. -/
def Block.prose (blocks : List Block) : List String :=
  ((linesOf blocks).filter (!·.isMark)).map (·.written)

theorem Block.prose_append (first second : List Block) :
    prose (first ++ second) = prose first ++ prose second := by
  rw [prose, linesOf_append, List.filter_append, List.map_append]
  rfl

/-- A step prints lines if in every run it succeeds, with a value as described, and writes these
lines and marks of lists. -/
def Rendering.Prints {α : Type} (step : Rendering α) (lines : List String)
    (after : α → Prop) : Prop :=
  ∀ run, ∃ a, (step run).result = .ok a ∧ after a ∧ Block.prose (step run).blocks = lines

namespace Prints

variable {α β : Type} {after : α → Prop}

theorem returning {a : α} (h : after a) : (pure a : Rendering α).Prints [] after :=
  fun _ => ⟨a, rfl, h, rfl⟩

theorem inSequence {first second : List String} {step : Rendering α} {next : α → Rendering β}
    {last : β → Prop} (hstep : step.Prints first after)
    (hnext : ∀ a, after a → (next a).Prints second last) :
    (step >>= next).Prints (first ++ second) last := by
  intro run
  obtain ⟨a, hresult, hafter, hfirst⟩ := hstep run
  obtain ⟨b, hresult', hlast, hsecond⟩ := hnext a hafter (step run).run
  rw [then_of_ok hresult]
  refine ⟨b, hresult', hlast, ?_⟩
  rw [Block.prose_append, hfirst, hsecond]

/-- After a step that prints nothing. -/
theorem andThen {lines : List String} {step : Rendering α} {next : α → Rendering β}
    {last : β → Prop} (hstep : step.Prints [] after)
    (hnext : ∀ a, after a → (next a).Prints lines last) :
    (step >>= next).Prints lines last :=
  inSequence hstep hnext

/-- Before a step that prints nothing. -/
theorem thenSilent {lines : List String} {step : Rendering α} {next : α → Rendering β}
    {last : β → Prop} (hstep : step.Prints lines after)
    (hnext : ∀ a, after a → (next a).Prints [] last) :
    (step >>= next).Prints lines last := by
  have hboth := inSequence hstep hnext
  rw [List.append_nil] at hboth
  exact hboth

end Prints

/-! ## Levels of prose -/

/-- A level of prose behind some siblings: at its depth, with the setting that it began with, no
switch to be undone, and math as the siblings left it if texts are escaped. -/
structure Level.Follows (level : Level) (depth : Nat) (setting : Setting) (earlier : List Node) :
    Prop where
  depth : level.depth = depth
  setting : level.setting = setting
  pending : level.pending = none
  inMath : level.escaping = true → level.inMath = Spot.mathBehind earlier

namespace Level.Follows

variable {level : Level} {depth : Nat} {setting : Setting} {earlier : List Node}

theorem fresh (depth : Nat) (setting : Setting) : (fresh depth setting).Follows depth setting [] :=
  ⟨rfl, rfl, rfl, fun _ => rfl⟩

theorem escaping (h : level.Follows depth setting earlier) : level.escaping = setting.escaping :=
  congrArg (·.escaping) h.setting

/-- What a level writes for a node is the line of its spot. -/
theorem written (h : level.Follows depth setting earlier) {node : Node} {value : String}
    (hvalue : node.value = some value) (style : Style) (next : Option Node) (folded : Bool) :
    (level.textLine style node.source node.link? value next).written =
      Spot.line ⟨depth, node, earlier, next, folded⟩ style setting.escaping := by
  have hbody : (level.textLine style node.source node.link? value next).body = String.ofList
      (if setting.escaping then Escape.text (Spot.mathBehind earlier) (textOf value)
        else textOf value) := by
    rw [← h.escaping, TextLine.body, textLine]
    cases hflag : level.escaping with
    | false => rfl
    | true => rw [if_pos rfl, if_pos rfl, h.inMath hflag]
  -- the wrappers and the link are put around the text in the same way
  simp only [Spot.line, Spot.text, hvalue, Option.getD_some]
  rw [TextLine.written, TextLine.linked, hbody, ← h.depth]
  rfl

/-- Behind the line of a node, math is as the node left it. -/
theorem pastLine (h : level.Follows depth setting earlier) {node : Node} {value : String}
    (hvalue : node.value = some value) :
    (level.pastLine value).Follows depth setting (earlier ++ [node]) := by
  have hbehind : Spot.mathBehind (earlier ++ [node]) =
      Math.after (Spot.mathBehind earlier) (textOf value) := by
    rw [Spot.mathBehind, List.foldl_append, List.foldl_cons, List.foldl_nil, hvalue]
    rfl
  -- where texts are not escaped nobody asks for the math
  unfold Level.pastLine
  split
  · next hflag =>
    refine ⟨h.depth, h.setting, h.pending, fun _ => ?_⟩
    rw [hbehind, ← h.inMath hflag]
  · next hflag => exact ⟨h.depth, h.setting, h.pending, fun hescaping => absurd hescaping hflag⟩

end Level.Follows

namespace Prints

variable {level : Level} {depth : Nat} {setting : Setting} {earlier : List Node}

theorem closeRun (h : level.Follows depth setting earlier) :
    level.closeRun.Prints [] (·.Follows depth setting earlier) := by
  intro run
  refine ⟨_, level.result_closeRun run, ⟨h.depth, h.setting, h.pending, h.inMath⟩, ?_⟩
  unfold Level.closeRun
  cases level.openStyle with
  | none => rfl
  | some style =>
    dsimp only
    cases style.environment <;> rfl

/-- Opening and closing lists leaves only marks. -/
theorem settleRun (h : level.Follows depth setting earlier) (style : Style) (source : String) :
    (level.settleRun style source).Prints [] (·.Follows depth setting earlier) := by
  have hclosed : (if level.openStyle.any (· != style) then level.closeRun else pure level).Prints
      [] (·.Follows depth setting earlier) := by
    split
    · exact closeRun h
    · exact returning h
  rw [Level.settleRun_eq]
  refine andThen hclosed fun closed hclosed run => ?_
  refine ⟨_, Level.result_openRun style source closed run,
    ⟨hclosed.depth, hclosed.setting, hclosed.pending, hclosed.inMath⟩, ?_⟩
  unfold Level.openRun
  cases style.environment <;> cases closed.openStyle <;> rfl

/-- No switch waits to be undone, so a line finds the level as it is. -/
theorem restoreTemporary (h : level.Follows depth setting earlier) (value : String) :
    (if Node.isContinuation (some value) then pure level else level.restoreTemporary).Prints []
      (·.Follows depth setting earlier) := by
  split
  · exact returning h
  · rw [Level.restoreTemporary, h.pending]
    exact returning h

/-- The line of a node is written as its spot says, and the node joins the siblings before. -/
theorem writeLine {style : Style} {node : Node} {value : String} (next : Option Node)
    (h : level.Follows depth setting earlier) (hvalue : node.value = some value)
    (hstyle : setting.styles.styleAt depth = .ok style) :
    (level.writeLine node.source node.link? node.value next).Prints
      [Spot.line ⟨depth, node, earlier, next, false⟩ style setting.escaping]
      (·.Follows depth setting (earlier ++ [node])) := by
  rw [hvalue, Level.writeLine_some]
  refine andThen (restoreTemporary h value) fun restored hrestored => ?_
  have hlooked : restored.styles.styleAt restored.depth = .ok style := by
    rw [hrestored.depth, ← hstyle, ← hrestored.setting]
    rfl
  rw [hlooked, ofExcept_ok, pure_bind]
  refine andThen (settleRun hrestored style node.source) fun settled hsettled => ?_
  have hemit : (emit (.content (settled.textLine style node.source node.link? value next))).Prints
      [Spot.line ⟨depth, node, earlier, next, false⟩ style setting.escaping] fun _ => True := by
    rw [← hsettled.written hvalue]
    exact fun _ => ⟨(), rfl, trivial, rfl⟩
  exact thenSilent hemit fun _ _ => returning (hsettled.pastLine hvalue)

/-- What lies below a line is rendered on a level of its own, from which nothing comes back. -/
theorem renderBelow (world : World) (enter : Entering) {nodes : List Node} {lines : List String}
    (h : level.Follows depth setting earlier)
    (hnodes : ∀ below : Level, below.Follows (depth + 1) setting [] →
      (renderNodes world enter nodes below).Prints lines (·.Follows (depth + 1) setting nodes)) :
    (renderBelow world enter nodes level).Prints lines (·.Follows depth setting earlier) := by
  have hinside := hnodes _ (.fresh (depth + 1) setting)
  unfold OutlineTex.renderBelow
  by_cases hempty : nodes.isEmpty = true
  · obtain ⟨-, -, -, hlines⟩ := hinside {}
    rw [List.isEmpty_iff.mp hempty, OutlineTex.renderNodes] at hlines
    rw [if_pos hempty, ← hlines]
    exact returning h
  · rw [if_neg hempty, Level.descend_eq, h.depth]
    intro run
    obtain ⟨below, hresult, hbelow, hlines⟩ := thenSilent hinside (fun _ => closeRun) run
    rw [← h.setting] at hresult hlines
    -- the inner level ends with the setting that it began with, so adopting it changes nothing
    have hsame : level.adopt below.setting = level := by
      rw [hbelow.setting, ← h.setting]
      rfl
    refine ⟨level, result_bind_eq_ok.mpr ⟨below, hresult, congrArg Except.ok hsame⟩, h, ?_⟩
    have hwrap : Enclosure depth .subtree (depth + 1) := .below
    rw [Level.blocks_enclose, Block.prose, hwrap.linesOf]
    exact hlines

/-- A node without a directive in it is written as one line, and below it on a level of its own
what is rendered there. -/
theorem renderNode (world : World) (enter : Entering) {node : Node} {value : String}
    {lines : List String} {style : Style} (next : Option Node)
    (hvalue : node.value = some value) (hprose : Directive.ofValue? value = none)
    (hstyle : setting.styles.styleAt depth = .ok style) (h : level.Follows depth setting earlier)
    (hsubtree : ∀ below : Level, below.Follows (depth + 1) setting [] →
      (renderNodes world enter node.subtree below).Prints lines
        (·.Follows (depth + 1) setting node.subtree)) :
    (renderNode world enter next node level).Prints
      (Spot.line ⟨depth, node, earlier, next, false⟩ style setting.escaping :: lines)
      (·.Follows depth setting (earlier ++ [node])) := by
  have hdispatch : dispatch world enter level node = pure (.proceed node.value) := by
    rw [dispatch, hvalue, Option.bind_some, hprose]
  rw [renderNode_eq, hdispatch, pure_bind]
  refine inSequence (writeLine next h hvalue hstyle) fun past hpast => ?_
  exact renderBelow world enter hpast hsubtree

/-- Nodes without directives are written as the lines of the spots that have one. -/
theorem renderNodes (world : World) (enter : Entering) {style : Nat → Style}
    (hstyle : ∀ depth, setting.styles.styleAt depth = .ok (style depth)) (nodes : List Node)
    (hprose : ∀ entry ∈ Outline.entriesOf depth nodes, entry.IsProse)
    (h : level.Follows depth setting earlier) :
    (renderNodes world enter nodes level).Prints
      ((linedSpots depth earlier nodes).map fun spot =>
        spot.line (style spot.depth) setting.escaping)
      (·.Follows depth setting (earlier ++ nodes)) := by
  induction nodes using Node.subtree_induction generalizing level depth earlier with
  | nil =>
    rw [OutlineTex.renderNodes, List.append_nil]
    exact returning h
  | cons node rest ihsubtree ihrest =>
    rw [Outline.entriesOf] at hprose
    have hnode : ∀ entry ∈ Outline.entries depth node, entry.IsProse :=
      fun entry hentry => hprose entry (List.mem_append_left _ hentry)
    have hrest : ∀ entry ∈ Outline.entriesOf depth rest, entry.IsProse :=
      fun entry hentry => hprose entry (List.mem_append_right _ hentry)
    have hbelow : ∀ entry ∈ Outline.entriesOf (depth + 1) node.subtree, entry.IsProse :=
      fun entry hentry => hnode entry (Outline.entriesOf_subtree depth node hentry)
    obtain ⟨value, hvalue, hnone⟩ : Outline.Entry.IsProse ⟨depth, node.value, node.source⟩ := by
      rw [Outline.entries_eq] at hnode
      exact hnode _ List.mem_cons_self
    have hline := renderNode world enter rest.head? hvalue hnone (hstyle depth) h
      fun below => ihsubtree hbelow
    rw [OutlineTex.renderNodes, linedSpots_cons, List.map_append, List.map_cons,
      List.append_cons earlier node rest]
    refine inSequence hline fun behind hbehind => ?_
    exact ihrest hrest hbehind

end Prints

/-! ## Whole forests -/

/-- **No text is lost.** An outline without placeholders and without directives is rendered in
every run, and what is in force stays in force. Apart from lines that open or close lists, what
is written is one line for every node, in document order, but for the addresses that are folded
into the line of their parent; and the line is what the spot of the node says. -/
theorem prose_rendered (world : World) (nodes : List Node) (depth : Nat) (setting : Setting)
    (run : Run) (hstyles : setting.styles.styles ≠ [])
    (hprose : ∀ entry ∈ Outline.entriesOf depth nodes, entry.IsProse) :
    let outcome := world.render nodes depth setting run
    let forest := spotsOf depth false [] nodes
    outcome.result = .ok setting ∧ forest.map Spot.entry = Outline.entriesOf depth nodes ∧
      ∃ style : Nat → Style, (∀ depth, setting.styles.styleAt depth = .ok (style depth)) ∧
        ((Block.linesOf outcome.blocks).filter (!·.isMark)).map (·.written) =
          (forest.filter (!·.folded)).map fun spot =>
            spot.line (style spot.depth) setting.escaping := by
  intro outcome forest
  obtain ⟨style, hstyle⟩ := Classical.skolem.mp (StyleStack.exists_styleAt hstyles)
  have hnodes := Prints.renderNodes world world.enter hstyle nodes hprose (.fresh depth setting)
  have hclosed := Prints.thenSilent hnodes fun _ => Prints.closeRun
  have hrender : (world.render nodes depth setting).Prints _ (· = setting) :=
    Prints.thenSilent hclosed fun level hlevel => Prints.returning hlevel.setting
  obtain ⟨_, hresult, rfl, hlines⟩ := hrender run
  exact ⟨hresult, entry_spotsOf depth false [] nodes, style, hstyle, hlines⟩

/-- Math that is opened on one line and closed on its continuation, a linked address with a sign
that a link cannot hold, and a text below it that is escaped since no math is open there. -/
def linkedProse : List Node :=
  [{ value := some "Let $x", source := "a:1", children := [
      { value := some "http://a.org/#x$", source := "a:2" },
      { value := some "x_1 < y", source := "a:3" }] },
    { value := some " < y$ or <", source := "a:4" },
    { value := some "_", source := "a:5" }]

theorem prose_rendered_linked :
    let setting : Setting := ⟨⟨[Style.list "I" "itemize", .heading "S1" "section"]⟩, true⟩
    let outcome := ({ files := ⟨[], []⟩ } : World).render linkedProse 0 setting {}
    let written := ((Block.linesOf outcome.blocks).filter (!·.isMark)).map (·.written)
    outcome.result = .ok setting ∧
      (∃ style : Nat → Style, (∀ depth, setting.styles.styleAt depth = .ok (style depth)) ∧
        written = ((spotsOf 0 false [] linkedProse).filter (!·.folded)).map fun spot =>
          spot.line (style spot.depth) true) ∧
      written = [
        "\\item \\href\x7bhttp://a.org/\\#x$\x7d\x7bLet $x\x7d % a:1",
        "\t\\section\x7bx\\_1 $<$ y\x7d % a:3",
        "      < y$ or $<$ % a:4",
        "\\item \\_ % a:5"] := by
  intro setting outcome written
  have hprose : ∀ entry ∈ Outline.entriesOf 0 linkedProse, entry.IsProse := by
    have hvalues : ∀ entry ∈ Outline.entriesOf 0 linkedProse,
        (entry.value.any fun value => (Directive.ofValue? value).isNone) = true := by
      decide +kernel
    intro entry hentry
    have hvalue := hvalues entry hentry
    cases hcase : entry.value with
    | none => exact absurd hvalue (by simp [hcase])
    | some value =>
      rw [hcase] at hvalue
      exact ⟨value, hcase, Option.isNone_iff_eq_none.mp hvalue⟩
  obtain ⟨hresult, -, hlines⟩ := prose_rendered { files := ⟨[], []⟩ } linkedProse 0 setting {}
    (List.cons_ne_nil _ _) hprose
  exact ⟨hresult, hlines, by decide +kernel⟩

end OutlineTex
