/-
Several files in one directive.

A directive may include several files, and then each file goes on with what is in force behind
the one before it. The same files may be included by as many directives, one after the other on
the level, and then it is the level that takes up what is in force behind each of them. This file
shows that there is no difference: the two renderings end alike, in the same run and on the same
level, and write the same but for the comments that repeat the directives.

Behind an inclusion the level has taken up what is in force there and is otherwise as before, so it
does not matter whether that is done after each file or once, after the last.
-/
import Mathlib.Data.List.Forall2
import OutlineTex.Proofs.Directive.Forms
import OutlineTex.Proofs.Rendering.Comparison

set_option autoImplicit false

namespace OutlineTex

open OutlineTex.Text
open Rendering

/-! ## Steps that differ in echoes -/

/-- Whether a block is the comment that repeats an inclusion. -/
def Block.isEcho : Block → Bool
  | .line (.echo ..) => true
  | _ => false

/-- The blocks of a level without the comments that repeat its inclusions. -/
def Block.unechoed (blocks : List Block) : List Block :=
  blocks.filter (!·.isEcho)

theorem Block.unechoed_append (first second : List Block) :
    unechoed (first ++ second) = unechoed first ++ unechoed second :=
  List.filter_append ..

/-- Outcomes with the same value or failure and the same run, and with the same blocks but for
echoes. -/
structure Outcome.SameButEchoes {α : Type} (first second : Outcome α) : Prop where
  result : first.result = second.result
  run : first.run = second.run
  blocks : Block.unechoed first.blocks = Block.unechoed second.blocks

/-- Steps that come out alike but for echoes, wherever they begin. -/
def sameButEchoes : Comparison := fun _ first second =>
  ∀ run, (first run).SameButEchoes (second run)

namespace sameButEchoes

variable {α β : Type}

theorem refl (step : Rendering α) : sameButEchoes α step step :=
  fun _ => ⟨rfl, rfl, rfl⟩

theorem inSequence {first second : Rendering α} {next other : α → Rendering β}
    (hsteps : sameButEchoes α first second) (hnext : ∀ a, sameButEchoes β (next a) (other a)) :
    sameButEchoes β (first >>= next) (second >>= other) := by
  intro run
  obtain ⟨hresult, hrun, hblocks⟩ := hsteps run
  cases hfirst : (first run).result with
  | error failure =>
    rw [then_of_error hfirst, then_of_error (hresult ▸ hfirst)]
    exact ⟨rfl, hrun, hblocks⟩
  | ok a =>
    obtain ⟨hresult', hrun', hblocks'⟩ := hnext a (first run).run
    rw [then_of_ok hfirst, then_of_ok (hresult ▸ hfirst), ← hrun]
    refine ⟨hresult', hrun', ?_⟩
    rw [Block.unechoed_append, Block.unechoed_append, hblocks, hblocks']

/-- That an inclusion is recognised and repeated makes no difference. -/
theorem afterEcho {first second : Rendering α} (event : Event) (depth : Nat) (value : String)
    (h : sameButEchoes α first second) :
    sameButEchoes α (do report event; emit (.echo depth value); first) second := by
  intro run
  obtain ⟨hresult, hrun, hblocks⟩ := h run
  rw [then_of_ok rfl, then_of_ok rfl]
  exact ⟨hresult, hrun, hblocks⟩

end sameButEchoes

/-! ## One directive for each file -/

section Siblings

variable (world : World) (enter : Entering)

/-- A node that includes one file as another includes several. -/
structure Node.IncludesOne (source : String) (once : Bool) (name : String) (node : Node) :
    Prop where
  source : node.source = source
  directive : node.value.bind Directive.ofValue? = some (.inclusion once [name])

variable {source : String} {once : Bool} {names : List String} {parts : List Node}

/-- Rendering directives for one file each, and then siblings, is including the files and then
rendering the siblings on the level that takes up what is in force behind the last file. The
induction is on the files. -/
theorem renderNodes_parts (hparts : List.Forall₂ (Node.IncludesOne source once) names parts)
    (after : List Node) (level : Level) :
    sameButEchoes Level (renderNodes world enter (parts ++ after) level) (do
      let setting ← includeFiles world enter source level.depth once names level.setting
      renderNodes world enter after (level.adopt setting)) := by
  induction hparts generalizing level with
  | nil => exact sameButEchoes.refl _
  | @cons name part names parts hpart _ ih =>
    rw [List.cons_append, renderNodes, renderNode_inclusion _ _ hpart.directive, hpart.source]
    simp only [includeFiles, bind_assoc, pure_bind]
    refine sameButEchoes.afterEcho _ _ _ ?_
    refine sameButEchoes.inSequence (sameButEchoes.refl _) fun setting => ?_
    -- what the level has taken up is what the next file begins with
    exact ih (level.adopt setting)

/-- A directive for several files and directives for one file each come to the same, in front of
the same siblings. -/
theorem renderNodes_whole {whole : Node}
    (hwhole : whole.value.bind Directive.ofValue? = some (.inclusion once names))
    (hparts : List.Forall₂ (Node.IncludesOne whole.source once) names parts)
    (after : List Node) (level : Level) :
    sameButEchoes Level (renderNodes world enter (whole :: after) level)
      (renderNodes world enter (parts ++ after) level) := by
  rw [renderNodes, renderNode_inclusion _ _ hwhole]
  simp only [bind_assoc, pure_bind]
  refine sameButEchoes.afterEcho _ _ _ fun run => ?_
  obtain ⟨hresult, hrun, hblocks⟩ := renderNodes_parts world enter hparts after level run
  exact ⟨hresult.symm, hrun.symm, hblocks.symm⟩

/-- Whatever stands before them and behind them, a directive for several files and directives for
one file each come to the same. There is at least one file, so in either case no line before them
is continued. -/
theorem renderSiblings_whole {whole : Node}
    (hwhole : whole.value.bind Directive.ofValue? = some (.inclusion once names))
    (hparts : List.Forall₂ (Node.IncludesOne whole.source once) names parts) (hnames : names ≠ [])
    (before after : List Node) (level : Level) :
    sameButEchoes Level (renderSiblings world enter (before ++ whole :: after) level)
      (renderSiblings world enter (before ++ (parts ++ after)) level) := by
  have hwholeHead : Node.isContinuation ((whole :: after).head?.bind (·.value)) = false :=
    Directive.isContinuation_of_bind hwhole
  have hpartsHead : Node.isContinuation ((parts ++ after).head?.bind (·.value)) = false := by
    cases hparts with
    | nil => exact absurd rfl hnames
    | cons hpart => exact Directive.isContinuation_of_bind hpart.directive
  rw [renderSiblings_append _ _ _ hwholeHead, renderSiblings_append _ _ _ hpartsHead]
  refine sameButEchoes.inSequence (sameButEchoes.refl _) fun level => ?_
  refine sameButEchoes.inSequence ?_ fun level => sameButEchoes.refl _
  exact renderNodes_whole world enter hwhole hparts after level

end Siblings

/-- **One directive or several.** Take the names of files, at least one and none with blanks, that
one directive includes among siblings, and the siblings with a directive for each of the names in
its place, all with the label of the first. However outlines are entered, whatever level and run
the renderings begin with, they end with the same level or the same failure and in the same run,
and what they write is the same once the comments that repeat the directives are left out. -/
theorem unechoed_renderSiblings_inclusions (world : World) (enter : Entering) (once : Bool)
    {names : List String} (hne : names ≠ [])
    (hnames : ∀ name ∈ names, name.toList ≠ [] ∧ ∀ c ∈ name.toList, isBlank c = false)
    (before after children below : List Node) (source : String) (level : Level) (run : Run) :
    let whole : Node := ⟨some (Directive.inclusionText once names), source, children⟩
    let parts : List Node := names.map fun name =>
      ⟨some (Directive.inclusionText once [name]), source, below⟩
    let together := renderSiblings world enter (before ++ whole :: after) level run
    let apart := renderSiblings world enter (before ++ parts ++ after) level run
    together.result = apart.result ∧ together.run = apart.run ∧
      Block.unechoed together.blocks = Block.unechoed apart.blocks := by
  intro whole parts together apart
  have hwhole : whole.value.bind Directive.ofValue? = some (.inclusion once names) :=
    Directive.ofValue?_inclusionText once hnames
  have hparts : List.Forall₂ (Node.IncludesOne source once) names parts := by
    rw [List.forall₂_map_right_iff, List.forall₂_same]
    refine fun name hname => ⟨rfl, Directive.ofValue?_inclusionText once fun other hother => ?_⟩
    obtain rfl := List.mem_singleton.mp hother
    exact hnames other hname
  have hsame := renderSiblings_whole world enter hwhole hparts hne before after level run
  rw [← List.append_assoc] at hsame
  exact ⟨hsame.result, hsame.run, hsame.blocks⟩

/-- A world with an outline that switches the styles and the escaping, and a file with a text. -/
def mixedWorld : World :=
  { files := ⟨[], [
    (["p.otl"], .file (Utf8.encode "!format P\n!escape 0")),
    (["r"], .file (Utf8.encode "x"))]⟩ }

/-- The file with the text is skipped when it is named again, behind the outline. -/
theorem unechoed_renderSiblings_inclusions_mixed :
    let names := ["r", "p.otl", "r"]
    let whole : Node := ⟨some "!include- r p.otl r", "t:2", []⟩
    let parts : List Node := [⟨some "!include- r", "t:2", []⟩, ⟨some "!include- p.otl", "t:2", []⟩,
      ⟨some "!include- r", "t:2", []⟩]
    let before : List Node := [⟨some "a", "t:1", []⟩]
    let after : List Node := [⟨some "b_", "t:3", []⟩]
    let level := Level.fresh 0 ⟨⟨[Style.list "I" "itemize"]⟩, true⟩
    let together := renderSiblings mixedWorld mixedWorld.enter (before ++ whole :: after) level {}
    let apart := renderSiblings mixedWorld mixedWorld.enter (before ++ parts ++ after) level {}
    names ≠ [] ∧
      (∀ name ∈ names, name.toList ≠ [] ∧ ∀ c ∈ name.toList, isBlank c = false) ∧
      together.result = apart.result ∧ together.run = apart.run ∧
      Block.unechoed together.blocks = Block.unechoed apart.blocks ∧
      (Block.linesOf apart.blocks).map Line.written =
        ["\\begin\x7bitemize\x7d % t:1", "\\item a % t:1", "% !include- r", "x",
          "% !include- p.otl", "% !include- r", "\\end\x7bitemize\x7d", "b_\\par % t:3"] := by
  intro names whole parts before after level together apart
  have hne : names ≠ [] := List.cons_ne_nil _ _
  have hnames : ∀ name ∈ names, name.toList ≠ [] ∧ ∀ c ∈ name.toList, isBlank c = false := by
    intro name hname
    have hword : name.toList ≠ [] ∧ name.toList.all (!isBlank ·) = true := by
      revert name
      decide +kernel
    exact ⟨hword.1, fun c hc => by simpa using List.all_eq_true.mp hword.2 c hc⟩
  obtain ⟨hresult, hrun, hblocks⟩ := unechoed_renderSiblings_inclusions mixedWorld mixedWorld.enter
    true hne hnames before after [] [] "t:2" level {}
  exact ⟨hne, hnames, hresult, hrun, hblocks, by decide +kernel⟩

end OutlineTex
