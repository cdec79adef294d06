/-
Includes come to an end.

An outline that is included is rendered in the place of the directive, and its own directives
include more. Nothing ends that by itself: an outline that includes itself goes on for ever. It
ends if the plain includes, those that are taken whenever they are reached, lead from no outline
back to it. The includes that are taken only once may lead wherever they like.

What decreases from an outline to one inside it is a pair. An include for once is taken when its
place is not registered, and registers it before the outline is opened, so fewer places are left
to register. A plain include leaves no more of them, and goes down in the graph of the plain
includes, which has no cycle and is finite. Each number is bounded by the number of places, and
so is the depth in which outlines can lie within one another. The room that rendering is given
is that much and more, and beyond it more room changes nothing.
-/
import Mathlib.Data.Finset.Card
import Mathlib.Logic.Relation
import OutlineTex.Proofs.FileSystem.Places
import OutlineTex.Proofs.Rendering.Comparison

set_option autoImplicit false

namespace OutlineTex

open OutlineTex.Text
open Rendering

/-! ## The graph of plain includes -/

namespace World

variable (world : World)

/-- An outline at one place has a directive that includes an outline at another whenever it is
reached. What a name stands for depends on how the path of the outline was spelled, and every
spelling counts. -/
def PlainlyIncludes (place target : Location) : Prop :=
  ∃ path nodes, ∃ reference ∈ Node.referencesOf nodes,
    path.resolve world.files.cwd = place ∧ world.readOutline path = .ok nodes ∧
    reference.once = false ∧ world.isOutlineName reference.name = true ∧
    reference.path.resolve world.files.cwd = target

/-- The places where something stands. -/
def places : Finset Location :=
  (world.files.entries.map (·.1)).toFinset

theorem card_places_le : world.places.card ≤ world.files.entries.length := by
  have hcard := (world.files.entries.map (·.1)).toFinset_card_le
  rw [List.length_map] at hcard
  exact hcard

theorem mem_places_of_readOutline {path : Path} {nodes : List Node}
    (h : world.readOutline path = .ok nodes) : path.resolve world.files.cwd ∈ world.places := by
  obtain ⟨content, text, hfind, -, -⟩ := world.find?_of_readOutline h
  exact List.mem_toFinset.mpr (List.mem_map_of_mem (FileSystem.mem_of_find? hfind))

open Classical in
/-- The places that plain includes lead to from a place. -/
noncomputable def below (place : Location) : Finset Location :=
  world.places.filter (Relation.TransGen world.PlainlyIncludes place)

/-- The rank of a place: how many places lie below it. -/
noncomputable def rank (place : Location) : Nat :=
  (world.below place).card

open Classical in
theorem rank_le (place : Location) : world.rank place ≤ world.files.entries.length := by
  have hsubset : world.below place ⊆ world.places := Finset.filter_subset _ _
  exact Nat.le_trans (Finset.card_le_card hsubset) world.card_places_le

/-- A plain include goes down in rank: what lies below its target lies below its place too, and
there is the target itself, which is not below itself. -/
theorem rank_lt {place target : Location}
    (hacyclic : ∀ place, ¬ Relation.TransGen world.PlainlyIncludes place place)
    (hedge : world.PlainlyIncludes place target) (htarget : target ∈ world.places) :
    world.rank target < world.rank place := by
  classical
  have hsubset : world.below target ⊆ world.below place := by
    intro other hother
    obtain ⟨hmem, hbelow⟩ := Finset.mem_filter.mp hother
    exact Finset.mem_filter.mpr ⟨hmem, .head hedge hbelow⟩
  have hthere : target ∈ world.below place := Finset.mem_filter.mpr ⟨htarget, .single hedge⟩
  have hnot : target ∉ world.below target := by
    intro hmem
    exact hacyclic target (Finset.mem_filter.mp hmem).2
  exact Finset.card_lt_card ⟨hsubset, fun h => hnot (h hthere)⟩

/-! ## Places that are left -/

/-- The number of places that are not registered. -/
def unregistered (register : List Location) : Nat :=
  (world.places.filter (· ∉ register)).card

theorem unregistered_le (register : List Location) :
    world.unregistered register ≤ world.files.entries.length :=
  Nat.le_trans (Finset.card_filter_le _ _) world.card_places_le

variable {world}

/-- A register that grew leaves no more places. -/
theorem unregistered_mono {register later : List Location} (h : register ⊆ later) :
    world.unregistered later ≤ world.unregistered register := by
  refine Finset.card_le_card fun place hplace => ?_
  obtain ⟨hmem, hleft⟩ := Finset.mem_filter.mp hplace
  exact Finset.mem_filter.mpr ⟨hmem, fun hregistered => hleft (h hregistered)⟩

/-- Registering a place that was left leaves fewer. -/
theorem unregistered_lt {register later : List Location} {place : Location}
    (h : register ⊆ later) (hplace : place ∈ world.places) (hleft : place ∉ register)
    (hregistered : place ∈ later) : world.unregistered later < world.unregistered register := by
  refine Finset.card_lt_card ⟨fun other hother => ?_, fun hsubset => ?_⟩
  · obtain ⟨hmem, hnot⟩ := Finset.mem_filter.mp hother
    exact Finset.mem_filter.mpr ⟨hmem, fun hbefore => hnot (h hbefore)⟩
  · have hthere := hsubset (Finset.mem_filter.mpr ⟨hplace, hleft⟩)
    exact (Finset.mem_filter.mp hthere).2 hregistered

end World

/-! ## Steps that end -/

/-- A step ends if, in every run with no more than so many places left, it does not fail for
want of room. It forgets no place that is registered. -/
def Rendering.Ends {α : Type} (world : World) (left : Nat) (step : Rendering α) : Prop :=
  ∀ run, world.unregistered run.included ≤ left →
    run.included ⊆ (step run).run.included ∧
      ∀ failure, (step run).result = .error failure → failure.isEndless = false

theorem ne_endlessInclusion {α : Type} {result : Except Failure α}
    (h : ∀ failure, result = .error failure → failure.isEndless = false) (path : Path) :
    result ≠ .error (.endlessInclusion path) := by
  intro hresult
  exact Bool.noConfusion (h _ hresult)

/-- So many places are left after a reference was registered, of so many before: one less if it
is for once and there is a file. -/
structure Reference.Leaves (world : World) (reference : Reference) (before after : Nat) : Prop where
  le : after ≤ before
  lt : reference.once = true → reference.path.resolve world.files.cwd ∈ world.places →
    after < before

namespace Ends

variable {world : World} {left : Nat}

/-- What follows a step begins with no more places left than the step itself. -/
theorem inSequence {α β : Type} {step : Rendering α} {next : α → Rendering β}
    (hstep : step.Ends world left) (hnext : ∀ a, (next a).Ends world left) :
    (step >>= next).Ends world left := by
  intro run hleft
  obtain ⟨hgrows, hends⟩ := hstep run hleft
  cases hresult : (step run).result with
  | error failure =>
    rw [then_of_error hresult]
    refine ⟨hgrows, fun cause hcause => ?_⟩
    rw [← Except.error.inj hcause]
    exact hends failure hresult
  | ok a =>
    -- what the step has registered does not come back
    have hfewer := Nat.le_trans (World.unregistered_mono hgrows) hleft
    obtain ⟨hlater, hrest⟩ := hnext a (step run).run hfewer
    rw [then_of_ok hresult]
    exact ⟨List.Subset.trans hgrows hlater, hrest⟩

/-- A step that succeeds and registers what was registered. -/
theorem of_ok {α : Type} {step : Rendering α} (hok : ∀ run, ∃ a, (step run).result = .ok a)
    (hincluded : ∀ run, (step run).run.included = run.included) : step.Ends world left := by
  intro run _
  obtain ⟨a, ha⟩ := hok run
  refine ⟨(hincluded run).symm ▸ List.Subset.refl _, fun failure hfailure => ?_⟩
  exact absurd (ha.symm.trans hfailure) (by simp)

theorem reporting (event : Event) : (report event).Ends world left :=
  of_ok (fun _ => ⟨(), rfl⟩) fun _ => rfl

/-- The comparison of ending, by which a step is compared with itself. -/
theorem transparent (world : World) (left : Nat) :
    Comparison.Transparent fun _ step _ => step.Ends world left where
  returning a := of_ok (fun _ => ⟨a, rfl⟩) fun _ => rfl
  inSequence := inSequence
  failing failure hfailure run _ :=
    ⟨List.Subset.refl _, fun _ hcause => (Except.error.inj hcause) ▸ hfailure⟩
  reporting event _ := reporting event
  writing _ := of_ok (fun _ => ⟨(), rfl⟩) fun _ => rfl
  looking hboth run hleft := by
    rw [then_of_ok rfl]
    exact hboth run run hleft
  changing f hf := of_ok (fun _ => ⟨(), rfl⟩) hf
  enclosing _ hstep := hstep
  listening hstep run hleft := by
    obtain ⟨hgrows, hends⟩ := hstep run hleft
    exact ⟨hgrows, fun failure hfailure => hends failure (eq_error_of_map hfailure)⟩

/-! ## Inclusions -/

theorem subset_mark (run : Run) (place : Location) :
    run.included ⊆ (run.mark place).included := by
  rw [included_mark]
  exact (prefix_registered run.included place).subset

/-- Marking the place of a reference leaves fewer places if it was left and there is a file. -/
theorem leaves_mark (reference : Reference) {run : Run}
    (hleft : world.unregistered run.included ≤ left)
    (hfresh : reference.once = true →
      reference.path.resolve world.files.cwd ∉ run.included) :
    reference.Leaves world left
      (world.unregistered (run.mark (reference.path.resolve world.files.cwd)).included) := by
  have hgrows := subset_mark run (reference.path.resolve world.files.cwd)
  refine ⟨Nat.le_trans (World.unregistered_mono hgrows) hleft, fun honce hplace => ?_⟩
  have hthere : reference.path.resolve world.files.cwd ∈
      (run.mark (reference.path.resolve world.files.cwd)).included := by
    rw [included_mark]
    exact mem_registered _ _
  exact Nat.lt_of_lt_of_le (World.unregistered_lt hgrows hplace (hfresh honce) hthere) hleft

variable {enter : Entering}

/-- Putting in a file ends if, where it is an outline, entering it does. -/
theorem putIn {source : String} {depth : Nat} {once : Bool} {name : String} {setting : Setting}
    (henter : world.isOutlineName name = true →
      (enter (includedPath source name) depth setting).Ends world left) :
    (putIn world enter source depth once name setting).Ends world left := by
  unfold OutlineTex.putIn
  split
  · next houtline => exact inSequence (reporting _) fun _ => henter houtline
  · refine inSequence (reporting _) fun _ => ?_
    exact (transparent world left).compositional.copyFile world source _ setting

/-- Including a file ends if entering an outline does with the places that are left once it is
registered. -/
theorem includeFile {source : String} {once : Bool} {name : String}
    (henter : world.isOutlineName name = true →
      ∀ after, (⟨source, once, name⟩ : Reference).Leaves world left after →
      ∀ depth setting, (enter (includedPath source name) depth setting).Ends world after)
    (depth : Nat) (setting : Setting) :
    (includeFile world enter source depth once name setting).Ends world left := by
  intro run hleft
  rcases includeFile_eq world enter source depth once name setting run with
    ⟨-, hfailed⟩ | ⟨-, -, hskipped⟩ | ⟨hfresh, hput⟩
  · rw [hfailed]
    refine ⟨List.Subset.refl _, fun failure hfailure => ?_⟩
    rw [← Except.error.inj hfailure]
    rfl
  · rw [hskipped]
    exact ⟨List.Subset.refl _, fun failure hfailure => absurd hfailure (by simp)⟩
  · have hleaves := leaves_mark ⟨source, once, name⟩ hleft hfresh
    have hends : (OutlineTex.putIn world enter source depth once name setting).Ends world _ :=
      putIn fun houtline => henter houtline _ hleaves depth setting
    obtain ⟨hgrows, hfailures⟩ := hends _ (Nat.le_refl _)
    rw [hput]
    exact ⟨List.Subset.trans (subset_mark run _) hgrows, hfailures⟩

theorem includeFiles {source : String} {once : Bool} {names : List String}
    (henter : ∀ name ∈ names, world.isOutlineName name = true →
      ∀ after, (⟨source, once, name⟩ : Reference).Leaves world left after →
      ∀ depth setting, (enter (includedPath source name) depth setting).Ends world after)
    (depth : Nat) (setting : Setting) :
    (includeFiles world enter source depth once names setting).Ends world left := by
  induction names generalizing setting with
  | nil => exact (transparent world left).returning setting
  | cons name rest ih =>
    have hfirst := includeFile (henter name List.mem_cons_self) depth setting
    exact inSequence hfirst (ih fun other hother => henter other (List.mem_cons_of_mem _ hother))

/-- Directives end if the outlines they name do. -/
theorem dispatches {allowed : Reference → Prop}
    (henter : ∀ reference, allowed reference → world.isOutlineName reference.name = true →
      ∀ after, reference.Leaves world left after →
      ∀ depth setting, (enter reference.path depth setting).Ends world after) :
    Comparison.Dispatches (fun _ step _ => step.Ends world left) allowed world world enter
      enter where
  inclusion {level node once names} hdirective hallowed := by
    simp only [dispatch, hdirective, carryOut]
    refine inSequence (reporting _) fun _ => ?_
    refine inSequence ((transparent world left).compositional.emit rfl) fun _ => ?_
    have hfiles := includeFiles (fun name hname => henter ⟨node.source, once, name⟩
      (hallowed name hname)) level.depth ⟨level.styles, level.escaping⟩
    exact inSequence hfiles fun setting => (transparent world left).returning _
  script hdirective := (transparent world left).script world enter enter hdirective

end Ends

/-! ## Outlines -/

namespace World

variable {world : World}
  (hacyclic : ∀ place, ¬ Relation.TransGen world.PlainlyIncludes place place)

/-- The room that an outline at a place takes with so many places left: a round through all
ranks for each of them, the ranks below the place, and room for a file that cannot be read. -/
noncomputable def demand (world : World) (left : Nat) (place : Location) : Nat :=
  left * (world.files.entries.length + 1) + world.rank place + 2

theorem demand_le {left : Nat} (h : left ≤ world.files.entries.length) (place : Location) :
    world.demand left place ≤
      (world.files.entries.length + 1) * (world.files.entries.length + 1) + 1 := by
  have hrounds := Nat.mul_le_mul_right (world.files.entries.length + 1) h
  have hrank := world.rank_le place
  rw [demand, Nat.succ_mul]
  omega

include hacyclic

/-- An outline takes less room than the outline that it is included from. -/
theorem demand_lt {path : Path} {nodes : List Node} {reference : Reference} {left after : Nat}
    (hread : world.readOutline path = .ok nodes)
    (hreference : reference ∈ Node.referencesOf nodes)
    (houtline : world.isOutlineName reference.name = true)
    (hplace : reference.path.resolve world.files.cwd ∈ world.places)
    (hleaves : reference.Leaves world left after) :
    world.demand after (reference.path.resolve world.files.cwd) <
      world.demand left (path.resolve world.files.cwd) := by
  cases honce : reference.once with
  | false =>
    have hedge : world.PlainlyIncludes (path.resolve world.files.cwd)
        (reference.path.resolve world.files.cwd) :=
      ⟨path, nodes, reference, hreference, rfl, hread, honce, houtline, rfl⟩
    have hrank := world.rank_lt hacyclic hedge hplace
    have hrounds := Nat.mul_le_mul_right (world.files.entries.length + 1) hleaves.le
    rw [demand, demand]
    omega
  | true =>
    -- the rank may go up, but no further than one round through all of them
    have hrank := world.rank_le (reference.path.resolve world.files.cwd)
    have hrounds := Nat.mul_le_mul_right (world.files.entries.length + 1) (hleaves.lt honce hplace)
    rw [Nat.succ_mul] at hrounds
    rw [demand, demand]
    omega

end World

namespace Ends

variable {world : World}
  (hacyclic : ∀ place, ¬ Relation.TransGen world.PlainlyIncludes place place)
include hacyclic

/-- Entering an outline ends in the room that it takes. The induction is on the room; the
outlines inside take less of it. -/
theorem enterOutline {room left : Nat} {path : Path} (hroom : 0 < room)
    (hdemand : ∀ nodes, world.readOutline path = .ok nodes →
      world.demand left (path.resolve world.files.cwd) ≤ room)
    (depth : Nat) (setting : Setting) :
    (enterOutline world room path depth setting).Ends world left := by
  induction room generalizing left path depth setting with
  | zero => exact absurd hroom (Nat.lt_irrefl 0)
  | succ room ih =>
    -- only the references of the outline itself are known to take less
    have henter : ∀ reference : Reference,
        (∃ nodes, world.readOutline path = .ok nodes ∧ reference ∈ Node.referencesOf nodes) →
        world.isOutlineName reference.name = true →
        ∀ after, reference.Leaves world left after → ∀ depth setting,
          (OutlineTex.enterOutline world room reference.path depth setting).Ends world after := by
      rintro reference ⟨nodes, hread, hreference⟩ houtline after hleaves depth setting
      have hhere := hdemand nodes hread
      refine ih ?_ (fun inner hinner => ?_) depth setting
      · -- the outline was read, so there is room for one more even if that cannot be read
        unfold World.demand at hhere
        omega
      · have hplace := world.mem_places_of_readOutline hinner
        have hless := World.demand_lt hacyclic hread hreference houtline hplace hleaves
        omega
    have h := (transparent world left).compositional
    exact h.enterOutline path depth setting rfl (dispatches henter)
      fun nodes hread reference hreference => ⟨nodes, hread, hreference⟩

/-- So does rendering siblings, whatever they include, with room for all rounds. -/
theorem renderSiblings {room : Nat}
    (hroom : (world.files.entries.length + 1) * (world.files.entries.length + 1) < room)
    (nodes : List Node) (level : Level) :
    (renderSiblings world (OutlineTex.enterOutline world room) nodes level).Ends world
      world.files.entries.length := by
  have henter : ∀ reference : Reference, True → world.isOutlineName reference.name = true →
      ∀ after, reference.Leaves world world.files.entries.length after → ∀ depth setting,
        (OutlineTex.enterOutline world room reference.path depth setting).Ends world after := by
    intro reference _ _ after hleaves depth setting
    refine enterOutline hacyclic (by omega) (fun inner _ => ?_) depth setting
    have hdemand := World.demand_le hleaves.le (reference.path.resolve world.files.cwd)
    omega
  exact (transparent world _).compositional.renderSiblings (dispatches henter) nodes
    (fun _ _ => trivial) level

end Ends

/-! ## More room -/

/-- A step with more room does the same, unless the first one fails for want of room. -/
def roomier : Comparison := fun _ step wider =>
  ∀ run, (∀ failure, (step run).result = .error failure → failure.isEndless = false) →
    wider run = step run

namespace roomier

theorem inSequence {α β : Type} {step wider : Rendering α} {next other : α → Rendering β}
    (hstep : roomier α step wider) (hnext : ∀ a, roomier β (next a) (other a)) :
    roomier β (step >>= next) (wider >>= other) := by
  intro run hends
  -- the first step cannot have run out of room, since then the sequence would have
  have hfirst : wider run = step run := by
    refine hstep run fun failure hfailure => hends failure ?_
    rw [then_of_error hfailure]
  show (wider run).andThen other = (step run).andThen next
  rw [hfirst]
  cases hresult : (step run).result with
  | error failure => simp only [Outcome.andThen, hresult]
  | ok a =>
    have hsecond : other a (step run).run = next a (step run).run := by
      refine hnext a _ fun failure hfailure => hends failure ?_
      rw [then_of_ok hresult]
      exact hfailure
    simp only [Outcome.andThen, hresult, hsecond]

theorem transparent : roomier.Transparent where
  returning _ _ _ := rfl
  inSequence := inSequence
  failing _ _ _ _ := rfl
  reporting _ _ _ _ := rfl
  writing _ _ _ := rfl
  looking hboth run hends := by
    rw [then_of_ok rfl] at hends
    rw [then_of_ok rfl, then_of_ok rfl]
    exact hboth run run hends
  changing _ _ _ _ := rfl
  enclosing wrap hsteps run hends := by
    rw [within, within, hsteps run hends]
  listening {α first second} hsteps run hends := by
    rw [Rendering.listen, Rendering.listen, hsteps run fun failure hfailure => hends failure ?_]
    rw [Rendering.listen, hfailure]
    rfl

theorem registering : roomier.Registering where
  toCompositional := transparent.compositional
  marking _ _ _ := rfl
  announcing _ _ _ _ := rfl

theorem dispatches (world : World) {enter other : Entering}
    (henter : ∀ path depth setting,
      roomier Setting (enter path depth setting) (other path depth setting)) :
    roomier.Dispatches (fun _ => True) world world enter other where
  inclusion hdirective _ := registering.inclusion ⟨rfl, rfl⟩ henter hdirective
  script hdirective := transparent.script world enter other hdirective

/-- With more room an outline is entered as before, unless it ran out of room. The induction is
on the lesser room. -/
theorem enterOutline (world : World) {room more : Nat} (hroom : room ≤ more) (path : Path)
    (depth : Nat) (setting : Setting) :
    roomier Setting (enterOutline world room path depth setting)
      (enterOutline world more path depth setting) := by
  induction room generalizing more path depth setting with
  | zero => exact fun run hends => absurd rfl (ne_endlessInclusion hends path)
  | succ room ih =>
    cases more with
    | zero => exact absurd hroom (Nat.not_succ_le_zero room)
    | succ more =>
      have hopen := dispatches world (ih (Nat.le_of_succ_le_succ hroom))
      exact registering.enterOutline path depth setting rfl hopen fun _ _ _ _ => trivial

theorem renderNodes (world : World) {room more : Nat} (hroom : room ≤ more)
    (nodes : List Node) (level : Level) :
    roomier Level (renderNodes world (OutlineTex.enterOutline world room) nodes level)
      (renderNodes world (OutlineTex.enterOutline world more) nodes level) :=
  registering.renderNodes (dispatches world (enterOutline world hroom)) nodes
    (fun _ _ => trivial) level

theorem renderSiblings (world : World) {room more : Nat} (hroom : room ≤ more)
    (nodes : List Node) (level : Level) :
    roomier Level (renderSiblings world (OutlineTex.enterOutline world room) nodes level)
      (renderSiblings world (OutlineTex.enterOutline world more) nodes level) :=
  registering.renderSiblings (dispatches world (enterOutline world hroom)) nodes
    (fun _ _ => trivial) level

end roomier

/-! ## Renderings and conversions -/

/-- The room of a world is enough for all rounds through its places. -/
theorem World.lt_nestingBound (world : World) :
    (world.files.entries.length + 1) * (world.files.entries.length + 1) < world.nestingBound := by
  have hwider : world.files.entries.length + 1 ≤
      world.files.entries.length + directoryLimit + 1 := by omega
  exact Nat.lt_succ_of_le (Nat.mul_le_mul_right _ hwider)

/-- **Includes end.** If no plain include leads from an outline back to it, then nothing is
endless, wherever the includes for once lead and whatever is registered: a rendering comes to a
value or to another failure in a room bounded by the number of places, the room that the world
gives or any other is the same to it, and so a conversion fails of nothing endless either. -/
theorem ends_of_acyclic (world : World)
    (hacyclic : ∀ place, ¬ Relation.TransGen world.PlainlyIncludes place place) :
    let places := world.files.entries.length
    (∀ (nodes : List Node) (depth : Nat) (setting : Setting) (run : Run) (room : Nat),
      (places + 1) * (places + 1) < room →
      let outcome := renderSiblings world (enterOutline world room) nodes (.fresh depth setting) run
      (∀ path, outcome.result ≠ .error (.endlessInclusion path)) ∧
        renderSiblings world world.enter nodes (.fresh depth setting) run = outcome) ∧
    ∀ (defaultClass : String) (options : ConversionOptions) (path outline : Path) (run : Run),
      (world.conversion defaultClass options path run).result ≠
        .error (.endlessInclusion outline) := by
  intro places
  refine ⟨fun nodes depth setting run room hroom => ?_, ?_⟩
  · have hends : ∀ room, (places + 1) * (places + 1) < room → ∀ failure,
        (renderSiblings world (enterOutline world room) nodes (.fresh depth setting) run).result =
          .error failure → failure.isEndless = false := by
      intro room hroom
      exact (Ends.renderSiblings hacyclic hroom nodes _ run (world.unregistered_le _)).2
    refine ⟨ne_endlessInclusion (hends room hroom), ?_⟩
    -- both rooms are compared with the least one that is enough
    have hleast := hends _ (Nat.lt_succ_self _)
    have hwider := roomier.renderSiblings world (Nat.succ_le_of_lt hroom) nodes
      (.fresh depth setting) run hleast
    have hgiven := roomier.renderSiblings world (Nat.succ_le_of_lt world.lt_nestingBound) nodes
      (.fresh depth setting) run hleast
    exact hgiven.trans hwider.symm
  · intro defaultClass options path outline run
    have hrender : ∀ nodes setting, (world.render nodes 0 setting).Ends world places := by
      intro nodes setting
      have hsiblings := Ends.renderSiblings hacyclic world.lt_nestingBound nodes (.fresh 0 setting)
      exact Ends.inSequence hsiblings fun _ => (Ends.transparent world places).returning _
    have hconversion := (Ends.transparent world places).conversion world defaultClass options path
      hrender run (world.unregistered_le _)
    exact ne_endlessInclusion hconversion.2 outline

/-- Two outlines that include each other, the second one in the first whenever it is reached, and
the first one in the second once. -/
def circleWorld : World :=
  { files := ⟨[], [
    (["a.otl"], .file (Utf8.encode "!include b.otl")),
    (["b.otl"], .file (Utf8.encode "!include- a.otl"))]⟩ }

/-- A single line that includes a file has one reference. -/
theorem eq_of_mem_referencesOf {value name source : String} {once : Bool} {reference : Reference}
    (hvalue : Directive.ofValue? value = some (.inclusion once [name]))
    (hreference : reference ∈ Node.referencesOf [⟨some value, source, []⟩]) :
    reference = ⟨source, once, name⟩ := by
  simp only [Node.referencesOf, Node.references, Node.ownReferences, Option.bind_some, hvalue,
    List.map_cons, List.map_nil, List.append_nil, List.mem_singleton] at hreference
  exact hreference

/-- The only plain includes are those of the second outline in the first, in whatever directory
that looks for it. -/
theorem circleWorld_plainlyIncludes {place target : Location}
    (h : circleWorld.PlainlyIncludes place target) :
    place = ["a.otl"] ∧ target.getLast? = some "b.otl" := by
  obtain ⟨path, nodes, reference, hreference, rfl, hread, honce, -, rfl⟩ := h
  obtain ⟨content, text, hfind, hdecode, rfl⟩ := circleWorld.find?_of_readOutline hread
  have hfile := FileSystem.mem_of_find? hfind
  simp only [circleWorld, List.mem_cons, Prod.mk.injEq, Entry.file.injEq, List.not_mem_nil,
    or_false] at hfile
  rcases hfile with ⟨hplace, rfl⟩ | ⟨-, rfl⟩
  · have htext : Utf8.decode (Utf8.encode "!include b.otl") = .ok "!include b.otl".toList := by
      decide +kernel
    obtain rfl := Except.ok.inj (htext.symm.trans hdecode)
    have hvalue : Directive.ofValue? "!include b.otl" = some (.inclusion false ["b.otl"]) := by
      decide +kernel
    obtain rfl := eq_of_mem_referencesOf hvalue hreference
    refine ⟨hplace, ?_⟩
    have hparts : (Path.ofText "b.otl").parts = ["b.otl"] := by decide +kernel
    have hroot : (Path.ofText "b.otl").isAbsolute = false := by decide +kernel
    unfold Reference.path includedPath Path.join Path.resolve
    rw [hroot, if_neg Bool.false_ne_true, hparts, List.foldl_append]
    exact List.getLast?_concat
  · have htext : Utf8.decode (Utf8.encode "!include- a.otl") = .ok "!include- a.otl".toList := by
      decide +kernel
    obtain rfl := Except.ok.inj (htext.symm.trans hdecode)
    have hvalue : Directive.ofValue? "!include- a.otl" = some (.inclusion true ["a.otl"]) := by
      decide +kernel
    obtain rfl := eq_of_mem_referencesOf hvalue hreference
    exact Bool.noConfusion honce

theorem ends_of_acyclic_circle :
    (∀ place, ¬ Relation.TransGen circleWorld.PlainlyIncludes place place) ∧
      let nodes : List Node := [{ value := some "!include- b.otl" }]
      let level := Level.fresh 0 ⟨⟨[Style.list "I" "itemize"]⟩, true⟩
      let outcome := renderSiblings circleWorld (enterOutline circleWorld 10) nodes level {}
      (∀ path, outcome.result ≠ .error (.endlessInclusion path)) ∧
        renderSiblings circleWorld circleWorld.enter nodes level {} = outcome ∧
        outcome.events.filterMap Event.entered? =
          [(true, ["b.otl"]), (true, ["a.otl"]), (false, ["b.otl"])] := by
  have hacyclic : ∀ place, ¬ Relation.TransGen circleWorld.PlainlyIncludes place place := by
    intro place hcycle
    obtain ⟨next, hfirst, -⟩ := Relation.TransGen.head'_iff.mp hcycle
    obtain ⟨last, -, hlast⟩ := Relation.TransGen.tail'_iff.mp hcycle
    have hplace := (circleWorld_plainlyIncludes hfirst).1
    have hname := (circleWorld_plainlyIncludes hlast).2
    rw [hplace] at hname
    exact absurd hname (by decide)
  refine ⟨hacyclic, ?_⟩
  intro nodes level outcome
  obtain ⟨hends, hroom⟩ := (ends_of_acyclic circleWorld hacyclic).1 nodes 0
    ⟨⟨[Style.list "I" "itemize"]⟩, true⟩ {} 10 (by decide)
  exact ⟨hends, hroom, by decide +kernel⟩

end OutlineTex
