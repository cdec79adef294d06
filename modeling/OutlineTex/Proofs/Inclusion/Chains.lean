/-
Chains of includes.

A name in a directive is meant as seen from the file that the directive stands in. Rendering does
not carry that file along. What it has is the label of the node, and it takes the directory out of
that. This file says that nothing goes wrong on the way, however deep files include one another and
whatever signs their names have. In an outline that was read through a path, every label leads to
the directory of that path. So along a chain of includes the names are joined directory by
directory, and a name that starts at the root begins anew.

A path is joined with a name before its directory is taken, and the two may be exchanged as long as
the name has a last component to drop. A name without one stands for the directory itself, which is
no outline, and so it can only come last.
-/
import OutlineTex.Proofs.FileSystem.Texts
import OutlineTex.Proofs.Outline.Blocks
import OutlineTex.Proofs.Rendering.Comparison

set_option autoImplicit false

namespace OutlineTex

open OutlineTex.Text
open Rendering

/-! ## The labels of an outline -/

namespace Outline

/-- Placeholders have labels of entries too. -/
theorem exists_source_of_mem_bridged {floor : Nat} {added : List Entry} {entry : Entry}
    (h : entry ∈ bridged floor added) : ∃ other ∈ added, entry.source = other.source := by
  induction added generalizing floor with
  | nil => exact absurd h List.not_mem_nil
  | cons first rest ih =>
    rcases List.mem_append.mp h with hbridge | hlisted
    · obtain ⟨between, -, rfl⟩ := List.mem_map.mp hbridge
      exact ⟨first, List.mem_cons_self, rfl⟩
    · rcases List.mem_cons.mp hlisted with rfl | hrest
      · exact ⟨entry, List.mem_cons_self, rfl⟩
      · obtain ⟨other, hother, hsource⟩ := ih hrest
        exact ⟨other, List.mem_cons_of_mem first hother, hsource⟩

/-- Every node of an outline has the label of a line, whether it was read from one or bridges a
level. -/
theorem exists_label_of_mem_placedOf {source : String} {lines : List (List Char)} {placed : Placed}
    (h : placed ∈ placedOf 0 (parse source lines)) :
    ∃ number, placed.node.source = label source number := by
  have hentry : placed.entry ∈ bridged 0 (lineEntries source lines) := by
    rw [← entriesOf_plant, ← parse_eq_plant, ← map_entry_placedOf]
    exact List.mem_map_of_mem h
  obtain ⟨other, hother, hsource⟩ := exists_source_of_mem_bridged hentry
  obtain ⟨number, -, -, hlabel⟩ := exists_label_of_mem hother
  exact ⟨number, hsource.trans hlabel⟩

/-- A reference has the label of the node whose directive it is in. -/
theorem exists_placed_of_mem_referencesOf (level : Nat) {forest : List Node}
    {reference : Reference} (h : reference ∈ Node.referencesOf forest) :
    ∃ placed ∈ placedOf level forest, reference.source = placed.node.source := by
  induction forest using Node.forest_induction generalizing level with
  | nil => exact absurd h List.not_mem_nil
  | cons value source children rest ihchildren ihrest =>
    rw [placedOf, placedAt]
    rcases List.mem_append.mp h with hnode | hrest
    · rcases List.mem_append.mp hnode with hown | hbelow
      · refine ⟨_, List.mem_append_left _ List.mem_cons_self, ?_⟩
        unfold Node.ownReferences at hown
        split at hown
        · obtain ⟨name, -, rfl⟩ := List.mem_map.mp hown
          rfl
        · exact absurd hown List.not_mem_nil
      · obtain ⟨placed, hplaced, hsource⟩ := ihchildren (level + 1) hbelow
        exact ⟨placed, List.mem_append_left _ (List.mem_cons_of_mem _ hplaced), hsource⟩
    · obtain ⟨placed, hplaced, hsource⟩ := ihrest level hrest
      exact ⟨placed, List.mem_append_right _ hplaced, hsource⟩

end Outline

section Outlines

variable {world : World} {path : Path} {nodes : List Node} (hpath : path.IsNormal)
  (hread : world.readOutline path = .ok nodes)
include hpath hread

/-- All labels of an outline lead to the directory of the path through which it was read. -/
theorem World.sourceDirectory_of_readOutline {placed : Outline.Placed}
    (h : placed ∈ Outline.placedOf 0 nodes) : sourceDirectory placed.node.source = path.parent := by
  obtain ⟨content, text, -, -, rfl⟩ := world.find?_of_readOutline hread
  obtain ⟨number, hlabel⟩ := Outline.exists_label_of_mem_placedOf h
  rw [hlabel, sourceDirectory_label_text hpath]

/-- So a name in it is joined with that directory. -/
theorem World.path_of_mem_referencesOf {reference : Reference}
    (h : reference ∈ Node.referencesOf nodes) :
    reference.path = path.parent.join (.ofText reference.name) := by
  obtain ⟨placed, hplaced, hsource⟩ := Outline.exists_placed_of_mem_referencesOf 0 h
  have hdirectory := world.sourceDirectory_of_readOutline hpath hread hplaced
  rw [Reference.path, includedPath, hsource, hdirectory]

end Outlines

/-! ## Joining along a chain -/

namespace Path

/-- The path that the last of some names stands for if each of them is seen from the directory of
the one before it, and the first one from that of the given path. -/
def along (top : Path) (names : List Path) : Path :=
  match names.getLast? with
  | none => top
  | some last => ((names.dropLast.map parent).foldl join top.parent).join last

theorem along_concat (top : Path) (names : List Path) (last : Path) :
    top.along (names ++ [last]) = ((names.map parent).foldl join top.parent).join last := by
  rw [along, List.getLast?_concat, List.dropLast_concat]

/-- What starts at the root is seen from everywhere in the same way. -/
theorem join_of_isAbsolute (path : Path) {other : Path} (h : other.isAbsolute = true) :
    path.join other = other := by
  rw [join, if_pos h]

theorem along_append_absolute (top : Path) (before : List Path) {name : Path} (behind : List Path)
    (h : name.isAbsolute = true) : top.along (before ++ name :: behind) = name.along behind := by
  induction behind using List.reverseRecOn with
  | nil => rw [along_concat, join_of_isAbsolute _ h, along, List.getLast?_nil]
  | append_singleton behind last _ =>
    have hparent : name.parent.isAbsolute = true := h
    rw [← List.cons_append, ← List.append_assoc, along_concat, along_concat, List.map_append,
      List.foldl_append, List.map_cons, List.foldl_cons, join_of_isAbsolute _ hparent]

/-- The directory of a path that is joined is the joined directory, unless only the first of the
paths has a component to drop. -/
theorem parent_join {path other : Path}
    (h : other.parts ≠ [] ∨ other.isAbsolute = true ∨ path.parts = []) :
    (path.join other).parent = path.join other.parent := by
  have hkept : other.parent.isAbsolute = other.isAbsolute := rfl
  unfold join
  rw [hkept]
  split
  · rfl
  · next habsolute =>
    have hparts : (path.parts ++ other.parts).dropLast = path.parts ++ other.parts.dropLast := by
      rcases h with hother | hother | hpath
      · exact List.dropLast_append_of_ne_nil hother
      · exact absurd hother habsolute
      · rw [hpath, List.nil_append, List.nil_append]
    rw [parent, parent, hparts]

end Path

/-! ## Chains -/

namespace World

/-- `Leads top names path`: from the outline at the top, includes lead to the path, one inside the
other, and these are the names in them. All outlines on the way can be read; what the path leads to
need not be one. -/
inductive Leads (world : World) (top : Path) : List String → Path → Prop
  | start : Leads world top [] top
  | next {names path nodes reference} (hbefore : Leads world top names path)
      (hread : world.readOutline path = .ok nodes)
      (hreference : reference ∈ Node.referencesOf nodes) :
      Leads world top (names ++ [reference.name]) reference.path

/-- A reference is led to if some chain ends with it. -/
def LeadsTo (world : World) (top : Path) (reference : Reference) : Prop :=
  ∃ names, world.Leads top (names ++ [reference.name]) reference.path

variable {world : World} {top path : Path} {names : List String}

/-- An outline stands in a directory, and that is no outline. -/
theorem readOutline_parent {nodes other : List Node} (hread : world.readOutline path = .ok nodes)
    (hparts : path.parts ≠ []) : world.readOutline path.parent ≠ .ok other := by
  intro hparent
  obtain ⟨content, hcontent⟩ := world.exists_read hread
  obtain ⟨content', text, hfile, -, -⟩ := world.find?_of_readOutline hparent
  have hdirectory := FileSystem.find?_parent_of_read hcontent hparts
  exact absurd (hdirectory.symm.trans hfile) (by simp)

/-- In an outline at the end of a chain, all references are led to. -/
theorem Leads.leadsTo (h : world.Leads top names path) {nodes : List Node}
    (hread : world.readOutline path = .ok nodes) {reference : Reference}
    (hreference : reference ∈ Node.referencesOf nodes) : world.LeadsTo top reference :=
  ⟨names, h.next hread hreference⟩

theorem Leads.isNormal (h : world.Leads top names path) (htop : top.IsNormal) : path.IsNormal := by
  induction h with
  | start => exact htop
  | next _ hread hreference ih =>
    rw [world.path_of_mem_referencesOf ih hread hreference]
    exact ih.parent.join (Path.isNormal_ofText _)

/-- The directory of an outline at the end of a chain is joined from the directories of the names.
This is the invariant: the step to a further outline is a join with the directory of this one. -/
theorem Leads.parent_eq (h : world.Leads top names path) (htop : top.IsNormal) {nodes : List Node}
    (hread : world.readOutline path = .ok nodes) :
    path.parent = ((names.map Path.ofText).map Path.parent).foldl Path.join top.parent := by
  induction h generalizing nodes with
  | start => rfl
  | @next names path above reference hbefore habove hreference ih =>
    have hpath := world.path_of_mem_referencesOf (hbefore.isNormal htop) habove hreference
    rw [hpath, Path.parent_join, ih habove, List.map_append, List.map_append, List.foldl_append]
    · rfl
    · -- a name with nothing to drop would stand for the directory that this outline is in
      by_contra hnothing
      obtain ⟨hparts, habsolute, hparent⟩ := by simpa only [not_or, not_not] using hnothing
      have hsame : reference.path = path.parent := by
        rw [hpath, Path.join, if_neg habsolute, hparts, List.append_nil]
      have hne : path.parts ≠ [] := by
        intro hnil
        exact hparent (by rw [Path.parent, hnil, List.dropLast_nil])
      exact readOutline_parent habove hne (hsame ▸ hread)

/-- A chain leads to the path that its names stand for one after the other. -/
theorem Leads.eq_along (h : world.Leads top names path) (htop : top.IsNormal) :
    path = top.along (names.map .ofText) := by
  cases h with
  | start => rfl
  | next hbefore hread hreference =>
    rw [List.map_append, List.map_singleton, Path.along_concat, ← hbefore.parent_eq htop hread]
    exact world.path_of_mem_referencesOf (hbefore.isNormal htop) hread hreference

end World

/-! ## Runs -/

/-- The path of the file that an event is about. -/
def Event.filePath? : Event → Option Path
  | .skipped path | .enteredOutline _ _ path _ | .enteredFile _ _ path => some path
  | _ => none

/-- A file that an event is about stands at the end of a chain of includes, and if it is put in it
is registered under the place that the path resolves to. -/
def Event.IsLed (world : World) (top : Path) (event : Event) : Prop :=
  ∀ path, event.filePath? = some path →
    (∃ reference, world.LeadsTo top reference ∧ reference.path = path) ∧
      ∀ place, event.entered?.map (·.2) = some place → place = path.resolve world.files.cwd

theorem Event.isLed_of_concernsFile {world : World} {top : Path} {event : Event}
    (h : event.concernsFile = false) : event.IsLed world top := by
  intro path hpath
  cases event with
  | skipped | enteredOutline | enteredFile => exact absurd h (by simp [concernsFile])
  | _ => exact absurd hpath (by simp [filePath?])

/-- A step keeps to the chains if all its events do, and if it registers nothing but the places that
they lead to. -/
def Rendering.KeepsToChains {α : Type} (world : World) (top : Path) (step : Rendering α) : Prop :=
  ∀ run, (∀ event ∈ (step run).events, event.IsLed world top) ∧
    ∀ place ∈ (step run).run.included, place ∈ run.included ∨
      ∃ names path, world.Leads top names path ∧ place = path.resolve world.files.cwd

namespace KeepsToChains

variable {world : World} {top : Path}

theorem inSequence {α β : Type} {step : Rendering α} {next : α → Rendering β}
    (hstep : step.KeepsToChains world top) (hnext : ∀ a, (next a).KeepsToChains world top) :
    (step >>= next).KeepsToChains world top := by
  intro run
  obtain ⟨hevents, hincluded⟩ := hstep run
  cases hresult : (step run).result with
  | error failure =>
    rw [then_of_error hresult]
    exact ⟨hevents, hincluded⟩
  | ok a =>
    obtain ⟨hevents', hincluded'⟩ := hnext a (step run).run
    rw [then_of_ok hresult]
    refine ⟨fun event hevent => ?_, fun place hplace => ?_⟩
    · exact (List.mem_append.mp hevent).elim (hevents event) (hevents' event)
    · exact (hincluded' place hplace).elim (hincluded place) .inr

/-- A step that reports nothing and leaves the register alone. -/
theorem silent {α : Type} {step : Rendering α} (hevents : ∀ run, (step run).events = [])
    (hincluded : ∀ run, (step run).run.included = run.included) :
    step.KeepsToChains world top := by
  intro run
  rw [hevents, hincluded]
  exact ⟨fun event hevent => absurd hevent List.not_mem_nil, fun place hplace => .inl hplace⟩

theorem reporting {event : Event} (h : event.IsLed world top) :
    (report event).KeepsToChains world top := by
  intro run
  refine ⟨fun other hother => ?_, fun place hplace => .inl hplace⟩
  rw [List.mem_singleton.mp hother]
  exact h

/-- The comparison of keeping to the chains, by which a step is compared with itself. -/
theorem transparent (world : World) (top : Path) :
    Comparison.Transparent fun _ step _ => step.KeepsToChains world top where
  returning _ := silent (fun _ => rfl) fun _ => rfl
  inSequence := inSequence
  failing _ _ := silent (fun _ => rfl) fun _ => rfl
  reporting _ hevent := reporting (Event.isLed_of_concernsFile hevent)
  writing _ := silent (fun _ => rfl) fun _ => rfl
  looking hboth run := by
    rw [then_of_ok rfl]
    exact hboth run run
  changing f hf := silent (fun _ => rfl) hf
  enclosing _ hstep := hstep
  listening hstep := hstep

/-! ## Inclusions -/

/-- An event about the file of a reference that is led to. -/
theorem isLed_of_leadsTo {reference : Reference} {event : Event}
    (hled : world.LeadsTo top reference) (hpath : event.filePath? = some reference.path)
    (hplace : ∀ place, event.entered?.map (·.2) = some place →
      place = reference.path.resolve world.files.cwd) : event.IsLed world top := by
  intro path h
  obtain rfl : reference.path = path := Option.some.inj (hpath.symm.trans h)
  exact ⟨⟨reference, hled, rfl⟩, hplace⟩

variable {enter : Entering}
  (henter : ∀ reference, world.LeadsTo top reference →
    ∀ depth setting, (enter reference.path depth setting).KeepsToChains world top)
include henter

theorem putIn {source : String} {once : Bool} {name : String}
    (hled : world.LeadsTo top ⟨source, once, name⟩) (depth : Nat) (setting : Setting) :
    (putIn world enter source depth once name setting).KeepsToChains world top := by
  have hplace : ∀ place, some ((includedPath source name).resolve world.files.cwd) = some place →
      place = (includedPath source name).resolve world.files.cwd :=
    fun place h => (Option.some.inj h).symm
  unfold OutlineTex.putIn
  split
  · refine inSequence (reporting (isLed_of_leadsTo hled rfl hplace)) fun _ => ?_
    exact henter ⟨source, once, name⟩ hled depth setting
  · refine inSequence (reporting (isLed_of_leadsTo hled rfl hplace)) fun _ => ?_
    exact (transparent world top).compositional.copyFile world source _ setting

theorem includeFile {source : String} {once : Bool} {name : String}
    (hled : world.LeadsTo top ⟨source, once, name⟩) (depth : Nat) (setting : Setting) :
    (includeFile world enter source depth once name setting).KeepsToChains world top := by
  intro run
  rcases includeFile_eq world enter source depth once name setting run with
    ⟨-, hfailed⟩ | ⟨-, -, hskipped⟩ | ⟨-, hput⟩
  · rw [hfailed]
    exact ⟨fun event hevent => absurd hevent List.not_mem_nil, fun place hplace => .inl hplace⟩
  · rw [hskipped]
    refine ⟨fun event hevent => ?_, fun place hplace => .inl hplace⟩
    rw [List.mem_singleton.mp hevent]
    exact isLed_of_leadsTo hled rfl fun _ h => absurd h (by simp [Event.entered?])
  · rw [hput]
    obtain ⟨hevents, hincluded⟩ := putIn henter hled depth setting
      (run.mark ((includedPath source name).resolve world.files.cwd))
    refine ⟨hevents, fun place hplace => (hincluded place hplace).elim (fun hmarked => ?_) .inr⟩
    rw [included_mark] at hmarked
    rcases eq_or_mem_of_mem_registered hmarked with rfl | hbefore
    · obtain ⟨names, hnames⟩ := hled
      exact .inr ⟨_, _, hnames, rfl⟩
    · exact .inl hbefore

theorem includeFiles {source : String} {once : Bool} {names : List String}
    (hled : ∀ name ∈ names, world.LeadsTo top ⟨source, once, name⟩) (depth : Nat)
    (setting : Setting) :
    (includeFiles world enter source depth once names setting).KeepsToChains world top := by
  induction names generalizing setting with
  | nil => exact (transparent world top).returning setting
  | cons name rest ih =>
    have hfirst := includeFile henter (hled name List.mem_cons_self) depth setting
    exact inSequence hfirst (ih fun other hother => hled other (List.mem_cons_of_mem _ hother))

theorem dispatches : Comparison.Dispatches (fun _ step _ => step.KeepsToChains world top)
    (world.LeadsTo top) world world enter enter where
  inclusion {level node once names} hdirective hled := by
    simp only [dispatch, hdirective, carryOut]
    have hrecognised : (Event.recognised node (.inclusion once names)).IsLed world top :=
      fun _ hpath => absurd hpath (by simp [Event.filePath?])
    refine inSequence (reporting hrecognised) fun _ => ?_
    refine inSequence ((transparent world top).compositional.emit rfl) fun _ => ?_
    have hfiles := includeFiles henter hled level.depth ⟨level.styles, level.escaping⟩
    exact inSequence hfiles fun setting => (transparent world top).returning _
  script hdirective := (transparent world top).script world enter enter hdirective

omit henter

/-- Entering an outline at the end of a chain goes on along chains. The induction is on the number
of outlines that may be open within one another. -/
theorem enterOutline (room : Nat) {names : List String} {path : Path}
    (h : world.Leads top names path) (depth : Nat) (setting : Setting) :
    (enterOutline world room path depth setting).KeepsToChains world top := by
  induction room generalizing names path depth setting with
  | zero => exact silent (fun _ => rfl) fun _ => rfl
  | succ room ih =>
    have hopen := dispatches fun reference hled => ih hled.choose_spec
    exact (transparent world top).compositional.enterOutline path depth setting rfl hopen
      fun nodes hread reference hreference => h.leadsTo hread hreference

/-- A conversion reads the outline at the top, and includes go on from there. -/
theorem conversion (world : World) (defaultClass : String) (options : ConversionOptions)
    (top : Path) : (world.conversion defaultClass options top).KeepsToChains world top := by
  have h := (transparent world top).compositional
  unfold World.conversion
  cases hread : world.readOutline top with
  | error fault => exact silent (fun _ => rfl) fun _ => rfl
  | ok nodes =>
    have hopen := dispatches fun reference (hled : world.LeadsTo top reference) =>
      enterOutline world.nestingBound hled.choose_spec
    have hrender : ∀ setting, (world.render nodes 0 setting).KeepsToChains world top := by
      intro setting
      have hsiblings := h.renderSiblings hopen nodes fun _ hreference =>
        World.Leads.start.leadsTo hread hreference
      exact inSequence (hsiblings _) fun _ => (transparent world top).returning _
    have hlisten : ∀ setting,
        (listen (world.render nodes 0 setting)).KeepsToChains world top := hrender
    simp only [Except.mapError, ofExcept_ok, pure_bind]
    refine inSequence (h.ofExcept fun _ => StyleStack.isOfFiles_of_ofCode) fun styles => ?_
    refine inSequence (inSequence (hlisten _) fun _ => ?_) ?_
    · exact (transparent world top).returning _
    · refine fun lines => inSequence ((transparent world top).reporting _ rfl) fun _ => ?_
      exact (transparent world top).returning _

end KeepsToChains

/-! ## Includes and directories -/

/-- What it means that includes follow the directories of the files that they stand in, from an
outline at the top on. -/
structure World.FollowsDirectories (world : World) (top : Path) : Prop where
  /-- In an outline at the end of a chain all labels, those of placeholders too, lead to the
  directory that the outline is in. -/
  labels : ∀ names path nodes, world.Leads top names path → world.readOutline path = .ok nodes →
    ∀ placed ∈ Outline.placedOf 0 nodes, sourceDirectory placed.node.source = path.parent
  /-- A chain leads to what its names stand for, each seen from the directory of the one before. -/
  chains : ∀ names path, world.Leads top names path → path = top.along (names.map .ofText)
  /-- A name that starts at the root begins anew. -/
  absolute : ∀ before name behind, (Path.ofText name).isAbsolute = true →
    top.along ((before ++ name :: behind).map .ofText) =
      (Path.ofText name).along (behind.map .ofText)
  /-- An include that goes on from a chain looks for the place of that path in the register, and
  registers no other. Only a path with a NUL has no place, and then it fails. -/
  includes : ∀ names path nodes reference, world.Leads top names path →
    world.readOutline path = .ok nodes → reference ∈ Node.referencesOf nodes →
    ∀ enter depth setting run,
      let key := (top.along ((names ++ [reference.name]).map .ofText)).resolve world.files.cwd
      let outcome := includeFile world enter reference.source depth reference.once reference.name
        setting run
      reference.path.hasNul = true ∧
          outcome = ⟨.error (.unresolvable reference.path), run, [], []⟩ ∨
        reference.once = true ∧ key ∈ run.included ∧
          outcome = ⟨.ok setting, run, [], [.skipped reference.path]⟩ ∨
        (reference.once = true → key ∉ run.included) ∧
          outcome = putIn world enter reference.source depth reference.once reference.name setting
            (run.mark key)
  /-- In a conversion, every file that is skipped or put in is at the end of a chain, and its place
  is the one that the path resolves to. -/
  events : ∀ defaultClass options, ∀ event ∈ (world.convert defaultClass options top).events,
    ∀ path, event.filePath? = some path → ∃ names name,
      world.Leads top (names ++ [name]) path ∧
      path = top.along ((names ++ [name]).map .ofText) ∧
      ∀ place, event.entered?.map (·.2) = some place → place = path.resolve world.files.cwd
  /-- No other places are registered. -/
  register : ∀ defaultClass options,
    ∀ place ∈ (world.convert defaultClass options top).run.included, ∃ names path,
      world.Leads top names path ∧
      place = (top.along (names.map .ofText)).resolve world.files.cwd

/-- **Includes follow directories.** From every path on that a text names, whatever signs are in it,
labels lead to the directory of the outline that they are in, and so every chain of includes joins
its names directory by directory. -/
theorem World.followsDirectories (world : World) (text : String) :
    world.FollowsDirectories (.ofText text) := by
  have htop := Path.isNormal_ofText text
  have hruns := fun defaultClass (options : ConversionOptions) =>
    KeepsToChains.conversion world defaultClass options (.ofText text)
      { included := [(Path.ofText text).resolve world.files.cwd],
        showPreliminary := options.showPreliminary }
  refine ⟨?_, fun _ _ h => h.eq_along htop, ?_, ?_, ?_, ?_⟩
  · intro names path nodes hleads hread placed hplaced
    exact world.sourceDirectory_of_readOutline (hleads.isNormal htop) hread hplaced
  · intro before name behind habsolute
    rw [List.map_append, List.map_cons, Path.along_append_absolute _ _ _ habsolute]
  · intro names path nodes reference hleads hread hreference enter depth setting run key outcome
    have hkey : key = (includedPath reference.source reference.name).resolve world.files.cwd :=
      congrArg (Path.resolve world.files.cwd) ((hleads.next hread hreference).eq_along htop).symm
    rw [hkey]
    exact includeFile_eq world enter reference.source depth reference.once reference.name setting
      run
  · intro defaultClass options event hevent path hpath
    obtain ⟨⟨reference, ⟨names, hleads⟩, rfl⟩, hplace⟩ :=
      (hruns defaultClass options).1 event hevent path hpath
    exact ⟨names, reference.name, hleads, hleads.eq_along htop, hplace⟩
  · intro defaultClass options place hplace
    rcases (hruns defaultClass options).2 place hplace with hstart | ⟨names, path, hleads, rfl⟩
    · rw [List.mem_singleton.mp hstart]
      exact ⟨[], _, .start, rfl⟩
    · exact ⟨names, path, hleads, congrArg _ (hleads.eq_along htop)⟩

/-- Outlines in directories with colons in their names. The first one skips a level behind its
directive, and the second one includes a neighbour of the directory that it is in. -/
def colonWorld : World :=
  { files := ⟨["w"], [(["w"], .directory), (["w", "a:1"], .directory),
    (["w", "a:1", "t:2.otl"], .file (Utf8.encode "!include- s:3/b.otl\n\t\tx")),
    (["w", "a:1", "s:3"], .directory),
    (["w", "a:1", "s:3", "b.otl"], .file (Utf8.encode "!include ../c:4.otl"))]⟩ }

theorem readOutline_colonWorld :
    colonWorld.readOutline (.ofText "a:1/t:2.otl") = .ok [⟨some "!include- s:3/b.otl",
      "a:1/t:2.otl:1", [⟨none, "a:1/t:2.otl:2", [⟨some "x", "a:1/t:2.otl:2", []⟩]⟩]⟩] := by
  have hlines : colonWorld.files.readLines (.ofText "a:1/t:2.otl") =
      .ok ["!include- s:3/b.otl".toList, "\t\tx".toList] := by
    decide +kernel
  have htext : (Path.ofText "a:1/t:2.otl").text = "a:1/t:2.otl" := by decide +kernel
  rw [World.readOutline, hlines, htext]
  rfl

theorem readOutline_colonWorld_below :
    colonWorld.readOutline (.ofText "a:1/s:3/b.otl") = .ok [⟨some "!include ../c:4.otl",
      "a:1/s:3/b.otl:1", []⟩] := by
  have hlines : colonWorld.files.readLines (.ofText "a:1/s:3/b.otl") =
      .ok ["!include ../c:4.otl".toList] := by
    decide +kernel
  have htext : (Path.ofText "a:1/s:3/b.otl").text = "a:1/s:3/b.otl" := by decide +kernel
  rw [World.readOutline, hlines, htext]
  rfl

/-- The placeholder has a label that leads to the directory of the first outline, and the name in
the second one is joined with the directory of the name in the first. -/
theorem World.followsDirectories_colons :
    let top := Path.ofText "a:1/t:2.otl"
    let names := ["s:3/b.otl", "../c:4.otl"]
    let path := Path.ofText "a:1/s:3/../c:4.otl"
    colonWorld.Leads top names path ∧ path = top.along (names.map .ofText) ∧
      path.resolve colonWorld.files.cwd = ["w", "a:1", "c:4.otl"] ∧
      sourceDirectory "a:1/t:2.otl:2" = .ofText "a:1" ∧
      (colonWorld.convert "article" { styleCode := "S" } top).run.included =
        [["w", "a:1", "t:2.otl"], ["w", "a:1", "s:3", "b.otl"], ["w", "a:1", "c:4.otl"]] := by
  intro top names path
  have hfollows := colonWorld.followsDirectories "a:1/t:2.otl"
  have hfirst : colonWorld.Leads top ["s:3/b.otl"] (.ofText "a:1/s:3/b.otl") := by
    let reference : Reference := ⟨"a:1/t:2.otl:1", true, "s:3/b.otl"⟩
    have hpath : reference.path = .ofText "a:1/s:3/b.otl" := by decide +kernel
    rw [← hpath]
    exact @World.Leads.next _ _ [] _ _ reference .start readOutline_colonWorld (by decide +kernel)
  have hsecond : colonWorld.Leads top names path := by
    let reference : Reference := ⟨"a:1/s:3/b.otl:1", false, "../c:4.otl"⟩
    have hpath : reference.path = path := by decide +kernel
    rw [← hpath]
    exact @World.Leads.next _ _ _ _ _ reference hfirst readOutline_colonWorld_below
      (by decide +kernel)
  have hlabel := hfollows.labels [] top _ .start readOutline_colonWorld _
    (List.mem_cons_of_mem _ List.mem_cons_self)
  have hparent : top.parent = .ofText "a:1" := by decide +kernel
  exact ⟨hsecond, hfollows.chains names path hsecond, by decide +kernel, hparent ▸ hlabel,
    by decide +kernel⟩

end OutlineTex
