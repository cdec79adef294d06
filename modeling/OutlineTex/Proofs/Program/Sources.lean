/-
Sources and the document.

A run reads its outline and whatever its directives put in, and those are its sources. A document
that no path is asked for goes next to the outline, under the name of the outline with another
suffix. Nothing looks whether a source stands there. This file says when one does: the outline only
if it has that name already, an outline that was included only if that name ends as outlines do,
and a raw file just if some directive copied the file of that name. All other sources are left as
they are.
-/
import OutlineTex.Proofs.FileSystem.Names
import OutlineTex.Proofs.Program.Delivery

set_option autoImplicit false

namespace OutlineTex

open OutlineTex.Text OutlineTex.CommandLine
open Rendering

/-! ## Files that were read -/

/-- What is put in with an event could be read, through a path that leads to its place. An outline
was named as one. -/
def Event.WasRead (world : World) : Event → Prop
  | .enteredOutline _ place path _ => place = path.resolve world.files.cwd ∧
      (∃ content, world.files.read path = .ok content) ∧
      ∃ source name, path = includedPath source name ∧ world.isOutlineName name = true
  | .enteredFile _ place path => place = path.resolve world.files.cwd ∧
      ∃ content, world.files.read path = .ok content
  | _ => True

theorem Event.wasRead_of_concernsFile {world : World} {event : Event}
    (h : event.concernsFile = false) : event.WasRead world := by
  cases event with
  | enteredOutline | enteredFile => exact absurd h (by simp [concernsFile])
  | _ => trivial

/-- A step reads what it puts in if, where it succeeds, all of that could be read. -/
def Rendering.Reads {α : Type} (world : World) (step : Rendering α) : Prop :=
  ∀ run a, (step run).result = .ok a → ∀ event ∈ (step run).events, event.WasRead world

namespace Reads

variable {world : World}

theorem inSequence {α β : Type} {step : Rendering α} {next : α → Rendering β}
    (hstep : step.Reads world) (hnext : ∀ a, (next a).Reads world) :
    (step >>= next).Reads world := by
  intro run b hresult
  obtain ⟨a, ha, hb⟩ := result_bind_eq_ok.mp hresult
  rw [then_of_ok ha]
  intro event hevent
  rcases List.mem_append.mp hevent with hfirst | hsecond
  · exact hstep run a ha event hfirst
  · exact hnext a _ b hb event hsecond

theorem silent {α : Type} {step : Rendering α} (h : ∀ run, (step run).events = []) :
    step.Reads world := by
  intro run a _ event hevent
  rw [h run] at hevent
  exact absurd hevent List.not_mem_nil

theorem reporting {event : Event} (h : event.WasRead world) : (report event).Reads world := by
  intro run _ _ other hother
  obtain rfl := List.mem_singleton.mp hother
  exact h

/-- The comparison of reading, by which a step is compared with itself. -/
theorem transparent (world : World) :
    Comparison.Transparent fun _ step _ => step.Reads world where
  returning _ := silent fun _ => rfl
  inSequence := inSequence
  failing _ _ := silent fun _ => rfl
  reporting _ hevent := reporting (Event.wasRead_of_concernsFile hevent)
  writing _ := silent fun _ => rfl
  looking hboth run := by
    rw [then_of_ok rfl]
    exact hboth run run
  changing _ _ := silent fun _ => rfl
  enclosing _ hstep := hstep
  listening {α first _} hstep run pair hpair := by
    cases hresult : (first run).result with
    | error failure => exact absurd hpair (by simp [Rendering.listen, hresult, Except.map])
    | ok a => exact hstep run a hresult

/-! ## Inclusions -/

/-- What is announced was read if nothing else lets the step go on. -/
theorem announcing {α : Type} {event : Event} {next : Rendering α}
    (hevent : ∀ run a, (next run).result = .ok a → event.WasRead world)
    (hnext : next.Reads world) : (do report event; next : Rendering α).Reads world := by
  intro run a hresult other hother
  obtain ⟨_, -, ha⟩ := result_bind_eq_ok.mp hresult
  rw [then_of_ok rfl] at hother
  rcases List.mem_append.mp hother with hhere | hrest
  · obtain rfl := List.mem_singleton.mp hhere
    exact hevent _ a ha
  · exact hnext _ a ha other hrest

/-- A file that was copied could be read. -/
theorem exists_read_of_copied {source : String} {path : Path} {setting after : Setting} {run : Run}
    (h : ((do
      let lines ← ofExcept ((world.files.readLines path).mapError (.includedFile source path))
      emitAll (lines.map fun line => .copied (String.ofList line))
      return setting : Rendering Setting) run).result = .ok after) :
    ∃ content, world.files.read path = .ok content := by
  obtain ⟨lines, hlines, -⟩ := result_bind_eq_ok.mp h
  exact FileSystem.exists_read (mapError_eq_ok.mp hlines)

variable {enter : Entering}
  (hopened : ∀ path depth setting run after, (enter path depth setting run).result = .ok after →
    ∃ content, world.files.read path = .ok content)
  (henter : ∀ path depth setting, (enter path depth setting).Reads world)
include hopened henter

/-- Putting in a file reads it. -/
theorem putIn (source : String) (depth : Nat) (once : Bool) (name : String) (setting : Setting) :
    (putIn world enter source depth once name setting).Reads world := by
  unfold OutlineTex.putIn
  split
  · next houtline =>
    refine announcing (fun run after h => ⟨rfl, ?_, source, name, rfl, houtline⟩) (henter _ _ _)
    exact hopened _ depth setting run after h
  · refine announcing (fun run after h => ⟨rfl, exists_read_of_copied h⟩) ?_
    exact (transparent world).compositional.copyFile world source _ setting

theorem includeFile (source : String) (depth : Nat) (once : Bool) (name : String)
    (setting : Setting) : (includeFile world enter source depth once name setting).Reads world := by
  intro run after hresult
  rcases includeFile_eq world enter source depth once name setting run with
    ⟨-, hfailed⟩ | ⟨-, -, hskipped⟩ | ⟨-, hput⟩
  · rw [hfailed] at hresult
    exact absurd hresult (by simp)
  · rw [hskipped]
    intro event hevent
    obtain rfl := List.mem_singleton.mp hevent
    trivial
  · rw [hput] at hresult ⊢
    exact putIn hopened henter source depth once name setting _ after hresult

theorem includeFiles (source : String) (depth : Nat) (once : Bool) (names : List String)
    (setting : Setting) :
    (includeFiles world enter source depth once names setting).Reads world := by
  induction names generalizing setting with
  | nil => exact (transparent world).returning setting
  | cons name rest ih =>
    exact inSequence (includeFile hopened henter source depth once name setting) ih

theorem dispatches : Comparison.Dispatches (fun _ step _ => step.Reads world) (fun _ => True)
    world world enter enter where
  inclusion {level node once names} hdirective _ := by
    simp only [dispatch, hdirective, carryOut]
    refine inSequence (reporting trivial) fun _ => ?_
    refine inSequence ((transparent world).compositional.emit rfl) fun _ => ?_
    have hfiles := includeFiles hopened henter node.source level.depth once names
    exact inSequence (hfiles _) fun setting => (transparent world).returning _
  script hdirective := (transparent world).script world enter enter hdirective

omit hopened henter

/-- An outline that was entered could be read. -/
theorem exists_read_of_entered {room : Nat} {path : Path} {depth : Nat} {setting after : Setting}
    {run : Run} (h : (enterOutline world room path depth setting run).result = .ok after) :
    ∃ content, world.files.read path = .ok content := by
  cases room with
  | zero => exact absurd h (by simp [OutlineTex.enterOutline, Rendering.fail])
  | succ room =>
    obtain ⟨nodes, hnodes, -⟩ := result_bind_eq_ok.mp h
    exact World.exists_read (mapError_eq_ok.mp hnodes)

/-- Entering an outline reads whatever is put in by it. The induction is on the number of outlines
that may be open within one another. -/
theorem enterOutline (room : Nat) (path : Path) (depth : Nat) (setting : Setting) :
    (enterOutline world room path depth setting).Reads world := by
  induction room generalizing path depth setting with
  | zero => exact silent fun _ => rfl
  | succ room ih =>
    have h := (transparent world).compositional
    refine h.enterOutline path depth setting rfl (dispatches ?_ ih) fun _ _ _ _ => trivial
    exact fun _ _ _ _ _ => exists_read_of_entered

theorem render (nodes : List Node) (depth : Nat) (setting : Setting) :
    (world.render nodes depth setting).Reads world := by
  have henter := @enterOutline world world.nestingBound
  have hopen := dispatches (fun _ _ _ _ _ => exists_read_of_entered) henter
  have hsiblings := (transparent world).compositional.renderSiblings hopen nodes
    (fun _ _ => trivial) (.fresh depth setting)
  exact inSequence hsiblings fun _ => (transparent world).returning _

theorem conversion (defaultClass : String) (options : ConversionOptions) (path : Path) :
    (world.conversion defaultClass options path).Reads world :=
  (transparent world).conversion world defaultClass options path fun nodes setting =>
    render nodes 0 setting

end Reads

/-! ## Derived paths -/

/-- A path with its suffix replaced is in the directory that the path is in. -/
theorem Path.of_withSuffix {path target : Path} {suffix : String}
    (h : path.withSuffix suffix = .ok target) :
    target.parent = path.parent ∧ target.name = path.nameWith suffix := by
  obtain ⟨-, -, rfl⟩ := withSuffix_eq_ok.mp h
  constructor
  · rw [parent, parent, List.dropLast_concat]
  · rw [name, List.getLast?_concat, Option.getD_some]

/-- If a name ends with a suffix of its own and with another, one of them ends with the other. -/
theorem Path.suffix_or_suffix_of_nameWith {path : Path} {suffix : String} {other : List Char}
    (h : other <:+ (path.nameWith suffix).toList) :
    other <:+ suffix.toList ∨ suffix.toList <:+ other := by
  rw [nameWith, String.toList_ofList] at h
  exact List.suffix_or_suffix_of_suffix h (List.suffix_append _ _)

/-- Two places in directories are one only if their names are. -/
theorem Location.name_eq_of_concat {directory other : Location} {name name' : String}
    (h : directory ++ [name] = other ++ [name']) : name = name' := by
  obtain ⟨-, hnames⟩ := List.append_inj' h rfl
  exact List.head_eq_of_cons_eq hnames

/-- The place of the file that an event says is put in. -/
theorem Event.place_eq_some {event : Event} {place : Location} :
    event.entered?.map (·.2) = some place ↔
      (∃ once path depth, event = .enteredOutline once place path depth) ∨
        ∃ once path, event = .enteredFile once place path := by
  cases event <;> simp [entered?]

namespace Program

variable {settings : Settings} {files : FileSystem} {processes : ProcessWorld}
  {arguments : Arguments}

/-- The sources of a run: its outline and what its directives put in, by their places. -/
def sources (settings : Settings) (files : FileSystem) (processes : ProcessWorld)
    (arguments : Arguments) : List Location :=
  arguments.input.resolve files.cwd ::
    (conversion settings files processes arguments).events.filterMap fun event =>
      event.entered?.map (·.2)

/-- A source is the outline, an outline that was included, or a file that was copied. -/
theorem mem_sources {place : Location} : place ∈ sources settings files processes arguments ↔
    arguments.input.resolve files.cwd = place ∨
      (∃ once path depth, .enteredOutline once place path depth ∈
        (conversion settings files processes arguments).events) ∨
      ∃ once path, .enteredFile once place path ∈
        (conversion settings files processes arguments).events := by
  rw [sources, List.mem_cons, List.mem_filterMap, eq_comm]
  refine or_congr_right ?_
  constructor
  · rintro ⟨event, hevent, hplace⟩
    rcases Event.place_eq_some.mp hplace with ⟨once, path, depth, rfl⟩ | ⟨once, path, rfl⟩
    · exact .inl ⟨once, path, depth, hevent⟩
    · exact .inr ⟨once, path, hevent⟩
  · rintro (⟨once, path, depth, hevent⟩ | ⟨once, path, hevent⟩)
    · exact ⟨_, hevent, rfl⟩
    · exact ⟨_, hevent, rfl⟩

/-- The outline of a run that converts it could be read, -/
theorem exists_read_input {converted : Conversion}
    (h : (conversion settings files processes arguments).result = .ok converted) :
    ∃ content, files.read arguments.input = .ok content := by
  obtain ⟨nodes, hnodes⟩ := World.exists_readOutline h
  exact World.exists_read hnodes

/-- and so could everything that its directives put in. -/
theorem wasRead {converted : Conversion}
    (h : (conversion settings files processes arguments).result = .ok converted) {event : Event}
    (hevent : event ∈ (conversion settings files processes arguments).events) :
    event.WasRead (world settings files processes arguments) :=
  Reads.conversion settings.documentClass (conversionOptions settings arguments) arguments.input
    _ converted h event hevent

/-- So all sources are files. -/
theorem find?_of_mem_sources {converted : Conversion} {place : Location}
    (h : (conversion settings files processes arguments).result = .ok converted)
    (hplace : place ∈ sources settings files processes arguments) :
    ∃ content, files.find? place = some (.file content) := by
  rcases mem_sources.mp hplace with rfl | ⟨once, path, depth, hevent⟩ | ⟨once, path, hevent⟩
  · obtain ⟨content, hread⟩ := exists_read_input h
    exact ⟨content, FileSystem.find?_of_read hread⟩
  · obtain ⟨rfl, ⟨content, hread⟩, -⟩ := wasRead h hevent
    exact ⟨content, FileSystem.find?_of_read hread⟩
  · obtain ⟨rfl, content, hread⟩ := wasRead h hevent
    exact ⟨content, FileSystem.find?_of_read hread⟩

/-- The place of an outline that was included has a name that ends as outlines do. -/
theorem suffix_of_enteredOutline {converted : Conversion} (htree : files.IsTree)
    (h : (conversion settings files processes arguments).result = .ok converted)
    (hsuffix : Path.isSuffix settings.outlineSuffix.toList = true) {once : Bool} {place : Location}
    {path : Path} {depth : Nat} (hevent : .enteredOutline once place path depth ∈
      (conversion settings files processes arguments).events) :
    ∃ directory name, place = directory ++ [name] ∧
      settings.outlineSuffix.toList <:+ name.toList := by
  obtain ⟨rfl, ⟨content, hread⟩, source, name, rfl, houtline⟩ := wasRead h hevent
  have hname : settings.outlineSuffix.toList <:+ name.toList :=
    List.isSuffixOf_iff_suffix.mp houtline
  exact ⟨_, _, htree.resolve_of_read hread, suffix_of_includedPath hsuffix hname⟩

end Program

/-- What an exit has to show of the sources of a run that puts its document at a path. -/
structure Exit.SparesSources (exit : Exit) (settings : Settings) (files : FileSystem)
    (processes : ProcessWorld) (arguments : Arguments) (target : Path) : Prop where
  /-- Every source is a file before the run. -/
  sources : ∀ place ∈ Program.sources settings files processes arguments,
    ∃ content, files.find? place = some (.file content)
  /-- It is the same file after the run, unless it stands where the document goes. -/
  elsewhere : ∀ place, place ≠ target.resolve files.cwd →
    exit.files.find? place = files.find? place
  /-- That is where the document is, -/
  document : ∃ converted,
    (Program.conversion settings files processes arguments).result = .ok converted ∧
      exit.files.find? (target.resolve files.cwd) =
        some (.file (Utf8.encode converted.document))
  /-- next to the outline. -/
  beside : ∃ directory, arguments.input.resolve files.cwd = directory ++ [arguments.input.name] ∧
    target.resolve files.cwd = directory ++ [arguments.input.nameWith settings.outputSuffix]
  /-- The outline stands there just if it has the name of the document already, -/
  outline : arguments.input.resolve files.cwd = target.resolve files.cwd ↔
    arguments.input.name = arguments.input.nameWith settings.outputSuffix
  /-- an outline that is included only if outlines have such names, for which one of the suffixes
  has to end with the other, -/
  included : Path.isSuffix settings.outlineSuffix.toList = true → ∀ once path depth,
    .enteredOutline once (target.resolve files.cwd) path depth ∈
        (Program.conversion settings files processes arguments).events →
      settings.outlineSuffix.toList <:+ (arguments.input.nameWith settings.outputSuffix).toList ∧
        (settings.outlineSuffix.toList <:+ settings.outputSuffix.toList ∨
          settings.outputSuffix.toList <:+ settings.outlineSuffix.toList)
  /-- and any other source just if a directive copies the file at that very place. -/
  clash : target.resolve files.cwd ∈ Program.sources settings files processes arguments ↔
    arguments.input.resolve files.cwd = target.resolve files.cwd ∨
      (∃ once path depth, .enteredOutline once (target.resolve files.cwd) path depth ∈
        (Program.conversion settings files processes arguments).events) ∨
      ∃ once path, .enteredFile once (target.resolve files.cwd) path ∈
        (Program.conversion settings files processes arguments).events

/-- **Sources are spared, unless they stand where the document goes.** A run that succeeds, and was
told neither a path nor the standard output, puts its document next to the outline and leaves all
else as it was. The files that it read are among what is left, apart from the one in the place of
the document, if it read that: the outline if it has that name, an outline that was included, or a
file that was copied. -/
theorem Program.run_spares_sources {settings : Settings} {files : FileSystem}
    {processes : ProcessWorld} {words : List String} {arguments : Arguments} {exit : Exit}
    (htree : files.IsTree)
    (hwords : Arguments.ofWords settings.styleCode settings.logLevel words = .ok arguments)
    (hstdout : arguments.stdout = false) (houtput : arguments.output = none)
    (hrun : (run settings files processes words).result = .ok exit) (hstatus : exit.status = 0) :
    ∃ target, arguments.input.withSuffix settings.outputSuffix = .ok target ∧
      exit.SparesSources settings files processes arguments target := by
  obtain ⟨converted, target, hconverted, hpath, hwrite⟩ :=
    write_of_run hwords hstdout hrun hstatus
  rw [houtput] at hpath
  have htarget : arguments.input.withSuffix settings.outputSuffix = .ok target := hpath
  obtain ⟨hparent, hname⟩ := Path.of_withSuffix htarget
  obtain ⟨hfree, -, hfind⟩ := FileSystem.of_write ⟨_, htree.cwd⟩ hwrite
  obtain ⟨content, hread⟩ := exists_read_input hconverted
  -- the outline and the document are in one directory, each under its name
  have hdirectory := htree.find?_parent hread
  have hinput := htree.resolve_of_read hread
  have hplace := htree.resolve_eq (hparent ▸ hdirectory) hfree
  rw [hparent, hname] at hplace
  refine ⟨target, htarget, fun _ => find?_of_mem_sources hconverted, ?_,
    ⟨converted, hconverted, (hfind _).trans (if_pos rfl)⟩, ⟨_, hinput, hplace⟩, ?_, ?_,
    mem_sources⟩
  · intro place hne
    rw [hfind, if_neg hne]
  · rw [hinput, hplace]
    constructor
    · exact Location.name_eq_of_concat
    · intro hsame
      rw [← hsame]
  · -- an outline in the place of the document would have its name
    intro hsuffix once path depth hevent
    obtain ⟨directory, name, hentered, hends⟩ :=
      suffix_of_enteredOutline htree hconverted hsuffix hevent
    have hsame := Location.name_eq_of_concat (hentered.symm.trans hplace)
    rw [hsame] at hends
    exact ⟨hends, Path.suffix_or_suffix_of_nameWith hends⟩

/-- An outline that includes another one and a raw file, which has the name of its document, and an
outline that includes it, under a name of another kind. -/
def Program.chapterFiles : FileSystem :=
  ⟨["r"], [(["r"], .directory),
    (["r", "a.otl"], .file (Utf8.encode "!include b.otl a.tex")),
    (["r", "b.otl"], .file (Utf8.encode "Text")),
    (["r", "a.tex"], .file (Utf8.encode "by hand")),
    (["r", "a.txt"], .file (Utf8.encode "!include a.otl"))]⟩

/-- A result that passes a check is an exit. -/
theorem Program.exists_exit {result : Except Crash Exit} {check : Exit → Bool}
    (h : result.toOption.any check = true) : ∃ exit, result = .ok exit ∧ check exit = true := by
  cases result with
  | error fault => exact absurd h (by simp [Except.toOption])
  | ok exit => exact ⟨exit, rfl, by simpa [Except.toOption] using h⟩

/-- The outlines that are read for a document keep their bytes. -/
theorem Program.run_spares_sources_chapter :
    ∃ exit, (run {} chapterFiles (fun _ _ => .finished 0 "" "") ["a.otl"]).result = .ok exit ∧
      exit.status = 0 ∧
      exit.files.find? ["r", "a.otl"] = some (.file (Utf8.encode "!include b.otl a.tex")) ∧
      exit.files.find? ["r", "b.otl"] = some (.file (Utf8.encode "Text")) := by
  have htree : chapterFiles.IsTree :=
    .of_entries (by decide +kernel) (by decide +kernel)
  obtain ⟨exit, hrun, hstatus⟩ := exists_exit
    (show (run {} chapterFiles (fun _ _ => .finished 0 "" "") ["a.otl"]).result.toOption.any
      (·.status == 0) = true by decide +kernel)
  obtain ⟨target, htarget, h⟩ := @run_spares_sources {} chapterFiles (fun _ _ => .finished 0 "" "")
    ["a.otl"] (reportArguments "a.otl") exit htree (by decide +kernel) rfl rfl hrun
    (beq_iff_eq.mp hstatus)
  have hpath : (Path.ofText "a.otl").withSuffix ".tex" = .ok (.ofText "a.tex") := by decide +kernel
  obtain rfl := Except.ok.inj (hpath.symm.trans htarget)
  have hplace : (Path.ofText "a.tex").resolve chapterFiles.cwd = ["r", "a.tex"] := by
    decide +kernel
  have hkept := h.elsewhere
  rw [hplace] at hkept
  refine ⟨exit, hrun, beq_iff_eq.mp hstatus, ?_, ?_⟩
  · rw [hkept _ (by decide)]
    decide +kernel
  · rw [hkept _ (by decide)]
    decide +kernel

/-- With the suffixes that are the default, no outline that is included is in that place. -/
example : ¬ ".otl".toList <:+ ".tex".toList ∧ ¬ ".tex".toList <:+ ".otl".toList := by
  decide

/-- A run overwrites a source if it succeeds and leaves other bytes where the source was. -/
def Program.Overwrites (settings : Settings) (files : FileSystem) (processes : ProcessWorld)
    (words : List String) (place : Location) : Prop :=
  ∃ arguments exit, Arguments.ofWords settings.styleCode settings.logLevel words = .ok arguments ∧
    arguments.stdout = false ∧ arguments.output = none ∧
    place ∈ sources settings files processes arguments ∧
    (run settings files processes words).result = .ok exit ∧ exit.status = 0 ∧
    exit.files.find? place ≠ files.find? place

/-- Whether a run overwrites a source can be computed. -/
theorem Program.overwrites_of_check {settings : Settings} {files : FileSystem}
    {processes : ProcessWorld} {words : List String} {place : Location} (arguments : Arguments)
    (hwords : Arguments.ofWords settings.styleCode settings.logLevel words = .ok arguments)
    (hderived : arguments.stdout = false ∧ arguments.output = none)
    (hsource : place ∈ sources settings files processes arguments)
    (hcheck : (run settings files processes words).result.toOption.any (fun exit =>
      exit.status == 0 && exit.files.find? place != files.find? place) = true) :
    Overwrites settings files processes words place := by
  obtain ⟨exit, hrun, hexit⟩ := exists_exit hcheck
  obtain ⟨hstatus, hchanged⟩ := Bool.and_eq_true_iff.mp hexit
  exact ⟨arguments, exit, hwords, hderived.1, hderived.2, hsource, hrun, beq_iff_eq.mp hstatus,
    bne_iff_ne.mp hchanged⟩

/-- Sources of all three kinds can be overwritten: a raw file that was copied, an outline that has
the name of its document, and, where documents are named as outlines are, one that was included. -/
theorem Program.run_overwrites_sources :
    let processes : ProcessWorld := fun _ _ => .finished 0 "" ""
    Overwrites {} chapterFiles processes ["a.otl"] ["r", "a.tex"] ∧
      Overwrites {} chapterFiles processes ["a.tex"] ["r", "a.tex"] ∧
      Overwrites { outputSuffix := ".otl" } chapterFiles processes ["a.txt"] ["r", "a.otl"] := by
  intro processes
  refine ⟨?_, ?_, ?_⟩
  · exact overwrites_of_check (reportArguments "a.otl") (by decide +kernel) ⟨rfl, rfl⟩
      (by decide +kernel) (by decide +kernel)
  · exact overwrites_of_check (reportArguments "a.tex") (by decide +kernel) ⟨rfl, rfl⟩
      (by decide +kernel) (by decide +kernel)
  · exact overwrites_of_check (reportArguments "a.txt") (by decide +kernel) ⟨rfl, rfl⟩
      (by decide +kernel) (by decide +kernel)

end OutlineTex
