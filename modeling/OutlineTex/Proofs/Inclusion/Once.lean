/-
Files that are included only once.

A directive asks for files by name, and what it asks for is a request: a place, and whether
the file there is to be put in only if it was not before. This file says how a run deals with
requests, as a relation on what it reports. Requests are dealt with in the order in which they
come up, those of an outline that is put in before those that wait behind it. One that asks
for a file only once is skipped if the place is registered, and no other is ever skipped. A
file that is put in is registered before anything inside it is looked at.

So what is skipped and what is put in can be read off the events of a run, however the files
are spelled, and wherever in the nesting of outlines the directives stand. And the events can be
trusted: in a run that succeeds, each file that one of them says is put in is there, an outline as a
block of its own and any other file line by line.
-/
import Mathlib.Data.List.Forall2
import OutlineTex.Proofs.Rendering.Comparison

set_option autoImplicit false

namespace OutlineTex

open Rendering

/-! ## Requests -/

/-- A file that a directive asks for, by its place. -/
structure Request where
  once : Bool
  place : Location
deriving DecidableEq, Repr

/-- The requests of names in a directive with the given label. -/
def requestsOf (cwd : Location) (source : String) (once : Bool) (names : List String) :
    List Request :=
  names.map fun name => ⟨once, (includedPath source name).resolve cwd⟩

/-- The requests that come up with an event. -/
def Event.requests (cwd : Location) : Event → List Request
  | .recognised node (.inclusion once names) => requestsOf cwd node.source once names
  | _ => []

/-- The request that is granted with an event: its file is put in. -/
def Event.granted? (event : Event) : Option Request :=
  event.entered?.map fun (once, place) => ⟨once, place⟩

theorem granted?_of_concernsFile {event : Event} (h : event.concernsFile = false) :
    event.granted? = none := by
  cases event with
  | enteredOutline | enteredFile => exact absurd h (by simp [Event.concernsFile])
  | _ => rfl

theorem requests_of_concernsFile {cwd : Location} {event : Event}
    (h : event.concernsFile = false) : event.requests cwd = [] := by
  cases event with
  | recognised node directive =>
    cases directive with
    | inclusion once names => exact absurd h (by simp [Event.concernsFile])
    | _ => rfl
  | _ => rfl

/-- No request comes up with an event that grants one. -/
theorem requests_of_granted? {cwd : Location} {event : Event} {request : Request}
    (h : event.granted? = some request) : event.requests cwd = [] := by
  cases event with
  | recognised node directive => exact absurd h (by simp [Event.granted?, Event.entered?])
  | _ => rfl

/-! ## Serving requests -/

/-- `Served cwd waiting register events left last`: in a run that begins with the requests
waiting, the first of them next, and the register, the events leave the requests left and the
last register. Requests that come up go before those that wait. Only a request for once can be
skipped, namely when its place is registered, and only a place that is not registered can be
put in on such a request. What is put in is registered from then on. -/
inductive Served (cwd : Location) :
    List Request → List Location → List Event → List Request → List Location → Prop
  | nil (waiting register) : Served cwd waiting register [] waiting register
  | other {waiting register event events left last} (hother : event.concernsFile = false)
      (hrest : Served cwd waiting register events left last) :
      Served cwd waiting register (event :: events) left last
  | asked {waiting register node once names events left last}
      (hrest : Served cwd (requestsOf cwd node.source once names ++ waiting) register events left
        last) :
      Served cwd waiting register (.recognised node (.inclusion once names) :: events) left last
  | skipped {waiting register path events left last}
      (hregistered : path.resolve cwd ∈ register)
      (hrest : Served cwd waiting register events left last) :
      Served cwd (⟨true, path.resolve cwd⟩ :: waiting) register (.skipped path :: events) left last
  | granted {request waiting register event events left last}
      (hgranted : event.granted? = some request)
      (hfresh : request.once = true → request.place ∉ register)
      (hrest : Served cwd waiting (registered register request.place) events left last) :
      Served cwd (request :: waiting) register (event :: events) left last

namespace Served

variable {cwd : Location} {waiting left : List Request} {register last : List Location}
  {events : List Event}

theorem append {first second : List Event} {middle : List Request} {between : List Location}
    (hfirst : Served cwd waiting register first middle between)
    (hsecond : Served cwd middle between second left last) :
    Served cwd waiting register (first ++ second) left last := by
  induction hfirst with
  | nil => exact hsecond
  | other hother _ ih => exact .other hother (ih hsecond)
  | asked _ ih => exact .asked (ih hsecond)
  | skipped hregistered _ ih => exact .skipped hregistered (ih hsecond)
  | granted hgranted hfresh _ ih => exact .granted hgranted hfresh (ih hsecond)

theorem uncons {event : Event} (h : Served cwd waiting register (event :: events) left last) :
    ∃ middle between, Served cwd waiting register [event] middle between ∧
      Served cwd middle between events left last := by
  cases h with
  | other hother hrest => exact ⟨_, _, .other hother (.nil _ _), hrest⟩
  | asked hrest => exact ⟨_, _, .asked (.nil _ _), hrest⟩
  | skipped hregistered hrest => exact ⟨_, _, .skipped hregistered (.nil _ _), hrest⟩
  | granted hgranted hfresh hrest => exact ⟨_, _, .granted hgranted hfresh (.nil _ _), hrest⟩

/-- A run can be cut before any of its events. -/
theorem split {first second : List Event}
    (h : Served cwd waiting register (first ++ second) left last) :
    ∃ middle between, Served cwd waiting register first middle between ∧
      Served cwd middle between second left last := by
  induction first generalizing waiting register with
  | nil => exact ⟨waiting, register, .nil waiting register, h⟩
  | cons event rest ih =>
    obtain ⟨_, _, hevent, hrest⟩ := h.uncons
    obtain ⟨middle, between, hfirst, hsecond⟩ := ih hrest
    exact ⟨middle, between, hevent.append hfirst, hsecond⟩

/-- The register only grows. -/
theorem grows (h : Served cwd waiting register events left last) : register <+: last := by
  induction h with
  | nil => exact List.prefix_refl _
  | other _ _ ih => exact ih
  | asked _ ih => exact ih
  | skipped _ _ ih => exact ih
  | granted _ _ _ ih => exact (prefix_registered _ _).trans ih

/-- What is put in is registered at the end. -/
theorem mem_of_granted {event : Event} {request : Request}
    (h : Served cwd waiting register events left last) (hmem : event ∈ events)
    (hgranted : event.granted? = some request) : request.place ∈ last := by
  induction h with
  | nil => exact absurd hmem List.not_mem_nil
  | other hother _ ih =>
    rcases List.mem_cons.mp hmem with rfl | hrest
    · exact absurd hgranted (by simp [granted?_of_concernsFile hother])
    · exact ih hrest
  | asked _ ih =>
    rcases List.mem_cons.mp hmem with rfl | hrest
    · exact absurd hgranted (by simp [Event.granted?, Event.entered?])
    · exact ih hrest
  | skipped _ _ ih =>
    rcases List.mem_cons.mp hmem with rfl | hrest
    · exact absurd hgranted (by simp [Event.granted?, Event.entered?])
    · exact ih hrest
  | granted hhere _ hbehind ih =>
    -- what is put in here is registered here, and the register only grows behind it
    rcases List.mem_cons.mp hmem with rfl | hrest
    · obtain rfl := Option.some.inj (hgranted.symm.trans hhere)
      exact hbehind.grows.subset (mem_registered _ _)
    · exact ih hrest

/-- What is put in on a request for once was not registered, and nothing before put it in. -/
theorem fresh_of_granted {before behind : List Event} {event : Event} {place : Location}
    (h : Served cwd waiting register (before ++ event :: behind) left last)
    (hgranted : event.granted? = some ⟨true, place⟩) :
    place ∉ register ∧ ∀ earlier ∈ before, ∀ once, earlier.granted? ≠ some ⟨once, place⟩ := by
  obtain ⟨middle, between, hbefore, hevent⟩ := h.split
  have hfresh : place ∉ between := by
    cases hevent with
    | other hother _ => exact absurd hgranted (by simp [granted?_of_concernsFile hother])
    | asked _ => exact absurd hgranted (by simp [Event.granted?, Event.entered?])
    | skipped _ _ => exact absurd hgranted (by simp [Event.granted?, Event.entered?])
    | granted hhere hfresh _ =>
      obtain rfl := Option.some.inj (hgranted.symm.trans hhere)
      exact hfresh rfl
  refine ⟨fun hregister => hfresh (hbefore.grows.subset hregister), ?_⟩
  intro earlier hearlier once hput
  exact hfresh (hbefore.mem_of_granted hearlier hput)

/-- A file is put in at most once on requests for once, and never if it is registered. -/
theorem count_once_le (h : Served cwd waiting register events left last) (place : Location) :
    (events.filterMap Event.granted?).count ⟨true, place⟩ ≤ if place ∈ register then 0 else 1 := by
  induction h with
  | nil => exact Nat.zero_le _
  | other hother _ ih =>
    rw [List.filterMap_cons_none (granted?_of_concernsFile hother)]
    exact ih
  | asked _ ih =>
    rw [List.filterMap_cons_none rfl]
    exact ih
  | skipped _ _ ih =>
    rw [List.filterMap_cons_none rfl]
    exact ih
  | @granted request _ register _ _ _ _ hgranted hfresh _ ih =>
    rw [List.filterMap_cons_some hgranted, List.count_cons]
    have hkept : place ∈ register → place ∈ registered register request.place :=
      fun hmem => (prefix_registered register request.place).subset hmem
    -- if this is the place on a request for once, it was not registered, and from here on it is
    by_cases hrequest : request = ⟨true, place⟩
    · subst hrequest
      have hmem : place ∈ registered register place := mem_registered register place
      rw [if_pos hmem] at ih
      rw [if_neg (hfresh rfl), Nat.le_zero.mp ih]
      simp
    · rw [if_neg (by simpa using hrequest), Nat.add_zero]
      refine Nat.le_trans ih ?_
      by_cases hmem : place ∈ register
      · exact Nat.le_of_eq ((if_pos (hkept hmem)).trans (if_pos hmem).symm)
      · rw [if_neg hmem]
        split <;> omega

/-- A request for a file whenever it is reached is left, or its file is put in. -/
theorem count_plain (h : Served cwd waiting register events left last) (place : Location) :
    waiting.count ⟨false, place⟩ + (events.flatMap (Event.requests cwd)).count ⟨false, place⟩ =
      (events.filterMap Event.granted?).count ⟨false, place⟩ + left.count ⟨false, place⟩ := by
  induction h with
  | nil => simp
  | other hother _ ih =>
    rw [List.flatMap_cons, List.filterMap_cons, requests_of_concernsFile hother,
      granted?_of_concernsFile hother]
    exact ih
  | asked _ ih =>
    rw [List.count_append] at ih
    rw [List.flatMap_cons, List.filterMap_cons_none rfl, List.count_append, Event.requests]
    omega
  | skipped _ _ ih =>
    rw [List.flatMap_cons, List.filterMap_cons_none rfl, List.count_cons_of_ne (by simp)]
    exact ih
  | granted hgranted _ _ ih =>
    rw [List.flatMap_cons, List.filterMap_cons, hgranted, requests_of_granted? hgranted,
      List.nil_append, List.count_cons, List.count_cons]
    omega

end Served

/-! ## Steps that serve -/

/-- A step serves requests if, whatever the register and whatever waits behind them, its events
deal with them and with what comes up; where it succeeds just what waited is left. -/
def Rendering.Serves {α : Type} (cwd : Location) (requests : List Request)
    (step : Rendering α) : Prop :=
  ∀ (run : Run) (waiting : List Request), ∃ left,
    Served cwd (requests ++ waiting) run.included (step run).events left (step run).run.included ∧
      ∀ a, (step run).result = .ok a → left = waiting

namespace Serves

variable {cwd : Location}

theorem inSequence {α β : Type} {requests behind : List Request} {step : Rendering α}
    {next : α → Rendering β} (hstep : step.Serves cwd requests)
    (hnext : ∀ a, (next a).Serves cwd behind) :
    (step >>= next).Serves cwd (requests ++ behind) := by
  intro run waiting
  obtain ⟨middle, hserved, hmiddle⟩ := hstep run (behind ++ waiting)
  rw [List.append_assoc]
  cases hresult : (step run).result with
  | error failure =>
    rw [then_of_error hresult]
    exact ⟨middle, hserved, fun a ha => absurd ha (by simp)⟩
  | ok a =>
    -- the step has dealt with its own requests, so those of the next one are in front
    obtain rfl := hmiddle a hresult
    obtain ⟨left, hrest, hleft⟩ := hnext a (step run).run waiting
    rw [then_of_ok hresult]
    exact ⟨left, hserved.append hrest, hleft⟩

theorem andThen {α β : Type} {step : Rendering α} {next : α → Rendering β}
    (hstep : step.Serves cwd []) (hnext : ∀ a, (next a).Serves cwd []) :
    (step >>= next).Serves cwd [] :=
  inSequence hstep hnext

/-- A step that reports nothing and leaves the register alone. -/
theorem silent {α : Type} {step : Rendering α} (hevents : ∀ run, (step run).events = [])
    (hincluded : ∀ run, (step run).run.included = run.included) : step.Serves cwd [] := by
  intro run waiting
  rw [hevents, hincluded]
  exact ⟨waiting, .nil _ _, fun _ _ => rfl⟩

theorem other {event : Event} (h : event.concernsFile = false) :
    (report event).Serves cwd [] :=
  fun _ waiting => ⟨waiting, .other h (.nil _ _), fun _ _ => rfl⟩

theorem listening {α : Type} {step : Rendering α} {requests : List Request}
    (h : step.Serves cwd requests) : (Rendering.listen step).Serves cwd requests := by
  intro run waiting
  obtain ⟨left, hserved, hleft⟩ := h run waiting
  refine ⟨left, hserved, fun pair hpair => ?_⟩
  cases hresult : (step run).result with
  | error failure => exact absurd hpair (by simp [Rendering.listen, hresult, Except.map])
  | ok a => exact hleft a hresult

/-- The comparison of serving, by which a step is compared with itself. -/
theorem transparent (cwd : Location) :
    Comparison.Transparent fun _ step _ => step.Serves cwd [] where
  returning _ := silent (fun _ => rfl) fun _ => rfl
  inSequence := andThen
  failing _ _ := silent (fun _ => rfl) fun _ => rfl
  reporting _ hevent := other hevent
  writing _ := silent (fun _ => rfl) fun _ => rfl
  looking hboth run waiting := by
    rw [then_of_ok rfl]
    exact hboth run run waiting
  changing f hf := silent (fun _ => rfl) hf
  enclosing _ hstep := hstep
  listening := listening

/-! ## Inclusions -/

/-- A file that was registered and is put in answers the first of the requests. -/
theorem granting {event : Event} {once : Bool} {place : Location} {next : Rendering Setting}
    {run : Run} (hevent : event.granted? = some ⟨once, place⟩)
    (hfresh : once = true → place ∉ run.included) (hnext : next.Serves cwd [])
    (waiting : List Request) :
    let outcome := (do report event; next) (run.mark place)
    ∃ left, Served cwd (⟨once, place⟩ :: waiting) run.included outcome.events left
        outcome.run.included ∧ ∀ a, outcome.result = .ok a → left = waiting := by
  intro outcome
  obtain ⟨left, hserved, hleft⟩ := hnext (run.mark place) waiting
  rw [included_mark] at hserved
  exact ⟨left, .granted hevent hfresh hserved, hleft⟩

variable {world : World} {enter : Entering}
  (henter : ∀ path depth setting, (enter path depth setting).Serves world.files.cwd [])
include henter

/-- Including a file answers the request for it: it is skipped, or it is put in. -/
theorem includeFile (source : String) (depth : Nat) (once : Bool) (name : String)
    (setting : Setting) : (includeFile world enter source depth once name setting).Serves
      world.files.cwd (requestsOf world.files.cwd source once [name]) := by
  intro run waiting
  show ∃ left, Served _ (⟨once, (includedPath source name).resolve world.files.cwd⟩ :: waiting)
    _ _ left _ ∧ _
  rcases includeFile_eq world enter source depth once name setting run with
    ⟨-, hfailed⟩ | ⟨rfl, hregistered, hskipped⟩ | ⟨hfresh, hput⟩
  · rw [hfailed]
    exact ⟨_, .nil _ _, fun a ha => absurd ha (by simp)⟩
  · rw [hskipped]
    exact ⟨waiting, .skipped hregistered (.nil _ _), fun _ _ => rfl⟩
  · rw [hput]
    by_cases houtline : world.isOutlineName name = true
    · simp only [putIn, if_pos houtline]
      exact granting rfl hfresh (henter _ depth setting) waiting
    · simp only [putIn, if_neg houtline]
      exact granting rfl hfresh
        ((transparent _).compositional.copyFile world source _ setting) waiting

theorem includeFiles (source : String) (depth : Nat) (once : Bool) (names : List String)
    (setting : Setting) : (includeFiles world enter source depth once names setting).Serves
      world.files.cwd (requestsOf world.files.cwd source once names) := by
  induction names generalizing setting with
  | nil => exact (transparent _).returning setting
  | cons name rest ih => exact inSequence (includeFile henter source depth once name setting) ih

/-- A directive that includes files brings up its requests and answers them. -/
theorem inclusion {level : Level} {node : Node} {once : Bool} {names : List String}
    (hdirective : node.value.bind Directive.ofValue? = some (.inclusion once names)) :
    (dispatch world enter level node).Serves world.files.cwd [] := by
  have hfiles : (do
      let setting ← OutlineTex.includeFiles world enter node.source level.depth once names
        ⟨level.styles, level.escaping⟩
      return Verdict.included setting.styles setting.escaping).Serves world.files.cwd
        (requestsOf world.files.cwd node.source once names) := by
    have hnames := includeFiles henter node.source level.depth once names
      ⟨level.styles, level.escaping⟩
    have hboth := inSequence hnames fun setting =>
      (transparent _).returning (Verdict.included setting.styles setting.escaping)
    rw [List.append_nil] at hboth
    exact hboth
  intro run waiting
  obtain ⟨left, hserved, hleft⟩ := hfiles run waiting
  simp only [dispatch, hdirective, carryOut]
  exact ⟨left, .asked hserved, hleft⟩

/-- Scripts ask for no files. -/
theorem dispatches : Comparison.Dispatches (fun _ step _ => step.Serves world.files.cwd [])
    (fun _ => True) world world enter enter where
  inclusion hdirective _ := inclusion henter hdirective
  script hdirective := (transparent _).script world enter enter hdirective

omit henter

/-- Entering an outline answers all requests that come up in it. The induction is on the
number of outlines that may be open within one another. -/
theorem enterOutline (world : World) (room : Nat) (path : Path) (depth : Nat)
    (setting : Setting) :
    (enterOutline world room path depth setting).Serves world.files.cwd [] := by
  induction room generalizing path depth setting with
  | zero => exact silent (fun _ => rfl) fun _ => rfl
  | succ room ih =>
    have h := (transparent world.files.cwd).compositional
    exact h.enterOutline path depth setting rfl (dispatches ih) fun _ _ _ _ => trivial

theorem render (world : World) (nodes : List Node) (depth : Nat) (setting : Setting) :
    (world.render nodes depth setting).Serves world.files.cwd [] := by
  have hopen := dispatches (enterOutline world world.nestingBound)
  have hsiblings := (transparent world.files.cwd).compositional.renderSiblings hopen nodes
    (fun _ _ => trivial) (.fresh depth setting)
  exact andThen hsiblings fun _ => (transparent _).returning _

end Serves

/-! ## Whole runs -/

/-- What a run that began with a register has to show: the requests of its directives were
dealt with in order, down to those left, and a run that succeeds leaves none. -/
structure Outcome.IncludesOnce {α : Type} (outcome : Outcome α) (cwd : Location)
    (register : List Location) (left : List Request) : Prop where
  served : Served cwd [] register outcome.events left outcome.run.included
  finished : ∀ a, outcome.result = .ok a → left = []
  /-- The register only grows. -/
  grows : register <+: outcome.run.included
  /-- On requests for once, a place is put in at most once, -/
  atMostOnce : ∀ place, (outcome.events.filterMap Event.granted?).count ⟨true, place⟩ ≤ 1
  /-- and only if it was not registered and nothing put it in earlier. -/
  fresh : ∀ before event behind place, outcome.events = before ++ event :: behind →
    event.granted? = some ⟨true, place⟩ →
    place ∉ register ∧ ∀ earlier ∈ before, ∀ once, earlier.granted? ≠ some ⟨once, place⟩
  /-- Each time a place is asked for whether or not it is registered, it is put in, unless the
  run fails before the request is reached. -/
  whenever : ∀ place, (outcome.events.flatMap (Event.requests cwd)).count ⟨false, place⟩ =
    (outcome.events.filterMap Event.granted?).count ⟨false, place⟩ + left.count ⟨false, place⟩

theorem Rendering.Serves.includesOnce {α : Type} {cwd : Location} {step : Rendering α}
    (h : step.Serves cwd []) (run : Run) :
    ∃ left, (step run).IncludesOnce cwd run.included left := by
  obtain ⟨left, hserved, hleft⟩ := h run []
  refine ⟨left, hserved, hleft, hserved.grows, fun place => ?_, ?_, fun place => ?_⟩
  · refine Nat.le_trans (hserved.count_once_le place) ?_
    split <;> omega
  · intro before event behind place hevents hgranted
    rw [hevents] at hserved
    exact hserved.fresh_of_granted hgranted
  · have hcount := hserved.count_plain place
    rw [List.nil_append, List.count_nil, Nat.zero_add] at hcount
    exact hcount

/-- **Files are included once.** Every rendering deals with the requests of its directives in
order and leaves none where it succeeds. A place that is asked for once is put in at most once,
and never if the register held it or any directive put it in before; a place that is asked for
whenever it is reached is put in every time. A conversion begins with the place of its own
outline in the register. -/
theorem includesOnce_render (world : World) :
    (∀ (nodes : List Node) (depth : Nat) (setting : Setting) (run : Run), ∃ left,
      (world.render nodes depth setting run).IncludesOnce world.files.cwd run.included left) ∧
    ∀ (defaultClass : String) (options : ConversionOptions) (path : Path), ∃ left,
      (world.convert defaultClass options path).IncludesOnce world.files.cwd
        [path.resolve world.files.cwd] left := by
  refine ⟨fun nodes depth setting run => ?_, fun defaultClass options path => ?_⟩
  · exact (Serves.render world nodes depth setting).includesOnce run
  · have hconversion := (Serves.transparent world.files.cwd).conversion world defaultClass options
      path fun nodes setting => Serves.render world nodes 0 setting
    exact Rendering.Serves.includesOnce hconversion _

/-- A file that is named twice, in two spellings, is put in once, and once more by a directive
that asks for it whenever it is reached. -/
example :
    let world : World := { files := ⟨[], [(["r"], .file [])]⟩ }
    let nodes : List Node := [{ value := some "!include- r ./r" }, { value := some "!include r" }]
    let outcome := world.render nodes 0 ⟨{}, true⟩ {}
    outcome.events.filterMap Event.granted? = [⟨true, ["r"]⟩, ⟨false, ["r"]⟩] := by
  decide +kernel

/-! ## What is put in

An event that says that a file is put in stands for more than an entry of the register. Where a
rendering succeeds, its outlines are the blocks of outlines among what it wrote, one for each such
event, and its other files were read and stand there in full.
-/

namespace Block

mutual

/-- The paths of the outlines in a block, each before those inside it. -/
def outlines : Block → List Path
  | .line _ => []
  | .subtree blocks => outlinesOf blocks
  | .outline path blocks => path :: outlinesOf blocks

/-- The paths of the outlines in a list of blocks, in document order. -/
def outlinesOf : List Block → List Path
  | [] => []
  | block :: rest => block.outlines ++ outlinesOf rest

end

theorem outlinesOf_append (first second : List Block) :
    outlinesOf (first ++ second) = outlinesOf first ++ outlinesOf second := by
  induction first with
  | nil => rfl
  | cons block rest ih => rw [List.cons_append, outlinesOf, outlinesOf, ih, List.append_assoc]

theorem outlinesOf_map_line (lines : List Line) : outlinesOf (lines.map .line) = [] := by
  induction lines with
  | nil => rfl
  | cons line rest ih => rw [List.map_cons, outlinesOf, ih, outlines, List.nil_append]

end Block

/-- The outline that an event says is put in. -/
def Event.outline? : Event → Option Path
  | .enteredOutline _ _ path _ => some path
  | _ => none

/-- The file other than an outline that an event says is put in. -/
def Event.file? : Event → Option Path
  | .enteredFile _ _ path => some path
  | _ => none

/-- Lists of lines stand in another list one behind the other, each of them in one piece. -/
inductive StandIn : List (List Line) → List Line → Prop
  | none (lines : List Line) : StandIn [] lines
  | next {parts : List (List Line)} {behind : List Line} (front part : List Line)
      (hbehind : StandIn parts behind) : StandIn (part :: parts) (front ++ part ++ behind)

namespace StandIn

variable {parts further : List (List Line)} {lines behind : List Line}

theorem after (front : List Line) (h : StandIn parts lines) : StandIn parts (front ++ lines) := by
  cases h with
  | none => exact .none _
  | next before part hbehind =>
    rw [← List.append_assoc, ← List.append_assoc]
    exact .next (front ++ before) part hbehind

theorem append (h : StandIn parts lines) (hfurther : StandIn further behind) :
    StandIn (parts ++ further) (lines ++ behind) := by
  induction h with
  | none lines => exact hfurther.after lines
  | next front part _ ih =>
    rw [List.cons_append, List.append_assoc]
    exact .next front part ih

end StandIn

/-- The events and the blocks of a step tell of the same files: the blocks of outlines are those of
the outlines that are put in, and the lines of the other files stand among what is written. -/
structure PutsIn (files : FileSystem) (events : List Event) (blocks : List Block) : Prop where
  outlines : Block.outlinesOf blocks = events.filterMap Event.outline?
  copies : ∃ copies, List.Forall₂ (fun path lines => files.readLines path = .ok lines)
      (events.filterMap Event.file?) copies ∧
    StandIn (copies.map (·.map fun line => .copied (String.ofList line))) (Block.linesOf blocks)

namespace PutsIn

variable {files : FileSystem} {events further : List Event} {blocks behind : List Block}

/-- Lines without an event. -/
theorem of_lines (lines : List Line) : PutsIn files [] (lines.map .line) :=
  ⟨Block.outlinesOf_map_line lines, [], .nil, .none _⟩

/-- An event that puts nothing in. -/
theorem of_event {event : Event} (houtline : event.outline? = none) (hfile : event.file? = none) :
    PutsIn files [event] [] := by
  refine ⟨?_, [], ?_, .none _⟩
  · rw [List.filterMap_cons_none houtline]
    rfl
  · rw [List.filterMap_cons_none hfile]
    exact .nil

theorem append (h : PutsIn files events blocks) (hfurther : PutsIn files further behind) :
    PutsIn files (events ++ further) (blocks ++ behind) := by
  obtain ⟨copies, hcopies, hstand⟩ := h.copies
  obtain ⟨copies', hcopies', hstand'⟩ := hfurther.copies
  refine ⟨?_, copies ++ copies', ?_, ?_⟩
  · rw [Block.outlinesOf_append, h.outlines, hfurther.outlines, List.filterMap_append]
  · rw [List.filterMap_append]
    exact List.rel_append hcopies hcopies'
  · rw [List.map_append, Block.linesOf_append]
    exact hstand.append hstand'

/-- A file that could be read, and its lines. -/
theorem of_copy {path : Path} {lines : List (List Char)} (hread : files.readLines path = .ok lines)
    (once : Bool) (place : Location) : PutsIn files [.enteredFile once place path]
      ((lines.map fun line => Line.copied (String.ofList line)).map .line) := by
  refine ⟨Block.outlinesOf_map_line _, [lines], .cons hread .nil, ?_⟩
  rw [Block.linesOf_map_line]
  have hstand : StandIn [lines.map fun line => Line.copied (String.ofList line)]
      ([] ++ lines.map (fun line => Line.copied (String.ofList line)) ++ []) :=
    .next [] _ (.none [])
  rwa [List.nil_append, List.append_nil] at hstand

/-- An outline is put in with all that is put in inside it, as one block. -/
theorem of_outline (h : PutsIn files events blocks) (once : Bool) (place : Location) (path : Path)
    (depth : Nat) :
    PutsIn files (.enteredOutline once place path depth :: events) [.outline path blocks] := by
  obtain ⟨copies, hcopies, hstand⟩ := h.copies
  refine ⟨?_, copies, hcopies, ?_⟩
  · rw [Block.outlinesOf, Block.outlines, h.outlines, Block.outlinesOf, List.append_nil]
    rfl
  · rw [(Enclosure.included path : Enclosure depth _ depth).linesOf]
    exact hstand

end PutsIn

/-- The comparison, of a step with itself, that its events and its blocks tell of the same files
wherever it succeeds. -/
def puttingIn (files : FileSystem) : Comparison := fun _ step _ =>
  ∀ run a, (step run).result = .ok a → PutsIn files (step run).events (step run).blocks

namespace puttingIn

theorem inSequence {files : FileSystem} {α β : Type} {first second : Rendering α}
    {next other : α → Rendering β} (hfirst : puttingIn files α first second)
    (hnext : ∀ a, puttingIn files β (next a) (other a)) :
    puttingIn files β (first >>= next) (second >>= other) := by
  intro run b hb
  obtain ⟨a, ha, hrest⟩ := result_bind_eq_ok.mp hb
  rw [then_of_ok ha]
  exact (hfirst run a ha).append (hnext a _ b hrest)

theorem stepwise (files : FileSystem) : (puttingIn files).Stepwise where
  returning _ _ _ _ := .of_lines []
  inSequence := inSequence
  failing _ _ _ _ hresult := absurd hresult (by simp [fail])
  reporting event hevent _ _ _ := by
    cases event with
    | enteredOutline | enteredFile => exact absurd hevent (by simp [Event.concernsFile])
    | _ => exact .of_event rfl rfl
  writing lines _ _ _ := .of_lines lines
  looking hboth run a ha := by
    rw [then_of_ok rfl] at ha ⊢
    exact hboth run run a ha
  changing _ _ _ _ _ := .of_lines []

theorem descending (files : FileSystem) : (puttingIn files).Descending := by
  refine (stepwise files).descending fun hstep run a ha => ?_
  obtain ⟨houtlines, copies, hcopies, hstand⟩ := hstep run a ha
  refine ⟨?_, copies, hcopies, ?_⟩
  · show Block.outlinesOf [.subtree _] = _
    rw [Block.outlinesOf, Block.outlines, houtlines, Block.outlinesOf, List.append_nil]
    rfl
  · show StandIn _ (Block.linesOf [.subtree _])
    rw [(@Enclosure.below 0).linesOf]
    exact hstand

section Inclusions

variable {world : World} {enter : Entering}
  (henter : ∀ once place path depth setting,
    let entering : Rendering Setting := do
      report (.enteredOutline once place path depth)
      enter path depth setting
    puttingIn world.files Setting entering entering)
include henter

/-- A file that is included is skipped or put in. -/
theorem includeFile (source : String) (depth : Nat) (once : Bool) (name : String)
    (setting : Setting) :
    let step := OutlineTex.includeFile world enter source depth once name setting
    puttingIn world.files Setting step step := by
  intro step run after hafter
  rcases includeFile_eq world enter source depth once name setting run with
    ⟨-, hfailed⟩ | ⟨-, -, hskipped⟩ | ⟨-, hput⟩
  · exact absurd ((congrArg Outcome.result hfailed).symm.trans hafter) (by simp)
  · rw [show step run = _ from hskipped]
    exact .of_event rfl rfl
  · rw [show step run = _ from hput] at hafter ⊢
    by_cases houtline : world.isOutlineName name = true
    · -- an outline is reported and entered in one
      simp only [putIn, if_pos houtline] at hafter ⊢
      exact henter _ _ _ _ _ _ after hafter
    · -- the copy succeeds, so the file could be read
      simp only [putIn, if_neg houtline] at hafter ⊢
      obtain ⟨_, -, hcopied⟩ := result_bind_eq_ok.mp hafter
      obtain ⟨lines, hlines, -⟩ := result_bind_eq_ok.mp hcopied
      have hread : world.files.readLines (includedPath source name) = .ok lines :=
        mapError_eq_ok.mp hlines
      simp only [hread, Except.mapError, ofExcept_ok, pure_bind]
      rw [then_of_ok rfl, emitAll_then_pure]
      exact .of_copy hread once _

theorem includeFiles (source : String) (depth : Nat) (once : Bool) (names : List String)
    (setting : Setting) :
    let step := OutlineTex.includeFiles world enter source depth once names setting
    puttingIn world.files Setting step step := by
  induction names generalizing setting with
  | nil => exact (stepwise world.files).returning setting
  | cons name rest ih => exact inSequence (includeFile henter source depth once name setting) ih

theorem inclusion {level : Level} {node : Node} {once : Bool} {names : List String}
    (hdirective : node.value.bind Directive.ofValue? = some (.inclusion once names)) :
    puttingIn world.files Verdict (dispatch world enter level node)
      (dispatch world enter level node) := by
  have hstepwise := stepwise world.files
  simp only [dispatch, hdirective, carryOut]
  refine inSequence (fun _ _ _ => .of_event rfl rfl) fun _ => ?_
  refine inSequence (hstepwise.writing [_]) fun _ => ?_
  exact inSequence (includeFiles henter _ _ _ _ _) fun _ => hstepwise.returning _

theorem dispatches :
    (puttingIn world.files).Dispatches (fun _ => True) world world enter enter where
  inclusion hdirective _ := inclusion henter hdirective
  script hdirective := (stepwise world.files).script world enter enter hdirective

end Inclusions

/-- An outline that is entered is put in. The induction is on the number of outlines that may be
open within one another. -/
theorem enterOutline (world : World) (room : Nat) (once : Bool) (place : Location) (path : Path)
    (depth : Nat) (setting : Setting) :
    let entering : Rendering Setting := do
      report (.enteredOutline once place path depth)
      OutlineTex.enterOutline world room path depth setting
    puttingIn world.files Setting entering entering := by
  induction room generalizing once place path depth setting with
  | zero =>
    intro entering run after hafter
    obtain ⟨_, -, hentered⟩ := result_bind_eq_ok.mp hafter
    exact absurd hentered (by simp [OutlineTex.enterOutline, fail])
  | succ room ih =>
    dsimp only
    rw [OutlineTex.enterOutline]
    cases world.readOutline path with
    | error fault =>
      intro run after hafter
      obtain ⟨_, -, hentered⟩ := result_bind_eq_ok.mp hafter
      exact absurd hentered (by simp [Except.mapError, Rendering.ofExcept, bind, Outcome.andThen])
    | ok nodes =>
      have hsiblings := (descending world.files).renderSiblings (dispatches ih) nodes
        (fun _ _ => trivial) (.fresh depth setting)
      simp only [Except.mapError, ofExcept_ok, pure_bind]
      -- the event belongs to the rendering of the outline, which it stands before
      rw [← bind_assoc]
      refine inSequence (fun run level hlevel => ?_) fun _ => (stepwise world.files).returning _
      obtain ⟨_, -, hinside⟩ := result_bind_eq_ok.mp hlevel
      rw [then_of_ok rfl]
      exact (hsiblings run level hinside).of_outline once place path depth

end puttingIn

/-- **What is entered is put in.** Where a rendering succeeds, the blocks of outlines that it writes
are those of the outlines that its events say are put in, in their order. Every other file that they
say is put in could be read, and its lines stand together among those that are written, behind those
of the files before it. -/
theorem World.putsIn_render (world : World) {nodes : List Node} {depth : Nat}
    {setting after : Setting} {run : Run}
    (h : (world.render nodes depth setting run).result = .ok after) :
    PutsIn world.files (world.render nodes depth setting run).events
      (world.render nodes depth setting run).blocks := by
  have hopen := puttingIn.dispatches (puttingIn.enterOutline world world.nestingBound)
  have hsiblings := (puttingIn.descending world.files).renderSiblings hopen nodes
    (fun _ _ => trivial) (.fresh depth setting)
  exact puttingIn.inSequence hsiblings (fun _ => (puttingIn.stepwise world.files).returning _) run
    after h

end OutlineTex
