/-
All or nothing.

A run of the program that was understood ends in one of three ways. It fails, and then it leaves
nothing but a message; it prints its document; or it writes it to one file. Which of them it is, is
decided after the conversion: everything that can fail there has failed before anything is
written, and the one thing that can fail later is opening the file. This file takes a delivery apart
into the three ways, and adds what writing means for the files: the document is what is read back
from the path, and every other place is as it was.
-/
import OutlineTex.Program
import OutlineTex.Proofs.FileSystem.Places
import OutlineTex.Proofs.Rendering.Comparison

set_option autoImplicit false

namespace OutlineTex

open OutlineTex.Text OutlineTex.CommandLine
open Rendering

/-! ## Names of outlines -/

/-- An outline that is converted was read. -/
theorem World.exists_readOutline {world : World} {defaultClass : String}
    {options : ConversionOptions} {path : Path} {converted : Conversion}
    (h : (world.convert defaultClass options path).result = .ok converted) :
    ∃ nodes, world.readOutline path = .ok nodes := by
  obtain ⟨nodes, hnodes, -⟩ := result_bind_eq_ok.mp h
  exact ⟨nodes, mapError_eq_ok.mp hnodes⟩

/-- A conversion that failed is delivered as its failure. -/
theorem Program.deliver_error (settings : Settings) (files : FileSystem) (arguments : Arguments)
    (failure : Failure) : (deliver settings files arguments (.error failure)).1 =
      (failedBy files arguments.input failure).1 := by
  cases hstdout : arguments.stdout <;>
    simp [deliver, hstdout, FileConversion.ofResult, Except.mapError, bind, Except.bind]

/-- A failure that is no NUL is reported with its message. -/
theorem Program.failedBy_eq {failure : Failure} (h : failure.isNul = false) (files : FileSystem)
    (input : Path) : failedBy files input failure = failed files input failure.message := by
  simp [failedBy, h]

/-- A run that ends with a status on a failure has the status 1, and leaves nothing. -/
theorem Program.of_failedBy {files : FileSystem} {input : Path} {failure : Failure} {exit : Exit}
    (h : (failedBy files input failure).1 = .ok exit) :
    exit.status = 1 ∧ exit.files = files ∧ exit.stdout = "" := by
  cases hnul : failure.isNul with
  | true => simp [failedBy, hnul] at h
  | false =>
    rw [failedBy_eq hnul] at h
    obtain rfl := Except.ok.inj h
    exact ⟨rfl, rfl, rfl⟩

/-- A document that is asked for at the standard output is printed. -/
theorem Program.deliver_to_stdout (settings : Settings) (files : FileSystem) {arguments : Arguments}
    (converted : Conversion) (hstdout : arguments.stdout = true) :
    (deliver settings files arguments (.ok converted)).1 =
      .ok { status := 0, stdout := converted.document, files } := by
  simp [deliver, hstdout]

/-- A document that has a path is written there, or its file cannot be opened. -/
theorem Program.deliver_to_file (settings : Settings) (files : FileSystem) {arguments : Arguments}
    (converted : Conversion) {target : Path} (hstdout : arguments.stdout = false)
    (htarget : Conversion.outputPath settings.outputSuffix arguments.input arguments.output =
      .ok target) :
    (deliver settings files arguments (.ok converted)).1 =
      match files.write target (Utf8.encode converted.document) with
      | .error fault =>
        if fault.isNul then .error (.target target)
        else (failed files arguments.input (fault.message target)).1
      | .ok after => .ok { status := 0, files := after } := by
  cases hwrite : files.write target (Utf8.encode converted.document) with
  | error fault =>
    cases hnul : fault.isNul <;>
      simp [deliver, hstdout, FileConversion.ofResult, htarget, hwrite, hnul, Except.mapError, bind,
        Except.bind]
  | ok after =>
    simp [deliver, hstdout, FileConversion.ofResult, htarget, hwrite, Except.mapError, bind,
      Except.bind, pure, Except.pure]

/-- A NUL is met where the conversion fails with one, or where its document is to be written to a
path that has one. -/
def Program.MeetsNul (settings : Settings) (arguments : Arguments)
    (converted : Except Failure Conversion) : Prop :=
  (∃ failure, converted = .error failure ∧ failure.isNul = true) ∨
    arguments.stdout = false ∧ (∃ conversion, converted = .ok conversion) ∧ ∃ target,
      Conversion.outputPath settings.outputSuffix arguments.input arguments.output = .ok target ∧
        target.hasNul = true

theorem Program.meetsNul_error_iff {settings : Settings} {arguments : Arguments}
    {failure : Failure} :
    MeetsNul settings arguments (.error failure) ↔ failure.isNul = true := by
  refine ⟨?_, fun h => .inl ⟨failure, rfl, h⟩⟩
  rintro (⟨other, hother, hnul⟩ | ⟨-, ⟨converted, hconverted⟩, -⟩)
  · obtain rfl := Except.error.inj hother
    exact hnul
  · exact absurd hconverted (by simp)

/-- A conversion that succeeded meets a NUL only in the path of its document. -/
theorem Program.meetsNul_ok_iff {settings : Settings} {arguments : Arguments} {target : Path}
    (htarget : Conversion.outputPath settings.outputSuffix arguments.input arguments.output =
      .ok target) (converted : Conversion) :
    MeetsNul settings arguments (.ok converted) ↔
      arguments.stdout = false ∧ target.hasNul = true := by
  constructor
  · rintro (⟨failure, hfailure, -⟩ | ⟨hstdout, -, other, hother, hnul⟩)
    · exact absurd hfailure (by simp)
    · obtain rfl := Except.ok.inj (htarget.symm.trans hother)
      exact ⟨hstdout, hnul⟩
  · rintro ⟨hstdout, hnul⟩
    exact .inr ⟨hstdout, ⟨converted, rfl⟩, target, htarget, hnul⟩

/-- All failures that are a NUL have one message. -/
theorem Failure.message_of_isNul {failure : Failure} (h : failure.isNul = true) :
    failure.message = nulMessage := by
  unfold isNul at h
  split at h
  · next path fault =>
    cases fault with
    | nul => rfl
    | _ => exact absurd h (by simp [OpenFault.isNul])
  · rfl
  · rfl
  · exact absurd h (by simp)

/-- The three ways in which a delivery comes to an exit: it fails and leaves all as it was, it
prints the document and leaves the files as they were, or it writes the document to its path. -/
def Exit.Concludes (exit : Exit) (files : FileSystem) (arguments : Arguments)
    (result : Except Failure Conversion) (target : Path) : Prop :=
  exit.status = 1 ∧ exit.files = files ∧ exit.stdout = "" ∧
      ((∃ failure, result = .error failure) ∨ arguments.stdout = false ∧
        (∃ converted, result = .ok converted) ∧ ∃ fault, files.target target = .error fault) ∨
    exit.status = 0 ∧ exit.files = files ∧ arguments.stdout = true ∧
      (∃ converted, result = .ok converted ∧ exit.stdout = converted.document) ∨
    exit.status = 0 ∧ exit.stdout = "" ∧ arguments.stdout = false ∧
      ∃ converted, result = .ok converted ∧
        files.write target (Utf8.encode converted.document) = .ok exit.files

/-- A delivery that meets a NUL ends without an exit, and any other comes to one. -/
theorem Program.deliver_cases {settings : Settings} (files : FileSystem) {arguments : Arguments}
    {result : Except Failure Conversion} {target : Path}
    (htarget : ∀ converted, result = .ok converted →
      Conversion.outputPath settings.outputSuffix arguments.input arguments.output = .ok target) :
    (MeetsNul settings arguments result ∧ ∃ crash,
      (deliver settings files arguments result).1 = .error crash ∧ crash.message = nulMessage) ∨
    (¬ MeetsNul settings arguments result ∧ ∃ exit,
      (deliver settings files arguments result).1 = .ok exit ∧
        exit.Concludes files arguments result target) := by
  cases result with
  | error failure =>
    have hfailed := deliver_error settings files arguments failure
    rw [meetsNul_error_iff]
    cases hnul : failure.isNul with
    | true =>
      refine .inl ⟨rfl, .conversion failure, ?_, failure.message_of_isNul hnul⟩
      rw [hfailed, failedBy, if_pos hnul]
    | false =>
      rw [failedBy_eq hnul] at hfailed
      exact .inr ⟨by simp, _, hfailed, .inl ⟨rfl, rfl, rfl, .inl ⟨failure, rfl⟩⟩⟩
  | ok converted =>
    rw [meetsNul_ok_iff (htarget converted rfl)]
    cases hstdout : arguments.stdout with
    | true =>
      have hprinted := deliver_to_stdout settings files converted hstdout
      exact .inr ⟨by simp, _, hprinted, .inr (.inl ⟨rfl, rfl, hstdout, converted, rfl, rfl⟩)⟩
    | false =>
      have hdelivered := deliver_to_file settings files converted hstdout (htarget converted rfl)
      rw [← @FileSystem.target_eq_nul files, ← FileSystem.write_eq_error]
      cases hwrite : files.write target (Utf8.encode converted.document) with
      | error fault =>
        rw [hwrite] at hdelivered
        have hfault := FileSystem.write_eq_error.mp hwrite
        cases fault with
        | nul => exact .inl ⟨⟨rfl, rfl⟩, _, hdelivered, rfl⟩
        | _ =>
          exact .inr ⟨by simp, _, hdelivered,
            .inl ⟨rfl, rfl, rfl, .inr ⟨hstdout, ⟨converted, rfl⟩, _, hfault⟩⟩⟩
      | ok after =>
        rw [hwrite] at hdelivered
        exact .inr ⟨by simp, _, hdelivered,
          .inr (.inr ⟨rfl, rfl, hstdout, converted, rfl, hwrite⟩)⟩

/-- A delivery that succeeds, and not at the standard output, has written its document. -/
theorem Program.write_of_deliver {settings : Settings} {files : FileSystem} {arguments : Arguments}
    {result : Except Failure Conversion} {exit : Exit} (hstdout : arguments.stdout = false)
    (h : (deliver settings files arguments result).1 = .ok exit) (hstatus : exit.status = 0) :
    ∃ converted target, result = .ok converted ∧
      Conversion.outputPath settings.outputSuffix arguments.input arguments.output = .ok target ∧
      files.write target (Utf8.encode converted.document) = .ok exit.files := by
  cases hpath : Conversion.outputPath settings.outputSuffix arguments.input arguments.output with
  | error fault =>
    -- without a path there is no delivery, unless the conversion failed before
    cases result with
    | error failure =>
      rw [deliver_error] at h
      obtain ⟨hfailed, -⟩ := of_failedBy h
      omega
    | ok converted =>
      exact absurd h (by simp [deliver, hstdout, FileConversion.ofResult, hpath, Except.mapError,
        bind, Except.bind])
  | ok target =>
    rcases deliver_cases files (fun _ _ => hpath) with
      ⟨-, crash, hcrash, -⟩ | ⟨-, other, hother, hways⟩
    · exact absurd (h.symm.trans hcrash) (by simp)
    obtain rfl := Except.ok.inj (h.symm.trans hother)
    rcases hways with ⟨hfailed, -⟩ | ⟨-, -, hasked, -⟩ | ⟨-, -, -, converted, hconverted, hwrite⟩
    · omega
    · exact absurd (hstdout.symm.trans hasked) (by decide)
    · exact ⟨converted, target, hconverted, rfl, hwrite⟩

/-! ## Runs -/

/-- The conversion that a command line asks for. -/
def Program.conversion (settings : Settings) (files : FileSystem) (processes : ProcessWorld)
    (arguments : Arguments) : Outcome Conversion :=
  (world settings files processes arguments).convert settings.documentClass
    (conversionOptions settings arguments) arguments.input

/-- A run whose words and threshold are understood delivers what the conversion comes to. -/
theorem Program.result_run {settings : Settings} {files : FileSystem} {processes : ProcessWorld}
    {words : List String} {arguments : Arguments} {rank : Nat}
    (hwords : Arguments.ofWords settings.styleCode settings.logLevel words = .ok arguments)
    (hrank : threshold arguments = .ok rank) :
    (run settings files processes words).result = (deliver settings files arguments
      (conversion settings files processes arguments).result).1 := by
  simp only [run, hwords, hrank]
  rfl

/-- A run that succeeds, and not at the standard output, has written the document that its
conversion came to. -/
theorem Program.write_of_run {settings : Settings} {files : FileSystem} {processes : ProcessWorld}
    {words : List String} {arguments : Arguments} {exit : Exit}
    (hwords : Arguments.ofWords settings.styleCode settings.logLevel words = .ok arguments)
    (hstdout : arguments.stdout = false)
    (hrun : (run settings files processes words).result = .ok exit) (hstatus : exit.status = 0) :
    ∃ converted target,
      (conversion settings files processes arguments).result = .ok converted ∧
      Conversion.outputPath settings.outputSuffix arguments.input arguments.output = .ok target ∧
      files.write target (Utf8.encode converted.document) = .ok exit.files := by
  cases hrank : threshold arguments with
  | error fault => exact absurd hrun (by simp [run, hwords, hrank])
  | ok rank =>
    have hdelivered := (result_run hwords hrank).symm.trans hrun
    exact write_of_deliver hstdout hdelivered hstatus

/-- The arguments of a command line that only names an outline. -/
def Program.reportArguments (name : String) : Arguments :=
  { input := .ofText name, format := some "SSSI", logLevel := some "WARNING" }

end OutlineTex
