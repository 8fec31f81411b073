import FormDesign.Code.Source
import FormDesign.Project.Writer
import FormDesign.Resource.Document

/-!
# Project runs

A run generates every form of a project in every language asked for, and hands the files to a
writer. A form that fails stops no other form: its failure is reported, and the run goes on.
-/

namespace FormDesign

/-! ## Results -/

/-- What became of one file. -/
structure FileResult where
  /-- The path with its extension. -/
  path : String
  language : Language
  className : String
  code : ResultCode
  deriving DecidableEq

/-- What became of one form in one language. -/
structure FormResult where
  className : String
  language : Language
  code : ResultCode
  deriving DecidableEq

/-- What became of a form in a language, with all that belongs to it. -/
structure JobResult where
  form : FormResult
  files : List FileResult
  warnings : List String
  /-- One message if the form failed, or one for each of its files that failed. -/
  failures : List String
  deriving DecidableEq

/-- What became of a project. -/
structure ProjectResults where
  files : List FileResult
  forms : List FormResult
  /-- The warnings of every form, each where it came first. -/
  warnings : List String
  /-- How many files were written, or would have been. -/
  updated : Nat
  failures : List String
  deriving DecidableEq

namespace ProjectResults

/-- The results of some jobs, in their order. -/
def ofJobs (jobs : List JobResult) : ProjectResults :=
  let files := jobs.flatMap JobResult.files
  { files, forms := jobs.map JobResult.form, warnings := firsts (jobs.flatMap JobResult.warnings),
    updated := (files.filter fun f => f.code.isUpdate).length,
    failures := jobs.flatMap JobResult.failures }

def isSuccess (r : ProjectResults) : Bool := r.failures.isEmpty

/-- The paths of all files. -/
def paths (r : ProjectResults) : List String := r.files.map FileResult.path

/-- The files with a result code. -/
def filesWith (r : ProjectResults) (code : ResultCode) : List FileResult :=
  r.files.filter fun f => f.code == code

end ProjectResults

/-- The code of a form: the most significant one of its files. -/
def ResultCode.summary (codes : List ResultCode) : ResultCode :=
  if codes.contains .fail then .fail
  else if codes.contains .created then .created
  else if codes.contains .needsWriting then .needsWriting
  else .alreadyExists

/-! ## Jobs -/

/-- Generates a form in a language. -/
def generate (t : Tree) (id : Nat) (l : Language) (o : Options) (source : FileSource) (c : Cache) :
    Except Fault FormOutput × Cache :=
  match l with
  | .resource => (generateResource t id o, c)
  | .source _ => generateSource t id l o source c

variable {σ : Type}

/-- Hands files to a writer. Gives the code of each, and a message for each that failed. -/
def writeAll (write : Writer σ) : List OutputFile → σ → List (ResultCode × List String) × σ
  | [], target => ([], target)
  | file :: files, target =>
    let (result, target) := write file target
    let first :=
      match result with
      | .ok code => (code, [])
      | .error fault => (.fail, [file.fullPath ++ ": " ++ fault.message])
    let (rest, target) := writeAll write files target
    (first :: rest, target)

/-- The result of a form whose files were written. -/
def JobResult.ofOutput (output : FormOutput) (written : List (ResultCode × List String)) :
    JobResult :=
  let files := (output.files.zip written).map fun (file, code, _) =>
    { path := file.fullPath, language := output.language, className := output.className, code }
  let code :=
    if output.code = .ignored then .ignored else ResultCode.summary (written.map Prod.fst)
  { form := { className := output.className, language := output.language, code }, files,
    warnings := output.warnings, failures := written.flatMap Prod.snd }

/-- The result of a form that failed. -/
def JobResult.ofFault (className : String) (l : Language) (fault : Fault) : JobResult :=
  { form := { className, language := l, code := .fail }, files := [], warnings := [],
    failures := [className ++ " (" ++ l.name ++ "): " ++ fault.message] }

/-- Generates a form in a language and writes its files. -/
def runJob (t : Tree) (o : Options) (source : FileSource) (write : Writer σ) (id : Nat)
    (l : Language) (c : Cache) (target : σ) : JobResult × Cache × σ :=
  match generate t id l o source c with
  | (.error fault, c) =>
    let className := ((t.get? id).map fun n => n.className).getD ""
    (.ofFault className l fault, c, target)
  | (.ok output, c) =>
    let (written, target) := writeAll write output.files target
    (.ofOutput output written, c, target)

/-- Runs jobs one after the other. -/
def runJobs (t : Tree) (o : Options) (source : FileSource) (write : Writer σ) :
    List (Nat × Language) → Cache → σ → List JobResult × Cache × σ
  | [], c, target => ([], c, target)
  | (id, l) :: jobs, c, target =>
    let (result, c, target) := runJob t o source write id l c target
    let (rest, c, target) := runJobs t o source write jobs c target
    (result :: rest, c, target)

/-! ## Runs -/

/-- The forms of a project in each language, form by form. -/
def jobsOf (t : Tree) (languages : List Language) : List (Nat × Language) :=
  t.forms.flatMap fun id => languages.map fun l => (id, l)

/-- Generates every form of a project in each language and writes the files. -/
def runProject (t : Tree) (o : Options) (languages : List Language) (source : FileSource)
    (write : Writer σ) (c : Cache) (target : σ) : ProjectResults × Cache × σ :=
  let (jobs, c, target) := runJobs t o source write (jobsOf t languages) c target
  (.ofJobs jobs, c, target)

end FormDesign
