import FormDesign.Project.Run

/-!
# The jobs of a run

A run generates a form, writes its files, and goes on to the next one. Generation looks at the cache
and writing at the target, so a run comes to the same as generating all forms and then writing all
their files (`runProject_eq`). What is left of a job then is its log: what generation came to, and
how the writer answered each file.
-/

namespace FormDesign

variable {σ : Type}

/-! ## Answers -/

/-- The answers of a writer to some files. -/
def answerAll (write : Writer σ) : List OutputFile → σ → List (Except WriteFault ResultCode) × σ
  | [], target => ([], target)
  | f :: files, target =>
    let (answer, target) := write f target
    let (answers, target) := answerAll write files target
    (answer :: answers, target)

/-- The code of a file, by the answer of the writer. -/
def answerCode : Except WriteFault ResultCode → ResultCode
  | .ok code => code
  | .error _ => .fail

/-- What is said of a file, by the answer of the writer. -/
def OutputFile.complaint? (f : OutputFile) : Except WriteFault ResultCode → Option String
  | .ok _ => none
  | .error fault => some (f.fullPath ++ ": " ++ fault.message)

/-- A file and its answer, as they are noted in the result. -/
def noteAnswer (answered : OutputFile × Except WriteFault ResultCode) :
    ResultCode × List String :=
  (answerCode answered.2, (answered.1.complaint? answered.2).toList)

theorem answerAll_append (write : Writer σ) (files more : List OutputFile) (target : σ) :
    answerAll write (files ++ more) target =
      ((answerAll write files target).1 ++
          (answerAll write more (answerAll write files target).2).1,
        (answerAll write more (answerAll write files target).2).2) := by
  induction files generalizing target with
  | nil => rfl
  | cons f files ih => simp only [List.cons_append, answerAll, ih]

theorem writeAll_eq_answerAll (write : Writer σ) (files : List OutputFile) (target : σ) :
    writeAll write files target =
      ((files.zip (answerAll write files target).1).map noteAnswer,
        (answerAll write files target).2) := by
  induction files generalizing target with
  | nil => rfl
  | cons f files ih =>
    unfold writeAll answerAll
    rcases write f target with ⟨_ | _, _⟩ <;>
      simp [ih, noteAnswer, answerCode, OutputFile.complaint?]

/-! ## Logs -/

/-- A form in a language, and what its generation came to. -/
structure GeneratedJob where
  id : Nat
  language : Language
  output : Except Fault FormOutput

/-- A form in a language, what its generation came to, and how its files were answered. -/
structure JobLog extends GeneratedJob where
  answers : List (Except WriteFault ResultCode)

/-- The files that are handed to the writer. -/
def GeneratedJob.files (job : GeneratedJob) : List OutputFile :=
  match job.output with
  | .ok output => output.files
  | .error _ => []

/-- The class that was generated, or else should have been. -/
def GeneratedJob.className (t : Tree) (job : GeneratedJob) : String :=
  match job.output with
  | .ok output => output.className
  | .error _ => ((t.get? job.id).map fun n => n.className).getD ""

/-- Generates forms, one after the other. -/
def generateJobs (t : Tree) (o : Options) (source : FileSource) :
    List (Nat × Language) → Cache → List GeneratedJob × Cache
  | [], c => ([], c)
  | (id, l) :: jobs, c =>
    let (output, c) := generate t id l o source c
    let (rest, c) := generateJobs t o source jobs c
    ({ id, language := l, output } :: rest, c)

/-- Writes the files of forms, one form after the other. -/
def writeJobs (write : Writer σ) : List GeneratedJob → σ → List JobLog × σ
  | [], target => ([], target)
  | job :: jobs, target =>
    let (answers, target) := answerAll write job.files target
    let (logs, target) := writeJobs write jobs target
    ({ job with answers } :: logs, target)

/-- The result of a job. -/
def JobLog.result (t : Tree) (log : JobLog) : JobResult :=
  match log.output with
  | .error fault => .ofFault (log.className t) log.language fault
  | .ok output => .ofOutput output ((output.files.zip log.answers).map noteAnswer)

/-! ## A run, split into generation and writing -/

theorem runJobs_eq (t : Tree) (o : Options) (source : FileSource) (write : Writer σ)
    (jobs : List (Nat × Language)) (c : Cache) (target : σ) :
    runJobs t o source write jobs c target =
      ((writeJobs write (generateJobs t o source jobs c).1 target).1.map (JobLog.result t),
        (generateJobs t o source jobs c).2,
        (writeJobs write (generateJobs t o source jobs c).1 target).2) := by
  induction jobs generalizing c target with
  | nil => rfl
  | cons job jobs ih =>
    obtain ⟨id, l⟩ := job
    unfold runJobs runJob generateJobs writeJobs
    rcases generate t id l o source c with ⟨fault | output, c'⟩
    · simp only [ih]
      rfl
    · simp only [ih, writeAll_eq_answerAll]
      rfl

/-- A run, with its logs. -/
theorem runProject_eq (t : Tree) (o : Options) (languages : List Language) (source : FileSource)
    (write : Writer σ) (c : Cache) (target : σ) :
    runProject t o languages source write c target =
      (.ofJobs ((writeJobs write
          (generateJobs t o source (jobsOf t languages) c).1 target).1.map (JobLog.result t)),
        (generateJobs t o source (jobsOf t languages) c).2,
        (writeJobs write (generateJobs t o source (jobsOf t languages) c).1 target).2) := by
  unfold runProject
  rw [runJobs_eq]

/-! ## What generation gives -/

/-- The output of a form is in the language asked for, and has no files if the form is ignored. -/
theorem of_generate {t : Tree} {id : Nat} {l : Language} {o : Options} {source : FileSource}
    {c : Cache} {output : FormOutput} (h : (generate t id l o source c).1 = .ok output) :
    output.language = l ∧
      (output.code = .ignored ∧ output.files = [] ∨ output.code = .needsWriting) := by
  cases l with
  | resource =>
    unfold generate generateResource at h
    dsimp only at h
    split at h
    · cases h
    · split at h
      · cases h
        exact ⟨rfl, .inl ⟨rfl, rfl⟩⟩
      · split at h
        · cases h
        · split at h
          · cases h
            exact ⟨rfl, .inl ⟨rfl, rfl⟩⟩
          · cases hadd : (ResourceDocument.empty o.resource false true).add t id with
            | error fault =>
              rw [hadd] at h
              cases h
            | ok added =>
              rw [hadd] at h
              cases h
              exact ⟨rfl, .inr rfl⟩
  | source d =>
    unfold generate generateSource at h
    dsimp only at h
    split at h
    · cases h
    · split at h
      · cases h
        exact ⟨rfl, .inl ⟨rfl, rfl⟩⟩
      · split at h
        · cases h
        · split at h
          · cases h
            exact ⟨rfl, .inl ⟨rfl, rfl⟩⟩
          · split at h
            · cases h
            · rename_i f _
              unfold Form.generate at h
              split at h
              · cases h
                exact ⟨rfl, .inr rfl⟩
              · cases h

end FormDesign
