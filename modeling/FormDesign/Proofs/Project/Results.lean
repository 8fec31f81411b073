import FormDesign.Proofs.Project.DryRun
import FormDesign.Proofs.Project.Jobs
import FormDesign.Proofs.Project.Repeat

/-!
# Results that add up

The results of a run are put together from those of its jobs, and these from what generation came to
and how the writer answered. What a job did is in its log, so the results can be read off the logs,
and no job adds to what another one reports (`runProject_addsUp`).

* `JobLog.Done`: the log of a job that was done at some time
* `JobLog.Sound`, `Sound.result_eq`: what the logs of jobs have in common, and the result of one
* `ProjectResults.AddsUp`: what is said of all of them
-/

namespace FormDesign

variable {σ : Type} {t : Tree} {o : Options} {source : FileSource} {languages : List Language}

/-- The writer leaves a file alone, creates it, says that it needs writing, or fails. -/
def Writer.Answers (write : Writer σ) : Prop :=
  ∀ f target code, (write f target).1 = .ok code →
    code = .alreadyExists ∨ code = .created ∨ code = .needsWriting

/-! ## Logs -/

/-- Whether the form could not be generated. -/
def GeneratedJob.failed (job : GeneratedJob) : Bool :=
  match job.output with
  | .ok _ => false
  | .error _ => true

/-- Whether there was nothing to generate. -/
def GeneratedJob.ignored (job : GeneratedJob) : Bool :=
  match job.output with
  | .ok output => output.code == .ignored
  | .error _ => false

namespace JobLog

/-- The codes of the files. -/
def codes (log : JobLog) : List ResultCode :=
  log.answers.map answerCode

/-- The code of the form: a failure comes first, and a written file before one that is not. -/
def code (log : JobLog) : ResultCode :=
  if log.failed ∨ .fail ∈ log.codes then .fail
  else if log.ignored then .ignored
  else if .created ∈ log.codes then .created
  else if .needsWriting ∈ log.codes then .needsWriting
  else .alreadyExists

/-- The files, each with its answer. -/
def fileResults (t : Tree) (log : JobLog) : List FileResult :=
  (log.files.zip log.answers).map fun (f, answer) =>
    { path := f.fullPath, language := log.language, className := log.className t,
      code := answerCode answer }

def warnings (log : JobLog) : List String :=
  match log.output with
  | .ok output => output.warnings
  | .error _ => []

/-- One message if the form could not be generated, and else one for each file that could not be
written. -/
def messages (t : Tree) (log : JobLog) : List String :=
  match log.output with
  | .error fault => [log.className t ++ " (" ++ log.language.name ++ "): " ++ fault.message]
  | .ok output => (output.files.zip log.answers).filterMap fun (f, answer) => f.complaint? answer

/-- The log of a job that was done at some time: generation met some cache, and each file some state
of the target. -/
structure Done (t : Tree) (o : Options) (source : FileSource) (write : Writer σ)
    (job : Nat × Language) (log : JobLog) : Prop where
  pair : (log.id, log.language) = job
  output : ∃ c, log.output = (generate t log.id log.language o source c).1
  answers : List.Forall₂ (fun f answer => ∃ target, answer = (write f target).1) log.files
    log.answers

/-- Every file has its answer, and the output is one that generation can come to. -/
structure Sound (log : JobLog) : Prop where
  answered : log.files.length = log.answers.length
  answers : ∀ code, .ok code ∈ log.answers →
    code = .alreadyExists ∨ code = .created ∨ code = .needsWriting
  language : ∀ output, log.output = .ok output → output.language = log.language
  ignored : ∀ output, log.output = .ok output → output.code = .ignored → output.files = []

variable {log : JobLog}

theorem Done.sound {write : Writer σ} (hw : Writer.Answers write) {job : Nat × Language}
    (h : Done t o source write job log) : log.Sound where
  answered := h.answers.length_eq
  answers code hcode := by
    obtain ⟨i, hi, heq⟩ := List.getElem_of_mem hcode
    obtain ⟨target, hanswer⟩ := h.answers.get (h.answers.length_eq ▸ hi) hi
    exact hw _ target code (hanswer.symm.trans heq)
  language output hok := by
    obtain ⟨c, hc⟩ := h.output
    exact (of_generate (hc.symm.trans hok)).1
  ignored output hok hcode := by
    obtain ⟨c, hc⟩ := h.output
    rcases (of_generate (hc.symm.trans hok)).2 with ⟨-, hfiles⟩ | hwritten
    · exact hfiles
    · cases hcode.symm.trans hwritten

namespace Sound

/-- No writer reports a failure other than by failing. -/
theorem complaint?_eq_none_iff (h : log.Sound)
    (answered : OutputFile × Except WriteFault ResultCode)
    (hmem : answered ∈ log.files.zip log.answers) :
    answered.1.complaint? answered.2 = none ↔ answerCode answered.2 ≠ .fail := by
  obtain ⟨f, answer⟩ := answered
  cases answer with
  | error fault => simp [OutputFile.complaint?, answerCode]
  | ok code =>
    rcases h.answers code (List.of_mem_zip hmem).2 with rfl | rfl | rfl <;>
      simp [OutputFile.complaint?, answerCode]

theorem map_code_zip (h : log.Sound) :
    (log.files.zip log.answers).map (fun answered => answerCode answered.2) = log.codes := by
  have hsnd : (log.files.zip log.answers).map Prod.snd = log.answers :=
    List.map_snd_zip (Nat.le_of_eq h.answered.symm)
  calc (log.files.zip log.answers).map (fun answered => answerCode answered.2)
      = ((log.files.zip log.answers).map Prod.snd).map answerCode := by rw [List.map_map]; rfl
    _ = log.codes := by rw [hsnd, codes]

theorem code_eq_summary (h : log.Sound) {output : FormOutput} (hok : log.output = .ok output) :
    log.code = if output.code = .ignored then .ignored else ResultCode.summary log.codes := by
  have answered := h.answered
  unfold code GeneratedJob.failed GeneratedJob.ignored ResultCode.summary
  simp only [hok]
  by_cases hignored : output.code = .ignored
  · -- an ignored form has no files, so none of them failed
    have hfiles : log.files = [] := by
      unfold GeneratedJob.files
      rw [hok]
      exact h.ignored output hok hignored
    have hcodes : log.codes = [] := by
      rw [hfiles, List.length_nil] at answered
      unfold codes
      rw [List.eq_nil_of_length_eq_zero answered.symm, List.map_nil]
    simp [hignored, hcodes]
  · simp [hignored]

/-- The result of a job, read off its log. -/
theorem result_eq (h : log.Sound) (t : Tree) :
    log.result t =
      { form := { className := log.className t, language := log.language, code := log.code },
        files := log.fileResults t, warnings := log.warnings, failures := log.messages t } := by
  have hcodes := h.map_code_zip
  have answered := h.answered
  unfold result fileResults warnings messages
  cases hok : log.output with
  | error fault =>
    have hcode : log.code = .fail := by simp [code, GeneratedJob.failed, hok]
    have hfiles : log.files = [] := by simp [GeneratedJob.files, hok]
    simp [JobResult.ofFault, hcode, hfiles]
  | ok output =>
    have hfiles : log.files = output.files := by simp [GeneratedJob.files, hok]
    have hclass : log.className t = output.className := by simp [GeneratedJob.className, hok]
    rw [hfiles] at hcodes answered ⊢
    have hfst : (output.files.zip log.answers).map Prod.fst = output.files :=
      List.map_fst_zip (Nat.le_of_eq answered)
    -- the files are paired with what was noted about them
    have hzip : output.files.zip ((output.files.zip log.answers).map noteAnswer) =
        (output.files.zip log.answers).map fun answered => (answered.1, noteAnswer answered) := by
      conv_lhs => arg 1; rw [← hfst]
      exact List.zip_map'
    unfold JobResult.ofOutput
    simp only [hzip, h.code_eq_summary hok, h.language output hok, hclass]
    simp [noteAnswer, ← hcodes, Function.comp_def, List.filterMap_eq_flatMap_toList,
      List.flatMap_map]

theorem map_code_fileResults (h : log.Sound) (t : Tree) :
    (log.fileResults t).map FileResult.code = log.codes := by
  rw [← h.map_code_zip, fileResults, List.map_map]
  rfl

theorem map_path_fileResults (h : log.Sound) (t : Tree) :
    (log.fileResults t).map FileResult.path = log.files.map OutputFile.fullPath := by
  have hfst : (log.files.zip log.answers).map Prod.fst = log.files :=
    List.map_fst_zip (Nat.le_of_eq h.answered)
  calc (log.fileResults t).map FileResult.path
      = ((log.files.zip log.answers).map Prod.fst).map OutputFile.fullPath := by
        rw [fileResults, List.map_map, List.map_map]
        rfl
    _ = log.files.map OutputFile.fullPath := by rw [hfst]

/-- A form or a file that failed has one message. -/
theorem length_messages (h : log.Sound) (t : Tree) :
    (log.messages t).length =
      (if log.failed then 1 else 0) + (log.fileResults t).countP fun f => f.code = .fail := by
  have complaint? := h.complaint?_eq_none_iff
  unfold messages GeneratedJob.failed fileResults
  cases hok : log.output with
  | error fault =>
    have hfiles : log.files = [] := by simp [GeneratedJob.files, hok]
    simp [hfiles]
  | ok output =>
    have hfiles : log.files = output.files := by simp [GeneratedJob.files, hok]
    rw [hfiles] at complaint? ⊢
    simp only [List.length_filterMap_eq_countP, List.countP_map, Bool.false_eq_true, if_false,
      Nat.zero_add]
    refine List.countP_congr fun answered hmem => ?_
    have hiff := complaint? answered hmem
    simp only [Option.isSome_iff_ne_none, ne_eq, Function.comp_apply, decide_eq_true_eq]
    tauto

end Sound

theorem code_eq_fail_iff : log.code = .fail ↔ log.failed = true ∨ .fail ∈ log.codes := by
  unfold code
  split
  · simp [*]
  · rename_i none
    simp only [none, iff_false]
    repeat' split
    all_goals simp

/-- There is a message exactly if the code is that of a failure. -/
theorem Sound.messages_eq_nil_iff (h : log.Sound) (t : Tree) :
    log.messages t = [] ↔ log.code ≠ .fail := by
  have hcount : (log.fileResults t).countP (fun f => f.code = .fail) = 0 ↔ .fail ∉ log.codes := by
    rw [← h.map_code_fileResults t]
    simp [List.countP_eq_zero, List.mem_map]
  rw [← List.length_eq_zero_iff, h.length_messages, Nat.add_eq_zero_iff, hcount, ne_eq,
    code_eq_fail_iff, not_or]
  simp

end JobLog

/-! ## All results -/

/-- What is said of the results of a run, by the logs of its jobs. -/
structure ProjectResults.AddsUp (r : ProjectResults) (t : Tree) (languages : List Language)
    (logs : List JobLog) : Prop where
  /-- There is a job for each form and each language, form by form. -/
  pairs : logs.map (fun log => (log.id, log.language)) =
    t.forms.flatMap fun id => languages.map fun l => (id, l)
  /-- Each job has an entry, with a code that follows from what became of the form and its files. -/
  forms : r.forms = logs.map fun log =>
    { className := log.className t, language := log.language, code := log.code }
  /-- The files are those of the forms that could be generated, in their order. -/
  paths : r.paths = logs.flatMap fun log => log.files.map OutputFile.fullPath
  files : r.files = logs.flatMap (JobLog.fileResults t)
  updated : r.updated = r.files.countP fun f => f.code = .created ∨ f.code = .needsWriting
  failures : r.failures = logs.flatMap (JobLog.messages t)
  /-- There is a message for each form and for each file that failed. -/
  length_failures : r.failures.length =
    logs.countP (fun log => log.failed) + r.files.countP fun f => f.code = .fail
  isSuccess_iff : r.isSuccess = true ↔ ∀ form ∈ r.forms, form.code ≠ .fail

theorem length_flatMap_messages {logs : List JobLog} (sound : ∀ log ∈ logs, log.Sound) :
    (logs.flatMap (JobLog.messages t)).length =
      logs.countP (fun log => log.failed) +
        (logs.flatMap (JobLog.fileResults t)).countP fun f => f.code = .fail := by
  induction logs with
  | nil => rfl
  | cons log logs ih =>
    have hfirst := (sound log List.mem_cons_self).length_messages t
    have hrest := ih fun log hlog => sound log (List.mem_cons_of_mem _ hlog)
    rw [List.flatMap_cons, List.flatMap_cons, List.length_append, List.countP_append,
      List.countP_cons, hfirst, hrest]
    omega

/-- Results put together from sound logs add up. -/
theorem addsUp_of_sound {logs : List JobLog}
    (pairs : logs.map (fun log => (log.id, log.language)) = jobsOf t languages)
    (sound : ∀ log ∈ logs, log.Sound) :
    (ProjectResults.ofJobs (logs.map (JobLog.result t))).AddsUp t languages logs := by
  have hresults : logs.map (JobLog.result t) = logs.map fun log =>
      { form := { className := log.className t, language := log.language, code := log.code },
        files := log.fileResults t, warnings := log.warnings, failures := log.messages t } :=
    List.map_congr_left fun log hlog => (sound log hlog).result_eq t
  have hforms : (ProjectResults.ofJobs (logs.map (JobLog.result t))).forms = logs.map fun log =>
      { className := log.className t, language := log.language, code := log.code } := by
    rw [hresults]
    simp [ProjectResults.ofJobs, Function.comp_def]
  have hfiles : (ProjectResults.ofJobs (logs.map (JobLog.result t))).files =
      logs.flatMap (JobLog.fileResults t) := by
    rw [hresults]
    simp [ProjectResults.ofJobs, List.flatMap_map]
  have hfailures : (ProjectResults.ofJobs (logs.map (JobLog.result t))).failures =
      logs.flatMap (JobLog.messages t) := by
    rw [hresults]
    simp [ProjectResults.ofJobs, List.flatMap_map]
  exact
    { pairs
      forms := hforms
      paths := by
        rw [ProjectResults.paths, hfiles, List.map_flatMap]
        exact List.flatMap_congr fun log hlog => (sound log hlog).map_path_fileResults t
      files := hfiles
      updated := by
        rw [List.countP_eq_length_filter]
        simp [ProjectResults.ofJobs, ResultCode.isUpdate, beq_eq_decide]
      failures := hfailures
      length_failures := by
        rw [hfailures, hfiles]
        exact length_flatMap_messages sound
      isSuccess_iff := by
        rw [ProjectResults.isSuccess, hfailures, hforms, List.isEmpty_iff, List.flatMap_eq_nil_iff,
          List.forall_mem_map]
        exact forall₂_congr fun log hlog => (sound log hlog).messages_eq_nil_iff t }

/-- Where no file of the results failed, none of a log did. -/
theorem ProjectResults.AddsUp.fail_notMem_codes {r : ProjectResults} {logs : List JobLog}
    (h : r.AddsUp t languages logs) (sound : ∀ log ∈ logs, log.Sound)
    (succeeds : ∀ f ∈ r.files, f.code ≠ .fail) : ∀ log ∈ logs, .fail ∉ log.codes := by
  intro log hlog hfail
  rw [← (sound log hlog).map_code_fileResults t] at hfail
  obtain ⟨f, hf, hcode⟩ := List.mem_map.1 hfail
  refine succeeds f ?_ hcode
  rw [h.files]
  exact List.mem_flatMap.2 ⟨log, hlog, hf⟩

/-! ## The logs of a run -/

theorem forall₂_answerAll (write : Writer σ) (files : List OutputFile) (target : σ) :
    List.Forall₂ (fun f answer => ∃ target, answer = (write f target).1) files
      (answerAll write files target).1 := by
  induction files generalizing target with
  | nil => exact .nil
  | cons f files ih => exact .cons ⟨target, rfl⟩ (ih _)

/-- One job after the other. -/
theorem forall₂_done (t : Tree) (o : Options) (source : FileSource) (write : Writer σ)
    (jobs : List (Nat × Language)) (c : Cache) (target : σ) :
    List.Forall₂ (JobLog.Done t o source write) jobs
      (writeJobs write (generateJobs t o source jobs c).1 target).1 := by
  induction jobs generalizing c target with
  | nil => exact .nil
  | cons job jobs ih =>
    refine .cons ?_ (ih _ _)
    exact { pair := rfl, output := ⟨c, rfl⟩, answers := forall₂_answerAll write _ target }

theorem map_pair_of_done {write : Writer σ} {jobs : List (Nat × Language)} {logs : List JobLog}
    (h : List.Forall₂ (JobLog.Done t o source write) jobs logs) :
    logs.map (fun log => (log.id, log.language)) = jobs := by
  induction h with
  | nil => rfl
  | cons hfirst _ ih => rw [List.map_cons, hfirst.pair, ih]

theorem sound_of_done {write : Writer σ} (hw : Writer.Answers write)
    {jobs : List (Nat × Language)} {logs : List JobLog}
    (h : List.Forall₂ (JobLog.Done t o source write) jobs logs) : ∀ log ∈ logs, log.Sound := by
  induction h with
  | nil => simp
  | cons hfirst _ ih => exact List.forall_mem_cons.2 ⟨hfirst.sound hw, ih⟩

theorem addsUp_of_done {write : Writer σ} (hw : Writer.Answers write) {logs : List JobLog}
    (h : List.Forall₂ (JobLog.Done t o source write) (jobsOf t languages) logs) :
    (ProjectResults.ofJobs (logs.map (JobLog.result t))).AddsUp t languages logs :=
  addsUp_of_sound (map_pair_of_done h) (sound_of_done hw h)

/-- **Project results add up.** The results of a run are those of its jobs, whatever a form comes to
and whatever the writer answers for a file. So are the results of jobs that were done in any other
order, as long as they are put together in theirs. -/
theorem runProject_addsUp (t : Tree) (o : Options) (languages : List Language)
    (source : FileSource) {write : Writer σ} (answers : Writer.Answers write) :
    (∀ (c : Cache) (target : σ),
      (runProject t o languages source write c target).1.AddsUp t languages
        (writeJobs write (generateJobs t o source (jobsOf t languages) c).1 target).1) ∧
      ∀ logs, List.Forall₂ (JobLog.Done t o source write) (jobsOf t languages) logs →
        (ProjectResults.ofJobs (logs.map (JobLog.result t))).AddsUp t languages logs := by
  refine ⟨fun c target => ?_, fun logs => addsUp_of_done answers⟩
  rw [runProject_eq]
  exact addsUp_of_done answers (forall₂_done t o source write (jobsOf t languages) c target)

/-! ## Writers -/

theorem DryRun.answers_write : Writer.Answers DryRun.write := by
  intro f r code h
  unfold DryRun.write at h
  split at h <;> cases h <;> simp

theorem Disk.answers_write : Writer.Answers Disk.write := by
  intro f d code h
  rcases hw : Disk.write f d with ⟨answer, d'⟩
  rw [hw] at h
  subst h
  rcases Disk.of_save (Disk.of_write hw) with ⟨rfl, -⟩ | ⟨rfl, -⟩ <;> simp

/-- The project of logos, put on a disk in every language. -/
theorem logoProject_addsUp :
    Writer.Answers Disk.write ∧
      (runProject (.ofDesign logoProject) .default Language.all (logoFiles 1) Disk.write .empty
        (.empty ["home"])).1.AddsUp (.ofDesign logoProject) Language.all
        (writeJobs Disk.write (generateJobs (.ofDesign logoProject) .default (logoFiles 1)
          (jobsOf (.ofDesign logoProject) Language.all) .empty).1 (.empty ["home"])).1 :=
  ⟨Disk.answers_write,
    (runProject_addsUp _ _ _ _ Disk.answers_write).1 .empty (.empty ["home"])⟩

end FormDesign
