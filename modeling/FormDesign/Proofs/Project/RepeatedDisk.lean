import FormDesign.Proofs.Project.Results

/-!
# Repeated runs on a disk

A run that met no failure left every file readable with its content, provided that the files are at
different places. Generation repeated with the cache that it left comes to the same, so the second
run hands over the same files and finds them all there (`runProject_disk_twice`).
-/

namespace FormDesign

variable {σ : Type} {t : Tree} {o : Options} {source : FileSource} {c : Cache}

/-! ## Generation -/

theorem generateJobs_steady (t : Tree) (o : Options) (source : FileSource)
    (jobs : List (Nat × Language)) (hc : c.WellFormed) :
    Steady source (generateJobs t o source jobs) c := by
  induction jobs generalizing c with
  | nil => exact .pure source _ hc
  | cons job rest ih =>
    obtain ⟨id, l⟩ := job
    have hfirst := generate_steady t id l o source hc
    have hrest := ih hfirst.wellFormed
    -- the other forms do not depend on what the first one came to
    let follow (output : Except Fault FormOutput) (c : Cache) : List GeneratedJob × Cache :=
      ({ id, language := l, output } :: (generateJobs t o source rest c).1,
        (generateJobs t o source rest c).2)
    have hfollow (output : Except Fault FormOutput) :
        Steady source (follow output) (generate t id l o source c).2 :=
      hrest.bind (fun jobs c => ({ id, language := l, output } :: jobs, c))
        (.pure source _ hrest.wellFormed)
    exact (hfirst.bind follow (hfollow _)).of_eq fun c => rfl

/-! ## Writing -/

theorem map_toGeneratedJob_writeJobs (write : Writer σ) (jobs : List GeneratedJob) (target : σ) :
    (writeJobs write jobs target).1.map JobLog.toGeneratedJob = jobs := by
  induction jobs generalizing target with
  | nil => rfl
  | cons job jobs ih => exact congrArg (job :: ·) (ih _)

theorem flatMap_files_writeJobs (write : Writer σ) (jobs : List GeneratedJob) (target : σ) :
    (writeJobs write jobs target).1.flatMap (fun log => log.files) =
      jobs.flatMap GeneratedJob.files := by
  conv_rhs => rw [← map_toGeneratedJob_writeJobs write jobs target]
  rw [List.flatMap_map]

/-- The files of all jobs are answered one after the other. -/
theorem writeJobs_answers (write : Writer σ) (jobs : List GeneratedJob) (target : σ) :
    ((writeJobs write jobs target).1.flatMap JobLog.answers, (writeJobs write jobs target).2) =
      answerAll write (jobs.flatMap GeneratedJob.files) target := by
  induction jobs generalizing target with
  | nil => rfl
  | cons job jobs ih =>
    rw [List.flatMap_cons, answerAll_append, ← ih]
    rfl

/-- Where no file failed, every file can be read afterwards if they are at different places. -/
theorem read_of_writeJobs {jobs : List GeneratedJob} {d : Disk}
    (succeeds : ∀ log ∈ (writeJobs Disk.write jobs d).1, .fail ∉ log.codes)
    (apart : ((jobs.flatMap GeneratedJob.files).map fun f =>
      (writeJobs Disk.write jobs d).2.locate f.fullPath).Nodup) :
    ∀ f ∈ jobs.flatMap GeneratedJob.files,
      (writeJobs Disk.write jobs d).2.read f.fullPath = .ok f.bytes := by
  have hanswers := writeJobs_answers Disk.write jobs d
  have hwritten := writeAll_eq_answerAll Disk.write (jobs.flatMap GeneratedJob.files) d
  rw [← hanswers] at hwritten
  have hcodes : ∀ w ∈ (writeAll Disk.write (jobs.flatMap GeneratedJob.files) d).1,
      w.1 ≠ .fail := by
    intro w hw
    rw [hwritten] at hw
    obtain ⟨⟨f, answer⟩, hmem, rfl⟩ := List.mem_map.1 hw
    obtain ⟨log, hlog, hanswer⟩ := List.mem_flatMap.1 (List.of_mem_zip hmem).2
    intro hfail
    exact succeeds log hlog (List.mem_map.2 ⟨answer, hanswer, hfail⟩)
  have hsaves := Disk.saves_writeAll hcodes
  rw [hwritten] at hsaves
  exact fun f hf => hsaves.read_of_mem apart hf

/-- The log of a job whose files are all there. -/
def JobLog.settled (log : JobLog) : JobLog :=
  { log with answers := log.files.map fun _ => .ok .alreadyExists }

/-- A second run over files that can be read only finds them. -/
theorem writeJobs_of_read {d : Disk} {logs : List JobLog}
    (h : ∀ f ∈ logs.flatMap fun log => log.files, d.read f.fullPath = .ok f.bytes) :
    writeJobs Disk.write (logs.map JobLog.toGeneratedJob) d = (logs.map JobLog.settled, d) := by
  induction logs with
  | nil => rfl
  | cons log logs ih =>
    rw [List.flatMap_cons, List.forall_mem_append] at h
    have hfirst := Disk.answerAll_of_read h.1
    simp only [List.map_cons, writeJobs, hfirst, ih h.2]
    rfl

/-- Written once more, files at different places are only found. -/
theorem writeJobs_twice {jobs : List GeneratedJob} {d : Disk}
    (succeeds : ∀ log ∈ (writeJobs Disk.write jobs d).1, .fail ∉ log.codes)
    (apart : ((jobs.flatMap GeneratedJob.files).map fun f =>
      (writeJobs Disk.write jobs d).2.locate f.fullPath).Nodup) :
    writeJobs Disk.write jobs (writeJobs Disk.write jobs d).2 =
      ((writeJobs Disk.write jobs d).1.map JobLog.settled, (writeJobs Disk.write jobs d).2) := by
  have hread := read_of_writeJobs succeeds apart
  rw [← flatMap_files_writeJobs Disk.write jobs d] at hread
  have hfound := writeJobs_of_read hread
  rwa [map_toGeneratedJob_writeJobs] at hfound

/-! ## Results -/

namespace JobLog

variable {log : JobLog}

theorem codes_settled : log.settled.codes = log.files.map fun _ => .alreadyExists := by
  simp [codes, settled, answerCode]

theorem fail_notMem_codes_settled : .fail ∉ log.settled.codes := by
  simp [codes_settled]

theorem Sound.settled (h : log.Sound) : log.settled.Sound where
  answered := by simp [JobLog.settled]
  answers code hcode := by
    obtain ⟨f, -, heq⟩ := List.mem_map.1 hcode
    exact .inl (Except.ok.inj heq).symm
  language := h.language
  ignored := h.ignored

theorem Sound.fileResults_settled (h : log.Sound) (t : Tree) :
    log.settled.fileResults t =
      (log.fileResults t).map fun f => { f with code := .alreadyExists } := by
  have hfst : (log.files.zip log.answers).map Prod.fst = log.files :=
    List.map_fst_zip (Nat.le_of_eq h.answered)
  have hpairs : log.files.zip (log.files.map fun _ => .ok .alreadyExists) =
      (log.files.zip log.answers).map fun answered =>
        (answered.1, (.ok .alreadyExists : Except WriteFault ResultCode)) := by
    conv_lhs => rw [← hfst]
    rw [List.map_map]
    exact List.zip_map'
  have hfiles : log.settled.files = log.files := rfl
  have hanswers : log.settled.answers = log.files.map fun _ => .ok .alreadyExists := rfl
  unfold fileResults
  rw [hfiles, hanswers, hpairs, List.map_map, List.map_map]
  rfl

/-- A form that is neither ignored nor failed is found up to date. -/
theorem code_settled (succeeds : .fail ∉ log.codes) :
    log.settled.code =
      if log.code = .ignored ∨ log.code = .fail then log.code else .alreadyExists := by
  have hfailed : log.settled.failed = log.failed := rfl
  have hignored : log.settled.ignored = log.ignored := rfl
  have hcreated : .created ∉ log.settled.codes := by simp [codes_settled]
  have hneeds : .needsWriting ∉ log.settled.codes := by simp [codes_settled]
  unfold code
  rw [hfailed, hignored]
  simp only [succeeds, fail_notMem_codes_settled, hcreated, hneeds, or_false, if_false]
  by_cases failed : log.failed = true
  · simp [failed]
  · by_cases ignored : log.ignored = true
    · simp [failed, ignored]
    · simp only [failed, ignored]
      repeat' split
      all_goals simp_all

/-- No file failed either time, so the messages are about the form. -/
theorem Sound.messages_settled (h : log.Sound) (succeeds : .fail ∉ log.codes) (t : Tree) :
    log.settled.messages t = log.messages t := by
  cases hok : log.output with
  | error fault =>
    have hok' : log.settled.output = .error fault := hok
    unfold messages
    rw [hok, hok']
    rfl
  | ok output =>
    have hfailed : log.failed = false := by simp [GeneratedJob.failed, hok]
    have hfailed' : log.settled.failed = false := hfailed
    have hfirst : log.messages t = [] := by
      rw [h.messages_eq_nil_iff, ne_eq, code_eq_fail_iff]
      simp [hfailed, succeeds]
    have hsecond : log.settled.messages t = [] := by
      rw [h.settled.messages_eq_nil_iff, ne_eq, code_eq_fail_iff]
      simp [hfailed', fail_notMem_codes_settled]
    rw [hfirst, hsecond]

end JobLog

/-! ## Results that are settled -/

/-- A file that is as it should be. -/
def FileResult.settled (f : FileResult) : FileResult :=
  { f with code := .alreadyExists }

/-- A form whose files are as they should be, if it was neither ignored nor failed. -/
def FormResult.settled (f : FormResult) : FormResult :=
  if f.code = .ignored ∨ f.code = .fail then f else { f with code := .alreadyExists }

/-- A job that finds all its files as they should be. -/
def JobResult.settled (r : JobResult) : JobResult :=
  { r with form := r.form.settled, files := r.files.map FileResult.settled }

/-- The results of a run that finds all files as they should be: it updates none, and says about the
forms what was said before. -/
def ProjectResults.settled (r : ProjectResults) : ProjectResults :=
  { r with
    files := r.files.map FileResult.settled, forms := r.forms.map FormResult.settled, updated := 0 }

theorem JobLog.Sound.result_settled {log : JobLog} (h : log.Sound) (succeeds : .fail ∉ log.codes)
    (t : Tree) : log.settled.result t = (log.result t).settled := by
  have hclass : log.settled.className t = log.className t := rfl
  have hwarnings : log.settled.warnings = log.warnings := rfl
  have hlanguage : log.settled.language = log.language := rfl
  rw [h.settled.result_eq, h.result_eq, JobResult.settled, FormResult.settled,
    h.fileResults_settled, h.messages_settled succeeds, code_settled succeeds, hclass, hwarnings,
    hlanguage]
  congr 1
  split <;> rfl

theorem ofJobs_settled (jobs : List JobResult) :
    ProjectResults.ofJobs (jobs.map JobResult.settled) = (ProjectResults.ofJobs jobs).settled := by
  have hupdated : ((jobs.map JobResult.settled).flatMap JobResult.files).filter
      (fun f => f.code.isUpdate) = [] := by
    rw [List.filter_eq_nil_iff]
    intro f hf
    obtain ⟨job, hjob, hf⟩ := List.mem_flatMap.1 hf
    obtain ⟨r, -, rfl⟩ := List.mem_map.1 hjob
    obtain ⟨g, -, rfl⟩ := List.mem_map.1 hf
    simp [FileResult.settled, ResultCode.isUpdate]
  unfold ProjectResults.ofJobs ProjectResults.settled
  simp only [hupdated, List.length_nil]
  simp [List.flatMap_map, List.map_flatMap, JobResult.settled, Function.comp_def]

/-! ## The second run -/

/-- **A second run on a disk changes nothing.** If the first run met no failure and its files are at
different places, then the second run finds the cache and the disk as they should be. It has the
results of the first run, but that no file is written any more. -/
theorem runProject_disk_twice {seen : FileSource → Prop} (reached : Cache.Reached seen c)
    (t : Tree) (o : Options) (languages : List Language) (source : FileSource) (d : Disk) :
    let first := runProject t o languages source Disk.write c d
    (∀ f ∈ first.1.files, f.code ≠ .fail) → (first.1.paths.map first.2.2.locate).Nodup →
      runProject t o languages source Disk.write first.2.1 first.2.2 =
        (first.1.settled, first.2.1, first.2.2) := by
  intro first succeeds apart
  let jobs := (generateJobs t o source (jobsOf t languages) c).1
  let logs := (writeJobs Disk.write jobs d).1
  have hfirst : first = (.ofJobs (logs.map (JobLog.result t)),
      (generateJobs t o source (jobsOf t languages) c).2, (writeJobs Disk.write jobs d).2) :=
    runProject_eq t o languages source Disk.write c d
  rw [hfirst] at succeeds apart ⊢
  have hdone := forall₂_done t o source Disk.write (jobsOf t languages) c d
  have sound : ∀ log ∈ logs, log.Sound := sound_of_done Disk.answers_write hdone
  have hresults := addsUp_of_done Disk.answers_write hdone
  have hcodes : ∀ log ∈ logs, .fail ∉ log.codes := hresults.fail_notMem_codes sound succeeds
  have hpaths : (ProjectResults.ofJobs (logs.map (JobLog.result t))).paths =
      (jobs.flatMap GeneratedJob.files).map OutputFile.fullPath := by
    rw [hresults.paths, ← flatMap_files_writeJobs Disk.write jobs d, List.map_flatMap]
  rw [hpaths, List.map_map] at apart
  -- the second run generates the same and finds it there
  have hagain : generateJobs t o source (jobsOf t languages)
      (generateJobs t o source (jobsOf t languages) c).2 =
        (jobs, (generateJobs t o source (jobsOf t languages) c).2) :=
    (generateJobs_steady t o source (jobsOf t languages) reached.wellFormed).twice
  have hfound := writeJobs_twice hcodes apart
  have hsettled : (logs.map JobLog.settled).map (JobLog.result t) =
      (logs.map (JobLog.result t)).map JobResult.settled := by
    rw [List.map_map, List.map_map]
    exact List.map_congr_left fun log hlog => (sound log hlog).result_settled (hcodes log hlog) t
  rw [runProject_eq, hagain]
  simp only [hfound]
  rw [hsettled, ofJobs_settled]

/-- A project with a dialog that shows an embedded bitmap. -/
def badgeProject : Design :=
  .mk (.ofKind .project)
    [.mk { kind := .dialog, props := [(.className, "Dlg")], events := [] }
      [.mk { kind := .staticBitmap, props := [(.bitmap, "Embed;badge.png")], events := [] } []]]

/-- Its bitmap. -/
def badgeFiles : FileSource := (MemoryFiles.empty.put "badge.png" [1, 2] 1).source

/-- Put in every language into a directory that is missing at first, and once more. -/
theorem badgeProject_disk_twice :
    let o : Options := { Options.default with parallelCollection := false }
    let run := runProject (.ofDesign badgeProject) o Language.all badgeFiles Disk.write
    let first := run .empty (.bare ["home", "out"])
    ((∀ f ∈ first.1.files, f.code ≠ .fail) ∧ (first.1.paths.map first.2.2.locate).Nodup) ∧
      run first.2.1 first.2.2 = (first.1.settled, first.2.1, first.2.2) := by
  intro o run first
  have reached : Cache.Reached (fun _ => True) .empty := .empty
  have succeeds : ∀ f ∈ first.1.files, f.code ≠ .fail := by decide +kernel
  have places : ((first.1.paths.map first.2.2.locate).map Except.toOption).Nodup := by
    decide +kernel
  have apart : (first.1.paths.map first.2.2.locate).Nodup := places.of_map
  exact ⟨⟨succeeds, apart⟩, runProject_disk_twice reached _ _ _ _ _ succeeds apart⟩

end FormDesign
