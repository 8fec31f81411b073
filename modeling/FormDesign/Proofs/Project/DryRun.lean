import FormDesign.Project.DryRun
import FormDesign.Proofs.Project.SavedFiles

/-!
# What a dry run foretells

A dry run compares each file with what existed when the run began. A disk compares it with what is
there by then, which is the same unless the path came up before in the same run. So a dry run
foretells what the disk answers exactly when a path that comes up again does not tell the two apart
(`DryRun.foretells_iff`), and always when no path comes up twice (`DryRun.foretells_of_nodup`).
-/

namespace FormDesign

/-- The codes that a writer gives to some files. -/
def writtenCodes {σ : Type} (write : Writer σ) (files : List OutputFile) (target : σ) :
    List ResultCode :=
  (writeAll write files target).1.map Prod.fst

/-- The paths of the files that were written, going by their codes. -/
def createdPaths (files : List OutputFile) (codes : List ResultCode) : List String :=
  ((files.zip codes).filter fun w => w.2 = .created).map fun w => w.1.fullPath

namespace DryRun

/-- A disk on which the files that a dry run knows exist and those that it does not know do not.
Saving some files there meets no failure, and different paths lead to different files. -/
structure Mirrors (r : DryRun) (d : Disk) (files : List OutputFile) : Prop where
  succeeds : ∀ w ∈ (writeAll Disk.write files d).1, w.1 ≠ .fail
  apart : ∀ f ∈ files, ∀ g ∈ files, f.fullPath ≠ g.fullPath →
    (writeAll Disk.write files d).2.locate f.fullPath ≠
      (writeAll Disk.write files d).2.locate g.fullPath
  known : ∀ f ∈ files, ∀ text, r.content? f.fullPath = some text →
    d.read f.fullPath = .ok text.toUTF8.toList
  absent : ∀ f ∈ files, r.content? f.fullPath = none →
    ∀ p bytes, (writeAll Disk.write files d).2.locate f.fullPath = .ok p →
      d.get? p ≠ some (.file bytes)

/-- The dry run answers each file as the disk does, but for saying that a file needs writing where
the disk creates it, and reports the paths of the files that the disk creates. -/
structure Foretells (r : DryRun) (d : Disk) (files : List OutputFile) : Prop where
  needsWriting : ∀ i : Nat, (writtenCodes DryRun.write files r)[i]? = some .needsWriting ↔
    (writtenCodes Disk.write files d)[i]? = some .created
  alreadyExists : ∀ i : Nat, (writtenCodes DryRun.write files r)[i]? = some .alreadyExists ↔
    (writtenCodes Disk.write files d)[i]? = some .alreadyExists
  pending : (writeAll DryRun.write files r).2.pending =
    r.pending ++ createdPaths files (writtenCodes Disk.write files d)

/-- Wherever a path comes up again, the content is that of the file before it with this path if and
only if it is the content that existed when the run began. -/
def RepeatsAgree (r : DryRun) (files : List OutputFile) : Prop :=
  ∀ before g between f after, files = before ++ g :: (between ++ f :: after) →
    g.fullPath = f.fullPath → (∀ k ∈ between, k.fullPath ≠ f.fullPath) →
      (f.content = g.content ↔ r.content? f.fullPath = some f.content)

variable {r : DryRun} {d : Disk} {f g : OutputFile} {files before between after : List OutputFile}

/-! ## The dry run -/

/-- What the dry run says about a file. -/
def foretold (r : DryRun) (f : OutputFile) : ResultCode :=
  if r.content? f.fullPath = some f.content then .alreadyExists else .needsWriting

theorem foretold_eq_needsWriting :
    r.foretold f = .needsWriting ↔ r.content? f.fullPath ≠ some f.content := by
  unfold foretold
  split <;> simp_all

theorem foretold_eq_alreadyExists :
    r.foretold f = .alreadyExists ↔ r.content? f.fullPath = some f.content := by
  unfold foretold
  split <;> simp_all

/-- What existed stays what existed, whatever was reported so far. -/
theorem writeAll_eq (files : List OutputFile) (r : DryRun) :
    writeAll DryRun.write files r =
      (files.map fun f => (r.foretold f, []),
        { r with pending := r.pending ++
            (files.filter fun f => r.foretold f = .needsWriting).map OutputFile.fullPath }) := by
  induction files generalizing r with
  | nil => simp [writeAll]
  | cons f files ih =>
    by_cases h : r.content? f.fullPath = some f.content
    · have hw : DryRun.write f r = (.ok .alreadyExists, r) := if_pos h
      rw [writeAll_of_ok hw, ih]
      simp [foretold_eq_alreadyExists.2 h]
    · let later : DryRun := { r with pending := r.pending ++ [f.fullPath] }
      have hw : DryRun.write f r = (.ok .needsWriting, later) := if_neg h
      have same : later.foretold = r.foretold := rfl
      rw [writeAll_of_ok hw, ih, same]
      simp [foretold_eq_needsWriting.2 h, later]

theorem getElem?_writtenCodes (r : DryRun) (files : List OutputFile) (i : Nat) :
    (writtenCodes DryRun.write files r)[i]? = files[i]?.map r.foretold := by
  unfold writtenCodes
  rw [writeAll_eq]
  simp [Function.comp_def]

/-- If the codes agree, so do the paths. -/
theorem filter_eq_createdPaths {codes : List ResultCode} (same : codes.length = files.length)
    (h : ∀ i : Nat, files[i]?.map r.foretold = some .needsWriting ↔ codes[i]? = some .created) :
    (files.filter fun f => r.foretold f = .needsWriting).map OutputFile.fullPath =
      createdPaths files codes := by
  induction files generalizing codes with
  | nil => rfl
  | cons f files ih =>
    cases codes with
    | nil => cases same
    | cons code codes =>
      have hfirst : r.foretold f = .needsWriting ↔ code = .created := by simpa using h 0
      have hrest := ih (Nat.succ.inj same) fun i => by simpa using h (i + 1)
      unfold createdPaths at hrest ⊢
      by_cases hcode : code = .created
      · simp [hcode, hfirst.2 hcode, hrest]
      · simp [hcode, mt hfirst.1 hcode, hrest]

/-! ## The disk -/

/-- The dry run and the disk agree on the file with a number. -/
def Agree (r : DryRun) (d : Disk) (files : List OutputFile) (i : Nat) : Prop :=
  ((writtenCodes DryRun.write files r)[i]? = some .needsWriting ↔
    (writtenCodes Disk.write files d)[i]? = some .created) ∧
  ((writtenCodes DryRun.write files r)[i]? = some .alreadyExists ↔
    (writtenCodes Disk.write files d)[i]? = some .alreadyExists)

/-- They agree on a file if what can be read on the disk by then is what the dry run compares with.
From then on paths keep their places. -/
theorem Mirrors.exists_saves (h : r.Mirrors d (before ++ f :: after)) :
    ∃ codes d₁, d.Saves before codes d₁ ∧
      (∀ path p, d₁.locate path = .ok p →
        (writeAll Disk.write (before ++ f :: after) d).2.locate path = .ok p) ∧
      (r.Agree d (before ++ f :: after) before.length ↔
        (d₁.read f.fullPath = .ok f.bytes ↔ r.content? f.fullPath = some f.content)) := by
  obtain ⟨codes, _, d₁, hbefore, hafter, hcode⟩ := (Disk.saves_writeAll h.succeeds).code_of_split
  refine ⟨codes, d₁, hbefore, fun path p hp => hafter.changes.locate hp, ?_⟩
  unfold Agree
  rw [getElem?_writtenCodes]
  change (writtenCodes Disk.write (before ++ f :: after) d)[before.length]? = _ ∧ _ ∨
    (writtenCodes Disk.write (before ++ f :: after) d)[before.length]? = _ ∧ _ at hcode
  rcases hcode with ⟨hcode, hread⟩ | ⟨hcode, hread⟩ <;>
    simp [hcode, hread, foretold_eq_needsWriting, foretold_eq_alreadyExists]

/-- Files whose paths differ are at different places at all times. -/
theorem Mirrors.not_located {d₁ : Disk} (h : r.Mirrors d files)
    (later : ∀ path p, d₁.locate path = .ok p →
      (writeAll Disk.write files d).2.locate path = .ok p)
    (hf : f ∈ files) (hg : g ∈ files) (differ : g.fullPath ≠ f.fullPath) (p : Disk.Place)
    (hp : d₁.locate f.fullPath = .ok p) : d₁.locate g.fullPath ≠ .ok p := by
  intro hp'
  have same := (later _ p hp').trans (later _ p hp).symm
  exact h.apart g hg f hf differ same

/-- A path that did not come up before still has what the dry run knows. -/
theorem Mirrors.agree_of_first (h : r.Mirrors d (before ++ f :: after))
    (first : ∀ g ∈ before, g.fullPath ≠ f.fullPath) :
    r.Agree d (before ++ f :: after) before.length := by
  obtain ⟨codes, d₁, hbefore, later, hagree⟩ := h.exists_saves
  have hf : f ∈ before ++ f :: after := by simp
  have untouched (p : Disk.Place) (hp : d₁.locate f.fullPath = .ok p) :
      ¬ ∃ g ∈ before, d₁.locate g.fullPath = .ok p := by
    rintro ⟨g, hg, hp'⟩
    exact h.not_located later hf (List.mem_append_left _ hg) (first g hg) p hp hp'
  rw [hagree]
  cases hc : r.content? f.fullPath with
  | some text =>
    have hread := hbefore.changes.read (h.known f hf text hc) untouched
    rw [hread, Except.ok.injEq, OutputFile.bytes, toUTF8_toList_inj, Option.some.injEq]
  | none =>
    have hread : d₁.read f.fullPath ≠ .ok f.bytes := by
      intro hread
      obtain ⟨p, hp, hget⟩ := Disk.read_eq_ok_iff.1 hread
      rcases hbefore.changes.elsewhere p (untouched p hp) with same | ⟨-, new⟩
      · exact h.absent f hf hc p f.bytes (later _ p hp) (same ▸ hget)
      · rw [hget] at new
        cases new
    simp [hread]

/-- A path that came up before has what was saved there last. -/
theorem Mirrors.agree_iff_of_again
    (h : r.Mirrors d (before ++ g :: (between ++ f :: after))) (same : g.fullPath = f.fullPath)
    (last : ∀ k ∈ between, k.fullPath ≠ f.fullPath) :
    r.Agree d (before ++ g :: (between ++ f :: after)) (before ++ g :: between).length ↔
      (f.content = g.content ↔ r.content? f.fullPath = some f.content) := by
  have assoc : before ++ g :: (between ++ f :: after) = (before ++ g :: between) ++ f :: after := by
    simp
  rw [assoc] at h ⊢
  obtain ⟨codes, d₁, hbefore, later, hagree⟩ := h.exists_saves
  have hread : d₁.read f.fullPath = .ok g.bytes := by
    rw [← same]
    refine hbefore.read_of_split fun k hk p hp => ?_
    have hg : g ∈ (before ++ g :: between) ++ f :: after := by simp
    have hk' : k ∈ (before ++ g :: between) ++ f :: after := by simp [hk]
    exact h.not_located later hg hk' (same ▸ last k hk) p hp
  rw [hagree, hread, Except.ok.injEq, OutputFile.bytes_inj, eq_comm]

/-! ## All files -/

/-- The last file before another one that has its path, if there is one. -/
theorem exists_last (path : String) (before : List OutputFile) :
    (∀ g ∈ before, g.fullPath ≠ path) ∨
      ∃ first g between, before = first ++ g :: between ∧ g.fullPath = path ∧
        ∀ k ∈ between, k.fullPath ≠ path := by
  induction before with
  | nil => exact Or.inl (by simp)
  | cons k before ih =>
    rcases ih with none | ⟨first, g, between, rfl, hg, hlast⟩
    · by_cases hk : k.fullPath = path
      · exact Or.inr ⟨[], k, before, rfl, hk, none⟩
      · exact Or.inl (List.forall_mem_cons.2 ⟨hk, none⟩)
    · exact Or.inr ⟨k :: first, g, between, rfl, hg, hlast⟩

theorem Mirrors.agree_of_repeatsAgree (h : r.Mirrors d files) (hr : r.RepeatsAgree files)
    (i : Nat) : r.Agree d files i := by
  by_cases hi : i < files.length
  · obtain ⟨before, f, after, rfl, rfl⟩ :
        ∃ before f after, files = before ++ f :: after ∧ i = before.length :=
      ⟨files.take i, files[i], files.drop (i + 1), by simp, by simp; omega⟩
    rcases exists_last f.fullPath before with first | ⟨before, g, between, rfl, same, last⟩
    · exact h.agree_of_first first
    · have assoc : (before ++ g :: between) ++ f :: after =
          before ++ g :: (between ++ f :: after) := by simp
      rw [assoc] at h hr ⊢
      exact (h.agree_iff_of_again same last).2 (hr _ _ _ _ _ rfl same last)
  · have hlength := (Disk.saves_writeAll h.succeeds).length_eq
    have hdry : (writtenCodes DryRun.write files r)[i]? = none := by
      rw [getElem?_writtenCodes, List.getElem?_eq_none (by omega)]
      rfl
    have hdisk : (writtenCodes Disk.write files d)[i]? = none :=
      List.getElem?_eq_none (by unfold writtenCodes; omega)
    simp [Agree, hdry, hdisk]

theorem Mirrors.foretells_of_agree (h : r.Mirrors d files) (hagree : ∀ i, r.Agree d files i) :
    r.Foretells d files where
  needsWriting i := (hagree i).1
  alreadyExists i := (hagree i).2
  pending := by
    have hlength := (Disk.saves_writeAll h.succeeds).length_eq
    rw [writeAll_eq]
    refine congrArg _ (filter_eq_createdPaths hlength fun i => ?_)
    rw [← getElem?_writtenCodes]
    exact (hagree i).1

/-- The dry run is right about files with different paths. -/
theorem Mirrors.foretells_of_nodup (h : r.Mirrors d files)
    (once : (files.map OutputFile.fullPath).Nodup) : r.Foretells d files := by
  refine h.foretells_of_agree (h.agree_of_repeatsAgree ?_)
  rintro before g between f after rfl same -
  simp [same, List.nodup_append] at once

/-- A dry run foretells what a disk does with some files exactly if no path that comes up again
tells what was saved there before from what existed when the run began. -/
theorem foretells_iff (h : r.Mirrors d files) : r.Foretells d files ↔ r.RepeatsAgree files := by
  constructor
  · rintro hall before g between f after rfl same last
    have hagree : r.Agree d _ (before ++ g :: between).length :=
      ⟨hall.needsWriting _, hall.alreadyExists _⟩
    exact (h.agree_iff_of_again same last).1 hagree
  · intro hr
    exact h.foretells_of_agree (h.agree_of_repeatsAgree hr)

/-! ## Scripts -/

/-- A script with some content. -/
def script (path content : String) : OutputFile := { path, extension := ".py", content }

/-- A disk with one script. -/
def scriptDisk : Disk := ((Disk.empty ["home"]).save "dlg.py" "pass".toUTF8.toList).2

/-- A dry run that knows this script. -/
def scriptRun : DryRun := ofFiles [("dlg.py", "pass")]

/-- The script changed, another one, and the script changed again. -/
def scripts : List OutputFile :=
  [script "dlg" "import wx", script "main" "", script "dlg" "import wx.adv"]

theorem eq_ok_of_toOption {ε α : Type} {x : Except ε α} {a : α} (h : x.toOption = some a) :
    x = .ok a := by
  cases x with
  | error => cases h
  | ok b => rw [Option.some.inj h]

theorem fullPath_of_mem_scripts :
    ∀ f ∈ scripts, f.fullPath = "dlg.py" ∨ f.fullPath = "main.py" := by
  decide +kernel

theorem scriptRun_mirrors : scriptRun.Mirrors scriptDisk scripts := by
  have dlgContent : scriptRun.content? "dlg.py" = some "pass" := by decide +kernel
  have mainContent : scriptRun.content? "main.py" = none := by decide +kernel
  have dlgPlace : (writeAll Disk.write scripts scriptDisk).2.locate "dlg.py" =
      .ok ["home", "dlg.py"] := eq_ok_of_toOption (by decide +kernel)
  have mainPlace : (writeAll Disk.write scripts scriptDisk).2.locate "main.py" =
      .ok ["home", "main.py"] := eq_ok_of_toOption (by decide +kernel)
  refine ⟨by decide +kernel, ?_, ?_, ?_⟩
  · intro f hf g hg differ
    rcases fullPath_of_mem_scripts f hf with hf | hf <;>
      rcases fullPath_of_mem_scripts g hg with hg | hg <;>
      simp_all
  · intro f hf text htext
    rcases fullPath_of_mem_scripts f hf with hf | hf <;> rw [hf] at htext ⊢
    · obtain rfl : "pass" = text := Option.some.inj (dlgContent.symm.trans htext)
      exact eq_ok_of_toOption (by decide +kernel)
    · cases mainContent.symm.trans htext
  · intro f hf hnone p bytes hp hget
    rcases fullPath_of_mem_scripts f hf with hf | hf <;> rw [hf] at hnone hp
    · cases dlgContent.symm.trans hnone
    · obtain rfl : ["home", "main.py"] = p := Except.ok.inj (mainPlace.symm.trans hp)
      have nothing : scriptDisk.get? ["home", "main.py"] = none := by decide +kernel
      cases nothing.symm.trans hget

/-- No two of the contents are the same, and none existed. -/
theorem scripts_repeatsAgree : scriptRun.RepeatsAgree scripts := by
  intro before g between f after split same _
  have new : ∀ f ∈ scripts, scriptRun.content? f.fullPath ≠ some f.content := by decide +kernel
  have distinct : (scripts.map OutputFile.content).Nodup := by decide +kernel
  have hf : f ∈ scripts := by simp [split]
  rw [split] at distinct
  refine iff_of_false (fun equal => ?_) (new f hf)
  simp [equal, List.nodup_append] at distinct

theorem scripts_foretells :
    scriptRun.Mirrors scriptDisk scripts ∧ scriptRun.Foretells scriptDisk scripts :=
  ⟨scriptRun_mirrors, (foretells_iff scriptRun_mirrors).2 scripts_repeatsAgree⟩

/-- A script that is handed over twice. -/
def scriptTwice : List OutputFile := [script "dlg" "import wx", script "dlg" "import wx"]

/-- It is reported twice, but written once, also into a directory that was missing. -/
theorem scriptTwice_not_foretells :
    (ofFiles []).Mirrors (.bare ["home"]) scriptTwice ∧
      ¬ (ofFiles []).Foretells (.bare ["home"]) scriptTwice := by
  have same : ∀ f ∈ scriptTwice, f.fullPath = "dlg.py" := by decide +kernel
  refine ⟨⟨by decide +kernel, ?_, ?_, ?_⟩, ?_⟩
  · intro f hf g hg differ
    exact absurd ((same f hf).trans (same g hg).symm) differ
  · intro f hf text htext
    cases htext
  · intro f hf _ p bytes hp hget
    rw [same f hf] at hp
    have place : (writeAll Disk.write scriptTwice (.bare ["home"])).2.locate "dlg.py" =
        .ok ["home", "dlg.py"] := eq_ok_of_toOption (by decide +kernel)
    obtain rfl : ["home", "dlg.py"] = p := Except.ok.inj (place.symm.trans hp)
    have nothing : (Disk.bare ["home"]).get? ["home", "dlg.py"] = none := by decide +kernel
    cases nothing.symm.trans hget
  · intro h
    have reported : (writtenCodes DryRun.write scriptTwice (ofFiles []))[1]? =
        some .needsWriting := by decide +kernel
    have left : (writtenCodes Disk.write scriptTwice (.bare ["home"]))[1]? ≠ some .created := by
      decide +kernel
    exact left ((h.needsWriting 1).1 reported)

end DryRun

end FormDesign
