import FormDesign.Image.MemoryFiles
import FormDesign.Project.DryRun
import FormDesign.Proofs.Image.Reached
import FormDesign.Proofs.Image.Since

/-!
# Repeated runs

A run of a project changes the cache as it goes: files are taken in, changed files are read again,
and some forms fail halfway. Run again over the same files it finds all of that done. Each form then
meets a cache later than the one it met in the first run, which is all that being `Steady` asks for.

* `Form.generate_steady`, `generate_steady`: one form
* `runJobs_steady`: a run, whatever its files are handed to
* `runProject_dryRun_twice`: a dry run repeated gives the same results and the same cache
-/

namespace FormDesign

variable {source : FileSource} {c : Cache}

/-! ## One form -/

theorem Form.images_steady (f : Form) (source : FileSource) (artDirectory : String)
    (hc : c.WellFormed) : Steady source (f.images source artDirectory) c := by
  have hpass := (collectImages_steady source artDirectory (f.elements.flatMap Element.imageTexts)
    .empty c hc Embedded.current_nil).1
  refine (hpass.bindOk (fun t c => (.ok t, c)) .imagePass fun t _ =>
    .pure source _ hpass.wellFormed).of_eq fun c => ?_
  unfold Form.images
  rcases collectImages source artDirectory (f.elements.flatMap Element.imageTexts) .empty c
    with ⟨_ | _, _⟩ <;> rfl

theorem Form.images_current (f : Form) (source : FileSource) (artDirectory : String)
    (hc : c.WellFormed) {t : ImageTable} (hok : (f.images source artDirectory c).1 = .ok t) :
    t.embedded.Current source (f.images source artDirectory c).2 := by
  have hpass := (collectImages_steady source artDirectory (f.elements.flatMap Element.imageTexts)
    .empty c hc Embedded.current_nil).2
  unfold Form.images at hok ⊢
  rcases heq : collectImages source artDirectory (f.elements.flatMap Element.imageTexts) .empty c
    with ⟨fault | t', c'⟩
  · rw [heq] at hok
    cases hok
  · rw [heq] at hok hpass
    exact hpass t hok

/-- The output reads the bytes of current images only, and those do not change any more. -/
theorem Form.generate_steady (f : Form) (d : Dialect) (o : Options) (source : FileSource)
    (hc : c.WellFormed) : Steady source (f.generate d o source) c := by
  have himages := f.images_steady source o.artDirectory hc
  have hcurrent := fun t hok => f.images_current source o.artDirectory (t := t) hc hok
  refine (himages.bindOk (fun t c => (.ok (f.output d o (f.collected d t c)), c)) id
    fun t hok => ?_).of_eq fun c => ?_
  · exact
      { wellFormed := himages.wellFormed
        since := .refl source _
        repeated := fun later hlater hs => by
          have hassets := (hcurrent t hok).filterMap_asset?_eq himages.wellFormed hlater hs
          simp only [Form.collected, Embedded.assets, hassets] }
  · unfold Form.generate
    rcases f.images source o.artDirectory c with ⟨_ | _, _⟩ <;> rfl

theorem generate_steady (t : Tree) (id : Nat) (l : Language) (o : Options) (source : FileSource)
    (hc : c.WellFormed) : Steady source (generate t id l o source) c := by
  rcases generate_cases t id l o source with ⟨r, heq⟩ | ⟨f, d, heq⟩
  · exact (Steady.pure source r hc).of_eq heq
  · exact (f.generate_steady d o source hc).of_eq heq

/-! ## Runs -/

variable {σ : Type}

/-- The result of a job, and the target after its files were written. -/
def finishJob (t : Tree) (write : Writer σ) (id : Nat) (l : Language) (target : σ)
    (r : Except Fault FormOutput) : JobResult × σ :=
  match r with
  | .error fault => (.ofFault (((t.get? id).map fun n => n.className).getD "") l fault, target)
  | .ok output =>
    let (written, target) := writeAll write output.files target
    (.ofOutput output written, target)

theorem runJob_steady (t : Tree) (o : Options) (source : FileSource) (write : Writer σ) (id : Nat)
    (l : Language) (target : σ) (hc : c.WellFormed) :
    Steady source (fun c =>
      let (result, c, target) := runJob t o source write id l c target
      ((result, target), c)) c := by
  have hform := generate_steady t id l o source hc
  have hfinish := Steady.pure source (finishJob t write id l target (generate t id l o source c).1)
    hform.wellFormed
  refine (hform.bind (fun r c => (finishJob t write id l target r, c)) hfinish).of_eq fun c => ?_
  unfold runJob finishJob
  rcases generate t id l o source c with ⟨_ | _, _⟩ <;> rfl

theorem runJobs_steady (t : Tree) (o : Options) (source : FileSource) (write : Writer σ)
    (jobs : List (Nat × Language)) (target : σ) (hc : c.WellFormed) :
    Steady source (fun c =>
      let (results, c, target) := runJobs t o source write jobs c target
      ((results, target), c)) c := by
  induction jobs generalizing c target with
  | nil => exact Steady.pure source _ hc
  | cons job rest ih =>
    obtain ⟨id, l⟩ := job
    have hfirst := runJob_steady t o source write id l target hc
    -- the other jobs start with the target that the first one left
    let follow (r : JobResult × σ) (c : Cache) : (List JobResult × σ) × Cache :=
      let (results, c, target) := runJobs t o source write rest c r.2
      ((r.1 :: results, target), c)
    have hfollow (r : JobResult × σ) {c : Cache} (hc : c.WellFormed) :
        Steady source (follow r) c := by
      have hrest := ih r.2 hc
      exact hrest.bind (fun r' c => ((r.1 :: r'.1, r'.2), c)) (.pure source _ hrest.wellFormed)
    exact (hfirst.bind follow (hfollow _ hfirst.wellFormed)).of_eq fun c => rfl

/-- A run repeated with what it was first handed to gives the same results, hands over the same
files, and leaves the cache as it is. -/
theorem runProject_twice (t : Tree) (o : Options) (languages : List Language)
    (source : FileSource) (write : Writer σ) (target : σ) (hc : c.WellFormed) :
    let first := runProject t o languages source write c target
    runProject t o languages source write first.2.1 target = first := by
  have h := (runJobs_steady t o source write (jobsOf t languages) target hc).twice
  simp only [Prod.mk.injEq] at h
  obtain ⟨⟨hresults, htarget⟩, hcache⟩ := h
  simp only [runProject]
  exact Prod.ext (congrArg ProjectResults.ofJobs hresults) (Prod.ext hcache htarget)

/-- A dry run over the same files, with the cache as the first one left it, gives the same results
and changes none of the assets, whatever had gone through the cache before. -/
theorem runProject_dryRun_twice {seen : FileSource → Prop} (h : Cache.Reached seen c) (t : Tree)
    (o : Options) (languages : List Language) (source : FileSource)
    (existing : List (String × String)) :
    let first := runProject t o languages source DryRun.write c (.ofFiles existing)
    let second := runProject t o languages source DryRun.write first.2.1 (.ofFiles existing)
    second.1 = first.1 ∧ second.2.1 = first.2.1 := by
  intro first second
  have heq : second = first := runProject_twice t o languages source DryRun.write _ h.wellFormed
  exact ⟨congrArg Prod.fst heq, congrArg (fun run => run.2.1) heq⟩

/-- A project with a dialog whose icon, bitmap and animation are embedded. The bitmap has the array
name of the icon, and there is no animation. -/
def logoProject : Design :=
  .mk (.ofKind .project)
    [.mk { kind := .dialog, props := [(.className, "Dlg"), (.icon, "Embed;logo.png")],
           events := [] }
      [.mk { kind := .staticBitmap, props := [(.bitmap, "Embed;art/logo.png")], events := [] } [],
        .mk { kind := .animationCtrl, props := [(.animation, "Embed;spin.gif")], events := [] } []]]

/-- The files of that project, the icon being changed at some time. -/
def logoFiles (time : Int) : FileSource :=
  (((MemoryFiles.empty.put "logo.png" [1, 2] time).put "art/logo.png" [3] 1)).source

/-- A run after the icon changed, repeated. -/
theorem logoProject_dryRun_twice :
    let c := (Cache.empty.resolve (logoFiles 1) ⟨.embed, "logo.png", none⟩).2
    let first := runProject (.ofDesign logoProject) .default Language.all (logoFiles 2) DryRun.write
      c (.ofFiles [("dlg.h", "")])
    let second := runProject (.ofDesign logoProject) .default Language.all (logoFiles 2)
      DryRun.write first.2.1 (.ofFiles [("dlg.h", "")])
    second.1 = first.1 ∧ second.2.1 = first.2.1 := by
  intro c
  have hreached : Cache.Reached (fun _ => True) c := .resolve trivial .empty _
  exact runProject_dryRun_twice hreached _ _ _ _ _

end FormDesign
