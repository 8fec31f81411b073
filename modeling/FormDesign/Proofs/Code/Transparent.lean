import FormDesign.Image.MemoryFiles
import FormDesign.Proofs.Code.Binding
import FormDesign.Proofs.Image.Findings

/-!
# The cache is transparent

The source code of a form is a matter of the form and of the files as they are now. What the cache
went through before leaves no trace in it: the numbers of the assets, the order in which they were
read and the kind under which they were first asked for are not printed, and old bytes are read
again before they are.

* `Form.output_bare`: what the output reads of the images
* `Form.generate_eq_of_serves`: the output as a function of the files
* `generateSource_eq_of_empty`: a cache that comes up along a history answers as an empty one does
-/

namespace FormDesign

variable {source : FileSource} {c : Cache}

/-! ## What is printed of an image -/

/-- An asset without what the cache alone is interested in. -/
def Asset.bare (a : Asset) : Asset :=
  { a with id := 0, kind := .embed, sourceTime := none }

/-- The image of a file as it is now. -/
def Asset.ofFile (source : FileSource) (path : String) : Asset :=
  { id := 0, filename := path, arrayName := FormDesign.arrayName path, kind := .embed,
    payload := (source.load path).toOption.getD [], sourceTime := none }

/-- The same collection with bare images. -/
def Collected.bare (c : Collected) : Collected :=
  { c with images := c.images.map Asset.bare }

namespace Form

variable (f : Form) (d : Dialect)

theorem site_bare (images : List Asset) : f.site d (images.map Asset.bare) = f.site d images := by
  have hfiles : (images.map Asset.bare).map Asset.filename = images.map Asset.filename := by
    rw [List.map_map]
    rfl
  simp only [site, hfiles]

theorem plan_bare (images : List Asset) : f.plan d (images.map Asset.bare) = f.plan d images := by
  simp only [plan, site_bare]

theorem menuPlan_bare (images : List Asset) (above : List Item) (b : Branch Item) :
    f.menuPlan d (images.map Asset.bare) above b = f.menuPlan d images above b := by
  cases b with
  | mk i cs => simp only [menuPlan, site_bare]

end Form

theorem Dialect.images_bare (d : Dialect) (images : List Asset) (needs : ImageNeeds) :
    d.images (images.map Asset.bare) needs = d.images images needs := by
  have hdata (a : Asset) : d.imageData a.bare = d.imageData a := rfl
  cases d <;> simp only [Dialect.images, List.isEmpty_map, List.flatMap_map, hdata]

/-- The output reads nothing of the images but their files, array names and bytes. -/
theorem Form.output_bare (f : Form) (d : Dialect) (o : Options) (c : Collected) :
    f.output d o c.bare = f.output d o c := by
  have hplan : f.plan d c.bare.images = f.plan d c.images := f.plan_bare d c.images
  have hmenu (above : List Item) (b : Branch Item) :
      f.menuPlan d c.bare.images above b = f.menuPlan d c.images above b :=
    f.menuPlan_bare d c.images above b
  have hsteps (above : List Item) (b : Branch Item) :
      f.menuSteps d c.bare above b = f.menuSteps d c above b := by
    simp only [menuSteps, hmenu]
    rfl
  have hmethod (info : ClassInfo) (above : List Item) (b : Branch Item) :
      f.menuMethod d info c.bare above b = f.menuMethod d info c above b := by
    simp only [menuMethod, hsteps]
  have hclass (info : ClassInfo) : f.classEdits d info c.bare = f.classEdits d info c := by
    simp only [classEdits, constructorSteps, hplan, hmethod]
    rfl
  -- of an image the array name and the bytes are printed
  have hpictures : imageText d c.bare = imageText d c := by
    have hempty : c.bare.images.isEmpty = c.images.isEmpty := List.isEmpty_map
    simp only [imageText, hempty]
    rw [show c.bare.images = c.images.map Asset.bare from rfl, d.images_bare]
    rfl
  have hsource (info : ClassInfo) (i : Imports) (body : String) :
      sourceEdits d info i c.bare body = sourceEdits d info i c body := by
    simp only [sourceEdits, hpictures]
  have hwarnings : f.planWarnings d c.bare = f.planWarnings d c := by
    simp only [planWarnings, hplan, hmenu]
  simp only [output, hclass, hsource, hwarnings]
  rfl

/-! ## The output as a function of the files -/

namespace Form

/-- The files that the images of a form embed, as far as they are named. -/
def embeddedFiles (f : Form) : List String :=
  (f.elements.flatMap Element.imageTexts).filterMap fun text =>
    ((ImageDescription.parse? text).filter fun d => d.kind.isEmbedded).map ImageDescription.path

/-- What is found in the images of a form. -/
def findings (f : Form) (source : FileSource) (o : Options) : Findings :=
  (f.elements.flatMap Element.imageTexts).foldl (Findings.collect source o.artDirectory) .empty

/-- What is known of a form when its images are those of the files as they are now. -/
def collectedNow (f : Form) (d : Dialect) (source : FileSource) (o : Options) : Collected :=
  let found := f.findings source o
  let members := f.members d
  { events := f.events.sort, includes := found.includes, needs := f.needs, ids := f.ids, members,
    images := (found.files.map (Asset.ofFile source)).mergeSort
      fun a b => decide (a.arrayName ≤ b.arrayName),
    warnings := found.warnings ++ members.warnings }

end Form

/-- Where the cache serves, current images are those of the files. -/
theorem ImageTable.bare_assets {files : Set String} {t : ImageTable} (hc : c.Serves source files)
    (ht : t.embedded.Current source c) :
    (t.embedded.assets c).map Asset.bare
      = ((t.findings c).files.map (Asset.ofFile source)).mergeSort
          fun a b => decide (a.arrayName ≤ b.arrayName) := by
  have hbare : (t.embedded.filterMap c.asset?).map Asset.bare
      = (t.findings c).files.map (Asset.ofFile source) := by
    rw [findings, List.map_map]
    refine List.map_congr_left fun a ha => ?_
    obtain ⟨id, hid, hasset⟩ := List.mem_filterMap.1 ha
    obtain ⟨b, hb, hbid, hfresh⟩ := ht id hid
    -- the asset is fresh, so its bytes are those of its file
    rw [hc.wellFormed.asset?_eq_some.2 ⟨hb, hbid⟩] at hasset
    cases hasset
    have hload := (hc.stands a hb).truthful hfresh
    simp only [Asset.bare, Function.comp, Asset.ofFile, hload, hc.wellFormed.names_eq a hb]
    rfl
  rw [← hbare, Embedded.assets]
  exact List.map_mergeSort fun _ _ _ _ => rfl

/-- Where the cache serves, the output is that for the files as they are now. -/
theorem Form.generate_eq_of_serves (f : Form) (d : Dialect) (o : Options)
    (readable : ∀ path time, source.modified path = some time →
      ∃ payload, source.load path = .ok payload)
    {files : Set String} (distinct : Set.InjOn arrayName files) (hc : c.Serves source files)
    (named : ∀ path ∈ f.embeddedFiles, path ∈ files) :
    (f.generate d o source c).1 = .ok (f.output d o (f.collectedNow d source o)) := by
  obtain ⟨t, c', hpass, hc', ht, hfound⟩ := collectImages_findings (t := .empty) readable distinct
    o.artDirectory (f.elements.flatMap Element.imageTexts) hc Embedded.current_nil (by
      intro text htext d hparse hd
      refine named d.path (List.mem_filterMap.2 ⟨text, htext, ?_⟩)
      rw [hparse, Option.filter_some, if_pos hd]
      rfl)
  have hfindings : t.findings c' = f.findings source o := hfound
  have hbare : (f.collected d t c').bare = f.collectedNow d source o := by
    simp only [Collected.bare, collected, collectedNow, ImageTable.bare_assets hc' ht, hfindings]
    rw [← hfindings]
    rfl
  simp only [generate, images, hpass]
  rw [← hbare, f.output_bare]

/-! ## Any cache answers as an empty one -/

/-- A form of a kind that the dialect does not cover is passed over without a look at its images. -/
theorem generateSource_unsupported {t : Tree} {id : Nat} {f : Form} (hf : Form.ofTree t id = .ok f)
    {d : Dialect} (hd : d.supports f.node.kind = false) (o : Options) (source : FileSource) :
    ∃ output, ∀ c, generateSource t id (.source d) o source c = (.ok output, c) := by
  have isForm := Form.isForm_of_ofTree hf
  have outline : f.node.kind.isOutline = false := by
    simp only [Kind.isForm, beq_iff_eq] at isForm
    simp [Kind.isOutline, isForm]
  simp only [generateSource, Form.get?_of_ofTree hf, outline, isForm, hd]
  exact ⟨_, fun _ => rfl⟩

/-- Let the time of a file tell its bytes, and let every file that exists be readable. Then a cache
that came up while the files changed makes no difference to the output for the files as they are
now, as long as no file in it is gone and no two files that matter share an array name. -/
theorem generateSource_eq_of_empty {seen : FileSource → Prop} (history : FileSource.History seen)
    (now : seen source) (reached : Cache.Reached seen c)
    (remain : ∀ a ∈ c.assets, ∃ time, source.modified a.filename = some time) {t : Tree} {id : Nat}
    {f : Form} (hf : Form.ofTree t id = .ok f)
    (distinct : Set.InjOn arrayName
      {path | (∃ a ∈ c.assets, a.filename = path) ∨ path ∈ f.embeddedFiles})
    (d : Dialect) (o : Options) :
    ∃ output, (generateSource t id (.source d) o source c).1 = .ok output ∧
      (generateSource t id (.source d) o source .empty).1 = .ok output := by
  have warm := f.generate_eq_of_serves d o (history.readable source now) distinct
    (reached.serves history now remain fun a ha => Or.inl ⟨a, ha, rfl⟩) fun _ h => Or.inr h
  have cold := f.generate_eq_of_serves d o (history.readable source now) distinct
    (Cache.serves_empty source _) fun _ h => Or.inr h
  cases hd : d.supports f.node.kind with
  | true =>
    rw [generateSource_eq hf hd, generateSource_eq hf hd]
    exact ⟨_, warm, cold⟩
  | false =>
    obtain ⟨output, heq⟩ := generateSource_unsupported hf hd o source
    rw [heq, heq]
    exact ⟨output, rfl, rfl⟩

/-- One file, whose byte changes with time. -/
def logoAt (time : Nat) : FileSource :=
  (MemoryFiles.empty.put "logo.png" [UInt8.ofNat time] time).source

theorem modified_logoAt {time : Nat} {path : String} {found : Int}
    (h : (logoAt time).modified path = some found) : path = "logo.png" ∧ found = time := by
  by_cases hpath : path = "logo.png"
  · subst hpath
    simp [logoAt, MemoryFiles.source, MemoryFiles.file?, MemoryFiles.put] at h
    exact ⟨rfl, h.symm⟩
  · simp [logoAt, MemoryFiles.source, MemoryFiles.file?, MemoryFiles.put, MemoryFiles.empty,
      MemoryFiles.isDamaged, Ne.symm hpath] at h

theorem history_logoAt : FileSource.History fun s => ∃ time, s = logoAt time where
  dated := by
    rintro _ _ ⟨m, rfl⟩ ⟨n, rfl⟩ path time hm hn
    obtain ⟨-, rfl⟩ := modified_logoAt hm
    obtain ⟨-, heq⟩ := modified_logoAt hn
    rw [Int.ofNat_inj.1 heq]
  readable := by
    rintro _ ⟨m, rfl⟩ path time hm
    obtain ⟨rfl, -⟩ := modified_logoAt hm
    exact ⟨[UInt8.ofNat m], by
      simp [logoAt, MemoryFiles.source, MemoryFiles.file?, MemoryFiles.put, MemoryFiles.empty,
        MemoryFiles.isDamaged]⟩

/-- A dialog with that file as its icon. -/
def badgeDialog : Element where
  kind := .dialog
  props := [(.className, "Badge"), (.icon, "Embed;logo.png")]
  events := []

/-- The form of that dialog. -/
def badgeForm : Form where
  node := { badgeDialog with id := 0, parent := none, children := [] }
  children := []
  above := []

/-- The cache after the icon was read at time 1. -/
def badgeCache : Cache :=
  (Cache.empty.resolve (logoAt 1) ⟨.embed, "logo.png", none⟩).2

theorem filename_of_mem_badgeCache {a : Asset} (ha : a ∈ badgeCache.assets) :
    a.filename = "logo.png" := by
  rcases Cache.resolve_cache (logoAt 1) ⟨.embed, "logo.png", none⟩ .empty with heq | heq
  · rw [badgeCache, heq] at ha
    cases ha
  · obtain ⟨payload, time, -, -, -, heq⟩ := heq
    rw [badgeCache, heq] at ha
    rcases Cache.mem_push.1 ha with ha | rfl
    · cases ha
    · rfl

/-- The dialog at time 2, with a cache from time 1. -/
theorem badgeForm_eq_of_empty :
    ∃ output, (generateSource (.ofDesign (.mk badgeDialog [])) 0 (.source .cpp) .default (logoAt 2)
        badgeCache).1 = .ok output ∧
      (generateSource (.ofDesign (.mk badgeDialog [])) 0 (.source .cpp) .default (logoAt 2)
        .empty).1 = .ok output := by
  have hf : Form.ofTree (.ofDesign (.mk badgeDialog [])) 0 = .ok badgeForm := by
    with_unfolding_all rfl
  have hfiles : badgeForm.embeddedFiles = ["logo.png"] := by with_unfolding_all rfl
  have hreached : Cache.Reached (fun s => ∃ time, s = logoAt time) badgeCache :=
    .resolve ⟨1, rfl⟩ .empty _
  refine generateSource_eq_of_empty history_logoAt ⟨2, rfl⟩ hreached (fun a ha => ?_) hf ?_ .cpp
    .default
  · rw [filename_of_mem_badgeCache ha]
    exact ⟨2, by with_unfolding_all rfl⟩
  · -- there is only one file, in the cache and in the form
    have honly : ∀ path ∈ {path | (∃ a ∈ badgeCache.assets, a.filename = path) ∨
        path ∈ badgeForm.embeddedFiles}, path = "logo.png" := by
      rintro path (⟨a, ha, rfl⟩ | hpath)
      · exact filename_of_mem_badgeCache ha
      · rw [hfiles] at hpath
        exact List.mem_singleton.1 hpath
    intro x hx y hy _
    rw [honly x hx, honly y hy]

end FormDesign
