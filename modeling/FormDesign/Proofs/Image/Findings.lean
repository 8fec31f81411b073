import Mathlib.Data.Set.Function
import FormDesign.Proofs.Image.Reached
import FormDesign.Proofs.Image.Since

/-!
# What the image pass finds

The image pass without a cache: which files are embedded, which headers included and which warnings
given is a matter of the files alone. The pass through a cache finds just that, whatever the cache
has seen before, if nothing in it got lost and no two files share an array name.

* `Findings.collect`: the pass without a cache
* `FileSource.History`: files over time, where the time of a file tells its bytes
* `Cache.Serves`: caches that can stand in for the files
* `Cache.Reached.serves`: a cache that comes up along a history is such a cache
* `collectImages_findings`: the pass through a cache finds what the files have
-/

namespace FormDesign

variable {source : FileSource} {c c' : Cache} {d : ImageDescription} {t : ImageTable}

/-! ## The pass without a cache -/

/-- What is found in the images of a form, with the embedded files by their paths. -/
structure Findings where
  files : List String
  includes : List String
  warnings : List String

namespace Findings

def empty : Findings := { files := [], includes := [], warnings := [] }

def warn (found : Findings) (warning : String) : Findings :=
  { found with warnings := found.warnings ++ [warning] }

/-- Takes in a file to be embedded, once, if it exists. -/
def embed (source : FileSource) (path : String) (found : Findings) : Findings :=
  match source.modified path with
  | none => found.warn (missingWarning path)
  | some _ =>
    if path ∈ found.files then found else { found with files := found.files ++ [path] }

/-- Takes in the image of one property text. -/
def collect (source : FileSource) (artDirectory : String) (found : Findings) (text : String) :
    Findings :=
  match ImageDescription.parse text with
  | .error reason => found.warn (Fault.badDescription text reason).message
  | .ok d =>
    match d.kind with
    | .embed | .svg => found.embed source d.path
    | .header | .xpm =>
      { found with includes := Sorted.insert (includePath d.path artDirectory) found.includes }
    | .art => found

end Findings

/-- The findings in a table, whose images are in the cache. -/
def ImageTable.findings (t : ImageTable) (c : Cache) : Findings :=
  { files := (t.embedded.filterMap c.asset?).map Asset.filename, includes := t.includes,
    warnings := t.warnings }

/-! ## Files over time -/

/-- Files as they were at several times: a file of the same time has the same bytes, and a file that
exists can be read. -/
structure FileSource.History (seen : FileSource → Prop) : Prop where
  dated : ∀ s s', seen s → seen s' → ∀ path time, s.modified path = some time →
    s'.modified path = some time → s.load path = s'.load path
  readable : ∀ s, seen s → ∀ path time, s.modified path = some time →
    ∃ payload, s.load path = .ok payload

namespace Cache

/-- The bytes of an asset are those that its file had at the time of the asset. -/
def Dated (seen : FileSource → Prop) (c : Cache) : Prop :=
  ∀ a ∈ c.assets, ∀ time, a.sourceTime = some time →
    ∃ s, seen s ∧ s.modified a.filename = some time ∧ s.load a.filename = .ok a.payload

theorem keptBy_dated {seen : FileSource → Prop} (now : seen source) :
    KeptBy (fun c => c.WellFormed ∧ c.Dated seen) source where
  resolve d c h := by
    refine ⟨(keptBy_wellFormed source).resolve d c h.1, ?_⟩
    rcases resolve_cache source d c with heq | ⟨payload, time, hmodified, hload, -, heq⟩
    · rw [heq]
      exact h.2
    · rw [heq]
      intro a ha time' htime
      rcases mem_push.1 ha with ha | rfl
      · exact h.2 a ha time' htime
      · have hsame : some time = some time' := htime
        exact ⟨source, now, hsame ▸ hmodified, hload⟩
  reread id c h := by
    refine ⟨(keptBy_wellFormed source).reread id c h.1, ?_⟩
    rcases reread_cache source id c with heq | ⟨a, payload, ha, hload, heq⟩
    · rw [heq]
      exact h.2
    · rw [heq]
      obtain ⟨hmem, rfl⟩ := h.1.asset?_eq_some.1 ha
      intro b' hb' time htime
      obtain ⟨b, hb, rfl⟩ := mem_withBytes.1 hb'
      by_cases hid : b.id = a.id
      · -- the asset that is read now has the bytes and the time of the file
        obtain rfl := h.1.eq_of_id_eq hb hmem hid
        rw [if_pos rfl] at htime ⊢
        exact ⟨source, now, htime, hload⟩
      · rw [if_neg hid] at htime ⊢
        exact h.2 b hb time htime

/-! ## Caches in place of files -/

/-- An asset that stands for its file: the file exists, and unless the asset is stale it has the
bytes of the file. -/
structure StandsFor (source : FileSource) (files : Set String) (a : Asset) : Prop where
  known : a.filename ∈ files
  present : ∃ time, source.modified a.filename = some time
  truthful : isStale source a = false → source.load a.filename = .ok a.payload

/-- A cache in which every asset stands for its file, which is one of the given files. -/
structure Serves (source : FileSource) (files : Set String) (c : Cache) : Prop where
  wellFormed : c.WellFormed
  stands : ∀ a ∈ c.assets, StandsFor source files a

theorem Serves.exists_modified {files : Set String} (hc : c.Serves source files) {a : Asset}
    (ha : a ∈ c.assets) {path : String} (hfile : a.filename = path) :
    ∃ time, source.modified path = some time :=
  hfile ▸ (hc.stands a ha).present

theorem serves_empty (source : FileSource) (files : Set String) : empty.Serves source files where
  wellFormed := wellFormed_empty
  stands := List.forall_mem_nil _

/-- Along a history nothing in the cache is wrong. Bytes of another time may be old, but then the
asset is stale. -/
theorem Reached.serves {seen : FileSource → Prop} (history : FileSource.History seen)
    (now : seen source) (h : Reached seen c)
    (remain : ∀ a ∈ c.assets, ∃ time, source.modified a.filename = some time) {files : Set String}
    (known : ∀ a ∈ c.assets, a.filename ∈ files) : c.Serves source files where
  wellFormed := h.wellFormed
  stands a ha := by
    refine ⟨known a ha, remain a ha, fun hfresh => ?_⟩
    have hdated : c.WellFormed ∧ c.Dated seen :=
      h.kept ⟨wellFormed_empty, List.forall_mem_nil _⟩ fun source now => keptBy_dated now
    obtain ⟨time, htime⟩ := remain a ha
    -- the bytes are those of another time at which the file had this date
    obtain ⟨s, hs, hmodified, hload⟩ := hdated.2 a ha time (isStale_eq_false.1 hfresh time htime)
    rw [history.dated source s now hs a.filename time htime hmodified]
    exact hload

end Cache

open Cache (Serves)

/-! ## The pass through a cache -/

/-- The file of an image that is in the table is among the findings. -/
theorem ImageTable.mem_findings_files (hc : c.WellFormed) {a : Asset} (ha : a ∈ c.assets) :
    a.filename ∈ (t.findings c).files ↔ a.id ∈ t.embedded := by
  constructor
  · intro h
    obtain ⟨b, hb, hfile⟩ := List.mem_map.1 h
    obtain ⟨id, hid, hasset⟩ := List.mem_filterMap.1 hb
    obtain ⟨hb, rfl⟩ := hc.asset?_eq_some.1 hasset
    -- the assets have one file, and so they are one
    have hget : c.get? a.filename = some b := hc.get?_eq_some.2 ⟨hb, hfile⟩
    rw [hc.get?_eq_some.2 ⟨ha, rfl⟩] at hget
    cases hget
    exact hid
  · intro h
    exact List.mem_map.2 ⟨a, List.mem_filterMap.2 ⟨a.id, h, hc.asset?_eq_some.2 ⟨ha, rfl⟩⟩, rfl⟩

/-- Findings do not change with a later cache. -/
theorem ImageTable.findings_later (ht : t.embedded.Current source c) (hc : c.WellFormed)
    (hc' : c'.WellFormed) (hs : c.Since source c') : t.findings c' = t.findings c := by
  rw [findings, findings, ht.filterMap_asset?_eq hc hc' hs]

/-- One more image in the table is one more file among the findings. -/
theorem ImageTable.findings_embed (hc : c.WellFormed) {a : Asset} (ha : a ∈ c.assets) :
    (t.embed a.id).findings c
      = { t.findings c with files := (t.findings c).files ++ [a.filename] } := by
  simp [findings, embed, List.filterMap_append, hc.asset?_eq_some.2 ⟨ha, rfl⟩]

theorem Findings.embed_known {found : Findings} {path : String} {time : Int}
    (present : source.modified path = some time) (known : path ∈ found.files) :
    found.embed source path = found := by
  simp [embed, present, known]

theorem Findings.embed_new {found : Findings} {path : String} {time : Int}
    (present : source.modified path = some time) (new : path ∉ found.files) :
    found.embed source path = { found with files := found.files ++ [path] } := by
  simp [embed, present, new]

/-- A file that is not in the cache is not among the findings. -/
theorem ImageTable.notMem_findings_files (hc : c.WellFormed) {path : String}
    (unknown : ∀ a ∈ c.assets, a.filename ≠ path) : path ∉ (t.findings c).files := by
  intro h
  obtain ⟨a, ha, hfile⟩ := List.mem_map.1 h
  obtain ⟨id, -, hasset⟩ := List.mem_filterMap.1 ha
  exact unknown a (hc.asset?_eq_some.1 hasset).1 hfile

variable {files : Set String}

theorem Embeds.serves {r : Except Fault ImageTable} (h : Embeds source d t c r c')
    (hc : c.Serves source files) (hd : d.path ∈ files) : c'.Serves source files := by
  refine ⟨h.wellFormed hc.wellFormed, ?_⟩
  cases h with
  | again | current | spoilt | missing | unreadable | clash => exact hc.stands
  | @reread a payload ha hfile hfirst hstale hload =>
    intro b' hb'
    obtain ⟨b, hb, rfl⟩ := Cache.mem_withBytes.1 hb'
    by_cases hid : b.id = a.id
    · obtain rfl := hc.wellFormed.eq_of_id_eq hb ha hid
      rw [if_pos rfl]
      have hold := hc.stands b hb
      exact ⟨hold.known, hold.present, fun _ => hfile ▸ hload⟩
    · rw [if_neg hid]
      exact hc.stands b hb
  | new _ hpresent hload _ _ =>
    intro b hb
    rcases Cache.mem_push.1 hb with hb | rfl
    · exact hc.stands b hb
    · exact ⟨hd, ⟨_, hpresent⟩, fun _ => hload⟩

section Pass

variable (readable : ∀ path time, source.modified path = some time →
  ∃ payload, source.load path = .ok payload) (distinct : Set.InjOn arrayName files)

include readable distinct

/-- Where a cache serves, a request for a file cannot fail, and it finds what there is. -/
theorem Embeds.exists_ok {r : Except Fault ImageTable} (h : Embeds source d t c r c')
    (hc : c.Serves source files) (ht : t.embedded.Current source c) (hd : d.path ∈ files) :
    ∃ t', r = .ok t' ∧ t'.findings c' = (t.findings c).embed source d.path := by
  have hwf := hc.wellFormed
  have hwf' := h.wellFormed hwf
  have hs := h.since hwf
  cases h with
  | @again a ha hfile hknown =>
    obtain ⟨time, htime⟩ := hc.exists_modified ha hfile
    have hmem := (t.mem_findings_files hwf ha).2 hknown
    rw [hfile] at hmem
    exact ⟨t, rfl, (Findings.embed_known htime hmem).symm⟩
  | @current a ha hfile hfirst hfresh =>
    obtain ⟨time, htime⟩ := hc.exists_modified ha hfile
    have hnew := mt (t.mem_findings_files hwf ha).1 hfirst
    rw [hfile] at hnew
    refine ⟨t.embed a.id, rfl, ?_⟩
    rw [ImageTable.findings_embed hwf ha, hfile, Findings.embed_new htime hnew]
  | @reread a payload ha hfile hfirst hstale hload =>
    obtain ⟨time, htime⟩ := hc.exists_modified ha hfile
    have hnew := mt (t.mem_findings_files hwf ha).1 hfirst
    rw [hfile] at hnew
    refine ⟨t.embed a.id, rfl, ?_⟩
    -- reading it again changed none of the images that the form has so far
    have hread := Cache.mem_withBytes_self ha payload (source.modified d.path)
    refine (ImageTable.findings_embed hwf' hread).trans ?_
    rw [ImageTable.findings_later ht hwf hwf' hs, hfile, Findings.embed_new htime hnew]
  | @spoilt a reason ha hfile hfirst hstale hload =>
    obtain ⟨time, htime⟩ := hc.exists_modified ha hfile
    obtain ⟨payload, hok⟩ := readable _ time htime
    cases hload.symm.trans hok
  | missing hunknown habsent =>
    refine ⟨_, rfl, ?_⟩
    simp [Findings.embed, habsent, ImageTable.findings, ImageTable.warn, Findings.warn]
  | unreadable hunknown hpresent hload =>
    obtain ⟨payload, hok⟩ := readable _ _ hpresent
    cases hload.symm.trans hok
  | clash hunknown hpresent hload hother htaken =>
    -- the other file would share its array name with this one
    rw [hwf.names_eq _ hother] at htaken
    exact absurd (distinct ((hc.stands _ hother).known) hd htaken) (hunknown _ hother)
  | @new time payload hunknown hpresent hload hfree hfirst =>
    have hnew := t.notMem_findings_files hwf hunknown
    refine ⟨t.embed c.size, rfl, ?_⟩
    have hread := c.mem_push_self (c.newAsset d payload time)
    refine (ImageTable.findings_embed hwf' hread).trans ?_
    rw [ImageTable.findings_later ht hwf hwf' hs, Findings.embed_new hpresent hnew]
    rfl

/-- What holds between the texts of a pass: the cache serves, and the images so far are current. -/
theorem collectImage_findings (artDirectory text : String) (hc : c.Serves source files)
    (ht : t.embedded.Current source c)
    (named : ∀ d, ImageDescription.parse? text = some d → d.kind.isEmbedded = true →
      d.path ∈ files) :
    ∃ t' c', collectImage source artDirectory text t c = (.ok t', c') ∧ c'.Serves source files ∧
      t'.embedded.Current source c' ∧
        t'.findings c' = (t.findings c).collect source artDirectory text := by
  cases hparse : ImageDescription.parse text with
  | error reason =>
    simp only [collectImage, Findings.collect, hparse]
    exact ⟨_, c, rfl, hc, ht, rfl⟩
  | ok d =>
    have hembed (hd : d.kind.isEmbedded = true) :
        ∃ t' c', embedImage source d t c = (.ok t', c') ∧ c'.Serves source files ∧
          t'.embedded.Current source c' ∧
            t'.findings c' = (t.findings c).embed source d.path := by
      have hpath : d.path ∈ files := by
        refine named d ?_ hd
        rw [ImageDescription.parse?, hparse]
        rfl
      have h := embedImage_embeds hd hc.wellFormed ht
      obtain ⟨t', hok, hfindings⟩ := h.exists_ok readable distinct hc ht hpath
      have hserves := h.serves hc hpath
      rw [hok] at h
      exact ⟨t', _, Prod.ext hok rfl, hserves, h.current_of_ok ht, hfindings⟩
    cases hkind : d.kind with
    | embed | svg =>
      simp only [collectImage, Findings.collect, hparse, hkind]
      exact hembed (by rw [hkind]; rfl)
    | header | xpm =>
      simp only [collectImage, Findings.collect, hparse, hkind]
      exact ⟨_, c, rfl, hc, ht, rfl⟩
    | art =>
      simp only [collectImage, Findings.collect, hparse, hkind]
      exact ⟨t, c, rfl, hc, ht, rfl⟩

/-- The pass through a cache that serves finds what the pass without a cache finds. -/
theorem collectImages_findings (artDirectory : String) (texts : List String)
    (hc : c.Serves source files) (ht : t.embedded.Current source c)
    (named : ∀ text ∈ texts, ∀ d, ImageDescription.parse? text = some d →
      d.kind.isEmbedded = true → d.path ∈ files) :
    ∃ t' c', collectImages source artDirectory texts t c = (.ok t', c') ∧
      c'.Serves source files ∧ t'.embedded.Current source c' ∧
        t'.findings c' = texts.foldl (Findings.collect source artDirectory) (t.findings c) := by
  induction texts generalizing t c with
  | nil => exact ⟨t, c, rfl, hc, ht, rfl⟩
  | cons text rest ih =>
    obtain ⟨t₁, c₁, hfirst, hc₁, ht₁, hfound⟩ := collectImage_findings readable distinct
      artDirectory text hc ht (named text List.mem_cons_self)
    obtain ⟨t', c', hrest, hc', ht', hfound'⟩ := ih hc₁ ht₁
      fun text htext => named text (List.mem_cons_of_mem _ htext)
    refine ⟨t', c', ?_, hc', ht', ?_⟩
    · rw [collectImages, hfirst]
      exact hrest
    · rw [List.foldl_cons, ← hfound]
      exact hfound'

end Pass

end FormDesign
