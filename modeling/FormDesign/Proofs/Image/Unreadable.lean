import FormDesign.Proofs.Image.Since

/-!
# Files that stop the image pass

Much can be wrong with the images of a form, and only one thing stops the pass over them: a file
that has to be read and cannot be read. Whether a file has to be read depends on the cache and on
the images that the form has already, and the pass changes both. But it never changes them for a
file that cannot be read. So the cache at the beginning tells whether the pass gets to its end.

* `MustRead`: when the pass reads a file
* `collectImages_eq_error_iff`: the pass stops at the first text that stops it
* `exists_stoppedBy_iff`: whether there is one, from the cache at the beginning
-/

namespace FormDesign

variable {source : FileSource} {artDirectory path reason text : String} {texts : List String}
  {fault : Fault} {t t' : ImageTable} {c c' : Cache} {images : Embedded}

/-! ## Files that have to be read -/

/-- The bytes of a file have to be read for a form that has some images already. -/
inductive MustRead (source : FileSource) (path : String) (images : Embedded) (c : Cache) : Prop
  /-- The cache does not know the file, and there is one. -/
  | load {time : Int} (unknown : ∀ a ∈ c.assets, a.filename ≠ path)
      (present : source.modified path = some time)
  /-- The cache has bytes from another time, and the form has not used them. -/
  | reencode {a : Asset} {time : Int} (cached : a ∈ c.assets) (file : a.filename = path)
      (first : a.id ∉ images) (present : source.modified path = some time)
      (changed : a.sourceTime ≠ some time)

/-- There is a file, and the cache does not have its bytes as they are now. -/
def Cache.Lacks (source : FileSource) (path : String) (c : Cache) : Prop :=
  ∃ time, source.modified path = some time ∧
    ∀ a ∈ c.assets, a.filename = path → a.sourceTime ≠ some time

namespace Cache

theorem isStale_iff {a : Asset} : isStale source a = true ↔
    ∃ time, source.modified a.filename = some time ∧ a.sourceTime ≠ some time := by
  rw [← Bool.not_eq_false, isStale_eq_false]
  push Not
  rfl

/-- Bytes that the cache has of such a file are stale. -/
theorem Lacks.isStale (h : c.Lacks source path) {a : Asset} (ha : a ∈ c.assets)
    (file : a.filename = path) : Cache.isStale source a = true := by
  obtain ⟨time, present, changed⟩ := h
  subst file
  exact isStale_iff.2 ⟨time, present, changed a ha rfl⟩

end Cache

/-- The images that the form has do not count: their bytes are current. -/
theorem mustRead_iff (hc : c.WellFormed) (current : images.Current source c) :
    MustRead source path images c ↔ c.Lacks source path := by
  constructor
  · rintro (⟨unknown, present⟩ | ⟨cached, file, -, present, changed⟩)
    · exact ⟨_, present, fun a ha hfile => absurd hfile (unknown a ha)⟩
    · refine ⟨_, present, fun b hb hfile => ?_⟩
      rwa [List.inj_on_of_nodup_map hc.filenames_nodup hb cached (hfile.trans file.symm)]
  · intro (lacks : c.Lacks source path)
    have ⟨time, present, changed⟩ := lacks
    by_cases unknown : ∀ a ∈ c.assets, a.filename ≠ path
    · exact .load unknown present
    · push Not at unknown
      obtain ⟨a, ha, file⟩ := unknown
      -- an image that was used for the form has current bytes
      refine .reencode ha file (fun used => ?_) present (changed a ha file)
      obtain ⟨b, hb, hid, fresh⟩ := current _ used
      obtain rfl := hc.eq_of_id_eq hb ha hid
      rw [lacks.isStale hb file] at fresh
      cases fresh

/-! ## One text -/

/-- The text describes an embedded image whose file has to be read and cannot be read. -/
structure Stops (source : FileSource) (text : String) (images : Embedded) (c : Cache)
    (path reason : String) : Prop where
  describes : ∃ d, ImageDescription.parse? text = some d ∧ d.kind.isEmbedded = true ∧ d.path = path
  mustRead : MustRead source path images c
  fails : source.load path = .error reason

theorem collectImage_of_embedded {d : ImageDescription}
    (hd : ImageDescription.parse? text = some d) (embedded : d.kind.isEmbedded = true) :
    collectImage source artDirectory text t c = embedImage source d t c := by
  rcases collectImage_cases source artDirectory text t with
    ⟨d', hd', -, heq⟩ | ⟨includes, warnings, heq⟩
  · rw [hd] at hd'
    cases hd'
    exact heq t.embedded c
  · have hparse : ImageDescription.parse text = .ok d := by
      unfold ImageDescription.parse? at hd
      cases hparse : ImageDescription.parse text with
      | error => rw [hparse] at hd; cases hd
      | ok d' => rw [hparse] at hd; cases hd; rfl
    cases hkind : d.kind with
    | embed | svg => simp only [collectImage, hparse, hkind]
    | header | xpm | art =>
      rw [hkind] at embedded
      cases embedded

/-- A request fails for the one reason that the file has to be read and cannot be read. -/
theorem Embeds.eq_error_iff {d : ImageDescription} {r : Except Fault ImageTable}
    (h : Embeds source d t c r c') (hc : c.WellFormed) (current : t.embedded.Current source c) :
    r = .error fault ↔ c.Lacks source d.path ∧
      ∃ reason, source.load d.path = .error reason ∧ fault = .unreadable d.path reason := by
  constructor
  · rintro rfl
    cases h with
    | spoilt cached file first stale load =>
      obtain ⟨time, present, changed⟩ := Cache.isStale_iff.1 stale
      rw [file] at present
      have mustRead := MustRead.reencode cached file first present changed
      exact ⟨(mustRead_iff hc current).1 mustRead, _, load, rfl⟩
    | unreadable unknown present load =>
      exact ⟨⟨_, present, fun a ha hfile => absurd hfile (unknown a ha)⟩, _, load, rfl⟩
  · rintro ⟨lacks, reason, fails, rfl⟩
    cases h with
    | again cached file known =>
      obtain ⟨b, hb, hid, fresh⟩ := current _ known
      obtain rfl := hc.eq_of_id_eq hb cached hid
      rw [lacks.isStale hb file] at fresh
      cases fresh
    | current cached file first fresh =>
      rw [lacks.isStale cached file] at fresh
      cases fresh
    | spoilt cached file first stale load | unreadable unknown present load =>
      rw [fails] at load
      cases load
      rfl
    | missing unknown absent =>
      obtain ⟨time, present, -⟩ := lacks
      rw [absent] at present
      cases present
    | reread cached file first stale load | clash unknown present load cached taken
      | new unknown present load free first =>
      rw [fails] at load
      cases load

theorem collectImage_eq_error_iff (hc : c.WellFormed) (current : t.embedded.Current source c) :
    (collectImage source artDirectory text t c).1 = .error fault ↔
      ∃ path reason, Stops source text t.embedded c path reason ∧
        fault = .unreadable path reason := by
  by_cases embedded : ∃ d, ImageDescription.parse? text = some d ∧ d.kind.isEmbedded = true
  · obtain ⟨d, hd, embedded⟩ := embedded
    rw [collectImage_of_embedded hd embedded,
      (embedImage_embeds embedded hc current).eq_error_iff hc current, ← mustRead_iff hc current]
    constructor
    · rintro ⟨mustRead, reason, fails, rfl⟩
      exact ⟨_, reason, ⟨⟨d, hd, embedded, rfl⟩, mustRead, fails⟩, rfl⟩
    · rintro ⟨path, reason, ⟨⟨d', hd', -, rfl⟩, mustRead, fails⟩, rfl⟩
      rw [hd] at hd'
      cases hd'
      exact ⟨mustRead, reason, fails, rfl⟩
  · rcases collectImage_cases source artDirectory text t with
      ⟨d, hd, hembedded, -⟩ | ⟨includes, warnings, heq⟩
    · exact absurd ⟨d, hd, hembedded⟩ embedded
    · rw [heq t.embedded c]
      refine iff_of_false nofun ?_
      rintro ⟨path, reason, ⟨⟨d, hd, hembedded, -⟩, -, -⟩, -⟩
      exact embedded ⟨d, hd, hembedded⟩

/-! ## All texts -/

/-- The pass over some texts is stopped by a file, at the first text that stops it. -/
inductive StoppedBy (source : FileSource) (artDirectory : String) :
    List String → ImageTable → Cache → String → String → Prop
  | here {text : String} {rest : List String} {t : ImageTable} {c : Cache} {path reason : String}
      (stops : Stops source text t.embedded c path reason) :
      StoppedBy source artDirectory (text :: rest) t c path reason
  | later {text : String} {rest : List String} {t t' : ImageTable} {c c' : Cache}
      {path reason : String} (first : collectImage source artDirectory text t c = (.ok t', c'))
      (stopped : StoppedBy source artDirectory rest t' c' path reason) :
      StoppedBy source artDirectory (text :: rest) t c path reason

/-- What the pass has found after a text is in order for the next one. -/
theorem next_of_collectImage (hc : c.WellFormed) (current : t.embedded.Current source c)
    (first : collectImage source artDirectory text t c = (.ok t', c')) :
    c'.WellFormed ∧ t'.embedded.Current source c' := by
  have wellFormed := (collectImage_steady artDirectory text hc current).wellFormed
  have current' := collectImage_current artDirectory text hc current (congrArg Prod.fst first)
  rw [first] at wellFormed current'
  exact ⟨wellFormed, current'⟩

theorem stoppedBy_of_error
    (first : collectImage source artDirectory text t c = (.error fault, c')) :
    StoppedBy source artDirectory (text :: texts) t c path reason ↔
      Stops source text t.embedded c path reason := by
  refine ⟨fun stopped => ?_, .here⟩
  cases stopped with
  | here stops => exact stops
  | later ok => rw [first] at ok; cases ok

theorem not_stops_of_ok (hc : c.WellFormed) (current : t.embedded.Current source c)
    (first : collectImage source artDirectory text t c = (.ok t', c')) :
    ¬Stops source text t.embedded c path reason := by
  intro stops
  have failed : (collectImage source artDirectory text t c).1 = .error (.unreadable path reason) :=
    (collectImage_eq_error_iff hc current).2 ⟨path, reason, stops, rfl⟩
  rw [first] at failed
  cases failed

theorem stoppedBy_of_ok (hc : c.WellFormed) (current : t.embedded.Current source c)
    (first : collectImage source artDirectory text t c = (.ok t', c')) :
    StoppedBy source artDirectory (text :: texts) t c path reason ↔
      StoppedBy source artDirectory texts t' c' path reason := by
  refine ⟨fun stopped => ?_, .later first⟩
  cases stopped with
  | here stops => exact absurd stops (not_stops_of_ok hc current first)
  | later ok stopped =>
    rw [first] at ok
    cases ok
    exact stopped

/-- **The pass fails only where a file stops it**, and this file is the fault. -/
theorem collectImages_eq_error_iff (hc : c.WellFormed) (current : t.embedded.Current source c) :
    (collectImages source artDirectory texts t c).1 = .error fault ↔
      ∃ path reason, StoppedBy source artDirectory texts t c path reason ∧
        fault = .unreadable path reason := by
  induction texts generalizing t c with
  | nil => exact iff_of_false nofun nofun
  | cons text rest ih =>
    rw [collectImages]
    rcases hfirst : collectImage source artDirectory text t c with ⟨fault' | t', c'⟩
    · simp only [stoppedBy_of_error hfirst]
      rw [← collectImage_eq_error_iff hc current, hfirst]
    · obtain ⟨hc', current'⟩ := next_of_collectImage hc current hfirst
      simp only [stoppedBy_of_ok hc current hfirst]
      exact ih hc' current'

/-! ## The cache at the beginning -/

/-- The text describes an embedded image, and the cache lacks its file, which cannot be read. -/
def Unreadable (source : FileSource) (text : String) (c : Cache) : Prop :=
  ∃ d reason, ImageDescription.parse? text = some d ∧ d.kind.isEmbedded = true ∧
    c.Lacks source d.path ∧ source.load d.path = .error reason

theorem exists_stops_iff (hc : c.WellFormed) (current : images.Current source c) :
    (∃ path reason, Stops source text images c path reason) ↔ Unreadable source text c := by
  constructor
  · rintro ⟨path, reason, ⟨⟨d, hd, embedded, rfl⟩, mustRead, fails⟩⟩
    exact ⟨d, reason, hd, embedded, (mustRead_iff hc current).1 mustRead, fails⟩
  · rintro ⟨d, reason, hd, embedded, lacks, fails⟩
    exact ⟨d.path, reason, ⟨d, hd, embedded, rfl⟩, (mustRead_iff hc current).2 lacks, fails⟩

/-- Nothing changes for a file that cannot be read. -/
theorem Embeds.lacks_iff {d : ImageDescription} {r : Except Fault ImageTable}
    (h : Embeds source d t c r c') (hc : c.WellFormed) (fails : source.load path = .error reason) :
    c'.Lacks source path ↔ c.Lacks source path := by
  have other {payload : List UInt8} (load : source.load d.path = .ok payload) : d.path ≠ path := by
    rintro rfl
    rw [fails] at load
    cases load
  refine exists_congr fun time => and_congr_right fun present => ?_
  cases h with
  | again | current | spoilt | missing | unreadable | clash => rfl
  | @reread a payload cached file first stale load =>
    simp only [Cache.mem_withBytes, forall_exists_index, and_imp, forall_apply_eq_imp_iff₂]
    refine forall₂_congr fun b hb => ?_
    by_cases same : b.id = a.id
    · obtain rfl := hc.eq_of_id_eq hb cached same
      have away := file.trans_ne (other load)
      rw [if_pos rfl]
      exact iff_of_true (fun h => absurd h away) fun h => absurd h away
    · rw [if_neg same]
  | new unknown present' load free first =>
    simp only [Cache.mem_push, or_imp, forall_and, forall_eq, and_iff_left_iff_imp]
    exact fun _ file => absurd file (other load)

/-- One text changes nothing for what stops the pass at another. -/
theorem unreadable_iff_of_collectImage (hc : c.WellFormed) (current : t.embedded.Current source c)
    (first : collectImage source artDirectory text t c = (.ok t', c')) (other : String) :
    Unreadable source other c' ↔ Unreadable source other c := by
  refine exists₂_congr fun d reason => and_congr_right fun _ => and_congr_right fun _ => ?_
  refine and_congr_left fun fails => ?_
  rcases collectImage_cases source artDirectory text t with
    ⟨d', -, embedded, heq⟩ | ⟨includes, warnings, heq⟩
  · have h := embedImage_embeds embedded hc current
    rw [← heq t.embedded c, first] at h
    exact h.lacks_iff hc fails
  · rw [heq t.embedded c] at first
    cases first
    rfl

/-- **Whether the pass fails can be told from the cache at the beginning.** -/
theorem exists_stoppedBy_iff (hc : c.WellFormed) (current : t.embedded.Current source c) :
    (∃ path reason, StoppedBy source artDirectory texts t c path reason) ↔
      ∃ text ∈ texts, Unreadable source text c := by
  induction texts generalizing t c with
  | nil => exact iff_of_false nofun nofun
  | cons text rest ih =>
    rw [List.exists_mem_cons_iff, ← exists_stops_iff hc current]
    rcases hfirst : collectImage source artDirectory text t c with ⟨fault | t', c'⟩
    · -- the pass does not get to the other texts
      obtain ⟨path, reason, stops, -⟩ :=
        (collectImage_eq_error_iff hc current).1 (congrArg Prod.fst hfirst)
      exact iff_of_true ⟨path, reason, .here stops⟩ (Or.inl ⟨path, reason, stops⟩)
    · obtain ⟨hc', current'⟩ := next_of_collectImage hc current hfirst
      simp only [stoppedBy_of_ok hc current hfirst, ih hc' current',
        unreadable_iff_of_collectImage hc current hfirst, not_stops_of_ok hc current hfirst,
        exists_false, false_or]

end FormDesign
