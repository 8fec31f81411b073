import FormDesign.Proofs.Image.Reached

/-!
# The images of a form

The image pass puts down every image that a form embeds, once, by its identity. What is written for
the form in the end are the assets that the cache has for these identities, and their array names
are not repeated either.

* `Form.nodup_images`: the pass puts down no image twice
* `Embedded.mem_assets`, `Embedded.nodup_assets`: what is written
-/

namespace FormDesign

variable {source : FileSource} {c c' : Cache} {t t' : ImageTable}

/-! ## No image twice -/

theorem Embedded.nodup_add {a : Asset} {images images' : Embedded} {isNew : Bool}
    (h : images.Nodup) (ha : images.add source a c = (.ok (isNew, images'), c')) :
    images'.Nodup := by
  have append (hn : ¬images.contains a.id = true) : (images ++ [a.id]).Nodup := by
    refine List.nodup_append.2 ⟨h, List.nodup_singleton _, fun id hid other ho heq => hn ?_⟩
    rw [List.contains_iff_mem, ← List.mem_singleton.1 ho, ← heq]
    exact hid
  unfold add at ha
  split at ha
  · obtain ⟨-, rfl⟩ := Prod.mk.inj (Except.ok.inj (Prod.mk.inj ha).1)
    exact h
  · next hn =>
    split at ha
    · split at ha
      · cases (Prod.mk.inj ha).1
      · obtain ⟨-, rfl⟩ := Prod.mk.inj (Except.ok.inj (Prod.mk.inj ha).1)
        exact append hn
    · obtain ⟨-, rfl⟩ := Prod.mk.inj (Except.ok.inj (Prod.mk.inj ha).1)
      exact append hn

theorem nodup_embedImage {d : ImageDescription} (h : t.embedded.Nodup)
    (he : embedImage source d t c = (.ok t', c')) : t'.embedded.Nodup := by
  unfold embedImage at he
  split at he
  · split at he
    · next hadd =>
      obtain rfl := Except.ok.inj (Prod.mk.inj he).1
      exact Embedded.nodup_add h hadd
    · cases (Prod.mk.inj he).1
  · obtain rfl := Except.ok.inj (Prod.mk.inj he).1
    exact h
  · cases (Prod.mk.inj he).1
  · obtain rfl := Except.ok.inj (Prod.mk.inj he).1
    exact h

theorem nodup_collectImage {artDirectory text : String} (h : t.embedded.Nodup)
    (hi : collectImage source artDirectory text t c = (.ok t', c')) : t'.embedded.Nodup := by
  unfold collectImage at hi
  split at hi
  · obtain rfl := Except.ok.inj (Prod.mk.inj hi).1
    exact h
  · split at hi
    case h_1 | h_2 => exact nodup_embedImage h hi
    all_goals
      obtain rfl := Except.ok.inj (Prod.mk.inj hi).1
      exact h

theorem nodup_collectImages {artDirectory : String} {texts : List String} (h : t.embedded.Nodup)
    (hi : collectImages source artDirectory texts t c = (.ok t', c')) : t'.embedded.Nodup := by
  induction texts generalizing t c with
  | nil =>
    obtain rfl := Except.ok.inj (Prod.mk.inj hi).1
    exact h
  | cons text rest ih =>
    rw [collectImages] at hi
    split at hi
    · next hfirst => exact ih (nodup_collectImage h hfirst) hi
    · cases (Prod.mk.inj hi).1

/-- What the pass over the images of a form comes to when it succeeds. -/
theorem Form.collectImages_of_images {f : Form} {artDirectory : String}
    (h : f.images source artDirectory c = (.ok t, c')) :
    collectImages source artDirectory (f.elements.flatMap Element.imageTexts) .empty c
      = (.ok t, c') := by
  unfold images at h
  split at h
  · next heq => rw [heq, ← h]
  · cases (Prod.mk.inj h).1

/-- **A form embeds no image twice.** -/
theorem Form.nodup_images {f : Form} {artDirectory : String}
    (h : f.images source artDirectory c = (.ok t, c')) : t.embedded.Nodup :=
  nodup_collectImages List.nodup_nil (collectImages_of_images h)

/-- The pass leaves a cache well-formed. -/
theorem Form.wellFormed_images {f : Form} {artDirectory : String} (hc : c.WellFormed)
    (h : f.images source artDirectory c = (.ok t, c')) : c'.WellFormed := by
  have kept := (Cache.keptBy_wellFormed source).collectImages artDirectory
    (f.elements.flatMap Element.imageTexts) .empty hc
  rwa [collectImages_of_images h] at kept

/-! ## What is written -/

namespace Embedded

variable {images : Embedded} {a : Asset}

theorem mem_assets (hc : c.WellFormed) : a ∈ images.assets c ↔ a ∈ c.assets ∧ a.id ∈ images := by
  rw [assets, (List.mergeSort_perm _ _).mem_iff, List.mem_filterMap]
  constructor
  · rintro ⟨id, hid, ha⟩
    obtain ⟨hcached, rfl⟩ := hc.asset?_eq_some.1 ha
    exact ⟨hcached, hid⟩
  · rintro ⟨ha, hid⟩
    exact ⟨a.id, hid, hc.asset?_eq_some.2 ⟨ha, rfl⟩⟩

/-- The array names of what is written are not repeated. -/
theorem nodup_assets (hc : c.WellFormed) (h : images.Nodup) :
    ((images.assets c).map Asset.arrayName).Nodup := by
  have nodup : (images.assets c).Nodup := by
    rw [assets, (List.mergeSort_perm _ _).nodup_iff]
    refine h.filterMap fun id id' b hb hb' => ?_
    exact (hc.asset?_eq_some.1 hb).2.symm.trans (hc.asset?_eq_some.1 hb').2
  refine nodup.map_on fun a ha b hb heq => ?_
  exact hc.eq_of_arrayName_eq ((mem_assets hc).1 ha).1 ((mem_assets hc).1 hb).1 heq

end Embedded

end FormDesign
