import FormDesign.Image.MemoryFiles
import FormDesign.Proofs.Image.Assets
import FormDesign.Proofs.Image.Calls
import FormDesign.Proofs.Image.Embed

/-!
# Gathering the images of a form

A form gathers images one at a time, from a cache that others use as well: they call it, and they
generate forms of their own with it. Files come and go all the while. Whatever happens, the images
are a set of identities: an asset is taken in when it is new, a file that changed is read again for
it first, and nothing happens for an asset that is there or whose file cannot be read.

* `Gathering.adds`: the four ways in which an addition can end
* `Gathering.Sound.after`: what holds at any time
* `Gathering.Added`: what an addition comes to, by its answer
* `Gathering.added_after`: what holds of additions at any time
-/

namespace FormDesign

/-- The images of a form as far as they are gathered, and the cache that they come from. -/
structure Gathering where
  images : Embedded
  cache : Cache

namespace Gathering

/-- No images yet, and nothing in the cache. -/
def start : Gathering :=
  { images := [], cache := .empty }

/-- Adds an asset to the images, and tells whether it is new. A fault leaves the images alone. -/
def add (source : FileSource) (a : Asset) (g : Gathering) : Except Fault Bool × Gathering :=
  match g.images.add source a g.cache with
  | (.ok (isNew, images), cache) => (.ok isNew, { images, cache })
  | (.error fault, cache) => (.error fault, { g with cache })

/-- The assets of the images, as they are written. -/
def assets (g : Gathering) : List Asset :=
  g.images.assets g.cache

/-- What can happen while the images of a form are gathered. -/
inductive Event
  /-- The form adds the asset of this identity, as the cache has it then. -/
  | add (id : Nat)
  /-- Someone calls the cache. -/
  | call (call : Cache.Call)
  /-- Another form is generated with the cache. -/
  | generate (t : Tree) (id : Nat) (l : Language) (o : Options)

/-- What is gathered after an event, with the files as they are then. -/
def happen (source : FileSource) (g : Gathering) : Event → Gathering
  | .add id =>
    match g.cache.asset? id with
    | some a => (g.add source a).2
    | none => g
  | .call call => { g with cache := (call.run source g.cache).2 }
  | .generate t id l o => { g with cache := (FormDesign.generate t id l o source g.cache).2 }

/-- What is gathered after events, each of them with files of its own. -/
def after (events : List (FileSource × Event)) (g : Gathering) : Gathering :=
  events.foldl (fun g (source, event) => g.happen source event) g

variable {source : FileSource} {g : Gathering} {a : Asset}

/-! ## The ways of an addition -/

/-- An addition, with its answer and what is gathered then. -/
inductive Adds (source : FileSource) (a : Asset) (g : Gathering) :
    Except Fault Bool → Gathering → Prop
  /-- The form has the image already. -/
  | known (known : a.id ∈ g.images) : Adds source a g (.ok false) g
  /-- The cache has the bytes of the file as it is. -/
  | current (first : a.id ∉ g.images) (fresh : Cache.isStale source a = false) :
      Adds source a g (.ok true) { g with images := g.images ++ [a.id] }
  /-- The file changed, and its bytes are read again. -/
  | reread {payload : List UInt8} (first : a.id ∉ g.images) (stale : Cache.isStale source a = true)
      (load : source.load a.filename = .ok payload) :
      Adds source a g (.ok true)
        { images := g.images ++ [a.id]
          cache := g.cache.withBytes a.id payload (source.modified a.filename) }
  /-- The file changed, but it cannot be read any more. -/
  | spoilt {reason : String} (first : a.id ∉ g.images) (stale : Cache.isStale source a = true)
      (load : source.load a.filename = .error reason) :
      Adds source a g (.error (.unreadable a.filename reason)) g

/-- Every addition of an asset in the cache ends in one of these ways. -/
theorem adds (source : FileSource) (formed : g.cache.WellFormed) (ha : a ∈ g.cache.assets) :
    Adds source a g (g.add source a).1 (g.add source a).2 := by
  have hasset : g.cache.asset? a.id = some a := formed.asset?_eq_some.2 ⟨ha, rfl⟩
  by_cases hknown : a.id ∈ g.images
  · have heq : g.add source a = (.ok false, g) := by simp [add, Embedded.add, hknown]
    rw [heq]
    exact .known hknown
  · cases hstale : Cache.isStale source a with
    | false =>
      have heq : g.add source a = (.ok true, { g with images := g.images ++ [a.id] }) := by
        simp [add, Embedded.add, hknown, hstale]
      rw [heq]
      exact .current hknown hstale
    | true =>
      cases hload : source.load a.filename with
      | ok payload =>
        have hreread : g.cache.reread source a.id
            = (.ok (), g.cache.withBytes a.id payload (source.modified a.filename)) := by
          simp only [Cache.reread, hasset, hload]
          rfl
        have heq : g.add source a = (.ok true,
            { images := g.images ++ [a.id]
              cache := g.cache.withBytes a.id payload (source.modified a.filename) }) := by
          simp [add, Embedded.add, hknown, hstale, hreread]
        rw [heq]
        exact .reread hknown hstale hload
      | error reason =>
        have hreread : g.cache.reread source a.id
            = (.error (.unreadable a.filename reason), g.cache) := by
          simp only [Cache.reread, hasset, hload]
        have heq : g.add source a = (.error (.unreadable a.filename reason), g) := by
          simp [add, Embedded.add, hknown, hstale, hreread]
        rw [heq]
        exact .spoilt hknown hstale hload

theorem Adds.images {r : Except Fault Bool} {g' : Gathering} (h : Adds source a g r g') :
    g'.images = g.images ∨ a.id ∉ g.images ∧ g'.images = g.images ++ [a.id] := by
  cases h with
  | known | spoilt => exact Or.inl rfl
  | current first | reread first => exact Or.inr ⟨first, rfl⟩

/-! ## What holds at any time -/

/-- What the operations of the cache keep is kept by an event. -/
theorem keptBy_happen {P : Cache → Prop} (kept : Cache.KeptBy P source) (hg : P g.cache)
    (event : Event) : P (g.happen source event).cache := by
  cases event with
  | add id =>
    unfold happen
    dsimp only
    split
    · next a _ =>
      have added := kept.add a g.images hg
      unfold add
      split
      · next heq => rwa [heq] at added
      · next heq => rwa [heq] at added
    · exact hg
  | call call => exact kept.call call hg
  | generate t id l o => exact kept.generate t id l o hg

theorem keptBy_after {P : Cache → Prop} (events : List (FileSource × Event))
    (kept : ∀ e ∈ events, Cache.KeptBy P e.1) (hg : P g.cache) : P (g.after events).cache := by
  induction events generalizing g with
  | nil => exact hg
  | cons first rest ih =>
    obtain ⟨hfirst, hrest⟩ := List.forall_mem_cons.1 kept
    exact ih hrest (keptBy_happen hfirst hg first.2)

/-- The images are apart, and each of them is in the cache. -/
structure Sound (g : Gathering) : Prop where
  formed : g.cache.WellFormed
  nodup : g.images.Nodup
  cached : ∀ id ∈ g.images, ∃ a ∈ g.cache.assets, a.id = id

theorem sound_start : start.Sound :=
  ⟨Cache.wellFormed_empty, List.nodup_nil, List.forall_mem_nil _⟩

end Gathering

/-- Assets stay in the cache, as far as their identities go. -/
theorem Cache.keptBy_mem_ids (source : FileSource) (id : Nat) :
    KeptBy (fun c => ∃ a ∈ c.assets, a.id = id) source where
  resolve d c h := by
    obtain ⟨a, ha, rfl⟩ := h
    obtain ⟨b, hb, same⟩ := (keptBy_same source a).resolve d c ⟨a, ha, rfl⟩
    exact ⟨b, hb, by rw [same]⟩
  reread id' c h := by
    obtain ⟨a, ha, rfl⟩ := h
    obtain ⟨b, hb, same⟩ := (keptBy_same source a).reread id' c ⟨a, ha, rfl⟩
    exact ⟨b, hb, by rw [same]⟩

namespace Gathering

variable {source : FileSource} {g : Gathering} {a : Asset}

/-- The images after an event are those before, and possibly a new one that the cache has. -/
theorem images_happen (formed : g.cache.WellFormed) (event : Event) :
    (g.happen source event).images = g.images ∨
      ∃ a ∈ g.cache.assets, a.id ∉ g.images ∧
        (g.happen source event).images = g.images ++ [a.id] := by
  cases event with
  | add id =>
    unfold happen
    dsimp only
    cases hasset : g.cache.asset? id with
    | none => exact Or.inl rfl
    | some a =>
      have ha := (formed.asset?_eq_some.1 hasset).1
      exact (adds source formed ha).images.imp_right fun new => ⟨a, ha, new⟩
  | call call => exact Or.inl rfl
  | generate t id l o => exact Or.inl rfl

theorem Sound.happen (h : g.Sound) (source : FileSource) (event : Event) :
    (g.happen source event).Sound := by
  have kept {id : Nat} (hid : ∃ a ∈ g.cache.assets, a.id = id) :
      ∃ a ∈ (g.happen source event).cache.assets, a.id = id :=
    keptBy_happen (Cache.keptBy_mem_ids source id) hid event
  have formed := keptBy_happen (Cache.keptBy_wellFormed source) h.formed event
  rcases images_happen h.formed event with heq | ⟨a, ha, first, heq⟩
  · refine ⟨formed, heq ▸ h.nodup, fun id hid => ?_⟩
    rw [heq] at hid
    exact kept (h.cached id hid)
  · refine ⟨formed, ?_, fun id hid => ?_⟩
    · rw [heq]
      refine List.nodup_append.2 ⟨h.nodup, List.nodup_singleton _, fun id hid other ho same => ?_⟩
      rw [List.mem_singleton.1 ho] at same
      exact first (same ▸ hid)
    · rw [heq, List.mem_append, List.mem_singleton] at hid
      rcases hid with hid | rfl
      · exact kept (h.cached id hid)
      · exact kept ⟨a, ha, rfl⟩

/-- **The images are apart and in the cache at any time.** -/
theorem Sound.after (h : g.Sound) (events : List (FileSource × Event)) :
    (g.after events).Sound := by
  induction events generalizing g with
  | nil => exact h
  | cons first rest ih => exact ih (h.happen first.1 first.2)

/-! ## Fresh assets -/

end Gathering

namespace Cache

variable {source : FileSource} {c : Cache} {a : Asset}

/-- The cache has the asset of this identity with the bytes of its file as it is. -/
def HasFresh (source : FileSource) (id : Nat) (file : String) (c : Cache) : Prop :=
  c.WellFormed ∧ ∃ a ∈ c.assets, a.id = id ∧ a.filename = file ∧ isStale source a = false

/-- An asset stays fresh as long as the time of its file is the same. -/
theorem keptBy_hasFresh (id : Nat) {file : String} {source now : FileSource}
    (same : now.modified file = source.modified file) : KeptBy (HasFresh source id file) now where
  resolve d c h := by
    obtain ⟨formed, a, ha, hrest⟩ := h
    refine ⟨(keptBy_wellFormed now).resolve d c formed, ?_⟩
    rcases resolve_cache now d c with heq | ⟨payload, time, -, -, -, heq⟩
    · rw [heq]
      exact ⟨a, ha, hrest⟩
    · rw [heq]
      exact ⟨a, mem_push.2 (Or.inl ha), hrest⟩
  reread id' c h := by
    obtain ⟨formed, a, ha, rfl, rfl, fresh⟩ := h
    refine ⟨(keptBy_wellFormed now).reread id' c formed, ?_⟩
    rcases reread_cache now id' c with heq | ⟨x, payload, hx, -, heq⟩
    · rw [heq]
      exact ⟨a, ha, rfl, rfl, fresh⟩
    · rw [heq]
      refine ⟨_, mem_withBytes.2 ⟨a, ha, rfl⟩, ?_⟩
      split
      · next hid =>
        -- the asset itself was read again, at the time that its file still has
        obtain ⟨hx, hxid⟩ := formed.asset?_eq_some.1 hx
        obtain rfl := formed.eq_of_id_eq ha hx (hid.trans hxid.symm)
        rw [same]
        exact ⟨rfl, rfl, isStale_withTime source a payload⟩
      · exact ⟨rfl, rfl, fresh⟩

end Cache

namespace Gathering

variable {source : FileSource} {g g' : Gathering} {a : Asset} {r : Except Fault Bool}

/-- After an addition that took an asset in, the cache has it fresh. -/
theorem Adds.hasFresh (h : Adds source a g r g') (formed : g.cache.WellFormed)
    (ha : a ∈ g.cache.assets) (hr : r = .ok true) :
    g'.cache.HasFresh source a.id a.filename := by
  cases h with
  | known => cases hr
  | current _ fresh => exact ⟨formed, a, ha, rfl, rfl, fresh⟩
  | @reread payload =>
    refine ⟨formed.withBytes _ _ _, _, Cache.mem_withBytes_self ha payload _, rfl, rfl, ?_⟩
    exact Cache.isStale_withTime source a payload
  | spoilt => cases hr

/-! ## Additions at any time -/

/-- What an addition of an asset comes to, by its answer. -/
structure Added (source : FileSource) (a : Asset) (g : Gathering) (r : Except Fault Bool)
    (g' : Gathering) : Prop where
  /-- The asset is new if and only if it was missing and now comes last. -/
  new_iff : r = .ok true ↔ a.id ∉ g.images ∧ g'.images = g.images ++ [a.id]
  known_iff : r = .ok false ↔ a.id ∈ g.images
  /-- It fails only for a new asset whose file changed and cannot be read. -/
  failed_iff : (∃ fault, r = .error fault) ↔
    a.id ∉ g.images ∧ Cache.isStale source a = true ∧
      ∃ reason, source.load a.filename = .error reason
  /-- For an asset that is known, nothing is done, also when its file changed. -/
  known : r = .ok false → g' = g
  /-- Nor is anything done when it fails. -/
  failed : ∀ fault, r = .error fault → g' = g
  /-- What is new is not stale, whatever happens while the file has the same time. -/
  fresh : r = .ok true → ∀ events : List (FileSource × Event),
    (∀ e ∈ events, e.1.modified a.filename = source.modified a.filename) →
      ∃ b, (g'.after events).cache.asset? a.id = some b ∧ Cache.isStale source b = false

theorem Adds.added (h : Adds source a g r g') (formed : g.cache.WellFormed)
    (ha : a ∈ g.cache.assets) : Added source a g r g' where
  new_iff := by
    cases h with
    | known known => simp [known]
    | current first | reread first => simp [first]
    | spoilt => simp
  known_iff := by
    cases h with
    | known known => simp [known]
    | current first | reread first | spoilt first => simp [first]
  failed_iff := by
    cases h with
    | known known => simp [known]
    | current _ fresh => simp [fresh]
    | reread _ _ load => simp [load]
    | spoilt first stale load => simp [first, stale, load]
  known hr := by
    cases h with
    | known | spoilt => rfl
    | current | reread => cases hr
  failed fault hr := by
    cases h with
    | known | spoilt => rfl
    | current | reread => cases hr
  fresh hr events same := by
    have fresh := h.hasFresh formed ha hr
    obtain ⟨later, b, hb, hid, -, hstale⟩ := keptBy_after events
      (fun e he => Cache.keptBy_hasFresh a.id (same e he)) fresh
    exact ⟨b, later.asset?_eq_some.2 ⟨hb, hid⟩, hstale⟩

/-- The assets of the images, each once and in the order of their array names. -/
structure Ordered (g : Gathering) : Prop where
  perm : g.assets.Perm (g.images.filterMap g.cache.asset?)
  ids_eq : (g.images.filterMap g.cache.asset?).map Asset.id = g.images
  sorted : g.assets.Pairwise fun a b => a.arrayName < b.arrayName

theorem Sound.ordered (h : g.Sound) : g.Ordered where
  perm := List.mergeSort_perm _ _
  ids_eq := by
    have found : ∀ id ∈ g.images, (g.cache.asset? id).map Asset.id = some id := by
      intro id hid
      obtain ⟨a, ha, heq⟩ := h.cached id hid
      rw [h.formed.asset?_eq_some.2 ⟨ha, heq⟩, Option.map_some, heq]
    rw [List.map_filterMap, List.filterMap_congr found, List.filterMap_some]
  sorted := by
    have sorted : g.assets.Pairwise fun a b => decide (a.arrayName ≤ b.arrayName) = true := by
      refine List.pairwise_mergeSort (fun a b c hab hbc => ?_) (fun a b => ?_) _
      · exact decide_eq_true (String.le_trans (of_decide_eq_true hab) (of_decide_eq_true hbc))
      · rw [Bool.or_eq_true, decide_eq_true_eq, decide_eq_true_eq]
        exact String.le_total _ _
    -- no array name is there twice
    have apart := List.pairwise_map.1 (Embedded.nodup_assets h.formed h.nodup)
    refine (sorted.and apart).imp fun {a b} hab => ?_
    exact String.not_le.1 fun hge => hab.2 (String.le_antisymm (of_decide_eq_true hab.1) hge)

/-- **The images of a form are a set at any time**, whatever was added before, and whatever others
did with the cache and the files. An addition adds what is new, and does nothing else. -/
theorem added_after (events : List (FileSource × Event)) :
    let g := start.after events
    g.images.Nodup ∧ g.Ordered ∧
      ∀ source, ∀ a ∈ g.cache.assets, Added source a g (g.add source a).1 (g.add source a).2 := by
  have sound : (start.after events).Sound := sound_start.after events
  exact ⟨sound.nodup, sound.ordered, fun source a ha =>
    (adds source sound.formed ha).added sound.formed ha⟩

/-! ## A file that changes -/

/-- One image file, with its byte written at a time. -/
def logoFiles (byte : UInt8) (time : Int) : FileSource :=
  (MemoryFiles.empty.put "logo.png" [byte] time).source

/-- The image is resolved and added. -/
def logoEvents : List (FileSource × Event) :=
  [(logoFiles 1 0, .call (.resolveText "Embed;logo.png")), (logoFiles 1 0, .add 0)]

/-- The asset of the file, as it was read first. -/
def logoAsset : Asset :=
  { id := 0, filename := "logo.png", arrayName := "logo_png", kind := .embed, payload := [1],
    sourceTime := some 0 }

/-- When the file has changed since, the image is known and keeps its bytes. -/
theorem added_logoAsset :
    let g := start.after logoEvents
    logoAsset ∈ g.cache.assets ∧ g.images = [0] ∧
      Cache.isStale (logoFiles 2 5) logoAsset = true ∧
      g.add (logoFiles 2 5) logoAsset = (.ok false, g) := by
  have cached : logoAsset ∈ (start.after logoEvents).cache.assets := by decide +kernel
  have images : (start.after logoEvents).images = [0] := by decide +kernel
  have added := (added_after logoEvents).2.2 (logoFiles 2 5) logoAsset cached
  have known := added.known_iff.2 (by rw [images]; exact List.mem_singleton_self _)
  exact ⟨cached, images, by decide +kernel, Prod.ext known (added.known known)⟩

end Gathering

end FormDesign
