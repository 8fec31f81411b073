import FormDesign.Project.Run
import FormDesign.Proofs.Image.Cache

/-!
# Caches that can come up

A cache starts out empty. From then on files are resolved, assets are read again, and forms are
generated, each at its own time and so with files of its own. What the first two keep is also kept
by generation, as generation does nothing else to a cache.

* `generate_cases`: what generation of a node may come to
* `Cache.KeptBy.generate`: generation keeps what the operations of the cache keep
* `Cache.Reached.kept`: what is kept holds of every cache that can come up
-/

namespace FormDesign

/-- Generation of a node is that of a form, or it does not look at the cache: resources have no
images in them, and other nodes are passed over or refused. -/
theorem generate_cases (t : Tree) (id : Nat) (l : Language) (o : Options) (source : FileSource) :
    (∃ r, ∀ c, generate t id l o source c = (r, c)) ∨
      ∃ (f : Form) (d : Dialect), ∀ c, generate t id l o source c = f.generate d o source c := by
  cases l with
  | resource => exact Or.inl ⟨_, fun c => rfl⟩
  | source d =>
    unfold generate generateSource
    cases t.get? id with
    | none => exact Or.inl ⟨_, fun c => rfl⟩
    | some n =>
      dsimp only
      split
      · exact Or.inl ⟨_, fun c => rfl⟩
      · split
        · exact Or.inl ⟨_, fun c => rfl⟩
        · split
          · exact Or.inl ⟨_, fun c => rfl⟩
          · cases Form.ofTree t id with
            | error fault => exact Or.inl ⟨_, fun c => rfl⟩
            | ok f => exact Or.inr ⟨f, d, fun c => rfl⟩

namespace Cache

/-! ## Generation and the cache -/

namespace KeptBy

variable {P : Cache → Prop} {source : FileSource} {c : Cache}

theorem add (h : KeptBy P source) (a : Asset) (images : Embedded) (hc : P c) :
    P (images.add source a c).2 := by
  unfold Embedded.add
  split
  · exact hc
  · split
    · have hread := h.reread a.id c hc
      split
      · next heq => rwa [heq] at hread
      · next heq => rwa [heq] at hread
    · exact hc

theorem embedImage (h : KeptBy P source) (d : ImageDescription) (t : ImageTable) (hc : P c) :
    P (embedImage source d t c).2 := by
  have hresolved := h.resolve d c hc
  unfold FormDesign.embedImage
  split
  · next a c' heq =>
    rw [heq] at hresolved
    have hadded := h.add a t.embedded hresolved
    split
    · next heq => rwa [heq] at hadded
    · next heq => rwa [heq] at hadded
  · next heq => rwa [heq] at hresolved
  · next heq => rwa [heq] at hresolved
  · next heq => rwa [heq] at hresolved

theorem collectImage (h : KeptBy P source) (artDirectory text : String) (t : ImageTable)
    (hc : P c) : P (collectImage source artDirectory text t c).2 := by
  unfold FormDesign.collectImage
  split
  · exact hc
  · next d _ =>
    split
    · exact h.embedImage d t hc
    · exact h.embedImage d t hc
    · exact hc
    · exact hc
    · exact hc

theorem collectImages (h : KeptBy P source) (artDirectory : String) (texts : List String)
    (t : ImageTable) (hc : P c) : P (collectImages source artDirectory texts t c).2 := by
  induction texts generalizing t c with
  | nil => exact hc
  | cons text rest ih =>
    have hfirst := h.collectImage artDirectory text t hc
    rw [FormDesign.collectImages]
    split
    · next t' c' heq =>
      rw [heq] at hfirst
      exact ih t' hfirst
    · next heq => rwa [heq] at hfirst

theorem formGenerate (h : KeptBy P source) (f : Form) (d : Dialect) (o : Options) (hc : P c) :
    P (f.generate d o source c).2 := by
  have hpass := h.collectImages o.artDirectory (f.elements.flatMap Element.imageTexts) .empty hc
  unfold Form.generate Form.images
  rcases heq : FormDesign.collectImages source o.artDirectory
    (f.elements.flatMap Element.imageTexts) .empty c with ⟨fault | t, c'⟩
  · rwa [heq] at hpass
  · rwa [heq] at hpass

/-- Generation keeps what the operations of the cache keep. -/
theorem generate (h : KeptBy P source) (t : Tree) (id : Nat) (l : Language) (o : Options)
    (hc : P c) : P (generate t id l o source c).2 := by
  rcases generate_cases t id l o source with ⟨r, heq⟩ | ⟨f, d, heq⟩
  · rw [heq]
    exact hc
  · rw [heq]
    exact h.formGenerate f d o hc

end KeptBy

/-! ## The caches that come up -/

/-- The caches that come up while the files are always as one of the sources has them. -/
inductive Reached (seen : FileSource → Prop) : Cache → Prop
  | empty : Reached seen .empty
  | resolve {source : FileSource} {c : Cache} (now : seen source) (before : Reached seen c)
      (d : ImageDescription) : Reached seen (c.resolve source d).2
  | reread {source : FileSource} {c : Cache} (now : seen source) (before : Reached seen c)
      (id : Nat) : Reached seen (c.reread source id).2
  | generate {source : FileSource} {c : Cache} (now : seen source) (before : Reached seen c)
      (t : Tree) (id : Nat) (l : Language) (o : Options) :
      Reached seen (generate t id l o source c).2

namespace Reached

variable {seen : FileSource → Prop} {c : Cache}

/-- What holds at first and is kept by the operations holds of every cache that comes up. -/
theorem kept {P : Cache → Prop} (h : Reached seen c) (empty : P .empty)
    (step : ∀ source, seen source → KeptBy P source) : P c := by
  induction h with
  | empty => exact empty
  | resolve now _ d ih => exact (step _ now).resolve d _ ih
  | reread now _ id ih => exact (step _ now).reread id _ ih
  | generate now _ t id l o ih => exact (step _ now).generate t id l o ih

theorem wellFormed (h : Reached seen c) : c.WellFormed :=
  h.kept wellFormed_empty fun source _ => keptBy_wellFormed source

/-- Resolving the text of a property is no more than resolving its description. -/
theorem resolveText {source : FileSource} (now : seen source) (h : Reached seen c)
    (text : String) : Reached seen (c.resolveText source text).2 := by
  unfold Cache.resolveText
  split
  · exact h
  · next d _ => exact .resolve now h d

end Reached

end Cache

end FormDesign
