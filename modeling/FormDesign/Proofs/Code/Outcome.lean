import FormDesign.Proofs.Code.RecastOutput
import FormDesign.Proofs.Image.Calls
import FormDesign.Proofs.Image.Unreadable

/-!
# When generation fails

Generation of a node either fails for one of four reasons or gives an output. The first three
reasons lie in the node and the language. The last one is a file that stops the pass over the images
of a form. Whatever else is wrong with a form is a warning of the output, at most.

* `GenerationFails`: the reasons, each with its fault
* `Delivers`: what the output is otherwise
* `generateSource_outcome`: generation comes to one of them, and which of them
-/

namespace FormDesign

variable {t : Tree} {id : Nat} {l : Language} {o : Options} {source : FileSource} {c : Cache}

/-- The kinds that hold forms or images of a project. -/
theorem Kind.isOutline_iff {k : Kind} :
    k.isOutline = true ↔ k = .project ∨ k = .folder ∨ k = .images := by
  cases k <;> decide

theorem Kind.isOutline_eq_false {k : Kind} (form : k.isForm = true) : k.isOutline = false := by
  rw [Kind.isForm, beq_iff_eq] at form
  rw [Kind.isOutline, form]

namespace Form

variable {f : Form}

/-- The texts of the image properties, in the order of the tree. -/
def imageTexts (f : Form) : List String :=
  f.elements.flatMap Element.imageTexts

/-- The pass over the images of a form is stopped by a file. -/
theorem images_eq_error_iff {artDirectory : String} {fault : Fault} (hc : c.WellFormed) :
    (f.images source artDirectory c).1 = .error fault ↔
      ∃ path reason, StoppedBy source artDirectory f.imageTexts .empty c path reason ∧
        fault = .imagePass (.unreadable path reason) := by
  have wrapped : (f.images source artDirectory c).1 = .error fault ↔
      ∃ cause, (collectImages source artDirectory f.imageTexts .empty c).1 = .error cause ∧
        fault = .imagePass cause := by
    unfold images imageTexts
    rcases collectImages source artDirectory _ .empty c with ⟨cause | t, c'⟩ <;> simp [eq_comm]
  have current : ImageTable.empty.embedded.Current source c := Embedded.current_nil
  rw [wrapped]
  simp only [collectImages_eq_error_iff hc current]
  constructor
  · rintro ⟨_, ⟨path, reason, stopped, rfl⟩, rfl⟩
    exact ⟨path, reason, stopped, rfl⟩
  · rintro ⟨path, reason, stopped, rfl⟩
    exact ⟨_, ⟨path, reason, stopped, rfl⟩, rfl⟩

/-- C++ has a header besides the source. -/
theorem files_output {d : Dialect} {c : Collected} :
    (f.output d o c).files.length = if d = .cpp then 2 else 1 := by
  cases d <;> rfl

end Form

/-- Why a node is not generated, with the fault that tells it. -/
inductive GenerationFails (t : Tree) (id : Nat) (l : Language) (o : Options) (source : FileSource)
    (c : Cache) : Fault → Prop
  /-- There is no such node. -/
  | unknownNode (unknown : t.get? id = none) :
      GenerationFails t id l o source c (.unknownNode id)
  /-- The node is no form, and nothing that holds forms or images. -/
  | notAForm {n : Node} (node : t.get? id = some n) (form : n.kind.isForm = false)
      (outline : n.kind ≠ .project ∧ n.kind ≠ .folder ∧ n.kind ≠ .images) :
      GenerationFails t id l o source c (.notAForm n.kind)
  /-- The language has no code. -/
  | noGenerator {n : Node} (node : t.get? id = some n) (form : n.kind.isForm = true)
      (language : l = .resource) : GenerationFails t id l o source c (.noGenerator .resource)
  /-- A file stops the pass over the images of the form. -/
  | images {f : Form} {d : Dialect} {path reason : String} (form : Form.ofTree t id = .ok f)
      (language : l = .source d) (covered : d.supports f.node.kind = true)
      (stopped : StoppedBy source o.artDirectory f.imageTexts .empty c path reason) :
      GenerationFails t id l o source c (.imagePass (.unreadable path reason))

/-- What generation of a node delivers. -/
inductive Delivers (n : Node) (l : Language) (output : FormOutput) : Prop
  /-- There is nothing to generate, or the dialect does not cover the form. -/
  | ignored (node : (n.kind = .project ∨ n.kind = .folder ∨ n.kind = .images) ∨
        n.kind.isForm = true ∧ ∃ d, l = .source d ∧ d.supports n.kind = false)
      (code : output.code = .ignored) (files : output.files = [])
  /-- The files of a form. -/
  | written {d : Dialect} (form : n.kind.isForm = true) (language : l = .source d)
      (covered : d.supports n.kind = true) (code : output.code = .needsWriting)
      (files : output.files.length = if d = .cpp then 2 else 1)

/-- Generation of a form that the dialect covers fails when its images do. -/
theorem generateSource_eq_error_iff {f : Form} (hf : Form.ofTree t id = .ok f) {d : Dialect}
    (covered : d.supports f.node.kind = true) {fault : Fault} :
    (generateSource t id (.source d) o source c).1 = .error fault ↔
      (f.images source o.artDirectory c).1 = .error fault := by
  rw [generateSource_eq hf covered, Form.generate]
  rcases f.images source o.artDirectory c with ⟨cause | table, c'⟩ <;> simp

/-- Each reason makes generation fail. -/
theorem GenerationFails.eq_error (hc : c.WellFormed) {fault : Fault}
    (h : GenerationFails t id l o source c fault) :
    (generateSource t id l o source c).1 = .error fault := by
  cases h with
  | unknownNode unknown => rw [generateSource, unknown]
  | notAForm node form outline =>
    have inner := Kind.isOutline_iff.not.2 (by tauto)
    simp [generateSource, node, form, inner]
  | noGenerator node form language =>
    have inner := Kind.isOutline_eq_false form
    simp [generateSource, node, form, inner, language]
  | @images f d path reason form language covered stopped =>
    rw [language, generateSource_eq_error_iff form covered, Form.images_eq_error_iff hc]
    exact ⟨path, reason, stopped, rfl⟩

/-- Generation fails for one of the reasons, or it delivers. -/
theorem fails_or_delivers (hc : c.WellFormed) :
    (∃ fault, GenerationFails t id l o source c fault) ∨
      ∃ output n, (generateSource t id l o source c).1 = .ok output ∧ t.get? id = some n ∧
        Delivers n l output := by
  cases hn : t.get? id with
  | none => exact Or.inl ⟨_, .unknownNode hn⟩
  | some n =>
    by_cases outline : n.kind.isOutline = true
    · refine Or.inr ⟨.ignored n.className l [], n, ?_, rfl, ?_⟩
      · simp [generateSource, hn, outline]
      · exact .ignored (Or.inl (Kind.isOutline_iff.1 outline)) rfl rfl
    · cases form : n.kind.isForm with
      | false =>
        have inner := Kind.isOutline_iff.not.1 outline
        exact Or.inl ⟨_, .notAForm hn form (by tauto)⟩
      | true =>
        cases l with
        | resource => exact Or.inl ⟨_, .noGenerator hn form rfl⟩
        | source d =>
          cases covered : d.supports n.kind with
          | false =>
            refine Or.inr ⟨_, n, by simp [generateSource, hn, outline, form, covered]; rfl, rfl, ?_⟩
            exact .ignored (Or.inr ⟨form, d, rfl, covered⟩) rfl rfl
          | true =>
            obtain ⟨f, hf, rfl⟩ := Form.exists_ofTree hn form
            rcases images : f.images source o.artDirectory c with ⟨fault | table, c'⟩
            · obtain ⟨path, reason, stopped, -⟩ :=
                (Form.images_eq_error_iff hc).1 (congrArg Prod.fst images)
              exact Or.inl ⟨_, .images hf rfl covered stopped⟩
            · let output := f.output d o (f.collected d table c')
              refine Or.inr ⟨output, f.node, ?_, rfl, .written form rfl covered rfl f.files_output⟩
              rw [generateSource_eq hf covered, Form.generate, images]

/-- **When generation of a node fails.** With whatever the cache was used for before, generation
fails for the four reasons and with their faults, and else it delivers. Which files the pass over
the images reads depends on what it took in before, but the cache at the beginning tells whether one
stops it. -/
theorem generateSource_outcome (t : Tree) (id : Nat) (l : Language) (o : Options)
    (source : FileSource) (calls : List (FileSource × Cache.Call)) :
    let c := Cache.empty.after calls
    let result := (generateSource t id l o source c).1
    (∀ fault, result = .error fault ↔ GenerationFails t id l o source c fault) ∧
      ((∃ fault, GenerationFails t id l o source c fault) ∨
        ∃ output n, result = .ok output ∧ t.get? id = some n ∧ Delivers n l output) ∧
      ∀ f : Form,
        (∃ path reason, StoppedBy source o.artDirectory f.imageTexts .empty c path reason) ↔
          ∃ text ∈ f.imageTexts, Unreadable source text c := by
  intro c result
  have hc : c.WellFormed := Cache.KeptBy.after Cache.keptBy_wellFormed Cache.wellFormed_empty calls
  refine ⟨fun fault => ⟨fun failed => ?_, GenerationFails.eq_error hc⟩, fails_or_delivers hc,
    fun f => exists_stoppedBy_iff hc Embedded.current_nil⟩
  rcases fails_or_delivers hc with ⟨fault', fails⟩ | ⟨output, n, delivered, -⟩
  · have heq : fault = fault' := Except.error.inj (failed.symm.trans (fails.eq_error hc))
    exact heq ▸ fails
  · cases failed.symm.trans delivered

end FormDesign
