import FormDesign.Proofs.Code.Stretch

/-!
# Sizers are filled in order

A node is put into the sizer around it when everything below it exists, and before construction
comes to its next sibling. The sizer itself is attached when it is full.

* `Site.attach_of_inSizer`, `Site.attach_of_isSizer`: how an object is attached
* `Construction.exists_added`: an object is added to its sizer once, at the end of its stretch
* `Construction.exists_attached`: a sizer is attached once, at the end of its stretch
* `fillsSizers_of_ofTree`: so it is in every method of a form
-/

namespace FormDesign

/-! ## Steps that attach -/

namespace Step

/-- The step adds an object to a sizer. -/
def Adds (sizer object : Var) (st : Step) : Prop :=
  ∃ placement, st = call (.var sizer) "Add" (.var object :: placement)

/-- The step attaches a sizer: it adds it to another sizer, or gives it to a window. -/
def Attaches (object : Var) (st : Step) : Prop :=
  (∃ sizer, st.Adds sizer object) ∨
    ∃ target rest, st = call target "SetSizerAndFit" (.var object :: rest)

variable {object : Var}

theorem AddsNothing.not_adds {st : Step} (h : st.AddsNothing) (sizer object : Var) :
    ¬st.Adds sizer object := by
  rintro ⟨placement, rfl⟩
  cases h _ List.mem_cons_self

@[simp] theorem not_attaches_create (v : Var) (className : String) (args : List Expr)
    (initMethod : Option String) :
    ¬(stmt (.create v className args initMethod)).Attaches object := by
  rintro (⟨sizer, placement, h⟩ | ⟨target, rest, h⟩) <;> cases h

@[simp] theorem not_attaches_call {method : String} (hadd : method ≠ "Add")
    (hset : method ≠ "SetSizerAndFit") (target : Target) (args : List Expr) :
    ¬(call target method args).Attaches object := by
  rintro (⟨sizer, placement, h⟩ | ⟨target, rest, h⟩)
  · exact hadd (Stmt.call.inj (Step.stmt.inj h)).2.1
  · exact hset (Stmt.call.inj (Step.stmt.inj h)).2.1

end Step

namespace Site

variable {s : Site} {p : Place} {i : Item}

/-- An object in a sizer is added to it. -/
theorem attach_of_inSizer (parent : p.parent? = some i) (sizer : i.kind.isSizer = true) :
    ∃ st, s.attach p = [st] ∧ st.Adds (s.var i) (s.var p.item) := by
  unfold attach
  rw [parent]
  dsimp only
  rw [if_pos sizer]
  exact ⟨_, rfl, _, rfl⟩

/-- A sizer is added to the sizer around it, or given to the window that it stands in. -/
theorem attach_of_isSizer (parent : p.parent? = some i) (h : p.kind.isSizer = true) :
    ∃ st, s.attach p = [st] ∧ st.Attaches (s.var p.item) := by
  by_cases sizer : i.kind.isSizer = true
  · obtain ⟨st, heq, adds⟩ := attach_of_inSizer (s := s) parent sizer
    exact ⟨st, heq, Or.inl ⟨_, adds⟩⟩
  · unfold attach
    rw [parent]
    dsimp only
    rw [if_neg sizer, if_pos h]
    exact ⟨_, rfl, Or.inr ⟨_, _, rfl⟩⟩

theorem finish_of_isSizer (h : p.kind.isSizer = true) : s.finish p = s.attach p := by
  unfold finish
  dsimp only
  cases hk : p.kind
  all_goals first
    | rfl
    | rw [hk] at h
      cases h

/-- Creating a sizer attaches none. -/
theorem not_attaches_createNode (h : p.kind.isSizer = true) (object : Var) :
    Step.Each (fun st => ¬st.Attaches object) (s.createNode p) := by
  have category : p.kind.category = .sizer := beq_iff_eq.1 h
  unfold createNode
  rw [category]
  simp [createSizer]

end Site

/-! ## In a method -/

namespace Construction

variable {f : Form} {d : Dialect} {c : Collected} {m : Construction}

/-- **An object is added to its sizer once**, after all that is below it and before the siblings
that follow it. -/
theorem exists_added (h : f.Sound) (hm : m ∈ f.constructions d c) {above : List Item} {outer : Item}
    {front back : List (Branch Item)} {b : Branch Item}
    (hq : ⟨above, .mk outer (front ++ b :: back)⟩ ∈ Branch.places f.above f.branch)
    (sizer : outer.kind.isSizer = true) (outerCreated : m.Creates outer)
    (created : m.Creates b.label) (laidOut : b.label.kind.isLaidOut = true) :
    ∃ before x after,
      Traced.IsOnly
          (Traced.Does b.label.node (Step.Adds (m.site.var outer) (m.site.var b.label)))
          m.trace before x after ∧
        (∀ y ∈ after, ¬y.IsWithin b.label.node) ∧
        ∀ later ∈ back, ∀ y ∈ before, ¬y.IsWithin later.label.node := by
  have apart := h.apart.of_mem_places hq
  have hb : b ∈ front ++ b :: back := List.mem_append_right _ List.mem_cons_self
  have hchild : ⟨outer :: above, b⟩ ∈ Branch.places f.above f.branch :=
    Branch.places_subset hq (Branch.child_mem_places above (b := .mk outer (front ++ b :: back)) hb)
  have construction := Kind.hasConstruction_of_isLaidOut (Kind.isLaidOut_of_isSizer sizer)
  obtain ⟨stretch, outerCreates⟩ := outerCreated.hasStretch h hm hq rfl construction
  obtain ⟨-, creates⟩ :=
    created.hasStretch h hm hchild rfl (Kind.hasConstruction_of_isLaidOut laidOut)
  obtain ⟨pre, blocks, before, post, split, outside, apartLater⟩ :=
    stretch.exists_child apart outerCreates
  -- the stretch of the object ends with the call
  let p := b.standing (outer :: above) before
  obtain ⟨st, attached, adds⟩ := Site.attach_of_inSizer (s := m.site) (p := p) rfl sizer
  obtain ⟨own, finished, nothing⟩ : ∃ own, m.site.finish p = own ++ [st] ∧
      Step.Each Step.AddsNothing own := by
    rcases Site.finish_eq (s := m.site) (p := p) laidOut with ⟨own, heq, nothing⟩ | ⟨form, -⟩
    · exact ⟨own, attached ▸ heq, nothing⟩
    · have inSizer : p.inSizer = true := sizer
      cases inSizer.symm.trans (Site.inSizer_of_isChildOfForm form)
  obtain ⟨inner, x, -, only⟩ := Site.isOnly_of_finish_eq blocks
    (h.apart.of_mem_places hchild) creates finished adds
    ((Site.addsNothing_createNode (p := p) laidOut).imp fun _ h => h.not_adds _ _)
    (nothing.imp fun _ h => h.not_adds _ _)
  have whole := only.surround outside
  rw [← split] at whole
  refine ⟨_, _, _, whole, fun y hy => ?_, fun later hl y hy => ?_⟩
  · exact (outside y (List.mem_append_right _ hy)).not_isWithin b.node_label_mem_nodes
  · have hy : y ∈ pre ++ m.site.traceNode blocks (outer :: above) before b := by
      rw [only.split]
      rcases List.mem_append.1 hy with hy | hy
      · exact List.mem_append_left _ hy
      · exact List.mem_append_right _ (List.mem_append_left _ hy)
    exact (apartLater later hl y hy).not_isWithin later.node_label_mem_nodes

/-- **A sizer is attached once**, after all that is in it. -/
theorem exists_attached (h : f.Sound) (hm : m ∈ f.constructions d c) {q : Branch.Place Item}
    (hq : q ∈ Branch.places f.above f.branch) (sizer : q.label.kind.isSizer = true)
    (created : m.Creates q.label) :
    ∃ before x after,
      Traced.IsOnly (Traced.Does q.label.node (Step.Attaches (m.site.var q.label))) m.trace before
          x after ∧
        ∀ y ∈ after, ¬y.IsWithin q.label.node := by
  obtain ⟨⟨front, blocks, before, back, split, outside⟩, creates⟩ := created.hasStretch h hm hq rfl
    (Kind.hasConstruction_of_isLaidOut (Kind.isLaidOut_of_isSizer sizer))
  -- a sizer is not the form, so it stands in something
  obtain ⟨parent, above, habove⟩ : ∃ parent above, q.above = parent :: above := by
    rw [Branch.places_eq] at hq
    rcases List.mem_cons.1 hq with rfl | hq
    · have form := beq_iff_eq.1 h.isForm
      have sizer := beq_iff_eq.1 sizer
      cases form.symm.trans sizer
    · obtain ⟨zs, hzs, -⟩ := Branch.exists_above_of_mem_placesAll hq
      rw [hzs]
      cases zs with
      | nil => exact ⟨_, _, rfl⟩
      | cons z zs => exact ⟨_, _, rfl⟩
  let p := q.branch.standing q.above before
  have hparent : p.parent? = some parent := by
    show q.above.head? = some parent
    rw [habove]
    rfl
  obtain ⟨st, attached, attaches⟩ := Site.attach_of_isSizer (s := m.site) (p := p) hparent sizer
  have finished : m.site.finish p = [] ++ [st] :=
    (Site.finish_of_isSizer (p := p) sizer).trans attached
  obtain ⟨inner, x, -, only⟩ := Site.isOnly_of_finish_eq blocks
    (h.apart.of_mem_places hq) creates finished attaches
    (Site.not_attaches_createNode (p := p) sizer _) Step.each_nil
  have whole := only.surround outside
  rw [← split] at whole
  exact ⟨_, _, _, whole, fun y hy =>
    (outside y (List.mem_append_right _ hy)).not_isWithin q.branch.node_label_mem_nodes⟩

/-- **Sizers are filled in the order of the design.** -/
structure FillsSizers (f : Form) (m : Construction) : Prop where
  /-- The trace is that of the method. -/
  leaves : Step.leavesAll [] m.steps = m.trace.map Traced.erase
  /-- A child of a sizer is added to it once, after every step for the child and for what is below
  it, and before every step for the siblings that follow. -/
  added : ∀ above outer front b back,
    ⟨above, .mk outer (front ++ b :: back)⟩ ∈ Branch.places f.above f.branch →
    outer.kind.isSizer = true → m.Creates outer →
    m.Creates b.label → b.label.kind.isLaidOut = true →
      ∃ before x after,
        Traced.IsOnly
            (Traced.Does b.label.node (Step.Adds (m.site.var outer) (m.site.var b.label)))
            m.trace before x after ∧
          (∀ y ∈ after, ¬y.IsWithin b.label.node) ∧
          ∀ later ∈ back, ∀ y ∈ before, ¬y.IsWithin later.label.node
  /-- A sizer is attached once, after every step for what is below it. -/
  attached : ∀ q ∈ Branch.places f.above f.branch, q.label.kind.isSizer = true →
    m.Creates q.label →
      ∃ before x after,
        Traced.IsOnly (Traced.Does q.label.node (Step.Attaches (m.site.var q.label))) m.trace before
            x after ∧
          ∀ y ∈ after, ¬y.IsWithin q.label.node

end Construction

/-- **Every method of a form fills its sizers in the order of the design.** -/
theorem fillsSizers_of_ofTree {t : Tree} (reachable : t.Reachable) {id : Nat} {f : Form}
    (hf : Form.ofTree t id = .ok f) (d : Dialect) (c : Collected) :
    ∀ m ∈ f.constructions d c, m.FillsSizers f := by
  intro m hm
  have sound := Form.sound_of_ofTree reachable hf
  exact
    { leaves := Form.leavesAll_of_mem_constructions hm
      added := fun _ _ _ _ _ hq sizer outer created laidOut =>
        Construction.exists_added sound hm hq sizer outer created laidOut
      attached := fun _ hq sizer created =>
        Construction.exists_attached sound hm hq sizer created }

/-- A dialog with two buttons above each other. -/
def stackedDesign : Design :=
  .mk (.ofKind .dialog)
    [.mk (.ofKind .verticalBoxSizer)
      [.mk ((Element.ofKind .button).setProp .varName "m_yes") [],
        .mk ((Element.ofKind .button).setProp .varName "m_no") []]]

/-- The sizer of that dialog. -/
def stackedSizer : Item where
  node :=
    { Element.ofKind .verticalBoxSizer with id := 1, parent := some 0, children := [2, 3] }
  name := "box_sizer"

/-- One of the buttons. -/
def stackedButton (id : Nat) (name : String) : Item where
  node :=
    { (Element.ofKind .button).setProp .varName name with
      id, parent := some 1, children := [] }
  name := name

/-- The form of that dialog. -/
def stackedDialog : Form where
  node := { Element.ofKind .dialog with id := 0, parent := none, children := [1] }
  children :=
    [.mk stackedSizer [.mk (stackedButton 2 "m_yes") [], .mk (stackedButton 3 "m_no") []]]
  above := []

/-- The constructor of the dialog creates the sizer and both buttons, and fills the sizer in
order. -/
theorem stackedDialog_fillsSizers :
    ∃ m ∈ stackedDialog.constructions .perl (stackedDialog.collected .perl .empty .empty),
      m.FillsSizers stackedDialog ∧ m.Creates stackedSizer ∧
        m.Creates (stackedButton 2 "m_yes") ∧ m.Creates (stackedButton 3 "m_no") := by
  have hf : Form.ofTree (.ofDesign stackedDesign) 0 = .ok stackedDialog := by
    with_unfolding_all rfl
  have once : stackedDesign.EventsOnce := by
    unfold Design.EventsOnce Element.EventsOnce
    decide
  refine ⟨_, List.mem_cons_self,
    fillsSizers_of_ofTree (.ofDesign once) hf .perl _ _ List.mem_cons_self, ?_, ?_, ?_⟩
  · exact ⟨_, List.mem_cons_self, rfl, _, rfl⟩
  · exact ⟨_, List.mem_cons_of_mem _ List.mem_cons_self, rfl, _, rfl⟩
  · exact ⟨_, List.mem_cons_of_mem _ (List.mem_cons_of_mem _ (List.mem_cons_of_mem _
      List.mem_cons_self)), rfl, _, rfl⟩

end FormDesign
