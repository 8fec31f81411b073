import FormDesign.Project.Run
import FormDesign.Proofs.Code.Moved
import FormDesign.Proofs.Resource.Above
import FormDesign.Proofs.Tree.Forms
import FormDesign.Proofs.Tree.Places

/-!
# The output of a form depends on the form

A form of a project, written down as a design, and the nearest platform selector above it are all
that its output depends on. Where its nodes stand in the tree, in which order they were added, and
what else is in the project has no influence, and so a form can be taken to another project without
a change to its files.

* `Form.exists_moved`: forms with one design are one form in two places
* `generateResource_eq`: the resource of a form
* `generate_eq_of_design_eq`: any language
-/

namespace FormDesign

/-! ## Names of variables -/

/-- What generation reads of an item. -/
def Item.view (i : Item) : Element × String := (i.element, i.name)

mutual

/-- Names are given by the elements. -/
theorem nameBranch_congr {b b' : Branch Node} (h : b'.map Node.toElement = b.map Node.toElement)
    (counts : NameCounts) :
    (nameBranch counts b').1.map Item.view = (nameBranch counts b).1.map Item.view ∧
      (nameBranch counts b').2 = (nameBranch counts b).2 := by
  obtain ⟨n, cs⟩ := b
  obtain ⟨n', cs'⟩ := b'
  rw [Branch.map, Branch.map] at h
  obtain ⟨hn, hcs⟩ := Branch.mk.inj h
  obtain ⟨hchildren, hcounts⟩ := nameBranches_congr hcs (nextName counts n.toElement).2
  simp only [nameBranch, hn, Branch.map, hchildren, hcounts, Item.view, Item.element, and_self]

theorem nameBranches_congr {bs bs' : List (Branch Node)}
    (h : Branch.mapAll Node.toElement bs' = Branch.mapAll Node.toElement bs)
    (counts : NameCounts) :
    Branch.mapAll Item.view (nameBranches counts bs').1
        = Branch.mapAll Item.view (nameBranches counts bs).1 ∧
      (nameBranches counts bs').2 = (nameBranches counts bs).2 := by
  cases bs with
  | nil =>
    cases bs' with
    | nil => exact ⟨rfl, rfl⟩
    | cons => cases h
  | cons b bs =>
    cases bs' with
    | nil => cases h
    | cons b' bs' =>
      rw [Branch.mapAll, Branch.mapAll] at h
      obtain ⟨hb, hbs⟩ := List.cons.inj h
      obtain ⟨hfirst, hcounts⟩ := nameBranch_congr hb counts
      obtain ⟨hrest, hcounts'⟩ := nameBranches_congr hbs (nameBranch counts b).2
      simp only [nameBranches, Branch.mapAll, hfirst, hcounts, hrest, hcounts', and_self]

end

/-! ## One form in two places -/

namespace Form

variable {t t' : Tree} {id id' : Nat} {f g : Form}

theorem sound_nodup_branch (hf : f.Sound) : f.branch.toList.Nodup := by
  have distinct := hf.nodup_ids
  rw [show (fun s : Spot => s.item.node.id) = (fun i : Item => i.node.id) ∘ Spot.item from rfl,
    ← List.map_map, spots, map_item_spotsOf] at distinct
  exact distinct.of_map _

/-- Forms with one design look the same, with the same names. -/
theorem view_branch_eq (hf : ofTree t id = .ok f) (hg : ofTree t' id' = .ok g)
    (design : t'.design id' = t.design id) : g.branch.map Item.view = f.branch.map Item.view := by
  obtain ⟨hid, cs, hbranch, -, hchildren, -⟩ := of_ofTree hf
  obtain ⟨hid', cs', hbranch', -, hchildren', -⟩ := of_ofTree hg
  have helements : (Branch.mk g.node cs').map Node.toElement
      = (Branch.mk f.node cs).map Node.toElement := by
    rw [Tree.design, Tree.design, Tree.branch?, Tree.branch?, dif_pos hid, dif_pos hid', hbranch,
      hbranch'] at design
    exact Except.ok.inj design
  rw [Branch.map, Branch.map] at helements
  obtain ⟨hnode, hbelow⟩ := Branch.mk.inj helements
  -- numbering starts afresh below each form
  have hnames := (nameBranches_congr hbelow []).1
  rw [← hchildren, ← hchildren'] at hnames
  rw [branch, branch, Branch.map, Branch.map, hnames]
  congr 1
  exact Prod.ext hnode rfl

/-- **Forms with one design are one form in two places**, if no book is above them and the nearest
selector there is the same. -/
theorem exists_moved (ht : t.Reachable) (hf : ofTree t id = .ok f) (hg : ofTree t' id' = .ok g)
    (design : t'.design id' = t.design id)
    (selector : (t'.platformContainer? id').bind (fun n => n.selector?)
      = (t.platformContainer? id).bind fun n => n.selector?)
    (noBook : ∀ n ∈ t.ancestors id, n.kind.isBook = false)
    (noBook' : ∀ n ∈ t'.ancestors id', n.kind.isBook = false) : ∃ r, f.Moved g r := by
  obtain ⟨-, -, -, -, -, habove⟩ := of_ofTree hf
  obtain ⟨-, -, -, -, -, habove'⟩ := of_ofTree hg
  obtain ⟨r, hrelabel, hview⟩ :=
    Branch.exists_relabel (sound_nodup_branch (sound_of_ofTree ht hf)) (view_branch_eq hf hg design)
  rw [branch, branch, Branch.map] at hrelabel
  obtain ⟨hitem, hitems⟩ := Branch.mk.inj hrelabel
  rw [t.selector?_platformContainer?, t'.selector?_platformContainer?] at selector
  have plain {tree : Tree} {k : Nat} (hplain : ∀ n ∈ tree.ancestors k, n.kind.isBook = false) :
      ∀ i ∈ (tree.ancestors k).map Item.nameless, i.kind.isBook = false :=
    List.forall_mem_map.2 hplain
  refine ⟨r, ?_⟩
  exact
    { relabelling := ⟨fun i => congrArg Prod.fst (hview i), fun i => congrArg Prod.snd (hview i)⟩
      isForm := isForm_of_ofTree hf
      item := hitem
      children := hitems
      selector := by
        rw [habove, habove', List.findSome?_map, List.findSome?_map]
        exact selector
      noBook := habove ▸ plain noBook
      noBook' := habove' ▸ plain noBook' }

end Form

/-! ## Generation -/

section

variable {t t' : Tree} {id id' : Nat} {n n' : Node}

/-- Of the node itself its element is in the design. -/
theorem Tree.element_eq_of_design_eq (hn : t.get? id = some n) (hn' : t'.get? id' = some n')
    (design : t'.design id' = t.design id) : n'.toElement = n.toElement := by
  obtain ⟨hid, rfl⟩ := Array.getElem?_eq_some_iff.1 hn
  obtain ⟨hid', rfl⟩ := Array.getElem?_eq_some_iff.1 hn'
  rw [Tree.design, Tree.design, branch?, branch?, dif_pos hid, dif_pos hid'] at design
  have hlabel := congrArg Branch.label (Except.ok.inj design)
  rwa [Branch.label_map, Branch.label_map, label_branchAt, label_branchAt] at hlabel

/-- The resource of a form, where neither sizers nor books are above it. -/
theorem generateResource_eq (hn : t.get? id = some n) (hn' : t'.get? id' = some n')
    (design : t'.design id' = t.design id)
    (plain : ∀ a ∈ t.ancestors id, a.kind.isSizer = false ∧ a.kind.isBook = false)
    (plain' : ∀ a ∈ t'.ancestors id', a.kind.isSizer = false ∧ a.kind.isBook = false)
    (o : Options) : generateResource t' id' o = generateResource t id o := by
  have helement := Tree.element_eq_of_design_eq hn hn' design
  have hover : Overhead ((t'.ancestors id').map Node.toElement)
      ((t.ancestors id).map Node.toElement) := by
    refine .of_plain (fun e he => ?_) fun e he => ?_
    · obtain ⟨a, ha, rfl⟩ := List.mem_map.1 he
      exact plain' a ha
    · obtain ⟨a, ha, rfl⟩ := List.mem_map.1 he
      exact plain a ha
  have hadd (d : ResourceDocument) : d.add t' id' = d.add t id := by
    rw [ResourceDocument.add, ResourceDocument.add, design]
    cases t.design id with
    | error fault => rfl
    | ok b => simp only [ResourceDocument.addition_congr hover]
  simp only [generateResource, hn, hn', helement, hadd]

/-- The source code of a form. -/
theorem generateSource_eq_of_design_eq (ht : t.Reachable) (ht' : t'.Reachable)
    (hn : t.get? id = some n) (hn' : t'.get? id' = some n')
    (design : t'.design id' = t.design id)
    (selector : (t'.platformContainer? id').bind (fun n => n.selector?)
      = (t.platformContainer? id).bind fun n => n.selector?)
    (noBook : ∀ a ∈ t.ancestors id, a.kind.isBook = false)
    (noBook' : ∀ a ∈ t'.ancestors id', a.kind.isBook = false) (d : Dialect) (o : Options)
    (source : FileSource) (c : Cache) :
    generateSource t' id' (.source d) o source c = generateSource t id (.source d) o source c := by
  have helement := Tree.element_eq_of_design_eq hn hn' design
  refine generateSource_congr hn hn' (congrArg Element.kind helement)
    (congrArg Element.className helement) fun f g hf hg => ?_
  obtain ⟨r, moved⟩ := Form.exists_moved ht hf hg design selector noBook noBook'
  exact moved.generate (Form.sound_of_ofTree ht hf) (Form.sound_of_ofTree ht' hg) d o source c

/-- **The output of a form depends on its design and on the nearest selector above it.** Two forms
of projects that agree in both are generated alike in every language, with the same cache
afterwards. -/
theorem generate_eq_of_design_eq (ht : t.Reachable) (ht' : t'.Reachable)
    (root : t.rootNode.kind = .project) (root' : t'.rootNode.kind = .project)
    (hid : id ∈ t.forms) (hid' : id' ∈ t'.forms) (design : t'.design id' = t.design id)
    (selector : (t'.platformContainer? id').bind (fun n => n.selector?)
      = (t.platformContainer? id).bind fun n => n.selector?)
    (l : Language) (o : Options) (source : FileSource) (c : Cache) :
    generate t' id' l o source c = generate t id l o source c := by
  obtain ⟨⟨n, hn, -⟩, above⟩ := ht.wellFormed.of_mem_forms root hid
  obtain ⟨⟨n', hn', -⟩, above'⟩ := ht'.wellFormed.of_mem_forms root' hid'
  have plain {a : Node} (ha : a.kind.category = .project ∨ a.kind.category = .folder) :
      a.kind.isSizer = false ∧ a.kind.isBook = false := by
    rcases ha with ha | ha <;> simp [Kind.isSizer, Kind.isBook, ha]
  cases l with
  | resource =>
    have hresource := generateResource_eq hn hn' design (fun a ha => plain (above a ha))
      (fun a ha => plain (above' a ha)) o
    rw [generate, generate, hresource]
  | source d =>
    exact generateSource_eq_of_design_eq ht ht' hn hn' design selector
      (fun a ha => (plain (above a ha)).2) (fun a ha => (plain (above' a ha)).2) d o source c

end

/-! ## One dialog in two projects -/

/-- A folder for Windows. -/
def windowsFolder : Element where
  kind := .folder
  props := [(.platforms, "Windows")]
  events := []

/-- A project with the dialog in a folder for Windows. -/
def smallProject : Tree :=
  .ofDesign (.mk (.ofKind .project) [.mk windowsFolder [menuDesign]])

/-- A project with a frame before that folder, and with the dialog in a folder of its own there. -/
def largeProject : Tree :=
  .ofDesign (.mk (.ofKind .project)
    [.mk (.ofKind .frame) [], .mk windowsFolder [.mk (.ofKind .folder) [menuDesign]]])

/-- The dialog is the third node of the one project and the fifth of the other. Its class and its
resource are the same. -/
theorem menuDialog_eq_in_projects :
    generate largeProject 4 (.source .python) .default noFiles .empty
        = generate smallProject 2 (.source .python) .default noFiles .empty ∧
      generate largeProject 4 .resource .default noFiles .empty
        = generate smallProject 2 .resource .default noFiles .empty := by
  have small : smallProject.Reachable := .ofDesign (by
    unfold Design.EventsOnce Element.EventsOnce
    decide)
  have large : largeProject.Reachable := .ofDesign (by
    unfold Design.EventsOnce Element.EventsOnce
    decide)
  have formsSmall : smallProject.forms = [2] := by with_unfolding_all rfl
  have formsLarge : largeProject.forms = [1, 4] := by with_unfolding_all rfl
  have hid : 2 ∈ smallProject.forms := formsSmall ▸ List.mem_singleton_self 2
  have hid' : 4 ∈ largeProject.forms :=
    formsLarge ▸ List.mem_cons_of_mem 1 (List.mem_singleton_self 4)
  have design : largeProject.design 4 = smallProject.design 2 := by with_unfolding_all rfl
  have selector : (largeProject.platformContainer? 4).bind (fun n => n.selector?)
      = (smallProject.platformContainer? 2).bind fun n => n.selector? := by with_unfolding_all rfl
  exact ⟨generate_eq_of_design_eq small large rfl rfl hid hid' design selector _ _ _ _,
    generate_eq_of_design_eq small large rfl rfl hid hid' design selector _ _ _ _⟩

end FormDesign
