import FormDesign.Proofs.Resource.Filled
import FormDesign.Proofs.Resource.TreeBook

/-!
# Panes in a document

A collapsible pane shows what is in its window. So the window has to hold whatever is written for
the children of the pane; a folder among them may be dissolved, and then nothing is written for it.

* `not_dissolved_markAll`: nothing is written for a folder that is dissolved
* `ResourceDocument.IsPane`: how a collapsible pane is written
* `ResourceDocument.panes_add`: the items and the panes of a document to which nodes are added
-/

namespace FormDesign

open Branch (places)

/-! ## Folders -/

/-- A folder in a folder is dissolved. -/
theorem Element.flattensFolders_folder {e : Element} (folder : e.kind = .folder) (comments : Bool)
    (above : List Element) : flattensFolders (e.resourceShape comments above) e = true := by
  rw [resourceShape, folder]
  show (e.kind != .toolDropdown) = true
  rw [folder]
  rfl

mutual

/-- Nothing is written for a folder that is dissolved. -/
theorem not_dissolved_markChild {comments : Bool} {parent : Node} {rest : List Node} {trail : Trail}
    {b : Branch Node} {y : Marked} {m : Mark} (hmark : y.mark? = some m)
    (hy : y ∈ Marked.elementsAll ((markChild comments parent
      (Element.flattensFolders (parent.resourceShape comments (rest.map Node.toElement))
        parent.toElement) (parent :: rest) trail b).map MarkedSprout.xml)) :
    ∃ q ∈ places (parent :: rest) b, q.label = m.node ∧ ¬q.Dissolved comments := by
  have marked : y.mark? ≠ none := by
    rw [hmark]
    exact nofun
  cases b with
  | mk n cs =>
    let self : Branch.Place Node := ⟨parent :: rest, .mk n cs⟩
    have below (h : ∃ q ∈ Branch.placesAll (n :: parent :: rest) cs,
        q.label = m.node ∧ ¬q.Dissolved comments) :
        ∃ q ∈ places (parent :: rest) (.mk n cs), q.label = m.node ∧ ¬q.Dissolved comments := by
      obtain ⟨q, hq, found⟩ := h
      exact ⟨q, List.mem_cons_of_mem _ hq, found⟩
    have here {trail : Trail} {depth : Nat} (kept : ¬self.Dissolved comments)
        (h : Marked.WrittenAt comments self y ∨
          y ∈ Marked.elementsAll ((self.held comments trail depth).map MarkedSprout.xml)) :
        ∃ q ∈ places (parent :: rest) (.mk n cs), q.label = m.node ∧ ¬q.Dissolved comments := by
      rcases h with written | held
      · obtain ⟨role, hrole⟩ := written.exists_mark
        obtain rfl := Option.some.inj (hrole.symm.trans hmark)
        exact ⟨self, Branch.self_mem_places _ _, rfl, kept⟩
      · exact below (not_dissolved_markAll hmark held)
    rw [markChild] at hy
    dsimp only at hy
    split at hy
    · next hfolder =>
      rw [Bool.and_eq_true, decide_eq_true_eq] at hfolder
      rw [← Element.flattensFolders_folder hfolder.2 comments
        ((parent :: rest).map Node.toElement)] at hy
      exact below (not_dissolved_markAll hmark hy)
    · next hfolder =>
      have kept : ¬self.Dissolved comments := by
        rintro ⟨folder, parent', above', habove, flat⟩
        obtain ⟨rfl, rfl⟩ := List.cons.inj habove
        rw [flat, Bool.true_and, decide_eq_true_eq] at hfolder
        exact hfolder folder
      split at hy
      · next hpage =>
        have page : self.label.kind = .bookPage := by
          simp only [Bool.and_eq_true, decide_eq_true_eq] at hpage
          exact hpage.1.2
        exact here kept (Marked.writtenAt_or_held (Or.inr page) marked hy)
      · unfold MarkedGrowth.asChild at hy
        split at hy
        · rw [← Marked.prepend_nil (MarkedGrowth.object _)] at hy
          exact here kept (Marked.writtenAt_or_held (Or.inl rfl) marked hy)
        · cases hy

theorem not_dissolved_markAll {comments : Bool} {parent : Node} {rest : List Node} {trail : Trail}
    {bs : List (Branch Node)} {y : Marked} {m : Mark} (hmark : y.mark? = some m)
    (hy : y ∈ Marked.elementsAll ((markAll comments parent
      (Element.flattensFolders (parent.resourceShape comments (rest.map Node.toElement))
        parent.toElement) (parent :: rest) trail bs).map MarkedSprout.xml)) :
    ∃ q ∈ Branch.placesAll (parent :: rest) bs, q.label = m.node ∧ ¬q.Dissolved comments := by
  cases bs with
  | nil =>
    rw [markAll] at hy
    cases hy
  | cons b bs =>
    rw [markAll, List.map_append, Marked.elementsAll_append] at hy
    rcases List.mem_append.1 hy with hy | hy
    · obtain ⟨q, hq, found⟩ := not_dissolved_markChild hmark hy
      exact ⟨q, List.mem_append_left _ hq, found⟩
    · obtain ⟨q, hq, found⟩ := not_dissolved_markAll hmark hy
      exact ⟨q, List.mem_append_right _ hq, found⟩

end

namespace ResourceDocument

variable {d d' : ResourceDocument} {t : Tree} {id : Nat} {x : Marked} {n : Node}

theorem exists_root (d : ResourceDocument) {b : Branch Node} (hb : t.branch? id = some b) :
    ∃ q ∈ sourcePlaces t id, ∀ y ∈ Marked.elementsAll (d.marked t id), y.mark? ≠ none →
      Marked.WrittenAt d.options.addComments q y ∨
        y ∈ Marked.elementsAll ((q.held d.options.addComments .none 0).map MarkedSprout.xml) := by
  unfold marked sourcePlaces
  rw [hb]
  exact exists_root_markedAddition ..

/-- Below a node that is written, no folder is written that is dissolved there. -/
theorem not_dissolved_child (h : t.WellFormed) {r : Branch.Place Node} {b : Branch Node}
    (hr : r ∈ sourcePlaces t id) (hc : ⟨r.label :: r.above, b⟩ ∈ sourcePlaces t id)
    (hx : x ∈ Marked.elementsAll (d.marked t id)) (hxm : x.mark?.map Mark.node = some r.label)
    {z : Marked} (hz : z ∈ Marked.elementsAll (d.marked t id))
    (hzm : z.mark?.map Mark.node = some b.label) :
    ¬(⟨r.label :: r.above, b⟩ : Branch.Place Node).Dissolved d.options.addComments := by
  obtain ⟨m, hm, hnode⟩ := Option.map_eq_some_iff.1 hzm
  obtain ⟨k, hk, hlabel⟩ := Option.map_eq_some_iff.1 hxm
  obtain ⟨b₀, hb₀⟩ : ∃ b₀, t.branch? id = some b₀ := by
    cases hb : t.branch? id with
    | none =>
      rw [marked, hb] at hx
      cases hx
    | some b₀ => exact ⟨b₀, rfl⟩
  obtain ⟨root, hroot, either⟩ := d.exists_root hb₀
  have below {q : Branch.Place Node}
      (hq : q ∈ Branch.placesAll (root.label :: root.above) root.branch.children) :
      q ∈ sourcePlaces t id := by
    refine places_subset_sourcePlaces hroot ?_
    rw [Branch.places_eq]
    exact List.mem_cons_of_mem _ hq
  rcases either z hz (by rw [hm]; exact nofun) with written | held
  · -- the node below would be the root of what is written, with the node above it below itself
    exfalso
    obtain ⟨role, hrole⟩ := written.exists_mark
    have self : root = ⟨r.label :: r.above, b⟩ := by
      refine place_eq h hroot hc (Eq.trans ?_ hnode)
      exact congrArg Mark.node (Option.some.inj (hrole.symm.trans hm))
    rcases either x hx (by rw [hk]; exact nofun) with written | held
    · obtain ⟨role, hrole⟩ := written.exists_mark
      have again : root = r := by
        refine place_eq h hroot hr (Eq.trans ?_ hlabel)
        exact congrArg Mark.node (Option.some.inj (hrole.symm.trans hk))
      have length := congrArg (fun q => q.above.length) (again.symm.trans self)
      simp at length
    · obtain ⟨q, hq, found, -⟩ := not_dissolved_markAll hk held
      obtain rfl : q = r := place_eq h (below hq) hr (found.trans hlabel)
      obtain ⟨zs, habove, -⟩ := Branch.exists_above_of_mem_placesAll hq
      have length := congrArg List.length habove
      rw [self] at length
      simp at length
      omega
  · obtain ⟨q, hq, found, stays⟩ := not_dissolved_markAll hm held
    obtain rfl : q = ⟨r.label :: r.above, b⟩ := place_eq h (below hq) hc (found.trans hnode)
    exact stays

/-- The object of a node that the resource describes stands at its place. -/
theorem exists_own_place (hx : x ∈ Marked.elementsAll (d.marked t id))
    (hmark : x.mark? = some ⟨.object, n⟩) (described : n.kind.isDescribed = true) :
    ∃ q ∈ sourcePlaces t id, q.label = n ∧ ∃ part trail depth,
      (q.shape d.options.addComments = .plain part ∨
        ∃ outer, q.shape d.options.addComments = .wrapped outer part) ∧
      n.toElement.IsOwn part ∧
      x = .object (some ⟨.object, n⟩) part (q.contents d.options.addComments trail depth) := by
  obtain ⟨q, hq, written⟩ := exists_writtenAt (by rw [hmark]; exact nofun) hx
  obtain ⟨role, hrole⟩ := written.exists_mark
  obtain rfl : q.label = n := congrArg Mark.node (Option.some.inj (hrole.symm.trans hmark))
  refine ⟨q, hq, rfl, ?_⟩
  have shaped := q.shaped d.options.addComments
  cases written with
  | plain hs trail depth =>
    rw [hs] at shaped
    exact ⟨_, trail, depth, Or.inl hs, shaped.isOwn_of_plain, rfl⟩
  | remark hs keep =>
    rw [hs] at shaped
    cases described.symm.trans shaped.not_described_of_remark
  | inner hs trail depth =>
    rw [hs] at shaped
    exact ⟨_, trail, depth, Or.inr ⟨_, hs⟩, shaped.isOwn_of_wrapped, rfl⟩
  | outer hs => cases hmark

/-- What is written is a node of the tree, except for the panel and the sizer around a bar. -/
theorem mem_nodes_of_mem_sourcePlaces (h : t.WellFormed) {q : Branch.Place Node}
    (hq : q ∈ sourcePlaces t id) (panel : q.label.kind ≠ .panelForm)
    (sizer : q.label.kind ≠ .verticalBoxSizer) : q.label ∈ t.nodes := by
  unfold sourcePlaces Tree.branch? at hq
  by_cases hid : id < t.nodes.size
  · rw [dif_pos hid] at hq
    have inside {n : Node} (hn : n ∈ (t.branchAt id hid).toList) : n ∈ t.nodes :=
      (h.under_of_mem_branchAt hid hn).1
    have hlabel : q.label ∈ (source t id (t.branchAt id hid)).2.toList := by
      rw [← Branch.map_label_places]
      exact List.mem_map_of_mem hq
    unfold source at hlabel
    split at hlabel
    · simp only [markedBarPanel, Branch.toList, Branch.toListAll, List.append_nil,
        List.mem_cons] at hlabel
      rcases hlabel with heq | heq | hin
      · exact absurd (congrArg (fun n => n.kind) heq) panel
      · exact absurd (congrArg (fun n => n.kind) heq) sizer
      · exact inside hin
    · exact inside hlabel
  · rw [dif_neg hid] at hq
    cases hq

/-- The window of a collapsible pane is as it should be:
* it has the class of such windows,
* whatever is written for a child of the pane is in it,
* something is written for a child if the resource has an object for it, and it is no folder. -/
structure IsPaneWindow (d : ResourceDocument) (t : Tree) (id : Nat) (pane : Node) (w : Marked) :
    Prop where
  class_eq : w.class? = some "panewindow"
  inside : ∀ c ∈ t.nodes, t.parent? c.id = some pane.id →
    ∀ z ∈ Marked.elementsAll (d.marked t id), z.mark?.map Mark.node = some c →
      z ∈ Marked.elementsAll w.contents
  shown : ∀ c ∈ t.nodes, t.parent? c.id = some pane.id → c.kind.isDescribed = true →
    c.kind ≠ .folder → ∃ z ∈ Marked.elementsAll w.contents, z.mark?.map Mark.node = some c

/-- An element is written for a collapsible pane, and its window is the one object in it. -/
structure IsPane (d : ResourceDocument) (t : Tree) (id : Nat) (pane : Node) (x : Marked) : Prop
    where
  mark_eq : x.mark? = some ⟨.object, pane⟩
  kind_eq : pane.kind = .collapsiblePane
  window : ∃ w ∈ x.contents, x.erase.objects = [w.erase] ∧ d.IsPaneWindow t id pane w

/-- Every element of the class is written for a collapsible pane like this. -/
theorem exists_isPane (kept : t.Kept) (hx : x ∈ Marked.elementsAll (d.marked t id))
    (class_eq : x.class? = some "wxCollapsiblePane") : ∃ pane ∈ t.nodes, d.IsPane t id pane x := by
  obtain ⟨pane, hmark, kind⟩ :=
    (orderly_marked d t id _ (Marked.mem_labelledAll hx)).written class_eq
  obtain ⟨q, hq, rfl, part, trail, depth, -, own, hobject⟩ :=
    exists_own_place hx hmark (by rw [kind]; rfl)
  replace hmark : x.mark? = some ⟨.object, q.label⟩ := hmark
  have hp := mem_nodes_of_mem_sourcePlaces kept.wellFormed hq (by rw [kind]; decide)
    (by rw [kind]; decide)
  let window : Marked := .object none (.ofClass "panewindow" [])
    (((q.held d.options.addComments trail depth).filter fun s => !s.moves).map MarkedSprout.xml)
  have contents : q.contents d.options.addComments trail depth = [window] := by
    simp [Branch.Place.contents, Marked.container, Marked.settle, kind, window]
  have hwindow : window ∈ x.contents := by
    rw [hobject, contents]
    exact List.mem_append_right _ List.mem_cons_self
  have sub : Marked.elementsAll window.contents ⊆ Marked.elementsAll (d.marked t id) := by
    intro y hy
    refine (Marked.elementsAll_sublist hx).subset ?_
    rw [Marked.elements_eq hmark]
    refine List.mem_cons_of_mem _ (Marked.mem_elementsAll.2 ⟨_, hwindow, ?_⟩)
    rw [Marked.elements_object]
    exact List.mem_cons_of_mem _ hy
  -- the object of a child is in the window, unless the child is dissolved
  have object {b : Branch Node} (hb : b ∈ q.branch.children)
      (stays : ¬(⟨q.label :: q.above, b⟩ : Branch.Place Node).Dissolved d.options.addComments)
      (hkept : ∀ trail, ((⟨q.label :: q.above, b⟩ : Branch.Place Node).grown d.options.addComments
        trail 0).kept = true) :
      ∃ inner, ((⟨q.label :: q.above, b⟩ : Branch.Place Node).grown d.options.addComments inner
        0).object ∈ window.contents := by
    obtain ⟨inner, held⟩ := Branch.Place.object_mem_held hb stays
      (Or.inl (by rw [kind]; decide)) trail depth hkept
    exact ⟨inner, List.mem_map_of_mem (List.mem_filter.2 ⟨held, rfl⟩)⟩
  refine ⟨q.label, hp, hmark, kind, window, hwindow, ?_, rfl, ?_, ?_⟩
  · rw [hobject, contents, Marked.objects_object, own.objects (by rw [kind]; decide)]
    rfl
  · intro c hc parent z hz hzm
    refine mem_elementsAll_of_child kept hq hp hc parent sub (fun b hb hlabel => object hb ?_) hz
      hzm
    have hchild := places_subset_sourcePlaces hq (Branch.child_mem_places _ hb)
    exact not_dissolved_child kept.wellFormed hq hchild hx (by rw [hmark]; rfl) hz
      (hzm.trans (congrArg some hlabel.symm))
  · intro c hc parent described other
    refine exists_mem_elementsAll_of_child kept hq hp d.options.addComments hc parent described
      fun b hb hlabel => object hb fun h => other ?_
    rw [← hlabel]
    exact h.1

/-- Whether an element is a collapsible pane. -/
def isPane (x : Xml) : Bool :=
  x.class? == some "wxCollapsiblePane"

/-- **In a document to which nodes are added, every item of a sizer holds one object, and every
collapsible pane holds one window with whatever is written for the children of the pane.** The panes
that are added are the marked elements of their class, in the same order. -/
theorem panes_add (built : t.Built) (d : ResourceDocument)
    (filled : ∀ x ∈ Xml.elementsAll d.nodes, x.IsFilled) {form : Node}
    (hform : t.get? id = some form) :
    ∃ placement d', d.add t id = .ok (placement, d') ∧
      (∀ x ∈ Xml.elementsAll d'.nodes, x.IsFilled) ∧
      d'.objects = some (d.objects.getD [] ++ (d.marked t id).map Marked.erase) ∧
      (Xml.elementsAll ((d.marked t id).map Marked.erase)).filter isPane
        = ((Marked.elementsAll (d.marked t id)).filter fun x => isPane x.erase).map Marked.erase ∧
      ∀ x ∈ Marked.elementsAll (d.marked t id), isPane x.erase = true →
        ∃ pane ∈ t.nodes, d.IsPane t id pane x := by
  obtain ⟨placement, d', added⟩ := d.exists_add hform
  have objects := objects_add added
  have orderly := orderly_marked d t id
  refine ⟨placement, d', added, ?_, objects, ?_, fun x hx hpane => ?_⟩
  · rw [forall_isFilled_nodes, objects, Option.getD_some, Xml.elementsAll_append,
      List.forall_mem_append]
    refine ⟨(forall_isFilled_nodes d).1 filled, fun x hx => ?_⟩
    rw [← Marked.map_snd_labelledAll] at hx
    obtain ⟨z, hz, rfl⟩ := List.mem_map.1 hx
    exact (orderly z hz).filled
  · refine Marked.filter_elementsAll _ _ fun z hz hpane hmark => ?_
    obtain ⟨n, hn, -⟩ := (orderly z hz).written (beq_iff_eq.1 hpane)
    cases hn.symm.trans hmark
  · exact exists_isPane built.kept hx (beq_iff_eq.1 hpane)

/-! ## A pane in a sizer -/

/-- A dialog with a pane in its sizer. In the pane stand a folder, a timer and a button. -/
def folderDialog : Design :=
  .mk (.ofKind .project) [.mk (.ofKind .dialog) [.mk (.ofKind .verticalBoxSizer)
    [.mk (.ofKind .collapsiblePane)
      [.mk (.ofKind .folder) [.mk (.ofKind .gauge) []], .mk (.ofKind .timer) [],
        .mk (.ofKind .button) []]]]]

theorem panes_folderDialog :
    ∃ placement d',
      (ResourceDocument.empty .default true false).add (Tree.ofDesign folderDialog) 1
          = .ok (placement, d') ∧
        (∀ x ∈ Xml.elementsAll d'.nodes, x.IsFilled) ∧
        ∃ x ∈ Marked.elementsAll
            ((ResourceDocument.empty .default true false).marked (Tree.ofDesign folderDialog) 1),
          ∃ pane, (ResourceDocument.empty .default true false).IsPane (Tree.ofDesign folderDialog) 1
            pane x := by
  have built : (Tree.ofDesign folderDialog).Built := .ofDesign (by
    intro e he
    simp only [folderDialog, Branch.toList, Branch.toListAll, List.append_nil, List.cons_append,
      List.nil_append, List.mem_cons, List.not_mem_nil, or_false] at he
    rcases he with rfl | rfl | rfl | rfl | rfl | rfl | rfl | rfl
    all_goals exact .ofKind _)
  have written : ((Marked.elementsAll ((ResourceDocument.empty .default true false).marked
      (Tree.ofDesign folderDialog) 1)).find? fun x => isPane x.erase).isSome = true := by
    decide +kernel
  have form : (Tree.ofDesign folderDialog).get? 1
      = some { Element.ofKind .dialog with id := 1, parent := some 0, children := [2] } := rfl
  obtain ⟨placement, d', added, filled, -, -, panes⟩ :=
    panes_add built (.empty .default true false) (fun _ hx => absurd hx List.not_mem_nil) form
  obtain ⟨x, hx⟩ := Option.isSome_iff_exists.1 written
  have hmem := List.mem_of_find?_eq_some hx
  obtain ⟨pane, -, hpane⟩ := panes x hmem (by simpa using List.find?_some hx)
  exact ⟨placement, d', added, filled, x, hmem, pane, hpane⟩

end ResourceDocument

end FormDesign
