import FormDesign.Proofs.Resource.Classes
import FormDesign.Proofs.Resource.MovedPages
import FormDesign.Proofs.Resource.Texts

/-!
# Dropdown menus in a document

The menu of a dropdown tool stands in an element of the tool and holds what is written for the
children. A tool of the kind for dropdowns has a second element of that name, and a page of a tree
book around the tool leaves the menu if it stands below another page.

* `Element.named_dropdown_toolPart`: which tools have another element named after dropdowns
* `ResourceDocument.IsDropdown`: how a menu is written once
* `ResourceDocument.dropdowns_add`: which menus of a document are written like this
-/

namespace FormDesign

open Branch (places placesAll)

/-! ## What the children of a tool grow into -/

namespace Branch.Place

variable {comments : Bool} {q : Branch.Place Node} {trail : Trail} {depth : Nat}

/-- The growth of a node is kept if something is written for the node. -/
theorem kept_grown_iff (comments : Bool) (q : Branch.Place Node) (trail : Trail) (depth : Nat) :
    (q.grown comments trail depth).kept = true ↔ q.label.isWritten comments = true := by
  have erases := MarkedGrowth.erases_around comments q.above trail depth q.label
    q.branch.children.isEmpty fun flatten inner =>
      erase_markAll comments q.label flatten (q.label :: q.above) inner q.branch.children
  refine erases.kept.trans ?_
  rw [ne_eq, Growth.placement_around, Bool.not_eq_false]

theorem mark_grown (kept : (q.grown comments trail depth).kept = true) :
    (q.grown comments trail depth).object.erase.isObject = true ∧
      (q.grown comments trail depth).object.mark?.map Mark.node = some q.label := by
  cases hs : q.shape comments with
  | absent =>
    rw [grown_of_absent hs] at kept
    cases kept
  | remark part =>
    rw [grown_of_remark hs] at kept ⊢
    dsimp only at kept
    subst kept
    exact ⟨rfl, rfl⟩
  | plain part =>
    rw [grown_of_plain hs]
    exact ⟨rfl, rfl⟩
  | wrapped outer inner =>
    rw [grown_of_wrapped hs]
    exact ⟨rfl, rfl⟩

/-- Only the object of a child stays where folders are not dissolved and no page is around. -/
theorem staying_markChild {parent : Node} (other : parent.kind ≠ .bookPage) (comments : Bool)
    (trail : Trail) (q : Branch.Place Node) :
    (markChild comments parent false q.above trail q.branch).filter (fun s => !s.moves)
      = if q.label.isWritten comments then [⟨false, (q.grown comments trail 0).object⟩]
        else [] := by
  rw [markChild_place, Bool.false_and, if_neg Bool.false_ne_true, if_neg (by simp [other]),
    MarkedGrowth.asChild]
  by_cases kept : (q.grown comments trail 0).kept = true
  · have pages : (q.grown comments trail 0).pages.filter (fun s => !s.moves) = [] :=
      List.filter_eq_nil_iff.2 fun s hs => by simp [(mem_pages_grown.1 hs).2.2]
    rw [if_pos kept, if_pos ((kept_grown_iff ..).1 kept), List.filter_cons_of_pos rfl, pages]
  · rw [if_neg kept, if_neg (mt (kept_grown_iff ..).2 kept)]
    rfl

end Branch.Place

/-- An object is written for a node. -/
def Marked.IsObjectOf (y : Marked) (n : Node) : Prop :=
  y.erase.isObject = true ∧ y.mark?.map Mark.node = some n

/-- What stays of siblings are the objects of those that something is written for. -/
theorem forall₂_staying_markAll {parent : Node} (other : parent.kind ≠ .bookPage) (comments : Bool)
    (above : List Node) (trail : Trail) (bs : List (Branch Node)) :
    List.Forall₂ Marked.IsObjectOf
      (((markAll comments parent false above trail bs).filter fun s => !s.moves).map
        MarkedSprout.xml)
      ((bs.map Branch.label).filter fun n => n.isWritten comments) := by
  induction bs with
  | nil =>
    rw [markAll]
    exact .nil
  | cons b bs ih =>
    have first := Branch.Place.staying_markChild other comments trail ⟨above, b⟩
    rw [markAll, List.filter_append, List.map_append, first, List.map_cons, List.filter_cons]
    by_cases written : b.label.isWritten comments = true
    · rw [if_pos (show (Branch.Place.label ⟨above, b⟩).isWritten comments = true from written),
        if_pos written]
      exact .cons (Branch.Place.mark_grown ((Branch.Place.kept_grown_iff ..).2 written)) ih
    · rw [if_neg (show ¬(Branch.Place.label ⟨above, b⟩).isWritten comments = true from written),
        if_neg written]
      exact ih

/-! ## The tool itself -/

namespace Xml

/-- The elements that have a name. -/
def named (name : String) (xs : List Xml) : List Xml :=
  xs.filter fun x => x.name? = some name

variable {name : String}

@[simp] theorem named_nil : named name [] = [] :=
  rfl

@[simp] theorem named_append (xs ys : List Xml) :
    named name (xs ++ ys) = named name xs ++ named name ys :=
  List.filter_append ..

@[simp] theorem named_element (tag : String) (attributes : List (String × String))
    (text : Option String) (children xs : List Xml) :
    named name (.element tag attributes text children :: xs)
      = if tag = name then .element tag attributes text children :: named name xs
        else named name xs := by
  simp [named, List.filter_cons, name?]

@[simp] theorem named_leaf (tag text : String) (xs : List Xml) :
    named name (.leaf tag text :: xs)
      = if tag = name then .leaf tag text :: named name xs else named name xs :=
  named_element ..

@[simp] theorem named_ite (c : Prop) [Decidable c] (xs ys : List Xml) :
    named name (if c then xs else ys) = if c then named name xs else named name ys :=
  apply_ite (named name) c xs ys

end Xml

namespace Element

open Xml (named)

variable (e : Element) {name tag : String} (h : tag ≠ name)

include h

@[simp] theorem named_textTag (p : Property) : named name (e.textTag p tag) = [] := by
  simp [textTag, h]

@[simp] theorem named_flagTag (p : Property) : named name (e.flagTag p tag) = [] := by
  simp [flagTag, h]

@[simp] theorem named_bitmapTag (comments : Bool) (p : Property) :
    named name (e.bitmapTag comments p tag) = [] := by
  refine List.filter_eq_nil_iff.2 fun x hx => ?_
  rcases e.name?_of_mem_bitmapTag hx with hname | hname <;> simp [hname, h]

omit h

/-- A tool of the kind for dropdowns has an element of that name for its kind. -/
theorem named_dropdown_toolPart (comments : Bool) :
    named "dropdown" (e.toolPart comments).contents
      = if e.text .kind = "wxITEM_DROPDOWN" then [.leaf "dropdown" "1"] else [] := by
  by_cases kind : e.text .kind = "wxITEM_DROPDOWN" <;> simp [toolPart, part, kind]

end Element

theorem Branch.Place.shape_of_toolDropdown {q : Branch.Place Node}
    (dropdown : q.label.kind = .toolDropdown) (comments : Bool) :
    q.shape comments = .plain (q.label.toolPart comments) := by
  unfold shape Element.resourceShape Element.shape
  rw [dropdown]
  rfl

/-- The menu below a tool, with marks. -/
def Marked.dropdownMenu (items : List Marked) : Marked :=
  .element none "dropdown" [] [.object none (.ofClass "wxMenu" []) items]

theorem Marked.elements_dropdownMenu (items : List Marked) :
    (dropdownMenu items).elements
      = dropdownMenu items :: object none (.ofClass "wxMenu" []) items :: elementsAll items := by
  simp [dropdownMenu, elements]

theorem Branch.Place.contents_of_toolDropdown {q : Branch.Place Node}
    (dropdown : q.label.kind = .toolDropdown) (nonempty : q.branch.children ≠ [])
    (comments : Bool) (trail : Trail) (depth : Nat) :
    q.contents comments trail depth
      = [Marked.dropdownMenu (q.staying comments trail depth)] := by
  simp [contents, staying, Marked.container, Marked.settle, Marked.dropdownMenu, dropdown, nonempty]

theorem Branch.Place.forall₂_staying {q : Branch.Place Node}
    (dropdown : q.label.kind = .toolDropdown) (comments : Bool) (trail : Trail) (depth : Nat) :
    List.Forall₂ Marked.IsObjectOf (q.staying comments trail depth)
      ((q.branch.children.map Branch.label).filter fun n => n.isWritten comments) := by
  have flatten : Element.flattensFolders (q.shape comments) q.label.toElement = false := by
    rw [shape_of_toolDropdown dropdown]
    show (q.label.kind != .toolDropdown) = false
    rw [dropdown]
    rfl
  rw [staying, held, flatten]
  exact forall₂_staying_markAll (by rw [dropdown]; decide) ..

/-- Nothing of a list is lost in a part of it if the part has as much. -/
theorem filter_eq_filter_iff_of_sublist {α : Type} {xs ys : List α} (sub : xs.Sublist ys)
    (distinct : ys.Nodup) {p : α → Prop} [DecidablePred p] :
    ys.filter p = xs.filter p ↔ ∀ a ∈ ys, p a → a ∈ xs := by
  constructor
  · intro same a ha hp
    have inside : a ∈ ys.filter p := List.mem_filter.2 ⟨ha, decide_eq_true hp⟩
    exact List.mem_of_mem_filter (same ▸ inside)
  · intro inside
    have all : ys.filter p ⊆ xs.filter p := by
      intro a ha
      obtain ⟨ha, hp⟩ := List.mem_filter.1 ha
      exact List.mem_filter.2 ⟨inside a ha (of_decide_eq_true hp), hp⟩
    have length := ((distinct.filter _).subperm all).length_le
    exact ((sub.filter _).eq_of_length_le length).symm

namespace ResourceDocument

/-- The menu of a tool is written once:
* one element of the tool is named after dropdowns, and holds the menu and nothing else,
* the menu holds an object for each child that something is written for, in the order of the tree,
* all marks of nodes below the tool that stand in the document stand in the menu, in that order. -/
structure IsDropdown (d : ResourceDocument) (t : Tree) (id : Nat) (tool : Node) (x : Marked)
    (items : List Marked) : Prop where
  one : x.contents.filter (fun y => y.erase.name? = some "dropdown") = [.dropdownMenu items]
  objects : List.Forall₂ Marked.IsObjectOf items
    ((t.childrenOf tool).filter fun n => n.isWritten d.options.addComments)
  once : (t.childrenOf tool).Nodup
  inside : (Marked.marks (d.marked t id)).filter (t.Below tool)
    = (Marked.marks items).filter (t.Below tool)

/-- A tool of the kind for dropdowns has two elements of that name. -/
theorem filter_dropdown_tool (e : Element) (comments : Bool) (mark : Option Mark)
    (items : List Marked) :
    ((Marked.object mark (e.toolPart comments) [.dropdownMenu items]).contents.filter
        fun y => y.erase.name? = some "dropdown")
      = if e.text .kind = "wxITEM_DROPDOWN" then [.bare (.leaf "dropdown" "1"), .dropdownMenu items]
        else [.dropdownMenu items] := by
  have own : ((e.toolPart comments).contents.map Marked.bare).filter
      (fun y => y.erase.name? = some "dropdown")
      = (Xml.named "dropdown" (e.toolPart comments).contents).map .bare := by
    rw [List.filter_map]
    rfl
  rw [Marked.contents_object, List.filter_append, own, e.named_dropdown_toolPart]
  split <;> rfl

variable {d : ResourceDocument} {t : Tree} {id k : Nat} {hk : k < t.nodes.size} {tool : Node}
  {x : Marked}

/-- The element of a tool stands at the place of the tool and holds a menu with what stays. -/
theorem exists_menu_place (kept : t.Kept) (dropdown : t.nodes[k].kind = .toolDropdown)
    (nonempty : t.nodes[k].children ≠ []) (hx : x ∈ Marked.elementsAll (d.marked t id))
    (hmark : x.mark? = some ⟨.object, t.nodes[k]⟩) :
    ∃ q trail depth, q.label = t.nodes[k] ∧ q.branch = t.branchAt k hk ∧ d.StandsAt t id q trail ∧
      x = .object (some ⟨.object, t.nodes[k]⟩) (t.nodes[k].toolPart d.options.addComments)
        [.dropdownMenu (q.staying d.options.addComments trail depth)] := by
  obtain ⟨q, trail, depth, part, hlabel, stands, hshape, hobject⟩ :=
    exists_standsAt kept.wellFormed (Array.getElem_mem hk) (by rw [dropdown]; rfl) hx hmark
  have kind : q.label.kind = .toolDropdown := by rw [hlabel, dropdown]
  have branch : q.branch = t.branchAt k hk := by
    obtain ⟨hlt, hbranch⟩ :=
      branch_eq kept.wellFormed stands.mem (hlabel ▸ Array.getElem_mem hk)
    simpa only [hlabel, t.id_eq k hk] using hbranch
  have own : part = t.nodes[k].toolPart d.options.addComments := by
    rw [Branch.Place.shape_of_toolDropdown kind, hlabel] at hshape
    rcases hshape with hshape | ⟨outer, hshape⟩
    · exact (Shape.plain.inj hshape).symm
    · cases hshape
  have children : q.branch.children ≠ [] := by
    rw [branch]
    exact t.children_branchAt_ne_nil hk nonempty
  refine ⟨q, trail, depth, hlabel, branch, stands, ?_⟩
  rw [hobject, own, Branch.Place.contents_of_toolDropdown kind children]

/-- **The menu of a tool is written once, unless the tool has the kind for dropdowns or loses
pages.** -/
theorem exists_isDropdown_iff (kept : t.Kept) (htool : tool ∈ t.nodes)
    (dropdown : tool.kind = .toolDropdown) (nonempty : tool.children ≠ [])
    (hx : x ∈ Marked.elementsAll (d.marked t id)) (hmark : x.mark? = some ⟨.object, tool⟩) :
    (∃ items, d.IsDropdown t id tool x items)
      ↔ tool.text .kind ≠ "wxITEM_DROPDOWN" ∧ ¬t.LosesPages id tool := by
  obtain ⟨k, hk, rfl⟩ := Array.mem_iff_getElem.1 htool
  obtain ⟨q, trail, depth, hlabel, branch, stands, rfl⟩ :=
    exists_menu_place kept dropdown nonempty hx hmark
  let items := q.staying d.options.addComments trail depth
  have filter := filter_dropdown_tool t.nodes[k].toElement d.options.addComments
    (some ⟨.object, t.nodes[k]⟩) items
  have sub : (Marked.elementsAll items).Sublist (Marked.elementsAll (d.marked t id)) := by
    refine List.Sublist.trans ?_ (Marked.elementsAll_sublist hx)
    rw [Marked.elements_object, Marked.elementsAll_cons, Marked.elements_dropdownMenu]
    simpa using .cons _ (.cons _ (.cons _ (List.Sublist.refl _)))
  have inside := (filter_eq_filter_iff_of_sublist (sub.filterMap Marked.mark?)
    (nodup_marks kept.wellFormed)).trans
      (inside_staying_iff kept hlabel (by rw [dropdown]; decide) branch stands depth)
  constructor
  · rintro ⟨items', h⟩
    have one := filter.symm.trans h.one
    split at one
    · cases one
    · next kind =>
      obtain rfl : items = items' := by simpa [Marked.dropdownMenu, Marked.object] using one
      exact ⟨kind, inside.1 h.inside⟩
  · rintro ⟨kind, stays⟩
    have objects := Branch.Place.forall₂_staying (by rw [hlabel, dropdown]) d.options.addComments
      trail depth
    rw [branch, t.map_label_children hk] at objects
    exact ⟨items, filter.trans (if_neg kind), objects, t.nodup_childrenOf kept htool,
      inside.2 stays⟩

/-- **Adding a node to a document adds the menu of each dropdown tool with children once, unless the
tool has the kind for dropdowns or loses pages.** -/
theorem dropdowns_add (built : t.Built) (d : ResourceDocument) {form : Node}
    (hform : t.get? id = some form) :
    ∃ placement d', d.add t id = .ok (placement, d') ∧
      d'.objects = some (d.objects.getD [] ++ (d.marked t id).map Marked.erase) ∧
      ∀ tool ∈ t.nodes, tool.kind = .toolDropdown → tool.children ≠ [] →
        ∀ x ∈ Marked.elementsAll (d.marked t id), x.mark? = some ⟨.object, tool⟩ →
          ((∃ items, d.IsDropdown t id tool x items)
            ↔ tool.text .kind ≠ "wxITEM_DROPDOWN" ∧ ¬t.LosesPages id tool) := by
  obtain ⟨placement, d', added⟩ := d.exists_add hform
  refine ⟨placement, d', added, objects_add added, ?_⟩
  intro tool htool dropdown nonempty x hx hmark
  exact exists_isDropdown_iff built.kept htool dropdown nonempty hx hmark

/-! ## Two kinds of a dropdown tool -/

/-- A toolbar with a dropdown tool of some kind. In the menu are an item and another menu. -/
def dropdownBar (kind : String) : Design :=
  .mk (.ofKind .project) [.mk (.ofKind .toolBarForm)
    [.mk ((Element.ofKind .toolDropdown).setProp .kind kind)
      [.mk (.ofKind .menuItem) [], .mk (.ofKind .subMenu) [.mk (.ofKind .menuItem) []]]]]

/-- The tool of the toolbar. -/
def dropdownTool (kind : String) : Node :=
  { (Element.ofKind .toolDropdown).setProp .kind kind with
    id := 2, parent := some 1, children := [3, 4] }

/-- The menu of a tool of the normal kind is written once. -/
theorem dropdowns_normalTool :
    ∃ x ∈ Marked.elementsAll ((ResourceDocument.empty .default false false).marked
        (Tree.ofDesign (dropdownBar "wxITEM_NORMAL")) 1),
      ∃ items, (ResourceDocument.empty .default false false).IsDropdown
        (Tree.ofDesign (dropdownBar "wxITEM_NORMAL")) 1 (dropdownTool "wxITEM_NORMAL") x items := by
  have built : (Tree.ofDesign (dropdownBar "wxITEM_NORMAL")).Built := .ofDesign (by
    intro e he
    simp only [dropdownBar, Branch.toList, Branch.toListAll, List.append_nil, List.cons_append,
      List.nil_append, List.mem_cons, List.not_mem_nil, or_false] at he
    rcases he with rfl | rfl | rfl | rfl | rfl | rfl
    · exact .ofKind _
    · exact .ofKind _
    · exact (Element.Written.ofKind _).setProp _ _
    all_goals exact .ofKind _)
  have htool : dropdownTool "wxITEM_NORMAL" ∈ (Tree.ofDesign (dropdownBar "wxITEM_NORMAL")).nodes :=
    Array.mem_of_getElem? (show
      (Tree.ofDesign (dropdownBar "wxITEM_NORMAL")).nodes[2]? = some (dropdownTool "wxITEM_NORMAL")
      from rfl)
  have kind : (dropdownTool "wxITEM_NORMAL").text .kind ≠ "wxITEM_DROPDOWN" := by decide +kernel
  have stays : ¬(Tree.ofDesign (dropdownBar "wxITEM_NORMAL")).LosesPages 1
      (dropdownTool "wxITEM_NORMAL") := by
    rintro ⟨-, p, hp, moves⟩
    have pages : ∀ p ∈ (Tree.ofDesign (dropdownBar "wxITEM_NORMAL")).nodes, p.kind ≠ .bookPage := by
      decide +kernel
    exact pages p hp moves.page
  have form : (Tree.ofDesign (dropdownBar "wxITEM_NORMAL")).get? 1
      = some { Element.ofKind .toolBarForm with id := 1, parent := some 0, children := [2] } := rfl
  have written : ((Marked.elementsAll ((ResourceDocument.empty .default false false).marked
      (Tree.ofDesign (dropdownBar "wxITEM_NORMAL")) 1)).find?
        fun x => x.mark? = some ⟨.object, dropdownTool "wxITEM_NORMAL"⟩).isSome = true := by
    decide +kernel
  obtain ⟨-, -, -, -, menus⟩ := dropdowns_add built (.empty .default false false) form
  obtain ⟨x, hx⟩ := Option.isSome_iff_exists.1 written
  have hmark : x.mark? = some ⟨.object, dropdownTool "wxITEM_NORMAL"⟩ := by
    simpa using List.find?_some hx
  have hmem := List.mem_of_find?_eq_some hx
  exact ⟨x, hmem, (menus _ htool rfl (by decide) x hmem hmark).2 ⟨kind, stays⟩⟩

/-- A tool of the kind for dropdowns has an element for its kind besides the one with the menu. -/
theorem dropdowns_dropdownTool :
    ∃ x ∈ Marked.elementsAll ((ResourceDocument.empty .default false false).marked
        (Tree.ofDesign (dropdownBar "wxITEM_DROPDOWN")) 1),
      x.mark? = some ⟨.object, dropdownTool "wxITEM_DROPDOWN"⟩ ∧
      (x.contents.filter fun y => y.erase.name? = some "dropdown").length = 2 ∧
      ¬∃ items, (ResourceDocument.empty .default false false).IsDropdown
        (Tree.ofDesign (dropdownBar "wxITEM_DROPDOWN")) 1 (dropdownTool "wxITEM_DROPDOWN") x
        items := by
  have written : ((Marked.elementsAll ((ResourceDocument.empty .default false false).marked
      (Tree.ofDesign (dropdownBar "wxITEM_DROPDOWN")) 1)).find?
        fun x => x.mark? = some ⟨.object, dropdownTool "wxITEM_DROPDOWN"⟩ ∧
          (x.contents.filter fun y => y.erase.name? = some "dropdown").length = 2).isSome
      = true := by
    decide +kernel
  obtain ⟨x, hx⟩ := Option.isSome_iff_exists.1 written
  obtain ⟨hmark, two⟩ : x.mark? = some ⟨.object, dropdownTool "wxITEM_DROPDOWN"⟩ ∧
      (x.contents.filter fun y => y.erase.name? = some "dropdown").length = 2 := by
    simpa using List.find?_some hx
  refine ⟨x, List.mem_of_find?_eq_some hx, hmark, two, ?_⟩
  rintro ⟨items, h⟩
  rw [h.one] at two
  cases two

end ResourceDocument

end FormDesign
