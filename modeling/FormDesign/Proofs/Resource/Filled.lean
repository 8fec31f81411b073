import FormDesign.Proofs.Resource.Origin
import FormDesign.Proofs.Resource.Shapes

/-!
# Items and panes are filled

An item of a sizer holds one object, and a collapsible pane holds one window. Every element is
looked at, the written ones as well as those around them, so each comes with its mark.

* `Xml.IsFilled`: what an element of one of these classes holds
* `Marked.labelled`: the elements with their marks
* `orderly_markAll`: what siblings grow into is filled, and its panes were written for panes
* `ResourceDocument.orderly_marked`: the same for what is added to a document
-/

namespace FormDesign

open Branch (places)

namespace Xml

/-- An item of a sizer holds one object. A collapsible pane holds one object, which is its
window. -/
structure IsFilled (x : Xml) : Prop where
  item : x.class? = some "sizeritem" → ∃ y, x.objects = [y]
  pane : x.class? = some "wxCollapsiblePane" →
    ∃ y, x.objects = [y] ∧ y.class? = some "panewindow"

theorem isFilled_of_class {x : Xml} (item : x.class? ≠ some "sizeritem")
    (pane : x.class? ≠ some "wxCollapsiblePane") : x.IsFilled where
  item h := absurd h item
  pane h := absurd h pane

end Xml

namespace Marked

/-! ## Elements with their marks -/

mutual

/-- The elements in pre-order, each with its mark. What is written for properties has none. -/
def labelled : Marked → List (Option Mark × Xml)
  | bare x => x.elements.map fun y => (none, y)
  | element mark name attributes contents =>
    (mark, .element name attributes none (eraseAll contents)) :: labelledAll contents

/-- The elements of several nodes, each with its mark. -/
def labelledAll : List Marked → List (Option Mark × Xml)
  | [] => []
  | x :: xs => labelled x ++ labelledAll xs

end

theorem labelledAll_eq (xs : List Marked) : labelledAll xs = xs.flatMap labelled := by
  induction xs with
  | nil => rfl
  | cons x xs ih => rw [labelledAll, ih, List.flatMap_cons]

theorem labelledAll_append (xs ys : List Marked) :
    labelledAll (xs ++ ys) = labelledAll xs ++ labelledAll ys := by
  rw [labelledAll_eq, labelledAll_eq, labelledAll_eq, List.flatMap_append]

theorem labelledAll_bare (xs : List Xml) :
    labelledAll (xs.map bare) = (Xml.elementsAll xs).map fun y => (none, y) := by
  induction xs with
  | nil => rfl
  | cons x xs ih => rw [List.map_cons, labelledAll, ih, labelled, Xml.elementsAll, List.map_append]

theorem labelled_object (mark : Option Mark) (p : Part) (more : List Marked) :
    (object mark p more).labelled
      = (mark, (object mark p more).erase)
        :: (Xml.elementsAll p.contents).map (fun y => (none, y)) ++ labelledAll more := by
  rw [object, labelled, labelledAll_append, labelledAll_bare]
  rfl

mutual

/-- Without the marks these are the elements of the document. -/
theorem map_snd_labelled (x : Marked) : x.labelled.map Prod.snd = x.erase.elements := by
  cases x with
  | bare x => rw [labelled, List.map_map, erase]; exact List.map_id _
  | element mark name attributes contents =>
    rw [labelled, List.map_cons, map_snd_labelledAll contents, ← eraseAll_eq]
    rfl

theorem map_snd_labelledAll (xs : List Marked) :
    (labelledAll xs).map Prod.snd = Xml.elementsAll (xs.map erase) := by
  cases xs with
  | nil => rfl
  | cons x xs =>
    rw [labelledAll, List.map_append, map_snd_labelled x, map_snd_labelledAll xs]
    rfl

end

mutual

theorem mem_labelled {x y : Marked} (hy : y ∈ x.elements) : (y.mark?, y.erase) ∈ x.labelled := by
  cases x with
  | bare x => cases hy
  | element mark name attributes contents =>
    rw [elements] at hy
    rw [labelled]
    rcases List.mem_cons.1 hy with rfl | hy
    · exact List.mem_cons_self
    · exact List.mem_cons_of_mem _ (mem_labelledAll hy)

/-- An element stands there with its mark. -/
theorem mem_labelledAll {xs : List Marked} {y : Marked} (hy : y ∈ elementsAll xs) :
    (y.mark?, y.erase) ∈ labelledAll xs := by
  cases xs with
  | nil => cases hy
  | cons x xs =>
    rw [elementsAll] at hy
    rw [labelledAll]
    rcases List.mem_append.1 hy with hy | hy
    · exact List.mem_append_left _ (mem_labelled hy)
    · exact List.mem_append_right _ (mem_labelledAll hy)

end

mutual

theorem filter_elements (ok : Xml → Bool) (x : Marked)
    (h : ∀ z ∈ x.labelled, ok z.2 = true → z.1 ≠ none) :
    x.erase.elements.filter ok = (x.elements.filter fun y => ok y.erase).map erase := by
  cases x with
  | bare x =>
    refine List.filter_eq_nil_iff.2 fun y hy hok => ?_
    exact h (none, y) (List.mem_map_of_mem hy) hok rfl
  | element mark name attributes contents =>
    have rest := filter_elementsAll ok contents fun z hz =>
      h z (List.mem_cons_of_mem _ hz)
    rw [← eraseAll_eq] at rest
    rw [erase, Xml.elements, elements, List.filter_cons, List.filter_cons, rest]
    split
    · next hok =>
      rw [if_pos (by rwa [erase]), List.map_cons, erase]
    · next hok => rw [if_neg (by rwa [erase])]

/-- Where only elements with marks pass, they are found among the marked elements. -/
theorem filter_elementsAll (ok : Xml → Bool) (xs : List Marked)
    (h : ∀ z ∈ labelledAll xs, ok z.2 = true → z.1 ≠ none) :
    (Xml.elementsAll (xs.map erase)).filter ok
      = ((elementsAll xs).filter fun y => ok y.erase).map erase := by
  cases xs with
  | nil => rfl
  | cons x xs =>
    have first := filter_elements ok x fun z hz => h z (List.mem_append_left _ hz)
    have rest := filter_elementsAll ok xs fun z hz =>
      h z (List.mem_append_right _ hz)
    rw [List.map_cons, Xml.elementsAll, elementsAll, List.filter_append, List.filter_append,
      List.map_append, first, rest]

end

/-! ## One node -/

/-- An element is filled, and a collapsible pane was written for such a node. -/
structure IsOrderly (z : Option Mark × Xml) : Prop where
  filled : z.2.IsFilled
  written : z.2.class? = some "wxCollapsiblePane" →
    ∃ n, z.1 = some ⟨.object, n⟩ ∧ n.kind = .collapsiblePane

/-- All elements are like this. -/
def Orderly (xs : List Marked) : Prop :=
  ∀ z ∈ labelledAll xs, IsOrderly z

theorem isOrderly_of_class {mark : Option Mark} {x : Xml} (item : x.class? ≠ some "sizeritem")
    (pane : x.class? ≠ some "wxCollapsiblePane") : IsOrderly (mark, x) where
  filled := Xml.isFilled_of_class item pane
  written h := absurd h pane

theorem isOrderly_of_unclassed {mark : Option Mark} {x : Xml} (h : x.class? = none) :
    IsOrderly (mark, x) :=
  isOrderly_of_class (by rw [h]; exact nofun) (by rw [h]; exact nofun)

theorem isOrderly_item {mark : Option Mark} {x : Xml} (h : x.class? = some "sizeritem")
    (one : ∃ y, x.objects = [y]) : IsOrderly (mark, x) := by
  have pane : x.class? ≠ some "wxCollapsiblePane" := by
    rw [h]
    decide
  exact ⟨⟨fun _ => one, fun hp => absurd hp pane⟩, fun hp => absurd hp pane⟩

theorem orderly_iff {xs : List Marked} : Orderly xs ↔ ∀ x ∈ xs, Orderly [x] := by
  have single (x : Marked) : Orderly [x] ↔ ∀ z ∈ x.labelled, IsOrderly z := by
    rw [Orderly, labelledAll, labelledAll, List.append_nil]
  simp only [single]
  rw [Orderly, labelledAll_eq]
  simp only [List.mem_flatMap]
  exact ⟨fun h x hx z hz => h z ⟨x, hx, hz⟩, fun h z ⟨x, hx, hz⟩ => h x hx z hz⟩

theorem orderly_nil : Orderly [] :=
  nofun

theorem Orderly.cons {x : Marked} {xs : List Marked} (hx : Orderly [x]) (h : Orderly xs) :
    Orderly (x :: xs) :=
  orderly_iff.2 (List.forall_mem_cons.2 ⟨hx, orderly_iff.1 h⟩)

theorem Orderly.append {xs ys : List Marked} (hx : Orderly xs) (hy : Orderly ys) :
    Orderly (xs ++ ys) :=
  orderly_iff.2 (List.forall_mem_append.2 ⟨orderly_iff.1 hx, orderly_iff.1 hy⟩)

theorem Orderly.sublist {sprouts more : List MarkedSprout} (sub : sprouts.Sublist more)
    (h : Orderly (more.map MarkedSprout.xml)) : Orderly (sprouts.map MarkedSprout.xml) :=
  orderly_iff.2 fun x hx => orderly_iff.1 h x ((sub.map _).subset hx)

/-- What is in an element is orderly if the element is. -/
theorem Orderly.contents {x : Marked} (h : Orderly [x]) : Orderly x.contents := by
  cases x with
  | bare x => exact orderly_nil
  | element mark name attributes contents =>
    intro z hz
    refine h z ?_
    rw [labelledAll, labelledAll, List.append_nil, labelled]
    exact List.mem_cons_of_mem _ hz

/-- The details of a node are no panes and no items. -/
theorem orderly_bare {xs : List Xml} (h : Detailed xs) : Orderly (xs.map bare) := by
  intro z hz
  rw [labelledAll_bare] at hz
  obtain ⟨x, hx, rfl⟩ := List.mem_map.1 hz
  rcases h x hx with ⟨-, none⟩ | ⟨c, hc, class_eq⟩
  · exact isOrderly_of_unclassed none
  · have other {name : String} (h : name ∉ buttonClasses) : x.class? ≠ some name := by
      rw [class_eq]
      rintro ⟨⟩
      exact h hc
    exact isOrderly_of_class (other (by simp [buttonClasses])) (other (by simp [buttonClasses]))

theorem orderly_object {mark : Option Mark} {p : Part} {more : List Marked}
    (self : IsOrderly (mark, (object mark p more).erase)) (own : Orderly (p.contents.map bare))
    (h : Orderly more) : Orderly [object mark p more] := by
  intro z hz
  rw [labelledAll, labelledAll, List.append_nil, labelled_object, List.cons_append] at hz
  rcases List.mem_cons.1 hz with rfl | hz
  · exact self
  · rcases List.mem_append.1 hz with hz | hz
    · exact own z (by rwa [labelledAll_bare])
    · exact h z hz

/-- The objects in an object are those of the node itself and those of the nodes below it. -/
theorem objects_object (mark : Option Mark) (p : Part) (more : List Marked) :
    (object mark p more).erase.objects
      = p.contents.filter Xml.isObject ++ (more.map erase).filter Xml.isObject := by
  rw [erase_object, ← List.filter_append]
  rfl

/-- What is in the object of the node itself may as well be put in later. -/
theorem object_extend (mark : Option Mark) (p : Part) (xs : List Xml) (more : List Marked) :
    object mark (p.extend xs) more = object mark p (xs.map bare ++ more) := by
  rw [object, object, Part.extend, List.map_append, List.append_assoc]

theorem prepend_object (tags : List Xml) (mark : Option Mark) (p : Part) (more : List Marked) :
    (object mark p more).prepend tags
      = object mark { p with contents := tags ++ p.contents } more := by
  rw [object, prepend, object, List.map_append, List.append_assoc]

/-- Windows and menus around the children are no panes and no items. -/
theorem Orderly.container {e : Element} {leafless : Bool} {children : List Marked}
    (h : Orderly children) : Orderly (container e leafless children) := by
  have window {className : String} (item : className ≠ "sizeritem")
      (pane : className ≠ "wxCollapsiblePane") :
      Orderly [object none (.ofClass className []) children] := by
    refine orderly_object (isOrderly_of_class ?_ ?_) orderly_nil h
    · exact fun heq => item (Option.some.inj heq)
    · exact fun heq => pane (Option.some.inj heq)
  unfold Marked.container
  split
  · exact window (by decide) (by decide)
  · split
    · split
      · exact orderly_nil
      · intro z hz
        rw [labelledAll, labelledAll, List.append_nil, labelled] at hz
        rcases List.mem_cons.1 hz with rfl | hz
        · exact isOrderly_of_unclassed rfl
        · exact window (by decide) (by decide) z hz
    · exact h

end Marked

/-- Only collapsible panes have their class, and items of sizers have another. -/
theorem Kind.objectClass?_pane {k : Kind} :
    k.objectClass? = some "wxCollapsiblePane" → k = .collapsiblePane := by
  cases k <;> decide

theorem Kind.objectClass?_ne_item (k : Kind) : k.objectClass? ≠ some "sizeritem" := by
  cases k <;> decide

namespace Branch.Place

open Marked (Orderly)

variable {comments : Bool} {q : Branch.Place Node}

theorem shaped (comments : Bool) (q : Branch.Place Node) :
    q.label.toElement.Shaped comments (q.shape comments) :=
  Element.shaped_resourceShape ..

/-- The object of a node is orderly around what its children grew into. -/
theorem orderly_own {part : Part} (own : q.label.toElement.IsOwn part) {trail : Trail} {depth : Nat}
    (held : Orderly ((q.held comments trail depth).map MarkedSprout.xml)) :
    Orderly [.object (some ⟨.object, q.label⟩) part (q.contents comments trail depth)] := by
  refine Marked.orderly_object ?_ (Marked.orderly_bare own.details)
    (Marked.Orderly.container (held.sublist (Marked.settle_fst_sublist ..)))
  have pane (h : part.attributes.lookup "class" = some "wxCollapsiblePane") :
      q.label.kind = .collapsiblePane :=
    Kind.objectClass?_pane (own.class_eq.symm.trans h)
  refine ⟨⟨fun item => ?_, fun h => ?_⟩, fun h => ⟨q.label, rfl, pane h⟩⟩
  · exact absurd (own.class_eq.symm.trans item) (Kind.objectClass?_ne_item _)
  · have kind := pane h
    rw [Marked.objects_object, own.objects (by rw [kind]; decide), contents, Marked.container,
      if_pos kind]
    exact ⟨_, rfl, rfl⟩

/-- An item of a sizer holds one object. -/
theorem orderly_sizerItem {e : Element} {mark : Option Mark} {inner : Marked}
    (object : inner.erase.isObject = true) (h : Orderly [inner]) :
    Orderly [.object mark e.sizerItem [inner]] := by
  refine Marked.orderly_object (Marked.isOrderly_item rfl ⟨inner.erase, ?_⟩)
    (Marked.orderly_bare e.unclassed_sizerItemTags.detailed) h
  rw [Marked.objects_object, Element.sizerItem, Part.ofClass,
    e.unclassed_sizerItemTags.filter_isObject, List.map_singleton, List.filter_cons_of_pos object]
  rfl

/-- A remark is no pane, and in an item of a sizer it is the one object. -/
theorem orderly_remark (e : Element) (mark : Option Mark) (inSizer : Bool) {object : Part}
    (class_eq : object.attributes.lookup "class" = some "wxBoxSizer")
    (contents : ∃ text, object.contents = [.comment text]) :
    ∃ part, e.placedRemark inSizer object = .remark part ∧ Orderly [.object mark part []] := by
  obtain ⟨text, contents⟩ := contents
  have self (mark : Option Mark) : Marked.IsOrderly (mark, object.object) :=
    Marked.isOrderly_of_class (fun h => absurd (class_eq.symm.trans h) (by decide))
      fun h => absurd (class_eq.symm.trans h) (by decide)
  cases inSizer with
  | false =>
    refine ⟨object, rfl, Marked.orderly_object ?_ (by rw [contents]; exact nofun)
      Marked.orderly_nil⟩
    rw [Marked.erase_object, List.map_nil, Part.extend, List.append_nil]
    exact self mark
  | true =>
    refine ⟨e.sizerItem.extend [object.object], rfl, ?_⟩
    rw [Marked.object_extend]
    refine orderly_sizerItem rfl fun z hz => ?_
    have single : Marked.labelledAll [.bare object.object] = [(none, object.object)] := by
      rw [Part.object, contents]
      rfl
    rw [single, List.mem_singleton] at hz
    exact hz ▸ self none

theorem orderly_page {e : Element} {comments : Bool} {book : Option Kind} {mark : Option Mark}
    {tags : List Xml} (htags : Unclassed tags) {inner : Marked} (h : Orderly [inner]) :
    Orderly [(Marked.object mark (e.pagePart comments book) [inner]).prepend tags] := by
  have other : Element.pageClass book ≠ "sizeritem" ∧
      Element.pageClass book ≠ "wxCollapsiblePane" := by
    unfold Element.pageClass
    split <;> decide
  rw [Marked.prepend_object]
  refine Marked.orderly_object (Marked.isOrderly_of_class ?_ ?_) (Marked.orderly_bare ?_) h
  · exact fun heq => other.1 (Option.some.inj heq)
  · exact fun heq => other.2 (Option.some.inj heq)
  · exact ((unclassed_append ..).2 ⟨htags, e.unclassed_pagePart comments book⟩).detailed

/-- What a node grows into is orderly if this holds of what its children grew into. -/
theorem orderly_grown {tags : List Xml} (htags : Unclassed tags)
    (page : tags = [] ∨ q.label.kind = .bookPage) (trail : Trail) (depth : Nat)
    (held : Orderly ((q.held comments trail depth).map MarkedSprout.xml)) :
    Orderly ((q.grown comments trail depth).object.prepend tags
      :: (q.grown comments trail depth).pages.map MarkedSprout.xml) := by
  have pages := held.sublist (Marked.settle_snd_sublist q.label.toElement _)
  have untagged (h : q.label.kind ≠ .bookPage) : tags = [] := page.resolve_right h
  have undescribed (h : q.label.kind.isDescribed = false) : tags = [] := by
    refine untagged fun hk => ?_
    rw [hk] at h
    cases h
  have shaped := q.shaped comments
  generalize hs : q.shape comments = s at shaped
  cases shaped with
  | absent h =>
    rw [grown_of_absent hs, undescribed h, Marked.prepend_nil]
    exact Marked.orderly_object (Marked.isOrderly_of_unclassed rfl) Marked.orderly_nil
      Marked.orderly_nil
  | remark h inSizer class_eq contents =>
    obtain ⟨part, hp, orderly⟩ := orderly_remark q.label.toElement
      (if comments then some ⟨.object, q.label⟩ else none) inSizer class_eq contents
    rw [grown_of_remark (hs.trans hp), undescribed h, Marked.prepend_nil]
    exact orderly
  | own h other inSizer own =>
    have self := orderly_own own held
    rw [untagged other]
    cases inSizer with
    | false =>
      rw [grown_of_plain hs, Marked.prepend_nil]
      exact Marked.Orderly.cons self pages
    | true =>
      rw [grown_of_wrapped hs, Marked.prepend_nil]
      exact Marked.Orderly.cons (orderly_sizerItem rfl self) pages
  | page isPage book own =>
    rw [grown_of_wrapped hs]
    exact Marked.Orderly.cons (orderly_page htags (orderly_own own held)) pages

end Branch.Place

/-! ## All nodes of a branch -/

open Marked (Orderly)

mutual

/-- What a node grows into is orderly. -/
theorem orderly_markChild (comments : Bool) (parent : Node) (flatten : Bool) (above : List Node)
    (trail : Trail) (b : Branch Node) :
    Orderly ((markChild comments parent flatten above trail b).map MarkedSprout.xml) := by
  cases b with
  | mk n cs =>
    let self : Branch.Place Node := ⟨above, .mk n cs⟩
    have below (flatten : Bool) (inner : Trail) :
        Orderly ((markAll comments n flatten (n :: above) inner cs).map MarkedSprout.xml) :=
      orderly_markAll comments n flatten (n :: above) inner cs
    rw [markChild]
    dsimp only
    split
    · exact below true trail
    · split
      · next hpage =>
        have page : self.label.kind = .bookPage := by
          simp only [Bool.and_eq_true, decide_eq_true_eq] at hpage
          exact hpage.1.2
        exact self.orderly_grown (unclassed_leaf (by decide) _) (Or.inr page) _ _ (below _ _)
      · unfold MarkedGrowth.asChild
        split
        · rw [← Marked.prepend_nil (MarkedGrowth.object _)]
          exact self.orderly_grown unclassed_nil (Or.inl rfl) _ _ (below _ _)
        · exact Marked.orderly_nil

/-- What siblings grow into is orderly. -/
theorem orderly_markAll (comments : Bool) (parent : Node) (flatten : Bool) (above : List Node)
    (trail : Trail) (bs : List (Branch Node)) :
    Orderly ((markAll comments parent flatten above trail bs).map MarkedSprout.xml) := by
  cases bs with
  | nil =>
    rw [markAll]
    exact Marked.orderly_nil
  | cons b bs =>
    rw [markAll, List.map_append]
    exact (orderly_markChild comments parent flatten above trail b).append
      (orderly_markAll comments parent flatten above trail bs)

end

theorem orderly_markedGrow (comments : Bool) (above : List Node) (b : Branch Node) :
    Orderly [(markedGrow comments above b).object] := by
  let self : Branch.Place Node := ⟨above, b⟩
  have grown := self.orderly_grown unclassed_nil (Or.inl rfl) .none 0
    (orderly_markAll comments _ _ _ _ _)
  rw [Marked.prepend_nil] at grown
  exact Marked.orderly_iff.1 grown _ List.mem_cons_self

namespace ResourceDocument

theorem isObject_markedGrow (comments : Bool) (above : List Node) (b : Branch Node) :
    (markedGrow comments above b).object.erase.isObject = true := by
  rw [(erases_markedGrow comments above b).erase_object]
  rfl

/-- What is added for a branch is orderly. -/
theorem orderly_markedAddition (comments previewing : Bool) (above : List Node) (b : Branch Node) :
    Orderly (markedAddition comments previewing above b) := by
  -- around an object a shell only adds objects of other classes, and an item of a sizer
  have shell {className : String} (other : className ∈ ["wxDialog", "wxBoxSizer", "wxPanel"])
      {rest : List (String × String)} {contents : List Xml} (own : Unclassed contents) {x : Marked}
      (h : Orderly [x]) :
      Orderly [.object none { attributes := ("class", className) :: rest, contents } [x]] := by
    refine Marked.orderly_object (Marked.isOrderly_of_class ?_ ?_)
      (Marked.orderly_bare own.detailed) h
    all_goals
      intro heq
      obtain rfl := Option.some.inj heq
      revert other
      decide
  have self := orderly_markedGrow comments above b
  unfold markedAddition
  dsimp only
  split
  · exact self.contents
  · split
    · have item : Orderly
          [.object none (.ofClass "sizeritem" []) [(markedGrow comments above b).object]] := by
        refine Marked.orderly_object
          (Marked.isOrderly_item rfl ⟨(markedGrow comments above b).object.erase, ?_⟩)
          Marked.orderly_nil self
        rw [Marked.objects_object, List.map_singleton,
          List.filter_cons_of_pos (isObject_markedGrow comments above b)]
        rfl
      exact shell (by decide) (by simp) (shell (by decide) (by simp) item)
    · split
      · cases b.children with
        | nil =>
          refine shell (by decide) unclassed_nil fun z hz => ?_
          obtain rfl := List.mem_singleton.1 hz
          exact Marked.isOrderly_of_unclassed rfl
        | cons child rest =>
          exact shell (by decide) unclassed_nil
            (orderly_markedGrow comments (b.label :: above) child)
      · split
        · exact self
        · exact Marked.orderly_nil

theorem orderly_marked (d : ResourceDocument) (t : Tree) (id : Nat) :
    Orderly (d.marked t id) := by
  unfold marked
  cases t.branch? id with
  | none => exact Marked.orderly_nil
  | some b => exact orderly_markedAddition _ _ _ _

/-- Around its objects a document has no items and no panes. -/
theorem forall_isFilled_nodes (d : ResourceDocument) :
    (∀ x ∈ Xml.elementsAll d.nodes, x.IsFilled)
      ↔ ∀ x ∈ Xml.elementsAll (d.objects.getD []), x.IsFilled := by
  have none : ∀ x ∈ Xml.elementsAll (if d.banner then bannerComments else []), x.IsFilled := by
    split <;> exact nofun
  have resource (objects : List Xml) :
      (∀ x ∈ Xml.elementsAll [resourceElement objects], x.IsFilled)
        ↔ ∀ x ∈ Xml.elementsAll objects, x.IsFilled := by
    have self : (resourceElement objects).IsFilled := Xml.isFilled_of_class nofun nofun
    rw [Xml.elementsAll, Xml.elementsAll, List.append_nil, resourceElement, Xml.elements,
      List.forall_mem_cons]
    exact and_iff_right self
  rw [nodes, Xml.elementsAll_append, List.forall_mem_append, and_iff_right none]
  cases d.objects with
  | none => exact Iff.rfl
  | some objects => exact resource objects

end ResourceDocument

end FormDesign
