import FormDesign.Proofs.Resource.Above
import FormDesign.Proofs.Resource.NamedOnce

/-!
# Nodes without an object leave no trace

Without comments the resource of a form is the same when the nodes that it cannot describe are taken
out of the form, with all that is below them. Their elements would be built and thrown away, so what
stands beside them and around them must not notice.

Only the menu below a tool does: it is there as soon as the tool has a child of any kind.

* `Design.MenusDescribed`: below a tool with a menu stands nothing that cannot be described
* `sprouts_growAll_trimmed`: what siblings grow into
* `ResourceDocument.objects_addition_trimmed`: what is added to a document
* `resourceText_trimmed`: the text of the resource
-/

namespace FormDesign

open Branch (places placesAll)

/-! ## One node -/

/-- Only the menu below a tool depends on whether the node has children. -/
theorem Element.container_congr {e : Element} {leafless leafless' : Bool}
    (menu : e.kind = .toolDropdown → leafless = leafless') (children : List Xml) :
    e.container leafless children = e.container leafless' children := by
  unfold container
  split
  · rfl
  · next h => rw [menu h]
  · rfl

namespace Growth

/-- Two growths that leave the same objects. -/
structure Alike (g g' : Growth) : Prop where
  placement : g.placement = g'.placement
  object : g.object = g'.object
  pages : g.pages = g'.pages

theorem Alike.asChild {g g' : Growth} (h : g.Alike g') :
    g.asChild.sprouts = g'.asChild.sprouts := by
  unfold Growth.asChild
  rw [h.placement, h.object, h.pages]
  split <;> rfl

theorem Alike.asPage {g g' : Growth} (h : g.Alike g') (depth : Nat) :
    (g.asPage depth).sprouts = (g'.asPage depth).sprouts := by
  unfold Growth.asPage
  rw [h.object, h.pages]

/-- A node leaves the same objects around children that do. -/
theorem alike_around (comments : Bool) (above : List Element) (trail : Trail) (depth : Nat)
    {e : Element} {leafless leafless' : Bool} {grove grove' : Bool → Trail → Grove}
    (menu : e.kind = .toolDropdown → leafless = leafless')
    (below : ∀ flatten inner, (grove flatten inner).sprouts = (grove' flatten inner).sprouts) :
    (around comments above trail depth e leafless grove).Alike
      (around comments above trail depth e leafless' grove') := by
  unfold around
  dsimp only
  cases e.resourceShape comments above with
  | absent | remark object => exact ⟨rfl, rfl, rfl⟩
  | plain object | wrapped outer inner =>
    unfold assemble
    simp only [Shape.holdsChildren, if_true, below, Element.container_congr menu]
    exact ⟨rfl, rfl, rfl⟩

end Growth

/-! ## All nodes of a design -/

/-- Below a tool with a menu stands nothing that the resource cannot describe. -/
def Branch.Place.MenuDescribed (q : Branch.Place Element) : Prop :=
  q.label.kind = .toolDropdown → ∀ c ∈ q.branch.children, c.label.isDescribed = true

/-- A design in which this holds of every tool with a menu. -/
def Design.MenusDescribed (b : Design) : Prop :=
  ∀ q ∈ places [] b, q.MenuDescribed

theorem Design.MenusDescribed.of_mem_places {b : Design} (h : b.MenusDescribed)
    {above : List Element} {q : Branch.Place Element} (hq : q ∈ places above b) :
    q.MenuDescribed := by
  rw [← List.nil_append above, Branch.places_append] at hq
  obtain ⟨r, hr, rfl⟩ := List.mem_map.1 hq
  exact h r hr

/-- Nothing is taken out below a node whose children the resource describes. -/
theorem Branch.isEmpty_trimmedAll {α : Type} {ok : α → Bool} {bs : List (Branch α)}
    (pass : ∀ b ∈ bs, ok b.label = true) : (trimmedAll ok bs).isEmpty = bs.isEmpty := by
  cases bs with
  | nil => rfl
  | cons b bs =>
    rw [trimmedAll, if_pos (pass b List.mem_cons_self)]
    rfl

mutual

/-- A node grows into the same objects without what the resource cannot describe below it. -/
theorem sprouts_growChild_trimmed (parent : Element) (flatten : Bool) (above : List Element)
    (trail : Trail) (b : Design) (menus : ∀ q ∈ places above b, q.MenuDescribed) :
    (growChild false parent flatten above trail (b.trimmed Element.isDescribed)).sprouts
      = (growChild false parent flatten above trail b).sprouts := by
  cases b with
  | mk e cs =>
    have below (flatten : Bool) (inner : Trail) :
        (growAll false e flatten (e :: above) inner
            (Branch.trimmedAll Element.isDescribed cs)).sprouts
          = (growAll false e flatten (e :: above) inner cs).sprouts :=
      sprouts_growAll_trimmed e flatten (e :: above) inner cs fun q hq =>
        menus q (List.mem_cons_of_mem _ hq)
    have menu (h : e.kind = .toolDropdown) :
        (Branch.trimmedAll Element.isDescribed cs).isEmpty = cs.isEmpty :=
      Branch.isEmpty_trimmedAll (menus _ (Branch.self_mem_places above _) h)
    have grown (trail : Trail) (depth : Nat) :=
      Growth.alike_around false above trail depth menu below
    rw [Branch.trimmed, growChild, growChild]
    dsimp only
    split
    · exact below true trail
    · split
      · exact (grown _ _).asPage _
      · exact (grown _ _).asChild

/-- Siblings grow into the same objects without what the resource cannot describe among them. -/
theorem sprouts_growAll_trimmed (parent : Element) (flatten : Bool) (above : List Element)
    (trail : Trail) (bs : List Design) (menus : ∀ q ∈ placesAll above bs, q.MenuDescribed) :
    (growAll false parent flatten above trail (Branch.trimmedAll Element.isDescribed bs)).sprouts
      = (growAll false parent flatten above trail bs).sprouts := by
  cases bs with
  | nil => rfl
  | cons b bs =>
    have rest := sprouts_growAll_trimmed parent flatten above trail bs fun q hq =>
      menus q (List.mem_append_right _ hq)
    rw [Branch.trimmedAll, growAll.eq_def _ _ _ _ _ (b :: bs)]
    dsimp only
    cases hd : b.label.isDescribed with
    | false =>
      rw [if_neg Bool.false_ne_true, rest, Grove.append,
        sprouts_growChild_of_not_described parent flatten above trail hd, List.nil_append]
    | true =>
      rw [if_pos rfl, growAll, Grove.append, Grove.append, rest,
        sprouts_growChild_trimmed parent flatten above trail b fun q hq =>
          menus q (List.mem_append_left _ hq)]

end

theorem alike_grow_trimmed (above : List Element) {b : Design} (menus : b.MenusDescribed) :
    (grow false above (b.trimmed Element.isDescribed)).Alike (grow false above b) := by
  cases b with
  | mk e cs =>
    refine Growth.alike_around _ _ _ _ (fun h => ?_) fun flatten inner => ?_
    · exact Branch.isEmpty_trimmedAll (menus _ (Branch.self_mem_places [] _) h)
    · refine sprouts_growAll_trimmed e flatten (e :: above) inner cs fun q hq => ?_
      exact menus.of_mem_places (List.mem_cons_of_mem _ hq)

/-! ## Documents -/

namespace ResourceDocument

/-- The same is added to a document. -/
theorem objects_addition_trimmed (above : List Element) {b : Design} (menus : b.MenusDescribed) :
    (addition false false above (b.trimmed Element.isDescribed)).objects
      = (addition false false above b).objects := by
  have alike := alike_grow_trimmed above menus
  rw [objects_addition, objects_addition, Branch.label_trimmed, alike.placement, alike.object]

/-- The panel around a bar stays as it is. -/
theorem barPanel_trimmed {bar : Design} (described : bar.label.isDescribed = true) :
    barPanel (bar.trimmed Element.isDescribed)
      = (barPanel bar).trimmed Element.isDescribed := by
  have only {c : Design} (h : c.label.isDescribed = true) :
      Branch.trimmedAll Element.isDescribed [c] = [c.trimmed Element.isDescribed] := by
    rw [Branch.trimmedAll, if_pos h, Branch.trimmedAll]
  unfold barPanel
  rw [Branch.label_trimmed, Branch.trimmed, only rfl, Branch.trimmed, only described]

theorem menusDescribed_barPanel {bar : Design} (menus : bar.MenusDescribed) :
    (barPanel bar).MenusDescribed := by
  intro q hq
  simp only [barPanel, places, placesAll, List.append_nil, List.mem_cons] at hq
  rcases hq with rfl | rfl | hq
  · exact fun menu => absurd menu (show Kind.panelForm ≠ .toolDropdown by decide)
  · exact fun menu => absurd menu (show Kind.verticalBoxSizer ≠ .toolDropdown by decide)
  · exact menus.of_mem_places hq

end ResourceDocument

/-- **Without comments, what the resource cannot describe leaves no trace in it.** The text for a
form is the same in a tree that has the form without these nodes, at a place that is alike. -/
theorem resourceText_trimmed {t t' : Tree} {id id' : Nat} {b : Design}
    (form : t.design id = .ok b) (described : b.label.isDescribed = true)
    (menus : b.MenusDescribed)
    (trimmed : t'.design id' = .ok (b.trimmed Element.isDescribed))
    (place : Overhead ((t.ancestors id).map Node.toElement) ((t'.ancestors id').map Node.toElement))
    {options : ResourceOptions} (comments : options.addComments = false) :
    ∃ text, resourceText t id options false = .ok text ∧
      resourceText t' id' options false = .ok text := by
  let fresh := ResourceDocument.empty options false false
  have objects (a a' : ResourceDocument.Addition) (h : a.objects = a'.objects) :
      (fresh.extend a).text = (fresh.extend a').text := by
    unfold ResourceDocument.text ResourceDocument.nodes ResourceDocument.extend
    dsimp only
    rw [h]
  unfold resourceText ResourceDocument.add
  rw [form, trimmed]
  refine ⟨_, rfl, congrArg Except.ok (objects _ _ ?_)⟩
  rw [show fresh.options.addComments = false from comments,
    show fresh.previewing = false from rfl, Branch.label_trimmed]
  split
  · rw [ResourceDocument.barPanel_trimmed described]
    exact ResourceDocument.objects_addition_trimmed []
      (ResourceDocument.menusDescribed_barPanel menus)
  · rw [ResourceDocument.objects_addition_trimmed _ menus,
      ResourceDocument.addition_congr place]

/-! ## A dialog with a popup window -/

/-- A dialog with a timer, and with a popup window and a tool with a menu in its sizer. -/
def popupDialog : Design :=
  .mk (.ofKind .dialog)
    [.mk (.ofKind .timer) [],
      .mk (.ofKind .verticalBoxSizer)
        [.mk (.ofKind .popupTransientWindow) [.mk (.ofKind .button) []],
          .mk (.ofKind .toolBar) [.mk (.ofKind .toolDropdown) [.mk (.ofKind .menuItem) []]],
          .mk (.ofKind .contextMenuEvent) []]]

theorem resourceText_popupDialog :
    ((popupDialog.trimmed Element.isDescribed).toList.map Element.kind
      = [.dialog, .verticalBoxSizer, .toolBar, .toolDropdown, .menuItem]) ∧
    ∃ text,
      resourceText (.ofDesign (.mk (.ofKind .project) [popupDialog])) 1 .default false
          = .ok text ∧
        resourceText
          (.ofDesign (.mk (.ofKind .project) [popupDialog.trimmed Element.isDescribed])) 1 .default
            false
          = .ok text := by
  refine ⟨by decide, resourceText_trimmed (b := popupDialog) ?_ rfl ?_ ?_ ?_ rfl⟩
  · with_unfolding_all rfl
  · unfold Design.MenusDescribed Branch.Place.MenuDescribed
    decide
  · with_unfolding_all rfl
  · exact Overhead.of_plain (by decide +kernel) (by decide +kernel)

end FormDesign
