import FormDesign.Proofs.Code.Relabel
import FormDesign.Proofs.Code.Spots

/-!
# A form with other items

A form can be taken from one project to another, or to another place in its project. Its nodes then
get new positions, and other folders stand above it. Or the events of its nodes are written down in
another order. In both cases each pass over the form finds the same, with the new items where the
items are part of what it finds. The events themselves are left to the next module.

* `Form.Recast`: a form and the same form with other items
* `Form.Recast.planAll`: the steps of construction
* `Form.Recast.destination`: the platforms of a spot
* `Form.Recast.members`: the members of the class
-/

namespace FormDesign

/-- An element without its events. -/
def Element.eventless (e : Element) : Element :=
  { e with events := [] }

/-- The form `g` is the form `f` with other items, which have the same kinds, properties and names.
Other items may stand above it too, as long as the nearest selector there is the same, and the
nearest book. -/
structure Form.Recast (f g : Form) (r : Item → Item) : Prop where
  items : Item.Recast r
  isForm : f.item.kind.isForm = true
  item : g.item = r f.item
  children : g.children = Branch.mapAll r f.children
  selector : (g.above.findSome? fun i => i.element.selector?)
    = f.above.findSome? fun i => i.element.selector?
  book : (g.above.find? fun i => i.kind.isBook) = (f.above.find? fun i => i.kind.isBook).map r

theorem Branch.labels_mapAll {α β : Type} (f : α → β) (bs : List (Branch α)) :
    (mapAll f bs).map label = (bs.map label).map f := by
  rw [mapAll_eq, List.map_map, List.map_map]
  exact List.map_congr_left fun b _ => label_map f b

namespace Form.Recast

variable {f g : Form} {r : Item → Item} (h : f.Recast g r)

/-! ## Construction -/

section

include h

theorem path_eq : g.path = r f.item :: g.above := by
  rw [path, h.item]

theorem bookWindow (s : Site) (inner : List Item) :
    s.bookWindow (inner.map r ++ g.path) = s.bookWindow (inner ++ f.path) := by
  have hr := h.items
  induction inner with
  | nil =>
    rw [h.path_eq, path]
    simp only [List.map_nil, List.nil_append, Site.bookWindow, hr.kind, h.isForm, if_true]
  | cons i inner ih =>
    simp only [List.map_cons, List.cons_append, Site.bookWindow, hr.kind, hr.siteVar, ih]

theorem controlWindow (s : Site) (inner : List Item) :
    s.controlWindow (inner.map r ++ g.path) = s.controlWindow (inner ++ f.path) := by
  have hr := h.items
  induction inner with
  | nil =>
    rw [h.path_eq, path]
    simp only [List.map_nil, List.nil_append, Site.controlWindow, hr.kind, h.isForm, if_true]
  | cons i inner ih =>
    simp only [List.map_cons, List.cons_append, Site.controlWindow, hr.kind, hr.siteVar, ih]

/-- The nearest book is the same, since the form itself is none. -/
theorem find?_isBook (inner : List Item) :
    ((inner.map r ++ g.path).find? fun i => i.kind.isBook)
      = ((inner ++ f.path).find? fun i => i.kind.isBook).map r := by
  have hr := h.items
  have hform : f.item.kind.isBook = false := by
    have := h.isForm
    simp only [Kind.isForm, beq_iff_eq] at this
    simp [Kind.isBook, this]
  have hpath : (g.path.find? fun i => i.kind.isBook)
      = (f.path.find? fun i => i.kind.isBook).map r := by
    rw [h.path_eq, path, List.find?_cons_of_neg (by simp [hr.kind, hform]),
      List.find?_cons_of_neg (by simp [hform]), h.book]
  have hkind : ((fun i : Item => i.kind.isBook) ∘ r) = fun i => i.kind.isBook :=
    funext fun i => congrArg Kind.isBook (hr.kind i)
  rw [List.find?_append, List.find?_append, hpath, List.find?_map, hkind, Option.map_or]

theorem alike (s : Site) (i : Item) (cs : List (Branch Item)) (inner before : List Item) :
    s.Alike r { item := i, children := cs.map Branch.label, above := inner ++ f.path, before }
      { item := r i, children := (Branch.mapAll r cs).map Branch.label,
        above := inner.map r ++ g.path, before := before.map r } where
  item := rfl
  children := Branch.labels_mapAll r cs
  parent := by
    rw [Place.parent?, Place.parent?, h.path_eq, path]
    cases inner <;> rfl
  window := by
    rw [Site.window, Site.window, h.bookWindow, h.controlWindow]
    exact if_congr (by rw [Place.kind, Place.kind, h.items.kind]) rfl rfl
  book := h.find?_isBook inner
  above := by
    rw [h.path_eq, path]
    cases inner <;> rfl
  page := by
    rw [List.find?_map]
    congr 2
    exact funext fun i => congrArg (· == Kind.wizardPage) (h.items.kind i)

end

mutual

theorem planNode (h : f.Recast g r) (s : Site) (inner before : List Item) (b : Branch Item) :
    s.planNode (inner.map r ++ g.path) (before.map r) (b.map r)
      = s.planNode (inner ++ f.path) before b := by
  cases b with
  | mk i cs =>
    have hr := h.items
    have hplace := h.alike s i cs inner before
    have hbelow := planAll h s (i :: inner) [] cs
    simp only [List.map_cons, List.map_nil, List.cons_append] at hbelow
    rw [Branch.map, Site.planNode, Site.planNode, hr.isMenuBuilder, hr.creates, hr.confined,
      hr.unsupported, hbelow, hplace.createNode hr, hplace.finish hr]

/-- The same steps are planned for the children of a node. -/
theorem planAll (h : f.Recast g r) (s : Site) (inner before : List Item) (bs : List (Branch Item)) :
    s.planAll (inner.map r ++ g.path) (before.map r) (Branch.mapAll r bs)
      = s.planAll (inner ++ f.path) before bs := by
  cases bs with
  | nil => rfl
  | cons b bs =>
    have hfirst := planNode h s inner before b
    have hrest := planAll h s inner (b.label :: before) bs
    rw [List.map_cons] at hrest
    rw [Branch.mapAll, Site.planAll, Site.planAll, hfirst, Branch.label_map, hrest]

end

end Form.Recast

/-! ## Spots -/

/-- What stands above a node of `f`, as it stands above the node in `g`. -/
def Form.carry (f g : Form) (r : Item → Item) (above : List Item) : List Item :=
  (above.take (above.length - f.above.length)).map r ++ g.above

/-- A spot of `f` as a spot of `g`. -/
def Spot.carry (f g : Form) (r : Item → Item) (s : Spot) : Spot :=
  { item := r s.item, above := f.carry g r s.above }

/-- An event of `f` as an event of `g`. -/
def EventUse.carry (f g : Form) (r : Item → Item) (u : EventUse) : EventUse :=
  { u with spot := u.spot.carry f g r }

@[simp] theorem Form.carry_append (f g : Form) (r : Item → Item) (inner : List Item) :
    f.carry g r (inner ++ f.above) = inner.map r ++ g.above := by
  simp [carry]

@[simp] theorem Form.carry_above (f g : Form) (r : Item → Item) :
    f.carry g r f.above = g.above := by
  simpa using f.carry_append g r []

theorem Form.Recast.carry_path {f g : Form} {r : Item → Item} (h : f.Recast g r)
    (inner : List Item) : f.carry g r (inner ++ f.path) = inner.map r ++ g.path := by
  have hpath : inner ++ f.path = (inner ++ [f.item]) ++ f.above := by
    rw [List.append_assoc]
    rfl
  rw [hpath, carry_append, h.path_eq, List.map_append, List.append_assoc]
  rfl

namespace Form.Recast

variable {f g : Form} {r : Item → Item} (h : f.Recast g r)

include h

theorem branch : g.branch = f.branch.map r := by
  rw [Form.branch, Form.branch, h.item, h.children, Branch.map]

theorem innerItems :
    g.innerSpots.map Spot.item = (f.innerSpots.map Spot.item).map r := by
  rw [innerSpots, innerSpots, map_item_spotsOfAll, map_item_spotsOfAll, h.children,
    Branch.toListAll_mapAll]

theorem innerElements :
    g.innerElements.map Element.eventless = f.innerElements.map Element.eventless := by
  have helements := congrArg (List.map fun i : Item => i.element.eventless) h.innerItems
  simp only [List.map_map] at helements
  rw [Form.innerElements, Form.innerElements, List.map_map, List.map_map]
  refine helements.trans (List.map_congr_left fun s _ => ?_)
  exact h.items.read Element.eventless (fun _ _ => rfl) s.item

/-- What is read off the form's own element without its events is the same. -/
theorem read {β : Type} (view : Element → β)
    (blind : ∀ e events, view { e with events } = view e) : view g.element = view f.element := by
  have hitem : g.element = (r f.item).element := congrArg Item.element h.item
  rw [hitem]
  exact h.items.read view blind f.item

theorem elements : g.elements.map Element.eventless = f.elements.map Element.eventless := by
  have hform : g.element.eventless = f.element.eventless :=
    h.read Element.eventless fun _ _ => rfl
  have hself : g.elements.map Element.eventless
      = g.element.eventless :: g.innerElements.map Element.eventless := rfl
  rw [hself, hform, h.innerElements]
  rfl

/-- A spot goes to the same destination: its own selector and those between it and the form are the
same, and so is the nearest above. -/
theorem destination {s : Spot} (hs : f.above <:+ s.above) :
    (s.carry f g r).destination = s.destination := by
  obtain ⟨item, above⟩ := s
  obtain ⟨inner, rfl⟩ := hs
  have hselector : ((fun i : Item => i.element.selector?) ∘ r) = fun i => i.element.selector? :=
    funext h.items.selector?
  have hitem : (r item).element.selector? = item.element.selector? := congrFun hselector item
  simp only [Spot.carry, carry_append, Spot.destination, List.findSome?_cons,
    List.findSome?_append, List.findSome?_map, hselector, hitem, h.selector]

end Form.Recast

mutual

theorem spotsOf_carry (f g : Form) (r : Item → Item) (inner : List Item) (b : Branch Item) :
    spotsOf (inner.map r ++ g.above) (b.map r)
      = (spotsOf (inner ++ f.above) b).map (Spot.carry f g r) := by
  cases b with
  | mk i cs =>
    have hbelow := spotsOfAll_carry f g r (i :: inner) cs
    rw [List.map_cons, List.cons_append, List.cons_append] at hbelow
    rw [Branch.map, spotsOf, spotsOf, hbelow, List.map_cons, Spot.carry, f.carry_append]

theorem spotsOfAll_carry (f g : Form) (r : Item → Item) (inner : List Item)
    (bs : List (Branch Item)) :
    spotsOfAll (inner.map r ++ g.above) (Branch.mapAll r bs)
      = (spotsOfAll (inner ++ f.above) bs).map (Spot.carry f g r) := by
  cases bs with
  | nil => rfl
  | cons b bs =>
    rw [Branch.mapAll, spotsOfAll, spotsOfAll, List.map_append, spotsOf_carry f g r inner b,
      spotsOfAll_carry f g r inner bs]

end

mutual

theorem spotsOutsideMenus_carry {r : Item → Item} (hr : Item.Recast r) (f g : Form)
    (inner : List Item) (b : Branch Item) :
    spotsOutsideMenus (inner.map r ++ g.above) (b.map r)
      = (spotsOutsideMenus (inner ++ f.above) b).map (Spot.carry f g r) := by
  cases b with
  | mk i cs =>
    have hbelow := spotsOutsideMenusAll_carry hr f g (i :: inner) cs
    rw [List.map_cons, List.cons_append, List.cons_append] at hbelow
    rw [Branch.map, spotsOutsideMenus, spotsOutsideMenus, hr.isMenuBuilder]
    split
    · rfl
    · rw [hbelow, List.map_cons, Spot.carry, f.carry_append]

theorem spotsOutsideMenusAll_carry {r : Item → Item} (hr : Item.Recast r) (f g : Form)
    (inner : List Item) (bs : List (Branch Item)) :
    spotsOutsideMenusAll (inner.map r ++ g.above) (Branch.mapAll r bs)
      = (spotsOutsideMenusAll (inner ++ f.above) bs).map (Spot.carry f g r) := by
  cases bs with
  | nil => rfl
  | cons b bs =>
    rw [Branch.mapAll, spotsOutsideMenusAll, spotsOutsideMenusAll, List.map_append,
      spotsOutsideMenus_carry hr f g inner b, spotsOutsideMenusAll_carry hr f g inner bs]

end

/-- A branch of `f` and what stands above it, as they are in `g`. -/
def carryBranch (f g : Form) (r : Item → Item) (menu : List Item × Branch Item) :
    List Item × Branch Item :=
  (f.carry g r menu.1, menu.2.map r)

mutual

theorem menuBranchesIn_carry {r : Item → Item} (hr : Item.Recast r) (f g : Form)
    (inner : List Item) (b : Branch Item) :
    menuBranchesIn (inner.map r ++ g.above) (b.map r)
      = (menuBranchesIn (inner ++ f.above) b).map (carryBranch f g r) := by
  cases b with
  | mk i cs =>
    have hbelow := menuBranchesInAll_carry hr f g (i :: inner) cs
    rw [List.map_cons, List.cons_append, List.cons_append] at hbelow
    rw [Branch.map, menuBranchesIn, menuBranchesIn, hr.isMenuBuilder, hbelow]
    split
    · rw [List.map_cons, carryBranch, f.carry_append, Branch.map]
    · rfl

theorem menuBranchesInAll_carry {r : Item → Item} (hr : Item.Recast r) (f g : Form)
    (inner : List Item) (bs : List (Branch Item)) :
    menuBranchesInAll (inner.map r ++ g.above) (Branch.mapAll r bs)
      = (menuBranchesInAll (inner ++ f.above) bs).map (carryBranch f g r) := by
  cases bs with
  | nil => rfl
  | cons b bs =>
    rw [Branch.mapAll, menuBranchesInAll, menuBranchesInAll, List.map_append,
      menuBranchesIn_carry hr f g inner b, menuBranchesInAll_carry hr f g inner bs]

end

namespace Form.Recast

variable {f g : Form} {r : Item → Item} (h : f.Recast g r)

include h

theorem spots : g.spots = f.spots.map (Spot.carry f g r) := by
  have hspots := spotsOf_carry f g r [] f.branch
  rwa [← h.branch] at hspots

theorem menuBranches : g.menuBranches = f.menuBranches.map (carryBranch f g r) := by
  have hmenus := menuBranchesIn_carry h.items f g [] f.branch
  rwa [← h.branch] at hmenus

theorem menuBuilders : g.menuBuilders = f.menuBuilders.map (Spot.carry f g r) := by
  rw [Form.menuBuilders, Form.menuBuilders, h.menuBranches, List.map_map, List.map_map]
  refine List.map_congr_left fun (above, b) _ => ?_
  show ({ item := (b.map r).label, above := f.carry g r above } : Spot)
    = { item := r b.label, above := f.carry g r above }
  rw [Branch.label_map]

/-- Every spot outside of context menus declares the same in both places. -/
theorem members (d : Dialect) : g.members d = f.members d := by
  have hspots := spotsOutsideMenusAll_carry h.items f g [f.item] f.children
  have hpath : [f.item].map r ++ g.above = g.path := h.path_eq.symm
  rw [← h.children, hpath] at hspots
  have hadd (t : MemberTable) {s : Spot} (hs : f.above <:+ s.above) :
      t.addSpot d (s.carry f g r) = t.addSpot d s := by
    have hdestination := h.destination hs
    obtain ⟨events, helement⟩ := h.items.element s.item
    have hname := h.items.name s.item
    have hitem : (s.carry f g r).item = r s.item := rfl
    simp only [MemberTable.addSpot, MemberTable.addVariable, MemberTable.addValidator,
      hdestination, hitem, hname, helement, Access.of_events, Element.text_events,
      resolveClass_events, Element.validator?_events]
  have habove : ∀ s ∈ spotsOutsideMenusAll ([f.item] ++ f.above) f.children,
      f.above <:+ s.above := fun s hs =>
    (List.suffix_cons f.item f.above).trans
      (suffix_of_mem_spotsOfAll (spotsOutsideMenusAll_subset _ _ hs))
  rw [Form.members, Form.members, hspots, List.foldl_map]
  exact List.foldl_ext _ _ _ fun t s hs => hadd t (habove s hs)

end Form.Recast

end FormDesign
