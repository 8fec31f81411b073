import FormDesign.Proofs.Code.Binding
import FormDesign.Proofs.Code.Created

/-!
# The variables of context menus

The handler of a context menu creates the menu and what is in it in local variables. A handler
should refer to no others: the constructor's are out of its reach, and a local exists only once it
was created. What the nodes of the menu refer to is created before, but for strays and for objects
that stand around the menu. Events are bound on the variables that their nodes have outside of
menus, which may be members.

* `Dialect.SelfContained`: steps that refer to their own variables only
* `Form.created_or_foreign`: what the steps of a menu refer to
* `Form.Elsewhere.not_created`: where names are apart, what is foreign is not created by the menu
* `menusSelfContained_iff`: when the handlers of a form are self-contained
-/

namespace FormDesign

/-! ## Steps with variables of their own -/

/-- The variables that some steps create. -/
def createdIn (steps : List Step) : List Var :=
  steps.filterMap fun st => st.creation?.map Prod.fst

/-- The variables that a step refers to, whatever it is. -/
def Step.refers : Step → List Var
  | .stmt s => s.mentions
  | .validate control _ => [control]
  | .bind b =>
    match b.source with
    | .form => []
    | .window v => [v]
    | .item id => id.vars
  | .gap | .within .. | .warn _ => []

theorem Step.mentions_subset_refers (st : Step) : st.mentions ⊆ st.refers := by
  cases st with
  | stmt => exact List.Subset.refl _
  | bind | validate | gap | within | warn => exact List.nil_subset _

namespace Dialect

/-- A reference to `v` is one to `w`: both have the same name and the same scope. In C++ members are
written like locals, so the name is enough. -/
def Means (d : Dialect) (v w : Var) : Prop :=
  v.name = w.name ∧ (d = .cpp ∨ v.isMember = w.isMember)

/-- Such a reference is written like one to the other. -/
theorem Means.varRef_eq {d : Dialect} {v w : Var} (h : d.Means v w) :
    d.varRef v = d.varRef w := by
  obtain ⟨name, scope⟩ := h
  unfold varRef
  rw [name]
  rcases scope with rfl | scope
  · cases v.isMember <;> cases w.isMember <;> rfl
  · rw [scope]

/-- **Some steps keep to variables of their own**: each local is created once, and every reference
is to a local that was created before. -/
structure SelfContained (d : Dialect) (steps : List Step) : Prop where
  createdOnce : ((createdIn steps).map Var.name).Nodup
  own : ∀ before st after, steps = before ++ st :: after → ∀ v ∈ st.refers,
    ∃ w ∈ createdIn before, w.isMember = false ∧ d.Means v w

/-- The same said of a trace. -/
theorem selfContained_iff_trace {d : Dialect} {xs : List Traced} :
    d.SelfContained (xs.map Traced.step) ↔
      ((Traced.created xs).map Var.name).Nodup ∧
        ∀ before x after, xs = before ++ x :: after → ∀ v ∈ x.step.refers,
          ∃ w ∈ Traced.created before, w.isMember = false ∧ d.Means v w := by
  have created (ys : List Traced) : createdIn (ys.map Traced.step) = Traced.created ys :=
    List.filterMap_map
  constructor
  · rintro ⟨once, own⟩
    rw [created] at once
    refine ⟨once, fun before x after heq v hv => ?_⟩
    have split : xs.map Traced.step
        = before.map Traced.step ++ x.step :: after.map Traced.step := by
      rw [heq, List.map_append, List.map_cons]
    rw [← created]
    exact own _ _ _ split v hv
  · rintro ⟨once, own⟩
    rw [← created] at once
    refine ⟨once, fun before st after heq v hv => ?_⟩
    obtain ⟨front, back, rfl, rfl, hback⟩ := List.map_eq_append_iff.1 heq
    obtain ⟨x, rest, rfl, rfl, -⟩ := List.map_eq_cons_iff.1 hback
    rw [created]
    exact own front x rest rfl v hv

end Dialect

/-! ## The steps of a menu -/

namespace Form

variable {f : Form} {d : Dialect} {c : Collected} {above : List Item} {b : Branch Item}

/-- Where the handlers of context menus create their objects: all their variables are local. -/
def menuSite (f : Form) (d : Dialect) (images : List Asset) : Site :=
  { f.site d images with inMenu := true }

/-- The steps of the method that shows a context menu, blocks opened. -/
def handlerSteps (f : Form) (d : Dialect) (c : Collected) (menu : List Item × Branch Item) :
    List Step :=
  (Step.leavesAll [] (f.menuSteps d c menu.1 menu.2)).map Prod.snd

theorem handlerSteps_eq (menu : List Item × Branch Item) :
    f.handlerSteps d c menu = (f.traceMenu d c menu.1 menu.2).map Traced.step := by
  rw [handlerSteps, leavesAll_menuSteps, List.map_map]
  rfl

/-- The handler of a menu creates it, then what is in it, and binds the events at the end. -/
theorem traceMenu_eq (b : Branch Item) :
    f.traceMenu d c above b
      = Traced.mark []
          (.node { item := b.label, children := b.children.map Branch.label, above, before := [] })
          [.stmt (.create contextMenuVar (d.classToken "wxMenu" .core) [] none)]
        ++ (f.menuSite d c.images).traceAll [] (b.label :: above) [] b.children
        ++ (menuEvents c.events b.label).map (f.traceEvent []) := by
  obtain ⟨i, cs⟩ := b
  rfl

theorem created_map_traceEvent (uses : List EventUse) :
    Traced.created (uses.map (f.traceEvent [])) = [] := by
  refine List.filterMap_eq_nil_iff.2 fun x hx => ?_
  obtain ⟨u, -, rfl⟩ := List.mem_map.1 hx
  rfl

/-- What is created in a menu is the menu itself, and what belongs to its nodes. -/
theorem created_traceMenu :
    Traced.created (f.traceMenu d c above b)
      = contextMenuVar ::
        Traced.created ((f.menuSite d c.images).traceAll [] (b.label :: above) [] b.children) := by
  rw [traceMenu_eq, Traced.created_append, Traced.created_append, created_map_traceEvent,
    List.append_nil]
  rfl

/-- The handler of a menu creates local variables only. -/
theorem eq_temporary_of_mem_created {w : Var}
    (h : w ∈ Traced.created (f.traceMenu d c above b)) : w = .temporary w.name := by
  rw [created_traceMenu] at h
  rcases List.mem_cons.1 h with rfl | h
  · rfl
  · obtain ⟨-, -, p, -, -, -, ⟨-, rfl⟩ | ⟨-, rfl⟩⟩ := Site.exists_place_of_created h
    · rfl
    · rfl

/-- A step of a menu creates it, or is there for one of its nodes, or binds one of its events. -/
theorem mem_traceMenu {x : Traced} (hx : x ∈ f.traceMenu d c above b) :
    (∃ p, x.origin = .node p ∧ p.item = b.label) ∧ x.step.isPlain = true ∨
      x ∈ (f.menuSite d c.images).traceAll [] (b.label :: above) [] b.children ∨
      ∃ u ∈ menuEvents c.events b.label, x = f.traceEvent [] u := by
  rw [traceMenu_eq, List.mem_append, List.mem_append] at hx
  rcases hx with (hx | hx) | hx
  · obtain rfl := List.mem_singleton.1 hx
    exact Or.inl ⟨⟨_, rfl, rfl⟩, rfl⟩
  · exact Or.inr (Or.inl hx)
  · obtain ⟨u, hu, rfl⟩ := List.mem_map.1 hx
    exact Or.inr (Or.inr ⟨u, hu, rfl⟩)

theorem traceEvent_mem_traceMenu {u : EventUse} (hu : u ∈ menuEvents c.events b.label) :
    f.traceEvent [] u ∈ f.traceMenu d c above b := by
  rw [traceMenu_eq]
  exact List.mem_append_right _ (List.mem_map_of_mem hu)

/-- Events are bound when everything in the menu exists. -/
theorem created_before_event {before after : List Traced} {u : EventUse}
    (h : f.traceMenu d c above b = before ++ f.traceEvent [] u :: after) :
    Traced.created before = Traced.created (f.traceMenu d c above b) := by
  have rest : Traced.created (f.traceEvent [] u :: after) = [] := by
    -- what comes behind an event are events
    rw [traceMenu_eq] at h
    rcases List.append_eq_append_iff.1 h with ⟨more, -, hevents⟩ | ⟨more, hnodes, hmore⟩
    · obtain ⟨-, uses, -, -, hrest⟩ := List.map_eq_append_iff.1 hevents
      rw [← hrest, created_map_traceEvent]
    · cases more with
      | nil => rw [hmore, List.nil_append, created_map_traceEvent]
      | cons first more =>
        obtain ⟨rfl, -⟩ := List.cons.inj hmore
        have node := hnodes ▸ List.mem_append_right before (List.mem_cons_self (l := more))
        rcases List.mem_append.1 node with node | node
        · cases List.mem_singleton.1 node
        · cases Site.isPlain_of_mem_traceAll node
  rw [h, Traced.created_append, rest, List.append_nil]

end Form

/-! ## What the steps of a menu refer to -/

namespace Site

variable {s : Site} {known : Var → Prop}

/-- The variables of the objects around a menu, up to the form. -/
def around (s : Site) : List Item → List Var
  | [] => []
  | i :: above =>
    if i.kind.isForm then []
    else (s.objectVar? { item := i, above }).toList ++ s.around above

theorem fst_object? {i : Item} {above : List Item} {o : Var × String}
    (h : s.object? i above false = some o) :
    o.1 = contextMenuVar ∨ s.objectVar? { item := i, above } = some o.1 := by
  unfold object? at h
  unfold objectVar?
  split at h
  · next hk =>
    obtain rfl := Option.some.inj h
    exact Or.inr (if_pos hk)
  · next hk =>
    split at h
    · next hm =>
      obtain rfl := Option.some.inj h
      have hm : hasMenu i above = true := (Bool.and_eq_true_iff.1 hm).1
      exact Or.inr (by rw [if_neg hk, if_pos hm])
    · split at h
      · obtain rfl := Option.some.inj h
        exact Or.inl rfl
      · cases h

/-- An object around a menu belongs to a node in front of the form. -/
theorem mem_around {above : List Item} {v : Var} (hv : v ∈ s.around above) :
    ∃ front i rest, above = front ++ i :: rest ∧ (∀ j ∈ front ++ [i], j.kind.isForm = false) ∧
      s.objectVar? { item := i, above := rest } = some v := by
  induction above with
  | nil => cases hv
  | cons i above ih =>
    unfold around at hv
    split at hv
    · cases hv
    · next hf =>
      have hf : i.kind.isForm = false := Bool.eq_false_iff.2 hf
      rcases List.mem_append.1 hv with hv | hv
      · exact ⟨[], i, above, rfl, List.forall_mem_singleton.2 hf, Option.mem_toList.1 hv⟩
      · obtain ⟨front, j, rest, rfl, inside, hobject⟩ := ih hv
        exact ⟨i :: front, j, rest, rfl, List.forall_mem_cons.2 ⟨hf, inside⟩, hobject⟩

/-- Nodes find their surroundings when the objects around the menu are known. -/
theorem ready_of_around {above : List Item} (menu : known contextMenuVar)
    (around : ∀ v ∈ s.around above, known v) : s.Ready known above := by
  induction above with
  | nil => trivial
  | cons i above ih =>
    by_cases hf : i.kind.isForm = true
    · exact Or.inl hf
    · rw [Site.around, if_neg hf] at around
      refine Or.inr ⟨fun o ho => ?_, ih fun v hv => around v (List.mem_append_right _ hv)⟩
      rcases fst_object? ho with heq | hvar
      · rwa [heq]
      · exact around o.1 (List.mem_append_left _ (by rw [hvar]; exact List.mem_singleton_self _))

end Site

namespace Form

variable {f : Form} {d : Dialect} {c : Collected} {above : List Item} {b : Branch Item}

/-- The references of a statement that the handler of a menu need not have created before: those to
strays and to what is around the menu. -/
def foreign (f : Form) (d : Dialect) (c : Collected) (above : List Item) (x : Traced) : List Var :=
  let s := f.menuSite d c.images
  x.step.mentions.filter fun v => v ∈ s.straysOf x ++ s.around above

/-- What the statements of a menu refer to was created before, apart from strays and from what is
around the menu. -/
theorem scoped_traceMenu (hb : b.label.isMenuBuilder = true) :
    Traced.Scoped
      (fun x => (f.menuSite d c.images).straysOf x ++ (f.menuSite d c.images).around above)
      (fun _ => False) (f.traceMenu d c above b) := by
  have ready : (f.menuSite d c.images).Ready
      (fun v => v = contextMenuVar ∨ v ∈ (f.menuSite d c.images).around above)
      (b.label :: above) := by
    refine Site.ready_of_around (Or.inl rfl) fun v hv => Or.inr ?_
    have own : (f.menuSite d c.images).objectVar? { item := b.label, above } = none := by
      have hk : b.label.kind = .contextMenuEvent := beq_iff_eq.1 hb
      simp [Site.objectVar?, Site.keeps, Site.hasMenu, hk, Kind.category]
    unfold Site.around at hv
    split at hv
    · cases hv
    · rwa [own, Option.toList_none, List.nil_append] at hv
  rw [traceMenu_eq, Traced.scoped_append, Traced.scoped_append]
  refine ⟨⟨.cons (fun v hv => ?_) .nil, ?_⟩, ?_⟩
  · cases hv
  · rw [Traced.scoped_iff]
    intro before x after heq v hv
    have inner : Traced.Scoped _ _ ((f.menuSite d c.images).traceAll [] _ [] b.children) :=
      Site.scoped_traceAll ready (List.forall_mem_nil _)
    rcases Traced.scoped_iff.1 inner before x after heq v hv with ((rfl | haround) | made) | stray
    · exact Or.inl (Or.inl (Or.inr List.mem_cons_self))
    · exact Or.inr (List.mem_append_right _ haround)
    · exact Or.inl (Or.inr made)
    · exact Or.inr (List.mem_append_left _ stray)
  · rw [Traced.scoped_iff]
    intro before x after heq v hv
    have hx : x ∈ (menuEvents c.events b.label).map (f.traceEvent []) :=
      heq ▸ List.mem_append_right _ List.mem_cons_self
    obtain ⟨u, -, rfl⟩ := List.mem_map.1 hx
    cases hv

theorem vars_of_bindSource {i : Item} {id : Expr} (h : i.bindSource = .item id) :
    id.vars = [] := by
  unfold Item.bindSource at h
  split at h
  · cases h
  · split at h
    · obtain rfl := BindSource.item.inj h
      rfl
    · obtain rfl := BindSource.item.inj h
      rfl
    · cases h

/-- A binding refers to the window that its event comes from, if it comes from one. -/
theorem mem_refers_traceEvent {blocks : List String} {u : EventUse} {v : Var} :
    v ∈ (f.traceEvent blocks u).step.refers ↔ u.item.bindSource = .window v := by
  have refers : (f.traceEvent blocks u).step.refers
      = match u.item.bindSource with
        | .form => []
        | .window w => [w]
        | .item id => id.vars := rfl
  rw [refers]
  cases source : u.item.bindSource with
  | form => simp
  | window w => simp [eq_comm]
  | item id => simp [vars_of_bindSource source]

theorem anchored_traceMenu : Traced.Anchored (f.traceMenu d c above b) := by
  have events : Traced.Anchored ((menuEvents c.events b.label).map (f.traceEvent [])) := by
    intro before x after heq control v hs
    have hx : x ∈ (menuEvents c.events b.label).map (f.traceEvent []) :=
      heq ▸ List.mem_append_right _ List.mem_cons_self
    obtain ⟨u, -, rfl⟩ := List.mem_map.1 hx
    cases hs
  rw [traceMenu_eq]
  exact ((Traced.anchored_mark (by simp [Step.isPlain]) (by simp)).append
    (Site.anchored_traceAll _ _ _ _)).append events

/-- **What a handler refers to was created before, unless it is foreign or the source of an
event.** -/
theorem created_or_foreign (hb : b.label.isMenuBuilder = true) {before after : List Traced}
    {x : Traced} (h : f.traceMenu d c above b = before ++ x :: after) {v : Var}
    (hv : v ∈ x.step.refers) :
    v ∈ Traced.created before ∨ v ∈ f.foreign d c above x ∨
      ∃ u ∈ menuEvents c.events b.label, x = f.traceEvent [] u ∧
        u.item.bindSource = .window v := by
  have hx : x ∈ f.traceMenu d c above b := h ▸ List.mem_append_right _ List.mem_cons_self
  have node (plain : x.step.isPlain = true) :
      v ∈ Traced.created before ∨ v ∈ f.foreign d c above x := by
    cases hs : x.step with
    | stmt st =>
      have mention : v ∈ x.step.mentions := by
        rw [hs] at hv ⊢
        exact hv
      rcases Traced.scoped_iff.1 (scoped_traceMenu hb) before x after h v mention with
        (none | made) | excused
      · cases none
      · exact Or.inl made
      · exact Or.inr (List.mem_filter.2 ⟨mention, decide_eq_true excused⟩)
    | validate control w =>
      rw [hs] at hv
      obtain rfl := List.mem_singleton.1 hv
      exact Or.inl (anchored_traceMenu before x after h v w hs)
    | bind | within => rw [hs] at plain; cases plain
    | gap | warn => rw [hs] at hv; cases hv
  rcases mem_traceMenu hx with ⟨-, plain⟩ | hnode | ⟨u, hu, rfl⟩
  · exact (node plain).imp_right Or.inl
  · exact (node (Site.isPlain_of_mem_traceAll hnode)).imp_right Or.inl
  · exact Or.inr (Or.inr ⟨u, hu, rfl, mem_refers_traceEvent.1 hv⟩)

end Form

/-! ## What is foreign to a menu -/

section Spots

mutual

theorem spotsOf_sublist_of_menu {above : List Item} {b : Branch Item}
    {menu : List Item × Branch Item} (h : menu ∈ menuBranchesIn above b) :
    (spotsOf menu.1 menu.2).Sublist (spotsOf above b) := by
  cases b with
  | mk i cs =>
    have below (h : menu ∈ menuBranchesInAll (i :: above) cs) :
        (spotsOf menu.1 menu.2).Sublist (spotsOf above (.mk i cs)) := by
      rw [spotsOf]
      exact (spotsOfAll_sublist_of_menu h).cons _
    unfold menuBranchesIn at h
    dsimp only at h
    split at h
    · rcases List.mem_cons.1 h with rfl | h
      · exact List.Sublist.refl _
      · exact below h
    · exact below h

/-- The spots of a menu are among those of the branches around it. -/
theorem spotsOfAll_sublist_of_menu {above : List Item} {bs : List (Branch Item)}
    {menu : List Item × Branch Item} (h : menu ∈ menuBranchesInAll above bs) :
    (spotsOf menu.1 menu.2).Sublist (spotsOfAll above bs) := by
  cases bs with
  | nil => cases h
  | cons b bs =>
    unfold menuBranchesInAll at h
    unfold spotsOfAll
    rcases List.mem_append.1 h with h | h
    · exact (spotsOf_sublist_of_menu h).trans (List.sublist_append_left _ _)
    · exact (spotsOfAll_sublist_of_menu h).trans (List.sublist_append_right _ _)

end

end Spots

namespace Form

variable {f : Form} {d : Dialect} {c : Collected} {menu : List Item × Branch Item}

/-- The spots of the nodes below one that opens a menu. -/
def below (menu : List Item × Branch Item) : List Spot :=
  spotsOfAll (menu.2.label :: menu.1) menu.2.children

theorem isMenuBuilder_of_mem_menuBranches (h : menu ∈ f.menuBranches) :
    menu.2.label.isMenuBuilder = true :=
  (mem_spots_of_mem_menuBuilders (List.mem_map_of_mem h)).2

theorem menu_mem_innerSpots (form : f.node.kind.isForm = true) (h : menu ∈ f.menuBranches) :
    { item := menu.2.label, above := menu.1 } ∈ f.innerSpots :=
  mem_innerSpots_of_mem_menuBuilders form (List.mem_map_of_mem h)

theorem below_sublist (form : f.node.kind.isForm = true) (h : menu ∈ f.menuBranches) :
    (below menu).Sublist f.innerSpots := by
  have notBuilder : ¬f.item.isMenuBuilder = true := by
    rw [not_isMenuBuilder_item form]
    exact Bool.false_ne_true
  have inner : menu ∈ menuBranchesInAll f.path f.children := by
    unfold menuBranches branch menuBranchesIn at h
    rwa [if_neg notBuilder] at h
  have whole : spotsOf menu.1 menu.2
      = { item := menu.2.label, above := menu.1 } :: below menu := by
    obtain ⟨above, i, cs⟩ := menu
    rfl
  have sub := spotsOfAll_sublist_of_menu inner
  rw [whole] at sub
  exact (List.sublist_cons_self _ _).trans sub

/-- Whatever stands above a node of the form is a node of the form, or the form, or above it. -/
theorem ancestor_mem_innerSpots {sp : Spot} (h : sp ∈ f.innerSpots) {front : List Item} {i : Item}
    {rest : List Item} (ha : sp.above = front ++ i :: rest) :
    { item := i, above := rest } ∈ f.innerSpots ∨ i :: rest <:+ f.path := by
  induction front generalizing sp with
  | nil =>
    rcases mem_spots.1 (parent_mem_spots h ha) with heq | hinner
    · obtain ⟨rfl, rfl⟩ := Spot.mk.inj heq
      exact Or.inr (List.suffix_refl _)
    · exact Or.inl hinner
  | cons j front ih =>
    rcases mem_spots.1 (parent_mem_spots h ha) with heq | hinner
    · have habove : front ++ i :: rest = f.above := (Spot.mk.inj heq).2
      refine Or.inr ((List.suffix_append front _).trans ?_)
      rw [habove]
      exact List.suffix_cons _ _
    · exact ih hinner rfl

/-- A name that the handler of a menu does not create, as long as names are apart: that of a node
without an object in the menu, that of the menu below a tool without one, or that of a node above
the form. -/
inductive Elsewhere (f : Form) (s : Site) (spots : List Spot) : String → Prop
  | object {sp : Spot} (mem : sp ∈ f.innerSpots)
    (unmade : sp ∈ spots → s.builds sp.item sp.above = false) : Elsewhere f s spots sp.item.name
  | menu {sp : Spot} (mem : sp ∈ f.innerSpots) (kind : sp.item.kind = .toolDropdown)
    (unmade : sp ∈ spots → Site.hasMenu sp.item sp.above = false) :
    Elsewhere f s spots (sp.item.name ++ "_menu")
  | above {i : Item} (mem : i ∈ f.above) : Elsewhere f s spots i.name

/-- **Where names are apart, no foreign object is created by the menu under its name.** -/
theorem Elsewhere.not_created {t : Tree} {id : Nat} (hf : ofTree t id = .ok f)
    (apart : f.NamesApart) (free : contextMenuVar.name ∉ f.variableNames)
    (hmenu : menu ∈ f.menuBranches) {name : String}
    (h : f.Elsewhere (f.menuSite d c.images) (below menu) name) :
    ∀ w ∈ Traced.created (f.traceMenu d c menu.1 menu.2), w.name ≠ name := by
  have sub := below_sublist (isForm_of_ofTree hf) hmenu
  have dropdown {sp : Spot} (mem : sp ∈ f.innerSpots) (kind : sp.item.kind = .toolDropdown) :
      sp.item.name ++ "_menu" ∈ f.variableNames := by
    refine List.mem_append_right _ (List.mem_map.2 ⟨sp, List.mem_filter.2 ⟨mem, ?_⟩, rfl⟩)
    rw [kind]
    rfl
  rintro w hw rfl
  rw [created_traceMenu] at hw
  rcases List.mem_cons.1 hw with rfl | hw
  · -- the menu itself
    generalize hname : contextMenuVar.name = name at h free
    cases h with
    | object mem _ => exact free (List.mem_append_left _ (List.mem_map_of_mem mem))
    | menu mem kind _ => exact free (dropdown mem kind)
    | above mem =>
      rw [name_of_mem_above hf mem] at hname
      exact absurd hname (by decide)
  · obtain ⟨-, -, p, -, hplace, hc, made⟩ := Site.exists_place_of_created hw
    have hspot : p.spot ∈ below menu := spotsOutsideMenusAll_subset _ _ hplace
    have hp : p.spot ∈ f.innerSpots := sub.subset hspot
    rcases made with ⟨keeps, rfl⟩ | ⟨hasMenu, rfl⟩
    · rw [Site.name_var] at h
      generalize hname : p.item.name = name at h
      cases h with
      | object mem unmade =>
        obtain rfl := apart.spot_eq hp mem hname
        have none := unmade hspot
        have builds : (f.menuSite d c.images).builds p.item p.above = true :=
          Bool.and_eq_true_iff.2 ⟨hc, keeps⟩
        cases builds.symm.trans none
      | menu mem kind _ => exact apart.name_ne_menu hp mem kind hname
      | above mem => exact apart.name_ne_empty hp (hname.trans (name_of_mem_above hf mem))
    · have kind : p.spot.item.kind = .toolDropdown := Site.kind_of_hasMenu hasMenu
      generalize hname : (Site.dropdownVar p.item).name = name at h
      cases h with
      | object mem _ => exact apart.name_ne_menu mem hp kind hname.symm
      | menu mem kind' unmade =>
        obtain rfl := apart.menu_spot_eq hp kind mem kind' hname
        cases hasMenu.symm.trans (unmade hspot)
      | above mem =>
        exact apart.menu_name_ne_empty hp kind (hname.trans (name_of_mem_above hf mem))

/-! ### Strays and surroundings -/

theorem elsewhere_of_mem_strays (form : f.node.kind.isForm = true) (hmenu : menu ∈ f.menuBranches)
    {images : List Asset} {x : Traced}
    (hx : x ∈ (f.menuSite d images).traceAll [] (menu.2.label :: menu.1) [] menu.2.children)
    {p : Place} (ho : x.origin = .node p) {v : Var} (hv : v ∈ (f.menuSite d images).strays p) :
    f.Elsewhere (f.menuSite d images) (below menu) v.name := by
  obtain ⟨q, inner, hq, hfrom⟩ := Site.fromNode_of_mem_traceAll hx
  obtain rfl : q = p := Origin.node.inj (hfrom.origin.symm.trans ho)
  have hspot : q.spot ∈ f.innerSpots :=
    (below_sublist form hmenu).subset (spotsOutsideMenusAll_subset _ _ hq)
  have parent {i : Item} {above : List Item} (ha : q.above = i :: above)
      (hi : i.kind.isForm = false) : { item := i, above } ∈ f.innerSpots :=
    mem_innerSpots_of_not_isForm (parent_mem_spots hspot ha) form hi
  simp only [Site.strays, List.mem_append] at hv
  rcases hv with ((hv | hv) | hv) | hv
  · unfold Site.strayMenu at hv
    split at hv
    · cases hv
    · next i above ha =>
      split at hv
      · next hk =>
        obtain rfl := List.mem_singleton.1 hv
        simp only [Bool.and_eq_true, beq_iff_eq, Bool.not_eq_true'] at hk
        exact .menu (parent ha (by simp [hk.1.2, Kind.isForm, Kind.category])) hk.1.2
          fun _ => hk.2
      · cases hv
  · obtain ⟨book, hfind, hinside, rfl⟩ := Site.book_of_mem_strayBook hv
    obtain ⟨isBook, front, rest, ha, -⟩ := List.find?_eq_some_iff_append.1 hfind
    rw [Site.name_var]
    rcases ancestor_mem_innerSpots hspot ha with hbook | hsuffix
    · refine .object hbook fun hbelow => ?_
      -- a book below the builder would be found inside the form
      obtain ⟨more, hrest⟩ := suffix_of_mem_spotsOfAll hbelow
      have hrest : more ++ menu.2.label :: menu.1 = rest := hrest
      have inner_eq : inner = front ++ book :: more := by
        refine List.append_cancel_right (hfrom.above_eq.symm.trans (ha.trans ?_))
        rw [← hrest, List.append_assoc, List.cons_append]
      have inside : ∀ i ∈ inner, (!i.kind.isForm) = true := fun i hi => by
        rw [not_isForm_of_creates (hfrom.entered i hi)]
        rfl
      rw [hfrom.above_eq, List.takeWhile_append_of_pos inside, List.any_append,
        Bool.or_eq_false_iff] at hinside
      have none := List.any_eq_false.1 hinside.1 book (by simp [inner_eq])
      exact absurd isBook none
    · refine .above ?_
      rcases List.suffix_cons_iff.1 hsuffix with heq | habove
      · obtain ⟨rfl, -⟩ := List.cons.inj heq
        have form : f.item.kind.category = .form := beq_iff_eq.1 form
        simp [Kind.isBook, form] at isBook
      · exact habove.subset List.mem_cons_self
  · unfold Site.strayPanes at hv
    split at hv
    · obtain ⟨i, hi, rfl⟩ := List.mem_map.1 hv
      obtain ⟨hi, unmade⟩ := List.mem_filter.1 hi
      have hi := (List.mem_filter.1 (List.mem_of_mem_take hi)).1
      have stands := (Site.stands_of_mem_traceAll hx ho).children i hi
      rw [Site.name_var]
      exact .object ((below_sublist form hmenu).subset stands) fun _ => by simpa using unmade
    · cases hv
  · unfold Site.strayOwner at hv
    split at hv
    · cases hv
    · next i above ha =>
      split at hv
      · next hk =>
        obtain rfl := List.mem_singleton.1 hv
        simp only [Bool.and_eq_true, Bool.not_eq_true'] at hk
        rw [Site.name_var]
        exact .object (parent ha (Site.isForm_of_not_keeps hk.2)) fun _ => by
          simp [Site.builds, hk.2]
      · cases hv

theorem elsewhere_of_mem_around (form : f.node.kind.isForm = true) (hmenu : menu ∈ f.menuBranches)
    {s : Site} {v : Var} (hv : v ∈ s.around menu.1) : f.Elsewhere s (below menu) v.name := by
  obtain ⟨front, i, rest, habove, inside, hobject⟩ := Site.mem_around hv
  have hspot := menu_mem_innerSpots form hmenu
  have outside : { item := i, above := rest } ∉ below menu := fun hbelow => by
    -- what stands below the builder has more above it
    have longer := (suffix_of_mem_spotsOfAll hbelow).length_le
    have length := congrArg List.length habove
    simp only [List.length_cons, List.length_append] at longer length
    omega
  have mem : { item := i, above := rest } ∈ f.innerSpots := by
    rcases ancestor_mem_innerSpots hspot habove with hinner | ⟨between, hpath⟩
    · exact hinner
    · -- the form would stand in front
      have front_eq : f.inside menu.1 ++ between = front := by
        refine List.append_cancel_right (Eq.trans ?_ habove)
        rw [List.append_assoc, hpath]
        exact (above_of_mem_innerSpots hspot).symm
      cases between with
      | nil =>
        obtain ⟨rfl, -⟩ := List.cons.inj hpath
        exact Bool.noConfusion (form.symm.trans (inside f.item (by simp)))
      | cons j between =>
        obtain ⟨rfl, -⟩ := List.cons.inj hpath
        exact Bool.noConfusion (form.symm.trans (inside f.item (by simp [← front_eq])))
  rcases Site.objectVar?_cases hobject with rfl | ⟨kind, rfl⟩
  · rw [Site.name_var]
    exact .object mem fun hbelow => absurd hbelow outside
  · exact .menu mem kind fun hbelow => absurd hbelow outside

/-- A statement refers to nothing foreign that the handler creates under its name. -/
theorem elsewhere_of_mem_foreign (form : f.node.kind.isForm = true) (hmenu : menu ∈ f.menuBranches)
    {x : Traced} (hx : x ∈ f.traceMenu d c menu.1 menu.2) {v : Var}
    (hv : v ∈ f.foreign d c menu.1 x) :
    f.Elsewhere (f.menuSite d c.images) (below menu) v.name := by
  obtain ⟨-, hv⟩ := List.mem_filter.1 hv
  rcases List.mem_append.1 (of_decide_eq_true hv) with stray | around
  · obtain ⟨p, ho, hc, stray⟩ := Site.exists_node_of_mem_straysOf stray
    rcases mem_traceMenu hx with ⟨⟨q, hq, label⟩, -⟩ | hnode | ⟨u, -, rfl⟩
    · -- nothing is created for the builder as a node
      obtain rfl := Origin.node.inj (hq.symm.trans ho)
      have builder := isMenuBuilder_of_mem_menuBranches hmenu
      rw [← label, Site.not_isMenuBuilder_of_creates hc] at builder
      cases builder
    · exact elsewhere_of_mem_strays form hmenu hnode ho stray
    · cases ho
  · exact elsewhere_of_mem_around form hmenu around

/-! ## Handlers that keep to their own variables -/

/-- The events of a menu are bound on objects that its handler creates, and their variables are
taken for locals. -/
def BindsOwn (f : Form) (d : Dialect) (c : Collected) (menu : List Item × Branch Item) : Prop :=
  ∀ u ∈ menuEvents c.events menu.2.label, ∀ v, u.item.bindSource = .window v →
    .temporary v.name ∈ Traced.created (f.traceMenu d c menu.1 menu.2) ∧
      (d = .cpp ∨ v.isMember = false)

theorem selfContained_iff (hmenu : menu ∈ f.menuBranches) :
    d.SelfContained (f.handlerSteps d c menu) ↔
      ((Traced.created (f.traceMenu d c menu.1 menu.2)).map Var.name).Nodup ∧
        (∀ before x after, f.traceMenu d c menu.1 menu.2 = before ++ x :: after →
          ∀ v ∈ f.foreign d c menu.1 x, ∃ w ∈ Traced.created before, d.Means v w) ∧
        f.BindsOwn d c menu := by
  rw [handlerSteps_eq, Dialect.selfContained_iff_trace]
  refine and_congr_right fun _ => ⟨fun own => ⟨?_, ?_⟩, ?_⟩
  · intro before x after heq v hv
    obtain ⟨w, hw, -, means⟩ :=
      own before x after heq v (x.step.mentions_subset_refers (List.mem_filter.1 hv).1)
    exact ⟨w, hw, means⟩
  · intro u hu v source
    obtain ⟨before, after, heq⟩ := List.append_of_mem (traceEvent_mem_traceMenu hu)
    obtain ⟨w, hw, isLocal, name, scope⟩ := own _ _ _ heq v (mem_refers_traceEvent.2 source)
    rw [created_before_event heq] at hw
    rw [name, ← eq_temporary_of_mem_created hw]
    exact ⟨hw, scope.imp_right fun same => same.trans isLocal⟩
  · rintro ⟨foreign, binds⟩ before x after heq v hv
    have isLocal {w : Var} (hw : w ∈ Traced.created before) : w.isMember = false := by
      rw [eq_temporary_of_mem_created (Traced.mem_created_of_before heq hw)]
      rfl
    rcases created_or_foreign (isMenuBuilder_of_mem_menuBranches hmenu) heq hv with
      made | other | ⟨u, hu, rfl, source⟩
    · exact ⟨v, made, isLocal made, rfl, Or.inr rfl⟩
    · obtain ⟨w, hw, means⟩ := foreign before x after heq v other
      exact ⟨w, hw, isLocal hw, means⟩
    · obtain ⟨made, scope⟩ := binds u hu v source
      rw [← created_before_event heq] at made
      exact ⟨_, made, rfl, rfl, scope⟩

/-- The names of what a handler creates are apart when the names of the form are. -/
theorem nodup_created (form : f.node.kind.isForm = true) (apart : f.NamesApart)
    (free : contextMenuVar.name ∉ f.variableNames) (hmenu : menu ∈ f.menuBranches) :
    ((Traced.created (f.traceMenu d c menu.1 menu.2)).map Var.name).Nodup := by
  have sub := below_sublist form hmenu
  have objects := (Site.created_traceAll_sublist (s := f.menuSite d c.images) []
    (menu.2.label :: menu.1) [] menu.2.children).map Var.name
  rw [created_traceMenu, List.map_cons, List.nodup_cons]
  refine ⟨fun hmem => free ?_, (apart.nodup_objectVars sub).sublist objects⟩
  obtain ⟨v, hv, name⟩ := List.mem_map.1 (objects.subset hmem)
  obtain ⟨sp, hsp, hobject⟩ := List.mem_filterMap.1 hv
  rw [← name]
  exact name_mem_variableNames (sub.subset hsp) hobject

/-- **Where names are apart, a handler keeps to its own variables exactly if its statements refer to
nothing foreign and its events are bound on its own objects.** -/
theorem selfContained_iff_of_namesApart {t : Tree} {id : Nat} (hf : ofTree t id = .ok f)
    (apart : f.NamesApart) (free : contextMenuVar.name ∉ f.variableNames)
    (hmenu : menu ∈ f.menuBranches) :
    d.SelfContained (f.handlerSteps d c menu) ↔
      (∀ x ∈ f.traceMenu d c menu.1 menu.2, f.foreign d c menu.1 x = []) ∧
        f.BindsOwn d c menu := by
  have form := isForm_of_ofTree hf
  rw [selfContained_iff hmenu]
  constructor
  · rintro ⟨-, foreign, binds⟩
    refine ⟨fun x hx => List.eq_nil_iff_forall_not_mem.2 fun v hv => ?_, binds⟩
    obtain ⟨before, after, heq⟩ := List.append_of_mem hx
    obtain ⟨w, hw, name, -⟩ := foreign before x after heq v hv
    have hw := Traced.mem_created_of_before heq hw
    exact (elsewhere_of_mem_foreign form hmenu hx hv).not_created hf apart free hmenu w hw name.symm
  · rintro ⟨none, binds⟩
    refine ⟨nodup_created form apart free hmenu, fun before x after heq v hv => ?_, binds⟩
    rw [none x (heq ▸ List.mem_append_right _ List.mem_cons_self)] at hv
    cases hv

end Form

/-- **When the handlers of context menus keep to variables of their own**: each of their locals has
a name of its own, what is foreign is created by them under its name, and events are bound on their
own objects. Where names are apart, statements must not refer to anything foreign. -/
theorem menusSelfContained_iff {t : Tree} {id : Nat} {f : Form} (hf : Form.ofTree t id = .ok f)
    {d : Dialect} (hd : d.supports f.node.kind = true) {o : Options} {source : FileSource}
    {cache after : Cache} {table : ImageTable}
    (images : f.images source o.artDirectory cache = (.ok table, after)) :
    let c := f.collected d table after
    generateSource t id (.source d) o source cache = (.ok (f.output d o c), after) ∧
      ∀ menu ∈ f.menuBranches,
        (d.SelfContained (f.handlerSteps d c menu) ↔
          ((Traced.created (f.traceMenu d c menu.1 menu.2)).map Var.name).Nodup ∧
            (∀ before x after, f.traceMenu d c menu.1 menu.2 = before ++ x :: after →
              ∀ v ∈ f.foreign d c menu.1 x, ∃ w ∈ Traced.created before, d.Means v w) ∧
            f.BindsOwn d c menu) ∧
        (f.NamesApart → contextMenuVar.name ∉ f.variableNames →
          (d.SelfContained (f.handlerSteps d c menu) ↔
            (∀ x ∈ f.traceMenu d c menu.1 menu.2, f.foreign d c menu.1 x = []) ∧
              f.BindsOwn d c menu)) := by
  refine ⟨?_, fun menu hmenu => ⟨Form.selfContained_iff hmenu, fun apart free =>
    Form.selfContained_iff_of_namesApart hf apart free hmenu⟩⟩
  rw [generateSource_eq hf hd, Form.generate, images]

/-! ## A submenu with an event -/

/-- A submenu that is a member of the class and has an event. -/
def openedMenu : Element where
  kind := .subMenu
  props := [(.varName, "m_sub"), (.classAccess, "protected:")]
  events := [{ name := "wxEVT_MENU_OPEN", handler := "OnOpen" }]

/-- A dialog with a panel, and with the submenu in the panel's context menu. -/
def submenuDesign : Design :=
  .mk { kind := .dialog, props := [(.className, "Dlg")], events := [] }
    [.mk { kind := .panel, props := [(.varName, "m_panel")], events := [] }
      [.mk (.ofKind .contextMenuEvent) [.mk openedMenu []]]]

/-- The form of that dialog. -/
def submenuForm : Form where
  node :=
    { kind := .dialog, props := [(.className, "Dlg")], events := [], id := 0, parent := none,
      children := [1] }
  children :=
    [.mk
      { node :=
          { kind := .panel, props := [(.varName, "m_panel")], events := [], id := 1,
            parent := some 0, children := [2] }
        name := "m_panel" }
      [.mk
        { node :=
            { Element.ofKind .contextMenuEvent with id := 2, parent := some 1, children := [3] }
          name := "context_menu_event" }
        [.mk
          { node := { openedMenu with id := 3, parent := some 2, children := [] }
            name := "m_sub" }
          []]]]
  above := []

/-- Its context menu. -/
def submenuMenu : List Item × Branch Item :=
  ([{ node :=
        { kind := .panel, props := [(.varName, "m_panel")], events := [], id := 1,
          parent := some 0, children := [2] }
      name := "m_panel" },
    submenuForm.item],
    .mk
      { node :=
          { Element.ofKind .contextMenuEvent with id := 2, parent := some 1, children := [3] }
        name := "context_menu_event" }
      [.mk
        { node := { openedMenu with id := 3, parent := some 2, children := [] }
          name := "m_sub" }
        []])

/-- The event of the submenu. -/
def submenuUse : EventUse where
  spot :=
    { item :=
        { node := { openedMenu with id := 3, parent := some 2, children := [] }
          name := "m_sub" }
      above := submenuMenu.2.label :: submenuMenu.1 }
  event := { name := "wxEVT_MENU_OPEN", handler := "OnOpen" }

theorem menuEvents_submenuForm (d : Dialect) :
    Form.menuEvents (submenuForm.collected d .empty .empty).events submenuMenu.2.label
      = [submenuUse] := by
  -- there is nothing to sort
  have sorted : (submenuForm.collected d .empty .empty).events.inMenus
      = submenuForm.events.inMenus := List.mergeSort_of_pairwise (by decide +kernel)
  unfold Form.menuEvents
  rw [sorted]
  rfl

/-- In C++ the event is bound on the local of the handler: members are written like locals. -/
theorem submenuForm_selfContained :
    let c := submenuForm.collected .cpp .empty .empty
    Form.ofTree (.ofDesign submenuDesign) 0 = .ok submenuForm ∧ submenuForm.NamesApart ∧
      contextMenuVar.name ∉ submenuForm.variableNames ∧
      generateSource (.ofDesign submenuDesign) 0 (.source .cpp) .default noFiles .empty
        = (.ok (submenuForm.output .cpp .default c), .empty) ∧
      submenuForm.menuBranches = [submenuMenu] ∧
      Dialect.binding .cpp (submenuForm.binding submenuUse)
        = some "m_sub->Bind(wxEVT_MENU_OPEN, &Dlg::OnOpen, this);" ∧
      Dialect.SelfContained .cpp (submenuForm.handlerSteps .cpp c submenuMenu) := by
  have hf : Form.ofTree (.ofDesign submenuDesign) 0 = .ok submenuForm := by with_unfolding_all rfl
  have apart : submenuForm.NamesApart := ⟨by decide, by decide⟩
  have free : contextMenuVar.name ∉ submenuForm.variableNames := by decide
  have images : submenuForm.images noFiles Options.default.artDirectory .empty
      = (.ok .empty, .empty) := rfl
  obtain ⟨generated, own⟩ := menusSelfContained_iff hf (d := .cpp) (by decide) images
  have menus : submenuForm.menuBranches = [submenuMenu] := rfl
  refine ⟨hf, apart, free, generated, menus, by decide +kernel, ?_⟩
  refine ((own submenuMenu (menus ▸ List.mem_singleton_self _)).2 apart free).2 ⟨?_, ?_⟩
  · rw [Form.traceMenu_eq, menuEvents_submenuForm]
    decide +kernel
  · unfold Form.BindsOwn
    rw [Form.traceMenu_eq, menuEvents_submenuForm]
    rintro u hu v source
    obtain rfl := List.mem_singleton.1 hu
    obtain rfl : Var.member "m_sub" = v := BindSource.window.inj source
    exact ⟨by decide +kernel, Or.inl rfl⟩

/-- In Python the handler creates the submenu in a local, and binds its event on the member, which
nothing creates. -/
theorem submenuForm_not_selfContained :
    let c := submenuForm.collected .python .empty .empty
    Form.ofTree (.ofDesign submenuDesign) 0 = .ok submenuForm ∧ submenuForm.NamesApart ∧
      contextMenuVar.name ∉ submenuForm.variableNames ∧
      generateSource (.ofDesign submenuDesign) 0 (.source .python) .default noFiles .empty
        = (.ok (submenuForm.output .python .default c), .empty) ∧
      submenuForm.menuBranches = [submenuMenu] ∧
      Dialect.binding .python (submenuForm.binding submenuUse)
        = some "self.m_sub.Bind(wx.EVT_MENU_OPEN, self.OnOpen)" ∧
      ¬Dialect.SelfContained .python (submenuForm.handlerSteps .python c submenuMenu) := by
  have hf : Form.ofTree (.ofDesign submenuDesign) 0 = .ok submenuForm := by with_unfolding_all rfl
  have menus : submenuForm.menuBranches = [submenuMenu] := rfl
  refine ⟨hf, ⟨by decide, by decide⟩, by decide, ?_, menus, by decide +kernel, fun h => ?_⟩
  · rw [generateSource_eq hf (by decide)]
    rfl
  · obtain ⟨-, -, binds⟩ := (Form.selfContained_iff (menus ▸ List.mem_singleton_self _)).1 h
    have own := binds submenuUse (menuEvents_submenuForm .python ▸ List.mem_singleton_self _)
      (.member "m_sub") rfl
    exact absurd own.2 (by decide)

end FormDesign
