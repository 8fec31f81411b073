import FormDesign.Code.Source

/-!
# Steps and what they are for

A plan forgets which node each of its steps was made for. The trace of a method keeps it: it lists
the steps that hold no others, in order, each with the selectors of the blocks around it and with
its origin. Forgetting the origins gives the plan back.

* `leavesAll_planAll`: the trace of the nodes is the plan of the nodes
* `leavesAll_constructorSteps`: the trace of the constructor is the constructor
* `leavesAll_menuSteps`: the trace of the handler of a context menu is that handler
-/

namespace FormDesign

/-! ## The leaves of steps -/

namespace Step

mutual

/-- The steps that hold no others, each with the selectors of the blocks around it, outermost
first. -/
def leaves (blocks : List String) : Step → List (List String × Step)
  | .within selector body => leavesAll (blocks ++ [selector]) body
  | .stmt s => [(blocks, .stmt s)]
  | .bind b => [(blocks, .bind b)]
  | .validate control v => [(blocks, .validate control v)]
  | .gap => [(blocks, .gap)]
  | .warn text => [(blocks, .warn text)]

/-- Those of several steps. -/
def leavesAll (blocks : List String) : List Step → List (List String × Step)
  | [] => []
  | s :: rest => leaves blocks s ++ leavesAll blocks rest

end

@[simp] theorem leavesAll_nil (blocks : List String) : leavesAll blocks [] = [] := rfl

@[simp] theorem leavesAll_cons (blocks : List String) (s : Step) (rest : List Step) :
    leavesAll blocks (s :: rest) = leaves blocks s ++ leavesAll blocks rest := rfl

theorem leavesAll_append (blocks : List String) (xs ys : List Step) :
    leavesAll blocks (xs ++ ys) = leavesAll blocks xs ++ leavesAll blocks ys := by
  induction xs with
  | nil => rfl
  | cons x xs ih => simp [ih]

/-! ### What holds of each step -/

/-- Every one of the steps satisfies `P`. -/
def Each (P : Step → Prop) (steps : List Step) : Prop :=
  ∀ s ∈ steps, P s

variable {P Q : Step → Prop}

@[simp] theorem each_nil : Each P [] := by simp [Each]

@[simp] theorem each_cons (s : Step) (rest : List Step) :
    Each P (s :: rest) ↔ P s ∧ Each P rest := by simp [Each]

@[simp] theorem each_append (xs ys : List Step) : Each P (xs ++ ys) ↔ Each P xs ∧ Each P ys := by
  simp [Each, or_imp, forall_and]

@[simp] theorem each_ite (condition : Prop) [Decidable condition] (xs ys : List Step) :
    Each P (if condition then xs else ys) ↔
      (condition → Each P xs) ∧ (¬condition → Each P ys) := by
  split <;> simp [*]

@[simp] theorem each_when (condition : Bool) (s : Step) :
    Each P (when condition s) ↔ (condition = true → P s) := by
  simp [when]

@[simp] theorem each_toList_map {α : Type} (o : Option α) (f : α → Step) :
    Each P (o.map f).toList ↔ ∀ a ∈ o, P (f a) := by
  cases o <;> simp

@[simp] theorem each_map {α : Type} (xs : List α) (f : α → Step) :
    Each P (xs.map f) ↔ ∀ a ∈ xs, P (f a) := by
  simp [Each]

theorem Each.imp {steps : List Step} (h : Each P steps) (hpq : ∀ s, P s → Q s) : Each Q steps :=
  fun s hs => hpq s (h s hs)

/-- A step of construction: it neither opens a block nor binds an event. -/
def isPlain : Step → Bool
  | .within .. | .bind _ => false
  | .stmt _ | .validate .. | .gap | .warn _ => true

/-- Steps of construction are their own leaves. -/
theorem leavesAll_of_plain {blocks : List String} {steps : List Step}
    (h : Each (fun s => s.isPlain = true) steps) :
    leavesAll blocks steps = steps.map (blocks, ·) := by
  induction steps with
  | nil => rfl
  | cons s rest ih =>
    rw [each_cons] at h
    rw [leavesAll_cons, ih h.2]
    cases s <;> first | rfl | simp [isPlain] at h

/-- Bindings are their own leaves. -/
theorem leavesAll_map_bind {α : Type} (blocks : List String) (xs : List α) (f : α → Binding) :
    leavesAll blocks (xs.map fun a => .bind (f a)) = xs.map fun a => (blocks, .bind (f a)) := by
  induction xs with
  | nil => rfl
  | cons x xs ih => rw [List.map_cons, leavesAll_cons, ih]; rfl

end Step

/-! ## Traces -/

namespace Place

/-- The place as a spot, without what stands beside it and below it. -/
def spot (p : Place) : Spot := { item := p.item, above := p.above }

end Place

/-- What a step of a method is there for. -/
inductive Origin where
  /-- The construction of a node, or of the form itself. -/
  | node (p : Place)
  /-- The binding of an event. -/
  | event (u : EventUse)
  /-- The binding that opens the context menu of a node. -/
  | menu (builder : Spot)

/-- A step that holds no others, with the selectors of the blocks around it, outermost first, and
with what it is there for. -/
structure Traced where
  blocks : List String
  origin : Origin
  step : Step

namespace Traced

/-- The step without its origin. -/
def erase (x : Traced) : List String × Step := (x.blocks, x.step)

/-- The leaves of some steps, which are all there for the same. -/
def mark (blocks : List String) (origin : Origin) (steps : List Step) : List Traced :=
  (Step.leavesAll blocks steps).map fun (bs, step) => { blocks := bs, origin, step }

theorem map_erase_mark (blocks : List String) (origin : Origin) (steps : List Step) :
    (mark blocks origin steps).map erase = Step.leavesAll blocks steps := by
  simp [mark, Function.comp_def, erase]

theorem mark_append (blocks : List String) (origin : Origin) (xs ys : List Step) :
    mark blocks origin (xs ++ ys) = mark blocks origin xs ++ mark blocks origin ys := by
  simp [mark, Step.leavesAll_append]

theorem mark_of_plain {blocks : List String} {origin : Origin} {steps : List Step}
    (h : Step.Each (fun s => s.isPlain = true) steps) :
    mark blocks origin steps = steps.map fun step => { blocks, origin, step } := by
  rw [mark, Step.leavesAll_of_plain h, List.map_map]
  rfl

theorem mem_mark_of_plain {blocks : List String} {origin : Origin} {steps : List Step}
    (h : Step.Each (fun s => s.isPlain = true) steps) {x : Traced} :
    x ∈ mark blocks origin steps ↔ x.blocks = blocks ∧ x.origin = origin ∧ x.step ∈ steps := by
  rw [mark_of_plain h]
  obtain ⟨bs, o, st⟩ := x
  simp only [List.mem_map, Traced.mk.injEq]
  constructor
  · rintro ⟨a, ha, rfl, rfl, rfl⟩
    exact ⟨rfl, rfl, ha⟩
  · rintro ⟨rfl, rfl, ha⟩
    exact ⟨st, ha, rfl, rfl, rfl⟩

end Traced

/-! ## The trace of construction -/

namespace Site

mutual

/-- The trace of the steps for a node and what is below it. -/
def traceNode (s : Site) (blocks : List String) (above before : List Item) :
    Branch Item → List Traced
  | .mk i cs =>
    let p : Place := { item := i, children := cs.map Branch.label, above, before }
    if i.isMenuBuilder then []
    else if s.creates i.kind then
      let inside := blocks ++ i.element.selector?.toList
      Traced.mark inside (.node p) (s.createNode p) ++ s.traceAll inside (i :: above) [] cs
        ++ Traced.mark inside (.node p) (s.finish p)
    else Traced.mark blocks (.node p) (s.unsupported i)

/-- The trace of the steps for siblings. -/
def traceAll (s : Site) (blocks : List String) (above before : List Item) :
    List (Branch Item) → List Traced
  | [] => []
  | b :: bs => s.traceNode blocks above before b ++ s.traceAll blocks above (b.label :: before) bs

end

theorem leavesAll_confined (blocks : List String) (i : Item) (body : List Step) :
    Step.leavesAll blocks (confined i body)
      = Step.leavesAll (blocks ++ i.element.selector?.toList) body := by
  unfold confined
  cases i.element.selector? with
  | none => simp
  | some selector => simp [Step.leaves]

mutual

theorem leavesAll_planNode (s : Site) (blocks : List String) (above before : List Item)
    (b : Branch Item) :
    Step.leavesAll blocks (s.planNode above before b)
      = (s.traceNode blocks above before b).map Traced.erase := by
  cases b with
  | mk i cs =>
    unfold planNode traceNode
    by_cases hm : i.isMenuBuilder = true
    · simp [hm]
    · by_cases hc : s.creates i.kind = true
      · simp only [hm, hc, if_true, if_false, Bool.false_eq_true, leavesAll_confined,
          Step.leavesAll_append, List.map_append, Traced.map_erase_mark]
        rw [leavesAll_planAll s _ (i :: above) [] cs]
      · simp [hm, hc, Traced.map_erase_mark]

/-- The trace of the nodes is the plan of the nodes. -/
theorem leavesAll_planAll (s : Site) (blocks : List String) (above before : List Item)
    (bs : List (Branch Item)) :
    Step.leavesAll blocks (s.planAll above before bs)
      = (s.traceAll blocks above before bs).map Traced.erase := by
  cases bs with
  | nil => rfl
  | cons b bs =>
    unfold planAll traceAll
    rw [Step.leavesAll_append, List.map_append, leavesAll_planNode s blocks above before b,
      leavesAll_planAll s blocks above (b.label :: before) bs]

end

end Site

namespace Form

/-- The place of the form itself. -/
def place (f : Form) : Place :=
  { item := f.item, children := f.children.map Branch.label, above := f.above, before := [] }

/-- The trace of the steps that create what is in the form. -/
def trace (f : Form) (d : Dialect) (images : List Asset) : List Traced :=
  let s := f.site d images
  Traced.mark [] (.node f.place) (s.formSettings f.element) ++ s.traceAll [] f.path [] f.children
    ++ Traced.mark [] (.node f.place) (Site.formFinish f.element)

theorem leavesAll_plan (f : Form) (d : Dialect) (images : List Asset) :
    Step.leavesAll [] (f.plan d images) = (f.trace d images).map Traced.erase := by
  simp only [plan, trace, Step.leavesAll_append, List.map_append, Traced.map_erase_mark]
  rw [Site.leavesAll_planAll]

/-! ## The trace of the constructor -/

/-- An event bound in some blocks. -/
def traceEvent (f : Form) (blocks : List String) (u : EventUse) : Traced :=
  { blocks, origin := .event u, step := .bind (f.binding u) }

/-- The bindings that open the context menus. -/
def traceMenus (f : Form) : List Traced :=
  f.menuBuilders.filterMap fun builder =>
    (f.menuBinding? builder).map fun b => { blocks := [], origin := .menu builder, step := .bind b }

/-- The trace of the steps that bind the events of the constructor. -/
def traceBindings (f : Form) (events : EventTables) : List Traced :=
  events.bound.common.map (f.traceEvent [])
    ++ events.bound.bySelector.flatMap (fun (selector, uses) => uses.map (f.traceEvent [selector]))
    ++ f.traceMenus

/-- The trace of the constructor. -/
def traceConstructor (f : Form) (d : Dialect) (c : Collected) : List Traced :=
  f.trace d c.images ++ Traced.mark [] (.node f.place) [.gap] ++ f.traceBindings c.events

theorem leavesAll_bindSteps (f : Form) (events : EventTables) :
    Step.leavesAll [] (f.bindSteps events) = (f.traceBindings events).map Traced.erase := by
  have blocks (parts : List (String × List EventUse)) :
      Step.leavesAll [] (parts.map fun (selector, uses) =>
          .within selector (uses.map fun u => .bind (f.binding u)))
        = (parts.flatMap fun (selector, uses) =>
          uses.map (f.traceEvent [selector])).map Traced.erase := by
    induction parts with
    | nil => rfl
    | cons part parts ih =>
      simp only [List.map_cons, Step.leavesAll_cons, Step.leaves, List.flatMap_cons,
        List.map_append, List.nil_append, ih, Step.leavesAll_map_bind, List.map_map]
      rfl
  have menus : Step.leavesAll [] ((f.menuBuilders.filterMap f.menuBinding?).map .bind)
      = f.traceMenus.map Traced.erase := by
    have leaves := Step.leavesAll_map_bind [] (f.menuBuilders.filterMap f.menuBinding?) id
    refine leaves.trans ?_
    rw [traceMenus, List.map_filterMap, List.map_filterMap]
    simp only [Option.map_map]
    rfl
  simp only [bindSteps, traceBindings, Step.leavesAll_append, List.map_append, blocks, menus,
    Step.leavesAll_map_bind, List.map_map]
  rfl

/-- The trace of the constructor is the constructor. -/
theorem leavesAll_constructorSteps (f : Form) (d : Dialect) (c : Collected) :
    Step.leavesAll [] (f.constructorSteps d c) = (f.traceConstructor d c).map Traced.erase := by
  simp only [constructorSteps, traceConstructor, Step.leavesAll_append, List.map_append,
    leavesAll_plan, leavesAll_bindSteps, Traced.map_erase_mark]

/-! ## The trace of the handler of a context menu -/

/-- The trace of the method that shows a context menu. -/
def traceMenu (f : Form) (d : Dialect) (c : Collected) (above : List Item) :
    Branch Item → List Traced
  | .mk i cs =>
    let s := { f.site d c.images with inMenu := true }
    let p : Place := { item := i, children := cs.map Branch.label, above, before := [] }
    Traced.mark [] (.node p) [.stmt (.create contextMenuVar (d.classToken "wxMenu" .core) [] none)]
      ++ s.traceAll [] (i :: above) [] cs
      ++ (menuEvents c.events i).map (f.traceEvent [])

/-- The trace of the handler of a context menu is that handler. -/
theorem leavesAll_menuSteps (f : Form) (d : Dialect) (c : Collected) (above : List Item)
    (b : Branch Item) :
    Step.leavesAll [] (f.menuSteps d c above b) = (f.traceMenu d c above b).map Traced.erase := by
  cases b with
  | mk i cs =>
    simp only [menuSteps, menuPlan, traceMenu, Step.leavesAll_append, Step.leavesAll_cons,
      Step.leavesAll_nil, List.map_append, Traced.map_erase_mark, List.append_nil,
      Step.leavesAll_map_bind, Site.leavesAll_planAll, List.map_map]
    rfl

end Form

end FormDesign
