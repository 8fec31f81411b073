import FormDesign.Proofs.Code.Blocks
import FormDesign.Proofs.Code.FilledBlocks

/-!
# The blocks of a Python class

A block is opened for every node and for every group of bindings that is confined to platforms,
before it is known what will be written into it. Whether each of them holds a statement is a
question about the steps in it: the frame of the class and of its methods opens no such blocks.

* `Form.filled_classEdits`: the blocks of a class are those of its methods
* `Site.bodies_planNode`: the blocks that construction opens, node by node
* `Form.filled_classEdits_iff`: they are filled exactly when a step in each is written
-/

namespace FormDesign

open Edit

/-! ## The blocks of a class -/

namespace Dialect

theorem filled_of_plain {es : List Edit} (h : ∀ e ∈ es, IsPlain .python e) : Filled es := by
  rintro before platforms body after rfl -
  exact (h .indent (by simp)).elim

theorem nested_lines_python (texts : List String) : Nested .python (Edit.lines texts) :=
  .lines fun _ _ => List.not_mem_nil

theorem filled_lines (texts : List String) : Filled (Edit.lines texts) := by
  refine filled_of_plain fun e he => ?_
  obtain ⟨text, -, rfl⟩ := List.mem_map.1 he
  exact List.not_mem_nil

theorem filled_nested_append {es fs : List Edit} (hes : Nested .python es)
    (hfs : Nested .python fs) : Filled (es ++ fs) ↔ Filled es ∧ Filled fs :=
  filled_append hes.isLevel hfs.head?_ne_indent

theorem filled_flatMap {α : Type} {f : α → List Edit} (nested : ∀ x, Nested .python (f x))
    (xs : List α) : Filled (xs.flatMap f) ↔ ∀ x ∈ xs, Filled (f x) := by
  induction xs with
  | nil => exact iff_of_true (filled_of_length_lt (by simp)) (by simp)
  | cons x xs ih =>
    rw [List.flatMap_cons, filled_nested_append (nested x) (.flatMap fun y _ => nested y), ih,
      List.forall_mem_cons]

/-- The body of a class or a method is no part confined to platforms, as its header begins with
another letter. -/
theorem filled_definition (header : String) {c : Char} (first : header.toList.head? = some c)
    (hc : c ≠ 'i') {body : List Edit} (nested : Nested .python body) :
    Filled ([.line header, .indent] ++ body ++ [.unindent, .gap]) ↔ Filled body := by
  have other : ¬∃ platforms, header = platformCondition .python platforms := by
    rintro ⟨platforms, rfl⟩
    exact hc (Option.some.inj (first.symm.trans (head?_platformCondition platforms)))
  have split : [.line header, .indent] ++ body ++ [.unindent, .gap]
      = (.line header :: .indent :: body ++ [.unindent]) ++ [Edit.gap] := by simp
  have level : IsLevel (.line header :: .indent :: body ++ [.unindent]) := nested.isLevel.indented
  rw [split, filled_append level (by simp), filled_block header nested.isLevel,
    and_iff_left (filled_of_length_lt (by simp)), and_iff_right fun h => absurd h other]

end Dialect

namespace Form

open Dialect

variable (f : Form) (info : ClassInfo) (c : Collected)

/-- The blocks of the method of a context menu are those of its steps. -/
theorem filled_menuMethod (above : List Item) (builder : Branch Item) :
    Filled (f.menuMethod .python info c above builder) ↔
      Filled (steps .python (f.menuSteps .python c above builder)) := by
  have nested := nested_steps_python (f.menuSteps .python c above builder)
  let shown := ["self.PopupMenu(" ++ varRef .python contextMenuVar ++ ")",
    varRef .python contextMenuVar ++ ".Destroy()"]
  have lines := nested_lines_python shown
  let header := "def " ++ menuHandler { item := builder.label, above } ++ "(self, event):"
  have layout : f.menuMethod .python info c above builder
      = [.line header, .indent] ++ (steps .python (f.menuSteps .python c above builder)
        ++ Edit.lines shown) ++ [.unindent, .gap] := by
    simp [menuMethod, openMenu, closeMenu, Edit.lines, header, shown]
  rw [layout, filled_definition header (c := 'd') (by simp [header]) (by decide)
      (nested.append lines),
    filled_nested_append nested lines, and_iff_left (filled_lines shown)]

theorem filled_menuMethods :
    Filled (f.menuBranches.flatMap fun menu => f.menuMethod .python info c menu.1 menu.2) ↔
      ∀ menu ∈ f.menuBranches, Filled (steps .python (f.menuSteps .python c menu.1 menu.2)) := by
  have nested (menu : List Item × Branch Item) :
      Nested .python (f.menuMethod .python info c menu.1 menu.2) := f.nested_menuMethod ..
  rw [filled_flatMap nested]
  simp only [filled_menuMethod]

theorem filled_handlerStub (handler : String) : Filled (handlerStub .python handler) := by
  have skip : Nested .python [.line "event.Skip()"] := .plain List.not_mem_nil .nil
  exact (filled_definition ("def " ++ handler ++ "(self, event):") (c := 'd') (by simp) (by decide)
    skip).2 (filled_of_length_lt (by decide))

theorem filled_handlerStubs : Filled (handlerStubs .python info) := by
  have stubs : handlerStubs .python info
      = (info.handlers.map Prod.snd).flatMap (handlerStub .python) := by
    simp [handlerStubs, List.flatMap_map]
  rw [stubs]
  exact (filled_flatMap nested_handlerStub _).2 fun handler _ => filled_handlerStub handler

theorem filled_declarations : Filled (declarations .python c) := by
  unfold declarations
  dsimp only
  split
  · exact filled_of_length_lt (by decide)
  · exact (filled_append (nested_lines_python _).isLevel (by simp)).2
      ⟨filled_lines _, filled_of_length_lt (by simp)⟩

/-- The blocks of the constructor are those of its steps. -/
theorem filled_constructor :
    Filled (openConstructor .python info ++ (Edit.lines (f.validatorInits .python)
        ++ steps .python (f.constructorSteps .python c)) ++ closeConstructor .python) ↔
      Filled (steps .python (f.constructorSteps .python c)) := by
  have nested := nested_steps_python (f.constructorSteps .python c)
  let base := baseToken .python info ++ ".__init__("
    ++ Text.join ", " ("self" :: info.params.map Param.name) ++ ")"
  have init : ∀ e ∈ [Edit.line base, .gap], IsPlain .python e := by
    simp [IsPlain, brackets]
  have inits := nested_lines_python (f.validatorInits .python)
  let header := "def __init__("
    ++ Text.join ", " ("self" :: defaultedParams .python "=" info.params) ++ "):"
  have layout : openConstructor .python info ++ (Edit.lines (f.validatorInits .python)
        ++ steps .python (f.constructorSteps .python c)) ++ closeConstructor .python
      = [.line header, .indent] ++ ([.line base, .gap] ++ (Edit.lines (f.validatorInits .python)
        ++ steps .python (f.constructorSteps .python c))) ++ [.unindent, .gap] := by
    simp [openConstructor, closeConstructor, header, base]
  rw [layout, filled_definition header (c := 'd') (by simp [header]) (by decide)
      ((Nested.of_plain init).append (inits.append nested)),
    filled_nested_append (.of_plain init) (inits.append nested),
    and_iff_right (filled_of_plain init),
    filled_nested_append inits nested, and_iff_right (filled_lines _)]

/-- The blocks of a class are those of its methods. -/
theorem filled_classEdits :
    Filled (f.classEdits .python info c) ↔
      Filled (steps .python (f.constructorSteps .python c)) ∧
        ∀ menu ∈ f.menuBranches, Filled (steps .python (f.menuSteps .python c menu.1 menu.2)) := by
  let header := "class " ++ info.name ++ "(" ++ baseToken .python info ++ "):"
  let constructor := openConstructor .python info ++ (Edit.lines (f.validatorInits .python)
    ++ steps .python (f.constructorSteps .python c)) ++ closeConstructor .python
  let menus := f.menuBranches.flatMap fun menu => f.menuMethod .python info c menu.1 menu.2
  let stubs := handlerStubs .python info
  have layout : f.classEdits .python info c
      = [.line header, .indent] ++ (declarations .python c ++ (constructor ++ (menus ++ stubs)))
        ++ [.unindent, .gap] := by
    simp [classEdits_eq, openClass, closeClass, header, constructor, menus, stubs]
  have declared : Nested .python (declarations .python c) :=
    nested_declarations fun _ _ => List.not_mem_nil
  have hconstructor : Nested .python constructor :=
    nested_constructor info ((nested_lines_python _).append (nested_steps_python _))
  have hmenus : Nested .python menus := .flatMap fun menu _ => f.nested_menuMethod ..
  have hstubs : Nested .python stubs := nested_handlerStubs info
  rw [layout, filled_definition header (c := 'c') (by simp [header]) (by decide)
      (declared.append (hconstructor.append (hmenus.append hstubs))),
    filled_nested_append declared (hconstructor.append (hmenus.append hstubs)),
    and_iff_right (filled_declarations c),
    filled_nested_append hconstructor (hmenus.append hstubs), filled_constructor,
    filled_nested_append hmenus hstubs, and_iff_left (filled_handlerStubs info),
    filled_menuMethods]

end Form

/-! ## The blocks of a method -/

namespace Site

mutual

/-- Where a block is opened for a node or for one below it, a step in it is written as a
statement. -/
def Speaks (s : Site) (above before : List Item) : Branch Item → Prop
  | .mk i cs =>
    let p : Place := { item := i, children := cs.map Branch.label, above, before }
    i.isMenuBuilder = false → s.creates i.kind = true →
      (i.element.selector?.isSome = true →
        ∃ st ∈ s.createNode p ++ s.planAll (i :: above) [] cs ++ s.finish p, st.speaks = true) ∧
      s.SpeaksAll (i :: above) [] cs

/-- The same for siblings. -/
def SpeaksAll (s : Site) (above before : List Item) : List (Branch Item) → Prop
  | [] => True
  | b :: bs => s.Speaks above before b ∧ s.SpeaksAll above (b.label :: before) bs

end

mutual

theorem bodies_planNode (s : Site) (above before : List Item) (b : Branch Item) :
    (∀ body ∈ Step.bodiesAll (s.planNode above before b), ∃ st ∈ body, st.speaks = true) ↔
      s.Speaks above before b := by
  cases b with
  | mk i cs =>
    unfold planNode Speaks
    dsimp only
    cases hm : i.isMenuBuilder with
    | true => simp [Step.bodiesAll]
    | false =>
      cases hc : s.creates i.kind with
      | false =>
        have remark : Step.bodiesAll (s.unsupported i) = [] :=
          Step.bodiesAll_eq_nil ((plain_unsupported i).imp fun _ => Step.bodies_of_plain)
        simp [remark]
      | true =>
        let p : Place := { item := i, children := cs.map Branch.label, above, before }
        have created : Step.bodiesAll (s.createNode p) = [] :=
          Step.bodiesAll_eq_nil ((plain_createNode hm).imp fun _ => Step.bodies_of_plain)
        have finished : Step.bodiesAll (s.finish p) = [] :=
          Step.bodiesAll_eq_nil ((plain_finish hm).imp fun _ => Step.bodies_of_plain)
        have inside : Step.bodiesAll (s.createNode p ++ s.planAll (i :: above) [] cs ++ s.finish p)
            = Step.bodiesAll (s.planAll (i :: above) [] cs) := by
          simp only [Step.bodiesAll_append, created, finished, List.nil_append, List.append_nil]
        simp only [Bool.false_eq_true, if_false, if_true, forall_const]
        rw [← bodies_planAll s (i :: above) [] cs, ← inside]
        unfold confined
        cases i.element.selector? with
        | none => simp [p]
        | some selector => simp [p, Step.bodiesAll, Step.bodies]

theorem bodies_planAll (s : Site) (above before : List Item) (bs : List (Branch Item)) :
    (∀ body ∈ Step.bodiesAll (s.planAll above before bs), ∃ st ∈ body, st.speaks = true) ↔
      s.SpeaksAll above before bs := by
  cases bs with
  | nil => simp [planAll, SpeaksAll, Step.bodiesAll]
  | cons b bs =>
    rw [planAll, Step.bodiesAll_append, List.forall_mem_append, bodies_planNode s above before b,
      bodies_planAll s above (b.label :: before) bs, SpeaksAll]

end

end Site

namespace Form

open Dialect Step

variable (f : Form) (c : Collected)

/-- In each block of the constructor and of the handlers of context menus a step is written as a
statement: for a node that is confined to platforms, or below it, and for a group of bindings. -/
structure BlocksSpeak : Prop where
  nodes : (f.site .python c.images).SpeaksAll f.path [] f.children
  bindings : ∀ part ∈ c.events.bound.bySelector,
    ∃ u ∈ part.2, (Step.bind (f.binding u)).speaks = true
  entries : ∀ menu ∈ f.menuBranches,
    { f.site .python c.images with inMenu := true }.SpeaksAll (menu.2.label :: menu.1) []
      menu.2.children

theorem bodiesAll_binds {α : Type} (xs : List α) (g : α → Binding) :
    bodiesAll (xs.map fun x => .bind (g x)) = [] :=
  bodiesAll_eq_nil (by simp [bodies])

theorem bodiesAll_plan (images : List Asset) :
    bodiesAll (f.plan .python images)
      = bodiesAll ((f.site .python images).planAll f.path [] f.children) := by
  have settings : Each (Uses fun _ => True) ((f.site .python images).formSettings f.element) :=
    Site.uses_formSettings f.element
  have finish : Each (Uses fun _ => True) (Site.formFinish f.element) :=
    Site.uses_formFinish f.element
  simp only [plan, bodiesAll_append]
  rw [bodiesAll_eq_nil (settings.imp fun _ h => bodies_of_plain h.plain),
    bodiesAll_eq_nil (finish.imp fun _ h => bodies_of_plain h.plain), List.nil_append,
    List.append_nil]

/-- The blocks of bindings are those of the selectors. -/
theorem bodiesAll_bindSteps (events : EventTables) :
    bodiesAll (f.bindSteps events)
      = events.bound.bySelector.map fun part => part.2.map fun u => .bind (f.binding u) := by
  have parts (parts : List (String × List EventUse)) :
      bodiesAll (parts.map fun part =>
          .within part.1 (part.2.map fun u => .bind (f.binding u)))
        = parts.map fun part => part.2.map fun u => .bind (f.binding u) := by
    induction parts with
    | nil => rfl
    | cons part parts ih =>
      rw [List.map_cons, bodiesAll, ih, bodies, bodiesAll_binds]
      rfl
  have menus := bodiesAll_binds (f.menuBuilders.filterMap f.menuBinding?) id
  simp only [bindSteps, bodiesAll_append, bodiesAll_binds, List.nil_append]
  rw [show bodiesAll ((f.menuBuilders.filterMap f.menuBinding?).map .bind) = [] from menus,
    List.append_nil]
  exact parts _

theorem bodies_constructorSteps :
    (∀ body ∈ bodiesAll (f.constructorSteps .python c), ∃ st ∈ body, st.speaks = true) ↔
      (f.site .python c.images).SpeaksAll f.path [] f.children ∧
        ∀ part ∈ c.events.bound.bySelector,
          ∃ u ∈ part.2, (Step.bind (f.binding u)).speaks = true := by
  simp only [constructorSteps, bodiesAll_append, bodiesAll_plan, bodiesAll_bindSteps]
  rw [show bodiesAll [Step.gap] = [] from rfl, List.append_nil, List.forall_mem_append,
    Site.bodies_planAll, List.forall_mem_map]
  simp

theorem bodies_menuSteps (above : List Item) (builder : Branch Item) :
    (∀ body ∈ bodiesAll (f.menuSteps .python c above builder), ∃ st ∈ body, st.speaks = true) ↔
      { f.site .python c.images with inMenu := true }.SpeaksAll (builder.label :: above) []
        builder.children := by
  cases builder with
  | mk i cs =>
    rw [← Site.bodies_planAll]
    simp only [menuSteps, menuPlan, bodiesAll_append, bodiesAll, bodies, bodiesAll_binds,
      List.nil_append, List.append_nil]
    rfl

/-- **The blocks of a Python class are filled exactly when each has a step that is written as a
statement.** -/
theorem filled_classEdits_iff (info : ClassInfo) :
    Filled (f.classEdits .python info c) ↔ f.BlocksSpeak c := by
  rw [filled_classEdits, filled_steps, bodies_constructorSteps]
  simp only [filled_steps, bodies_menuSteps]
  constructor
  · rintro ⟨⟨nodes, bindings⟩, entries⟩
    exact ⟨nodes, bindings, entries⟩
  · rintro ⟨nodes, bindings, entries⟩
    exact ⟨⟨nodes, bindings⟩, entries⟩

end Form

end FormDesign
