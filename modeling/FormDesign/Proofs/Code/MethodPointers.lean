import FormDesign.Proofs.Code.Handlers

/-!
# The member functions that C++ binds

A binding in C++ points to a member function, `&C::handler`, and the header declares this function
with the class of the event that it is given. The class `C` comes to an event on another way than to
a context menu, and the header has one declaration for a handler, however many events share it.

* `Form.bindings_eq`: what the methods of the generated class bind
* `Dialect.mem_steps_of_leaf`: what is written for a step of a plan stands in the text of the plan
* `bindsOwnMembers_iff`: when every pointer is to a member of the generated class
* `Dialect.exists_prototype_iff`: what the header declares
* `prototypesMatch_iff`: when every function is declared for the events that it is bound to
-/

namespace FormDesign

/-! ## What the methods bind -/

/-- The binding of a step, if it is one. -/
def Step.binding? : Step → Option Binding
  | .bind b => some b
  | .stmt _ | .validate .. | .gap | .within .. | .warn _ => none

theorem Step.binding?_eq_some {s : Step} {b : Binding} : s.binding? = some b ↔ s = .bind b := by
  cases s <;> simp [binding?]

namespace Dialect

mutual

/-- What is written for a step of a plan stands in the text of the plan. -/
theorem mem_step_of_leaf {d : Dialect} {blocks blocks' : List String} {s leaf : Step} {edit : Edit}
    (h : (blocks', leaf) ∈ s.leaves blocks) (written : edit ∈ d.step leaf) : edit ∈ d.step s := by
  cases s with
  | within selector body =>
    rw [step]
    exact List.mem_append_left _ (List.mem_append_right _ (mem_steps_of_leaf h written))
  | stmt | bind | validate | gap | warn =>
    obtain ⟨-, rfl⟩ := Prod.mk.inj (List.mem_singleton.1 h)
    exact written

theorem mem_steps_of_leaf {d : Dialect} {blocks blocks' : List String} {steps : List Step}
    {leaf : Step} {edit : Edit} (h : (blocks', leaf) ∈ Step.leavesAll blocks steps)
    (written : edit ∈ d.step leaf) : edit ∈ d.steps steps := by
  cases steps with
  | nil => cases h
  | cons s rest =>
    rw [Dialect.steps]
    rcases List.mem_append.1 h with h | h
    · exact List.mem_append_left _ (mem_step_of_leaf h written)
    · exact List.mem_append_right _ (mem_steps_of_leaf h written)

end

end Dialect

namespace Form

variable {f : Form} {d : Dialect} {o : Options} {c : Collected}

/-- What the methods of the generated class bind, the constructor first. -/
def bindings (f : Form) (d : Dialect) (c : Collected) : List Binding :=
  (f.methods d c).flatMap fun steps => (Step.leavesAll [] steps).filterMap fun leaf =>
    leaf.2.binding?

/-- **The methods bind events and context menus**: the constructor the events of its table and all
menus, and the methods of the menus the events of theirs. -/
theorem bindings_eq : f.bindings d c
    = (c.events.bound.toList.map f.binding ++ f.menuBuilders.filterMap f.menuBinding?)
      ++ f.menuBranches.flatMap fun menu =>
        (menuEvents c.events menu.2.label).map f.binding := by
  have binds (x : Traced) (h : x.step.binding? ≠ none) : ∃ b, x.step = .bind b :=
    (Option.ne_none_iff_exists'.1 h).imp fun _ => Step.binding?_eq_some.1
  have own : (f.traceConstructor d c).filterMap (fun x => x.step.binding?)
      = c.events.bound.toList.map f.binding ++ f.menuBuilders.filterMap f.menuBinding? := by
    have menus : f.traceMenus.filterMap (fun x => x.step.binding?)
        = f.menuBuilders.filterMap f.menuBinding? := by
      rw [traceMenus, List.filterMap_filterMap]
      refine List.filterMap_congr fun builder _ => ?_
      cases f.menuBinding? builder <;> rfl
    rw [filterMap_traceConstructor binds, traceBindings_eq, List.filterMap_append, menus,
      ← Grouped.map_snd_entries, List.map_map, List.filterMap_map, ← List.filterMap_eq_map]
    rfl
  have inMenu (menu : List Item × Branch Item) :
      (f.traceMenu d c menu.1 menu.2).filterMap (fun x => x.step.binding?)
        = (menuEvents c.events menu.2.label).map f.binding := by
    rw [filterMap_traceMenu binds, List.filterMap_map, ← List.filterMap_eq_map]
    rfl
  have traced : f.bindings d c
      = (f.traces d c).flatMap (List.filterMap fun x => x.step.binding?) := by
    have leaves := congrArg (List.flatMap (List.filterMap fun leaf => leaf.2.binding?))
      (f.leavesAll_methods d c)
    rw [List.flatMap_map, List.flatMap_map] at leaves
    refine leaves.trans (List.flatMap_congr fun xs _ => ?_)
    rw [List.filterMap_map]
    rfl
  rw [traced, traces, List.flatMap_cons, own, List.flatMap_map]
  exact congrArg _ (List.flatMap_congr fun menu _ => inMenu menu)

theorem mem_bindings {b : Binding} : b ∈ f.bindings d c ↔
    (∃ u ∈ f.boundUses c.events, f.binding u = b) ∨
      ∃ builder ∈ f.menuBuilders, f.menuBinding? builder = some b := by
  rw [bindings_eq, boundUses, menuBuilders, List.flatMap_map, ← List.map_flatMap]
  simp only [List.mem_append, List.mem_map, List.mem_filterMap, or_and_right, exists_or]
  exact or_right_comm

/-- The constructor is part of the class. -/
theorem constructor_infix_classEdits {info : ClassInfo} :
    d.openConstructor info ++ Edit.lines (f.validatorInits d) ++ d.steps (f.constructorSteps d c)
      <:+: f.classEdits d info c := by
  refine ⟨d.openClass info ++ declarations d c, d.closeConstructor
    ++ f.menuBranches.flatMap (fun menu => f.menuMethod d info c menu.1 menu.2)
    ++ d.handlerStubs info ++ d.closeClass info, ?_⟩
  unfold classEdits
  simp only [List.append_assoc]

/-- What is written for a step of a method stands in the class. -/
theorem mem_classEdits_of_leaf {steps : List Step}
    (hsteps : steps ∈ f.methods d c) {blocks : List String} {leaf : Step}
    (h : (blocks, leaf) ∈ Step.leavesAll [] steps) {edit : Edit} (written : edit ∈ d.step leaf) :
    edit ∈ f.classEdits d (f.classInfo o c.events) c := by
  have stands : edit ∈ d.steps steps := Dialect.mem_steps_of_leaf h written
  rw [methods, List.mem_cons, List.mem_map] at hsteps
  rcases hsteps with own | ⟨menu, hmenu, inMenu⟩
  · rw [own] at stands
    exact constructor_infix_classEdits.subset (List.mem_append_right _ stands)
  · rw [← inMenu] at stands
    refine methods_infix_classEdits.subset (List.mem_flatMap.2 ⟨menu, hmenu, ?_⟩)
    unfold menuMethod
    exact List.mem_append_left _ (List.mem_append_right _ stands)

/-- What a method binds is written in the class, if the dialect can express it. -/
theorem line_mem_classEdits {b : Binding} {line : String} (h : b ∈ f.bindings d c)
    (written : d.binding b = some line) :
    .line line ∈ f.classEdits d (f.classInfo o c.events) c := by
  obtain ⟨steps, hsteps, hb⟩ := List.mem_flatMap.1 h
  obtain ⟨⟨blocks, s⟩, hleaf, hs⟩ := List.mem_filterMap.1 hb
  obtain rfl : s = .bind b := Step.binding?_eq_some.1 hs
  refine mem_classEdits_of_leaf hsteps hleaf ?_
  rw [Dialect.step, written]
  exact List.mem_singleton_self _

/-! ## The class that the pointers name -/

/-- **Every pointer is to a member of the generated class.** The header declares a class, the source
defines its `Create`, and whatever the methods bind by name they bind as a member of this class. -/
structure BindsOwnMembers (f : Form) (o : Options) (c : Collected) : Prop where
  declared : .line ("class " ++ f.className ++ " : public " ++ f.node.kind.className)
    ∈ f.handlerEdits .cpp o c
  defined : ∃ params, .line ("bool " ++ f.className ++ "::Create(" ++ params ++ ")")
    ∈ f.classEdits .cpp (f.classInfo o c.events) c
  refers : ∀ b ∈ f.bindings .cpp c, isInline b.handler = false →
    b.RefersTo .cpp f.className b.handler ∧
      ∃ line, Dialect.binding .cpp b = some line ∧
        .line line ∈ f.classEdits .cpp (f.classInfo o c.events) c

theorem classLine_mem_header :
    .line ("class " ++ f.className ++ " : public " ++ f.node.kind.className)
      ∈ f.handlerEdits .cpp o c := by
  unfold handlerEdits Dialect.header
  simp only [List.append_assoc]
  -- seven parts of the header stand before the one with the line
  iterate 7 refine List.mem_append_right _ ?_
  exact List.mem_append_left _ (List.mem_cons_of_mem _ List.mem_cons_self)

theorem exists_createLine_mem_classEdits :
    ∃ params, .line ("bool " ++ f.className ++ "::Create(" ++ params ++ ")")
      ∈ f.classEdits .cpp (f.classInfo o c.events) c := by
  have opened : ∃ params, .line ("bool " ++ f.className ++ "::Create(" ++ params ++ ")")
      ∈ Dialect.openConstructor .cpp (f.classInfo o c.events) := by
    unfold Dialect.openConstructor
    dsimp only
    split
    · exact ⟨_, List.mem_append_left _ List.mem_cons_self⟩
    · refine ⟨"", ?_⟩
      have text : "bool " ++ f.className ++ "::Create(" ++ "" ++ ")"
          = "bool " ++ f.className ++ "::Create()" := by
        rw [String.append_assoc, String.append_assoc]
        rfl
      rw [text]
      exact List.mem_cons_self
  obtain ⟨params, h⟩ := opened
  exact ⟨params, constructor_infix_classEdits.subset
    (List.mem_append_left _ (List.mem_append_left _ h))⟩

/-- The bindings point to members of the class that they name. -/
theorem bindsOwnMembers (own : ∀ b ∈ f.bindings .cpp c, isInline b.handler = false →
      b.className = f.className) :
    f.BindsOwnMembers o c where
  declared := classLine_mem_header
  defined := exists_createLine_mem_classEdits
  refers b hb named := by
    have refers : b.RefersTo .cpp b.className b.handler := Binding.refersTo named .cpp
    obtain ⟨before, after, written⟩ := refers.written
    exact ⟨own b hb named ▸ refers, _, written, line_mem_classEdits hb written⟩

/-- Bindings of context menus name the generated class. -/
theorem className_menuBinding? {builder : Spot} {b : Binding}
    (h : f.menuBinding? builder = some b) : b.className = f.className := by
  obtain ⟨owner, -, rfl⟩ := Option.map_eq_some_iff.1 h
  rfl

/-- Bindings of events point to members of the generated class if the form has a name. -/
theorem bindsOwnMembers_iff_named (form : f.node.kind.isForm = true)
    (hc : c.events = f.events.sort) :
    f.BindsOwnMembers o c ↔
      (f.element.className = "" → ∀ u ∈ f.events.sort.toList, isInline u.event.handler = true) := by
  constructor
  · intro h unnamed u hu
    refine Bool.of_not_eq_false fun named => ?_
    have bound : f.binding u ∈ f.bindings .cpp c :=
      mem_bindings.2 (Or.inl ⟨u, hc ▸ mem_boundUses.2 hu, rfl⟩)
    have generated : Dialect.handlerRef .cpp f.element.className u.event.handler
        = Dialect.reference .cpp f.className u.event.handler :=
      (h.refers _ bound named).1.reference_eq
    rw [Dialect.handlerRef_eq .cpp _ named, unnamed] at generated
    exact Element.reference_cpp_ne form unnamed u.event.handler u.event.handler generated
  · intro h
    refine bindsOwnMembers fun b hb named => ?_
    rcases mem_bindings.1 hb with ⟨u, hu, rfl⟩ | ⟨builder, -, menu⟩
    · rw [hc] at hu
      have hasName : f.element.className ≠ "" := by
        intro unnamed
        cases named.symm.trans (h unnamed u (mem_boundUses.1 hu))
      exact (Element.generatedClass_of_named hasName).symm
    · exact className_menuBinding? menu

end Form

/-- **When C++ binds members of the generated class.** The constructor and the methods of the
context menus do so in every form with a name, and in one without as long as all its handlers are
written in place. -/
theorem bindsOwnMembers_iff {t : Tree} {id : Nat} {f : Form} (hf : Form.ofTree t id = .ok f)
    {o : Options} {source : FileSource} {cache after : Cache} {table : ImageTable}
    (images : f.images source o.artDirectory cache = (.ok table, after)) :
    let c := f.collected .cpp table after
    generateSource t id (.source .cpp) o source cache = (.ok (f.output .cpp o c), after) ∧
      (f.BindsOwnMembers o c ↔ (f.element.className = "" →
        ∀ u ∈ f.events.sort.toList, isInline u.event.handler = true)) := by
  refine ⟨?_, Form.bindsOwnMembers_iff_named (Form.isForm_of_ofTree hf) rfl⟩
  rw [generateSource_eq hf rfl, Form.generate, images]

/-- A dialog that handles two events of different classes by one method. -/
def closingDialog : Element where
  kind := .dialog
  props := [(.className, "Dlg")]
  events :=
    [{ name := "wxEVT_CLOSE_WINDOW", handler := "OnEvent" },
      { name := "wxEVT_INIT_DIALOG", handler := "OnEvent" }]

/-- The form of that dialog. -/
def closingForm : Form where
  node := { closingDialog with id := 0, parent := none, children := [] }
  children := []
  above := []

/-- The dialog has a name, and its bindings point to members of `Dlg`. -/
theorem closingForm_bindsOwnMembers :
    let c := closingForm.collected .cpp .empty .empty
    generateSource (.ofDesign (.mk closingDialog [])) 0 (.source .cpp) .default noFiles .empty
        = (.ok (closingForm.output .cpp .default c), .empty) ∧
      closingForm.BindsOwnMembers .default c := by
  have hf : Form.ofTree (.ofDesign (.mk closingDialog [])) 0 = .ok closingForm := by
    with_unfolding_all rfl
  have images : closingForm.images noFiles Options.default.artDirectory .empty
      = (.ok .empty, .empty) := rfl
  obtain ⟨generated, own⟩ := bindsOwnMembers_iff hf images
  exact ⟨generated, own.2 fun unnamed => absurd unnamed (by decide)⟩

/-- In C++ the dialog with the panel has no name: of its three pointers, the one for the context
menu alone is to a member of `DialogBase`. -/
theorem menuDialog_not_bindsOwnMembers :
    let c := menuDialog.collected .cpp .empty .empty
    Form.ofTree (.ofDesign menuDesign) 0 = .ok menuDialog ∧
      generateSource (.ofDesign menuDesign) 0 (.source .cpp) .default noFiles .empty
        = (.ok (menuDialog.output .cpp .default c), .empty) ∧
      menuDialog.className = "DialogBase" ∧
      (menuDialog.bindings .cpp c).map (Dialect.binding .cpp)
        = [some "m_panel->Bind(wxEVT_PAINT, &::OnPaint, this);",
          some "m_panel->Bind(wxEVT_CONTEXT_MENU, &DialogBase::OnContextMenu_m_panel, this);",
          some "Bind(wxEVT_MENU, &::OnCopy, this, wxID_ANY);",
          some "Bind(wxEVT_UPDATE_UI, [](wxEvent&) {}, wxID_ANY);"] ∧
      ¬menuDialog.BindsOwnMembers .default c := by
  have hf : Form.ofTree (.ofDesign menuDesign) 0 = .ok menuDialog := by with_unfolding_all rfl
  refine ⟨hf, ?_, by decide +kernel, ?_, fun h => ?_⟩
  · rw [generateSource_eq hf rfl]
    rfl
  · -- the events of the menu are in order already
    have sorted : (menuDialog.collected .cpp .empty .empty).events.inMenus
        = menuDialog.events.inMenus := List.mergeSort_of_pairwise (by decide +kernel)
    simp only [Form.bindings_eq, Form.menuEvents, sorted]
    decide +kernel
  · have inPlace := (Form.bindsOwnMembers_iff_named (by decide) rfl).1 h (by decide)
    have bound : ∀ u ∈ menuDialog.events.sort.bound.toList, isInline u.event.handler = true :=
      fun u hu => inPlace u (List.mem_append_left _ hu)
    revert bound
    decide +kernel

/-! ## What the header declares -/

/-- The name of the class of an event has no parenthesis. -/
theorem paren_not_mem_eventClass (event : String) : '(' ∉ (eventClass event).toList := by
  have events : ∀ entry ∈ eventClasses, '(' ∉ entry.2.toList := by decide +kernel
  have families : ∀ entry ∈ eventFamilies, '(' ∉ entry.2.toList := by decide +kernel
  unfold eventClass
  dsimp only
  split
  · next h => exact events _ (List.mem_of_find?_eq_some h)
  · split
    · next h => exact families _ (List.mem_of_find?_eq_some h)
    · decide

/-- Characters are taken apart at the last `x` among them in one way. -/
theorem Text.Chars.append_cons_inj {x : Char} {xs xs' zs zs' : List Char} (h : x ∉ zs)
    (h' : x ∉ zs') (heq : xs ++ x :: zs = xs' ++ x :: zs') : xs = xs' ∧ zs = zs' := by
  -- with more in front on one side, the other side would have the `x` of this one behind its own
  have front {zs zs' rest : List Char} (h : x ∉ zs) (heq : x :: zs = rest ++ x :: zs') :
      rest = [] := by
    cases rest with
    | nil => rfl
    | cons y rest => exact absurd ((List.cons.inj heq).2 ▸ by simp) h
  rcases List.append_eq_append_iff.1 heq with ⟨rest, rfl, hzs⟩ | ⟨rest, rfl, hzs⟩
  · obtain rfl := front h hzs
    exact ⟨(List.append_nil xs).symm, (List.cons.inj hzs).2⟩
  · obtain rfl := front h' hzs
    exact ⟨List.append_nil xs', (List.cons.inj hzs).2.symm⟩

namespace Dialect

/-- A line of a C++ header that declares a method for the events of a class. -/
inductive IsPrototype (method className : String) : String → Prop
  /-- The method can be replaced. -/
  | replaceable : IsPrototype method className
      ("virtual void " ++ method ++ "(" ++ className ++ "& event) \x7b event.Skip(); \x7d")
  | fixed : IsPrototype method className ("void " ++ method ++ "(" ++ className ++ "& event);")

theorem signature_inj {before after m m' cl cl' : String} (h : '(' ∉ cl.toList)
    (h' : '(' ∉ cl'.toList)
    (heq : before ++ m ++ "(" ++ cl ++ after = before ++ m' ++ "(" ++ cl' ++ after) :
    m = m' ∧ cl = cl' := by
  rw [String.append_left_inj, String.append_assoc, String.append_assoc, String.append_assoc,
    String.append_assoc, String.append_right_inj] at heq
  have texts := congrArg String.toList heq
  simp only [String.toList_append] at texts
  obtain ⟨methods, classes⟩ := Text.Chars.append_cons_inj h h' texts
  exact ⟨String.toList_inj.1 methods, String.toList_inj.1 classes⟩

/-- The two forms of prototypes are told apart by their ends. -/
theorem replaceable_ne_fixed {before before' : String} :
    before ++ "& event) \x7b event.Skip(); \x7d" ≠ before' ++ "& event);" := by
  intro heq
  have ends := congrArg (fun s => s.toList.getLast?) heq
  simp only [String.toList_append, List.getLast?_append] at ends
  have chars : some '\x7d' = some ';' := ends
  exact absurd chars (by decide)

theorem isPrototype_stubLine {m m' cl event : String} (h : '(' ∉ cl.toList) :
    IsPrototype m cl (stubLine .cpp event m') ↔ m' = m ∧ eventClass event = cl := by
  constructor
  · intro declares
    generalize hline : stubLine .cpp event m' = line at declares
    cases declares with
    | replaceable => exact signature_inj (paren_not_mem_eventClass event) h hline
    | fixed => exact absurd hline replaceable_ne_fixed
  · rintro ⟨rfl, rfl⟩
    exact .replaceable

theorem menuPrototype_eq (m : String) :
    menuPrototype m = "void " ++ m ++ "(" ++ "wxContextMenuEvent" ++ "& event);" := by
  rw [String.append_assoc, String.append_assoc]
  rfl

theorem isPrototype_menuPrototype {m m' cl : String} (h : '(' ∉ cl.toList) :
    IsPrototype m cl (menuPrototype m') ↔ m' = m ∧ cl = "wxContextMenuEvent" := by
  rw [menuPrototype_eq]
  constructor
  · intro declares
    generalize hline : "void " ++ m' ++ "(" ++ "wxContextMenuEvent" ++ "& event);" = line
      at declares
    cases declares with
    | replaceable => exact absurd hline.symm replaceable_ne_fixed
    | fixed => exact (signature_inj (by decide) h hline).imp_right Eq.symm
  · rintro ⟨rfl, rfl⟩
    exact .fixed

/-- The first line of the part for the handlers declares none. -/
theorem not_isPrototype_title {m cl : String} : ¬IsPrototype m cl "// Event handlers" := by
  intro declares
  generalize hline : "// Event handlers" = line at declares
  cases declares with
  | replaceable | fixed =>
    have starts := congrArg (fun s => s.toList.head?) hline
    simp only [String.toList_append, List.head?_append] at starts
    have chars : some '/' = some 'v' := starts
    exact absurd chars (by decide)

theorem headerHandlers_infix_header {info : ClassInfo} {i : Imports} {ids : IdTable}
    {members : MemberTable} : headerHandlers info <:+: header info i ids members := by
  unfold header
  -- four more parts of the header follow
  have more {as bs : List Edit} (h : headerHandlers info <:+: as) :
      headerHandlers info <:+: as ++ bs := h.trans (List.prefix_append as bs).isInfix
  exact more <| more <| more <| more (List.suffix_append _ _).isInfix

/-- **What the part of the header for the handlers declares**: each listed handler for the event it
is listed with, and the methods that show context menus. -/
theorem exists_prototype_iff {info : ClassInfo} {m cl : String} (h : '(' ∉ cl.toList) :
    (∃ line, IsPrototype m cl line ∧ .line line ∈ headerHandlers info) ↔
      (∃ event, (event, m) ∈ info.handlers ∧ eventClass event = cl) ∨
        m ∈ info.contextMenus ∧ cl = "wxContextMenuEvent" := by
  constructor
  · rintro ⟨line, declares, hline⟩
    unfold headerHandlers at hline
    split at hline
    · cases hline
    · simp only [List.mem_append, List.mem_cons, List.not_mem_nil, List.mem_map, or_false] at hline
      rcases hline with (((title | gap) | ⟨entry, hentry, stub⟩) | ⟨menu, hmenu, menuLine⟩) | gap
      · obtain rfl := Edit.line.inj title
        exact absurd declares not_isPrototype_title
      · cases gap
      · obtain rfl := Edit.line.inj stub
        obtain ⟨rfl, rfl⟩ := (isPrototype_stubLine h).1 declares
        exact Or.inl ⟨_, hentry, rfl⟩
      · obtain rfl := Edit.line.inj menuLine
        obtain ⟨rfl, rfl⟩ := (isPrototype_menuPrototype h).1 declares
        exact Or.inr ⟨hmenu, rfl⟩
      · cases gap
  · rintro (⟨event, hmem, heq⟩ | ⟨hmem, heq⟩)
    · refine ⟨_, (isPrototype_stubLine h).2 ⟨rfl, heq⟩, mem_headerHandlers (Or.inl ?_)⟩
      exact List.mem_map.2 ⟨(event, m), hmem, rfl⟩
    · refine ⟨_, (isPrototype_menuPrototype h).2 ⟨rfl, heq⟩, mem_headerHandlers (Or.inr ?_)⟩
      exact List.mem_map_of_mem hmem

end Dialect

/-! ## Prototypes and bindings -/

namespace Form

variable {f : Form} {o : Options} {c : Collected}

/-- **The prototypes match the bindings.** The header has a part for the handlers, and whatever the
methods bind by name is declared there for the class of the event that it is bound to. -/
structure PrototypesMatch (f : Form) (o : Options) (c : Collected) : Prop where
  part : Dialect.headerHandlers (f.classInfo o c.events) <:+: f.handlerEdits .cpp o c
  declared : ∀ b ∈ f.bindings .cpp c, isInline b.handler = false →
    ∃ line, Dialect.IsPrototype b.handler (eventClass b.event) line ∧
      .line line ∈ Dialect.headerHandlers (f.classInfo o c.events)

/-- The first event in the tables with a handler, which the handler is listed with. -/
def firstUse (f : Form) (handler : String) : Option EventUse :=
  f.events.sort.toList.find? (·.event.handler == handler)

/-- The event is of the class that the header has its handler for: the class of the first event with
this handler, or that of context menus if the method of a context menu has the same name. -/
def DeclaredFor (f : Form) (u : EventUse) : Prop :=
  (∃ v, f.firstUse u.event.handler = some v ∧ eventClass v.event.name = eventClass u.event.name) ∨
    u.event.handler ∈ f.menuBuilders.map menuHandler ∧
      eventClass u.event.name = "wxContextMenuEvent"

theorem mem_toList_sort_events {u : EventUse} :
    u ∈ f.events.sort.toList ↔ u ∈ f.placedUses.map Prod.snd := by
  rw [← (f.entries_sort_events.map Prod.snd).mem_iff, EventTables.entries, List.map_append,
    List.map_map, List.map_map, EventTables.toList, ← Grouped.map_snd_entries]
  simp only [List.mem_append]
  refine or_congr Iff.rfl ?_
  rw [show (Prod.snd ∘ fun u : EventUse => (BindPlace.contextMenu, u)) = id from rfl, List.map_id]

/-- Handlers that all events share with others of their class are declared for them. -/
theorem declaredFor_of_alike (alike : ∀ u ∈ f.placedUses.map Prod.snd,
      ∀ v ∈ f.placedUses.map Prod.snd, v.event.handler = u.event.handler →
        eventClass v.event.name = eventClass u.event.name)
    {u : EventUse} (hu : u ∈ f.events.sort.toList) : f.DeclaredFor u := by
  cases hfirst : f.firstUse u.event.handler with
  | none => exact absurd (beq_self_eq_true _) (List.find?_eq_none.1 hfirst u hu)
  | some v =>
    have hv : v ∈ f.events.sort.toList := List.mem_of_find?_eq_some hfirst
    have shared : v.event.handler = u.event.handler := by
      rw [firstUse] at hfirst
      simpa using List.find?_some hfirst
    exact Or.inl ⟨v, hfirst, alike u (mem_toList_sort_events.1 hu) v
      (mem_toList_sort_events.1 hv) shared⟩

theorem exists_prototype_binding_iff (hc : c.events = f.events.sort) {u : EventUse}
    (named : isInline u.event.handler = false) :
    (∃ line, Dialect.IsPrototype u.event.handler (eventClass u.event.name) line ∧
      .line line ∈ Dialect.headerHandlers (f.classInfo o c.events)) ↔ f.DeclaredFor u := by
  rw [Dialect.exists_prototype_iff (paren_not_mem_eventClass _)]
  refine or_congr_left ?_
  simp only [classInfo, mk_mem_namedHandlers, hc]
  constructor
  · rintro ⟨_, ⟨-, v, hv, rfl⟩, same⟩
    exact ⟨v, hv, same⟩
  · rintro ⟨v, hv, same⟩
    exact ⟨_, ⟨named, v, hv, rfl⟩, same⟩

theorem prototypesMatch_iff_declaredFor (hc : c.events = f.events.sort) :
    f.PrototypesMatch o c ↔
      ∀ u ∈ f.events.sort.toList, isInline u.event.handler = false → f.DeclaredFor u := by
  constructor
  · intro h u hu named
    have bound : f.binding u ∈ f.bindings .cpp c :=
      mem_bindings.2 (Or.inl ⟨u, hc ▸ mem_boundUses.2 hu, rfl⟩)
    exact (exists_prototype_binding_iff hc named).1 (h.declared _ bound named)
  · refine fun h => ⟨Dialect.headerHandlers_infix_header, fun b hb named => ?_⟩
    rcases mem_bindings.1 hb with ⟨u, hu, rfl⟩ | ⟨builder, hbuilder, menu⟩
    · rw [hc] at hu
      exact (exists_prototype_binding_iff hc named).2 (h u (mem_boundUses.1 hu) named)
    · obtain ⟨owner, -, rfl⟩ := Option.map_eq_some_iff.1 menu
      refine (Dialect.exists_prototype_iff (paren_not_mem_eventClass _)).2 (Or.inr ⟨?_, ?_⟩)
      · exact List.mem_map_of_mem hbuilder
      · show eventClass "wxEVT_CONTEXT_MENU" = "wxContextMenuEvent"
        decide

end Form

/-- **When the prototypes match the bindings**, in every form: exactly when each handler is bound to
events of one class only, as far as no method of a context menu has the same name. The handler of a
context menu is always declared for the event that opens the menu. -/
theorem prototypesMatch_iff {t : Tree} {id : Nat} {f : Form} (hf : Form.ofTree t id = .ok f)
    {o : Options} {source : FileSource} {cache after : Cache} {table : ImageTable}
    (images : f.images source o.artDirectory cache = (.ok table, after)) :
    let c := f.collected .cpp table after
    generateSource t id (.source .cpp) o source cache = (.ok (f.output .cpp o c), after) ∧
      (f.PrototypesMatch o c ↔
        ∀ u ∈ f.events.sort.toList, isInline u.event.handler = false → f.DeclaredFor u) := by
  refine ⟨?_, Form.prototypesMatch_iff_declaredFor rfl⟩
  rw [generateSource_eq hf rfl, Form.generate, images]

/-- In C++ each handler of the dialog with the panel has one event, and all are declared for it. -/
theorem menuDialog_prototypesMatch :
    let c := menuDialog.collected .cpp .empty .empty
    generateSource (.ofDesign menuDesign) 0 (.source .cpp) .default noFiles .empty
        = (.ok (menuDialog.output .cpp .default c), .empty) ∧
      menuDialog.PrototypesMatch .default c := by
  have hf : Form.ofTree (.ofDesign menuDesign) 0 = .ok menuDialog := by with_unfolding_all rfl
  have images : menuDialog.images noFiles Options.default.artDirectory .empty
      = (.ok .empty, .empty) := rfl
  obtain ⟨generated, prototypes⟩ := prototypesMatch_iff hf images
  exact ⟨generated, prototypes.2 fun u hu _ => Form.declaredFor_of_alike (by decide +kernel) hu⟩

/-- The dialog binds its method to both events, and declares it for the first of them only. -/
theorem closingForm_not_prototypesMatch :
    let c := closingForm.collected .cpp .empty .empty
    Form.ofTree (.ofDesign (.mk closingDialog [])) 0 = .ok closingForm ∧
      generateSource (.ofDesign (.mk closingDialog [])) 0 (.source .cpp) .default noFiles .empty
        = (.ok (closingForm.output .cpp .default c), .empty) ∧
      (closingForm.bindings .cpp c).map (Dialect.binding .cpp)
        = [some "Bind(wxEVT_CLOSE_WINDOW, &Dlg::OnEvent, this);",
          some "Bind(wxEVT_INIT_DIALOG, &Dlg::OnEvent, this);"] ∧
      Dialect.headerHandlers (closingForm.classInfo .default c.events)
        = [.line "// Event handlers", .gap,
          .line "virtual void OnEvent(wxCloseEvent& event) \x7b event.Skip(); \x7d", .gap] ∧
      ¬closingForm.PrototypesMatch .default c := by
  have hf : Form.ofTree (.ofDesign (.mk closingDialog [])) 0 = .ok closingForm := by
    with_unfolding_all rfl
  -- the events are in order already
  have sorted : closingForm.events.sort = closingForm.events := by
    have common : EventUse.sort closingForm.events.bound.common
        = closingForm.events.bound.common := List.mergeSort_of_pairwise (by decide +kernel)
    exact congrArg₂ EventTables.mk (congrArg₂ Grouped.mk common rfl) List.mergeSort_nil
  have collected : (closingForm.collected .cpp .empty .empty).events = closingForm.events := sorted
  refine ⟨hf, ?_, ?_, ?_, fun h => ?_⟩
  · rw [generateSource_eq hf rfl]
    rfl
  · simp only [Form.bindings_eq, collected]
    decide +kernel
  · simp only [Dialect.headerHandlers, Form.classInfo, collected]
    decide +kernel
  · have declared := (Form.prototypesMatch_iff_declaredFor rfl).1 h
    simp only [Form.DeclaredFor, Form.firstUse, sorted] at declared
    revert declared
    decide +kernel

end FormDesign
