import FormDesign.Proofs.Code.MethodPointers

/-!
# Inline handlers

Whether a handler is the name of a method or an inline function is told from its text, and in
several places: for the node, for the list of handlers, and where the event is bound. A node looks
past the blanks before the text, the others do not.

* `Dialect.binding_eq`: the text of a binding around the reference to its handler
* `Form.Agree`: what is generated treats a handler as what the node says it is
* `Form.agree_of_isInline`, `Form.agree_of_not_isLambda`: handlers that are told alike everywhere
* `handlersAgree_iff`: when this is so for all events of a form
-/

namespace FormDesign

/-! ## The text of a binding -/

namespace Dialect

/-- The statement that binds an event, given how it refers to the handler. -/
def bindingLine (d : Dialect) (source : BindSource) (event reference : String) : String :=
  match d, source with
  | .cpp, .form => "Bind(" ++ event ++ ", " ++ reference ++ ");"
  | .cpp, .window v => d.varRef v ++ "->Bind(" ++ event ++ ", " ++ reference ++ ");"
  | .cpp, .item id => "Bind(" ++ event ++ ", " ++ reference ++ ", " ++ d.expr id ++ ");"
  | .python, .form => "self.Bind(" ++ event ++ ", " ++ reference ++ ")"
  | .python, .window v => d.varRef v ++ ".Bind(" ++ event ++ ", " ++ reference ++ ")"
  | .python, .item id => "self.Bind(" ++ event ++ ", " ++ reference ++ ", id=" ++ d.expr id ++ ")"
  | .ruby, .form => event ++ "(" ++ reference ++ ")"
  | .ruby, .window v => event ++ "(" ++ d.varRef v ++ ".get_id, " ++ reference ++ ")"
  | .ruby, .item id => event ++ "(" ++ d.expr id ++ ", " ++ reference ++ ")"
  | .perl, .form => event ++ "($self, " ++ reference ++ ");"
  | .perl, .window v => event ++ "($self, " ++ d.varRef v ++ "->GetId(), " ++ reference ++ ");"
  | .perl, .item id => event ++ "($self, " ++ d.expr id ++ ", " ++ reference ++ ");"

/-- **Only C++ binds a handler that is inline.** -/
theorem binding_eq (d : Dialect) (b : Binding) :
    d.binding b =
      if isInline b.handler && d != .cpp then none
      else some (d.bindingLine b.source (d.eventName b.event)
        (d.handlerRef b.className b.handler)) := by
  unfold binding
  split
  · rfl
  · cases d <;> cases b.source <;> rfl

/-- The reference stands somewhere in the statement. -/
theorem exists_bindingLine (d : Dialect) (source : BindSource) (event : String) :
    ∃ front back, ∀ reference,
      d.bindingLine source event reference = front ++ reference ++ back := by
  cases d <;> cases source
  case cpp.item id =>
    refine ⟨"Bind(" ++ event ++ ", ", ", " ++ cpp.expr id ++ ");", fun _ => ?_⟩
    unfold bindingLine
    simp only [String.append_assoc]
  case python.item id =>
    refine ⟨"self.Bind(" ++ event ++ ", ", ", id=" ++ python.expr id ++ ")", fun _ => ?_⟩
    unfold bindingLine
    simp only [String.append_assoc]
  -- elsewhere it is followed by the end of the statement
  all_goals exact ⟨_, _, fun _ => rfl⟩

/-- The reference can be read off the statement. -/
theorem bindingLine_inj {d : Dialect} {source : BindSource} {event reference reference' : String} :
    d.bindingLine source event reference = d.bindingLine source event reference' ↔
      reference = reference' := by
  refine ⟨fun h => ?_, fun h => by rw [h]⟩
  obtain ⟨front, back, line⟩ := d.exists_bindingLine source event
  rw [line, line, String.append_left_inj, String.append_right_inj] at h
  exact h

end Dialect

/-! ## What is generated for an event -/

namespace Form

variable {f : Form} {d : Dialect} {o : Options} {c : Collected} {u : EventUse}

/-- The class has a statement that binds the event with this reference to the handler. -/
def BoundAs (f : Form) (d : Dialect) (o : Options) (c : Collected) (u : EventUse)
    (reference : String) : Prop :=
  let line := d.bindingLine u.item.bindSource (d.eventName u.event.name) reference
  d.binding (f.binding u) = some line ∧ .line line ∈ f.classEdits d (f.classInfo o c.events) c

/-- **What is generated treats the handler of an event as what the node says it is.** -/
structure Agree (f : Form) (d : Dialect) (o : Options) (c : Collected) (u : EventUse) :
    Prop where
  /-- An inline function is no method of the class. -/
  unlisted : u.event.isLambda = true →
    u.event.handler ∉ (f.classInfo o c.events).handlers.map Prod.snd
  /-- Where it cannot be bound, it is left out with a warning. -/
  declined : u.event.isLambda = true → d ≠ .cpp →
    d.binding (f.binding u) = none ∧
      ∃ w ∈ (f.output d o c).warnings, u.skipped? d = some w
  /-- C++ binds the function itself. -/
  passed : u.event.isLambda = true → d = .cpp → f.BoundAs d o c u u.event.handler
  /-- Any other handler is a method of the class, and bound as such. -/
  named : u.event.isLambda = false →
    u.event.handler ∈ (f.classInfo o c.events).handlers.map Prod.snd ∧
      f.BoundAs d o c u (d.reference f.className (d.methodName u.event.handler))

theorem mem_boundUses_of_mem (hc : c.events = f.events.sort) (hu : u ∈ c.events.toList) :
    u ∈ f.boundUses c.events := by
  rw [hc] at hu ⊢
  exact mem_boundUses.2 hu

/-- An event of the tables is bound with the reference that the language has for its handler. -/
theorem boundAs_handlerRef (hc : c.events = f.events.sort) (hu : u ∈ c.events.toList)
    (accepted : (isInline u.event.handler && d != .cpp) = false) :
    f.BoundAs d o c u (d.handlerRef f.element.className u.event.handler) := by
  have written : d.binding (f.binding u)
      = some (d.bindingLine u.item.bindSource (d.eventName u.event.name)
        (d.handlerRef f.element.className u.event.handler)) := by
    rw [Dialect.binding_eq]
    exact if_neg (Bool.eq_false_iff.1 accepted)
  have bound : f.binding u ∈ f.bindings d c :=
    mem_bindings.2 (Or.inl ⟨u, mem_boundUses_of_mem hc hu, rfl⟩)
  exact ⟨written, line_mem_classEdits bound written⟩

/-- A binding has one reference. -/
theorem BoundAs.eq {reference reference' : String} (h : f.BoundAs d o c u reference)
    (h' : f.BoundAs d o c u reference') : reference = reference' :=
  Dialect.bindingLine_inj.1 (Option.some.inj (h.1.symm.trans h'.1))

/-- A handler of the tables is listed, unless it opens with a bracket. -/
theorem handler_mem_handlers_iff (hu : u ∈ c.events.toList) :
    u.event.handler ∈ (f.classInfo o c.events).handlers.map Prod.snd ↔
      isInline u.event.handler = false := by
  rw [classInfo, mem_namedHandlers]
  exact and_iff_left ⟨u, hu, rfl⟩

/-- **A handler that opens with a bracket is an inline function everywhere.** -/
theorem agree_of_isInline (hc : c.events = f.events.sort) (hu : u ∈ c.events.toList)
    (inline : isInline u.event.handler = true) : f.Agree d o c u where
  unlisted _ listed := by
    rw [handler_mem_handlers_iff hu, inline] at listed
    cases listed
  declined _ scripted := by
    have rejected : (isInline u.event.handler && d != .cpp) = true := by simp [inline, scripted]
    have none : d.binding (f.binding u) = none := by
      rw [Dialect.binding_eq]
      exact if_pos rejected
    have skipped : (u.skipped? d).isSome = true := by
      refine skipped?_of_declined (f := f) ?_
      rw [accepts_eq, rejected]
      rfl
    obtain ⟨w, hw⟩ := Option.isSome_iff_exists.1 skipped
    refine ⟨none, w, mem_firsts.2 (List.mem_append_left _ (List.mem_append_right _ ?_)), hw⟩
    exact List.mem_filterMap.2 ⟨u, mem_boundUses_of_mem hc hu, hw⟩
  passed _ cpp := by
    subst cpp
    have reference : Dialect.handlerRef .cpp f.element.className u.event.handler
        = u.event.handler := by
      unfold Dialect.handlerRef
      rw [if_pos inline]
    have bound : f.BoundAs .cpp o c u
        (Dialect.handlerRef .cpp f.element.className u.event.handler) :=
      boundAs_handlerRef hc hu (Bool.and_false _)
    rwa [reference] at bound
  named method := by
    rw [isLambda_of_isInline inline] at method
    cases method

/-- **A handler that is no inline function for the node is a method everywhere**, with one
exception: in C++ it is one of the class that the form's property names. -/
theorem agree_of_not_isLambda (hc : c.events = f.events.sort) (hu : u ∈ c.events.toList)
    (method : u.event.isLambda = false)
    (className : d = .cpp → f.element.className = f.className) : f.Agree d o c u where
  unlisted lambda := by
    rw [method] at lambda
    cases lambda
  declined lambda := by
    rw [method] at lambda
    cases lambda
  passed lambda := by
    rw [method] at lambda
    cases lambda
  named _ := by
    have plain : isInline u.event.handler = false :=
      Bool.eq_false_iff.2 fun inline => Bool.eq_false_iff.1 method (isLambda_of_isInline inline)
    have reference : d.handlerRef f.element.className u.event.handler
        = d.reference f.className (d.methodName u.event.handler) := by
      rw [d.handlerRef_eq _ plain]
      cases d with
      | cpp => rw [className rfl]
      | python | ruby | perl => rfl
    refine ⟨(handler_mem_handlers_iff hu).2 plain, reference ▸ boundAs_handlerRef hc hu ?_⟩
    rw [plain, Bool.false_and]

/-- An inline function with blanks before it is listed as a method. -/
theorem Agree.inline_of_isLambda (h : f.Agree d o c u) (hu : u ∈ c.events.toList)
    (lambda : u.event.isLambda = true) : isInline u.event.handler = true :=
  Bool.of_not_eq_false fun plain => h.unlisted lambda ((handler_mem_handlers_iff hu).2 plain)

/-- Without a name for the form, C++ binds a method as one of no class. -/
theorem Agree.inline_of_unnamed (h : f.Agree .cpp o c u) (form : f.node.kind.isForm = true)
    (hc : c.events = f.events.sort) (hu : u ∈ c.events.toList)
    (unnamed : f.element.className = "") : isInline u.event.handler = true := by
  refine Bool.of_not_eq_false fun plain => ?_
  have method : u.event.isLambda = false :=
    Bool.eq_false_iff.2 fun lambda => Bool.eq_false_iff.1 plain (h.inline_of_isLambda hu lambda)
  have bound : f.BoundAs .cpp o c u (Dialect.handlerRef .cpp f.element.className u.event.handler) :=
    boundAs_handlerRef hc hu (Bool.and_false _)
  have heq := bound.eq (h.named method).2
  rw [Dialect.handlerRef_eq .cpp _ plain, unnamed] at heq
  exact Element.reference_cpp_ne form unnamed _ _ heq

end Form

/-- **When what is generated agrees with the nodes on all handlers**: no inline function has blanks
before its bracket. In C++ a form without a name must have no methods among its handlers, either. -/
theorem handlersAgree_iff {t : Tree} {id : Nat} {f : Form} (hf : Form.ofTree t id = .ok f)
    {d : Dialect} (hd : d.supports f.node.kind = true) {o : Options} {source : FileSource}
    {cache after : Cache} {table : ImageTable}
    (images : f.images source o.artDirectory cache = (.ok table, after)) :
    let c := f.collected d table after
    generateSource t id (.source d) o source cache = (.ok (f.output d o c), after) ∧
      ((∀ u ∈ c.events.toList, f.Agree d o c u) ↔
        (∀ u ∈ c.events.toList, u.event.isLambda = true → isInline u.event.handler = true) ∧
          (d = .cpp → f.element.className = "" →
            ∀ u ∈ c.events.toList, isInline u.event.handler = true)) := by
  intro c
  have form := Form.isForm_of_ofTree hf
  have hc : c.events = f.events.sort := rfl
  refine ⟨by rw [generateSource_eq hf hd, Form.generate, images], ?_, ?_⟩
  · intro h
    refine ⟨fun u hu lambda => (h u hu).inline_of_isLambda hu lambda, ?_⟩
    rintro rfl unnamed u hu
    exact (h u hu).inline_of_unnamed form hc hu unnamed
  · rintro ⟨bracketFirst, unnamed⟩ u hu
    by_cases inline : isInline u.event.handler = true
    · exact Form.agree_of_isInline hc hu inline
    · have method : u.event.isLambda = false :=
        Bool.eq_false_iff.2 fun lambda => inline (bracketFirst u hu lambda)
      refine Form.agree_of_not_isLambda hc hu method fun cpp => ?_
      have hasName : f.element.className ≠ "" := fun empty => inline (unnamed cpp empty u hu)
      exact (Element.generatedClass_of_named hasName).symm

/-- In Python the dialog with the panel has a method for each of its events but one, which it warns
of. -/
theorem menuDialog_handlersAgree :
    let c := menuDialog.collected .python .empty .empty
    generateSource (.ofDesign menuDesign) 0 (.source .python) .default noFiles .empty
        = (.ok (menuDialog.output .python .default c), .empty) ∧
      ∀ u ∈ c.events.toList, menuDialog.Agree .python .default c u := by
  have hf : Form.ofTree (.ofDesign menuDesign) 0 = .ok menuDialog := by with_unfolding_all rfl
  have images : menuDialog.images noFiles Options.default.artDirectory .empty
      = (.ok .empty, .empty) := rfl
  obtain ⟨generated, agree⟩ := handlersAgree_iff hf (d := .python) (by decide) images
  refine ⟨generated, agree.2 ⟨?_, nofun⟩⟩
  -- the events of the menu are in order already
  have sorted : (menuDialog.collected .python .empty .empty).events.inMenus
      = menuDialog.events.inMenus := List.mergeSort_of_pairwise (by decide +kernel)
  unfold EventTables.toList
  rw [sorted]
  decide +kernel

/-! ## Blanks before the bracket -/

/-- A dialog with an inline function that has a blank before its bracket. -/
def blankDialog : Element where
  kind := .dialog
  props := [(.className, "Dlg")]
  events := [{ name := "wxEVT_INIT_DIALOG", handler := " [](wxInitDialogEvent&) \x7b\x7d" }]

/-- The form of that dialog. -/
def blankForm : Form where
  node := { blankDialog with id := 0, parent := none, children := [] }
  children := []
  above := []

/-- Its event. -/
def blankUse : EventUse where
  spot := { item := blankForm.item, above := [] }
  event := { name := "wxEVT_INIT_DIALOG", handler := " [](wxInitDialogEvent&) \x7b\x7d" }

/-- Python binds the function as a method and has no warning. -/
theorem blankForm_not_handlersAgree :
    let c := blankForm.collected .python .empty .empty
    Form.ofTree (.ofDesign (.mk blankDialog [])) 0 = .ok blankForm ∧
      generateSource (.ofDesign (.mk blankDialog [])) 0 (.source .python) .default noFiles .empty
        = (.ok (blankForm.output .python .default c), .empty) ∧
      c.events.toList = [blankUse] ∧ blankUse.event.isLambda = true ∧
      blankUse.event.handler ∈ (blankForm.classInfo .default c.events).handlers.map Prod.snd ∧
      Dialect.binding .python (blankForm.binding blankUse)
        = some "self.Bind(wx.EVT_INIT_DIALOG, self. [](wxInitDialogEvent&) \x7b\x7d)" ∧
      blankUse.skipped? .python = none ∧
      ¬∀ u ∈ c.events.toList, blankForm.Agree .python .default c u := by
  have hf : Form.ofTree (.ofDesign (.mk blankDialog [])) 0 = .ok blankForm := by
    with_unfolding_all rfl
  have events : (blankForm.collected .python .empty .empty).events.toList = [blankUse] := by
    with_unfolding_all rfl
  have lambda : blankUse.event.isLambda = true := by decide +kernel
  have listed : blankUse.event.handler ∈ (blankForm.classInfo .default
      (blankForm.collected .python .empty .empty).events).handlers.map Prod.snd := by
    rw [Form.handler_mem_handlers_iff (events ▸ List.mem_singleton_self _)]
    decide +kernel
  refine ⟨hf, ?_, events, lambda, listed, by decide +kernel, by decide +kernel, fun h => ?_⟩
  · rw [generateSource_eq hf (by decide)]
    rfl
  · exact (h blankUse (events ▸ List.mem_singleton_self _)).unlisted lambda listed

end FormDesign
