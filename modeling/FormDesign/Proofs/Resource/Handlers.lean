import FormDesign.Proofs.Grouped
import FormDesign.Proofs.Resource.Classes
import FormDesign.Proofs.Tree.Built
import FormDesign.Resource.Handler

/-!
# Handlers of a resource

The handlers that a subtree requires are those of the kinds in it. The resource of the subtree also
has objects of other kinds: the panel of a book page, the control in the label of a box, the buttons
of a dialog, the menu below a tool, the sizer around a remark, and the panel and the sizer around a
bar. Their handlers are only required if something else in the subtree has them.

* `HandlersCover`: every element finds a handler among those that are given
* `Branch.addedHandlers`: the handlers of what a node brings besides itself
* `handlersCover_iff`: the required handlers cover a resource exactly if they have all of these
-/

namespace FormDesign

/-! ## Handlers of classes -/

/-- A handler that loads objects of a class: that of a kind with this class. -/
def Handles (handler className : String) : Prop :=
  ∃ k : Kind, k.className = className ∧ k.handler? = some handler

/-- If the class of an element has a handler, it has one among these. -/
def LoadedBy (handlers : List String) (className : String) : Prop :=
  (∃ h, Handles h className) → ∃ h ∈ handlers, Handles h className

/-- Every element that has the class of some kind with a handler finds one among these. -/
def HandlersCover (handlers : List String) (nodes : List Xml) : Prop :=
  ∀ x ∈ Xml.elementsAll nodes, ∀ c, x.class? = some c → LoadedBy handlers c

namespace Kind

/-- A class has one handler at most. -/
theorem handler?_eq_of_className_eq :
    ∀ k ∈ all, ∀ k' ∈ all, k.className = k'.className → k.className ≠ "" →
      k.handler?.isSome = true → k'.handler?.isSome = true → k.handler? = k'.handler? := by
  decide +kernel

/-- The object of a node has the class of another kind with a handler only if this is the class of
the node itself. -/
theorem className_eq_of_objectClass? :
    ∀ k ∈ all, ∀ k' ∈ all, k.isDescribed = true → k ≠ .bookPage → k'.handler?.isSome = true →
      k.objectClass? = some k'.className →
        k.className = k'.className ∧ k.handler?.isSome = true := by
  decide +kernel

theorem className_notMem_wrapperClasses (k : Kind) : k.className ∉ wrapperClasses := by
  cases k <;> decide

end Kind

variable {handlers : List String}

/-- The objects of a class are loaded by the handler of the class and by no other. -/
theorem loadedBy_className_iff {k : Kind} {h : String} (named : k.className ≠ "")
    (handler : k.handler? = some h) : LoadedBy handlers k.className ↔ h ∈ handlers := by
  constructor
  · intro loaded
    obtain ⟨h', mem, k', same, handler'⟩ := loaded ⟨h, k, rfl, handler⟩
    have heq := Kind.handler?_eq_of_className_eq k k.mem_all k' k'.mem_all same.symm named
      (by rw [handler]; rfl) (by rw [handler']; rfl)
    rw [handler, handler'] at heq
    exact Option.some.inj heq ▸ mem
  · intro mem _
    exact ⟨h, mem, k, rfl, handler⟩

theorem loadedBy_panel : LoadedBy handlers "wxPanel" ↔ "wxPanelXmlHandler" ∈ handlers :=
  loadedBy_className_iff (k := .panel) (by decide) rfl

theorem loadedBy_boxSizer : LoadedBy handlers "wxBoxSizer" ↔ "wxSizerXmlHandler" ∈ handlers :=
  loadedBy_className_iff (k := .boxSizer) (by decide) rfl

/-! ## What is written -/

namespace Branch

mutual

/-- The parts of a design that something is written for. Nothing is written below a node that the
resource cannot describe. -/
def written (comments : Bool) : Design → List Design
  | .mk e cs =>
    if e.kind.isDescribed then .mk e cs :: writtenAll comments cs
    else if e.isWritten comments then [.mk e cs]
    else []

def writtenAll (comments : Bool) : List Design → List Design
  | [] => []
  | b :: bs => written comments b ++ writtenAll comments bs

end

/-- The classes that are written for a node, apart from what stands around. -/
def classes (comments : Bool) (b : Design) : List (Option String) :=
  b.label.classes comments b.children.isEmpty

/-- The handlers of what is written for a node besides the object of its kind. -/
def addedHandlers (b : Design) : List String :=
  match b.label.kind with
  | .bookPage => ["wxPanelXmlHandler"]
  | .staticCheckboxBoxSizer => ["wxCheckBoxXmlHandler"]
  | .staticRadioBtnBoxSizer => ["wxRadioButtonXmlHandler"]
  | .stdDialogButtonSizer => if b.label.buttons = [] then [] else ["wxButtonXmlHandler"]
  | .toolDropdown => if b.children.isEmpty then [] else ["wxMenuXmlHandler"]
  | .timer | .contextMenuEvent | .popupTransientWindow => ["wxSizerXmlHandler"]
  | _ => []

mutual

theorem of_mem_written {comments : Bool} {b w : Design} (h : w ∈ written comments b) :
    w.label ∈ b.toList ∧ w.label.isWritten comments = true := by
  cases b with
  | mk e cs =>
    rw [written] at h
    rw [toList]
    split at h
    · next described =>
      rcases List.mem_cons.1 h with rfl | h
      · exact ⟨List.mem_cons_self, Bool.or_eq_true_iff.2 (.inl described)⟩
      · obtain ⟨mem, isWritten⟩ := of_mem_writtenAll h
        exact ⟨List.mem_cons_of_mem _ mem, isWritten⟩
    · split at h
      · next isWritten =>
        obtain rfl := List.mem_singleton.1 h
        exact ⟨List.mem_cons_self, isWritten⟩
      · cases h

theorem of_mem_writtenAll {comments : Bool} {bs : List Design} {w : Design}
    (h : w ∈ writtenAll comments bs) :
    w.label ∈ toListAll bs ∧ w.label.isWritten comments = true := by
  cases bs with
  | nil => cases h
  | cons b bs =>
    rw [writtenAll] at h
    rw [toListAll]
    rcases List.mem_append.1 h with h | h
    · obtain ⟨mem, isWritten⟩ := of_mem_written h
      exact ⟨List.mem_append_left _ mem, isWritten⟩
    · obtain ⟨mem, isWritten⟩ := of_mem_writtenAll h
      exact ⟨List.mem_append_right _ mem, isWritten⟩

end

/-- A folder has no class. -/
theorem notMem_classes_of_folder {comments : Bool} {e : Element} {cs : List Design}
    (folder : e.kind = .folder) (c : String) :
    some c ∉ (Branch.mk e cs : Design).classes comments := by
  simp [classes, label, Element.classes, Element.controlClasses, Element.menuClasses, folder,
    Kind.isDescribed, Kind.objectClass?]

mutual

theorem mem_classesOf (comments flatten : Bool) (above : List Element) (b : Design) (c : String) :
    some c ∈ classesOf comments flatten above b
      ↔ ∃ w ∈ written comments b, some c ∈ w.classes comments := by
  cases b with
  | mk e cs =>
    have below := fun flatten => mem_classesOfAll comments flatten (e :: above) cs c
    have self : some c ∈ e.classes comments cs.isEmpty
        ↔ some c ∈ (Branch.mk e cs : Design).classes comments := Iff.rfl
    rw [classesOf, written]
    split
    · next hfolder =>
      have folder : e.kind = .folder := by
        simp only [Bool.and_eq_true, decide_eq_true_eq] at hfolder
        exact hfolder.2
      have described : e.kind.isDescribed = true := by rw [folder]; rfl
      have none : some c ∉ (Branch.mk e cs : Design).classes comments :=
        notMem_classes_of_folder folder c
      rw [below, if_pos described]
      simp [none]
    · rw [List.mem_append, self]
      cases described : e.kind.isDescribed with
      | true => simp [below]
      | false =>
        have empty (h : e.isWritten comments = false) :
            some c ∉ (Branch.mk e cs : Design).classes comments := by
          simp [classes, Element.classes, label, described, h]
        cases isWritten : e.isWritten comments with
        | true => simp
        | false => simp [empty isWritten]

/-- The classes of the objects are those that are written for one of the nodes. A folder has none,
dissolved or not. -/
theorem mem_classesOfAll (comments flatten : Bool) (above : List Element) (bs : List Design)
    (c : String) :
    some c ∈ classesOfAll comments flatten above bs
      ↔ ∃ w ∈ writtenAll comments bs, some c ∈ w.classes comments := by
  cases bs with
  | nil => simp [classesOfAll, writtenAll]
  | cons b bs =>
    rw [classesOfAll, writtenAll, List.mem_append, mem_classesOf comments flatten above b,
      mem_classesOfAll comments flatten above bs]
    simp only [List.mem_append, or_and_right, exists_or]

end

/-- The object of a node is loaded by the handler of its kind, except for the panel of a page. -/
theorem loadedBy_objectClass {b : Design} (described : b.label.kind.isDescribed = true)
    (page : b.label.kind ≠ .bookPage)
    (own : ∀ h, b.label.kind.handler? = some h → h ∈ handlers) {c : String}
    (class_eq : b.label.kind.objectClass? = some c) : LoadedBy handlers c := by
  rintro ⟨h, k, rfl, handler⟩
  obtain ⟨same, some⟩ := Kind.className_eq_of_objectClass? b.label.kind (Kind.mem_all _) k k.mem_all
    described page (by rw [handler]; rfl) class_eq
  obtain ⟨h', handler'⟩ := Option.isSome_iff_exists.1 some
  exact ⟨h', own h' handler', b.label.kind, same, handler'⟩

/-- The controls and the menu of a node are loaded by the handlers that it adds. -/
theorem loadedBy_added_iff {b : Design} (described : b.label.kind.isDescribed = true)
    (page : b.label.kind ≠ .bookPage) :
    (∀ c ∈ b.label.controlClasses ++ b.label.menuClasses b.children.isEmpty, LoadedBy handlers c)
      ↔ ∀ h ∈ b.addedHandlers, h ∈ handlers := by
  have checkBox : LoadedBy handlers "wxCheckBox" ↔ "wxCheckBoxXmlHandler" ∈ handlers :=
    loadedBy_className_iff (k := .checkBox) (by decide) rfl
  have radioButton : LoadedBy handlers "wxRadioButton" ↔ "wxRadioButtonXmlHandler" ∈ handlers :=
    loadedBy_className_iff (k := .radioButton) (by decide) rfl
  have button : LoadedBy handlers "wxButton" ↔ "wxButtonXmlHandler" ∈ handlers :=
    loadedBy_className_iff (k := .button) (by decide) rfl
  have menu : LoadedBy handlers "wxMenu" ↔ "wxMenuXmlHandler" ∈ handlers :=
    loadedBy_className_iff (k := .menu) (by decide) rfl
  unfold Element.controlClasses Element.menuClasses addedHandlers
  cases hk : b.label.kind
  case staticCheckboxBoxSizer => simpa using checkBox
  case staticRadioBtnBoxSizer => simpa using radioButton
  case stdDialogButtonSizer =>
    by_cases none : b.label.buttons = []
    · simp [none]
    · simpa [none] using button
  case toolDropdown =>
    by_cases leafless : b.children.isEmpty = true
    · simp [leafless]
    · simpa [leafless] using menu
  case bookPage => exact absurd hk page
  case timer | contextMenuEvent | popupTransientWindow =>
    rw [hk] at described
    cases described
  all_goals simp

/-- Where the handler of its kind is among those given, what is written for a node is loaded if the
handlers that it adds are among them. -/
theorem loadedBy_classes_iff {comments : Bool} {b : Design}
    (isWritten : b.label.isWritten comments = true)
    (own : ∀ h, b.label.kind.handler? = some h → h ∈ handlers) :
    (∀ c, some c ∈ b.classes comments → LoadedBy handlers c)
      ↔ ∀ h ∈ b.addedHandlers, h ∈ handlers := by
  cases described : b.label.kind.isDescribed with
  | false =>
    have classes : b.classes comments = [some "wxBoxSizer"] := by
      rw [Branch.classes, Element.classes, if_neg (by simp [described]), if_pos isWritten]
    have added : b.addedHandlers = ["wxSizerXmlHandler"] := by
      unfold Element.isWritten at isWritten
      unfold addedHandlers
      cases hk : b.label.kind <;> simp_all [Kind.isDescribed]
    simpa [classes, added] using loadedBy_boxSizer
  | true =>
    have classes : b.classes comments = b.label.kind.objectClass? ::
        (b.label.controlClasses ++ b.label.menuClasses b.children.isEmpty).map some := by
      rw [Branch.classes, Element.classes, if_pos described]
    by_cases page : b.label.kind = .bookPage
    · have added : b.addedHandlers = ["wxPanelXmlHandler"] := by rw [addedHandlers, page]
      simpa [classes, added, Element.controlClasses, Element.menuClasses, page,
        Kind.objectClass?, Kind.className] using loadedBy_panel
    · rw [← loadedBy_added_iff described page, classes]
      have object := fun c => loadedBy_objectClass described page own (c := c)
      constructor
      · intro loaded c mem
        exact loaded c (List.mem_cons_of_mem _ (List.mem_map_of_mem mem))
      · intro loaded c mem
        rcases List.mem_cons.1 mem with class_eq | mem
        · exact object c class_eq.symm
        · obtain ⟨c', mem, heq⟩ := List.mem_map.1 mem
          exact Option.some.inj heq ▸ loaded c' mem

/-- The handlers of everything that is written for a design besides the objects of its nodes. A bar
is put into a sizer in a panel. -/
def extraHandlers (comments : Bool) (b : Design) : List String :=
  (if b.label.kind.isBarForm then ["wxPanelXmlHandler", "wxSizerXmlHandler"] else [])
    ++ (written comments b).flatMap addedHandlers

end Branch

/-! ## Required handlers -/

section

variable {t : Tree} {id : Nat} {b : Design} (hb : t.design id = .ok b)

include hb

/-- The handlers that a subtree requires are those of the kinds in it. -/
theorem mem_requiredHandlers {h : String} :
    h ∈ requiredHandlers t id ↔ ∃ e ∈ b.toList, e.kind.handler? = some h := by
  have hid : id < t.nodes.size := by
    by_contra beyond
    rw [Tree.design, Tree.branch?, dif_neg beyond] at hb
    cases hb
  rw [Tree.design, Tree.branch?, dif_pos hid] at hb
  obtain rfl := Except.ok.inj hb
  rw [requiredHandlers, (Sorted.ofList_spec _).2, Tree.descendants_eq hid, List.mem_filterMap,
    Branch.toList_map]
  simp only [List.mem_map, exists_exists_and_eq_and]

/-- What is written for a design is loaded by the required handlers if these have the added ones. -/
theorem loadedBy_written_iff (comments : Bool) :
    (∀ w ∈ b.written comments, ∀ c, some c ∈ w.classes comments →
        LoadedBy (requiredHandlers t id) c)
      ↔ ∀ h ∈ (b.written comments).flatMap Branch.addedHandlers, h ∈ requiredHandlers t id := by
  have each (w : Design) (hw : w ∈ b.written comments) :
      (∀ c, some c ∈ w.classes comments → LoadedBy (requiredHandlers t id) c)
        ↔ ∀ h ∈ w.addedHandlers, h ∈ requiredHandlers t id := by
    obtain ⟨mem, isWritten⟩ := Branch.of_mem_written hw
    exact Branch.loadedBy_classes_iff isWritten fun h handler =>
      (mem_requiredHandlers hb).2 ⟨w.label, mem, handler⟩
  simp only [List.mem_flatMap, forall_exists_index, and_imp]
  constructor
  · intro loaded h w hw added
    exact (each w hw).1 (loaded w hw) h added
  · intro added w hw
    exact (each w hw).2 fun h hh => added h w hw hh

end

namespace ResourceDocument

/-- The handlers cover a document exactly if they load every class that was written for the
design. -/
theorem handlersCover_nodes_iff {d : ResourceDocument} (comments : Bool) (above : List Element)
    (b : Design) (objects : d.objects = some (addition comments false above b).objects) :
    HandlersCover handlers d.nodes
      ↔ ∀ w ∈ b.written comments, ∀ c, some c ∈ w.classes comments → LoadedBy handlers c := by
  have wrapper {c : String} (hc : c ∈ wrapperClasses) : LoadedBy handlers c := by
    rintro ⟨h, k, rfl, -⟩
    exact absurd hc k.className_notMem_wrapperClasses
  have has {c : String} (hc : c ∉ wrapperClasses) :
      (∃ x ∈ Xml.elementsAll d.nodes, x.class? = some c)
        ↔ ∃ w ∈ b.written comments, some c ∈ w.classes comments := by
    have ignores : IgnoresWrappers fun _ class? => class? = some c := {
      unclassed := nofun
      wrapper := fun c' hc' same => hc (Option.some.inj same ▸ hc') }
    calc (∃ x ∈ Xml.elementsAll d.nodes, x.class? = some c)
      _ ↔ Xml.Has (fun _ class? => class? = some c) (addition comments false above b).objects := by
        have inside := has_nodes ignores d
        rwa [objects] at inside
      _ ↔ some c ∈ classesOf comments false above b := by
        rw [has_addition ignores nofun]
        simp
      _ ↔ ∃ w ∈ b.written comments, some c ∈ w.classes comments := Branch.mem_classesOf ..
  constructor
  · intro covered w hw c hc
    by_cases wrapped : c ∈ wrapperClasses
    · exact wrapper wrapped
    · obtain ⟨x, hx, class_eq⟩ := (has wrapped).2 ⟨w, hw, hc⟩
      exact covered x hx c class_eq
  · intro loaded x hx c class_eq
    by_cases wrapped : c ∈ wrapperClasses
    · exact wrapper wrapped
    · obtain ⟨w, hw, hc⟩ := (has wrapped).1 ⟨x, hx, class_eq⟩
      exact loaded w hw c hc

/-- A bar stands in a panel and a sizer, which have to be loaded as well. -/
theorem loadedBy_barPanel_iff (comments : Bool) (bar : Design) :
    (∀ w ∈ (barPanel bar).written comments, ∀ c, some c ∈ w.classes comments →
        LoadedBy handlers c)
      ↔ ("wxPanelXmlHandler" ∈ handlers ∧ "wxSizerXmlHandler" ∈ handlers) ∧
        ∀ w ∈ bar.written comments, ∀ c, some c ∈ w.classes comments → LoadedBy handlers c := by
  let held : Design :=
    .mk ((Element.ofKind .verticalBoxSizer).setProp .varName shellSizerName) [bar]
  have written : (barPanel bar).written comments
      = barPanel bar :: held :: bar.written comments := by
    show barPanel bar :: (held :: (bar.written comments ++ []) ++ []) = _
    rw [List.append_nil, List.append_nil]
  have panelClasses : (barPanel bar).classes comments = [some "wxPanel"] := rfl
  have sizerClasses : held.classes comments = [some "wxBoxSizer"] := rfl
  rw [written, List.forall_mem_cons, List.forall_mem_cons, panelClasses, sizerClasses,
    ← loadedBy_panel, ← loadedBy_boxSizer, and_assoc]
  simp

/-- **The required handlers cover the resource of a node exactly if they have the handlers of
everything that is written besides the objects of the nodes.** -/
theorem handlersCover_iff {t : Tree} {id : Nat} {b : Design} (hb : t.design id = .ok b)
    (options : ResourceOptions) (banner : Bool) :
    ∃ placement d, (empty options false banner).add t id = .ok (placement, d) ∧
      (HandlersCover (requiredHandlers t id) d.nodes
        ↔ ∀ h ∈ b.extraHandlers options.addComments, h ∈ requiredHandlers t id) := by
  have written := loadedBy_written_iff hb options.addComments
  refine ⟨_, _, by rw [add, hb], ?_⟩
  unfold Branch.extraHandlers
  dsimp only [empty]
  by_cases bar : b.label.kind.isBarForm = true
  · rw [handlersCover_nodes_iff options.addComments [] (barPanel b) (by rw [if_pos bar]; rfl),
      loadedBy_barPanel_iff, written, if_pos bar]
    simp [or_imp, forall_and, and_assoc]
  · rw [handlersCover_nodes_iff options.addComments _ b (by rw [if_neg bar]; rfl), written,
      if_neg bar]
    rfl

/-! ## A box with a check box in its label -/

/-- A dialog with a check box below a box that has another one in its label. -/
def checkedBoxDialog : Design :=
  .mk (.ofKind .dialog) [.mk (.ofKind .staticCheckboxBoxSizer) [.mk (.ofKind .checkBox) []]]

theorem checkedBoxDialog_handlersCover :
    ∃ placement d,
      (empty .default false false).add (.ofDesign (.mk (.ofKind .project) [checkedBoxDialog])) 1
          = .ok (placement, d) ∧
        HandlersCover
          (requiredHandlers (.ofDesign (.mk (.ofKind .project) [checkedBoxDialog])) 1) d.nodes := by
  have design : (Tree.ofDesign (.mk (.ofKind .project) [checkedBoxDialog])).design 1
      = .ok checkedBoxDialog := by with_unfolding_all rfl
  obtain ⟨placement, d, added, covered⟩ := handlersCover_iff design .default false
  refine ⟨placement, d, added, covered.2 fun h hh => ?_⟩
  obtain rfl : h = "wxCheckBoxXmlHandler" := List.mem_singleton.1 hh
  exact (mem_requiredHandlers design).2 ⟨.ofKind .checkBox, by decide, rfl⟩

/-- The same dialog without the control in the box. -/
def emptyBoxDialog : Design :=
  .mk (.ofKind .dialog) [.mk (.ofKind .staticCheckboxBoxSizer) []]

/-- Nothing requires the handler of the check box in the label. -/
theorem emptyBoxDialog_not_handlersCover :
    ∃ placement d,
      (empty .default false false).add (.ofDesign (.mk (.ofKind .project) [emptyBoxDialog])) 1
          = .ok (placement, d) ∧
        ¬HandlersCover
          (requiredHandlers (.ofDesign (.mk (.ofKind .project) [emptyBoxDialog])) 1) d.nodes := by
  have design : (Tree.ofDesign (.mk (.ofKind .project) [emptyBoxDialog])).design 1
      = .ok emptyBoxDialog := by with_unfolding_all rfl
  refine ⟨_, _, by rw [add, design], fun covered => ?_⟩
  have loaded := (handlersCover_nodes_iff false _ emptyBoxDialog rfl).1 covered
    (.mk (.ofKind .staticCheckboxBoxSizer) []) (List.mem_cons_of_mem _ List.mem_cons_self)
    "wxCheckBox" (by decide)
  have required := (loadedBy_className_iff (k := .checkBox) (by decide) rfl).1 loaded
  obtain ⟨e, he, handler⟩ := (mem_requiredHandlers design).1 required
  revert e
  decide

end ResourceDocument

end FormDesign
