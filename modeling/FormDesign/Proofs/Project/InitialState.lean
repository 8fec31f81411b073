import FormDesign.Proofs.Code.InitialState
import FormDesign.Proofs.Resource.Panes
import FormDesign.Proofs.Resource.Texts

/-!
# Initial states in the resource and in the code

The resource and the code are written from the same properties, and a control should start the same
with either of them. For some kinds of controls they do not read the same properties.

* `Xml.initialState`: the state that the object of a control describes
* `Element.initialState_widgetPart`: which properties it comes from
* `Element.StartsAlike`: how the properties have to agree
* `initialState_eq_iff`: the states are the same exactly if they do
-/

namespace FormDesign

/-! ## States in the resource -/

namespace Xml

/-- The state that the object of a control describes. A text that is no number counts as 0, as in a
property. -/
def initialState (k : Kind) (x : Xml) : InitialState :=
  let checked := textOf? "checked" x.children
  let value := textOf? "value" x.children
  let selection := (textOf? "selection" x.children).map number
  match k with
  | .checkBox | .check3State | .toggleButton => { check := checkState (checked == some "1") }
  | .radioButton => { check := checkState (value == some "1") }
  | .spinCtrl | .slider | .gauge => { number := number (value.getD "") }
  | .comboBox => { text := value.getD "", selection }
  | .choice | .listBox => { selection }
  | _ => {}

end Xml

namespace Element

open Xml (textOf?)

variable (e : Element) {name : String}

/-- Besides what its kind has, nothing in the object of a control tells its state. -/
theorem textOf?_children (h : name ∈ ["checked", "value", "selection"]) (comments : Bool)
    {more : List Xml} (objects : ∀ x ∈ more, x.isObject = true) :
    textOf? name ((e.widgetPart comments).extend more).object.children
      = textOf? name (e.kindTags comments) := by
  have other (tag : String) (hne : tag ∉ ["checked", "value", "selection"]) : tag ≠ name := by
    rintro rfl
    exact hne h
  have placement : textOf? name (e.placementTags e.impliedStyle) = none := by
    have style : textOf? name (if e.style e.impliedStyle = "" then []
        else [.leaf "style" (e.style e.impliedStyle)]) = none := by
      split <;> simp [other]
    simp [placementTags, style, textOf?_pairTag, other]
  have window : textOf? name (e.windowTags comments) = none := by
    have enabled :
        textOf? name (if e.flag .disabled then [.leaf "enabled" "0"] else []) = none := by
      split <;> simp [other]
    have remark : textOf? name (if comments && e.hasValue .validatorVariable then
        [.comment " Validators cannot be set in the XRC file. "] else []) = none := by
      split <;> rfl
    rw [windowTags, Xml.textOf?_append, remark]
    simp [enabled, other]
  have below : textOf? name more = none := by
    refine Xml.textOf?_eq_none fun x hx => ?_
    rw [beq_iff_eq.1 (objects x hx)]
    exact fun heq => other "object" (by decide) (Option.some.inj heq)
  show textOf? name (e.kindTags comments ++ e.placementTags e.impliedStyle ++ e.windowTags comments
    ++ more) = _
  rw [Xml.textOf?_append, Xml.textOf?_append, Xml.textOf?_append, placement, window, below,
    Option.or_none, Option.or_none, Option.or_none]

/-- The state that the properties of a control give it in the resource. -/
def describedState (e : Element) : InitialState :=
  match e.kind with
  | .checkBox | .check3State | .toggleButton | .radioButton =>
    { check := checkState (e.flag .checked) }
  | .spinCtrl => { number := e.int .initial }
  | .slider | .gauge => { number := e.int .position }
  | .comboBox => { text := e.text .value, selection := e.selection? }
  | .choice | .listBox => { selection := e.selection? }
  | _ => {}

theorem textOf?_choiceTags (h : "content" ≠ name) :
    textOf? name e.choiceTags
      = if e.hasValue .selection && 0 ≤ e.int .selection then
          textOf? name (e.textTag .selection "selection")
        else none := by
  have content : textOf? name (if choices (e.text .choices) = [] then [] else
      [.element "content" [] none ((choices (e.text .choices)).map (Xml.leaf "item"))]) = none := by
    split
    · rfl
    · exact Xml.textOf?_eq_none fun x hx => by
        rw [List.mem_singleton.1 hx]
        exact fun heq => h (Option.some.inj heq)
  unfold choiceTags
  dsimp only
  rw [Xml.textOf?_append, content, Option.none_or]
  split <;> rfl

theorem textOf?_value_choiceTags : textOf? "value" e.choiceTags = none := by
  rw [textOf?_choiceTags _ (by decide)]
  simp

theorem textOf?_selection_choiceTags :
    (textOf? "selection" e.choiceTags).map number = e.selection? := by
  rw [textOf?_choiceTags _ (by decide), selection?]
  split
  · next h =>
    rw [textOf?_textTag, if_pos ⟨rfl, (Bool.and_eq_true_iff.1 h).1⟩]
    rfl
  · rfl

/-- The state that the object of a control describes is the one from its properties. -/
theorem initialState_widgetPart (comments : Bool) {more : List Xml}
    (objects : ∀ x ∈ more, x.isObject = true) :
    ((e.widgetPart comments).extend more).object.initialState e.kind = e.describedState := by
  unfold Xml.initialState
  rw [e.textOf?_children (by simp) comments objects, e.textOf?_children (by simp) comments objects,
    e.textOf?_children (by simp) comments objects]
  unfold describedState kindTags
  dsimp only
  have label (name : String) (hne : "label" ≠ name) (xs : List Xml) :
      textOf? name (e.textTag .label "label" ++ xs) = textOf? name xs := by
    simp [hne]
  cases hk : e.kind
  case checkBox | check3State | radioButton =>
    dsimp only
    rw [label _ (by decide), beq_flagTag]
  case toggleButton =>
    dsimp only
    rw [List.append_assoc, label _ (by decide), Xml.textOf?_append,
      textOf?_bitmapTag _ (by decide), Option.or_none, beq_flagTag]
  case spinCtrl | slider =>
    have bounds : textOf? "value" (e.textTag .min "min" ++ e.textTag .max "max") = none := by simp
    dsimp only
    rw [List.append_assoc, Xml.textOf?_append, bounds, Option.or_none, getD_textTag]
    rfl
  case gauge =>
    have range : textOf? "value" (e.textTag .max "range") = none := by simp
    dsimp only
    rw [Xml.textOf?_append, range, Option.none_or, getD_textTag]
    rfl
  case choice | listBox =>
    dsimp only
    rw [textOf?_selection_choiceTags]
  case comboBox =>
    have none : textOf? "selection" (e.textTag .value "value") = none := by simp
    dsimp only
    rw [Xml.textOf?_append, Xml.textOf?_append, textOf?_value_choiceTags, none, Option.or_none,
      Option.none_or, getD_textTag, textOf?_selection_choiceTags]
  all_goals rfl

/-- The properties of a control agree on its state where the resource and the code read different
ones:
* the resource tells a box with three states whether it is checked, the code gives it the state,
* the resource tells a spin control the initial value, the code gives it a text besides,
* the resource tells sliders and gauges the position, the code gives them the value, and leaves a
  gauge at 0 whose value is not positive. -/
def StartsAlike (e : Element) : Prop :=
  match e.kind with
  | .check3State =>
    checkState (e.flag .checked)
      = if e.text .initialState = "" then checkState false else e.text .initialState
  | .spinCtrl => e.text .value = "" ∨ number? (e.text .value) = some (e.int .initial)
  | .slider => e.int .position = e.int .value
  | .gauge => e.int .position = max 0 (e.int .value)
  | _ => True

instance (e : Element) : Decidable e.StartsAlike := by
  unfold StartsAlike
  split <;> infer_instance

theorem number_eq_ofSpin_iff (initial : Int) (value : String) :
    { number := initial } = InitialState.ofSpin value initial
      ↔ value = "" ∨ number? value = some initial := by
  unfold InitialState.ofSpin
  by_cases empty : value = ""
  · rw [if_pos empty]
    exact iff_of_true rfl (Or.inl empty)
  · rw [if_neg empty, or_iff_right empty]
    cases number? value with
    | none =>
      refine iff_of_false (fun h => empty ?_) nofun
      exact (congrArg InitialState.text h).symm
    | some n => simp [eq_comm]

/-- The properties that are read agree exactly if the states from them do. -/
theorem describedState_eq_iff (e : Element) : e.describedState = e.givenState ↔ e.StartsAlike := by
  unfold describedState givenState StartsAlike
  cases e.kind
  case check3State | slider | gauge => simp
  case spinCtrl => exact number_eq_ofSpin_iff ..
  all_goals exact iff_of_true rfl trivial

end Element

/-! ## Controls in both -/

/-- A control is written as such, in an item of a sizer or not. -/
theorem Element.resourceShape_of_hasInitialState {e : Element}
    (h : e.kind.hasInitialState = true) (comments : Bool) (above : List Element) :
    ∃ inSizer, e.resourceShape comments above = e.placed inSizer (e.widgetPart comments) := by
  refine ⟨above.head?.any fun parent => parent.kind.isSizer, ?_⟩
  unfold resourceShape shape
  cases hk : e.kind
  case checkBox | check3State | radioButton | toggleButton | spinCtrl | slider | gauge | choice
      | comboBox | listBox => rfl
  all_goals
    rw [hk] at h
    cases h

/-- Everything in the object of a control besides its own is an object. -/
theorem Branch.Place.isObject_contents {q : Branch.Place Node}
    (h : q.label.kind.hasInitialState = true) (comments : Bool) (trail : Trail) (depth : Nat) :
    ∀ x ∈ (q.contents comments trail depth).map Marked.erase, x.isObject = true := by
  have contents : q.contents comments trail depth
      = (Marked.settle q.label.toElement (q.held comments trail depth)).1.map
        MarkedSprout.xml := by
    have other (k : Kind) (hk : k.hasInitialState = false) : q.label.toElement.kind ≠ k := by
      rintro rfl
      cases h.symm.trans hk
    rw [Branch.Place.contents, Marked.container, if_neg (other _ rfl), if_neg (other _ rfl)]
  rw [contents, List.map_map]
  intro x hx
  obtain ⟨s, hs, rfl⟩ := List.mem_map.1 hx
  have held := List.mem_map_of_mem (f := MarkedSprout.erase)
    ((Marked.settle_fst_sublist ..).subset hs)
  rw [Branch.Place.held, erase_markAll] at held
  have object := isObject_growAll _ held
  rwa [MarkedSprout.xml_erase] at object

/-- **A control starts the same with the resource and with the code exactly if its properties
agree.** The element `x` was written for the control, and the method of the trace `xs` creates the
control in the variable `v`. -/
theorem initialState_eq_iff {n : Node} (starts : n.kind.hasInitialState = true)
    {doc : ResourceDocument} {t : Tree} {id : Nat} {x : Marked}
    (hx : x ∈ Marked.elementsAll (doc.marked t id)) (hmark : x.mark? = some ⟨.object, n⟩)
    {f : Form} {d : Dialect} {c : Collected} {xs : List Traced} (hxs : xs ∈ f.traces d c) {v : Var}
    (hv : v ∈ createdBy (Traced.stmtsFor n xs)) :
    x.erase.initialState n.kind = (Traced.stmtsFor n xs).foldl (InitialState.after n.kind v) {}
      ↔ n.StartsAlike := by
  have given : (Traced.stmtsFor n xs).foldl (InitialState.after n.kind v) {} = n.givenState := by
    rw [Form.settles_of_mem_traces starts v hxs, if_pos hv]
  have described : x.erase.initialState n.kind = n.describedState := by
    have written : n.kind.isDescribed = true := by
      revert starts
      cases n.kind <;> decide
    obtain ⟨q, -, rfl, part, trail, depth, shape, -, object⟩ :=
      ResourceDocument.exists_own_place hx hmark written
    obtain ⟨inSizer, control⟩ := Element.resourceShape_of_hasInitialState starts
      doc.options.addComments (q.above.map Node.toElement)
    have widget : part = q.label.widgetPart doc.options.addComments := by
      rw [Branch.Place.shape, control] at shape
      cases inSizer with
      | false =>
        rcases shape with plain | ⟨outer, wrapped⟩
        · exact (Shape.plain.inj plain).symm
        · cases wrapped
      | true =>
        rcases shape with plain | ⟨outer, wrapped⟩
        · cases plain
        · exact (Shape.wrapped.inj wrapped).2.symm
    rw [object, Marked.erase_object, widget]
    exact q.label.initialState_widgetPart _ (q.isObject_contents starts _ trail depth)
  rw [given, described, Element.describedState_eq_iff]

/-! ## A slider with a position -/

/-- A slider in a dialog, at position 30 and with other properties. -/
def sliderNode (more : List (Property × String)) : Node where
  kind := .slider
  props := (.position, "30") :: more
  events := []
  id := 1
  parent := some 0
  children := []

/-- The tree of the dialog. -/
def sliderTree (more : List (Property × String)) : Tree :=
  .ofDesign (.mk (.ofKind .dialog) [.mk (sliderNode more).toElement []])

/-- The dialog as a form. -/
def sliderForm (more : List (Property × String)) : Form where
  node := { Element.ofKind .dialog with id := 0, parent := none, children := [1] }
  children := [.mk { node := sliderNode more, name := "slider" } []]
  above := []

/-- The constructor of the dialog. -/
def sliderTrace (more : List (Property × String)) : List Traced :=
  (sliderForm more).traceConstructor .cpp ((sliderForm more).collected .cpp .empty .empty)

/-- The dialog in a resource. -/
def sliderMarked (more : List (Property × String)) : List Marked :=
  (ResourceDocument.empty .default false false).marked (sliderTree more) 0

/-- A slider whose value is its position starts the same. -/
theorem initialState_sliderNode :
    Form.ofTree (sliderTree [(.value, "30")]) 0 = .ok (sliderForm [(.value, "30")]) ∧
      ∃ x ∈ Marked.elementsAll (sliderMarked [(.value, "30")]),
        x.mark? = some ⟨.object, sliderNode [(.value, "30")]⟩ ∧
          x.erase.initialState .slider
            = (Traced.stmtsFor (sliderNode [(.value, "30")]) (sliderTrace [(.value, "30")])).foldl
                (InitialState.after .slider (.member "slider")) {} := by
  have written : (Marked.elementsAll (sliderMarked [(.value, "30")])).any
      (fun x => x.mark? == some ⟨.object, sliderNode [(.value, "30")]⟩) = true := by
    decide +kernel
  obtain ⟨x, hx, hmark⟩ := List.any_eq_true.1 written
  have hmark := beq_iff_eq.1 hmark
  have created : Var.member "slider" ∈ createdBy
      (Traced.stmtsFor (sliderNode [(.value, "30")]) (sliderTrace [(.value, "30")])) := by
    decide +kernel
  refine ⟨by with_unfolding_all rfl, x, hx, hmark, ?_⟩
  exact (initialState_eq_iff rfl hx hmark List.mem_cons_self created).2 (by decide)

/-- Without a value the slider starts at 30 with the resource, and at 0 with the code. -/
theorem sliderNode_not_initialState :
    Form.ofTree (sliderTree []) 0 = .ok (sliderForm []) ∧
      ∃ x ∈ Marked.elementsAll (sliderMarked []),
        x.mark? = some ⟨.object, sliderNode []⟩ ∧
          Var.member "slider" ∈ createdBy (Traced.stmtsFor (sliderNode []) (sliderTrace [])) ∧
          x.erase.initialState .slider
            ≠ (Traced.stmtsFor (sliderNode []) (sliderTrace [])).foldl
                (InitialState.after .slider (.member "slider")) {} := by
  have written : (Marked.elementsAll (sliderMarked [])).any (fun x =>
      x.mark? == some ⟨.object, sliderNode []⟩ && x.erase.initialState .slider == { number := 30 })
        = true := by
    decide +kernel
  obtain ⟨x, hx, h⟩ := List.any_eq_true.1 written
  obtain ⟨hmark, state⟩ := Bool.and_eq_true_iff.1 h
  have given : (Traced.stmtsFor (sliderNode []) (sliderTrace [])).foldl
      (InitialState.after .slider (.member "slider")) {} = { number := 0 } := by
    decide +kernel
  refine ⟨by with_unfolding_all rfl, x, hx, beq_iff_eq.1 hmark, by decide +kernel, ?_⟩
  rw [beq_iff_eq.1 state, given]
  decide

end FormDesign
