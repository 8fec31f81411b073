import FormDesign.Proofs.Code.SizerLayout
import FormDesign.Proofs.Resource.Panes
import FormDesign.Proofs.Resource.Texts
import FormDesign.Proofs.Value

/-!
# Layouts of sizers in the resource and in the code

An object in a sizer has a proportion, flags and a border. The resource tells them in the item of
the sizer, the code in the call that adds the object. They join the flags in another order, which
makes no difference, but they do not agree on the border of a node that has no property for it.

* `Xml.sizerLayout`: the layout that an item of a sizer describes
* `Element.sizerLayout_sizerItem`: which properties it comes from
* `sizerLayout_eq_iff`: the layouts are the same exactly if there is a property for the border
-/

namespace FormDesign

/-! ## Layouts in the resource -/

/-- The layout that an item of a sizer describes. A proportion, a flag or a border that is not there
counts as 0 or none, and so does a text that is no number, as in a property. -/
def Xml.sizerLayout (x : Xml) : SizerLayout where
  proportion := number ((textOf? "option" x.children).getD "")
  flags := SizerLayout.flagSet ((textOf? "flag" x.children).getD "")
  border := number ((textOf? "border" x.children).getD "")

theorem SizerLayout.flagSet_joinFlags (texts : List String) :
    flagSet (joinFlags texts) = (texts.flatMap (Text.fields '|')).toFinset := by
  rw [flagSet, fields_joinFlags]

namespace Element

open Xml (textOf?)

variable (e : Element)

/-- The layout that the properties of a node give it in the resource. -/
def describedLayout : SizerLayout where
  proportion := e.int .proportion
  flags := SizerLayout.flagSet (joinFlags [e.text .borders, e.text .flags, e.text .alignment])
  border := e.int .borderSize

theorem getD_flag_sizerItemTags :
    (textOf? "flag" e.sizerItemTags).getD ""
      = joinFlags [e.text .borders, e.text .flags, e.text .alignment] := by
  by_cases h : joinFlags [e.text .borders, e.text .flags, e.text .alignment] = "" <;>
    simp [sizerItemTags, h]

theorem getD_border_sizerItemTags :
    (textOf? "border" e.sizerItemTags).getD "" = e.text .borderSize := by
  rw [← e.getD_textTag .borderSize "border"]
  simp [sizerItemTags]

theorem number_option_sizerItemTags :
    number ((textOf? "option" e.sizerItemTags).getD "") = e.int .proportion := by
  have tags : textOf? "option" e.sizerItemTags
      = if e.int .proportion ≠ 0 then some (toString (e.int .proportion)) else none := by
    simp [sizerItemTags]
  rw [tags]
  by_cases h : e.int .proportion = 0
  · -- nothing is written for 0, and what is not there counts as 0
    rw [if_neg (not_not.2 h), h]
    rfl
  · rw [if_pos h, Option.getD_some]
    exact number_toString_number _

/-- The layout that the item of a sizer describes is the one from the properties of the node. -/
theorem sizerLayout_sizerItem {more : List Xml} (objects : ∀ x ∈ more, x.isObject = true) :
    (e.sizerItem.extend more).object.sizerLayout = e.describedLayout := by
  have tags {name : String} (h : name ≠ "object") :
      textOf? name (e.sizerItem.extend more).object.children = textOf? name e.sizerItemTags := by
    have other : textOf? name more = none := by
      refine Xml.textOf?_eq_none fun x hx => ?_
      rw [beq_iff_eq.1 (objects x hx)]
      exact fun heq => h (Option.some.inj heq).symm
    show textOf? name (e.sizerItemTags ++ more) = _
    rw [Xml.textOf?_append, other, Option.or_none]
  rw [Xml.sizerLayout, tags (by decide), tags (by decide), tags (by decide),
    number_option_sizerItemTags, getD_flag_sizerItemTags, getD_border_sizerItemTags]
  rfl

/-- The flags are the same, in whichever order they are joined. -/
theorem flags_describedLayout : e.describedLayout.flags = e.givenLayout.flags := by
  show SizerLayout.flagSet _ = SizerLayout.flagSet _
  rw [sizerFlags, SizerLayout.flagSet_joinFlags, SizerLayout.flagSet_joinFlags]
  refine List.toFinset_eq_of_perm _ _ (List.Perm.flatMap_right _ ?_)
  exact @List.perm_append_comm _ [e.text .borders, e.text .flags] [e.text .alignment]

/-- Without a property for the border the code gives 5, the resource nothing. -/
theorem int_borderSize_eq_iff :
    e.int .borderSize = e.borderSize ↔ e.hasProp .borderSize = true := by
  unfold borderSize
  by_cases h : e.hasProp .borderSize = true
  · rw [if_pos h]
    exact iff_of_true rfl h
  · have none : e.prop? .borderSize = none := by simpa [hasProp] using h
    have zero : e.int .borderSize = 0 := by
      rw [int, text, none]
      rfl
    rw [if_neg h, zero]
    exact iff_of_false (by decide) h

/-- The layouts are the same exactly if the node has a property for the border. -/
theorem describedLayout_eq_iff :
    e.describedLayout = e.givenLayout ↔ e.hasProp .borderSize = true := by
  have proportion : e.describedLayout.proportion = e.givenLayout.proportion := by
    simp only [describedLayout, givenLayout]
  have border : e.describedLayout.border = e.givenLayout.border ↔
      e.int .borderSize = e.borderSize := by
    simp only [describedLayout, givenLayout]
  rw [SizerLayout.ext_iff, and_iff_right proportion, and_iff_right e.flags_describedLayout, border,
    int_borderSize_eq_iff]

end Element

/-! ## Objects in both -/

/-- An object that is laid out stands in the item of its sizer, if anything stands around it. -/
theorem Branch.Place.outer_eq_sizerItem {q : Branch.Place Node}
    (laidOut : q.label.kind.isLaidOut = true) {comments : Bool} {outer inner : Part}
    (hs : q.shape comments = .wrapped outer inner) : outer = q.label.sizerItem := by
  have shaped := q.shaped comments
  rw [hs] at shaped
  generalize hw : Shape.wrapped outer inner = shape at shaped
  cases shaped with
  | absent | remark => cases hw
  | own _ _ inSizer own =>
    cases inSizer with
    | true => exact (Shape.wrapped.inj hw).1
    | false => cases hw
  | page page =>
    rw [page] at laidOut
    cases laidOut

namespace ResourceDocument

/-- What is written around an object that is laid out is an item of a sizer. -/
theorem item_eq {n : Node} (laidOut : n.kind.isLaidOut = true) {d : ResourceDocument} {t : Tree}
    {id : Nat} {x : Marked} (hx : x ∈ Marked.elementsAll (d.marked t id))
    (hmark : x.mark? = some ⟨.around, n⟩) :
    ∃ object : Part, x.erase = (n.sizerItem.extend [object.object]).object := by
  obtain ⟨q, -, written⟩ := exists_writtenAt (by rw [hmark]; exact nofun) hx
  obtain ⟨role, hrole⟩ := written.exists_mark
  obtain rfl : q.label = n := congrArg Mark.node (Option.some.inj (hrole.symm.trans hmark))
  cases written with
  | plain | remark | inner => cases hmark
  | @outer outer inner hs trail depth tags htags =>
    have untagged : tags = [] := htags.resolve_right fun page => by
      rw [page] at laidOut
      cases laidOut
    rw [untagged, Marked.prepend_nil, Marked.erase_object, List.map_singleton, Marked.erase_object,
      Branch.Place.outer_eq_sizerItem laidOut hs]
    exact ⟨_, rfl⟩

end ResourceDocument

/-- **The resource and the code lay out an object in a sizer the same way exactly if the object has
a property for its border.** The element `x` was written around the object, and the method of the
trace `xs` comes to the object in its sizer. -/
theorem sizerLayout_eq_iff {n : Node} (laidOut : n.kind.isLaidOut = true)
    {doc : ResourceDocument} {t : Tree} {id : Nat} {x : Marked}
    (hx : x ∈ Marked.elementsAll (doc.marked t id)) (hmark : x.mark? = some ⟨.around, n⟩)
    {form : Nat} {f : Form} (hf : Form.ofTree t form = .ok f) {d : Dialect} {c : Collected}
    {xs : List Traced} (hxs : xs ∈ f.traces d c)
    (visit : xs.any (Traced.isForInSizer n) = true) (supported : d.supports n.kind = true) :
    x.class? = some "sizeritem" ∧
      ∃ given, (∀ g, g ∈ Traced.layoutsFor n xs ↔ g = given) ∧
        (x.erase.sizerLayout = given ↔ n.hasProp .borderSize = true) := by
  obtain ⟨object, hitem⟩ := ResourceDocument.item_eq laidOut hx hmark
  refine ⟨?_, n.givenLayout, fun g => ?_, ?_⟩
  · rw [Marked.class?, hitem]
    rfl
  · exact Form.mem_layoutsFor laidOut (Form.isForm_of_ofTree hf) hxs visit supported
  · have objects : ∀ y ∈ [object.object], y.isObject = true := by
      intro y hy
      rw [List.mem_singleton.1 hy]
      rfl
    rw [hitem, n.sizerLayout_sizerItem objects, Element.describedLayout_eq_iff]

/-! ## A button with a border -/

/-- A button in the sizer of a dialog, with a proportion, flags and other properties. -/
def sizerButton (more : List (Property × String)) : Node where
  kind := .button
  props := (.proportion, " 2 ") :: (.flags, "wxEXPAND") :: (.borders, "wxLEFT|wxTOP") :: more
  events := []
  id := 2
  parent := some 1
  children := []

/-- The tree of the dialog. -/
def sizerTree (more : List (Property × String)) : Tree :=
  .ofDesign (.mk (.ofKind .dialog)
    [.mk (.ofKind .verticalBoxSizer) [.mk (sizerButton more).toElement []]])

/-- The dialog as a form. -/
def sizerForm (more : List (Property × String)) : Form where
  node := { Element.ofKind .dialog with id := 0, parent := none, children := [1] }
  children :=
    [.mk
      { node := { Element.ofKind .verticalBoxSizer with id := 1, parent := some 0, children := [2] }
        name := "box_sizer" }
      [.mk { node := sizerButton more, name := "button" } []]]
  above := []

/-- The constructor of the dialog. -/
def sizerTrace (more : List (Property × String)) : List Traced :=
  (sizerForm more).traceConstructor .cpp ((sizerForm more).collected .cpp .empty .empty)

/-- The dialog in a resource. -/
def sizerMarked (more : List (Property × String)) : List Marked :=
  (ResourceDocument.empty .default false false).marked (sizerTree more) 0

/-- A button with a border that is no number is laid out the same way, without a border. -/
theorem sizerLayout_sizerButton :
    Form.ofTree (sizerTree [(.borderSize, "wide")]) 0 = .ok (sizerForm [(.borderSize, "wide")]) ∧
      ∃ x ∈ Marked.elementsAll (sizerMarked [(.borderSize, "wide")]),
        x.mark? = some ⟨.around, sizerButton [(.borderSize, "wide")]⟩ ∧
          ∀ g, g ∈ Traced.layoutsFor (sizerButton [(.borderSize, "wide")])
              (sizerTrace [(.borderSize, "wide")]) ↔ g = x.erase.sizerLayout := by
  have written : (Marked.elementsAll (sizerMarked [(.borderSize, "wide")])).any
      (fun x => x.mark? == some ⟨.around, sizerButton [(.borderSize, "wide")]⟩) = true := by
    decide +kernel
  obtain ⟨x, hx, hmark⟩ := List.any_eq_true.1 written
  have hmark := beq_iff_eq.1 hmark
  have form : Form.ofTree (sizerTree [(.borderSize, "wide")]) 0
      = .ok (sizerForm [(.borderSize, "wide")]) := by
    with_unfolding_all rfl
  have visit : (sizerTrace [(.borderSize, "wide")]).any
      (Traced.isForInSizer (sizerButton [(.borderSize, "wide")])) = true := by
    decide +kernel
  obtain ⟨-, given, told, same⟩ :=
    sizerLayout_eq_iff rfl hx hmark form List.mem_cons_self visit rfl
  refine ⟨form, x, hx, hmark, fun g => ?_⟩
  rw [same.2 (by decide)]
  exact told g

/-- Without a property for it, the button has a border of 5 in the code, and none in the
resource. -/
theorem sizerButton_not_sizerLayout :
    Form.ofTree (sizerTree []) 0 = .ok (sizerForm []) ∧
      ∃ x ∈ Marked.elementsAll (sizerMarked []),
        x.mark? = some ⟨.around, sizerButton []⟩ ∧ x.erase.sizerLayout.border = 0 ∧
          ∃ g ∈ Traced.layoutsFor (sizerButton []) (sizerTrace []),
            g.border = 5 ∧ x.erase.sizerLayout ≠ g := by
  have written : (Marked.elementsAll (sizerMarked [])).any (fun x =>
      x.mark? == some ⟨.around, sizerButton []⟩ && x.erase.sizerLayout.border == 0) = true := by
    decide +kernel
  obtain ⟨x, hx, h⟩ := List.any_eq_true.1 written
  obtain ⟨hmark, border⟩ := Bool.and_eq_true_iff.1 h
  have border := beq_iff_eq.1 border
  have told : (Traced.layoutsFor (sizerButton []) (sizerTrace [])).any (fun g => g.border == 5)
      = true := by
    decide +kernel
  obtain ⟨g, hg, five⟩ := List.any_eq_true.1 told
  have five := beq_iff_eq.1 five
  refine ⟨by with_unfolding_all rfl, x, hx, beq_iff_eq.1 hmark, border, g, hg, five, ?_⟩
  intro same
  rw [same, five] at border
  cases border

end FormDesign
