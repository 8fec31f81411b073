import FormDesign.Proofs.Resource.Classes

/-!
# Previews

A preview puts a panel into the shell of a dialog, and the object of a dialog's first child into the
shell of a panel. The first child is not treated as it would be in the dialog: a folder is not
dissolved, and a node that the resource cannot describe leaves an object without a class.

* `Xml.HasClassless`: an object without a class, which nothing can load
* `straysAll`: where the children of a node leave such an object in any document
* `hasClassless_growAll`: what siblings grow into has one exactly where something strays
* `isBlankAll`: where nothing is written for the children of a dialog
* `ResourceDocument.previewShows_iff`: when a preview shows what the form is
-/

namespace FormDesign

/-! ## Objects without a class -/

namespace Xml

/-- Some element among the nodes is an object without a class. -/
def HasClassless (xs : List Xml) : Prop :=
  ∃ x ∈ elementsAll xs, x.isObject = true ∧ x.class? = none

theorem not_hasClassless_iff {xs : List Xml} :
    ¬HasClassless xs ↔ ∀ x ∈ elementsAll xs, x.isObject = true → x.class? ≠ none := by
  simp only [HasClassless, not_exists, not_and, ne_eq]

theorem hasClassless_append (xs ys : List Xml) :
    HasClassless (xs ++ ys) ↔ HasClassless xs ∨ HasClassless ys :=
  has_append (R := fun object c => object = true ∧ c = none) xs ys

theorem hasClassless_object (p : Part) :
    HasClassless [p.object] ↔ p.attributes.lookup "class" = none ∨ HasClassless p.contents := by
  have object := has_object (R := fun object c => object = true ∧ c = none) p
  rwa [and_iff_right rfl] at object

/-- The details of a node have a class if they are objects. -/
theorem not_hasClassless {xs : List Xml} (h : Detailed xs) : ¬HasClassless xs := by
  rintro ⟨x, hx, object, none⟩
  rcases h x hx with ⟨other, -⟩ | ⟨c, -, class_eq⟩
  · cases other.symm.trans object
  · cases class_eq.symm.trans none

theorem hasClassless_extend {p : Part} {className : String}
    (classed : p.attributes.lookup "class" = some className) (own : Detailed p.contents)
    (more : List Xml) : HasClassless [(p.extend more).object] ↔ HasClassless more := by
  have classed : p.attributes.lookup "class" ≠ none := by
    rw [classed]
    exact Option.some_ne_none _
  rw [hasClassless_object, Part.extend, hasClassless_append, or_iff_right classed,
    or_iff_right (not_hasClassless own)]

end Xml

open Xml (HasClassless)

theorem Kind.objectClass?_eq_none {k : Kind} (described : k.isDescribed = true) :
    k.objectClass? = none ↔ k.isGrouping = true := by
  revert described
  cases k <;> decide

/-- The class of plain sizers. -/
theorem Kind.of_objectClass?_sizer {k : Kind} :
    k.objectClass? = some "wxBoxSizer" → k.isDescribed = true →
      k = .boxSizer ∨ k = .verticalBoxSizer := by
  cases k <;> decide

theorem Part.object_injective : Function.Injective Part.object := by
  rintro ⟨attributes, contents⟩ ⟨attributes', contents'⟩ h
  obtain ⟨-, rfl, -, rfl⟩ := Xml.element.inj h
  rfl

namespace Element

/-- Only project and folders have an object without a class. -/
theorem IsOwn.hasClassless_extend {e : Element} {p : Part} (own : e.IsOwn p)
    (described : e.kind.isDescribed = true) (more : List Xml) :
    HasClassless [(p.extend more).object] ↔ e.kind.isGrouping = true ∨ HasClassless more := by
  rw [Xml.hasClassless_object, Part.extend, Xml.hasClassless_append,
    or_iff_right (Xml.not_hasClassless own.details)]
  show p.attributes.lookup "class" = none ∨ _ ↔ _
  rw [own.class_eq, Kind.objectClass?_eq_none described]

end Element

/-! ## Strays -/

mutual

/-- Whether an object without a class is written for a child or below it. Project and folders have
no class. A folder leaves no trace where it is dissolved, and nothing is written below a node that
the resource cannot describe. -/
def strays (comments flatten : Bool) (above : List Element) : Design → Bool
  | .mk e cs =>
    if flatten && e.kind = .folder then straysAll comments true (e :: above) cs
    else
      e.kind.isDescribed && (e.kind.isGrouping
        || straysAll comments (Element.flattensFolders (e.resourceShape comments above) e)
          (e :: above) cs)

/-- Whether an object without a class is written for some of the children. -/
def straysAll (comments flatten : Bool) (above : List Element) : List Design → Bool
  | [] => false
  | b :: bs => strays comments flatten above b || straysAll comments flatten above bs

end

/-- Of what is written for a node, only the object of a project or folder has no class. -/
theorem Element.none_mem_classes {comments leafless : Bool} {e : Element} :
    none ∈ e.classes comments leafless
      ↔ e.kind.isDescribed = true ∧ e.kind.isGrouping = true := by
  unfold classes
  cases described : e.kind.isDescribed with
  | true =>
    rw [if_pos rfl, and_iff_right rfl, ← Kind.objectClass?_eq_none described]
    simp [eq_comm]
  | false =>
    cases e.isWritten comments <;> simp

mutual

theorem none_mem_classesOf (comments flatten : Bool) (above : List Element) (b : Design) :
    none ∈ classesOf comments flatten above b ↔ strays comments flatten above b = true := by
  cases b with
  | mk e cs =>
    have below := fun flatten => none_mem_classesOfAll comments flatten (e :: above) cs
    rw [classesOf, strays]
    split
    · exact below true
    · rw [List.mem_append, Element.none_mem_classes]
      cases e.kind.isDescribed <;> simp [below]

/-- An object without a class is written exactly where something strays. -/
theorem none_mem_classesOfAll (comments flatten : Bool) (above : List Element)
    (bs : List Design) :
    none ∈ classesOfAll comments flatten above bs
      ↔ straysAll comments flatten above bs = true := by
  cases bs with
  | nil => simp [classesOfAll, straysAll]
  | cons b bs =>
    rw [classesOfAll, straysAll, List.mem_append, none_mem_classesOf comments flatten above b,
      none_mem_classesOfAll comments flatten above bs, Bool.or_eq_true]

end

/-- What stands around the objects of nodes has a class if it is an object. -/
theorem ignoresWrappers_classless : IgnoresWrappers fun object c => object = true ∧ c = none where
  unclassed := nofun
  wrapper _ _ := nofun

/-- What siblings grow into has an object without a class exactly where something strays. -/
theorem hasClassless_growAll (comments : Bool) (parent : Element) (flatten : Bool)
    (above : List Element) (trail : Trail) (bs : List Design) :
    HasClassless ((growAll comments parent flatten above trail bs).sprouts.map Sprout.xml)
      ↔ straysAll comments flatten above bs = true := by
  have grown := has_growAll ignoresWrappers_classless comments parent flatten above trail bs
  simp only [true_and, exists_eq_right] at grown
  rw [← none_mem_classesOfAll]
  exact grown

/-! ## The children of a dialog -/

mutual

/-- Whether nothing is written for a child of a dialog. A folder is dissolved there. -/
def isBlank (comments : Bool) : Design → Bool
  | .mk e cs => if e.kind = .folder then isBlankAll comments cs else !e.isWritten comments

/-- Whether nothing is written for any of the children. -/
def isBlankAll (comments : Bool) : List Design → Bool
  | [] => true
  | b :: bs => isBlank comments b && isBlankAll comments bs

end

/-- A child that is no folder grows as it would by itself. -/
theorem growChild_eq_grow {comments : Bool} {parent : Element} (hp : parent.kind ≠ .bookPage)
    {flatten : Bool} (above : List Element) {b : Design} (hb : b.label.kind ≠ .folder) :
    growChild comments parent flatten above .none b = (grow comments above b).asChild := by
  cases b with
  | mk e cs =>
    have hb : e.kind ≠ .folder := hb
    rw [growChild]
    dsimp only
    rw [if_neg (by simp [hb]), if_neg (by simp [hp])]
    rfl

theorem sprouts_asChild_grow (comments : Bool) (above : List Element) (b : Design) :
    (grow comments above b).asChild.sprouts
      = if b.label.isWritten comments then [.here (grow comments above b).object.object]
        else [] := by
  have placement : (grow comments above b).placement = .notSupported ↔ _ := Growth.placement_around
  cases hw : b.label.isWritten comments with
  | false => rw [Growth.asChild, if_pos (placement.2 hw), if_neg Bool.false_ne_true]
  | true =>
    have supported : (grow comments above b).placement ≠ .notSupported := fun h => by
      cases hw.symm.trans (placement.1 h)
    rw [Growth.asChild, if_neg supported, pages_grow, if_pos rfl]

mutual

theorem sprouts_growChild_eq_nil {comments : Bool} {parent : Element}
    (hp : parent.kind ≠ .bookPage) (above : List Element) (b : Design) :
    (growChild comments parent true above .none b).sprouts = [] ↔ isBlank comments b = true := by
  cases b with
  | mk e cs =>
    rw [isBlank]
    by_cases folder : e.kind = .folder
    · rw [growChild, if_pos folder]
      dsimp only
      rw [if_pos (by simpa using folder)]
      exact sprouts_growAll_eq_nil (by rw [folder]; decide) (e :: above) cs
    · rw [growChild_eq_grow hp above (b := .mk e cs) folder, sprouts_asChild_grow, if_neg folder]
      show (if e.isWritten comments then _ else _) = [] ↔ _
      cases e.isWritten comments with
      | true => exact iff_of_false nofun nofun
      | false => exact iff_of_true rfl rfl

/-- Nothing is left of children that are blank. -/
theorem sprouts_growAll_eq_nil {comments : Bool} {parent : Element} (hp : parent.kind ≠ .bookPage)
    (above : List Element) (bs : List Design) :
    (growAll comments parent true above .none bs).sprouts = [] ↔ isBlankAll comments bs = true := by
  cases bs with
  | nil => exact iff_of_true rfl rfl
  | cons b bs =>
    rw [growAll, isBlankAll, Grove.append, List.append_eq_nil_iff,
      sprouts_growChild_eq_nil hp above b, sprouts_growAll_eq_nil hp above bs, Bool.and_eq_true]

end

mutual

theorem exists_grow_of_mem_growChild {comments : Bool} {parent : Element}
    (hp : parent.kind ≠ .bookPage) {above : List Element} {b : Design} {s : Sprout}
    (hs : s ∈ (growChild comments parent true above .none b).sprouts) :
    ∃ above b, b.label.isWritten comments = true ∧
      s = .here (grow comments above b).object.object := by
  cases b with
  | mk e cs =>
    by_cases folder : e.kind = .folder
    · rw [growChild] at hs
      dsimp only at hs
      rw [if_pos (by simpa using folder)] at hs
      exact exists_grow_of_mem_growAll (by rw [folder]; decide) hs
    · rw [growChild_eq_grow hp above (b := .mk e cs) folder, sprouts_asChild_grow] at hs
      split at hs
      · next written => exact ⟨above, _, written, List.mem_singleton.1 hs⟩
      · cases hs

/-- What is left of the children of a dialog are objects of nodes that are written. -/
theorem exists_grow_of_mem_growAll {comments : Bool} {parent : Element}
    (hp : parent.kind ≠ .bookPage) {above : List Element} {bs : List Design} {s : Sprout}
    (hs : s ∈ (growAll comments parent true above .none bs).sprouts) :
    ∃ above b, b.label.isWritten comments = true ∧
      s = .here (grow comments above b).object.object := by
  cases bs with
  | nil => cases hs
  | cons b bs =>
    rw [growAll, Grove.append] at hs
    rcases List.mem_append.1 hs with hs | hs
    · exact exists_grow_of_mem_growChild hp hs
    · exact exists_grow_of_mem_growAll hp hs

end

/-! ## Nodes that are not written -/

namespace Element

/-- A node that is not written becomes nothing, or a remark that nothing is left of. -/
theorem resourceShape_of_not_written {e : Element} {comments : Bool}
    (h : e.isWritten comments = false) {parent : Element} (hp : parent.kind.isSizer = false)
    (above : List Element) :
    e.resourceShape comments (parent :: above) = .absent ∨
      comments = false ∧ ∃ text, e.resourceShape comments (parent :: above)
        = .remark (e.part "wxBoxSizer" [.comment text]) := by
  have out : ((parent :: above).head?.any fun parent => parent.kind.isSizer) = false := hp
  unfold isWritten at h
  unfold resourceShape shape
  dsimp only
  rw [out]
  cases hk : e.kind
  case images => exact Or.inl rfl
  case timer | contextMenuEvent =>
    cases comments with
    | true => rw [hk] at h; cases h
    | false => exact Or.inl rfl
  case popupTransientWindow =>
    cases comments with
    | true => rw [hk] at h; cases h
    | false => exact Or.inr ⟨rfl, _, rfl⟩
  all_goals
    rw [hk] at h
    cases h

/-- A plain sizer tells its direction first. -/
theorem resourceShape_of_sizer {e : Element} (h : e.kind = .boxSizer ∨ e.kind = .verticalBoxSizer)
    (comments : Bool) (above : List Element) :
    ∃ more, e.resourceShape comments above
      = e.placed (above.head?.any fun parent => parent.kind.isSizer)
          (e.part "wxBoxSizer" (e.orientationTag :: more)) := by
  refine ⟨e.pairTag .minSize "minsize", ?_⟩
  unfold resourceShape shape
  rcases h with hk | hk
  all_goals
    rw [hk]
    rfl

theorem pageClass_ne_sizer (book : Option Kind) : pageClass book ≠ "wxBoxSizer" := by
  unfold pageClass
  split <;> decide

end Element

/-- Of a node that is not written, a shell would show an empty object or a remark. -/
theorem object_grow_of_not_written {comments : Bool} {parent : Element}
    (hp : parent.kind.isSizer = false) (above : List Element) {b : Design}
    (h : b.label.isWritten comments = false) :
    (grow comments (parent :: above) b).object = ⟨[], []⟩ ∨
      comments = false ∧ ∃ text, (grow comments (parent :: above) b).object
        = b.label.part "wxBoxSizer" [.comment text] := by
  unfold grow Growth.around
  rcases Element.resourceShape_of_not_written h hp above with hs | ⟨off, text, hs⟩
  · rw [hs]
    exact Or.inl rfl
  · rw [hs]
    exact Or.inr ⟨off, text, rfl⟩

/-- Without comments, no sizer is written that holds nothing but a remark. -/
theorem object_grow_ne_remark {above : List Element} {b : Design}
    (h : b.label.isWritten false = true) (attributes : List (String × String)) (text : String)
    (class_eq : attributes.lookup "class" = some "wxBoxSizer") :
    (grow false above b).object ≠ ⟨attributes, [.comment text]⟩ := by
  obtain ⟨e, cs⟩ := b
  have described : e.kind.isDescribed = true := by
    rwa [Branch.label, Element.isWritten, Bool.false_and, Bool.or_false] at h
  have shaped := e.shaped_resourceShape false above
  unfold grow Growth.around
  dsimp only [Branch.label]
  intro heq
  generalize hs : e.resourceShape false above = s at shaped heq
  cases shaped with
  | absent h => cases h.symm.trans described
  | remark h => cases h.symm.trans described
  | page _ book =>
    have attrs : [("class", Element.pageClass book)] = attributes := congrArg Part.attributes heq
    rw [← attrs] at class_eq
    exact Element.pageClass_ne_sizer book (Option.some.inj class_eq)
  | @own _ _ inSizer object own =>
    cases inSizer with
    | true =>
      have attrs : [("class", "sizeritem")] = attributes := congrArg Part.attributes heq
      rw [← attrs] at class_eq
      exact absurd (Option.some.inj class_eq) (by decide)
    | false =>
      have attrs : object.attributes = attributes := congrArg Part.attributes heq
      rw [← attrs, own.class_eq] at class_eq
      obtain ⟨more, sizer⟩ :=
        Element.resourceShape_of_sizer (Kind.of_objectClass?_sizer class_eq described) false above
      rw [hs] at sizer
      cases hsizer : above.head?.any fun parent => parent.kind.isSizer with
      | true =>
        rw [hsizer] at sizer
        cases sizer
      | false =>
        rw [hsizer] at sizer
        rw [Shape.plain.inj sizer] at heq
        cases congrArg Part.contents heq

/-- A project or folder by itself has an object without a class. -/
theorem hasClassless_grow {comments : Bool} {above : List Element} {b : Design}
    (grouping : b.label.kind.isGrouping = true) :
    HasClassless [(grow comments above b).object.object] := by
  rw [Xml.hasClassless_object, ResourceDocument.attributes_grow_of_grouping grouping]
  exact Or.inl rfl

/-! ## Forms -/

theorem Sprout.staying_eq {sprouts : List Sprout} (h : pages sprouts = []) :
    staying sprouts = sprouts.map xml := by
  induction sprouts with
  | nil => rfl
  | cons s sprouts ih =>
    cases s with
    | here x => exact congrArg (x :: ·) (ih h)
    | page x => cases h

/-- A dialog or panel is written with its children in it. -/
theorem object_grow_form {b : Design} (form : b.label.kind = .dialog ∨ b.label.kind = .panelForm)
    (comments : Bool) (above : List Element) :
    (grow comments above b).placement = .updated ∧
      ∃ own : Part, b.label.IsOwn own ∧ (grow comments above b).object = own.extend
        ((growAll comments b.label true (b.label :: above) .none b.children).sprouts.map
          Sprout.xml) := by
  have shaped := b.label.shaped_resourceShape comments above
  have pages : Sprout.pages
      (growAll comments b.label true (b.label :: above) .none b.children).sprouts = [] :=
    pages_growAll comments b.label true (b.label :: above) rfl b.children
  have flatten (own : Part) : Element.flattensFolders (.plain own) b.label = true := by
    show (b.label.kind != .toolDropdown) = true
    rcases form with hk | hk <;> rw [hk] <;> rfl
  have inner (book : Option Kind) : Trail.none.enter b.label book 0 = .none := by
    rcases form with hk | hk <;> rw [Trail.enter, hk] <;> rfl
  have settled (sprouts : List Sprout) : b.label.settle sprouts
      = (Sprout.staying sprouts, Sprout.pages sprouts) := by
    rcases form with hk | hk <;> rw [Element.settle, hk] <;> rfl
  have contents (leafless : Bool) (xs : List Xml) : b.label.container leafless xs = xs := by
    rcases form with hk | hk <;> rw [Element.container, hk]
  obtain ⟨own, plain⟩ : ∃ own, b.label.resourceShape comments above = .plain own := by
    rcases form with hk | hk <;> rw [Element.resourceShape, Element.shape, hk] <;> exact ⟨_, rfl⟩
  rw [plain] at shaped
  unfold grow Growth.around
  dsimp only
  rw [plain, Shape.holdsChildren, if_pos rfl, flatten, inner, Growth.assemble]
  dsimp only
  rw [settled, contents, Sprout.staying_eq pages]
  exact ⟨rfl, own, shaped.isOwn_of_plain, rfl⟩

namespace ResourceDocument

/-! ## Shells -/

theorem hasClassless_shellPanel (x : Xml) : HasClassless [shellPanel x] ↔ HasClassless [x] :=
  Xml.hasClassless_extend
    (p := ⟨[("class", "wxPanel"), ("name", shellName)], []⟩) rfl nofun [x]

theorem hasClassless_shellDialog (title : String) (x : Xml) :
    HasClassless [shellDialog title x] ↔ HasClassless [x] := by
  let item : Part := .ofClass "sizeritem" []
  let sizer : Part :=
    ⟨[("class", "wxBoxSizer"), ("name", shellSizerName)], [.leaf "orient" "wxVERTICAL"]⟩
  let dialog : Part :=
    ⟨[("class", "wxDialog"), ("name", shellName)],
      [.leaf "style" "wxDEFAULT_DIALOG_STYLE|wxRESIZE_BORDER", .leaf "centered" "1",
        .leaf "title" title]⟩
  have sizerTags : Unclassed sizer.contents := by simp [sizer]
  have dialogTags : Unclassed dialog.contents := by simp [dialog]
  calc HasClassless [shellDialog title x]
    _ ↔ HasClassless [(sizer.extend [(item.extend [x]).object]).object] :=
      Xml.hasClassless_extend (p := dialog) rfl dialogTags.detailed _
    _ ↔ HasClassless [(item.extend [x]).object] :=
      Xml.hasClassless_extend rfl sizerTags.detailed _
    _ ↔ HasClassless [x] := Xml.hasClassless_extend rfl unclassed_nil.detailed _

theorem hasClassless_nodes (d : ResourceDocument) :
    HasClassless d.nodes ↔ HasClassless (d.objects.getD []) :=
  has_nodes ignoresWrappers_classless d

/-- The object of a dialog holds what its children grew into. -/
theorem objects_extend_sprouts {p : Part} (own : p.contents.filter Xml.isObject = [])
    (comments : Bool) (parent : Element) (above : List Element) (bs : List Design) :
    (p.extend ((growAll comments parent true above .none bs).sprouts.map Sprout.xml)).object.objects
      = (growAll comments parent true above .none bs).sprouts.map Sprout.xml := by
  have objects : ∀ x ∈ (growAll comments parent true above .none bs).sprouts.map Sprout.xml,
      x.isObject = true := by
    intro x hx
    obtain ⟨s, hs, rfl⟩ := List.mem_map.1 hx
    exact isObject_growAll s hs
  show (p.contents ++ _).filter Xml.isObject = _
  rw [List.filter_append, own, List.nil_append, List.filter_eq_self.2 objects]

end ResourceDocument

/-! ## Previews -/

/-- The first child of the design is all that is written for its children. -/
def Design.ShowsWhole (comments : Bool) (b : Design) : Prop :=
  ∃ child rest, b.children = child :: rest ∧ child.label.kind ≠ .folder ∧
    child.label.isWritten comments = true ∧ isBlankAll comments rest = true

namespace ResourceDocument

/-- A shell shows nothing else than the dialog holds, and no object without a class, if the first
child is all that is written and nothing strays. -/
theorem showsWhole_iff {b : Design} (dialog : b.label.kind = .dialog) {comments : Bool}
    {above : List Element} {child : Design} {rest : List Design}
    (children : b.children = child :: rest) :
    [(grow comments (b.label :: above) child).object.object]
          = (growAll comments b.label true (b.label :: above) .none b.children).sprouts.map
            Sprout.xml ∧
        ¬HasClassless [(grow comments (b.label :: above) child).object.object]
      ↔ straysAll comments true (b.label :: above) b.children = false ∧
        Design.ShowsWhole comments b := by
  have strays := hasClassless_growAll comments b.label true (b.label :: above) .none b.children
  have noPage : b.label.kind ≠ .bookPage := by
    rw [dialog]
    decide
  have split : (growAll comments b.label true (b.label :: above) .none b.children).sprouts
      = (growChild comments b.label true (b.label :: above) .none child).sprouts
        ++ (growAll comments b.label true (b.label :: above) .none rest).sprouts := by
    rw [children]
    rfl
  have first (folder : child.label.kind ≠ .folder)
      (written : child.label.isWritten comments = true) :
      (growChild comments b.label true (b.label :: above) .none child).sprouts
        = [.here (grow comments (b.label :: above) child).object.object] := by
    rw [growChild_eq_grow noPage _ folder, sprouts_asChild_grow, if_pos written]
  constructor
  · rintro ⟨shown, classed⟩
    have folder : child.label.kind ≠ .folder := fun folder =>
      classed (hasClassless_grow (by rw [folder]; rfl))
    have written : child.label.isWritten comments = true := by
      by_contra h
      rcases object_grow_of_not_written (by rw [dialog]; rfl) above
        (Bool.eq_false_iff.2 h) with empty | ⟨rfl, text, remark⟩
      · rw [empty] at classed
        exact classed ⟨_, List.mem_cons_self, rfl, rfl⟩
      · -- the remark is none of the objects in the dialog
        have mem : (grow false (b.label :: above) child).object.object ∈ _ :=
          shown ▸ List.mem_cons_self
        obtain ⟨s, hs, same⟩ := List.mem_map.1 mem
        obtain ⟨above', b', written, rfl⟩ := exists_grow_of_mem_growAll noPage hs
        have same := Part.object_injective same
        rw [remark] at same
        exact object_grow_ne_remark written _ text rfl same
    refine ⟨?_, child, rest, children, folder, written, ?_⟩
    · rwa [shown, strays, Bool.not_eq_true] at classed
    · rw [split, first folder written] at shown
      rw [← sprouts_growAll_eq_nil noPage (b.label :: above)]
      exact List.map_eq_nil_iff.1 (List.cons.inj shown).2.symm
  · rintro ⟨noStrays, child', rest', children', folder, written, blank⟩
    obtain ⟨rfl, rfl⟩ := List.cons.inj (children.symm.trans children')
    have shown : [(grow comments (b.label :: above) child).object.object]
        = (growAll comments b.label true (b.label :: above) .none b.children).sprouts.map
          Sprout.xml := by
      rw [split, first folder written,
        (sprouts_growAll_eq_nil noPage (b.label :: above) rest).2 blank]
      rfl
    refine ⟨shown, ?_⟩
    rw [shown, strays, noStrays]
    exact Bool.false_ne_true

/-- A preview shows a form: a panel stands in a dialog as it is, and what a dialog holds stands in a
panel. In both documents every object has a class. -/
structure PreviewShows (b : Design) (plain shown : ResourceDocument) : Prop where
  panel : b.label.kind = .panelForm → ∃ panel : Xml, panel.class? = some "wxPanel" ∧
    plain.objects = some [panel] ∧ shown.objects = some [shellDialog b.label.className panel]
  dialog : b.label.kind = .dialog → ∃ dialog shell : Xml, dialog.class? = some "wxDialog" ∧
    plain.objects = some [dialog] ∧ shell.class? = some "wxPanel" ∧
    shell.attribute? "name" = some shellName ∧ shown.objects = some [shell] ∧
    shell.objects = dialog.objects
  classed : ∀ x ∈ Xml.elementsAll (plain.nodes ++ shown.nodes), x.isObject = true →
    x.class? ≠ none

section

variable {b : Design} (comments : Bool) (above : List Element)

/-- Without a preview, the object of a form is added with everything that its children grew
into. -/
theorem addition_form (form : b.label.kind = .dialog ∨ b.label.kind = .panelForm) :
    ∃ x, (addition comments false above b).objects = [x] ∧
      (grow comments above b).object.object = x ∧ x.class? = some b.label.kind.className ∧
      x.objects = (growAll comments b.label true (b.label :: above) .none b.children).sprouts.map
        Sprout.xml ∧
      (HasClassless [x] ↔ straysAll comments true (b.label :: above) b.children = true) := by
  obtain ⟨placement, own, isOwn, object⟩ := object_grow_form form comments above
  obtain ⟨described, grouping, class_eq, project, buttons⟩ :
      b.label.kind.isDescribed = true ∧ ¬b.label.kind.isGrouping = true ∧
        b.label.kind.objectClass? = some b.label.kind.className ∧ b.label.kind ≠ .project ∧
        b.label.kind ≠ .stdDialogButtonSizer := by
    rcases form with hk | hk <;> rw [hk] <;> decide
  refine ⟨_, ?_, rfl, ?_, ?_, ?_⟩
  · rw [objects_addition, if_neg project, if_neg (by rw [placement]; decide)]
  · rw [object]
    exact isOwn.class_eq.trans class_eq
  · rw [object]
    exact objects_extend_sprouts (isOwn.objects buttons) ..
  · rw [object, isOwn.hasClassless_extend described, or_iff_right grouping, hasClassless_growAll]

/-- The preview of a dialog adds what its first child grew into, or an empty object. -/
theorem objects_addition_dialog (dialog : b.label.kind = .dialog) :
    (addition comments true above b).objects
      = [shellPanel (b.children.head?.elim emptyObject fun child =>
          (grow comments (b.label :: above) child).object.object)] := by
  unfold addition
  dsimp only
  rw [if_neg (by rw [dialog]; decide), if_neg (by rw [dialog]; decide),
    if_pos (by rw [dialog]; rfl)]
  cases b.children <;> rfl

variable {comments above} {plain shown : ResourceDocument}
  (hplain : plain.objects = some (addition comments false above b).objects)
  (hshown : shown.objects = some (addition comments true above b).objects)

include hplain hshown

/-- Every object has a class if this holds of what was added to the documents. -/
theorem classed_iff :
    (∀ x ∈ Xml.elementsAll (plain.nodes ++ shown.nodes), x.isObject = true → x.class? ≠ none)
      ↔ ¬HasClassless (addition comments false above b).objects ∧
        ¬HasClassless (addition comments true above b).objects := by
  rw [← not_or, ← Xml.not_hasClassless_iff, Xml.hasClassless_append, hasClassless_nodes,
    hasClassless_nodes, hplain, hshown]
  rfl

/-- The preview of a panel only fails by what strays. -/
theorem previewShows_panel_iff (panel : b.label.kind = .panelForm) :
    PreviewShows b plain shown
      ↔ straysAll comments true (b.label :: above) b.children = false := by
  obtain ⟨x, added, grown, class_eq, -, strays⟩ :=
    addition_form comments above (.inr panel)
  have wrapped : (addition comments true above b).objects = [shellDialog b.label.className x] := by
    unfold addition
    dsimp only
    rw [if_neg (by rw [panel]; decide), if_pos (by rw [panel]; rfl), grown]
  have classed := classed_iff hplain hshown
  rw [added, wrapped, hasClassless_shellDialog, and_self, strays, Bool.not_eq_true] at classed
  rw [added] at hplain
  rw [wrapped] at hshown
  rw [panel] at class_eq
  refine ⟨fun h => classed.1 h.classed, fun h => ?_⟩
  exact {
    panel := fun _ => ⟨x, class_eq, hplain, hshown⟩
    dialog := fun dialog => absurd (panel.symm.trans dialog) (by decide)
    classed := classed.2 h }

/-- The preview of a dialog also has to show everything that is written for its children. -/
theorem previewShows_dialog_iff (dialog : b.label.kind = .dialog) :
    PreviewShows b plain shown
      ↔ straysAll comments true (b.label :: above) b.children = false ∧
        Design.ShowsWhole comments b := by
  obtain ⟨x, added, -, class_eq, objects, strays⟩ :=
    addition_form comments above (.inl dialog)
  have wrapped := objects_addition_dialog comments above dialog
  have classed := classed_iff hplain hshown
  cases children : b.children with
  | nil =>
    -- the empty object has no class
    rw [children] at wrapped
    refine iff_of_false (fun h => ?_) ?_
    · refine (classed.1 h.classed).2 ?_
      rw [wrapped, hasClassless_shellPanel]
      exact ⟨emptyObject, List.mem_cons_self, rfl, rfl⟩
    · rintro ⟨-, child, rest, other, -⟩
      cases children.symm.trans other
  | cons child rest =>
    rw [children, List.head?_cons, Option.elim_some] at wrapped
    rw [added, wrapped, hasClassless_shellPanel] at classed
    rw [added] at hplain
    rw [wrapped] at hshown
    rw [dialog] at class_eq
    rw [← children, ← showsWhole_iff dialog children, ← objects]
    constructor
    · intro h
      obtain ⟨x', shell, -, hx, -, -, hshell, same⟩ := h.dialog dialog
      obtain ⟨rfl, -⟩ := List.cons.inj (Option.some.inj (hplain.symm.trans hx))
      obtain ⟨rfl, -⟩ := List.cons.inj (Option.some.inj (hshown.symm.trans hshell))
      exact ⟨same, (classed.1 h.classed).2⟩
    · rintro ⟨same, noneClassless⟩
      have noStrays : ¬HasClassless [x] := by
        rwa [strays, ← hasClassless_growAll, ← objects, ← same]
      exact {
        panel := fun panel => absurd (panel.symm.trans dialog) (by decide)
        dialog := fun _ => ⟨x, _, class_eq, hplain, rfl, rfl, hshown, same⟩
        classed := classed.2 ⟨noStrays, noneClassless⟩ }

end

/-- **A preview shows a form where nothing strays, and a dialog where its first child is all that is
written for its children.** -/
theorem previewShows_iff {t : Tree} {id : Nat} {b : Design} (hb : t.design id = .ok b)
    (form : b.label.kind = .dialog ∨ b.label.kind = .panelForm) (options : ResourceOptions)
    (banner : Bool) :
    ∃ placement placement' plain shown,
      (empty options false banner).add t id = .ok (placement, plain) ∧
      (empty options true banner).add t id = .ok (placement', shown) ∧
      (PreviewShows b plain shown
        ↔ straysAll options.addComments true
            (b.label :: (t.ancestors id).map Node.toElement) b.children = false ∧
          (b.label.kind = .dialog → Design.ShowsWhole options.addComments b)) := by
  have bar : ¬b.label.kind.isBarForm = true := by
    rcases form with hk | hk <;> rw [hk] <;> decide
  refine ⟨_, _, _, _, by rw [add, hb], by rw [add, hb], ?_⟩
  dsimp only [empty, extend]
  rw [if_neg bar, if_neg bar]
  rcases form with dialog | panel
  · rw [previewShows_dialog_iff rfl rfl dialog, imp_iff_right dialog]
  · rw [previewShows_panel_iff rfl rfl panel, panel]
    exact (and_iff_left fun dialog => absurd dialog (by decide)).symm

/-! ## A dialog with a timer -/

/-- A dialog with a timer after its sizer. -/
def timerLastDialog : Design :=
  .mk (.ofKind .dialog)
    [.mk (.ofKind .verticalBoxSizer) [.mk (.ofKind .button) []], .mk (.ofKind .timer) []]

theorem previewShows_timerLastDialog :
    ∃ placement placement' plain shown,
      (empty .default false false).add (.ofDesign (.mk (.ofKind .project) [timerLastDialog])) 1
          = .ok (placement, plain) ∧
        (empty .default true false).add (.ofDesign (.mk (.ofKind .project) [timerLastDialog])) 1
          = .ok (placement', shown) ∧
        PreviewShows timerLastDialog plain shown := by
  have design : (Tree.ofDesign (.mk (.ofKind .project) [timerLastDialog])).design 1
      = .ok timerLastDialog := by with_unfolding_all rfl
  obtain ⟨placement, placement', plain, shown, hplain, hshown, shows⟩ :=
    previewShows_iff design (.inl rfl) .default false
  refine ⟨placement, placement', plain, shown, hplain, hshown, shows.2 ⟨?_, fun _ => ?_⟩⟩
  · with_unfolding_all rfl
  · exact ⟨_, _, rfl, by decide, by decide, by decide⟩

/-- The same dialog with the timer before the sizer. -/
def timerFirstDialog : Design :=
  .mk (.ofKind .dialog)
    [.mk (.ofKind .timer) [], .mk (.ofKind .verticalBoxSizer) [.mk (.ofKind .button) []]]

/-- The preview shows an empty object instead of the sizer. -/
theorem timerFirstDialog_not_previewShows :
    ∃ placement placement' plain shown,
      (empty .default false false).add (.ofDesign (.mk (.ofKind .project) [timerFirstDialog])) 1
          = .ok (placement, plain) ∧
        (empty .default true false).add (.ofDesign (.mk (.ofKind .project) [timerFirstDialog])) 1
          = .ok (placement', shown) ∧
        ¬PreviewShows timerFirstDialog plain shown := by
  have design : (Tree.ofDesign (.mk (.ofKind .project) [timerFirstDialog])).design 1
      = .ok timerFirstDialog := by with_unfolding_all rfl
  refine ⟨_, _, _, _, by rw [add, design], by rw [add, design], fun h => ?_⟩
  obtain ⟨dialog, shell, -, hdialog, -, -, hshell, same⟩ := h.dialog rfl
  obtain ⟨rfl, -⟩ := List.cons.inj (Option.some.inj hdialog)
  obtain ⟨rfl, -⟩ := List.cons.inj (Option.some.inj hshell)
  exact absurd (congrArg (List.map Xml.class?) same) (by decide +kernel)

end ResourceDocument

end FormDesign
