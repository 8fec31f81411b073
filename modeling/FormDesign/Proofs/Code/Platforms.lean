import FormDesign.Proofs.Code.Guard
import FormDesign.Proofs.Code.Header

/-!
# Members are declared on the platforms they are created on

A member is created under the selectors of the path from its form to its node, the form's own not
among them. It is declared under one selector: the nearest one, which may be the form's or stand
above the form. So the two agree wherever a selector stands on the path, and else the form's
selector decides.

* `Form.reaches_of_creates`: what the constructor creates in members, and on which platforms
* `Form.declaredWhereCreated_iff`: when every member is declared where it is created
-/

namespace FormDesign

/-- What has the destination is there on the platform. -/
def ActiveAt (destination : Option String) (p : Platform) : Prop :=
  ∀ selector ∈ destination, p ∈ Platform.ofSelector selector

/-! ## The nearest selector of a path -/

/-- The nearest selector of some items, given nearest first. -/
def nearestSelector (items : List Item) : Option String :=
  items.findSome? fun i => i.element.selector?

theorem nearestSelector_mem {items : List Item} {selector : String}
    (h : nearestSelector items = some selector) : selector ∈ selectors items := by
  obtain ⟨i, hi, hs⟩ := List.exists_of_findSome?_eq_some h
  exact List.mem_filterMap.2 ⟨i, List.mem_reverse.2 hi, hs⟩

theorem nearestSelector_eq_none {items : List Item} :
    nearestSelector items = none ↔ selectors items = [] := by
  simp [nearestSelector, selectors, List.findSome?_eq_none_iff]

theorem destination_append {sp : Spot} {inner outer : List Item} (h : sp.above = inner ++ outer) :
    sp.destination = (nearestSelector (sp.item :: inner)).or (nearestSelector outer) := by
  unfold Spot.destination nearestSelector
  rw [h, ← List.cons_append, List.findSome?_append]

namespace Form

variable {f : Form} {images : List Asset}

/-- The selector that a form is under: its own, or else the nearest above. -/
def destination (f : Form) : Option String :=
  nearestSelector f.path

/-! ## Declared on a platform -/

/-- The header declares the variable of the node as a member, in lines that are there on the
platform. -/
def DeclaredOn (f : Form) (sp : Spot) (p : Platform) : Prop :=
  ∃ a line, sp.Declares .cpp a line ∧ line ∈ (f.members .cpp).part a sp.destination ∧
    ActiveAt sp.destination p

/-- On every platform, the members that the constructor creates there are declared there. -/
def DeclaredWhereCreated (f : Form) (images : List Asset) : Prop :=
  ∀ x ∈ f.trace .cpp images, ∀ sp v, x.Creates sp v → v.isMember = true →
    ∀ p, x.ActiveOn p → f.DeclaredOn sp p

/-- Every member that construction reaches has a selector between itself and its form, or one of its
own. -/
def MembersConfined (f : Form) : Prop :=
  ∀ sp ∈ f.innerSpots, (Access.of sp.item.element).isMember = true →
    ∀ p, (f.site .cpp []).Reaches (f.inside sp.above) sp p →
      selectors (sp.item :: f.inside sp.above) ≠ []

/-- A member is created for a node outside of context menus that construction reaches. -/
theorem reaches_of_creates {x : Traced} (hx : x ∈ f.trace .cpp images) {sp : Spot} {v : Var}
    (hc : x.Creates sp v) (hm : v.isMember = true) :
    sp ∈ spotsOutsideMenusAll f.path f.children ∧ (Access.of sp.item.element).isMember = true ∧
      x.blocks = selectors (sp.item :: f.inside sp.above) ∧
        ∀ p, x.ActiveOn p → (f.site .cpp images).Reaches (f.inside sp.above) sp p := by
  obtain ⟨⟨q, ho, rfl⟩, className, hcr⟩ := hc
  obtain ⟨q', inner, hspot, hfrom⟩ :=
    Site.fromNode_of_mem_traceAll (mem_traceAll_of_creation hx hcr)
  obtain rfl : q' = q := Origin.node.inj (hfrom.origin.symm.trans ho)
  obtain ⟨hcreates, hblocks, hobject⟩ := hfrom.creation hcr
  have hinside : f.inside q'.spot.above = inner := by
    rw [show q'.spot.above = inner ++ f.path from hfrom.above_eq, inside_append]
  rw [hinside]
  -- of what a node creates, only the object that it keeps is held in a member
  have hkeeps : Site.keeps q'.item q'.above = true ∧
      (f.site .cpp images).var q'.item = v := by
    unfold Site.object? at hobject
    split at hobject
    · next hk => exact ⟨hk, (Prod.mk.inj (Option.some.inj hobject)).1⟩
    · split at hobject
      · obtain ⟨rfl, -⟩ := Prod.mk.inj (Option.some.inj hobject)
        exact Bool.noConfusion hm
      · rw [hfrom.outside] at hobject
        cases hobject
  obtain ⟨hkeeps, rfl⟩ := hkeeps
  refine ⟨hspot, hm, hblocks, fun p hp => ?_⟩
  refine ⟨List.forall_mem_cons.2 ⟨hcreates, hfrom.entered⟩, hkeeps, ?_⟩
  rw [Traced.ActiveOn, hblocks] at hp
  exact hp

/-- The header declares a member that construction reaches, under the destination of its node. -/
theorem declares_of_reaches {sp : Spot} (hsp : sp ∈ spotsOutsideMenusAll f.path f.children)
    (hm : (Access.of sp.item.element).isMember = true) {p : Platform}
    (hr : (f.site .cpp images).Reaches (f.inside sp.above) sp p) :
    ∃ a line, sp.Declares .cpp a line ∧ line ∈ (f.members .cpp).part a sp.destination := by
  have hclass : sp.item.kind.hasClass = true :=
    Site.hasClass_of_keeps (hr.visited sp.item List.mem_cons_self) hr.keeps
  obtain ⟨line, hline⟩ : ∃ line, Dialect.cpp.memberDeclaration (sp.declaration .cpp) = some line :=
    ⟨_, rfl⟩
  have hdeclares : sp.Declares .cpp (Access.of sp.item.element) line := ⟨rfl, hm, hclass, hline⟩
  exact ⟨_, line, hdeclares, (f.mem_part_members .cpp).2 ⟨sp, hsp, rfl, Or.inl hdeclares⟩⟩

/-- If the form is under a selector that leaves a platform out, a member without a selector inside
the form is created there and not declared. -/
theorem membersConfined_of_not_active (h : f.DeclaredWhereCreated images) {p : Platform}
    (hp : ¬ActiveAt f.destination p) : f.MembersConfined := by
  intro sp hsp hmember p₀ hr hnone
  have habove := above_of_mem_innerSpots hsp
  obtain ⟨x, hx, q, hq, hfrom, hcr⟩ := Site.exists_creation_traceAll
    (s := f.site .cpp images) [] [] hsp habove hr.visited hr.keeps
  have hx : x ∈ f.trace .cpp images :=
    List.mem_append_left _ (List.mem_append_right _ hx)
  -- nothing stands around the creation, so it happens on the platform that is left out
  have hblocks : x.blocks = [] := by
    rw [(hfrom.creation hcr).2.1, List.nil_append,
      show q.item = sp.item from congrArg Spot.item hq]
    exact hnone
  have hactive : x.ActiveOn p := by
    intro selector hs
    rw [hblocks] at hs
    cases hs
  obtain ⟨-, -, -, -, hdestination⟩ :=
    h x hx sp _ ⟨⟨q, hfrom.origin, hq⟩, _, hcr⟩ hmember p hactive
  rw [destination_append habove, nearestSelector_eq_none.2 hnone, Option.none_or] at hdestination
  exact hp hdestination

/-- The destination of a node is active where the node is created, if the form is on that platform
or a selector stands inside the form. -/
theorem activeAt_destination {sp : Spot} (hsp : sp ∈ f.innerSpots) {p : Platform}
    (hactive : ∀ selector ∈ selectors (sp.item :: f.inside sp.above),
      p ∈ Platform.ofSelector selector)
    (h : ActiveAt f.destination p ∨ selectors (sp.item :: f.inside sp.above) ≠ []) :
    ActiveAt sp.destination p := by
  rw [destination_append (above_of_mem_innerSpots hsp)]
  cases hnear : nearestSelector (sp.item :: f.inside sp.above) with
  | some selector =>
    intro s hs
    obtain rfl : selector = s := Option.some.inj hs
    exact hactive selector (nearestSelector_mem hnear)
  | none =>
    rw [Option.none_or]
    exact h.resolve_right (not_not_intro (nearestSelector_eq_none.1 hnear))

/-- **Every member is declared where it is created exactly if the form is under no selector that
leaves a platform out, or every member has a selector inside the form.** -/
theorem declaredWhereCreated_iff (f : Form) (images : List Asset) :
    f.DeclaredWhereCreated images ↔ (∀ p, ActiveAt f.destination p) ∨ f.MembersConfined := by
  constructor
  · intro h
    by_cases hall : ∀ p, ActiveAt f.destination p
    · exact Or.inl hall
    · obtain ⟨p, hp⟩ := Classical.not_forall.1 hall
      exact Or.inr (membersConfined_of_not_active h hp)
  · intro h x hx sp v hc hm p hactive
    obtain ⟨hsp, hmember, hblocks, hreaches⟩ := reaches_of_creates hx hc hm
    have hr := hreaches p hactive
    obtain ⟨a, line, hdeclares, hline⟩ := declares_of_reaches hsp hmember hr
    have hinner : sp ∈ f.innerSpots := spotsOutsideMenusAll_subset _ _ hsp
    have hconfined : ActiveAt f.destination p ∨ selectors (sp.item :: f.inside sp.above) ≠ [] :=
      h.imp (fun hall => hall p) fun hconfined =>
        hconfined sp hinner hmember p ⟨hr.visited, hr.keeps, hr.active⟩
    exact ⟨a, line, hdeclares, hline, activeAt_destination hinner (hblocks ▸ hactive) hconfined⟩

end Form

/-! ## A dialog on Windows -/

/-- A dialog that is confined to Windows, with a button that is not. -/
def windowsDesign : Design :=
  .mk { kind := .dialog, props := [(.className, "Dlg"), (.platforms, "Windows")], events := [] }
    [.mk { kind := .button, props := [(.varName, "m_ok")], events := [] } []]

/-- The button in its form. -/
def plainButton : Item where
  node :=
    { kind := .button, props := [(.varName, "m_ok")], events := [], id := 1, parent := some 0,
      children := [] }
  name := "m_ok"

/-- The form of the dialog. -/
def windowsDialog : Form where
  node :=
    { kind := .dialog, props := [(.className, "Dlg"), (.platforms, "Windows")], events := [],
      id := 0, parent := none, children := [1] }
  children := [.mk plainButton []]
  above := []

/-- The button is created on every platform, though it is declared on Windows only. -/
theorem windowsDialog_not_declaredWhereCreated :
    Form.ofTree (.ofDesign windowsDesign) 0 = .ok windowsDialog ∧
      ¬windowsDialog.DeclaredWhereCreated [] := by
  refine ⟨by with_unfolding_all rfl, fun h => ?_⟩
  let sp : Spot := { item := plainButton, above := windowsDialog.path }
  let p : Place :=
    { item := plainButton, children := [], above := windowsDialog.path, before := [] }
  obtain ⟨x, hx, hc⟩ : ∃ x ∈ windowsDialog.trace .cpp [], x.blocks = [] ∧
      x.Creates sp (.member "m_ok") :=
    ⟨_, List.mem_cons_self, rfl, ⟨p, rfl, rfl⟩, _, rfl⟩
  have hactive : x.ActiveOn .unix := by
    intro selector hs
    rw [hc.1] at hs
    cases hs
  obtain ⟨-, -, -, -, hdestination⟩ := h x hx sp _ hc.2 rfl .unix hactive
  have active : Platform.unix ∈ Platform.ofSelector "Windows" := hdestination "Windows" rfl
  exact absurd active (by decide)

end FormDesign
