import FormDesign.Proofs.Code.Collect
import FormDesign.Proofs.Code.Visit

/-!
# Bindings and the objects they are made through

A binding through a variable needs the object of its node. The object is created under the selectors
of the whole path to the node, and only if construction reaches the node; the binding stands under
one selector at most, and the bindings that open context menus under none.

* `Form.exists_creation_iff`: when the object of a binding was created on a platform
* `Form.bindsCreated_iff`: when every binding of a form finds its object
-/

namespace FormDesign

/-- The node that a binding is made for. -/
def Origin.boundSpot? : Origin → Option Spot
  | .node _ => none
  | .event u => some u.spot
  | .menu builder =>
    match builder.above with
    | owner :: above => some { item := owner, above }
    | [] => none

namespace Traced

/-- Every block around the step is active on the platform. -/
def ActiveOn (x : Traced) (p : Platform) : Prop :=
  ∀ selector ∈ x.blocks, p ∈ Platform.ofSelector selector

/-- The step binds an event through a variable. -/
def BindsThrough (x : Traced) (v : Var) : Prop :=
  ∃ b, x.step = .bind b ∧ b.source = .window v

/-- The step creates the object of a node in a variable. -/
def Creates (x : Traced) (sp : Spot) (v : Var) : Prop :=
  (∃ p, x.origin = .node p ∧ p.spot = sp) ∧ ∃ className, x.step.creation? = some (v, className)

end Traced

/-- Construction reaches the node on the platform and creates an object in its variable, where
`inner` are the items between the node and its form. -/
structure Site.Reaches (s : Site) (inner : List Item) (sp : Spot) (p : Platform) : Prop where
  visited : ∀ i ∈ sp.item :: inner, s.creates i.kind = true
  keeps : Site.keeps sp.item sp.above = true
  active : ∀ selector ∈ selectors (sp.item :: inner), p ∈ Platform.ofSelector selector

namespace Form

variable {f : Form} {d : Dialect}

/-- A binding through a variable only runs where the object in it was created before. -/
def BindsCreated (f : Form) (d : Dialect) (c : Collected) : Prop :=
  ∀ before x after, f.traceConstructor d c = before ++ x :: after →
    ∀ sp v p, x.origin.boundSpot? = some sp → x.BindsThrough v → x.ActiveOn p →
      ∃ y ∈ before, y.Creates sp v ∧ y.ActiveOn p

/-! ## The bindings of a constructor -/

/-- The binding steps of a constructor: of the events that are placed in it, under the selector of
their place, and of the menus. -/
theorem mem_traceBindings {x : Traced} :
    x ∈ f.traceBindings f.events.sort ↔
      (∃ destination u, (BindPlace.constructor destination, u) ∈ f.placedUses ∧
        f.traceEvent destination.toList u = x) ∨ x ∈ f.traceMenus := by
  rw [traceBindings_eq, List.mem_append]
  refine or_congr_left ⟨fun hx => ?_, ?_⟩
  · obtain ⟨⟨destination, u⟩, hu, rfl⟩ := List.mem_map.1 hx
    exact ⟨destination, u, mem_entries_bound.1 hu, rfl⟩
  · rintro ⟨destination, u, hu, rfl⟩
    exact List.mem_map.2 ⟨(destination, u), mem_entries_bound.2 hu, rfl⟩

/-- A binding that opens a context menu is made for what stands above the menu. -/
theorem mem_traceMenus {x : Traced} :
    x ∈ f.traceMenus ↔ ∃ builder ∈ f.menuBuilders, ∃ owner above,
      builder.above = owner :: above ∧ x.blocks = [] ∧ x.origin = .menu builder ∧
        ∃ b, f.menuBinding? builder = some b ∧ x.step = .bind b := by
  constructor
  · intro hx
    obtain ⟨builder, hm, hx⟩ := List.mem_filterMap.1 hx
    obtain ⟨b, hb, rfl⟩ := Option.map_eq_some_iff.1 hx
    obtain ⟨owner, ho, -⟩ := Option.map_eq_some_iff.1 hb
    obtain ⟨above, ha⟩ := List.head?_eq_some_iff.1 ho
    exact ⟨builder, hm, owner, above, ha, rfl, rfl, b, hb, rfl⟩
  · rintro ⟨builder, hm, owner, above, ha, hblocks, ho, b, hb, hs⟩
    refine List.mem_filterMap.2 ⟨builder, hm, ?_⟩
    obtain ⟨blocks, origin, step⟩ := x
    rw [hb, show blocks = [] from hblocks, show origin = _ from ho, show step = _ from hs]
    rfl

/-- A step that binds is there for a node of the form. -/
theorem boundSpot_of_mem_traceBindings (hf : f.node.kind.isForm = true) {x : Traced}
    (hx : x ∈ f.traceBindings f.events.sort) :
    ∃ sp ∈ f.spots, x.origin.boundSpot? = some sp ∧
      ∃ b, x.step = .bind b ∧ b.source = sp.item.bindSource := by
  rcases mem_traceBindings.1 hx with ⟨destination, u, hu, rfl⟩ | hx
  · exact ⟨u.spot, mem_spots_of_mem_placedUses hu, rfl, f.binding u, rfl, rfl⟩
  · obtain ⟨builder, hm, owner, above, ha, -, ho, b, hb, hs⟩ := mem_traceMenus.1 hx
    have hinner := mem_innerSpots_of_mem_menuBuilders hf hm
    refine ⟨{ item := owner, above }, parent_mem_spots hinner ha, ?_, b, hs, ?_⟩
    · simp [ho, Origin.boundSpot?, ha]
    · obtain rfl : _ = b := by simpa [menuBinding?, ha] using hb
      rfl

theorem bindSource_window {i : Item} {v : Var} (h : i.bindSource = .window v) :
    i.kind.isForm = false ∧ i.kind.category ≠ .tool ∧ i.var = v := by
  unfold Item.bindSource at h
  split at h
  · cases h
  · next hf =>
    split at h
    · cases h
    · cases h
    · next ht => exact ⟨by simpa using hf, ht, BindSource.window.inj h⟩

/-! ## Where the object exists -/

/-- An element that is not in the first of two lists splits the second. -/
theorem split_of_not_mem {α : Type} {xs ys before after : List α} {x : α}
    (h : xs ++ ys = before ++ x :: after) (hx : x ∉ xs) :
    ∃ more, before = xs ++ more ∧ ys = more ++ x :: after := by
  rcases List.append_eq_append_iff.1 h with ⟨more, hbefore, hmore⟩ | ⟨more, hxs, hmore⟩
  · exact ⟨more, hbefore, hmore⟩
  · cases more with
    | nil => exact ⟨[], by simpa using hxs.symm, by simpa using hmore.symm⟩
    | cons z more =>
      obtain ⟨rfl, -⟩ := List.cons.inj hmore
      rw [hxs] at hx
      exact absurd (List.mem_append_right _ List.mem_cons_self) hx

theorem mem_mark_gap {x : Traced} :
    x ∈ Traced.mark [] (.node f.place) [.gap] ↔
      (x.blocks = [] ∧ x.origin = .node f.place) ∧ x.step = .gap := by
  rw [Traced.mem_mark_of_plain (by simp [Step.isPlain])]
  simp [and_assoc]

theorem mem_traceBindings_of_bind {c : Collected} {x : Traced} (hx : x ∈ f.traceConstructor d c)
    {b : Binding} (hb : x.step = .bind b) : x ∈ f.traceBindings c.events := by
  rcases List.mem_append.1 hx with hx | hx
  · rcases List.mem_append.1 hx with hx | hx
    · have plain := isPlain_of_mem_trace hx
      rw [hb] at plain
      exact Bool.noConfusion plain
    · cases hb.symm.trans (mem_mark_gap.1 hx).2
  · exact hx

/-- What a constructor creates, it creates before it binds anything. -/
theorem mem_before_iff (hf : f.node.kind.isForm = true) {c : Collected}
    (hc : c.events = f.events.sort) {before after : List Traced} {x y : Traced}
    (h : f.traceConstructor d c = before ++ x :: after) {b : Binding} (hb : x.step = .bind b)
    {created : Var × String} (hy : y.step.creation? = some created) :
    y ∈ before ↔ y ∈ f.trace d c.images := by
  have hx : x ∉ f.trace d c.images := fun hx => by
    have plain := isPlain_of_mem_trace hx
    rw [hb] at plain
    exact Bool.noConfusion plain
  rw [traceConstructor, List.append_assoc] at h
  obtain ⟨more, hbefore, hmore⟩ := split_of_not_mem h hx
  rw [hbefore]
  constructor
  · intro hm
    rcases List.mem_append.1 hm with hm | hm
    · exact hm
    · have hm : y ∈ Traced.mark [] (.node f.place) [.gap] ++ f.traceBindings c.events := by
        rw [hmore]
        exact List.mem_append_left _ hm
      rcases List.mem_append.1 hm with hm | hm
      · have hs := (mem_mark_gap.1 hm).2
        simp [hs, Step.creation?] at hy
      · rw [hc] at hm
        obtain ⟨-, -, -, b, hs, -⟩ := boundSpot_of_mem_traceBindings hf hm
        simp [hs, Step.creation?] at hy
  · intro hm
    exact List.mem_append_left _ hm

/-- **A binding finds its object exactly where construction reaches the node.** -/
theorem exists_creation_iff (hf : f.node.kind.isForm = true) {c : Collected}
    (hc : c.events = f.events.sort) {before after : List Traced} {x : Traced}
    (h : f.traceConstructor d c = before ++ x :: after) {sp : Spot} {v : Var} {p : Platform}
    (hsp : x.origin.boundSpot? = some sp) (hb : x.BindsThrough v) :
    (∃ y ∈ before, y.Creates sp v ∧ y.ActiveOn p) ↔
      (f.site d c.images).Reaches (f.inside sp.above) sp p := by
  obtain ⟨b, hstep, hsource⟩ := hb
  have hx := mem_traceBindings_of_bind (h ▸ List.mem_append_right _ List.mem_cons_self) hstep
  rw [hc] at hx
  obtain ⟨sp', hspot, hsp', b', hstep', hsource'⟩ := boundSpot_of_mem_traceBindings hf hx
  obtain rfl : sp' = sp := Option.some.inj (hsp'.symm.trans hsp)
  obtain rfl : b' = b := Step.bind.inj (hstep'.symm.trans hstep)
  obtain ⟨hform, htool, rfl⟩ := bindSource_window (hsource'.symm.trans hsource)
  have hinner := mem_innerSpots_of_not_isForm hspot hf hform
  have habove := above_of_mem_innerSpots hinner
  constructor
  · -- what creates the object comes from a visit, which knows its path and its blocks
    rintro ⟨y, hy, ⟨⟨q, ho, rfl⟩, className, hcr⟩, hactive⟩
    have hy := mem_traceAll_of_creation ((mem_before_iff hf hc h hstep hcr).1 hy) hcr
    obtain ⟨q', inner, -, hfrom⟩ := Site.fromNode_of_mem_traceAll hy
    obtain rfl : q' = q := Origin.node.inj (hfrom.origin.symm.trans ho)
    obtain ⟨hcreates, hblocks, hobject⟩ := hfrom.creation hcr
    have hpath : f.inside q'.spot.above = inner := by
      rw [show q'.spot.above = inner ++ f.path from hfrom.above_eq, inside_append]
    rw [hpath]
    refine ⟨List.forall_mem_cons.2 ⟨hcreates, hfrom.entered⟩, ?_, ?_⟩
    · exact Site.keeps_of_object hfrom.outside htool hobject
    · rw [Traced.ActiveOn, hblocks] at hactive
      exact hactive
  · intro hr
    obtain ⟨y, hy, q, hq, hfrom, hcr⟩ :=
      Site.exists_creation_traceAll [] [] hinner habove hr.visited hr.keeps
    have hy : y ∈ f.trace d c.images :=
      List.mem_append_left _ (List.mem_append_right _ hy)
    refine ⟨y, (mem_before_iff hf hc h hstep hcr).2 hy, ⟨⟨q, hfrom.origin, hq⟩, _, hcr⟩, ?_⟩
    rw [Traced.ActiveOn, (hfrom.creation hcr).2.1, List.nil_append, show q.item = sp'.item from
      congrArg Spot.item hq]
    exact hr.active

/-! ## Forms whose bindings find their objects -/

/-- Whatever binds through a variable, construction reaches its node on every platform of the
binding. An event is bound under the nearest selector, and must find the whole path active there; a
context menu is opened on every platform. -/
structure GuardsAgree (f : Form) (s : Site) : Prop where
  events : ∀ destination u v, (BindPlace.constructor destination, u) ∈ f.placedUses →
    u.item.bindSource = .window v →
    ∀ p, (∀ selector ∈ destination, p ∈ Platform.ofSelector selector) →
      s.Reaches (f.inside u.spot.above) u.spot p
  menus : ∀ builder ∈ f.menuBuilders, ∀ owner above v, builder.above = owner :: above →
    owner.bindSource = .window v → ∀ p, s.Reaches (f.inside above) { item := owner, above } p

/-- **Every binding of a form finds its object exactly if the guards of both agree.** -/
theorem bindsCreated_iff {t : Tree} {id : Nat} (hf : ofTree t id = .ok f) (d : Dialect)
    (table : ImageTable) (cache : Cache) :
    f.BindsCreated d (f.collected d table cache) ↔
      f.GuardsAgree (f.site d (f.collected d table cache).images) := by
  have hf := isForm_of_ofTree hf
  have hc : (f.collected d table cache).events = f.events.sort := rfl
  have split {x : Traced} (hx : x ∈ f.traceBindings f.events.sort) :
      ∃ before after, f.traceConstructor d (f.collected d table cache) = before ++ x :: after :=
    List.append_of_mem (List.mem_append_right _ hx)
  constructor
  · intro h
    refine ⟨fun destination u v hu hv p hp => ?_, fun builder hm owner above v ha hv p => ?_⟩
    · obtain ⟨before, after, heq⟩ := split (mem_traceBindings.2 (Or.inl ⟨destination, u, hu, rfl⟩))
      have hb : (f.traceEvent destination.toList u).BindsThrough v := ⟨f.binding u, rfl, hv⟩
      refine (exists_creation_iff hf hc heq rfl hb).1 (h _ _ _ heq _ _ _ rfl hb ?_)
      intro selector hs
      exact hp selector (by simpa [traceEvent] using hs)
    · -- no block stands around the binding of a menu, so it runs on every platform
      let b : Binding :=
        { event := "wxEVT_CONTEXT_MENU", handler := menuHandler builder, className := f.className,
          source := owner.bindSource }
      let x : Traced := { blocks := [], origin := .menu builder, step := .bind b }
      have hx : x ∈ f.traceMenus :=
        mem_traceMenus.2 ⟨builder, hm, owner, above, ha, rfl, rfl, b, by simp [menuBinding?, ha, b],
          rfl⟩
      obtain ⟨before, after, heq⟩ := split (mem_traceBindings.2 (Or.inr hx))
      have hsp : x.origin.boundSpot? = some { item := owner, above } := by
        simp [x, Origin.boundSpot?, ha]
      have hb : x.BindsThrough v := ⟨b, rfl, hv⟩
      exact (exists_creation_iff hf hc heq hsp hb).1
        (h _ _ _ heq _ _ _ hsp hb (List.forall_mem_nil _))
  · intro h before x after heq sp v p hsp hb hactive
    refine (exists_creation_iff hf hc heq hsp hb).2 ?_
    obtain ⟨b, hs, hv⟩ := hb
    have hx := mem_traceBindings_of_bind (heq ▸ List.mem_append_right _ List.mem_cons_self) hs
    rcases mem_traceBindings.1 hx with ⟨destination, u, hu, rfl⟩ | hx
    · obtain rfl : u.spot = sp := Option.some.inj hsp
      obtain rfl : f.binding u = b := Step.bind.inj hs
      refine h.events destination u v hu hv p fun selector hm => hactive selector ?_
      simpa [traceEvent] using hm
    · obtain ⟨builder, hm, owner, above, ha, -, ho, b', hb', hs'⟩ := mem_traceMenus.1 hx
      obtain rfl : b' = b := Step.bind.inj (hs'.symm.trans hs)
      obtain rfl : { item := owner, above } = sp := by
        simpa [ho, Origin.boundSpot?, ha] using hsp
      obtain rfl : _ = b' := by simpa [menuBinding?, ha] using hb'
      exact h.menus builder hm owner above v ha hv p

end Form

/-! ## A button and a panel on Windows -/

/-- A button that is confined to Windows, with an event. -/
def windowsButton : Item where
  node :=
    { kind := .button, props := [(.varName, "m_ok"), (.platforms, "Windows")],
      events := [{ name := "wxEVT_BUTTON", handler := "OnOk" }], id := 1, parent := some 0,
      children := [] }
  name := "m_ok"

/-- A dialog with that button. -/
def buttonDialog : Form where
  node := { kind := .dialog, props := [], events := [], id := 0, parent := none, children := [1] }
  children := [.mk windowsButton []]
  above := []

theorem buttonDialog_bindsCreated :
    Form.ofTree (.ofDesign (.mk (.ofKind .dialog) [.mk windowsButton.element []])) 0
        = .ok buttonDialog ∧
      buttonDialog.BindsCreated .cpp (buttonDialog.collected .cpp .empty .empty) := by
  have hf : Form.ofTree (.ofDesign (.mk (.ofKind .dialog) [.mk windowsButton.element []])) 0
      = .ok buttonDialog := by with_unfolding_all rfl
  refine ⟨hf, (Form.bindsCreated_iff hf .cpp .empty .empty).2 ⟨?_, List.forall_mem_nil _⟩⟩
  intro destination u v hu hv p hp
  obtain ⟨hplace, rfl⟩ := Prod.mk.inj (List.mem_singleton.1 hu)
  obtain rfl : destination = some "Windows" := BindPlace.constructor.inj hplace
  refine ⟨by decide, by decide, fun selector hs => ?_⟩
  obtain rfl : selector = "Windows" := List.mem_singleton.1 hs
  exact hp "Windows" rfl

/-- A panel that is confined to Windows. -/
def windowsPanel : Element :=
  { kind := .panel, props := [(.varName, "m_panel"), (.platforms, "Windows")], events := [] }

/-- A dialog with that panel, which has a context menu. -/
def panelDesign : Design :=
  .mk { kind := .dialog, props := [(.className, "Dlg")], events := [] }
    [.mk windowsPanel [.mk (.ofKind .contextMenuEvent) []]]

/-- The panel in its form. -/
def panelItem : Item where
  node := { windowsPanel with id := 1, parent := some 0, children := [2] }
  name := "m_panel"

/-- The context menu in its form. -/
def panelMenu : Item where
  node := { Element.ofKind .contextMenuEvent with id := 2, parent := some 1, children := [] }
  name := "context_menu_event"

/-- The form of the dialog. -/
def panelDialog : Form where
  node :=
    { kind := .dialog, props := [(.className, "Dlg")], events := [], id := 0, parent := none,
      children := [1] }
  children := [.mk panelItem [.mk panelMenu []]]
  above := []

/-- The context menu is opened on every platform, though its panel is created on Windows only. -/
theorem panelDialog_not_bindsCreated :
    Form.ofTree (.ofDesign panelDesign) 0 = .ok panelDialog ∧
      ¬panelDialog.BindsCreated .cpp (panelDialog.collected .cpp .empty .empty) := by
  refine ⟨by with_unfolding_all rfl, fun h => ?_⟩
  let builder : Spot := { item := panelMenu, above := panelItem :: panelDialog.path }
  let b : Binding :=
    { event := "wxEVT_CONTEXT_MENU", handler := menuHandler builder, className := "Dlg",
      source := .window (.member "m_panel") }
  let x : Traced := { blocks := [], origin := .menu builder, step := .bind b }
  have hx : x ∈ panelDialog.traceMenus := by
    rw [show panelDialog.traceMenus = [x] from rfl]
    exact List.mem_singleton_self x
  obtain ⟨before, after, heq⟩ := List.append_of_mem
    (show x ∈ panelDialog.traceConstructor .cpp (panelDialog.collected .cpp .empty .empty) from
      List.mem_append_right _ (List.mem_append_right _ hx))
  have hb : x.BindsThrough (.member "m_panel") := ⟨b, rfl, rfl⟩
  have reaches := (Form.exists_creation_iff rfl rfl heq rfl hb).1
    (h before x after heq _ _ .unix rfl hb (List.forall_mem_nil _))
  have active : Platform.unix ∈ Platform.ofSelector "Windows" :=
    reaches.active "Windows" List.mem_cons_self
  exact absurd active (by decide)

end FormDesign
