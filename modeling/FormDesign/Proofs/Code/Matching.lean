import FormDesign.Proofs.Code.Binding

/-!
# One window in every language

The plan of construction is made without the spelling of any language. Two languages that cover
every kind of node in a form therefore construct the same window: the same objects in the same
variables, told the same things in the same order, under the same platforms. What may differ is how
the class of an object is spelled, and which language a remark names.

* `Step.MatchesAll`: plans that differ in this at most
* `Site.Twin`: the same place of construction in another language
* `Form.plan_matches`: the plans of a form in two languages
-/

namespace FormDesign

/-! ## Plans that match -/

/-- Statements for two languages that differ at most in the spelling of the class that is created,
or in the language that a remark names. -/
inductive Stmt.Matches (d d' : Dialect) : Stmt → Stmt → Prop
  | same (s : Stmt) : Matches d d' s s
  | create (v : Var) (token token' : String) (args : List Expr) (initMethod : Option String) :
      Matches d d' (.create v token args initMethod) (.create v token' args initMethod)
  | remark (subject : String) :
      Matches d d' (.comment (subject ++ " cannot be generated for " ++ d.name))
        (.comment (subject ++ " cannot be generated for " ++ d'.name))

/-- Plans for two languages that match step by step, with statements that match and the same
platforms around them. The warnings that came up on the way are each language's own. -/
inductive Step.MatchesAll (d d' : Dialect) : List Step → List Step → Prop
  | nil : MatchesAll d d' [] []
  | same (s : Step) {steps steps' : List Step} (rest : MatchesAll d d' steps steps') :
      MatchesAll d d' (s :: steps) (s :: steps')
  | stmt {s s' : Stmt} (h : s.Matches d d' s') {steps steps' : List Step}
      (rest : MatchesAll d d' steps steps') :
      MatchesAll d d' (.stmt s :: steps) (.stmt s' :: steps')
  | within (selector : String) {body body' : List Step} (inner : MatchesAll d d' body body')
      {steps steps' : List Step} (rest : MatchesAll d d' steps steps') :
      MatchesAll d d' (.within selector body :: steps) (.within selector body' :: steps')
  | warnLeft (text : String) {steps steps' : List Step} (rest : MatchesAll d d' steps steps') :
      MatchesAll d d' (.warn text :: steps) steps'
  | warnRight (text : String) {steps steps' : List Step} (rest : MatchesAll d d' steps steps') :
      MatchesAll d d' steps (.warn text :: steps')

namespace Step.MatchesAll

variable {d d' : Dialect}

theorem refl (steps : List Step) : MatchesAll d d' steps steps := by
  induction steps with
  | nil => exact .nil
  | cons s steps ih => exact .same s ih

theorem of_eq {steps steps' : List Step} (h : steps' = steps) : MatchesAll d d' steps steps' := by
  rw [h]
  exact refl steps

theorem single {s s' : Stmt} (h : s.Matches d d' s') : MatchesAll d d' [.stmt s] [.stmt s'] :=
  .stmt h .nil

theorem append {a a' b b' : List Step} (h : MatchesAll d d' a a') (h' : MatchesAll d d' b b') :
    MatchesAll d d' (a ++ b) (a' ++ b') := by
  induction h with
  | nil => exact h'
  | same s _ ih => exact .same s ih
  | stmt h _ ih => exact .stmt h ih
  | within selector inner _ _ ih => exact .within selector inner ih
  | warnLeft text _ ih => exact .warnLeft text ih
  | warnRight text _ ih => exact .warnRight text ih

/-- Warnings apart, two plans are matched by what follows the warnings. -/
theorem warnings (texts texts' : Option String) {steps steps' : List Step}
    (h : MatchesAll d d' steps steps') :
    MatchesAll d d' ((texts.map Step.warn).toList ++ steps)
      ((texts'.map Step.warn).toList ++ steps') := by
  cases texts with
  | none =>
    cases texts' with
    | none => exact h
    | some text => exact .warnRight text h
  | some text =>
    cases texts' with
    | none => exact .warnLeft text h
    | some text' => exact .warnLeft text (.warnRight text' h)

/-- The statements of matching plans match one by one. -/
theorem stmts {steps steps' : List Step} (h : MatchesAll d d' steps steps') :
    List.Forall₂ (Stmt.Matches d d') (stmtsAll steps) (stmtsAll steps') := by
  induction h with
  | nil => exact .nil
  | same s _ ih => exact List.rel_append (List.forall₂_same.2 fun s _ => .same s) ih
  | stmt h _ ih => exact .cons h ih
  | within selector _ _ hinner ih => exact List.rel_append hinner ih
  | warnLeft text _ ih => exact ih
  | warnRight text _ ih => exact ih

end Step.MatchesAll

/-! ## Places that match -/

/-- The same place of construction in another language, with the same images to refer to. -/
structure Site.Twin (s s' : Site) : Prop where
  formKind : s'.formKind = s.formKind
  embedded : ∀ path, path ∈ s'.embedded ↔ path ∈ s.embedded
  inMenu : s'.inMenu = s.inMenu

namespace Site.Twin

variable {s s' : Site} (h : s.Twin s')

include h

theorem var (i : Item) : s'.var i = s.var i := by
  rw [Site.var, h.inMenu, Site.var]

theorem bookWindow (above : List Item) : s'.bookWindow above = s.bookWindow above := by
  induction above with
  | nil => rfl
  | cons i above ih => rw [Site.bookWindow, ih, h.var, Site.bookWindow]

theorem controlWindow (above : List Item) : s'.controlWindow above = s.controlWindow above := by
  induction above with
  | nil => rfl
  | cons i above ih => rw [Site.controlWindow, ih, h.var, Site.controlWindow]

theorem window (p : Place) : s'.window p = s.window p := by
  rw [Site.window, h.bookWindow, h.controlWindow, Site.window]

theorem menuParent? (p : Place) : s'.menuParent? p = s.menuParent? p := by
  simp only [Site.menuParent?, h.var]

theorem toolParent? (p : Place) : s'.toolParent? p = s.toolParent? p := by
  simp only [Site.toolParent?, h.var]

theorem sizerParent? (p : Place) : s'.sizerParent? p = s.sizerParent? p := by
  simp only [Site.sizerParent?, funext h.var]

/-- The same images can be referred to. -/
theorem image? (e : Element) (p : Property) : s'.image? e p = s.image? e p := by
  have hembedded (path : String) : s'.embedded.contains path = s.embedded.contains path := by
    rw [Bool.eq_iff_iff, List.contains_iff_mem, List.contains_iff_mem]
    exact h.embedded path
  simp only [Site.image?, hembedded]

theorem bitmap? (e : Element) (p : Property) : s'.bitmap? e p = s.bitmap? e p := by
  rw [Site.bitmap?, h.image?, Site.bitmap?]

theorem animation? (e : Element) : s'.animation? e = s.animation? e := by
  rw [Site.animation?, h.image?, Site.animation?]

/-! ### What a node is told -/

theorem args (p : Place) : s'.args p = s.args p := by
  simp only [Site.args, Site.windowArgs, h.window, h.bitmap?, h.animation?]

theorem sizerArgs (p : Place) : s'.sizerArgs p = s.sizerArgs p := by
  simp only [Site.sizerArgs, h.window]

theorem windowSettings (p : Place) : s'.windowSettings p = s.windowSettings p := by
  simp only [Site.windowSettings, h.var]

theorem kindSettings (p : Place) : s'.kindSettings p = s.kindSettings p := by
  simp only [Site.kindSettings, Site.chainPage, h.var, h.bitmap?]

theorem addPage (p : Place) : s'.addPage p = s.addPage p := by
  simp only [Site.addPage, h.var]

theorem addSpacer (p : Place) : s'.addSpacer p = s.addSpacer p := by
  simp only [Site.addSpacer, h.sizerParent?]

theorem finish (p : Place) : s'.finish p = s.finish p := by
  simp only [Site.finish, Site.giveToFrame, Site.attach, Site.appendMenu, Site.setDropdown,
    Site.split, h.formKind, h.var, h.menuParent?, h.toolParent?, h.addPage]

theorem formSettings (e : Element) : s'.formSettings e = s.formSettings e := by
  simp only [Site.formSettings, h.bitmap?]

/-! ### What is created -/

theorem create (p : Place) (args : List Expr) (initMethod : Option String) :
    Step.MatchesAll s.dialect s'.dialect (s.create p args initMethod)
      (s'.create p args initMethod) := by
  rw [Site.create, Site.create, h.var]
  exact .warnings _ _ (.single (.create _ _ _ args initMethod))

theorem createSizer (p : Place) :
    Step.MatchesAll s.dialect s'.dialect (s.createSizer p) (s'.createSizer p) := by
  simp only [Site.createSizer, h.var, h.sizerArgs, h.window]
  exact .stmt (.create _ _ _ _ none) (.refl _)

theorem createMenuItem (p : Place) :
    Step.MatchesAll s.dialect s'.dialect (s.createMenuItem p) (s'.createMenuItem p) := by
  simp only [Site.createMenuItem, h.menuParent?, h.var, h.bitmap?]
  cases s.menuParent? p with
  | none => exact .nil
  | some menu =>
    dsimp only
    split
    · exact .refl _
    · -- the item is created, and all that follows is said in method calls
      simp only [List.append_assoc]
      exact (h.create p _ none).append (.refl _)

theorem createTool (p : Place) :
    Step.MatchesAll s.dialect s'.dialect (s.createTool p) (s'.createTool p) := by
  simp only [Site.createTool, h.toolParent?, h.bitmap?]
  cases s.toolParent? p with
  | none => exact .nil
  | some bar =>
    dsimp only
    split
    · exact .refl _
    · exact .refl _
    · refine .same _ ?_
      split
      · exact .nil
      · exact .single (.create _ _ _ [] none)
    · exact .refl _

theorem createWindow (p : Place) :
    Step.MatchesAll s.dialect s'.dialect (s.createWindow p) (s'.createWindow p) := by
  rw [Site.createWindow, Site.createWindow, h.args, h.windowSettings, h.kindSettings, h.addPage]
  simp only [List.append_assoc]
  exact (h.create p _ none).append (.refl _)

theorem createNode (p : Place) :
    Step.MatchesAll s.dialect s'.dialect (s.createNode p) (s'.createNode p) := by
  rw [Site.createNode, Site.createNode, h.addSpacer]
  split
  · exact h.createSizer p
  · exact .refl _
  · exact h.create p [] none
  · exact h.create p [] none
  · exact h.createMenuItem p
  · exact h.createTool p
  · exact h.create p [.self] (some "SetOwner")
  · exact h.createWindow p

end Site.Twin

/-! ## Plans -/

theorem Site.matches_unsupported (s s' : Site) (i : Item) :
    Step.MatchesAll s.dialect s'.dialect (s.unsupported i) (s'.unsupported i) :=
  .stmt (.remark i.element.describe) (.warnLeft _ (.warnRight _ .nil))

theorem Site.matches_confined {d d' : Dialect} (i : Item) {body body' : List Step}
    (h : Step.MatchesAll d d' body body') :
    Step.MatchesAll d d' (Site.confined i body) (Site.confined i body') := by
  rw [Site.confined, Site.confined]
  cases i.element.selector? with
  | none => exact h
  | some selector => exact .within selector h .nil

mutual

theorem Site.Twin.planNode {s s' : Site} (h : s.Twin s') (above before : List Item)
    (b : Branch Item)
    (supported : ∀ i ∈ b.toList,
      s.dialect.supports i.kind = true ∧ s'.dialect.supports i.kind = true) :
    Step.MatchesAll s.dialect s'.dialect (s.planNode above before b)
      (s'.planNode above before b) := by
  cases b with
  | mk i cs =>
    obtain ⟨⟨hleft, hright⟩, hbelow⟩ := List.forall_mem_cons.1 supported
    have hcreates : s'.creates i.kind = s.creates i.kind := by
      rw [Site.creates, Site.creates, hleft, hright]
    rw [Site.planNode, Site.planNode]
    simp only [hcreates, h.finish]
    split
    · exact .nil
    · split
      · exact Site.matches_confined i
          (((h.createNode _).append (h.planAll (i :: above) [] cs hbelow)).append (.refl _))
      · exact s.matches_unsupported s' i

/-- The steps for siblings match. -/
theorem Site.Twin.planAll {s s' : Site} (h : s.Twin s') (above before : List Item)
    (bs : List (Branch Item))
    (supported : ∀ i ∈ Branch.toListAll bs,
      s.dialect.supports i.kind = true ∧ s'.dialect.supports i.kind = true) :
    Step.MatchesAll s.dialect s'.dialect (s.planAll above before bs)
      (s'.planAll above before bs) := by
  cases bs with
  | nil => exact .nil
  | cons b bs =>
    obtain ⟨hfirst, hrest⟩ := List.forall_mem_append.1 supported
    rw [Site.planAll, Site.planAll]
    exact (h.planNode above before b hfirst).append
      (h.planAll above (b.label :: before) bs hrest)

end

namespace Form

variable (f : Form) {d d' : Dialect} {images images' : List Asset}

theorem site_twin
    (embedded : ∀ path, path ∈ images'.map Asset.filename ↔ path ∈ images.map Asset.filename) :
    (f.site d images).Twin (f.site d' images') where
  formKind := rfl
  embedded := embedded
  inMenu := rfl

/-- **Two languages construct the same window.** If both cover every kind of node in the form and
the same images are embedded, then the constructors are planned with the same statements, step by
step and under the same platforms, up to the spelling of classes and the name of the language in
remarks. -/
theorem plan_matches
    (supported : ∀ e ∈ f.elements, d.supports e.kind = true ∧ d'.supports e.kind = true)
    (embedded : ∀ path, path ∈ images'.map Asset.filename ↔ path ∈ images.map Asset.filename) :
    Step.MatchesAll d d' (f.plan d images) (f.plan d' images') ∧
      List.Forall₂ (Stmt.Matches d d') (Step.stmtsAll (f.plan d images))
        (Step.stmtsAll (f.plan d' images')) := by
  have twin : (f.site d images).Twin (f.site d' images') := f.site_twin embedded
  have below : ∀ i ∈ Branch.toListAll f.children,
      d.supports i.kind = true ∧ d'.supports i.kind = true := by
    intro i hi
    rw [← map_item_spotsOfAll f.path] at hi
    obtain ⟨s, hs, rfl⟩ := List.mem_map.1 hi
    exact supported _ (List.mem_map_of_mem (mem_spots.2 (Or.inr hs)))
  have hsettings := twin.formSettings f.element
  have hplan : Step.MatchesAll d d' (f.plan d images) (f.plan d' images') := by
    simp only [plan, hsettings]
    exact ((Step.MatchesAll.refl _).append (twin.planAll f.path [] f.children below)).append
      (.refl _)
  exact ⟨hplan, hplan.stmts⟩

/-- The menu of a context menu is planned with the same statements as well. -/
theorem menuPlan_matches {menu : List Item × Branch Item}
    (supported : ∀ i ∈ menu.2.toList, d.supports i.kind = true ∧ d'.supports i.kind = true)
    (embedded : ∀ path, path ∈ images'.map Asset.filename ↔ path ∈ images.map Asset.filename) :
    Step.MatchesAll d d' (f.menuPlan d images menu.1 menu.2)
      (f.menuPlan d' images' menu.1 menu.2) := by
  obtain ⟨above, i, cs⟩ := menu
  obtain ⟨-, below⟩ := List.forall_mem_cons.1 supported
  have twin : Site.Twin { f.site d images with inMenu := true }
      { f.site d' images' with inMenu := true } := ⟨rfl, embedded, rfl⟩
  exact .stmt (.create _ _ _ [] none) (twin.planAll (i :: above) [] cs below)

end Form

/-- The dialog with a panel and a menu is the same window in Python and in Perl. -/
theorem menuDialog_plan_matches :
    (∀ e ∈ menuDialog.elements,
        Dialect.supports .python e.kind = true ∧ Dialect.supports .perl e.kind = true) ∧
      Step.MatchesAll .python .perl (menuDialog.plan .python []) (menuDialog.plan .perl []) ∧
      List.Forall₂ (Stmt.Matches .python .perl) (Step.stmtsAll (menuDialog.plan .python []))
        (Step.stmtsAll (menuDialog.plan .perl [])) := by
  have supported : ∀ e ∈ menuDialog.elements,
      Dialect.supports .python e.kind = true ∧ Dialect.supports .perl e.kind = true := by decide
  exact ⟨supported, menuDialog.plan_matches supported fun _ => Iff.rfl⟩

end FormDesign
