import FormDesign.Proofs.Code.Scope

/-!
# What the steps for some nodes create

Every node that is visited creates at most one object, the one of `Site.object?`. So the variables
that a trace creates can be read off the spots of its nodes, in the order of the tree.

* `Site.created_traceAll_sublist`: they are among the variables of the spots
* `Form.NamesApart.pairwise_names`: those differ where names are apart
* `Site.anchored_traceAll`: a validator is tied to a control that was created before
-/

namespace FormDesign

/-! ## The variables of spots -/

namespace Traced

variable {known : Var → Prop} {blocks : List String} {origin : Origin} {steps : List Step}

theorem created_mark_of_uses (h : Step.Each (Step.Uses known) steps) :
    created (mark blocks origin steps) = [] := by
  rw [created_mark_of_plain (h.imp fun _ hu => hu.plain), List.filterMap_eq_nil_iff]
  intro st hst
  rw [(h st hst).creates_none]
  rfl

/-- What is created before a step is created. -/
theorem mem_created_of_before {xs before after : List Traced} {x : Traced}
    (h : xs = before ++ x :: after) {v : Var} (hv : v ∈ created before) : v ∈ created xs := by
  rw [h, created_append]
  exact List.mem_append_left _ hv

/-- Steps that make an object create it once. -/
theorem created_mark_of_makes {object : Option (Var × String)}
    (h : Site.Makes known object steps) :
    created (mark blocks origin steps) = (object.map Prod.fst).toList := by
  have plain := h.plain
  cases h with
  | nothing uses => exact created_mark_of_uses uses
  | object first _ after =>
    rw [mark_append, created_append, created_mark_of_uses first, List.nil_append,
      created_mark_of_plain (Step.each_append _ _ |>.1 plain).2, List.filterMap_cons]
    have rest : created (mark blocks origin _) = [] := created_mark_of_uses after
    rw [created_mark_of_plain (after.imp fun _ hu => hu.plain)] at rest
    rw [rest]
    rfl

end Traced

namespace Site

variable {s : Site}

/-- The variable that a node may create an object in. -/
def objectVar? (s : Site) (sp : Spot) : Option Var :=
  if keeps sp.item sp.above then some (s.var sp.item)
  else if hasMenu sp.item sp.above then some (dropdownVar sp.item)
  else none

theorem object?_sublist {i : Item} {above : List Item} (leaf : Bool)
    (hm : i.isMenuBuilder = false) :
    ((s.object? i above leaf).map Prod.fst).toList.Sublist
      (s.objectVar? { item := i, above }).toList := by
  unfold object? objectVar?
  rw [hm]
  cases keeps i above <;> cases hasMenu i above <;> cases leaf <;> simp

theorem created_createNode {p : Place} (hm : p.item.isMenuBuilder = false) (blocks : List String)
    (origin : Origin) :
    Traced.created (Traced.mark blocks origin (s.createNode p))
      = ((s.object? p.item p.above p.children.isEmpty).map Prod.fst).toList :=
  Traced.created_mark_of_makes (makes_createNode (ready_true p.above) hm
    (fun _ _ _ _ => trivial) fun _ _ => trivial)

theorem created_finish {p : Place} (hm : p.item.isMenuBuilder = false) (blocks : List String)
    (origin : Origin) : Traced.created (Traced.mark blocks origin (s.finish p)) = [] :=
  Traced.created_mark_of_uses (uses_finish (ready_true p.above) hm (fun _ _ => trivial)
    (fun _ _ _ => trivial) fun _ _ => trivial)

theorem created_unsupported (blocks : List String) (origin : Origin) (i : Item) :
    Traced.created (Traced.mark blocks origin (s.unsupported i)) = [] := by
  have uses : Step.Each (Step.Uses fun _ => True) (s.unsupported i) := uses_unsupported i
  exact Traced.created_mark_of_uses uses

mutual

theorem created_traceNode_sublist (blocks : List String) (above before : List Item)
    (b : Branch Item) :
    (Traced.created (s.traceNode blocks above before b)).Sublist
      ((spotsOf above b).filterMap s.objectVar?) := by
  cases b with
  | mk i cs =>
    unfold traceNode spotsOf
    by_cases hm : i.isMenuBuilder = true
    · simp only [hm, if_true]
      exact List.nil_sublist _
    · have hm : i.isMenuBuilder = false := by simpa using hm
      simp only [hm, Bool.false_eq_true, if_false]
      split
      · -- the object of the node comes first, then those below
        have below := created_traceAll_sublist (blocks ++ i.element.selector?.toList) (i :: above)
          [] cs
        let p : Place := { item := i, children := cs.map Branch.label, above, before }
        rw [Traced.created_append, Traced.created_append, created_createNode (p := p) hm,
          created_finish (p := p) hm, List.append_nil]
        have first : ({ item := i, above } :: spotsOfAll (i :: above) cs).filterMap s.objectVar?
            = (s.objectVar? { item := i, above }).toList
              ++ (spotsOfAll (i :: above) cs).filterMap s.objectVar? := by
          rw [List.filterMap_cons]
          cases s.objectVar? { item := i, above } <;> rfl
        rw [first]
        exact (object?_sublist p.children.isEmpty hm).append below
      · rw [created_unsupported]
        exact List.nil_sublist _

/-- **What is created for some nodes is among the variables of their spots**, in the order of the
tree. -/
theorem created_traceAll_sublist (blocks : List String) (above before : List Item)
    (bs : List (Branch Item)) :
    (Traced.created (s.traceAll blocks above before bs)).Sublist
      ((spotsOfAll above bs).filterMap s.objectVar?) := by
  cases bs with
  | nil => exact List.Sublist.refl _
  | cons b bs =>
    unfold traceAll spotsOfAll
    rw [Traced.created_append, List.filterMap_append]
    exact (created_traceNode_sublist blocks above before b).append
      (created_traceAll_sublist blocks above (b.label :: before) bs)

end

theorem kind_of_hasMenu {i : Item} {above : List Item} (h : hasMenu i above = true) :
    i.kind = .toolDropdown := by
  simp only [hasMenu, Bool.and_eq_true, beq_iff_eq] at h
  exact h.1

end Site

/-! ## Names of variables -/

namespace Site

variable {s : Site} {sp : Spot} {v : Var}

theorem objectVar?_cases (h : s.objectVar? sp = some v) :
    v = s.var sp.item ∨ sp.item.kind = .toolDropdown ∧ v = dropdownVar sp.item := by
  unfold objectVar? at h
  split at h
  · exact Or.inl (Option.some.inj h).symm
  · split at h
    · next hm => exact Or.inr ⟨kind_of_hasMenu hm, (Option.some.inj h).symm⟩
    · cases h

end Site

namespace Form

variable {f : Form} {s : Site}

/-- The name that a spot creates an object under is one of the form's. -/
theorem name_mem_variableNames {sp : Spot} (hs : sp ∈ f.innerSpots) {v : Var}
    (hv : s.objectVar? sp = some v) : v.name ∈ f.variableNames := by
  rcases Site.objectVar?_cases hv with rfl | ⟨hk, rfl⟩
  · rw [Site.name_var]
    exact List.mem_append_left _ (List.mem_map_of_mem hs)
  · refine List.mem_append_right _ (List.mem_map.2 ⟨sp, List.mem_filter.2 ⟨hs, ?_⟩, rfl⟩)
    rw [hk]
    rfl

/-- **Where names are apart, so are those that different spots create objects under.** -/
theorem NamesApart.nodup_objectVars (apart : f.NamesApart) {spots : List Spot}
    (sub : spots.Sublist f.innerSpots) :
    ((spots.filterMap s.objectVar?).map Var.name).Nodup := by
  have nodup : spots.Nodup :=
    sub.nodup (List.Nodup.of_map _ (List.nodup_append.1 apart.nodup).1)
  rw [List.Nodup, List.pairwise_map, List.pairwise_filterMap]
  refine nodup.pairwise_of_forall_ne fun sp hsp other hother ne v hv w hw heq => ne ?_
  have hs := sub.subset hsp
  have ho := sub.subset hother
  rcases Site.objectVar?_cases hv with rfl | ⟨hk, rfl⟩ <;>
    rcases Site.objectVar?_cases hw with rfl | ⟨hk', rfl⟩
  · rw [Site.name_var, Site.name_var] at heq
    exact apart.spot_eq hs ho heq
  · rw [Site.name_var] at heq
    exact absurd heq (apart.name_ne_menu hs ho hk')
  · rw [Site.name_var] at heq
    exact absurd heq.symm (apart.name_ne_menu ho hs hk)
  · exact apart.menu_spot_eq hs hk ho hk' heq

end Form

/-! ## Validators -/

namespace Step

/-- Whether the step ties a validator to a control. -/
def ties : Step → Bool
  | .validate .. => true
  | .stmt _ | .bind _ | .gap | .within .. | .warn _ => false

@[simp] theorem ties_call (target : Target) (method : String) (args : List Expr) :
    (call target method args).ties = false := rfl

@[simp] theorem ties_stmt (st : Stmt) : (stmt st).ties = false := rfl

@[simp] theorem ties_warn (text : String) : (warn text).ties = false := rfl

@[simp] theorem ties_gap : gap.ties = false := rfl

end Step

namespace Site

open Step

variable {s : Site} {p : Place}

theorem not_ties_create (args : List Expr) (init : Option String) :
    Each (fun st => st.ties = false) (s.create p args init) := by
  simp [create]

@[simp] theorem not_ties_addPage : Each (fun st => st.ties = false) (s.addPage p) := by
  unfold addPage
  dsimp only
  split
  · exact each_nil
  · split
    · split <;> simp
    · split <;> simp

@[simp] theorem not_ties_attach : Each (fun st => st.ties = false) (s.attach p) := by
  unfold attach
  dsimp only
  split <;> simp

@[simp] theorem not_ties_split : Each (fun st => st.ties = false) (s.split p) := by
  unfold split
  dsimp only
  split <;> simp

@[simp] theorem not_ties_appendMenu : Each (fun st => st.ties = false) (s.appendMenu p) := by
  unfold appendMenu
  dsimp only
  split <;> simp

@[simp] theorem not_ties_setDropdown : Each (fun st => st.ties = false) (s.setDropdown p) := by
  unfold setDropdown
  split <;> simp

theorem not_ties_finish : Each (fun st => st.ties = false) (s.finish p) := by
  unfold finish
  dsimp only
  split
  case h_10 => split <;> simp
  all_goals simp [giveToFrame]

theorem not_ties_kindSettings : Each (fun st => st.ties = false) (s.kindSettings p) := by
  have chain : Each (fun st => st.ties = false) (s.chainPage p) := by
    unfold chainPage
    dsimp only
    split
    · exact each_nil
    · split <;> simp
  unfold kindSettings
  dsimp only
  split
  all_goals simp [chain]

theorem not_ties_unsupported (i : Item) :
    Each (fun st => st.ties = false) (s.unsupported i) := by
  simp [unsupported]

theorem not_ties_formSettings (e : Element) :
    Each (fun st => st.ties = false) (s.formSettings e) := by
  unfold formSettings
  dsimp only
  rw [each_ite]
  refine ⟨fun _ => each_nil, fun _ => ?_⟩
  rw [each_append, each_append, each_append]
  refine ⟨⟨⟨by simp, ?_⟩, by simp⟩, by simp⟩
  split
  · simp
  · exact each_nil

theorem not_ties_formFinish (e : Element) : Each (fun st => st.ties = false) (formFinish e) := by
  unfold formFinish
  dsimp only
  split <;> simp

/-- What windows are told ties a validator to them. -/
theorem eq_validate_of_windowSettings {st : Step} (h : st ∈ s.windowSettings p)
    (ht : st.ties = true) : ∃ v, st = .validate (s.var p.item) v := by
  have own : Each (fun st => st.ties = true → ∃ v, st = .validate (s.var p.item) v)
      (s.windowSettings p) := by
    simp [windowSettings]
  exact own st h ht

/-- Only windows are created with a validator. -/
theorem createNode_eq_or :
    s.createNode p = s.createWindow p ∧ p.kind.category ≠ .timer ∨
      Each (fun st => st.ties = false) (s.createNode p) := by
  unfold createNode
  split
  case h_8 => exact Or.inl ⟨rfl, by assumption⟩
  all_goals right
  case h_1 => simp [createSizer]
  case h_2 =>
    unfold addSpacer
    dsimp only
    split <;> simp
  case h_3 | h_4 | h_7 => exact not_ties_create _ _
  case h_5 =>
    unfold createMenuItem
    dsimp only
    split
    · exact each_nil
    · simp [not_ties_create]
  case h_6 =>
    unfold createTool
    dsimp only
    split
    · exact each_nil
    · split <;> simp

/-- **A validator is tied to the control of its node**, which is created just before. -/
theorem validate_of_createNode {before after : List Step} {st : Step}
    (h : s.createNode p = before ++ st :: after) (ht : st.ties = true) :
    (∃ v, st = .validate (s.var p.item) v) ∧ p.kind.category ≠ .timer ∧
      ∃ made ∈ before, ∃ className, made.creation? = some (s.var p.item, className) := by
  have hst : st ∈ s.createNode p := h ▸ List.mem_append_right _ List.mem_cons_self
  rcases createNode_eq_or (s := s) (p := p) with ⟨window, notTimer⟩ | none
  · have notCreate : st ∉ s.create p (s.args p) none := fun hmem =>
      Bool.noConfusion ((not_ties_create _ _ st hmem).symm.trans ht)
    rw [window, createWindow, List.append_assoc, List.append_assoc] at h
    have front : s.create p (s.args p) none ⊆ before := by
      rcases List.append_eq_append_iff.1 h with ⟨more, rfl, -⟩ | ⟨more, hcreate, heq⟩
      · exact List.subset_append_left _ _
      · cases more with
        | nil => rw [hcreate, List.append_nil]; exact List.Subset.refl _
        | cons first rest =>
          obtain rfl := (List.cons.inj heq).1
          exact absurd (hcreate ▸ List.mem_append_right _ List.mem_cons_self) notCreate
    refine ⟨?_, notTimer, _, front (List.mem_append_right _ List.mem_cons_self), _, rfl⟩
    rw [window, createWindow] at hst
    simp only [List.mem_append] at hst
    rcases hst with ((hst | hst) | hst) | hst
    · exact absurd hst notCreate
    · exact eq_validate_of_windowSettings hst ht
    · exact Bool.noConfusion ((not_ties_kindSettings st hst).symm.trans ht)
    · split at hst
      · exact Bool.noConfusion ((not_ties_addPage st hst).symm.trans ht)
      · cases hst
  · exact Bool.noConfusion ((none st hst).symm.trans ht)

end Site

/-! ### Validators in traces -/

namespace Traced

/-- Every validator is tied to a control that was created before. -/
def Anchored (xs : List Traced) : Prop :=
  ∀ before x after, xs = before ++ x :: after →
    ∀ control v, x.step = .validate control v → control ∈ created before

theorem anchored_nil : Anchored [] := by
  intro before x after h
  simp at h

theorem Anchored.append {xs ys : List Traced} (h : Anchored xs) (h' : Anchored ys) :
    Anchored (xs ++ ys) := by
  intro before x after heq control v hs
  rcases List.append_eq_append_iff.1 heq with ⟨more, rfl, hys⟩ | ⟨more, hxs, hmore⟩
  · rw [created_append]
    exact List.mem_append_right _ (h' more x after hys control v hs)
  · cases more with
    | nil => exact absurd (h' [] x after hmore.symm control v hs) List.not_mem_nil
    | cons first rest =>
      obtain ⟨rfl, -⟩ := List.cons.inj hmore
      exact h before x rest hxs control v hs

theorem anchored_mark {blocks : List String} {origin : Origin} {steps : List Step}
    (plain : Step.Each (fun st => st.isPlain = true) steps)
    (h : Step.Each (fun st => st.ties = false) steps) : Anchored (mark blocks origin steps) := by
  intro before x after heq control v hs
  have hx : x ∈ mark blocks origin steps := heq ▸ List.mem_append_right _ List.mem_cons_self
  have none := h _ ((mem_mark_of_plain plain).1 hx).2.2
  rw [hs] at none
  cases none

end Traced

namespace Site

variable {s : Site}

theorem anchored_createNode {p : Place} (hm : p.item.isMenuBuilder = false)
    (blocks : List String) (origin : Origin) :
    Traced.Anchored (Traced.mark blocks origin (s.createNode p)) := by
  intro before x after heq control v hs
  rw [Traced.mark_of_plain (plain_createNode hm)] at heq
  obtain ⟨front, back, hsteps, rfl, hback⟩ := List.map_eq_append_iff.1 heq
  obtain ⟨st, rest, rfl, rfl, -⟩ := List.map_eq_cons_iff.1 hback
  obtain rfl : st = .validate control v := hs
  obtain ⟨⟨w, hw⟩, -, made, hmade, className, hcr⟩ := validate_of_createNode hsteps rfl
  obtain ⟨rfl, -⟩ := Step.validate.inj hw
  exact Traced.mem_created.2 ⟨_, List.mem_map_of_mem hmade, className, hcr⟩

/-- The control of a validator is that of a node other than a timer. -/
theorem exists_of_validate {blocks : List String} {above before : List Item}
    {bs : List (Branch Item)} {x : Traced} (hx : x ∈ s.traceAll blocks above before bs)
    {control : Var} {v : ValidatorVar} (hs : x.step = .validate control v) :
    ∃ i, control = s.var i ∧ i.kind ≠ .timer := by
  have none {steps : List Step} (h : Step.Each (fun st => st.ties = false) steps) :
      x.step ∉ steps := fun hmem => by
    have unties := h _ hmem
    rw [hs] at unties
    cases unties
  obtain ⟨p, inner, -, hfrom⟩ := fromNode_of_mem_traceAll hx
  cases hfrom.stepOf with
  | visited _ _ hmem =>
    rcases List.mem_append.1 hmem with hmem | hmem
    · obtain ⟨front, back, heq⟩ := List.append_of_mem hmem
      obtain ⟨⟨w, hw⟩, notTimer, -⟩ := validate_of_createNode heq (by rw [hs]; rfl)
      rw [hs] at hw
      obtain ⟨rfl, -⟩ := Step.validate.inj hw
      refine ⟨p.item, rfl, fun timer => notTimer ?_⟩
      rw [Place.kind, timer]
      rfl
    · exact absurd hmem (none not_ties_finish)
  | remark _ _ hmem => exact absurd hmem (none (not_ties_unsupported _))

mutual

theorem anchored_traceNode (blocks : List String) (above before : List Item) (b : Branch Item) :
    Traced.Anchored (s.traceNode blocks above before b) := by
  cases b with
  | mk i cs =>
    unfold traceNode
    by_cases hm : i.isMenuBuilder = true
    · simp only [hm, if_true]
      exact Traced.anchored_nil
    · have hm : i.isMenuBuilder = false := by simpa using hm
      simp only [hm, Bool.false_eq_true, if_false]
      split
      · let p : Place := { item := i, children := cs.map Branch.label, above, before }
        exact ((anchored_createNode (p := p) hm _ _).append (anchored_traceAll _ _ [] cs)).append
          (Traced.anchored_mark (plain_finish (p := p) hm) not_ties_finish)
      · exact Traced.anchored_mark (plain_unsupported i) (not_ties_unsupported i)

/-- The validators of some nodes are tied to controls that were created before. -/
theorem anchored_traceAll (blocks : List String) (above before : List Item)
    (bs : List (Branch Item)) : Traced.Anchored (s.traceAll blocks above before bs) := by
  cases bs with
  | nil => exact Traced.anchored_nil
  | cons b bs =>
    unfold traceAll
    exact (anchored_traceNode blocks above before b).append
      (anchored_traceAll blocks above (b.label :: before) bs)

end

end Site

end FormDesign
