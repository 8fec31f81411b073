import FormDesign.Proofs.Code.Visit
import Mathlib.Data.List.Nodup

/-!
# Variables are created before they are used

A constructor refers to the variables of many nodes: of windows that others are created in, of
sizers, menus, bars, books and panes. This file says when each of them was created before.

* `Site.scoped_traceAll`: all references but strays are to variables created before
* `Form.definedBeforeUse_iff`: the plan of a form defines its variables before their use exactly
  if its strays are defined before
-/

namespace FormDesign

/-! ## Scopes -/

/-- The variables that statements create. -/
def createdBy (stmts : List Stmt) : List Var :=
  stmts.filterMap fun st => st.creation?.map Prod.fst

/-- Every variable that a statement refers to is created by an earlier one. -/
def DefinedBeforeUse (stmts : List Stmt) : Prop :=
  ∀ before st after, stmts = before ++ st :: after → ∀ v ∈ st.mentions, v ∈ createdBy before

namespace Traced

/-- The variables that steps create. -/
def created (xs : List Traced) : List Var :=
  xs.filterMap fun x => x.step.creation?.map Prod.fst

@[simp] theorem created_nil : created [] = [] := rfl

theorem created_append (xs ys : List Traced) : created (xs ++ ys) = created xs ++ created ys :=
  List.filterMap_append

theorem mem_created_cons {v : Var} {x : Traced} {xs : List Traced} :
    v ∈ created (x :: xs) ↔ v ∈ created [x] ∨ v ∈ created xs := by
  rw [show x :: xs = [x] ++ xs from rfl, created_append, List.mem_append]

theorem mem_created {v : Var} {xs : List Traced} :
    v ∈ created xs ↔ ∃ x ∈ xs, ∃ c, x.step.creation? = some (v, c) := by
  simp only [created, List.mem_filterMap, Option.map_eq_some_iff, Prod.exists]
  constructor
  · rintro ⟨x, hx, v, c, hc, rfl⟩
    exact ⟨x, hx, c, hc⟩
  · rintro ⟨x, hx, c, hc⟩
    exact ⟨x, hx, v, c, hc, rfl⟩

/-- Each step refers to variables that are known or were created before it, or that are excused. -/
inductive Scoped (excused : Traced → List Var) : (Var → Prop) → List Traced → Prop
  | nil {known : Var → Prop} : Scoped excused known []
  | cons {known : Var → Prop} {x : Traced} {xs : List Traced}
      (here : ∀ v ∈ x.step.mentions, known v ∨ v ∈ excused x)
      (later : Scoped excused (fun v => known v ∨ v ∈ created [x]) xs) :
      Scoped excused known (x :: xs)

variable {excused : Traced → List Var} {known : Var → Prop}

theorem scoped_cons {x : Traced} {xs : List Traced} :
    Scoped excused known (x :: xs) ↔
      (∀ v ∈ x.step.mentions, known v ∨ v ∈ excused x) ∧
        Scoped excused (fun v => known v ∨ v ∈ created [x]) xs := by
  constructor
  · intro h
    cases h with
    | cons here later => exact ⟨here, later⟩
  · rintro ⟨here, later⟩
    exact .cons here later

theorem scoped_append {xs ys : List Traced} :
    Scoped excused known (xs ++ ys) ↔
      Scoped excused known xs ∧ Scoped excused (fun v => known v ∨ v ∈ created xs) ys := by
  induction xs generalizing known with
  | nil => simp [Scoped.nil]
  | cons x xs ih =>
    rw [List.cons_append, scoped_cons, scoped_cons, ih, and_assoc]
    have later : (fun v => (known v ∨ v ∈ created [x]) ∨ v ∈ created xs)
        = fun v => known v ∨ v ∈ created (x :: xs) := by
      funext v
      rw [@mem_created_cons v x xs, or_assoc]
    rw [later]

/-- The same said of every position. -/
theorem scoped_iff {xs : List Traced} :
    Scoped excused known xs ↔
      ∀ before x after, xs = before ++ x :: after →
        ∀ v ∈ x.step.mentions, (known v ∨ v ∈ created before) ∨ v ∈ excused x := by
  constructor
  · rintro h before x after rfl
    exact (scoped_cons.1 (scoped_append.1 h).2).1
  · intro h
    induction xs generalizing known with
    | nil => exact .nil
    | cons x xs ih =>
      refine .cons (fun v hv => ?_) (ih fun before y after hxs v hv => ?_)
      · simpa using h [] x xs rfl v hv
      · have hv := h (x :: before) y after (by rw [hxs, List.cons_append]) v hv
        rw [mem_created_cons] at hv
        exact hv.imp_left fun hv => or_assoc.2 hv

/-! ### Steps for one node -/

variable {blocks : List String} {origin : Origin} {steps : List Step}

theorem scoped_mark_of_uses
    (h : Step.Each (Step.Uses fun v => known v ∨ ∀ x : Traced, x.origin = origin → v ∈ excused x)
      steps) : Scoped excused known (mark blocks origin steps) := by
  rw [scoped_iff]
  intro before x after hx v hv
  have hm : x ∈ mark blocks origin steps := hx ▸ List.mem_append_right _ List.mem_cons_self
  obtain ⟨-, ho, hs⟩ := (mem_mark_of_plain (h.imp fun _ hu => hu.plain)).1 hm
  rcases (h _ hs).known v hv with hv | hv
  · exact Or.inl (Or.inl hv)
  · exact Or.inr (hv x ho)

theorem created_mark_of_plain (h : Step.Each (fun st => st.isPlain = true) steps) :
    created (mark blocks origin steps)
      = steps.filterMap fun st => st.creation?.map Prod.fst := by
  rw [created, mark, Step.leavesAll_of_plain h]
  simp [List.filterMap_map, Function.comp_def]

/-- Steps that make an object refer to it only when it exists. -/
theorem scoped_mark_of_makes (excused : Traced → List Var) (blocks : List String)
    {object : Option (Var × String)}
    (h : Site.Makes (fun v => known v ∨ ∀ x : Traced, x.origin = origin → v ∈ excused x) object
      steps) :
    Scoped excused known (mark blocks origin steps) ∧
      ∀ c ∈ object, c.1 ∈ created (mark blocks origin steps) := by
  have plain := h.plain
  cases h with
  | nothing uses => exact ⟨scoped_mark_of_uses uses, by simp⟩
  | @object front back v className args initMethod first given after =>
    have own : v ∈ created (mark blocks origin
        (front ++ .stmt (.create v className args initMethod) :: back)) := by
      rw [created_mark_of_plain plain]
      exact List.mem_filterMap.2
        ⟨_, List.mem_append_right _ List.mem_cons_self, rfl⟩
    refine ⟨?_, fun c hc => by obtain rfl := Option.some.inj hc; exact own⟩
    rw [mark_append, scoped_append]
    refine ⟨scoped_mark_of_uses first, .cons (fun w hw => ?_) (scoped_mark_of_uses (after.imp ?_))⟩
    · rcases given w hw with hw | hw
      · exact Or.inl (Or.inl hw)
      · exact Or.inr (hw _ rfl)
    · refine fun st hu => hu.imp fun w hw => ?_
      rcases hw with rfl | hw | hw
      · exact Or.inl (Or.inr List.mem_cons_self)
      · exact Or.inl (Or.inl (Or.inl hw))
      · exact Or.inr hw

end Traced

namespace Site

variable {s : Site}

/-- The strays among what the steps of a node refer to. -/
def straysOf (s : Site) (x : Traced) : List Var :=
  match x.origin with
  | .node p => if s.creates p.kind then s.strays p else []
  | .event _ | .menu _ => []

theorem mem_straysOf_of_creates {p : Place} (hc : s.creates p.kind = true) {v : Var}
    (hv : v ∈ s.strays p) : ∀ x : Traced, x.origin = .node p → v ∈ s.straysOf x := by
  intro x hx
  simp [straysOf, hx, hc, hv]

/-- Strays belong to nodes that make objects. -/
theorem exists_node_of_mem_straysOf {x : Traced} {v : Var} (hv : v ∈ s.straysOf x) :
    ∃ p, x.origin = .node p ∧ s.creates p.kind = true ∧ v ∈ s.strays p := by
  unfold straysOf at hv
  split at hv
  · next p ho =>
    split at hv
    · next hc => exact ⟨p, ho, hc, hv⟩
    · cases hv
  · cases hv
  · cases hv

theorem created_traceNode {blocks : List String} {above before : List Item} {b : Branch Item}
    (h : s.builds b.label above = true) :
    s.var b.label ∈ Traced.created (s.traceNode blocks above before b) := by
  obtain ⟨hc, hk⟩ := Bool.and_eq_true_iff.1 h
  have hspot : { item := b.label, above } ∈ spotsOf above b := by
    cases b
    exact List.mem_cons_self
  obtain ⟨x, hx, -, -, -, hcr⟩ :=
    exists_creation_traceNode blocks before hspot (List.nil_append above).symm
      (List.forall_mem_cons.2 ⟨hc, List.forall_mem_nil _⟩) hk
  exact Traced.mem_created.2 ⟨x, hx, _, hcr⟩

theorem created_traceAll {blocks : List String} {above before : List Item}
    {bs : List (Branch Item)} {i : Item} (hi : i ∈ bs.map Branch.label)
    (h : s.builds i above = true) :
    s.var i ∈ Traced.created (s.traceAll blocks above before bs) := by
  induction bs generalizing before with
  | nil => cases hi
  | cons b bs ih =>
    unfold traceAll
    rw [Traced.created_append, List.mem_append]
    rcases List.mem_cons.1 hi with rfl | hi
    · exact Or.inl (created_traceNode h)
    · exact Or.inr (ih hi)

mutual

theorem scoped_traceNode {known : Var → Prop} {blocks : List String} {above before : List Item}
    {b : Branch Item} (h : s.Ready known above)
    (front : ∀ i ∈ before, s.builds i above = true → known (s.var i)) :
    Traced.Scoped s.straysOf known (s.traceNode blocks above before b) := by
  cases b with
  | mk i cs =>
    unfold traceNode
    by_cases hm : i.isMenuBuilder = true
    · simp only [hm, if_true]
      exact .nil
    · have hm : i.isMenuBuilder = false := by simpa using hm
      let p : Place := { item := i, children := cs.map Branch.label, above, before }
      simp only [hm, Bool.false_eq_true, if_false]
      by_cases hc : s.creates i.kind = true
      · -- strays are excused, and a page of a wizard refers to the page in front
        have stray (known : Var → Prop) (v : Var) (hv : v ∈ s.strays p) :
            known v ∨ ∀ x : Traced, x.origin = .node p → v ∈ s.straysOf x :=
          Or.inr (mem_straysOf_of_creates hc hv)
        have pages : p.kind = .wizardPage → ∀ j ∈ p.before, j.kind = .wizardPage →
            known (s.var j) ∨ ∀ x : Traced, x.origin = .node p → s.var j ∈ s.straysOf x := by
          intro hp j hj hk
          refine Or.inl (front j hj ?_)
          have hp : i.kind = .wizardPage := hp
          rw [hp] at hc
          simp [builds, hk, hc, keeps, Kind.category]
        obtain ⟨first, object⟩ := Traced.scoped_mark_of_makes s.straysOf
          (blocks ++ i.element.selector?.toList)
          (makes_createNode (h.imp fun v hv => Or.inl hv) hm pages (stray known))
        simp only [hc, if_true]
        rw [Traced.scoped_append, Traced.scoped_append]
        refine ⟨⟨first, ?_⟩, Traced.scoped_mark_of_uses (uses_finish ?_ hm ?_ ?_ (stray _))⟩
        · -- below the node its object is known, and a leaf has nothing below it
          cases cs with
          | nil => exact .nil
          | cons b bs =>
            refine scoped_traceAll (Or.inr ⟨fun c hcr => Or.inr (object c hcr), ?_⟩)
              (List.forall_mem_nil _)
            exact h.imp fun v hv => Or.inl hv
        · exact h.imp fun v hv => Or.inl (Or.inl hv)
        · -- the last steps come when the node and its children are there
          intro c hcr
          rw [Traced.created_append]
          exact Or.inl (Or.inr (List.mem_append_left _ (object c hcr)))
        · intro j hj hb
          rw [Traced.created_append]
          exact Or.inl (Or.inr (List.mem_append_right _ (created_traceAll hj hb)))
      · simp only [hc]
        exact Traced.scoped_mark_of_uses (uses_unsupported i)

/-- The steps for siblings refer to what was created before, apart from strays. -/
theorem scoped_traceAll {known : Var → Prop} {blocks : List String} {above before : List Item}
    {bs : List (Branch Item)} (h : s.Ready known above)
    (front : ∀ i ∈ before, s.builds i above = true → known (s.var i)) :
    Traced.Scoped s.straysOf known (s.traceAll blocks above before bs) := by
  cases bs with
  | nil => exact .nil
  | cons b bs =>
    unfold traceAll
    refine Traced.scoped_append.2 ⟨scoped_traceNode h front, ?_⟩
    refine scoped_traceAll (h.imp fun v hv => Or.inl hv) fun i hi hb => ?_
    rcases List.mem_cons.1 hi with rfl | hi
    · exact Or.inr (created_traceNode hb)
    · exact Or.inl (front i hi hb)

end

/-! ## What is created -/

/-- What is created for some nodes is the object of one that is visited. -/
theorem exists_place_of_created {blocks : List String} {above before : List Item}
    {bs : List (Branch Item)} {v : Var}
    (hv : v ∈ Traced.created (s.traceAll blocks above before bs)) :
    ∃ x ∈ s.traceAll blocks above before bs, ∃ p, x.origin = .node p ∧
      p.spot ∈ spotsOutsideMenusAll above bs ∧ s.creates p.kind = true ∧
        (keeps p.item p.above = true ∧ v = s.var p.item ∨
          hasMenu p.item p.above = true ∧ v = dropdownVar p.item) := by
  obtain ⟨x, hx, className, hcr⟩ := Traced.mem_created.1 hv
  obtain ⟨p, inner, hp, hfrom⟩ := fromNode_of_mem_traceAll hx
  obtain ⟨hc, -, hobject⟩ := hfrom.creation hcr
  refine ⟨x, hx, p, hfrom.origin, hp, hc, ?_⟩
  unfold object? at hobject
  split at hobject
  · next hk => exact Or.inl ⟨hk, (congrArg Prod.fst (Option.some.inj hobject)).symm⟩
  · split at hobject
    · next hd =>
      exact Or.inr ⟨(Bool.and_eq_true_iff.1 hd).1,
        (congrArg Prod.fst (Option.some.inj hobject)).symm⟩
    · simp [hfrom.outside] at hobject

/-! ## Every stray is referred to -/

theorem mentions_call (target : Target) (method : String) (args : List Expr) :
    (Step.call target method args).mentions = target.vars ++ Expr.varsAll args := rfl

/-- A node appends itself to the menu of its tool, whether the tool has one or not. -/
theorem exists_mention_of_strayMenu {p : Place} {v : Var} (hv : v ∈ strayMenu p) :
    ∃ st ∈ s.createNode p ++ s.finish p, v ∈ st.mentions := by
  unfold strayMenu at hv
  split at hv
  · cases hv
  · next i above ha =>
    split at hv
    · next hk =>
      obtain rfl := List.mem_singleton.1 hv
      simp only [Bool.and_eq_true, Bool.or_eq_true, decide_eq_true_eq, beq_iff_eq] at hk
      obtain ⟨⟨hp, hi⟩, -⟩ := hk
      have parent : s.menuParent? p = some (.var (dropdownVar i)) := by
        simp [menuParent?, Place.parent?, ha, hi]
      -- a menu appends itself at its end, an item when it is created
      rcases hp with hp | hp
      · have hfinish : s.finish p = s.appendMenu p := by
          unfold finish
          cases hk : p.kind <;> simp_all [Kind.category]
        refine ⟨Step.call (.var (dropdownVar i))
          (if p.kind = .subMenu then "AppendSubMenu" else "Append")
          [.var (s.var p.item), .text (p.element.text .label)], List.mem_append_right _ ?_, ?_⟩
        · rw [hfinish, appendMenu, parent]
          exact List.mem_singleton_self _
        · simp [mentions_call]
      · have hcreate : s.createNode p = s.createMenuItem p := by
          simp [createNode, hp]
        by_cases hs : p.kind = .separator
        · refine ⟨Step.call (.var (dropdownVar i)) "AppendSeparator" [],
            List.mem_append_left _ ?_, ?_⟩
          · simp [hcreate, createMenuItem, parent, hs]
          · simp [mentions_call]
        · refine ⟨Step.call (.var (dropdownVar i)) "Append" [.var (s.var p.item)],
            List.mem_append_left _ ?_, ?_⟩
          · simp [hcreate, createMenuItem, parent, hs]
          · simp [mentions_call]
    · cases hv

theorem book_of_mem_strayBook {p : Place} {v : Var} (hv : v ∈ s.strayBook p) :
    ∃ book, p.above.find? (fun i => i.kind.isBook) = some book ∧
      ((p.above.takeWhile fun i => !i.kind.isForm).any fun i => i.kind.isBook) = false ∧
      s.var book = v := by
  unfold strayBook at hv
  split at hv
  · next hk =>
    simp only [Bool.and_eq_true, Bool.not_eq_true'] at hk
    obtain ⟨book, hb, rfl⟩ := List.mem_map.1 hv
    exact ⟨book, Option.mem_toList.1 hb, hk.2, rfl⟩
  · cases hv

/-- A page below another page is added to a book, wherever it stands. -/
theorem exists_mention_of_strayBook {p : Place} {v : Var} (hv : v ∈ s.strayBook p) :
    ∃ st ∈ s.createNode p ++ s.finish p, v ∈ st.mentions := by
  obtain ⟨book, hb, -, rfl⟩ := book_of_mem_strayBook hv
  unfold strayBook at hv
  split at hv
  · next hk =>
    simp only [Bool.and_eq_true, decide_eq_true_eq] at hk
    obtain ⟨⟨hp, hparent⟩, -⟩ := hk
    obtain ⟨parent, hpa, hpk⟩ := (Option.any_eq_true _ _).1 hparent
    have hpk : parent.kind = .bookPage := by simpa using hpk
    have hcreate : s.createNode p = s.createWindow p := by
      simp [createNode, hp, Kind.category]
    refine ⟨Step.call (.var (s.var book)) "AddSubPage"
      [.var (s.var p.item), .text (p.element.text .label)], List.mem_append_left _ ?_, ?_⟩
    · rw [hcreate, createWindow, if_pos hp]
      refine List.mem_append_right _ ?_
      simp [addPage, hpa, hp, hpk, hb]
    · simp [mentions_call]
  · cases hv

/-- A splitter is divided between its panes, whether they were created or not. -/
theorem exists_mention_of_strayPanes {p : Place} {v : Var} (hv : v ∈ s.strayPanes p) :
    ∃ st ∈ s.createNode p ++ s.finish p, v ∈ st.mentions := by
  unfold strayPanes at hv
  split at hv
  · next hk =>
    obtain ⟨i, hi, rfl⟩ := List.mem_map.1 hv
    have hi := (List.mem_filter.1 hi).1
    obtain ⟨st, hst, hv⟩ : ∃ st ∈ s.split p, s.var i ∈ st.mentions := by
      unfold split
      dsimp only
      split
      · next h => simp [h] at hi
      · next only h =>
        obtain rfl : i = only := by simpa [h] using hi
        exact ⟨_, List.mem_singleton_self _, by simp [mentions_call]⟩
      · next first second rest h =>
        have hi : i = first ∨ i = second := by simpa [h] using hi
        refine ⟨_, List.mem_singleton_self _, ?_⟩
        rcases hi with rfl | rfl <;> simp [mentions_call]
    refine ⟨st, List.mem_append_right _ ?_, hv⟩
    simp only [finish, hk]
    exact List.mem_append_left _ hst
  · cases hv

theorem isContainer_of_not_keeps {i : Item} {above : List Item} (h : keeps i above = false) :
    i.kind.isContainer = false := by
  rw [Bool.eq_false_iff]
  intro hc
  rw [keeps_of_isContainer hc] at h
  exact Bool.noConfusion h

theorem isForm_of_not_keeps {i : Item} {above : List Item} (h : keeps i above = false) :
    i.kind.isForm = false := by
  have hc := isContainer_of_not_keeps h
  rw [Bool.eq_false_iff]
  intro hf
  simp only [Kind.isForm, beq_iff_eq] at hf
  simp [Kind.isContainer, hf] at hc

/-- A sizer is given to its parent, whether the parent has an object or not. -/
theorem exists_mention_of_strayOwner {p : Place} {v : Var} (hv : v ∈ s.strayOwner p) :
    ∃ st ∈ s.createNode p ++ s.finish p, v ∈ st.mentions := by
  unfold strayOwner at hv
  split at hv
  · cases hv
  · next i above ha =>
    split at hv
    · next hk =>
      obtain rfl := List.mem_singleton.1 hv
      simp only [Bool.and_eq_true, Bool.not_eq_true'] at hk
      obtain ⟨hs, hi⟩ := hk
      have hfinish : s.finish p = s.attach p := by
        unfold finish
        cases hk : p.kind <;> simp_all [Kind.category, Kind.isSizer]
      have hsizer : i.kind.isSizer = false := by
        rw [Bool.eq_false_iff]
        exact fun h => by simp [keeps_of_isSizer h] at hi
      have hcontainer := isContainer_of_not_keeps hi
      have hform := isForm_of_not_keeps hi
      have hpane : i.kind ≠ .collapsiblePane := fun h => by
        simp [h, Kind.isContainer, Kind.category] at hcontainer
      refine ⟨Step.call (.var (s.var i)) "SetSizerAndFit" [.var (s.var p.item)],
        List.mem_append_right _ ?_, ?_⟩
      · rw [hfinish]
        simp [attach, Place.parent?, ha, hsizer, hs, hform, hpane]
      · simp [mentions_call]
    · cases hv

/-- Every stray is referred to by one of the steps of its node. -/
theorem exists_mention {p : Place} {v : Var} (hv : v ∈ s.strays p) :
    ∃ st ∈ s.createNode p ++ s.finish p, v ∈ st.mentions := by
  simp only [strays, List.mem_append] at hv
  rcases hv with ((hv | hv) | hv) | hv
  · exact exists_mention_of_strayMenu hv
  · exact exists_mention_of_strayBook hv
  · exact exists_mention_of_strayPanes hv
  · exact exists_mention_of_strayOwner hv

end Site

/-! ## Forms whose names are apart -/

namespace Form

variable {f : Form} {d : Dialect} {images : List Asset}

/-- The names of variables that the nodes of a form may use: their own, and for the menus of
tools. -/
def variableNames (f : Form) : List String :=
  f.innerSpots.map (fun sp => sp.item.name)
    ++ (f.innerSpots.filter fun sp => sp.item.kind == .toolDropdown).map fun sp =>
      sp.item.name ++ "_menu"

/-- Every variable has a name, which is no other's. -/
structure NamesApart (f : Form) : Prop where
  nodup : f.variableNames.Nodup
  nonempty : "" ∉ f.variableNames

namespace NamesApart

variable (h : f.NamesApart) {sp other : Spot}

include h

theorem spot_eq (hs : sp ∈ f.innerSpots) (ho : other ∈ f.innerSpots)
    (hn : sp.item.name = other.item.name) : sp = other :=
  List.inj_on_of_nodup_map (List.nodup_append.1 h.nodup).1 hs ho hn

theorem menu_spot_eq (hs : sp ∈ f.innerSpots) (hsk : sp.item.kind = .toolDropdown)
    (ho : other ∈ f.innerSpots) (hok : other.item.kind = .toolDropdown)
    (hn : sp.item.name ++ "_menu" = other.item.name ++ "_menu") : sp = other :=
  List.inj_on_of_nodup_map (List.nodup_append.1 h.nodup).2.1
    (List.mem_filter.2 ⟨hs, by simp [hsk]⟩) (List.mem_filter.2 ⟨ho, by simp [hok]⟩) hn

theorem name_ne_menu (hs : sp ∈ f.innerSpots) (ho : other ∈ f.innerSpots)
    (hok : other.item.kind = .toolDropdown) : sp.item.name ≠ other.item.name ++ "_menu" :=
  (List.nodup_append.1 h.nodup).2.2 _ (List.mem_map_of_mem hs) _
    (List.mem_map_of_mem (List.mem_filter.2 ⟨ho, by simp [hok]⟩))

theorem menu_name_ne_empty (hs : sp ∈ f.innerSpots) (hk : sp.item.kind = .toolDropdown) :
    sp.item.name ++ "_menu" ≠ "" := fun he =>
  h.nonempty (List.mem_append_right _
    (he ▸ List.mem_map_of_mem (List.mem_filter.2 ⟨hs, by simp [hk]⟩)))

theorem name_ne_empty (hs : sp ∈ f.innerSpots) : sp.item.name ≠ "" := fun he =>
  h.nonempty (List.mem_append_left _ (he ▸ List.mem_map_of_mem hs))

end NamesApart

/-- What is created in a form is the object of a node below it. -/
theorem created_cases {v : Var} (hv : v ∈ Traced.created (f.trace d images)) :
    ∃ sp ∈ f.innerSpots, (f.site d images).creates sp.item.kind = true ∧
      (Site.keeps sp.item sp.above = true ∧ v = sp.item.var ∨
        Site.hasMenu sp.item sp.above = true ∧ v = Site.dropdownVar sp.item) := by
  obtain ⟨x, hx, className, hcr⟩ := Traced.mem_created.1 hv
  have below := Traced.mem_created.2 ⟨x, mem_traceAll_of_creation hx hcr, className, hcr⟩
  obtain ⟨-, -, p, -, hp, hc, made⟩ := Site.exists_place_of_created below
  exact ⟨p.spot, spotsOutsideMenusAll_subset _ _ hp, hc, made⟩

/-- A stray belongs to a node that is visited. -/
theorem place_of_mem_straysOf (hf : f.node.kind.isForm = true) {x : Traced}
    (hx : x ∈ f.trace d images) {v : Var} (hv : v ∈ (f.site d images).straysOf x) :
    ∃ p, x.origin = .node p ∧ v ∈ (f.site d images).strays p ∧
      (f.site d images).creates p.kind = true ∧
      x ∈ (f.site d images).traceAll [] f.path [] f.children := by
  obtain ⟨p, ho, hc, hv⟩ := Site.exists_node_of_mem_straysOf hv
  rcases mem_trace hx with hx | ⟨hplace, -⟩
  · exact ⟨p, ho, hv, hc, hx⟩
  · obtain rfl : f.place = p := Origin.node.inj (hplace.symm.trans ho)
    have hk : f.node.kind.hasConstruction = true := (Bool.and_eq_true_iff.1 hc).2
    simp only [Kind.isForm, beq_iff_eq] at hf
    simp [Kind.hasConstruction, hf] at hk

/-- What a stray names: a node without an object, the menu of a tool without one, or a node above
the form. -/
inductive Absent (f : Form) (s : Site) : Var → Prop
  | object {sp : Spot} (mem : sp ∈ f.innerSpots) (builds : s.builds sp.item sp.above = false) :
    Absent f s sp.item.var
  | menu {sp : Spot} (mem : sp ∈ f.innerSpots) (kind : sp.item.kind = .toolDropdown)
      (none : Site.hasMenu sp.item sp.above = false) : Absent f s (Site.dropdownVar sp.item)
  | above {i : Item} (mem : i ∈ f.above) : Absent f s i.var

/-- A book that is not found below the form is found above it. -/
theorem mem_above_of_find (hf : f.node.kind.isForm = true) {inner : List Item}
    (hi : ∀ i ∈ inner, i.kind.isForm = false) {book : Item}
    (hb : (inner ++ f.path).find? (fun i => i.kind.isBook) = some book)
    (hn : (((inner ++ f.path).takeWhile fun i => !i.kind.isForm).any fun i => i.kind.isBook)
      = false) : book ∈ f.above := by
  have hform : f.item.kind.isForm = true := hf
  have hbook : f.item.kind.isBook = false := by
    simp only [Kind.isForm, beq_iff_eq] at hform
    simp [Kind.isBook, hform]
  rw [List.takeWhile_append_of_pos (by simpa using hi)] at hn
  have none : inner.find? (fun i => i.kind.isBook) = none := by
    simpa [path, hform] using hn
  rw [List.find?_append, none, Option.none_or, path, List.find?_cons, hbook] at hb
  exact List.mem_of_find?_eq_some hb

theorem not_isForm_of_creates {s : Site} {i : Item} (h : s.creates i.kind = true) :
    i.kind.isForm = false := by
  have h : i.kind.hasConstruction = true := (Bool.and_eq_true_iff.1 h).2
  rw [Bool.eq_false_iff]
  intro hf
  simp only [Kind.isForm, beq_iff_eq] at hf
  simp [Kind.hasConstruction, hf] at h

theorem absent_of_mem_strays (hf : f.node.kind.isForm = true) {x : Traced}
    (hx : x ∈ (f.site d images).traceAll [] f.path [] f.children) {p : Place}
    (ho : x.origin = .node p) {v : Var} (hv : v ∈ (f.site d images).strays p) :
    f.Absent (f.site d images) v := by
  obtain ⟨q, inner, hq, hfrom⟩ := Site.fromNode_of_mem_traceAll hx
  obtain rfl : q = p := Origin.node.inj (hfrom.origin.symm.trans ho)
  have hspot : q.spot ∈ f.innerSpots := spotsOutsideMenusAll_subset _ _ hq
  have parent {i : Item} {above : List Item} (ha : q.above = i :: above)
      (hi : i.kind.isForm = false) : { item := i, above } ∈ f.innerSpots :=
    mem_innerSpots_of_not_isForm (parent_mem_spots hspot ha) hf hi
  simp only [Site.strays, List.mem_append] at hv
  rcases hv with ((hv | hv) | hv) | hv
  · unfold Site.strayMenu at hv
    split at hv
    · cases hv
    · next i above ha =>
      split at hv
      · next hk =>
        obtain rfl := List.mem_singleton.1 hv
        simp only [Bool.and_eq_true, beq_iff_eq, Bool.not_eq_true'] at hk
        have hi := parent ha (by simp [hk.1.2, Kind.isForm, Kind.category])
        exact .menu hi hk.1.2 hk.2
      · cases hv
  · obtain ⟨book, hbook, hinside, rfl⟩ := Site.book_of_mem_strayBook hv
    rw [hfrom.above_eq] at hbook hinside
    exact .above (mem_above_of_find hf (fun i hi => not_isForm_of_creates (hfrom.entered i hi))
      hbook hinside)
  · unfold Site.strayPanes at hv
    split at hv
    · obtain ⟨i, hi, rfl⟩ := List.mem_map.1 hv
      obtain ⟨hi, hb⟩ := List.mem_filter.1 hi
      have hi := (List.mem_filter.1 (List.mem_of_mem_take hi)).1
      have stands := Site.stands_of_mem_traceAll hx ho
      exact .object (stands.children i hi) (by simpa using hb)
    · cases hv
  · unfold Site.strayOwner at hv
    split at hv
    · cases hv
    · next i above ha =>
      split at hv
      · next hk =>
        obtain rfl := List.mem_singleton.1 hv
        simp only [Bool.and_eq_true, Bool.not_eq_true'] at hk
        have hi := parent ha (Site.isForm_of_not_keeps hk.2)
        exact .object hi (by simp [Site.builds, hk.2])
      · cases hv

/-- Where names are apart, what is absent is not created under another's name. -/
theorem Absent.not_created {t : Tree} {id : Nat} (hf : ofTree t id = .ok f)
    (apart : f.NamesApart) {v : Var} (h : f.Absent (f.site d images) v) :
    v ∉ Traced.created (f.trace d images) := by
  intro hv
  obtain ⟨sp, hsp, hc, ⟨hk, hv⟩ | ⟨hm, hv⟩⟩ := created_cases hv
  · cases h with
    | object mem builds =>
      obtain rfl := apart.spot_eq mem hsp (congrArg Var.name hv)
      simp [Site.builds, hc, hk] at builds
    | menu mem kind _ => exact apart.name_ne_menu hsp mem kind (congrArg Var.name hv).symm
    | above mem =>
      have hn : sp.item.name = "" :=
        (congrArg Var.name hv).symm.trans (name_of_mem_above hf mem)
      exact apart.name_ne_empty hsp hn
  · have hk : sp.item.kind = .toolDropdown := by
      simp only [Site.hasMenu, Bool.and_eq_true, beq_iff_eq] at hm
      exact hm.1
    cases h with
    | object mem _ => exact apart.name_ne_menu mem hsp hk (congrArg Var.name hv)
    | menu mem kind none =>
      obtain rfl := apart.menu_spot_eq mem kind hsp hk (congrArg Var.name hv)
      exact Bool.noConfusion (hm.symm.trans none)
    | above mem =>
      have hn : sp.item.name ++ "_menu" = "" :=
        (congrArg Var.name hv).symm.trans (name_of_mem_above hf mem)
      exact apart.menu_name_ne_empty hsp hk hn

end Form

/-! ## The statements of a plan -/

/-- The statement that a step consists of. -/
def Step.stmt? : Step → Option Stmt
  | .stmt s => some s
  | _ => none

theorem Step.mentions_eq (st : Step) : st.mentions = st.stmt?.elim [] Stmt.mentions := by
  cases st <;> rfl

theorem Step.creation?_eq (st : Step) : st.creation? = st.stmt? >>= Stmt.creation? := by
  cases st <;> rfl

mutual

theorem Step.stmts_eq_leaves (blocks : List String) (st : Step) :
    st.stmts = (st.leaves blocks).filterMap fun leaf => leaf.2.stmt? := by
  cases st with
  | within selector body =>
    unfold Step.stmts Step.leaves
    exact Step.stmtsAll_eq_leavesAll (blocks ++ [selector]) body
  | _ => rfl

/-- The statements of some steps are those among their leaves. -/
theorem Step.stmtsAll_eq_leavesAll (blocks : List String) (steps : List Step) :
    Step.stmtsAll steps = (Step.leavesAll blocks steps).filterMap fun leaf => leaf.2.stmt? := by
  cases steps with
  | nil => rfl
  | cons st steps =>
    unfold Step.stmtsAll
    rw [Step.leavesAll_cons, List.filterMap_append, ← Step.stmts_eq_leaves blocks st,
      ← Step.stmtsAll_eq_leavesAll blocks steps]

end

/-- The statements of traced steps. -/
def Traced.stmts (xs : List Traced) : List Stmt :=
  xs.filterMap fun x => x.step.stmt?

theorem Traced.createdBy_stmts (xs : List Traced) : createdBy (stmts xs) = created xs := by
  simp only [createdBy, stmts, created, List.filterMap_filterMap, Step.creation?_eq]
  congr 1
  funext x
  cases x.step.stmt? <;> rfl

theorem Form.stmtsAll_plan (f : Form) (d : Dialect) (images : List Asset) :
    Step.stmtsAll (f.plan d images) = Traced.stmts (f.trace d images) := by
  rw [Step.stmtsAll_eq_leavesAll [], leavesAll_plan, List.filterMap_map]
  rfl

/-- Definition before use, said of the steps instead of their statements. -/
theorem Traced.definedBeforeUse_stmts {xs : List Traced} :
    DefinedBeforeUse (stmts xs) ↔
      ∀ before x after, xs = before ++ x :: after →
        ∀ v ∈ x.step.mentions, v ∈ created before := by
  constructor
  · rintro h before x after rfl v hv
    rw [Step.mentions_eq] at hv
    cases hs : x.step.stmt? with
    | none => simp [hs] at hv
    | some st =>
      have hv : v ∈ st.mentions := by simpa [hs] using hv
      have hstmts : stmts (before ++ x :: after) = stmts before ++ st :: stmts after := by
        simp [stmts, hs]
      rw [← createdBy_stmts]
      exact h _ st _ hstmts v hv
  · intro h before st after hstmts v hv
    obtain ⟨xs₁, xs₂, rfl, rfl, hxs⟩ := List.filterMap_eq_append_iff.1 hstmts
    obtain ⟨skipped, x, rest, rfl, hskipped, hx, -⟩ := List.filterMap_eq_cons_iff.1 hxs
    have hv : v ∈ x.step.mentions := by
      rw [Step.mentions_eq, hx]
      exact hv
    have hc := h (xs₁ ++ skipped) x rest (by simp) v hv
    rw [created_append, ← createdBy_stmts skipped] at hc
    have none : stmts skipped = [] := List.filterMap_eq_nil_iff.2 hskipped
    change v ∈ createdBy (stmts xs₁)
    rw [createdBy_stmts]
    simpa [none, createdBy] using hc

/-! ## Definition before use -/

namespace Form

variable {f : Form} {d : Dialect} {images : List Asset}

/-- Nothing need be known above the children of a form. -/
theorem ready_path (hf : f.node.kind.isForm = true) (s : Site) (known : Var → Prop) :
    s.Ready known f.path :=
  Or.inl hf

/-- All references of a plan but its strays are to variables created before. -/
theorem scoped_trace (hf : f.node.kind.isForm = true) :
    Traced.Scoped (f.site d images).straysOf (fun _ => False) (f.trace d images) := by
  rw [trace, Traced.scoped_append, Traced.scoped_append]
  refine ⟨⟨Traced.scoped_mark_of_uses (Site.uses_formSettings _), ?_⟩,
    Traced.scoped_mark_of_uses (Site.uses_formFinish _)⟩
  exact Site.scoped_traceAll (ready_path hf _ _) (by simp)

theorem created_or_stray (hf : f.node.kind.isForm = true) {before after : List Traced}
    {x : Traced} (h : f.trace d images = before ++ x :: after) {v : Var}
    (hv : v ∈ x.step.mentions) :
    v ∈ Traced.created before ∨ v ∈ (f.site d images).straysOf x := by
  have hscope := Traced.scoped_iff.1 (scoped_trace hf) before x after h v hv
  simpa using hscope

/-- **A plan defines its variables before their use exactly if it defines its strays before.** Where
names are apart, that is exactly if no node that is visited has any. -/
theorem definedBeforeUse_iff {t : Tree} {id : Nat} (hf : ofTree t id = .ok f) (d : Dialect)
    (images : List Asset) :
    (DefinedBeforeUse (Step.stmtsAll (f.plan d images)) ↔
        ∀ before x after, f.trace d images = before ++ x :: after →
          ∀ v ∈ (f.site d images).straysOf x, v ∈ x.step.mentions → v ∈ Traced.created before) ∧
      (f.NamesApart →
        (DefinedBeforeUse (Step.stmtsAll (f.plan d images)) ↔
          ∀ x ∈ f.trace d images, (f.site d images).straysOf x = [])) := by
  have hform := isForm_of_ofTree hf
  rw [stmtsAll_plan, Traced.definedBeforeUse_stmts]
  refine ⟨⟨fun h before x after heq v _ hv => h before x after heq v hv, fun h => ?_⟩,
    fun apart => ⟨fun h => ?_, fun h => ?_⟩⟩
  · intro before x after heq v hv
    rcases created_or_stray hform heq hv with hc | hs
    · exact hc
    · exact h before x after heq v hs hv
  · -- a stray is referred to, so it was created, which names apart rule out
    intro x hx
    rw [List.eq_nil_iff_forall_not_mem]
    intro v hv
    obtain ⟨p, ho, hv, hc, hall⟩ := place_of_mem_straysOf hform hx hv
    obtain ⟨st, hst, hm⟩ := Site.exists_mention hv
    obtain ⟨y, hy, -, rfl⟩ := (Site.stands_of_mem_traceAll hall ho).steps hc st hst
    have hy : y ∈ f.trace d images := List.mem_append_left _ (List.mem_append_right _ hy)
    obtain ⟨before, after, heq⟩ := List.append_of_mem hy
    refine (absent_of_mem_strays hform hall ho hv).not_created hf apart ?_
    rw [heq, Traced.created_append]
    exact List.mem_append_left _ (h before y after heq v hm)
  · intro before x after heq v hv
    rcases created_or_stray hform heq hv with hc | hs
    · exact hc
    · rw [h x (heq ▸ List.mem_append_right _ List.mem_cons_self)] at hs
      cases hs

end Form

/-! ## Splitters -/

/-- A splitter in a dialog, with a panel and something else in it. -/
def splitterDesign (other : Element) : Design :=
  .mk { kind := .dialog, props := [(.className, "Dlg")], events := [] }
    [.mk { kind := .splitterWindow, props := [(.varName, "m_splitter")], events := [] }
      [.mk { kind := .panel, props := [(.varName, "m_panel")], events := [] } [], .mk other []]]

/-- The form of that dialog. -/
def splitterDialog (other : Element) (name : String) : Form where
  node :=
    { kind := .dialog, props := [(.className, "Dlg")], events := [], id := 0, parent := none,
      children := [1] }
  children :=
    [.mk
      { node :=
          { kind := .splitterWindow, props := [(.varName, "m_splitter")], events := [], id := 1,
            parent := some 0, children := [2, 3] }
        name := "m_splitter" }
      [.mk
        { node :=
            { kind := .panel, props := [(.varName, "m_panel")], events := [], id := 2,
              parent := some 1, children := [] }
          name := "m_panel" } [],
      .mk { node := { other with id := 3, parent := some 1, children := [] }, name } []]]
  above := []

/-- A splitter with two panes. -/
theorem splitter_definedBeforeUse :
    Form.ofTree (.ofDesign (splitterDesign (.ofKind .treeCtrl))) 0
        = .ok (splitterDialog (.ofKind .treeCtrl) "tree_ctrl") ∧
      (splitterDialog (.ofKind .treeCtrl) "tree_ctrl").NamesApart ∧
      DefinedBeforeUse
        (Step.stmtsAll ((splitterDialog (.ofKind .treeCtrl) "tree_ctrl").plan .cpp [])) := by
  have hf : Form.ofTree (.ofDesign (splitterDesign (.ofKind .treeCtrl))) 0
      = .ok (splitterDialog (.ofKind .treeCtrl) "tree_ctrl") := by with_unfolding_all rfl
  have apart : (splitterDialog (.ofKind .treeCtrl) "tree_ctrl").NamesApart :=
    ⟨by decide, by decide⟩
  exact ⟨hf, apart, ((Form.definedBeforeUse_iff hf .cpp []).2 apart).2 (by decide)⟩

/-- A splitter is divided between its panel and a context menu, for which no window is created. -/
theorem splitter_not_definedBeforeUse :
    Form.ofTree (.ofDesign (splitterDesign (.ofKind .contextMenuEvent))) 0
        = .ok (splitterDialog (.ofKind .contextMenuEvent) "context_menu_event") ∧
      ¬DefinedBeforeUse
        (Step.stmtsAll
          ((splitterDialog (.ofKind .contextMenuEvent) "context_menu_event").plan .cpp [])) := by
  refine ⟨by with_unfolding_all rfl, fun h => ?_⟩
  let splitter : Var := .member "m_splitter"
  let panel : Var := .member "m_panel"
  let menu : Var := .temporary "context_menu_event"
  let before : List Stmt :=
    [.create splitter "wxSplitterWindow" [.self, .id ""] none,
      .create panel "wxPanel" [.var splitter, .id ""] none]
  have created : menu ∈ createdBy before :=
    h before (.call (.var splitter) "SplitVertically" [.var panel, .var menu]) [] rfl menu
      (by decide)
  exact absurd created (by decide)

end FormDesign
