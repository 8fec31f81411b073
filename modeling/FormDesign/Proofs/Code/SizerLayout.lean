import FormDesign.Proofs.Code.InitialState
import Mathlib.Data.Finset.Basic
import Mathlib.Data.Finset.Dedup

/-!
# How sizers lay out what is in them

When an object is finished it is added to the sizer around it. The call tells the sizer a
proportion, flags and a border.

* `SizerLayout.ofStmt?`: what a call tells the sizer
* `Element.givenLayout`: what it tells for a node
* `Site.layouts_steps`: the steps for a node in a sizer have one such call, and others have none
* `Form.mem_layoutsFor`: so the methods of the generated class tell this and nothing else
-/

namespace FormDesign

namespace Kind

/-- Kinds whose objects are put into the sizer around them: controls, containers, books, bars and
sizers. -/
def isLaidOut (k : Kind) : Bool :=
  match k.category with
  | .widget | .container | .book | .toolBar | .sizer => true
  | _ => false

variable {k : Kind}

theorem isLaidOut_of_isSizer (h : k.isSizer = true) : k.isLaidOut = true := by
  rw [isLaidOut, show k.category = .sizer from beq_iff_eq.1 h]

theorem isLaidOut_of_isBook (h : k.isBook = true) : k.isLaidOut = true := by
  rw [isLaidOut, show k.category = .book from beq_iff_eq.1 h]

theorem hasConstruction_of_isLaidOut (h : k.isLaidOut = true) : k.hasConstruction = true := by
  unfold isLaidOut at h
  unfold hasConstruction
  revert h
  cases k.category <;> decide

end Kind

/-- How a sizer lays out an object. -/
@[ext]
structure SizerLayout where
  proportion : Int
  flags : Finset String
  border : Int
  deriving DecidableEq

/-- Whether the statement adds an object to a sizer. Only objects in variables are sizers of the
design. -/
def Stmt.addsObject : Stmt → Bool
  | .call (.var _) "Add" (.var _ :: _) => true
  | _ => false

theorem Stmt.addsObject_of_ne {method : String} (h : method ≠ "Add") (target : Target)
    (args : List Expr) : (Stmt.call target method args).addsObject = false := by
  unfold addsObject
  split
  · next heq => exact absurd (Stmt.call.inj heq).2.1 h
  · rfl

namespace SizerLayout

/-- The flags in a text with bars between. -/
def flagSet (text : String) : Finset String :=
  (Text.fields '|' text).toFinset

/-- The flags in an argument: constants, or none. -/
def ofFlags? : Expr → Option (Finset String)
  | .int 0 => some ∅
  | .const flags => some (flagSet flags)
  | _ => none

/-- What a statement tells a sizer if it adds an object to it. -/
def ofStmt? : Stmt → Option SizerLayout
  | .call (.var _) "Add" [.var _, .int proportion, flags, .int border] =>
    (ofFlags? flags).map fun flags => { proportion, flags, border }
  | _ => none

/-- What adds no object tells a sizer nothing. -/
theorem ofStmt?_of_addsObject {s : Stmt} (h : s.addsObject = false) : ofStmt? s = none := by
  unfold ofStmt?
  split
  · cases h
  · rfl

end SizerLayout

namespace Element

/-- What the code tells the sizer around a node. -/
def givenLayout (e : Element) : SizerLayout where
  proportion := e.int .proportion
  flags := SizerLayout.flagSet e.sizerFlags
  border := e.borderSize

end Element

/-! ## Steps that add nothing to a sizer -/

namespace Step

/-- What the steps tell the sizers to which they add objects. -/
def layouts (steps : List Step) : List SizerLayout :=
  (stmtsAll steps).filterMap SizerLayout.ofStmt?

/-- The step adds no object to a sizer. -/
def AddsNothing (st : Step) : Prop :=
  ∀ s ∈ st.stmts, s.addsObject = false

@[simp] theorem addsNothing_gap : gap.AddsNothing :=
  nofun

@[simp] theorem addsNothing_warn (text : String) : (warn text).AddsNothing :=
  nofun

@[simp] theorem addsNothing_validate (control : Var) (v : ValidatorVar) :
    (validate control v).AddsNothing :=
  nofun

@[simp] theorem addsNothing_comment (text : String) : (stmt (.comment text)).AddsNothing := by
  intro s hs
  rw [List.mem_singleton.1 hs]
  rfl

@[simp] theorem addsNothing_create (v : Var) (className : String) (args : List Expr)
    (initMethod : Option String) : (stmt (.create v className args initMethod)).AddsNothing := by
  intro s hs
  rw [List.mem_singleton.1 hs]
  rfl

@[simp] theorem addsNothing_call {method : String} (h : method ≠ "Add") (target : Target)
    (args : List Expr) : (call target method args).AddsNothing := by
  intro s hs
  rw [List.mem_singleton.1 hs]
  exact Stmt.addsObject_of_ne h target args

@[simp] theorem addsNothing_call_result (e : Expr) (method : String) (args : List Expr) :
    (call (.result e) method args).AddsNothing := by
  intro s hs
  rw [List.mem_singleton.1 hs]
  rfl

@[simp] theorem addsNothing_call_form (method : String) (args : List Expr) :
    (call .form method args).AddsNothing := by
  intro s hs
  rw [List.mem_singleton.1 hs]
  rfl

theorem layouts_append (xs ys : List Step) : layouts (xs ++ ys) = layouts xs ++ layouts ys := by
  rw [layouts, stmtsAll_append, List.filterMap_append]
  rfl

theorem layouts_eq_nil {steps : List Step} (h : Each AddsNothing steps) : layouts steps = [] := by
  refine List.filterMap_eq_nil_iff.2 ?_
  induction steps with
  | nil => exact nofun
  | cons st steps ih =>
    rw [each_cons] at h
    exact List.forall_mem_append.2
      ⟨fun s hs => SizerLayout.ofStmt?_of_addsObject (h.1 s hs), ih h.2⟩

end Step

/-! ## The steps for a node -/

namespace Place

/-- Whether the node stands in a sizer. -/
def inSizer (p : Place) : Bool :=
  p.parent?.any fun i => i.kind.isSizer

end Place

namespace Site

open Step

variable {s : Site} {p : Place}

theorem addsNothing_addPage : Each AddsNothing (s.addPage p) := by
  unfold addPage
  cases p.parent? with
  | none => simp
  | some parent => cases p.above.find? fun i => i.kind.isBook <;> simp

theorem addsNothing_windowSettings : Each AddsNothing (s.windowSettings p) := by
  simp [windowSettings]

theorem addsNothing_kindSettings : Each AddsNothing (s.kindSettings p) := by
  have chain : Each AddsNothing (s.chainPage p) := by
    unfold chainPage
    split
    · exact each_nil
    · split <;> simp
  unfold kindSettings
  dsimp only
  split
  case h_14 => exact chain
  all_goals simp

/-- Creating an object adds nothing to a sizer. -/
theorem addsNothing_createNode (h : p.kind.isLaidOut = true) :
    Each AddsNothing (s.createNode p) := by
  have window : Each AddsNothing (s.createWindow p) := by
    simp [createWindow, Site.create, addsNothing_windowSettings, addsNothing_kindSettings,
      addsNothing_addPage]
  unfold createNode
  unfold Kind.isLaidOut at h
  cases hk : p.kind.category
  case sizer => simp [createSizer]
  case widget | container | book | toolBar => exact window
  all_goals
    rw [hk] at h
    cases h

theorem ofFlags?_sizerFlags (e : Element) :
    SizerLayout.ofFlags? (if e.sizerFlags = "" then Expr.int 0 else .const e.sizerFlags)
      = some (SizerLayout.flagSet e.sizerFlags) := by
  split
  · next h =>
    rw [h]
    rfl
  · rfl

theorem layouts_attach :
    layouts (s.attach p) = if p.inSizer then [p.element.givenLayout] else [] := by
  unfold attach Place.inSizer
  cases p.parent? with
  | none => rfl
  | some parent =>
    dsimp only
    rw [Option.any_some]
    by_cases sizer : parent.kind.isSizer = true
    · rw [if_pos sizer, if_pos sizer]
      simp only [layouts, call, stmtsAll, Step.stmts, List.append_nil, List.filterMap_cons,
        SizerLayout.ofStmt?, ofFlags?_sizerFlags, Option.map_some, List.filterMap_nil]
      rfl
    · rw [if_neg sizer, if_neg sizer]
      refine layouts_eq_nil ?_
      split
      · simp
      · exact addsNothing_addPage

/-- A splitter is divided without a sizer. -/
theorem addsNothing_split : Each AddsNothing (s.split p) := by
  have other : (if p.element.text .splitMode = "wxSPLIT_HORIZONTAL" then "SplitHorizontally"
      else "SplitVertically") ≠ "Add" := by
    split <;> decide
  unfold split
  split <;> simp [other]

/-- What is done with an object in the end is that it is attached, or it is a status bar, which its
frame is given. -/
theorem finish_eq (h : p.kind.isLaidOut = true) :
    (∃ own, s.finish p = own ++ s.attach p ∧ Each AddsNothing own) ∨
      p.isChildOfForm = true ∧ Each AddsNothing (s.finish p) := by
  unfold finish
  dsimp only
  cases hk : p.kind
  case toolBar | auiToolBar => exact Or.inl ⟨_, rfl, by simp [giveToFrame]⟩
  case splitterWindow => exact Or.inl ⟨_, rfl, addsNothing_split⟩
  case statusBar =>
    dsimp only
    split
    · next frame => exact Or.inr ⟨(Bool.and_eq_true_iff.1 frame).2, by simp [giveToFrame]⟩
    · exact Or.inl ⟨[], rfl, each_nil⟩
  all_goals first
    | exact Or.inl ⟨[], rfl, each_nil⟩
    | rw [hk] at h
      cases h

/-- A node in a sizer stands in no form directly. -/
theorem inSizer_of_isChildOfForm (hf : p.isChildOfForm = true) : p.inSizer = false := by
  unfold Place.isChildOfForm at hf
  unfold Place.inSizer
  obtain ⟨parent, hp, form⟩ := (Option.any_eq_true ..).1 hf
  rw [hp, Option.any_some]
  exact Bool.eq_false_iff.2 fun sizer => by
    simp only [Kind.isForm, Kind.isSizer, beq_iff_eq] at form sizer
    cases form.symm.trans sizer

/-- Nothing but being attached adds an object to a sizer in the end. -/
theorem layouts_finish (h : p.kind.isLaidOut = true) :
    layouts (s.finish p) = if p.inSizer then [p.element.givenLayout] else [] := by
  rcases finish_eq (s := s) h with ⟨own, heq, nothing⟩ | ⟨form, nothing⟩
  · rw [heq, layouts_append, layouts_eq_nil nothing, List.nil_append, layouts_attach]
  · rw [layouts_eq_nil nothing, inSizer_of_isChildOfForm form]
    rfl

/-- **The steps for a node in a sizer add its object to the sizer once, and tell it this.** -/
theorem layouts_steps (h : p.kind.isLaidOut = true) :
    layouts (s.createNode p ++ s.finish p) = if p.inSizer then [p.element.givenLayout] else [] := by
  rw [layouts_append, layouts_eq_nil (addsNothing_createNode h), List.nil_append, layouts_finish h]

end Site

/-! ## Traces -/

namespace Traced

/-- Whether the step is there for a node, which stands in a sizer. -/
def isForInSizer (n : Node) (x : Traced) : Bool :=
  match x.origin with
  | .node p => p.item.node == n && p.inSizer
  | .event _ | .menu _ => false

theorem exists_place_of_isForInSizer {n : Node} {x : Traced} (h : isForInSizer n x = true) :
    ∃ p, x.origin = .node p ∧ p.item.node = n ∧ p.inSizer = true := by
  unfold isForInSizer at h
  cases horigin : x.origin with
  | node p =>
    rw [horigin] at h
    obtain ⟨node, inSizer⟩ := Bool.and_eq_true_iff.1 h
    exact ⟨p, rfl, beq_iff_eq.1 node, inSizer⟩
  | event | menu =>
    rw [horigin] at h
    cases h

/-- What the steps for a node tell the sizers to which they add objects. -/
def layoutsFor (n : Node) (xs : List Traced) : List SizerLayout :=
  (stmtsFor n xs).filterMap SizerLayout.ofStmt?

theorem mem_layoutsFor {n : Node} {xs : List Traced} {g : SizerLayout} :
    g ∈ layoutsFor n xs ↔ ∃ x ∈ xs, isFor n x = true ∧ ∃ s, x.step = .stmt s ∧
      SizerLayout.ofStmt? s = some g := by
  constructor
  · intro hg
    obtain ⟨s, hs, hlayout⟩ := List.mem_filterMap.1 hg
    obtain ⟨x, hx, hstmt⟩ := List.mem_filterMap.1 hs
    obtain ⟨hmem, hfor⟩ := List.mem_filter.1 hx
    refine ⟨x, hmem, hfor, s, ?_, hlayout⟩
    cases h : x.step <;> rw [h] at hstmt <;> cases hstmt
    rfl
  · rintro ⟨x, hx, hfor, s, hstep, hlayout⟩
    refine List.mem_filterMap.2 ⟨s, List.mem_filterMap.2 ⟨x, List.mem_filter.2 ⟨hx, hfor⟩, ?_⟩,
      hlayout⟩
    rw [hstep]
    rfl

theorem layoutsFor_append (n : Node) (xs ys : List Traced) :
    layoutsFor n (xs ++ ys) = layoutsFor n xs ++ layoutsFor n ys := by
  rw [layoutsFor, stmtsFor_append, List.filterMap_append]
  rfl

theorem layoutsFor_mark {steps : List Step} (h : Step.Each Step.AddsNothing steps) (n : Node)
    (blocks : List String) (p : Place) : layoutsFor n (mark blocks (.node p) steps) = [] := by
  rw [layoutsFor, stmtsFor_mark]
  split
  · exact Step.layouts_eq_nil h
  · rfl

theorem origin_of_mem_mark {blocks : List String} {origin : Origin} {steps : List Step} {x : Traced}
    (h : x ∈ mark blocks origin steps) : x.origin = origin := by
  obtain ⟨leaf, -, rfl⟩ := List.mem_map.1 h
  rfl

end Traced

namespace Step

/-- Steps that open no blocks tell what their statements tell. -/
theorem mem_layouts {steps : List Step} (plain : Each (fun st => st.isPlain = true) steps)
    {g : SizerLayout} :
    g ∈ layouts steps ↔ ∃ s, .stmt s ∈ steps ∧ SizerLayout.ofStmt? s = some g := by
  rw [layouts, stmtsAll_eq_leavesAll [], leavesAll_of_plain plain, List.filterMap_map,
    List.mem_filterMap]
  constructor
  · rintro ⟨s, hs, hlayout⟩
    obtain ⟨st, hst, heq⟩ := List.mem_filterMap.1 hs
    cases st <;> cases heq
    exact ⟨s, hst, hlayout⟩
  · rintro ⟨s, hs, hlayout⟩
    exact ⟨s, List.mem_filterMap.2 ⟨_, hs, rfl⟩, hlayout⟩

end Step

namespace Site

variable {s : Site} {n : Node} {blocks : List String} {above before : List Item}
  {bs : List (Branch Item)}

theorem plain_steps {p : Place} (h : p.item.isMenuBuilder = false) :
    Step.Each (fun st => st.isPlain = true) (s.createNode p ++ s.finish p) :=
  (Step.each_append ..).2 ⟨plain_createNode h, plain_finish h⟩

/-- Construction tells the sizer around a node only what is given for it. -/
theorem eq_givenLayout_of_mem_traceAll (h : n.kind.isLaidOut = true) {g : SizerLayout}
    (hg : g ∈ Traced.layoutsFor n (s.traceAll blocks above before bs)) : g = n.givenLayout := by
  obtain ⟨x, hx, hfor, st, hstep, hlayout⟩ := Traced.mem_layoutsFor.1 hg
  obtain ⟨p, inner, -, hnode⟩ := fromNode_of_mem_traceAll hx
  obtain rfl : p.item.node = n := by
    rw [Traced.isFor, hnode.origin] at hfor
    exact beq_iff_eq.1 hfor
  cases hnode.stepOf with
  | visited _ _ hmem =>
    rw [hstep] at hmem
    have told := (Step.mem_layouts (plain_steps hnode.outside)).2 ⟨st, hmem, hlayout⟩
    rw [layouts_steps h] at told
    split at told
    · exact List.mem_singleton.1 told
    · cases told
  | remark _ _ hmem =>
    have nothing : Step.Each Step.AddsNothing (s.unsupported p.item) := by simp [unsupported]
    have none := nothing _ hmem st (by rw [hstep]; exact List.mem_cons_self)
    cases (SizerLayout.ofStmt?_of_addsObject none).symm.trans hlayout

/-- When construction comes to a node in a sizer, it adds its object to the sizer. -/
theorem givenLayout_mem_traceAll (h : n.kind.isLaidOut = true) {x : Traced}
    (hx : x ∈ s.traceAll blocks above before bs) {p : Place} (origin : x.origin = .node p)
    (node : p.item.node = n) (inSizer : p.inSizer = true) (supported : s.dialect.supports n.kind) :
    n.givenLayout ∈ Traced.layoutsFor n (s.traceAll blocks above before bs) := by
  subst node
  have creates : s.creates p.kind = true := by
    have construction : p.kind.hasConstruction = true := by
      unfold Kind.isLaidOut at h
      unfold Kind.hasConstruction
      rw [show p.item.node.kind = p.kind from rfl] at h
      revert h
      cases p.kind.category <;> decide
    exact Bool.and_eq_true_iff.2 ⟨supported, construction⟩
  have given : p.element.givenLayout ∈ Step.layouts (s.createNode p ++ s.finish p) := by
    rw [layouts_steps h, if_pos inSizer]
    exact List.mem_cons_self
  obtain ⟨st, hst, hlayout⟩ :=
    (Step.mem_layouts (plain_steps (not_isMenuBuilder_of_creates creates))).1 given
  obtain ⟨y, hy, yorigin, ystep⟩ := (stands_of_mem_traceAll hx origin).steps creates _ hst
  refine Traced.mem_layoutsFor.2 ⟨y, hy, ?_, st, ystep, hlayout⟩
  rw [Traced.isFor, yorigin]
  exact beq_self_eq_true _

end Site

namespace Form

open Step

variable {f : Form} {d : Dialect} {c : Collected} {xs : List Traced}

theorem isLaidOut_of_isForm {k : Kind} (h : k.isForm = true) : k.isLaidOut = false := by
  rw [Kind.isLaidOut, show k.category = .form from beq_iff_eq.1 h]

theorem addsNothing_formSettings {s : Site} (e : Element) :
    Each AddsNothing (s.formSettings e) := by
  unfold Site.formSettings
  dsimp only
  split <;> simp

theorem addsNothing_formFinish (e : Element) : Each AddsNothing (Site.formFinish e) := by
  have centre : Each AddsNothing (if e.text .center ≠ "" && e.text .center ≠ "no" then
      [.gap, Step.call .form "Centre" [.const (e.text .center)]] else []) := by
    split <;> simp
  unfold Site.formFinish
  split
  case h_3 | h_4 => exact centre
  all_goals simp

theorem not_node_of_mem_traceBindings {events : EventTables} {x : Traced}
    (h : x ∈ f.traceBindings events) (p : Place) : x.origin ≠ .node p := by
  intro origin
  rw [traceBindings, List.mem_append, List.mem_append] at h
  rcases h with (h | h) | h
  · obtain ⟨u, -, rfl⟩ := List.mem_map.1 h
    cases origin
  · obtain ⟨part, -, h⟩ := List.mem_flatMap.1 h
    obtain ⟨u, -, rfl⟩ := List.mem_map.1 h
    cases origin
  · obtain ⟨builder, -, hb⟩ := List.mem_filterMap.1 h
    obtain ⟨b, -, rfl⟩ := Option.map_eq_some_iff.1 hb
    cases origin

/-- The layouts of a trace are those of a part of it, which has all steps for nodes that are laid
out. -/
structure LaysOutIn (n : Node) (xs inner : List Traced) : Prop where
  layouts : Traced.layoutsFor n xs = Traced.layoutsFor n inner
  mem : ∀ x ∈ xs, ∀ p, x.origin = .node p → p.kind.isLaidOut = true → x ∈ inner

theorem laysOutIn_traceConstructor (form : f.node.kind.isForm = true) (n : Node) :
    LaysOutIn n (f.traceConstructor d c)
      ((f.site d c.images).traceAll [] f.path [] f.children) where
  layouts := by
    have bindings : Traced.layoutsFor n (f.traceBindings c.events) = [] := by
      rw [Traced.layoutsFor, stmtsFor_traceBindings]
      rfl
    rw [traceConstructor, trace, Traced.layoutsFor_append, Traced.layoutsFor_append,
      Traced.layoutsFor_append, Traced.layoutsFor_append, bindings,
      Traced.layoutsFor_mark (addsNothing_formSettings _),
      Traced.layoutsFor_mark (addsNothing_formFinish _), Traced.layoutsFor_mark (by simp),
      List.nil_append, List.append_nil, List.append_nil, List.append_nil]
  mem x hx p origin laidOut := by
    -- the other steps are there for the form or for events
    have other {steps : List Step} (h : x ∈ Traced.mark [] (.node f.place) steps) : False := by
      have self : f.place = p := Origin.node.inj ((Traced.origin_of_mem_mark h).symm.trans origin)
      rw [← self] at laidOut
      cases laidOut.symm.trans (isLaidOut_of_isForm form)
    rw [traceConstructor, trace] at hx
    simp only [List.mem_append] at hx
    rcases hx with (((hx | hx) | hx) | hx) | hx
    · exact (other hx).elim
    · exact hx
    · exact (other hx).elim
    · exact (other hx).elim
    · exact absurd origin (not_node_of_mem_traceBindings hx p)

theorem laysOutIn_traceMenu (above : List Item) {i : Item} (builder : i.isMenuBuilder = true)
    (cs : List (Branch Item)) (n : Node) :
    LaysOutIn n (f.traceMenu d c above (.mk i cs))
      ({ f.site d c.images with inMenu := true }.traceAll [] (i :: above) [] cs) where
  layouts := by
    have bindings : Traced.layoutsFor n ((menuEvents c.events i).map (f.traceEvent [])) = [] := by
      rw [Traced.layoutsFor, stmtsFor_traceEvent]
      rfl
    rw [traceMenu, Traced.layoutsFor_append, Traced.layoutsFor_append, bindings,
      Traced.layoutsFor_mark (by simp), List.nil_append, List.append_nil]
  mem x hx p origin laidOut := by
    rw [traceMenu] at hx
    simp only [List.mem_append] at hx
    rcases hx with (hx | hx) | hx
    · have self := Origin.node.inj ((Traced.origin_of_mem_mark hx).symm.trans origin)
      rw [← self, Place.kind, show i.kind = .contextMenuEvent from beq_iff_eq.1 builder] at laidOut
      cases laidOut
    · exact hx
    · obtain ⟨u, -, rfl⟩ := List.mem_map.1 hx
      cases origin

/-- A method adds objects to sizers only while it constructs what is below the form or below a
menu. -/
theorem exists_laysOutIn (form : f.node.kind.isForm = true) (hxs : xs ∈ f.traces d c) (n : Node) :
    ∃ (s : Site) (above : List Item) (bs : List (Branch Item)), s.dialect = d ∧
      LaysOutIn n xs (s.traceAll [] above [] bs) := by
  unfold traces at hxs
  rcases List.mem_cons.1 hxs with heq | hxs
  · rw [heq]
    exact ⟨_, _, _, rfl, laysOutIn_traceConstructor form n⟩
  · obtain ⟨⟨above, ⟨i, cs⟩⟩, hmenu, heq⟩ := List.mem_map.1 hxs
    rw [← heq]
    exact ⟨_, _, _, rfl, laysOutIn_traceMenu above (spot_mem_of_mem_menuBranchesIn hmenu).2 cs n⟩

/-- **A method that comes to a node in a sizer tells the sizer what is given for the node, and
nothing else.** -/
theorem mem_layoutsFor {n : Node} (h : n.kind.isLaidOut = true) (form : f.node.kind.isForm = true)
    (hxs : xs ∈ f.traces d c) (visit : xs.any (Traced.isForInSizer n) = true)
    (supported : d.supports n.kind = true) {g : SizerLayout} :
    g ∈ Traced.layoutsFor n xs ↔ g = n.givenLayout := by
  obtain ⟨x, hx, hfor⟩ := List.any_eq_true.1 visit
  obtain ⟨p, origin, node, inSizer⟩ := Traced.exists_place_of_isForInSizer hfor
  obtain ⟨s, above, bs, rfl, inside⟩ := exists_laysOutIn form hxs n
  have hx := inside.mem x hx p origin (by rw [Place.kind, Item.kind, node]; exact h)
  rw [inside.layouts]
  constructor
  · exact Site.eq_givenLayout_of_mem_traceAll h
  · rintro rfl
    exact Site.givenLayout_mem_traceAll h hx origin node inSizer supported

end Form

end FormDesign
