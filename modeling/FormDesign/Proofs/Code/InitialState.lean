import FormDesign.Proofs.Code.Pictures

/-!
# The initial states of controls

Some controls show a state from the start: whether they are checked, a number, a text or a
selection. The code gives it to them as an argument when they are created, or by a call right after.
Which property it comes from depends on the kind of the control.

* `InitialState.after`: what a statement makes of the state of the control in a variable
* `Element.givenState`: the state that the properties of a control give it
* `Site.settles_traceAll`: construction leaves the controls in these states
* `Form.settles_of_mem_traces`: so does every method of the generated class
-/

namespace FormDesign

/-- Kinds of controls that show a state from the start. -/
def Kind.hasInitialState : Kind → Bool
  | .checkBox | .check3State | .radioButton | .toggleButton | .spinCtrl | .slider | .gauge
  | .choice | .comboBox | .listBox => true
  | _ => false

theorem Kind.of_hasInitialState {k : Kind} :
    k.hasInitialState = true → k.category = .widget ∧ k ≠ .bookPage := by
  cases k <;> decide

/-- The constant for a box that is checked or not. -/
def checkState (on : Bool) : String :=
  if on then "wxCHK_CHECKED" else "wxCHK_UNCHECKED"

/-- What a control shows. What its kind does not have stays as it is here. -/
structure InitialState where
  /-- The constant for checked, unchecked or neither. -/
  check : String := checkState false
  number : Int := 0
  text : String := ""
  selection : Option Int := none
  deriving DecidableEq

namespace InitialState

/-! ## Statements -/

/-- A spin control shows the text that it is given. Without one it shows the number. -/
def ofSpin (value : String) (initial : Int) : InitialState :=
  if value = "" then { number := initial }
  else
    match number? value with
    | some n => { number := n }
    | none => { number := initial, text := value }

/-- The state of a control of a kind that is created with some arguments. -/
def created (k : Kind) (args : List Expr) : InitialState :=
  match k, args with
  | .spinCtrl, [_, _, .text value, _, _, _, _, _, .int initial] => ofSpin value initial
  | .slider, _ :: _ :: .int value :: _ => { number := value }
  | .comboBox, _ :: _ :: .text value :: _ => { text := value }
  | _, _ => {}

/-- The state after a method of the control is called. -/
def told (i : InitialState) (method : String) (args : List Expr) : InitialState :=
  match method, args with
  | "SetValue", [.bool on] => { i with check := checkState on }
  | "SetValue", [.int n] => { i with number := n }
  | "Set3StateValue", [.const state] => { i with check := state }
  | "SetSelection", [.int n] => { i with selection := some n }
  | _, _ => i

/-- The state of the control in a variable after a statement. -/
def after (k : Kind) (v : Var) (i : InitialState) : Stmt → InitialState
  | .create w _ args _ => if w = v then created k args else i
  | .call (.var w) method args => if w = v then i.told method args else i
  | _ => i

theorem told_of_not_mem {method : String}
    (h : method ∉ ["SetValue", "Set3StateValue", "SetSelection"]) (i : InitialState)
    (args : List Expr) : i.told method args = i := by
  unfold told
  split <;> simp_all

/-- Statements that create something in the variable leave it in the given state, and others leave
the control there as it is. -/
def Settles (k : Kind) (v : Var) (given : InitialState) (stmts : List Stmt) : Prop :=
  ∀ i, stmts.foldl (after k v) i = if v ∈ createdBy stmts then given else i

variable {k : Kind} {v : Var} {given : InitialState}

theorem settles_nil : Settles k v given [] :=
  fun _ => rfl

theorem Settles.append {xs ys : List Stmt} (hx : Settles k v given xs)
    (hy : Settles k v given ys) : Settles k v given (xs ++ ys) := by
  intro i
  have mem : v ∈ createdBy (xs ++ ys) ↔ v ∈ createdBy xs ∨ v ∈ createdBy ys := by
    rw [createdBy, List.filterMap_append, List.mem_append]
    rfl
  rw [List.foldl_append, hx, hy]
  by_cases h : v ∈ createdBy ys
  · rw [if_pos h, if_pos (mem.2 (Or.inr h))]
  · rw [if_neg h]
    exact if_congr (by rw [mem, or_iff_left h]) rfl rfl

end InitialState

/-! ## Steps that tell no state -/

namespace Step

open InitialState (Settles)

/-- The step creates nothing and tells no state to the control in the variable. -/
def IsSilent (v : Var) (st : Step) : Prop :=
  ∀ s ∈ st.stmts, s.creation? = none ∧ ∀ k i, InitialState.after k v i s = i

variable {k : Kind} {v : Var} {given : InitialState}

@[simp] theorem isSilent_gap : gap.IsSilent v :=
  nofun

@[simp] theorem isSilent_warn (text : String) : (warn text).IsSilent v :=
  nofun

@[simp] theorem isSilent_validate (control : Var) (validator : ValidatorVar) :
    (validate control validator).IsSilent v :=
  nofun

@[simp] theorem isSilent_comment (text : String) : (stmt (.comment text)).IsSilent v := by
  intro s hs
  rw [List.mem_singleton.1 hs]
  exact ⟨rfl, fun _ _ => rfl⟩

@[simp] theorem isSilent_call {method : String}
    (h : method ∉ ["SetValue", "Set3StateValue", "SetSelection"]) (target : Target)
    (args : List Expr) : (call target method args).IsSilent v := by
  intro s hs
  rw [List.mem_singleton.1 hs]
  refine ⟨rfl, fun k i => ?_⟩
  cases target with
  | form | result => rfl
  | var w =>
    show (if w = v then i.told method args else i) = i
    rw [InitialState.told_of_not_mem h, ite_self]

theorem isSilent_call_other {w : Var} (h : w ≠ v) (method : String) (args : List Expr) :
    (call (.var w) method args).IsSilent v := by
  intro s hs
  rw [List.mem_singleton.1 hs]
  exact ⟨rfl, fun _ _ => if_neg h⟩

theorem stmtsAll_append (xs ys : List Step) : stmtsAll (xs ++ ys) = stmtsAll xs ++ stmtsAll ys := by
  induction xs with
  | nil => rfl
  | cons x xs ih => rw [List.cons_append, stmtsAll, stmtsAll, ih, List.append_assoc]

theorem foldl_of_isSilent {steps : List Step} (h : Each (IsSilent v) steps) (i : InitialState) :
    (stmtsAll steps).foldl (InitialState.after k v) i = i ∧ createdBy (stmtsAll steps) = [] := by
  have silent : ∀ s ∈ stmtsAll steps,
      s.creation? = none ∧ ∀ k i, InitialState.after k v i s = i := by
    induction steps with
    | nil => exact nofun
    | cons st steps ih =>
      rw [each_cons] at h
      exact List.forall_mem_append.2 ⟨h.1, ih h.2⟩
  constructor
  · generalize stmtsAll steps = stmts at silent
    induction stmts with
    | nil => rfl
    | cons s stmts ih =>
      obtain ⟨hs, hstmts⟩ := List.forall_mem_cons.1 silent
      rw [List.foldl_cons, hs.2, ih hstmts]
  · refine List.filterMap_eq_nil_iff.2 fun s hs => ?_
    rw [(silent s hs).1]
    rfl

theorem settles_of_isSilent {steps : List Step} (h : Each (IsSilent v) steps) :
    Settles k v given (stmtsAll steps) := by
  intro i
  obtain ⟨same, none⟩ := foldl_of_isSilent (k := k) (v := v) h i
  rw [same, none, if_neg List.not_mem_nil]

end Step

namespace Site

open Step InitialState

variable {s : Site} {p : Place} {v : Var}

theorem isSilent_windowSettings : Each (IsSilent v) (s.windowSettings p) := by
  simp [windowSettings]

theorem isSilent_addPage : Each (IsSilent v) (s.addPage p) := by
  unfold addPage
  cases p.parent? with
  | none => simp
  | some parent => cases p.above.find? fun i => i.kind.isBook <;> simp

theorem isSilent_attach : Each (IsSilent v) (s.attach p) := by
  unfold attach
  cases p.parent? with
  | none => simp
  | some parent => simp [isSilent_addPage]

theorem isSilent_unsupported (i : Item) : Each (IsSilent v) (s.unsupported i) := by
  simp [unsupported]

theorem isSilent_formSettings (e : Element) : Each (IsSilent v) (s.formSettings e) := by
  unfold formSettings
  dsimp only
  split <;> simp

theorem isSilent_formFinish (e : Element) : Each (IsSilent v) (Site.formFinish e) := by
  have centre : Each (IsSilent v) (if e.text .center ≠ "" && e.text .center ≠ "no" then
      [.gap, Step.call .form "Centre" [.const (e.text .center)]] else []) := by
    split <;> simp
  unfold Site.formFinish
  split
  all_goals first | exact centre | simp

end Site

/-! ## The steps for a control -/

namespace Element

/-- The selection that the node asks for. -/
def selection? (e : Element) : Option Int :=
  if e.hasValue .selection && 0 ≤ e.int .selection then some (e.int .selection) else none

/-- The state that the properties of a control give it in the code. -/
def givenState (e : Element) : InitialState :=
  match e.kind with
  | .checkBox | .radioButton | .toggleButton => { check := checkState (e.flag .checked) }
  | .check3State =>
    { check := if e.text .initialState = "" then checkState false else e.text .initialState }
  | .spinCtrl => .ofSpin (e.text .value) (e.int .initial)
  | .slider => { number := e.int .value }
  | .gauge => { number := max 0 (e.int .value) }
  | .comboBox => { text := e.text .value, selection := e.selection? }
  | .choice | .listBox => { selection := e.selection? }
  | _ => {}

end Element

namespace Site

open Step InitialState

variable {s : Site} {p : Place}

theorem foldl_when {k : Kind} {v : Var} (c : Bool) (method : String) (args : List Expr)
    (i : InitialState) :
    (stmtsAll (when c (call (.var v) method args))).foldl (after k v) i
      = if c then i.told method args else i := by
  cases c with
  | false => rfl
  | true =>
    show (if v = v then i.told method args else i) = _
    rw [if_pos rfl, if_pos rfl]

/-- The state that a control has from its creation and from what only its kind is told. -/
theorem foldl_kindSettings (h : p.kind.hasInitialState = true) :
    (stmtsAll (s.kindSettings p)).foldl (after p.kind (s.var p.item)) (created p.kind (s.args p))
      = p.element.givenState := by
  have silent {steps : List Step} (h : Each (IsSilent (s.var p.item)) steps) (k : Kind)
      (i : InitialState) : (stmtsAll steps).foldl (after k (s.var p.item)) i = i :=
    (foldl_of_isSilent h i).1
  have bitmap : Each (IsSilent (s.var p.item)) ((s.bitmap? p.element .bitmap).map fun b =>
      call (.var (s.var p.item)) "SetBitmap" [b]).toList := by simp
  have choices : Each (IsSilent (s.var p.item))
      (when (p.element.style "" ≠ "")
          (call (.var (s.var p.item)) "SetWindowStyleFlag" [.const (p.element.style "")])
        ++ (choices (p.element.text .choices)).map fun item =>
          call (.var (s.var p.item)) "Append" [.text item]) := by simp
  unfold kindSettings args Element.givenState
  rw [show p.element.kind = p.kind from rfl]
  dsimp only
  cases hk : p.kind
  case checkBox | radioButton =>
    rw [foldl_when]
    cases p.element.flag .checked <;> rfl
  case toggleButton =>
    dsimp only
    rw [stmtsAll_append, List.foldl_append, foldl_when, silent bitmap]
    cases p.element.flag .checked <;> rfl
  case check3State =>
    dsimp only
    rw [foldl_when]
    by_cases empty : p.element.text .initialState = ""
    · rw [empty]
      rfl
    · by_cases unchecked : p.element.text .initialState = "wxCHK_UNCHECKED"
      · rw [unchecked]
        rfl
      · rw [if_neg empty, if_pos (by simp [empty, unchecked])]
        rfl
  case spinCtrl =>
    dsimp only
    rw [stmtsAll, List.foldl_nil, created]
    rfl
  case slider => rfl
  case gauge =>
    dsimp only
    rw [foldl_when]
    by_cases positive : 0 < p.element.int .value
    · rw [if_pos (by simpa using positive), Int.max_eq_right (Int.le_of_lt positive)]
      rfl
    · rw [if_neg (by simpa using positive), Int.max_eq_left (Int.not_lt.1 positive)]
      rfl
  case comboBox | choice | listBox =>
    dsimp only
    rw [stmtsAll_append, List.foldl_append, silent choices, foldl_when, Element.selection?]
    split <;> rfl
  all_goals
    rw [hk] at h
    exact absurd h (by decide)

/-- What is told to another control tells this one nothing. -/
theorem isSilent_kindSettings (h : p.kind.hasInitialState = true) {v : Var}
    (other : s.var p.item ≠ v) : Each (IsSilent v) (s.kindSettings p) := by
  unfold kindSettings
  cases hk : p.kind
  case checkBox | check3State | radioButton | toggleButton | spinCtrl | slider | gauge | choice
      | comboBox | listBox =>
    simp [isSilent_call_other other]
  all_goals
    rw [hk] at h
    cases h

/-- The steps that create a control leave it in the state that is given to it. -/
theorem settles_createNode (h : p.kind.hasInitialState = true) (v : Var) :
    Settles p.kind v p.element.givenState (stmtsAll (s.createNode p)) := by
  obtain ⟨category, page⟩ := Kind.of_hasInitialState h
  let create := Stmt.create (s.var p.item) (resolveClass s.dialect p.element).token (s.args p) none
  have stmts : stmtsAll (s.createNode p)
      = create :: (stmtsAll (s.windowSettings p) ++ stmtsAll (s.kindSettings p)) := by
    unfold createNode
    rw [category]
    show stmtsAll (s.createWindow p) = _
    rw [createWindow, if_neg page, List.append_nil, stmtsAll_append, stmtsAll_append, Site.create,
      stmtsAll_append]
    cases (resolveClass s.dialect p.element).warning <;> rfl
  rw [stmts]
  by_cases own : s.var p.item = v
  · -- what was there before the creation does not count
    subst own
    intro i
    have made : s.var p.item ∈ createdBy
        (create :: (stmtsAll (s.windowSettings p) ++ stmtsAll (s.kindSettings p))) :=
      List.mem_cons_self
    have first : after p.kind (s.var p.item) i create = .created p.kind (s.args p) := if_pos rfl
    rw [if_pos made, List.foldl_cons, first, List.foldl_append,
      (foldl_of_isSilent isSilent_windowSettings _).1, foldl_kindSettings h]
  · have first : Settles p.kind v p.element.givenState [create] := by
      intro i
      have none : v ∉ createdBy [create] := fun hv => own (List.mem_singleton.1 hv).symm
      rw [if_neg none]
      exact if_neg own
    exact first.append ((settles_of_isSilent isSilent_windowSettings).append
      (settles_of_isSilent (isSilent_kindSettings h own)))

/-- What is done with a control in the end tells it nothing. -/
theorem isSilent_finish (h : p.kind.hasInitialState = true) : Each (IsSilent v) (s.finish p) := by
  have attach : s.finish p = s.attach p := by
    unfold finish
    cases hk : p.kind
    case checkBox | check3State | radioButton | toggleButton | spinCtrl | slider | gauge | choice
      | comboBox | listBox => rfl
    all_goals
      rw [hk] at h
      cases h
  rw [attach]
  exact isSilent_attach

end Site

/-! ## Traces -/

namespace Traced

/-- Whether the step is there for a node. -/
def isFor (n : Node) (x : Traced) : Bool :=
  match x.origin with
  | .node p => p.item.node == n
  | .event _ | .menu _ => false

/-- The statements that are there for a node. -/
def stmtsFor (n : Node) (xs : List Traced) : List Stmt :=
  stmts (xs.filter (isFor n))

theorem stmtsFor_append (n : Node) (xs ys : List Traced) :
    stmtsFor n (xs ++ ys) = stmtsFor n xs ++ stmtsFor n ys := by
  rw [stmtsFor, List.filter_append, stmts, List.filterMap_append]
  rfl

theorem stmtsFor_eq_nil {n : Node} {xs : List Traced} (h : ∀ x ∈ xs, isFor n x = false) :
    stmtsFor n xs = [] := by
  rw [stmtsFor, List.filter_eq_nil_iff.2 fun x hx => Bool.eq_false_iff.1 (h x hx)]
  rfl

theorem stmtsFor_mark (n : Node) (blocks : List String) (p : Place) (steps : List Step) :
    stmtsFor n (mark blocks (.node p) steps)
      = if p.item.node = n then Step.stmtsAll steps else [] := by
  have same : ∀ x ∈ mark blocks (.node p) steps, isFor n x = true ↔ p.item.node = n := by
    intro x hx
    obtain ⟨leaf, -, rfl⟩ := List.mem_map.1 hx
    exact beq_iff_eq
  have all : stmts (mark blocks (.node p) steps) = Step.stmtsAll steps := by
    rw [Step.stmtsAll_eq_leavesAll blocks, stmts, mark, List.filterMap_map]
    rfl
  split
  · next h => rw [stmtsFor, List.filter_eq_self.2 fun x hx => (same x hx).2 h, all]
  · next h => exact stmtsFor_eq_nil fun x hx => Bool.eq_false_iff.2 (mt (same x hx).1 h)

end Traced

namespace Site

open InitialState (Settles settles_nil)

variable {s : Site} {n : Node} {v : Var} {p : Place}

theorem settles_mark {given : InitialState} {blocks : List String} {steps : List Step}
    (h : p.item.node = n → Settles n.kind v given (Step.stmtsAll steps)) :
    Settles n.kind v given (Traced.stmtsFor n (Traced.mark blocks (.node p) steps)) := by
  rw [Traced.stmtsFor_mark]
  split
  · next heq => exact h heq
  · exact settles_nil

mutual

theorem settles_traceNode (h : n.kind.hasInitialState = true) (v : Var) (blocks : List String)
    (above before : List Item) (b : Branch Item) :
    Settles n.kind v n.givenState (Traced.stmtsFor n (s.traceNode blocks above before b)) := by
  cases b with
  | mk i cs =>
    unfold traceNode
    dsimp only
    split
    · exact settles_nil
    · split
      · -- a control is created before its children and finished after them
        rw [Traced.stmtsFor_append, Traced.stmtsFor_append]
        refine .append (.append (settles_mark ?_) (settles_traceAll h v _ (i :: above) [] cs))
          (settles_mark ?_)
        · rintro rfl
          exact settles_createNode h v
        · rintro rfl
          exact Step.settles_of_isSilent (isSilent_finish h)
      · exact settles_mark fun _ => Step.settles_of_isSilent (isSilent_unsupported i)

theorem settles_traceAll (h : n.kind.hasInitialState = true) (v : Var) (blocks : List String)
    (above before : List Item) (bs : List (Branch Item)) :
    Settles n.kind v n.givenState (Traced.stmtsFor n (s.traceAll blocks above before bs)) := by
  cases bs with
  | nil => exact settles_nil
  | cons b bs =>
    unfold traceAll
    rw [Traced.stmtsFor_append]
    exact (settles_traceNode h v blocks above before b).append
      (settles_traceAll h v blocks above (b.label :: before) bs)

end

end Site

namespace Form

open InitialState (Settles)

variable {f : Form} {d : Dialect} {c : Collected}

/-- The traces of the constructor and of the handlers of the context menus. -/
def traces (f : Form) (d : Dialect) (c : Collected) : List (List Traced) :=
  f.traceConstructor d c :: f.menuBranches.map fun (above, b) => f.traceMenu d c above b

/-- These are the traces of the methods. -/
theorem leavesAll_methods (f : Form) (d : Dialect) (c : Collected) :
    (f.methods d c).map (Step.leavesAll []) = (f.traces d c).map (List.map Traced.erase) := by
  rw [methods, traces, List.map_cons, List.map_cons, leavesAll_constructorSteps, List.map_map,
    List.map_map]
  congr 1
  exact List.map_congr_left fun menu _ => leavesAll_menuSteps f d c menu.1 menu.2

theorem stmtsFor_traceEvent (n : Node) (blocks : List String) (uses : List EventUse) :
    Traced.stmtsFor n (uses.map (f.traceEvent blocks)) = [] := by
  refine Traced.stmtsFor_eq_nil fun x hx => ?_
  obtain ⟨u, -, rfl⟩ := List.mem_map.1 hx
  rfl

/-- Bindings are there for events. -/
theorem stmtsFor_traceBindings (n : Node) (events : EventTables) :
    Traced.stmtsFor n (f.traceBindings events) = [] := by
  refine Traced.stmtsFor_eq_nil fun x hx => ?_
  rw [traceBindings, List.mem_append, List.mem_append] at hx
  rcases hx with (hx | hx) | hx
  · obtain ⟨u, -, rfl⟩ := List.mem_map.1 hx
    rfl
  · obtain ⟨part, -, hx⟩ := List.mem_flatMap.1 hx
    obtain ⟨u, -, rfl⟩ := List.mem_map.1 hx
    rfl
  · obtain ⟨builder, -, hb⟩ := List.mem_filterMap.1 hx
    obtain ⟨b, -, rfl⟩ := Option.map_eq_some_iff.1 hb
    rfl

theorem settles_traceConstructor {n : Node} (h : n.kind.hasInitialState = true) (v : Var) :
    Settles n.kind v n.givenState (Traced.stmtsFor n (f.traceConstructor d c)) := by
  have silent {steps : List Step} (h : Step.Each (Step.IsSilent v) steps) :
      Settles n.kind v n.givenState
        (Traced.stmtsFor n (Traced.mark [] (.node f.place) steps)) :=
    Site.settles_mark fun _ => Step.settles_of_isSilent h
  have settings := silent ((f.site d c.images).isSilent_formSettings f.element)
  have finish := silent (Site.isSilent_formFinish f.element)
  have gap : Settles n.kind v n.givenState
      (Traced.stmtsFor n (Traced.mark [] (.node f.place) [.gap])) := silent (by simp)
  have below := (f.site d c.images).settles_traceAll h v [] f.path [] f.children
  rw [traceConstructor, Traced.stmtsFor_append, Traced.stmtsFor_append, stmtsFor_traceBindings,
    List.append_nil, trace, Traced.stmtsFor_append, Traced.stmtsFor_append]
  exact ((settings.append below).append finish).append gap

theorem settles_traceMenu {n : Node} (h : n.kind.hasInitialState = true) (v : Var)
    (above : List Item) {b : Branch Item} (builder : b.label.isMenuBuilder = true) :
    Settles n.kind v n.givenState (Traced.stmtsFor n (f.traceMenu d c above b)) := by
  obtain ⟨i, cs⟩ := b
  have other : i.node ≠ n := by
    rintro rfl
    rw [show i.node.kind = .contextMenuEvent from beq_iff_eq.1 builder] at h
    cases h
  unfold traceMenu
  dsimp only
  rw [Traced.stmtsFor_append, Traced.stmtsFor_append, stmtsFor_traceEvent, List.append_nil,
    Traced.stmtsFor_mark, if_neg other]
  exact Site.settles_traceAll h v [] (i :: above) [] cs

/-- Every method leaves the controls that it creates in the states that are given to them. -/
theorem settles_of_mem_traces {n : Node} (h : n.kind.hasInitialState = true) (v : Var)
    {xs : List Traced} (hxs : xs ∈ f.traces d c) :
    Settles n.kind v n.givenState (Traced.stmtsFor n xs) := by
  unfold traces at hxs
  rcases List.mem_cons.1 hxs with heq | hxs
  · rw [heq]
    exact settles_traceConstructor h v
  · obtain ⟨menu, hmenu, heq⟩ := List.mem_map.1 hxs
    rw [← heq]
    exact settles_traceMenu h v menu.1 (spot_mem_of_mem_menuBranchesIn hmenu).2

end Form

end FormDesign
