import FormDesign.Proofs.Code.Trace

/-!
# What the steps of a node create and refer to

Every node that is visited takes some steps before what is below it and some after. This file says
of both which variable they create an object in and which variables they refer to.

* `Site.object?`: the variable and the class of the object that a node creates, if any
* `Site.makes_createNode`: the first steps of a node create exactly that object, and refer only to
  its variable and to variables that are known
* `Site.uses_finish`: the last steps create nothing and refer only to variables that are known

Some references are to nodes that create nothing. `Site.strays` lists them by the kinds of the nodes
around; all other references are known by what was created before (`Site.Ready`).
-/

namespace FormDesign

/-! ## Variables in expressions -/

mutual

/-- The variables in an expression. -/
@[simp] def Expr.vars : Expr → List Var
  | .var v => [v]
  | .new _ _ args => Expr.varsAll args
  | .call target _ args => target.vars ++ Expr.varsAll args
  | .self | .text _ | .int _ | .bool _ | .const _ | .id _ | .size .. | .point .. | .bitmap _
  | .animation _ | .raw _ | .null => []

/-- The variables in the target of a call. -/
@[simp] def Target.vars : Target → List Var
  | .form => []
  | .var v => [v]
  | .result e => e.vars

/-- The variables in several expressions. -/
@[simp] def Expr.varsAll : List Expr → List Var
  | [] => []
  | e :: rest => e.vars ++ Expr.varsAll rest

end

@[simp] theorem Expr.vars_sizeOf (width height : Int) : (Expr.sizeOf width height).vars = [] := by
  unfold sizeOf
  split <;> rfl

theorem Expr.mem_varsAll {v : Var} {args : List Expr} :
    v ∈ Expr.varsAll args ↔ ∃ e ∈ args, v ∈ e.vars := by
  induction args with
  | nil => simp
  | cons e args ih => simp [ih]

theorem Expr.varsAll_append (xs ys : List Expr) :
    Expr.varsAll (xs ++ ys) = Expr.varsAll xs ++ Expr.varsAll ys := by
  induction xs with
  | nil => rfl
  | cons x xs ih => simp [ih]

/-- The variables that a statement refers to, besides the one it creates. -/
def Stmt.mentions : Stmt → List Var
  | .create _ _ args _ => Expr.varsAll args
  | .call target _ args => target.vars ++ Expr.varsAll args
  | .comment _ => []

/-- The variable that a statement creates, with the class of the object. -/
def Stmt.creation? : Stmt → Option (Var × String)
  | .create v className _ _ => some (v, className)
  | .call .. | .comment _ => none

namespace Step

/-- The variables that a step refers to. -/
def mentions : Step → List Var
  | .stmt s => s.mentions
  | _ => []

/-- The variable that a step creates, with the class of the object. -/
def creation? : Step → Option (Var × String)
  | .stmt s => s.creation?
  | _ => none

/-- A step of construction that creates nothing and refers to known variables only. -/
structure Uses (known : Var → Prop) (s : Step) : Prop where
  plain : s.isPlain = true
  creates_none : s.creation? = none
  known : ∀ v ∈ s.mentions, known v

variable {known more : Var → Prop}

theorem Uses.imp {s : Step} (h : s.Uses known) (hk : ∀ v, known v → more v) : s.Uses more :=
  ⟨h.plain, h.creates_none, fun v hv => hk v (h.known v hv)⟩

@[simp] theorem uses_call (target : Target) (method : String) (args : List Expr) :
    (call target method args).Uses known ↔
      (∀ v ∈ target.vars, known v) ∧ ∀ v ∈ Expr.varsAll args, known v := by
  constructor
  · intro h
    exact ⟨fun v hv => h.known v (by simp [call, mentions, Stmt.mentions, hv]),
      fun v hv => h.known v (by simp [call, mentions, Stmt.mentions, hv])⟩
  · rintro ⟨ht, ha⟩
    refine ⟨rfl, rfl, fun v hv => ?_⟩
    rcases List.mem_append.1 hv with hv | hv
    · exact ht v hv
    · exact ha v hv

@[simp] theorem uses_gap : gap.Uses known := ⟨rfl, rfl, by simp [mentions]⟩

@[simp] theorem uses_warn (text : String) : (warn text).Uses known := ⟨rfl, rfl, by simp [mentions]⟩

@[simp] theorem uses_comment (text : String) : (stmt (.comment text)).Uses known :=
  ⟨rfl, rfl, by simp [mentions, Stmt.mentions]⟩

@[simp] theorem uses_validate (control : Var) (v : ValidatorVar) :
    (validate control v).Uses known := ⟨rfl, rfl, by simp [mentions]⟩

end Step

/-! ## Objects -/

namespace Kind

/-- Kinds that menus and their items are appended to. -/
def holdsMenus : Kind → Bool
  | .menuBarForm | .menuBar | .menu | .subMenu | .contextMenuEvent | .toolDropdown => true
  | _ => false

/-- Kinds that tools are added to. -/
def holdsTools : Kind → Bool
  | .toolBarForm | .toolBar | .auiToolBar | .ribbonButtonBar => true
  | _ => false

end Kind

namespace Site

variable (s : Site)

theorem name_var (i : Item) : (s.var i).name = i.name := by
  unfold var
  split <;> rfl

/-- Whether a node that is visited keeps an object in its own variable. -/
def keeps (i : Item) (above : List Item) : Bool :=
  match i.kind.category with
  | .spacer | .tool | .contextMenu => false
  | .menuItem => i.kind != .separator && above.head?.any fun a => a.kind.holdsMenus
  | _ => true

/-- Whether a tool has a menu for what is below it. -/
def hasMenu (i : Item) (above : List Item) : Bool :=
  i.kind == .toolDropdown && above.head?.any fun a => a.kind.holdsTools

/-- The variable and the class of the object that is created for a node, given whether it is a leaf
of the tree. The handler of a context menu creates the menu for its builder. -/
def object? (i : Item) (above : List Item) (leaf : Bool) : Option (Var × String) :=
  if keeps i above then some (s.var i, (resolveClass s.dialect i.element).token)
  else if hasMenu i above && !leaf then
    some (dropdownVar i, s.dialect.classToken "wxMenu" .core)
  else if i.isMenuBuilder then some (contextMenuVar, s.dialect.classToken "wxMenu" .core)
  else none

/-- The variables of all objects above a node are known, up to the form. -/
def Ready (known : Var → Prop) : List Item → Prop
  | [] => True
  | i :: above =>
    i.kind.isForm = true ∨ (∀ c ∈ s.object? i above false, known c.1) ∧ Ready known above

/-! ## Strays -/

/-- Whether siblings of a node find an object in its variable. -/
def builds (i : Item) (above : List Item) : Bool :=
  s.creates i.kind && keeps i above

/-- The menu of a tool that the node is appended to, though the tool has none. -/
def strayMenu (p : Place) : List Var :=
  match p.above with
  | [] => []
  | i :: above =>
    if (p.kind.category = .menu || p.kind.category = .menuItem) && i.kind == .toolDropdown
        && !hasMenu i above then
      [dropdownVar i]
    else []

/-- The book around the form that a page below another page is added to, when there is none inside
of the form. -/
def strayBook (p : Place) : List Var :=
  if p.kind = .bookPage && (p.parent?.any fun i => i.kind == .bookPage)
      && !(p.above.takeWhile fun i => !i.kind.isForm).any fun i => i.kind.isBook then
    (p.above.find? fun i => i.kind.isBook).toList.map s.var
  else []

/-- The windows that a splitter divides though they were not created. -/
def strayPanes (p : Place) : List Var :=
  if p.kind = .splitterWindow then
    (((panes p).take 2).filter fun i => !s.builds i (p.item :: p.above)).map s.var
  else []

/-- The node that is given a sizer though it has no object. -/
def strayOwner (p : Place) : List Var :=
  match p.above with
  | [] => []
  | i :: above => if p.kind.isSizer && !keeps i above then [s.var i] else []

/-- The variables that the steps of a node refer to though no object was created for the node that
they belong to. -/
def strays (p : Place) : List Var :=
  strayMenu p ++ s.strayBook p ++ s.strayPanes p ++ s.strayOwner p

/-! ## What is around a node -/

variable {s} {known : Var → Prop} {p : Place}

theorem Ready.imp {more : Var → Prop} {above : List Item} (h : s.Ready known above)
    (hk : ∀ v, known v → more v) : s.Ready more above := by
  induction above with
  | nil => trivial
  | cons i above ih =>
    rcases h with hf | ⟨ho, ha⟩
    · exact Or.inl hf
    · exact Or.inr ⟨fun c hc => hk _ (ho c hc), ih ha⟩

/-- What keeps an object above a node is known. -/
theorem Ready.known_var {i : Item} {above : List Item} (h : s.Ready known (i :: above))
    (hf : i.kind.isForm = false) (hk : keeps i above = true) : known (s.var i) := by
  rcases h with hf' | ⟨ho, -⟩
  · simp [hf] at hf'
  · exact ho (s.var i, (resolveClass s.dialect i.element).token) (by simp [object?, hk])

theorem Ready.tail {i : Item} {above : List Item} (h : s.Ready known (i :: above))
    (hf : i.kind.isForm = false) : s.Ready known above := by
  rcases h with hf' | ⟨-, ha⟩
  · simp [hf] at hf'
  · exact ha

theorem above_of_parent? {i : Item} (h : p.parent? = some i) : ∃ above, p.above = i :: above := by
  simpa [Place.parent?, List.head?_eq_some_iff] using h

theorem ready_true (above : List Item) : s.Ready (fun _ => True) above := by
  induction above with
  | nil => trivial
  | cons i above ih => exact Or.inr ⟨fun _ _ => trivial, ih⟩

theorem keeps_of_isContainer {i : Item} {above : List Item} (h : i.kind.isContainer = true) :
    keeps i above = true := by
  unfold Kind.isContainer at h
  unfold keeps
  split at h <;> simp_all

theorem category_ne_contextMenu {i : Item} (h : i.isMenuBuilder = false) :
    i.kind.category ≠ .contextMenu := by
  unfold Item.isMenuBuilder at h
  cases hk : i.kind <;> simp_all [Kind.category]

/-- An object of a node that is no tool is kept in the variable of the node. -/
theorem keeps_of_object {i : Item} {above : List Item} {leaf : Bool} {c : Var × String}
    (hm : i.isMenuBuilder = false) (ht : i.kind.category ≠ .tool)
    (h : s.object? i above leaf = some c) : keeps i above = true := by
  have hd : hasMenu i above = false := by
    rw [Bool.eq_false_iff]
    intro hd
    simp only [hasMenu, Bool.and_eq_true, beq_iff_eq] at hd
    simp [hd.1, Kind.category] at ht
  by_cases hk : keeps i above = true
  · exact hk
  · simp [object?, hk, hd, hm] at h

/-- A node that is visited opens no context menu. -/
theorem not_isMenuBuilder_of_creates {i : Item} (h : s.creates i.kind = true) :
    i.isMenuBuilder = false := by
  unfold Item.isMenuBuilder
  rw [beq_eq_false_iff_ne]
  intro hk
  simp [creates, Kind.hasConstruction, hk, Kind.category] at h

theorem keeps_of_category {i : Item} {above : List Item} (hs : i.kind.category ≠ .spacer)
    (ht : i.kind.category ≠ .tool) (hc : i.kind.category ≠ .contextMenu)
    (hi : i.kind.category ≠ .menuItem) : keeps i above = true := by
  unfold keeps
  split <;> first | rfl | contradiction

theorem keeps_of_isSizer {i : Item} {above : List Item} (h : i.kind.isSizer = true) :
    keeps i above = true := by
  unfold Kind.isSizer at h
  unfold keeps
  simp_all

theorem keeps_of_isBook {i : Item} {above : List Item} (h : i.kind.isBook = true) :
    keeps i above = true :=
  keeps_of_isContainer (by
    unfold Kind.isBook at h
    unfold Kind.isContainer
    simp_all)

theorem vars_bookWindow {above : List Item} (h : s.Ready known above) :
    ∀ v ∈ (s.bookWindow above).vars, known v := by
  induction above with
  | nil => simp [bookWindow]
  | cons i above ih =>
    unfold bookWindow
    split
    · simp
    · next hf =>
      have hf : i.kind.isForm = false := by simpa using hf
      split
      · next hb => simpa using h.known_var hf (keeps_of_isBook hb)
      · exact ih (h.tail hf)

theorem vars_controlWindow {above : List Item} (h : s.Ready known above) :
    ∀ v ∈ (s.controlWindow above).vars, known v := by
  induction above with
  | nil => simp [controlWindow]
  | cons i above ih =>
    unfold controlWindow
    split
    · simp
    · next hf =>
      have hf : i.kind.isForm = false := by simpa using hf
      split
      · next hk => simpa using h.known_var hf (by simp [keeps, hk, Kind.category])
      · next hk => simpa using h.known_var hf (by simp [keeps, hk, Kind.category])
      · next hk => simpa using h.known_var hf (by simp [keeps, hk, Kind.category])
      · next hk => simpa using h.known_var hf (by simp [keeps, hk, Kind.category])
      · split
        · next hc => simpa using h.known_var hf (keeps_of_isContainer hc)
        · exact ih (h.tail hf)

/-- The window of a node is known. -/
theorem vars_window (h : s.Ready known p.above) : ∀ v ∈ (s.window p).vars, known v := by
  unfold window
  split
  · exact vars_bookWindow h
  · exact vars_controlWindow h

/-! ## Arguments -/

theorem vars_pointArg (text : String) : (Element.pointArg text).vars = [] := by
  unfold Element.pointArg
  split <;> rfl

theorem vars_sizeArg (text : String) : (Element.sizeArg text).vars = [] := by
  unfold Element.sizeArg
  split
  · exact Expr.vars_sizeOf _ _
  · rfl

theorem vars_upToLastGiven {args : List (Expr × Bool)} (h : ∀ a ∈ args, a.1.vars = []) :
    Expr.varsAll (Element.upToLastGiven args) = [] := by
  rw [List.eq_nil_iff_forall_not_mem]
  intro v hv
  obtain ⟨e, he, hv⟩ := Expr.mem_varsAll.1 hv
  obtain ⟨a, ha, rfl⟩ := List.mem_map.1 he
  have ha := (List.dropWhile_sublist _).subset (List.mem_reverse.1 ha)
  simp [h a (List.mem_reverse.1 ha)] at hv

/-- Position, size and style refer to nothing. -/
theorem vars_placementArgs (e : Element) (implied : String) :
    Expr.varsAll (e.placementArgs implied) = [] := by
  unfold Element.placementArgs
  refine vars_upToLastGiven ?_
  simp [vars_pointArg, vars_sizeArg]

/-- A control is created in its window, and its own arguments come to it besides. -/
theorem vars_windowArgs (own : List Expr) (implied : String) :
    Expr.varsAll (s.windowArgs p own implied) = (s.window p).vars ++ Expr.varsAll own := by
  simp [windowArgs, Element.idArg, Expr.varsAll_append, vars_placementArgs]

theorem vars_bitmap {e : Element} {q : Property} {default : Expr} (h : default.vars = []) :
    ((s.bitmap? e q).getD default).vars = [] := by
  cases hb : s.image? e q <;> simp [bitmap?, hb, h]

/-- The only variable in the arguments of a control is that of its window. -/
theorem vars_args : ∀ v ∈ Expr.varsAll (s.args p), v ∈ (s.window p).vars := by
  have bitmap : ((s.bitmap? p.element .bitmap).getD (.const "wxNullBitmap")).vars = [] :=
    vars_bitmap rfl
  have animation : ((s.animation? p.element).getD (.const "wxNullAnimation")).vars = [] := by
    cases h : s.image? p.element .animation <;> simp [animation?, h]
  have first {n : Nat} {args : List Expr} {v : Var} (hv : v ∈ Expr.varsAll (args.take n)) :
      v ∈ Expr.varsAll args := by
    obtain ⟨e, he, hv⟩ := Expr.mem_varsAll.1 hv
    exact Expr.mem_varsAll.2 ⟨e, List.mem_of_mem_take he, hv⟩
  intro v hv
  unfold args at hv
  dsimp only at hv
  split at hv
  -- a combo box, a choice and a list box keep only the first of the usual arguments
  case h_10 | h_11 | h_12 =>
    have hv := first hv
    simpa only [vars_windowArgs, Expr.varsAll, Expr.vars, List.append_nil] using hv
  case h_20 | h_25 =>
    split at hv <;>
      simp [Element.idArg] at hv <;> exact hv
  all_goals
    simpa only [vars_windowArgs, Expr.varsAll, Expr.vars, bitmap, animation, Element.idArg,
      vars_pointArg, vars_sizeArg, List.append_nil] using hv

theorem vars_sizerArgs : ∀ v ∈ Expr.varsAll (s.sizerArgs p), v ∈ (s.window p).vars := by
  intro v hv
  unfold sizerArgs at hv
  split at hv <;> simp_all

/-! ## Steps that create nothing -/

open Step

theorem uses_windowSettings (own : known (s.var p.item)) :
    Each (Uses known) (s.windowSettings p) := by
  simp [windowSettings, own]

/-- A wizard page is linked to the page before it, which was created unless the language has no
wizard pages at all. -/
theorem uses_chainPage (own : known (s.var p.item))
    (front : ∀ i ∈ p.before, i.kind = .wizardPage → known (s.var i)) :
    Each (Uses known) (s.chainPage p) := by
  unfold chainPage
  dsimp only
  split
  · exact each_nil
  · split
    · next previous h =>
      have hk : previous.kind = .wizardPage := by simpa using List.find?_some h
      simp [own, front previous (List.mem_of_find?_eq_some h) hk]
    · simp [own]

theorem uses_kindSettings (own : known (s.var p.item))
    (front : p.kind = .wizardPage → ∀ i ∈ p.before, i.kind = .wizardPage → known (s.var i)) :
    Each (Uses known) (s.kindSettings p) := by
  have setBitmap : Each (Uses known)
      ((s.bitmap? p.element .bitmap).map fun b =>
        call (.var (s.var p.item)) "SetBitmap" [b]).toList := by
    cases h : s.image? p.element .bitmap <;> simp [bitmap?, h, own]
  unfold kindSettings
  dsimp only
  split
  case h_14 hk => exact uses_chainPage own (front hk)
  all_goals simp [own, setBitmap]

/-- A book above a node is known, unless it stands above the form. -/
theorem known_book {above : List Item} (h : s.Ready known above) {book : Item}
    (hb : above.find? (fun i => i.kind.isBook) = some book) :
    known (s.var book) ∨
      ((above.takeWhile fun i => !i.kind.isForm).any fun i => i.kind.isBook) = false := by
  induction above with
  | nil => simp at hb
  | cons i above ih =>
    by_cases hf : i.kind.isForm = true
    · exact Or.inr (by simp [hf])
    · have hf : i.kind.isForm = false := by simpa using hf
      by_cases hi : i.kind.isBook = true
      · obtain rfl : i = book := by simpa [List.find?_cons, hi] using hb
        exact Or.inl (h.known_var hf (keeps_of_isBook hi))
      · have hi : i.kind.isBook = false := by simpa using hi
        have hb : above.find? (fun i => i.kind.isBook) = some book := by
          simpa [List.find?_cons, hi] using hb
        simpa [hf, hi] using ih (h.tail hf) hb

theorem uses_addPage (h : s.Ready known p.above) (own : known (s.var p.item))
    (stray : ∀ v ∈ s.strays p, known v) : Each (Uses known) (s.addPage p) := by
  unfold addPage
  dsimp only
  split
  · exact each_nil
  · next parent hp =>
    split
    · next hk =>
      split
      · next book hb =>
        have hb : known (s.var book) := by
          rcases known_book h hb with hb | hn
          · exact hb
          · refine stray _ ?_
            simp only [Bool.and_eq_true, decide_eq_true_eq] at hk
            simp [strays, strayBook, hk.1, hp, hk.2, hn, hb]
        simp [own, hb]
      · exact each_nil
    · split
      · next hi =>
        have hf : parent.kind.isForm = false := by
          unfold Kind.isBook at hi
          unfold Kind.isForm
          simp_all
        obtain ⟨above, ha⟩ := above_of_parent? hp
        have hb : known (s.var parent) := (ha ▸ h).known_var hf (keeps_of_isBook hi)
        split <;> simp [own, hb]
      · exact each_nil

theorem uses_attach (h : s.Ready known p.above) (own : known (s.var p.item))
    (stray : ∀ v ∈ s.strays p, known v) : Each (Uses known) (s.attach p) := by
  unfold attach
  dsimp only
  split
  · exact each_nil
  · next parent hp =>
    obtain ⟨above, ha⟩ := above_of_parent? hp
    rw [ha] at h
    split
    · next hk =>
      have hf : parent.kind.isForm = false := by
        unfold Kind.isSizer at hk
        unfold Kind.isForm
        simp_all
      have hb : known (s.var parent) := h.known_var hf (keeps_of_isSizer hk)
      simp [own, hb, apply_ite Expr.vars]
    · split
      · next hs =>
        by_cases hf : parent.kind.isForm = true
        · simp [own, hf]
        · have hf : parent.kind.isForm = false := by simpa using hf
          have hb : known (s.var parent) := by
            by_cases hk : keeps parent above = true
            · exact h.known_var hf hk
            · exact stray _ (by simp [strays, strayOwner, ha, hs, hk])
          rw [if_neg (by simp [hf])]
          split <;> simp [own, hb]
      · exact uses_addPage (ha ▸ h) own stray

/-- The panes of a splitter are known where they were created. -/
theorem uses_split (own : known (s.var p.item)) (hs : p.kind = .splitterWindow)
    (below : ∀ i ∈ p.children, s.builds i (p.item :: p.above) = true → known (s.var i))
    (stray : ∀ v ∈ s.strays p, known v) : Each (Uses known) (s.split p) := by
  have pane : ∀ i ∈ (panes p).take 2, known (s.var i) := by
    intro i hi
    by_cases hb : s.builds i (p.item :: p.above) = true
    · exact below i (List.mem_filter.1 (List.mem_of_mem_take hi)).1 hb
    · refine stray _ ?_
      have : s.var i ∈ s.strayPanes p := by
        simp only [strayPanes, hs, if_true]
        exact List.mem_map.2 ⟨i, List.mem_filter.2 ⟨hi, by simpa using hb⟩, rfl⟩
      simp [strays, this]
  unfold split
  dsimp only
  split
  · exact each_nil
  · next only h => simp [own, pane only (by simp [h])]
  · next first second rest h =>
    have hf := pane first (by simp [h])
    have hg := pane second (by simp [h])
    simp [own, hf, hg, apply_ite Expr.varsAll]

/-- The menu that a node is appended to is known, unless it is that of a tool without a menu. -/
theorem vars_menuParent (h : s.Ready known p.above)
    (hp : p.kind.category = .menu ∨ p.kind.category = .menuItem)
    (stray : ∀ v ∈ s.strays p, known v) :
    ∀ target ∈ s.menuParent? p, ∀ v ∈ target.vars, known v := by
  intro target ht v hv
  obtain ⟨i, hi, ht⟩ := Option.bind_eq_some_iff.1 ht
  obtain ⟨above, ha⟩ := above_of_parent? hi
  rw [ha] at h
  split at ht <;> simp only [Option.some.injEq, reduceCtorEq] at ht <;> subst ht <;>
    simp only [Target.vars, List.mem_singleton, List.not_mem_nil] at hv
  case h_2 hk | h_3 hk | h_4 hk =>
    subst hv
    exact h.known_var (by simp [hk, Kind.isForm, Kind.category])
      (by simp [keeps, hk, Kind.category])
  case h_5 hk =>
    subst hv
    rcases h with hf | ⟨ho, -⟩
    · simp [hk, Kind.isForm, Kind.category] at hf
    · exact ho (contextMenuVar, s.dialect.classToken "wxMenu" .core)
        (by simp [object?, keeps, hasMenu, Item.isMenuBuilder, hk, Kind.category])
  case h_6 hk =>
    subst hv
    by_cases hm : hasMenu i above = true
    · rcases h with hf | ⟨ho, -⟩
      · simp [hk, Kind.isForm, Kind.category] at hf
      · exact ho (dropdownVar i, s.dialect.classToken "wxMenu" .core)
          (by simp [object?, keeps, hm, hk, Kind.category])
    · refine stray _ ?_
      have : dropdownVar i ∈ strayMenu p := by
        rcases hp with hp | hp <;> simp [strayMenu, ha, hp, hk, hm]
      simp [strays, this]

theorem vars_toolParent (h : s.Ready known p.above) :
    ∀ target ∈ s.toolParent? p, ∀ v ∈ target.vars, known v := by
  intro target ht v hv
  obtain ⟨i, hi, ht⟩ := Option.bind_eq_some_iff.1 ht
  obtain ⟨above, ha⟩ := above_of_parent? hi
  rw [ha] at h
  split at ht <;> simp only [Option.some.injEq, reduceCtorEq] at ht <;> subst ht <;>
    simp only [Target.vars, List.mem_singleton, List.not_mem_nil] at hv
  case h_2 hk | h_3 hk | h_4 hk =>
    subst hv
    exact h.known_var (by simp [hk, Kind.isForm, Kind.category])
      (by simp [keeps, hk, Kind.category])

/-! ## What a node creates -/

/-- Steps that create the given object, if any. Besides its variable, which they refer to only when
it exists, they refer to known variables. -/
inductive Makes (known : Var → Prop) : Option (Var × String) → List Step → Prop
  | nothing {steps : List Step} (uses : Each (Uses known) steps) : Makes known none steps
  | object {front back : List Step} {v : Var} {className : String} {args : List Expr}
      {initMethod : Option String} (first : Each (Uses known) front)
      (given : ∀ w ∈ Expr.varsAll args, known w)
      (after : Each (Uses fun w => w = v ∨ known w) back) :
      Makes known (some (v, className))
        (front ++ .stmt (.create v className args initMethod) :: back)

namespace Makes

variable {object : Option (Var × String)} {steps : List Step}

theorem plain (h : Makes known object steps) : Each (fun st => st.isPlain = true) steps := by
  cases h with
  | nothing uses => exact uses.imp fun _ h => h.plain
  | object first _ after =>
    rw [each_append, each_cons]
    exact ⟨first.imp fun _ h => h.plain, rfl, after.imp fun _ h => h.plain⟩

/-- What one of the steps creates is the object. -/
theorem creation_eq (h : Makes known object steps) {st : Step} (hs : st ∈ steps)
    {c : Var × String} (hc : st.creation? = some c) : object = some c := by
  cases h with
  | nothing uses => cases (uses st hs).creates_none.symm.trans hc
  | object first _ after =>
    rcases List.mem_append.1 hs with hs | hs
    · cases (first st hs).creates_none.symm.trans hc
    · rcases List.mem_cons.1 hs with rfl | hs
      · exact hc
      · cases (after st hs).creates_none.symm.trans hc

/-- The object is created by one of the steps. -/
theorem exists_creation (h : Makes known object steps) {c : Var × String} (hc : object = some c) :
    ∃ st ∈ steps, st.creation? = some c := by
  cases h with
  | nothing => cases hc
  | object =>
    obtain rfl := Option.some.inj hc
    exact ⟨_, List.mem_append_right _ List.mem_cons_self, rfl⟩

end Makes

theorem makes_create {args : List Expr} {initMethod : Option String} {back : List Step}
    {leaf : Bool} (hk : keeps p.item p.above = true) (given : ∀ w ∈ Expr.varsAll args, known w)
    (after : Each (Uses fun w => w = s.var p.item ∨ known w) back) :
    Makes known (s.object? p.item p.above leaf) (s.create p args initMethod ++ back) := by
  simp only [object?, hk, if_true, create, List.append_assoc, List.singleton_append]
  exact .object (by simp) given after

theorem makes_createSizer {leaf : Bool} (h : s.Ready known p.above)
    (hk : keeps p.item p.above = true) :
    Makes known (s.object? p.item p.above leaf) (s.createSizer p) := by
  have window := vars_window h
  simp only [object?, hk, if_true, createSizer]
  refine Makes.object each_nil (fun w hw => window w (vars_sizerArgs w hw)) ?_
  simp only [each_ite, each_append, each_map, each_cons, each_nil, uses_call, Target.vars,
    Expr.varsAll, Expr.vars, List.append_nil, List.mem_singleton]
  simp +contextual [window]

theorem uses_addSpacer (h : s.Ready known p.above) : Each (Uses known) (s.addSpacer p) := by
  unfold addSpacer
  dsimp only
  split
  · exact each_nil
  · next sizer hs =>
    have hs : known sizer := by
      obtain ⟨i, hi, rfl⟩ := Option.map_eq_some_iff.1 hs
      obtain ⟨hi, hk⟩ := Option.filter_eq_some_iff.1 hi
      obtain ⟨above, ha⟩ := above_of_parent? hi
      rw [ha] at h
      refine h.known_var ?_ (keeps_of_isSizer hk)
      unfold Kind.isSizer at hk
      unfold Kind.isForm
      simp_all
    simp [hs, apply_ite Expr.varsAll]

theorem isSome_menuParent :
    (s.menuParent? p).isSome = p.above.head?.any fun i => i.kind.holdsMenus := by
  unfold menuParent? Place.parent?
  cases p.above.head? with
  | none => rfl
  | some i =>
    change (match i.kind with
      | .menuBarForm => some Target.form
      | .menuBar | .menu | .subMenu => some (.var (s.var i))
      | .contextMenuEvent => some (.var contextMenuVar)
      | .toolDropdown => some (.var (dropdownVar i))
      | _ => none).isSome = i.kind.holdsMenus
    cases i.kind <;> rfl

theorem isSome_toolParent :
    (s.toolParent? p).isSome = p.above.head?.any fun i => i.kind.holdsTools := by
  unfold toolParent? Place.parent?
  cases p.above.head? with
  | none => rfl
  | some i =>
    change (match i.kind with
      | .toolBarForm => some Target.form
      | .toolBar | .auiToolBar | .ribbonButtonBar => some (.var (s.var i))
      | _ => none).isSome = i.kind.holdsTools
    cases i.kind <;> rfl

theorem vars_menuArg (target : Target) : ∀ v ∈ (menuArg target).vars, v ∈ target.vars := by
  intro v hv
  cases target <;> simp_all [menuArg]

/-- A menu item is created for its menu and appended to it. -/
theorem makes_createMenuItem {leaf : Bool} (h : s.Ready known p.above)
    (hc : p.kind.category = .menuItem) (stray : ∀ v ∈ s.strays p, known v) :
    Makes known (s.object? p.item p.above leaf) (s.createMenuItem p) := by
  have object : keeps p.item p.above = false → s.object? p.item p.above leaf = none := by
    intro hk
    have hd : p.item.kind ≠ .toolDropdown := by
      intro hd
      simp [Place.kind, hd, Kind.category] at hc
    have hm : p.item.kind ≠ .contextMenuEvent := by
      rintro hm
      simp [Place.kind, hm, Kind.category] at hc
    simp [object?, hk, hasMenu, Item.isMenuBuilder, hd, hm]
  unfold createMenuItem
  dsimp only
  split
  · -- no menu around the item
    next hp =>
    have hn := isSome_menuParent (s := s) (p := p)
    rw [hp] at hn
    have hk : keeps p.item p.above = false := by
      simp only [Place.kind] at hc
      simp [keeps, hc, ← hn]
    rw [object hk]
    exact .nothing each_nil
  · next menu hp =>
    have parent := vars_menuParent h (Or.inr hc) stray menu hp
    have hn := isSome_menuParent (s := s) (p := p)
    rw [hp] at hn
    split
    · -- a separator is appended without an object
      next hs =>
      have hk : keeps p.item p.above = false := by
        simp only [Place.kind] at hs
        simp [keeps, hs, Kind.category]
      rw [object hk]
      exact .nothing (by simpa using parent)
    · next hs =>
      have hk : keeps p.item p.above = true := by
        simp only [Place.kind] at hc hs
        simp [keeps, hc, hs, ← hn]
      simp only [List.append_assoc]
      refine makes_create hk ?_ ?_
      · intro w hw
        have hw : w ∈ (menuArg menu).vars := by simpa [Element.idArg] using hw
        exact parent w (vars_menuArg menu w hw)
      · have bitmap : Each (Uses fun w => w = s.var p.item ∨ known w)
            ((s.bitmap? p.element .bitmap).map fun b =>
              call (.var (s.var p.item)) "SetBitmap" [b]).toList := by
          cases hb : s.image? p.element .bitmap <;> simp [bitmap?, hb]
        simp only [each_append, bitmap, each_cons, each_nil, uses_call, each_when]
        simp +contextual [parent]

/-- The menu below a tool is created with the tool, when there is something in it. -/
theorem makes_createTool (h : s.Ready known p.above) (hc : p.kind.category = .tool) :
    Makes known (s.object? p.item p.above p.children.isEmpty) (s.createTool p) := by
  have hk : keeps p.item p.above = false := by
    simp only [Place.kind] at hc
    simp [keeps, hc]
  have hm : p.item.isMenuBuilder = false := by
    unfold Item.isMenuBuilder
    simp only [beq_eq_false_iff_ne]
    rintro hm
    simp [Place.kind, hm, Kind.category] at hc
  have object : (hasMenu p.item p.above && !p.children.isEmpty) = false →
      s.object? p.item p.above p.children.isEmpty = none := by
    intro hn
    simp [object?, hk, hn, hm]
  have bitmap : ((s.bitmap? p.element .bitmap).getD (.const "wxNullBitmap")).vars = [] :=
    vars_bitmap rfl
  have hn := isSome_toolParent (s := s) (p := p)
  unfold createTool
  dsimp only
  split
  · next hp =>
    rw [hp] at hn
    rw [object (by simp [hasMenu, ← hn])]
    exact .nothing each_nil
  · next bar hp =>
    have parent := vars_toolParent h bar hp
    rw [hp] at hn
    split
    case h_3 hd =>
      -- the menu below the tool is created only if there is something in it
      by_cases he : p.children = []
      · rw [object (by simp [he])]
        exact .nothing (by simpa [he, Element.idArg, bitmap] using parent)
      · have hd : hasMenu p.item p.above = true := by
          simp only [Place.kind] at hd
          simp [hasMenu, hd, ← hn]
        have menu : s.object? p.item p.above p.children.isEmpty
            = some (dropdownVar p.item, s.dialect.classToken "wxMenu" .core) := by
          simp [object?, hk, hd, he]
        rw [menu, if_neg he, ← List.singleton_append]
        refine Makes.object ?_ (by simp) each_nil
        simpa [Element.idArg, bitmap] using parent
    all_goals
      have hd : p.item.kind ≠ .toolDropdown := by simp_all [Place.kind]
      rw [object (by simp [hasMenu, hd])]
      exact .nothing (by simpa [Element.idArg, bitmap] using parent)

theorem makes_createWindow {leaf : Bool} (h : s.Ready known p.above)
    (hk : keeps p.item p.above = true)
    (front : p.kind = .wizardPage → ∀ i ∈ p.before, i.kind = .wizardPage → known (s.var i))
    (stray : ∀ v ∈ s.strays p, known v) :
    Makes known (s.object? p.item p.above leaf) (s.createWindow p) := by
  have wider : ∀ v, known v → v = s.var p.item ∨ known v := fun v hv => Or.inr hv
  have own : s.var p.item = s.var p.item ∨ known (s.var p.item) := Or.inl rfl
  simp only [createWindow, List.append_assoc]
  refine makes_create hk (fun w hw => vars_window h w (vars_args w hw)) ?_
  simp only [each_append, each_ite, each_nil, implies_true, and_true]
  refine ⟨uses_windowSettings own, uses_kindSettings own ?_, fun _ => ?_⟩
  · exact fun hw i hi hk => Or.inr (front hw i hi hk)
  · exact uses_addPage (h.imp wider) own fun v hv => Or.inr (stray v hv)

/-- The first steps of a node create its object. -/
theorem makes_createNode (h : s.Ready known p.above) (hm : p.item.isMenuBuilder = false)
    (front : p.kind = .wizardPage → ∀ i ∈ p.before, i.kind = .wizardPage → known (s.var i))
    (stray : ∀ v ∈ s.strays p, known v) :
    Makes known (s.object? p.item p.above p.children.isEmpty) (s.createNode p) := by
  unfold createNode
  split
  case h_1 hc => exact makes_createSizer h (by simp_all [keeps, Place.kind])
  case h_2 hc =>
    have hd : p.item.kind ≠ .toolDropdown := by
      rintro hd
      simp [Place.kind, hd, Kind.category] at hc
    have none : s.object? p.item p.above p.children.isEmpty = none := by
      simp only [Place.kind] at hc
      simp [object?, keeps, hc, hasMenu, hd, hm]
    rw [none]
    exact .nothing (uses_addSpacer h)
  case h_3 hc | h_4 hc =>
    have hk : keeps p.item p.above = true := by simp_all [keeps, Place.kind]
    rw [← List.append_nil (s.create p [] none)]
    exact makes_create hk (by simp) each_nil
  case h_5 hc => exact makes_createMenuItem h hc stray
  case h_6 hc => exact makes_createTool h hc
  case h_7 hc =>
    have hk : keeps p.item p.above = true := by simp_all [keeps, Place.kind]
    rw [← List.append_nil (s.create p [.self] (some "SetOwner"))]
    exact makes_create hk (by simp) each_nil
  case h_8 hspacer _ _ hitem htool _ =>
    have hk : keeps p.item p.above = true :=
      keeps_of_category hspacer htool (category_ne_contextMenu hm) hitem
    exact makes_createWindow h hk front stray

/-! ## What ends a node -/

/-- The last steps of a node create nothing. -/
theorem uses_finish (h : s.Ready known p.above) (hm : p.item.isMenuBuilder = false)
    (own : ∀ c ∈ s.object? p.item p.above p.children.isEmpty, known c.1)
    (below : ∀ i ∈ p.children, s.builds i (p.item :: p.above) = true → known (s.var i))
    (stray : ∀ v ∈ s.strays p, known v) : Each (Uses known) (s.finish p) := by
  have own_var (hk : keeps p.item p.above = true) : known (s.var p.item) :=
    own (s.var p.item, (resolveClass s.dialect p.element).token)
      (by simp [object?, hk, Place.element])
  unfold finish
  dsimp only
  split
  case h_1 hk | h_2 hk =>
    have own := own_var (by simp [keeps, show p.item.kind = _ from hk, Kind.category])
    simp [own, giveToFrame, uses_attach h own stray]
  case h_3 hk =>
    have own := own_var (by simp [keeps, show p.item.kind = _ from hk, Kind.category])
    simp [own, giveToFrame]
  case h_4 hk | h_5 hk =>
    have own := own_var (by simp [keeps, show p.item.kind = _ from hk, Kind.category])
    unfold appendMenu
    split
    · exact each_nil
    · next menu hp =>
      have parent := vars_menuParent h (Or.inl (by simp [hk, Kind.category])) stray menu hp
      simpa [own] using parent
  case h_6 hk =>
    unfold setDropdown
    split
    · exact each_nil
    · next bar hp =>
      have parent := vars_toolParent h bar hp
      have hn := isSome_toolParent (s := s) (p := p)
      rw [hp] at hn
      split
      · exact each_nil
      · next he =>
        have hk : p.item.kind = .toolDropdown := hk
        have menu : known (dropdownVar p.item) :=
          own (dropdownVar p.item, s.dialect.classToken "wxMenu" .core)
            (by simp [object?, keeps, hasMenu, hk, ← hn, he, Kind.category])
        simpa [Element.idArg, menu] using parent
  case h_7 => exact each_nil
  case h_8 hk =>
    have own := own_var (by simp [keeps, show p.item.kind = _ from hk, Kind.category])
    simp [uses_split own hk below stray, uses_attach h own stray]
  case h_9 hk =>
    have own := own_var (by simp [keeps, show p.item.kind = _ from hk, Kind.category])
    simp [giveToFrame, own, uses_attach h own stray]
  case h_10 =>
    split
    case h_5 =>
      next hitem htool _ hspacer =>
      have hk : keeps p.item p.above = true :=
        keeps_of_category hspacer htool (category_ne_contextMenu hm) hitem
      exact uses_attach h (own_var hk) stray
    all_goals exact each_nil

/-- The remark in place of a node creates nothing. -/
theorem uses_unsupported (i : Item) : Each (Uses known) (s.unsupported i) := by
  simp [unsupported]

theorem uses_formSettings (e : Element) : Each (Uses known) (s.formSettings e) := by
  have icon : Each (Uses known) (if e.kind = .dialog || e.kind = .frame then
      (s.bitmap? e .icon).map fun b => call .form "SetIcon" [.call (.result b) "GetIconFor" [.self]]
    else none).toList := by
    split
    · cases hb : s.image? e .icon <;> simp [bitmap?, hb]
    · exact each_nil
  unfold formSettings
  dsimp only
  rw [each_ite]
  refine ⟨fun _ => each_nil, fun _ => ?_⟩
  simp only [each_append, icon, each_toList_map, each_when, uses_call]
  simp

theorem uses_formFinish (e : Element) : Each (Uses known) (formFinish e) := by
  unfold formFinish
  dsimp only
  split <;> simp

end Site

end FormDesign
