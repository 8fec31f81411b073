import FormDesign.Proofs.Code.Scope

/-!
# Pictures in the generated methods

The constructor and the handlers of context menus show pictures: images as bitmaps or as animations.
Each of them is the image of a property, and the place of construction lets it through only when the
form has its bytes, if they are to be embedded. Text that is copied as it is may say anything and
holds no picture.

* `Form.pictures`: the pictures that the methods of a form show
* `Site.shows_createNode`, `Site.shows_finish`: the steps of a node show its own pictures
* `Form.shown_of_mem_pictures`: every picture is one of a node of the form, or the icon
* `Form.imageEdits`: what pictures are made of, which stands in front of the class
-/

namespace FormDesign

/-! ## Pictures in expressions -/

/-- An image as an expression shows it. -/
inductive Picture where
  | bitmap (image : ImageDescription)
  | animation (image : ImageDescription)
  deriving DecidableEq

def Picture.image : Picture → ImageDescription
  | .bitmap image | .animation image => image

mutual

/-- The pictures in an expression. -/
@[simp] def Expr.pictures : Expr → List Picture
  | .bitmap image => [.bitmap image]
  | .animation image => [.animation image]
  | .new _ _ args => Expr.picturesAll args
  | .call target _ args => target.pictures ++ Expr.picturesAll args
  | .self | .var _ | .text _ | .int _ | .bool _ | .const _ | .id _ | .size .. | .point .. | .raw _
  | .null => []

/-- The pictures in the target of a call. -/
@[simp] def Target.pictures : Target → List Picture
  | .form | .var _ => []
  | .result e => e.pictures

/-- The pictures in several expressions. -/
@[simp] def Expr.picturesAll : List Expr → List Picture
  | [] => []
  | e :: rest => e.pictures ++ Expr.picturesAll rest

end

namespace Expr

@[simp] theorem pictures_sizeOf (width height : Int) : (sizeOf width height).pictures = [] := by
  unfold sizeOf
  split <;> rfl

theorem mem_picturesAll {pic : Picture} {args : List Expr} :
    pic ∈ picturesAll args ↔ ∃ e ∈ args, pic ∈ e.pictures := by
  induction args with
  | nil => simp
  | cons e args ih => simp [ih]

@[simp] theorem picturesAll_append (xs ys : List Expr) :
    picturesAll (xs ++ ys) = picturesAll xs ++ picturesAll ys := by
  induction xs with
  | nil => rfl
  | cons x xs ih => simp [ih]

end Expr

/-- The pictures in a statement. -/
@[simp] def Stmt.pictures : Stmt → List Picture
  | .create _ _ args _ => Expr.picturesAll args
  | .call target _ args => target.pictures ++ Expr.picturesAll args
  | .comment _ => []

/-- The pictures in some steps. -/
def Step.pictures (steps : List Step) : List Picture :=
  (Step.stmtsAll steps).flatMap Stmt.pictures

namespace Step

/-- The pictures of a step that holds no others are among the known ones. -/
def Shows (known : Picture → Prop) (st : Step) : Prop :=
  ∀ stmt ∈ st.stmt?, ∀ pic ∈ stmt.pictures, known pic

variable {known : Picture → Prop}

@[simp] theorem shows_call (target : Target) (method : String) (args : List Expr) :
    (call target method args).Shows known ↔
      (∀ pic ∈ target.pictures, known pic) ∧ ∀ pic ∈ Expr.picturesAll args, known pic := by
  simp [Shows, call, stmt?, or_imp, forall_and]

@[simp] theorem shows_create (v : Var) (className : String) (args : List Expr)
    (initMethod : Option String) :
    (stmt (.create v className args initMethod)).Shows known ↔
      ∀ pic ∈ Expr.picturesAll args, known pic := by
  simp [Shows, stmt?]

@[simp] theorem shows_comment (text : String) : (stmt (.comment text)).Shows known := by
  simp [Shows, stmt?]

@[simp] theorem shows_gap : gap.Shows known := by
  simp [Shows, stmt?]

@[simp] theorem shows_warn (text : String) : (warn text).Shows known := by
  simp [Shows, stmt?]

@[simp] theorem shows_validate (control : Var) (v : ValidatorVar) :
    (validate control v).Shows known := by
  simp [Shows, stmt?]

@[simp] theorem shows_bind (b : Binding) : (bind b).Shows known := by
  simp [Shows, stmt?]

theorem pictures_append (xs ys : List Step) : pictures (xs ++ ys) = pictures xs ++ pictures ys := by
  simp [pictures, stmtsAll_eq_leavesAll [], leavesAll_append]

/-- What some steps show is shown by one of their leaves. -/
theorem known_of_mem_pictures (known : Picture → Prop) {steps : List Step} {pic : Picture}
    (hp : pic ∈ pictures steps) (h : ∀ leaf ∈ leavesAll [] steps, leaf.2.Shows known) :
    known pic := by
  rw [pictures, stmtsAll_eq_leavesAll []] at hp
  obtain ⟨stmt, hs, hp⟩ := List.mem_flatMap.1 hp
  obtain ⟨leaf, hl, hs⟩ := List.mem_filterMap.1 hs
  exact h leaf hl stmt hs pic hp

/-- Steps of construction are their own leaves. -/
theorem known_of_mem_pictures_plain {steps : List Step} {pic : Picture} (hp : pic ∈ pictures steps)
    (plain : Each (fun st => st.isPlain = true) steps) (h : Each (Shows known) steps) :
    known pic := by
  refine known_of_mem_pictures known hp fun leaf hl => ?_
  rw [leavesAll_of_plain plain] at hl
  obtain ⟨st, hst, rfl⟩ := List.mem_map.1 hl
  exact h st hst

end Step

/-! ## What a node shows -/

namespace Site

open Step

variable (s : Site)

/-- The image of a property as a bitmap, if it can be referred to. -/
def shownBitmap (e : Element) (q : Property) : List Picture :=
  ((s.image? e q).map .bitmap).toList

/-- The image of the animation property, if it can be referred to. -/
def shownAnimation (e : Element) : List Picture :=
  ((s.image? e .animation).map .animation).toList

/-- The pictures that a node can show. -/
def shown (e : Element) : List Picture :=
  s.shownBitmap e .bitmap ++ s.shownAnimation e

variable {s} {p : Place} {known : Picture → Prop}

theorem pictures_bookWindow (above : List Item) : (s.bookWindow above).pictures = [] := by
  induction above with
  | nil => rfl
  | cons i above ih =>
    unfold bookWindow
    split
    · rfl
    · split
      · rfl
      · exact ih

theorem pictures_controlWindow (above : List Item) : (s.controlWindow above).pictures = [] := by
  induction above with
  | nil => rfl
  | cons i above ih =>
    unfold controlWindow
    split
    · rfl
    · split
      case h_5 => split <;> [rfl; exact ih]
      all_goals rfl

/-- A window is found without looking at an image. -/
@[simp] theorem pictures_window : (s.window p).pictures = [] := by
  unfold window
  split
  · exact pictures_bookWindow p.above
  · exact pictures_controlWindow p.above

/-! ### Arguments -/

@[simp] theorem pictures_pointArg (text : String) : (Element.pointArg text).pictures = [] := by
  unfold Element.pointArg
  split <;> rfl

@[simp] theorem pictures_sizeArg (text : String) : (Element.sizeArg text).pictures = [] := by
  unfold Element.sizeArg
  split
  · exact Expr.pictures_sizeOf _ _
  · rfl

/-- Position, size and style hold no pictures. -/
@[simp] theorem pictures_placementArgs (e : Element) (implied : String) :
    Expr.picturesAll (e.placementArgs implied) = [] := by
  rw [List.eq_nil_iff_forall_not_mem]
  intro pic hpic
  obtain ⟨arg, harg, hpic⟩ := Expr.mem_picturesAll.1 hpic
  unfold Element.placementArgs Element.upToLastGiven at harg
  obtain ⟨given, hgiven, rfl⟩ := List.mem_map.1 harg
  have hgiven := (List.dropWhile_sublist _).subset (List.mem_reverse.1 hgiven)
  simp only [List.mem_reverse, List.mem_cons, List.not_mem_nil, or_false] at hgiven
  rcases hgiven with rfl | rfl | rfl <;> simp at hpic

/-- The pictures among the arguments of a control are those of its own arguments. -/
@[simp] theorem pictures_windowArgs (own : List Expr) (implied : String) :
    Expr.picturesAll (s.windowArgs p own implied) = Expr.picturesAll own := by
  simp [windowArgs, Element.idArg]

theorem pictures_bitmap {e : Element} {q : Property} {default : Expr} (h : default.pictures = []) :
    ((s.bitmap? e q).getD default).pictures = s.shownBitmap e q := by
  cases hb : s.image? e q <;> simp [bitmap?, shownBitmap, hb, h]

theorem pictures_animation {e : Element} {default : Expr} (h : default.pictures = []) :
    ((s.animation? e).getD default).pictures = s.shownAnimation e := by
  cases hb : s.image? e .animation <;> simp [animation?, shownAnimation, hb, h]

/-- The arguments of an object hold no pictures but those of its node. -/
theorem pictures_args : ∀ pic ∈ Expr.picturesAll (s.args p), pic ∈ s.shown p.element := by
  have bitmap : ((s.bitmap? p.element .bitmap).getD (.const "wxNullBitmap")).pictures
      = s.shownBitmap p.element .bitmap := pictures_bitmap rfl
  have animation : ((s.animation? p.element).getD (.const "wxNullAnimation")).pictures
      = s.shownAnimation p.element := pictures_animation rfl
  have first {n : Nat} {args : List Expr} {pic : Picture}
      (hpic : pic ∈ Expr.picturesAll (args.take n)) : pic ∈ Expr.picturesAll args := by
    obtain ⟨e, he, hpic⟩ := Expr.mem_picturesAll.1 hpic
    exact Expr.mem_picturesAll.2 ⟨e, List.mem_of_mem_take he, hpic⟩
  intro pic hpic
  unfold args at hpic
  dsimp only at hpic
  split at hpic
  -- a combo box, a choice and a list box keep only the first of the usual arguments
  case h_10 | h_11 | h_12 => simpa using first hpic
  case h_20 | h_25 => split at hpic <;> simp [Element.idArg] at hpic
  case h_16 => exact List.mem_append_left _ (by simpa [bitmap] using hpic)
  case h_18 => exact List.mem_append_right _ (by simpa [animation] using hpic)
  all_goals simp [Element.idArg] at hpic

theorem pictures_sizerArgs : Expr.picturesAll (s.sizerArgs p) = [] := by
  unfold sizerArgs
  split <;> simp

/-! ### Steps -/

theorem shows_windowSettings : Each (Shows known) (s.windowSettings p) := by
  simp [windowSettings]

theorem shows_chainPage : Each (Shows known) (s.chainPage p) := by
  unfold chainPage
  dsimp only
  split
  · exact each_nil
  · split <;> simp

/-- The bitmap of a node is one of its pictures. -/
theorem mem_shown_of_bitmap? {e : Element} {b : Expr} (h : s.bitmap? e .bitmap = some b) :
    ∀ pic ∈ b.pictures, pic ∈ s.shown e := by
  obtain ⟨image, hi, rfl⟩ := Option.map_eq_some_iff.1 h
  simp [shown, shownBitmap, hi]

theorem shows_kindSettings : Each (Shows (· ∈ s.shown p.element)) (s.kindSettings p) := by
  unfold kindSettings
  dsimp only
  split
  case h_14 => exact shows_chainPage
  case h_7 | h_8 => simpa using fun b => mem_shown_of_bitmap?
  all_goals simp

theorem shows_addPage : Each (Shows known) (s.addPage p) := by
  unfold addPage
  dsimp only
  split
  · exact each_nil
  · split
    · split <;> simp
    · split
      · split <;> simp
      · exact each_nil

theorem shows_attach : Each (Shows known) (s.attach p) := by
  unfold attach
  dsimp only
  split
  · exact each_nil
  · split
    · simp [apply_ite Expr.pictures]
    · split
      · simp [apply_ite Target.pictures]
      · exact shows_addPage

theorem shows_split : Each (Shows known) (s.split p) := by
  unfold split
  dsimp only
  split <;> simp [apply_ite Expr.picturesAll]

theorem pictures_of_menuParent? {target : Target} (h : s.menuParent? p = some target) :
    target.pictures = [] := by
  obtain ⟨i, -, ht⟩ := Option.bind_eq_some_iff.1 h
  split at ht <;> simp only [Option.some.injEq, reduceCtorEq] at ht <;> subst ht <;> rfl

theorem pictures_of_toolParent? {target : Target} (h : s.toolParent? p = some target) :
    target.pictures = [] := by
  obtain ⟨i, -, ht⟩ := Option.bind_eq_some_iff.1 h
  split at ht <;> simp only [Option.some.injEq, reduceCtorEq] at ht <;> subst ht <;> rfl

theorem shows_create {args : List Expr} {initMethod : Option String}
    (h : ∀ pic ∈ Expr.picturesAll args, known pic) :
    Each (Shows known) (s.create p args initMethod) := by
  simpa [create] using h

theorem shows_createSizer : Each (Shows known) (s.createSizer p) := by
  simp [createSizer, pictures_sizerArgs]

theorem shows_addSpacer : Each (Shows known) (s.addSpacer p) := by
  unfold addSpacer
  dsimp only
  split <;> simp [apply_ite Expr.picturesAll]

theorem pictures_menuArg (target : Target) : (menuArg target).pictures = [] := by
  cases target <;> rfl

theorem shows_createMenuItem : Each (Shows (· ∈ s.shown p.element)) (s.createMenuItem p) := by
  unfold createMenuItem
  dsimp only
  split
  · exact each_nil
  · next menu hmenu =>
    have parent := pictures_of_menuParent? hmenu
    split
    · simp [parent]
    · simpa [create, parent, pictures_menuArg, Element.idArg] using fun b => mem_shown_of_bitmap?

/-- A tool is added with its bitmap. -/
theorem shows_createTool : Each (Shows (· ∈ s.shown p.element)) (s.createTool p) := by
  have bitmap : ((s.bitmap? p.element .bitmap).getD (.const "wxNullBitmap")).pictures
      = s.shownBitmap p.element .bitmap := pictures_bitmap rfl
  unfold createTool
  dsimp only
  split
  · exact each_nil
  · next bar hbar =>
    have parent := pictures_of_toolParent? hbar
    split <;> simp +contextual [parent, bitmap, Element.idArg, shown]

theorem shows_createWindow : Each (Shows (· ∈ s.shown p.element)) (s.createWindow p) := by
  simp only [createWindow, each_append, each_ite, each_nil]
  exact ⟨⟨⟨shows_create pictures_args, shows_windowSettings⟩, shows_kindSettings⟩,
    fun _ => shows_addPage, fun _ => trivial⟩

/-- The first steps of a node show its own pictures. -/
theorem shows_createNode : Each (Shows (· ∈ s.shown p.element)) (s.createNode p) := by
  unfold createNode
  split
  case h_1 => exact shows_createSizer
  case h_2 => exact shows_addSpacer
  case h_3 | h_4 | h_7 => exact shows_create (by simp)
  case h_5 => exact shows_createMenuItem
  case h_6 => exact shows_createTool
  case h_8 => exact shows_createWindow

/-- The last steps of a node show nothing. -/
theorem shows_finish : Each (Shows known) (s.finish p) := by
  unfold finish
  dsimp only
  split
  case h_1 | h_2 => simp [giveToFrame, shows_attach]
  case h_3 => simp [giveToFrame]
  case h_4 | h_5 =>
    unfold appendMenu
    split
    · exact each_nil
    · next hmenu => simp [pictures_of_menuParent? hmenu]
  case h_6 =>
    unfold setDropdown
    split
    · exact each_nil
    · next hbar => simp [pictures_of_toolParent? hbar, Element.idArg]
  case h_7 => exact each_nil
  case h_8 => simp [shows_split, shows_attach]
  case h_9 => simp [giveToFrame, shows_attach]
  case h_10 =>
    split
    case h_5 => exact shows_attach
    all_goals exact each_nil

theorem shows_unsupported (i : Item) : Each (Shows known) (s.unsupported i) := by
  simp [unsupported]

/-- The form itself shows its icon. -/
theorem shows_formSettings (e : Element) :
    Each (Shows (· ∈ s.shownBitmap e .icon)) (s.formSettings e) := by
  have icon : Each (Shows (· ∈ s.shownBitmap e .icon))
      (if e.kind = .dialog || e.kind = .frame then
        (s.bitmap? e .icon).map fun b =>
          call .form "SetIcon" [.call (.result b) "GetIconFor" [.self]]
      else none).toList := by
    split
    · cases h : s.image? e .icon <;> simp [bitmap?, shownBitmap, h]
    · exact each_nil
  simp only [formSettings, each_ite, each_append, each_when, each_toList_map, each_cons, each_nil,
    icon]
  simp

theorem shows_formFinish (e : Element) : Each (Shows known) (formFinish e) := by
  unfold formFinish
  split
  case h_3 | h_4 => dsimp only; split <;> simp
  all_goals simp

/-- The steps for the nodes below show what one of the nodes can show. -/
theorem exists_shown_of_mem_planAll {above before : List Item} {bs : List (Branch Item)}
    {pic : Picture} (h : pic ∈ Step.pictures (s.planAll above before bs)) :
    ∃ sp ∈ spotsOfAll above bs, pic ∈ s.shown sp.item.element := by
  refine known_of_mem_pictures (∃ sp ∈ spotsOfAll above bs, · ∈ s.shown sp.item.element) h
    fun leaf hl => ?_
  rw [leavesAll_planAll] at hl
  obtain ⟨x, hx, rfl⟩ := List.mem_map.1 hl
  obtain ⟨p, inner, hp, hx⟩ := fromNode_of_mem_traceAll hx
  have hp := spotsOutsideMenusAll_subset above bs hp
  intro stmt hs pic hpic
  cases hx.stepOf with
  | visited _ _ hm =>
    refine ⟨p.spot, hp, ?_⟩
    rcases List.mem_append.1 hm with hm | hm
    · exact shows_createNode _ hm stmt hs pic hpic
    · exact shows_finish _ hm stmt hs pic hpic
  | remark _ _ hm =>
    have none : x.step.Shows fun _ => False := shows_unsupported _ _ hm
    exact (none stmt hs pic hpic).elim

end Site

/-! ## What a form shows -/

mutual

/-- What is below a node that opens a context menu is below the node that the search began with. -/
theorem spots_subset_of_mem_menuBranchesIn {i : Item} {above : List Item} {cs : List (Branch Item)}
    {j : Item} {inner : List Item} {ds : List (Branch Item)}
    (h : (inner, .mk j ds) ∈ menuBranchesIn above (.mk i cs)) :
    spotsOfAll (j :: inner) ds ⊆ spotsOfAll (i :: above) cs := by
  unfold menuBranchesIn at h
  dsimp only at h
  split at h
  · rcases List.mem_cons.1 h with h | h
    · cases h
      exact List.Subset.refl _
    · exact spots_subset_of_mem_menuBranchesInAll h
  · exact spots_subset_of_mem_menuBranchesInAll h

theorem spots_subset_of_mem_menuBranchesInAll {above : List Item} {bs : List (Branch Item)}
    {j : Item} {inner : List Item} {ds : List (Branch Item)}
    (h : (inner, .mk j ds) ∈ menuBranchesInAll above bs) :
    spotsOfAll (j :: inner) ds ⊆ spotsOfAll above bs := by
  cases bs with
  | nil => cases h
  | cons b bs =>
    cases b with
    | mk i cs =>
      unfold menuBranchesInAll at h
      intro sp hsp
      rw [spotsOfAll, spotsOf, List.mem_append]
      rcases List.mem_append.1 h with h | h
      · exact Or.inl (List.mem_cons_of_mem _ (spots_subset_of_mem_menuBranchesIn h hsp))
      · exact Or.inr (spots_subset_of_mem_menuBranchesInAll h hsp)

end

namespace Form

open Step

variable {f : Form} {d : Dialect} {c : Collected} {pic : Picture}

/-- The constructor and the handlers of the context menus. -/
def methods (f : Form) (d : Dialect) (c : Collected) : List (List Step) :=
  f.constructorSteps d c :: f.menuBranches.map fun (above, b) => f.menuSteps d c above b

/-- The pictures that the methods of a form show. -/
def pictures (f : Form) (d : Dialect) (c : Collected) : List Picture :=
  (f.methods d c).flatMap Step.pictures

theorem pictures_binds {α : Type} (xs : List α) (b : α → Binding) :
    Step.pictures (xs.map fun x => .bind (b x)) = [] := by
  rw [List.eq_nil_iff_forall_not_mem]
  intro pic hpic
  refine known_of_mem_pictures (fun _ => False) hpic fun leaf hl => ?_
  rw [leavesAll_map_bind] at hl
  obtain ⟨x, -, rfl⟩ := List.mem_map.1 hl
  exact shows_bind _

theorem pictures_bindSteps (events : EventTables) : Step.pictures (f.bindSteps events) = [] := by
  rw [List.eq_nil_iff_forall_not_mem]
  intro pic hpic
  refine known_of_mem_pictures (fun _ => False) hpic fun leaf hl => ?_
  rw [leavesAll_bindSteps] at hl
  obtain ⟨x, hx, rfl⟩ := List.mem_map.1 hl
  simp only [traceBindings, List.mem_append, List.mem_map, List.mem_flatMap] at hx
  rcases hx with (⟨u, -, rfl⟩ | ⟨part, -, u, -, rfl⟩) | hx
  · exact shows_bind _
  · exact shows_bind _
  · obtain ⟨builder, -, hx⟩ := List.mem_filterMap.1 hx
    obtain ⟨b, -, rfl⟩ := Option.map_eq_some_iff.1 hx
    exact shows_bind b

theorem shown_of_mem_plan {images : List Asset} (h : pic ∈ Step.pictures (f.plan d images)) :
    pic ∈ (f.site d images).shownBitmap f.element .icon ∨
      ∃ e ∈ f.innerElements, pic ∈ (f.site d images).shown e := by
  have settings : Each (Uses fun _ => True) ((f.site d images).formSettings f.element) :=
    Site.uses_formSettings f.element
  have finish : Each (Uses fun _ => True) (Site.formFinish f.element) :=
    Site.uses_formFinish f.element
  have nothing : Each (Shows fun _ => False) (Site.formFinish f.element) :=
    Site.shows_formFinish f.element
  simp only [plan, pictures_append, List.mem_append] at h
  rcases h with (h | h) | h
  · refine Or.inl (known_of_mem_pictures_plain h (settings.imp fun _ h => h.plain) ?_)
    exact Site.shows_formSettings f.element
  · obtain ⟨sp, hsp, hpic⟩ := Site.exists_shown_of_mem_planAll h
    exact Or.inr ⟨sp.item.element, List.mem_map_of_mem hsp, hpic⟩
  · exact (known_of_mem_pictures_plain h (finish.imp fun _ h => h.plain) nothing).elim

theorem shown_of_mem_menuPlan {images : List Asset} {above : List Item} {b : Branch Item}
    (hb : (above, b) ∈ f.menuBranches) (h : pic ∈ Step.pictures (f.menuPlan d images above b)) :
    ∃ e ∈ f.innerElements, pic ∈ (f.site d images).shown e := by
  cases b with
  | mk i cs =>
    have menu (token : String) :
        Step.pictures [.stmt (.create contextMenuVar token [] none)] = [] := rfl
    rw [menuPlan, ← List.singleton_append, pictures_append, menu, List.nil_append] at h
    obtain ⟨sp, hsp, hpic⟩ := Site.exists_shown_of_mem_planAll h
    have hsp := spots_subset_of_mem_menuBranchesIn hb hsp
    exact ⟨sp.item.element, List.mem_map_of_mem hsp, hpic⟩

theorem mem_pictures : pic ∈ f.pictures d c ↔ pic ∈ Step.pictures (f.constructorSteps d c) ∨
    ∃ menu ∈ f.menuBranches, pic ∈ Step.pictures (f.menuSteps d c menu.1 menu.2) := by
  simp only [pictures, methods, List.flatMap_cons, List.mem_append, List.flatMap_map,
    List.mem_flatMap]

/-- The picture is one that the form can show where it is constructed: its icon, or the bitmap or
the animation of a node below it. -/
inductive Shown (f : Form) (s : Site) : Picture → Prop
  | icon {image : ImageDescription} (h : s.image? f.element .icon = some image) :
      Shown f s (.bitmap image)
  | bitmap {e : Element} {image : ImageDescription} (he : e ∈ f.innerElements)
      (h : s.image? e .bitmap = some image) : Shown f s (.bitmap image)
  | animation {e : Element} {image : ImageDescription} (he : e ∈ f.innerElements)
      (h : s.image? e .animation = some image) : Shown f s (.animation image)

theorem shown_of_mem_shown {s : Site} {e : Element} (he : e ∈ f.innerElements)
    (h : pic ∈ s.shown e) : f.Shown s pic := by
  rcases List.mem_append.1 h with h | h
  · obtain ⟨image, hi, rfl⟩ := Option.map_eq_some_iff.1 (Option.mem_toList.1 h)
    exact .bitmap he hi
  · obtain ⟨image, hi, rfl⟩ := Option.map_eq_some_iff.1 (Option.mem_toList.1 h)
    exact .animation he hi

/-- **What the methods of a form show are pictures of its nodes, and its icon.** -/
theorem shown_of_mem_pictures (h : pic ∈ f.pictures d c) : f.Shown (f.site d c.images) pic := by
  rcases mem_pictures.1 h with h | ⟨menu, hb, h⟩
  · have gap : Step.pictures [.gap] = [] := rfl
    rw [constructorSteps, pictures_append, pictures_append, pictures_bindSteps, gap,
      List.append_nil, List.append_nil] at h
    rcases shown_of_mem_plan h with hicon | ⟨e, he, h⟩
    · obtain ⟨image, hi, rfl⟩ := Option.map_eq_some_iff.1 (Option.mem_toList.1 hicon)
      exact .icon hi
    · exact shown_of_mem_shown he h
  · rw [menuSteps, pictures_append, pictures_binds, List.append_nil] at h
    obtain ⟨e, he, h⟩ := shown_of_mem_menuPlan hb h
    exact shown_of_mem_shown he h

/-! ## What pictures are made of -/

/-- The helpers and the data that are laid out for pictures, in front of the class. -/
def imageEdits (d : Dialect) (c : Collected) : List Edit :=
  if c.images.isEmpty && !c.needs.any then [] else d.images c.images c.needs

/-- They stand in the source file, with the class after them. -/
theorem imageEdits_written (info : ClassInfo) (i : Imports) (body : String)
    (h : imageEdits d c ≠ []) : ∃ front,
      sourceEdits d info i c body = front ++
        [.line (Text.dropEndWhile (· == '\n') (Edit.render d.indentUnit (imageEdits d c))), .gap,
          .line body] := by
  have text : imageText d c = Edit.render d.indentUnit (imageEdits d c) := by
    unfold imageEdits at h
    unfold imageText imageEdits
    split
    · next hn => rw [if_pos hn] at h; exact absurd rfl h
    · rfl
  have full : imageText d c ≠ "" := by
    rw [text, Edit.render, Lines.finish]
    simp
  refine ⟨d.banner ++ (if d.preamble info = [] then [] else Edit.lines (d.preamble info) ++ [.gap])
    ++ Edit.lines (d.imports i (imageText d c ++ body)) ++ [.gap], ?_⟩
  simp only [sourceEdits, if_neg full, ← text, List.append_assoc, List.cons_append, List.nil_append]

end Form

end FormDesign
