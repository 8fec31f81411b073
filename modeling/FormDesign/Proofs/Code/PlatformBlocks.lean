import FormDesign.Proofs.Code.Binding
import FormDesign.Proofs.Code.EmptyBlocks
import FormDesign.Proofs.Code.Guard
import FormDesign.Proofs.Code.Pictures

/-!
# What fills the blocks for platforms

A block is opened for a node before anything is known of it, and nothing is written for a spacer
outside of a sizer, for a menu item outside of a menu and for a tool outside of a tool bar; and in
Python nothing is written for a handler in place. Where names of variables look like names, this is
all that can leave a block without a statement.

* `Site.exists_speaks_iff_isPlaced`: when something is written for a node itself
* `Form.blocksSpeak_iff_blocksPlaced`: when something is written into each block of a form
* `platformBlocks_filled_iff`: when each block of a generated class holds a statement
-/

namespace FormDesign

open Edit

/-! ## Statements and names -/

/-- The text begins neither with a blank nor like a comment. -/
def StartsPlain (text : String) : Prop :=
  text.toList.head?.any (fun c => !Text.isBlank c && c != '#') = true

theorem StartsPlain.hasCode {text : String} (h : StartsPlain text) : hasCode text = true := by
  obtain ⟨c, first, plain⟩ := (Option.any_eq_true ..).1 h
  have plain : Text.isBlank c = false ∧ c ≠ '#' := by simpa using plain
  exact hasCode_of_head? first plain.1 plain.2

theorem StartsPlain.append {text : String} (h : StartsPlain text) (rest : String) :
    StartsPlain (text ++ rest) := by
  obtain ⟨c, first, plain⟩ := (Option.any_eq_true ..).1 h
  exact (Option.any_eq_true ..).2 ⟨c, Text.head?_append first rest, plain⟩

theorem startsPlain_self : StartsPlain "self." := rfl

/-- The name of the node's variable looks like a name, and remarks on the node are in one line. -/
structure Item.HasPlainName (i : Item) : Prop where
  starts : StartsPlain i.name
  one_line : '\n' ∉ i.element.varName.toList

/-- The target is the form, or a variable whose name looks like one. -/
def Target.IsPlain : Target → Prop
  | .form => True
  | .var v => StartsPlain v.name
  | .result _ => False

namespace Dialect

theorem startsPlain_varRef {v : Var} (h : StartsPlain v.name) : StartsPlain (varRef .python v) := by
  unfold varRef
  split
  · exact startsPlain_self.append _
  · exact h

end Dialect

namespace Step

theorem speaks_create {v : Var} (h : StartsPlain v.name) (className : String) (args : List Expr)
    (init : Option String) : (Step.stmt (.create v className args init)).speaks = true := by
  have declared : StartsPlain (Dialect.varDeclaration .python v) := by
    unfold Dialect.varDeclaration
    split
    · exact startsPlain_self.append _
    · exact h
  simp only [speaks, Dialect.stmt, Dialect.holdsByValue, Bool.and_false]
  exact (((declared.append _).append _).append _).hasCode

theorem speaks_call {target : Target} (h : target.IsPlain) (method : String) (args : List Expr) :
    (call target method args).speaks = true := by
  have start : StartsPlain ((Dialect.target .python target).getD "self") := by
    cases target with
    | form => exact rfl
    | var v => exact Dialect.startsPlain_varRef h
    | result e => exact h.elim
  exact ((((((start.append _).append _).append _).append _).append _).append _).hasCode

end Step

/-! ## Nodes for which something is written -/

namespace Site

/-- Whether construction writes something for a node itself: a spacer needs a sizer around it, an
entry of a menu a menu, and a tool a bar. -/
def isPlaced (i : Item) (above : List Item) : Bool :=
  match i.kind.category with
  | .spacer => above.head?.any fun a => a.kind.isSizer
  | .menuItem => above.head?.any fun a => a.kind.holdsMenus
  | .tool => above.head?.any fun a => a.kind.holdsTools
  | _ => true

variable {s : Site} {p : Place}

theorem isSome_sizerParent :
    (s.sizerParent? p).isSome = p.above.head?.any fun i => i.kind.isSizer := by
  unfold sizerParent? Place.parent?
  cases p.above.head? with
  | none => rfl
  | some i => cases h : i.kind.isSizer <;> simp [h, Option.filter]

/-- The name of the node above looks like a name; a form has none. -/
def ParentPlain (above : List Item) : Prop :=
  ∀ i ∈ above.head?, i.kind.isForm = false → StartsPlain i.name

theorem startsPlain_var {i : Item} (h : StartsPlain i.name) : StartsPlain (s.var i).name := by
  rwa [name_var]

theorem isPlain_menuParent (parent : ParentPlain p.above) {target : Target}
    (h : s.menuParent? p = some target) : target.IsPlain := by
  unfold menuParent? Place.parent? at h
  obtain ⟨i, hi, h⟩ := Option.bind_eq_some_iff.1 h
  split at h
  · cases h
    trivial
  case h_5 =>
    cases h
    exact rfl
  case h_6 hk =>
    cases h
    exact (parent i hi (by rw [hk]; rfl)).append "_menu"
  case h_7 => cases h
  all_goals
    next hk =>
      cases h
      exact startsPlain_var (parent i hi (by rw [hk]; rfl))

theorem isPlain_toolParent (parent : ParentPlain p.above) {target : Target}
    (h : s.toolParent? p = some target) : target.IsPlain := by
  unfold toolParent? Place.parent? at h
  obtain ⟨i, hi, h⟩ := Option.bind_eq_some_iff.1 h
  split at h
  · cases h
    trivial
  case h_5 => cases h
  all_goals
    next hk =>
      cases h
      exact startsPlain_var (parent i hi (by rw [hk]; rfl))

theorem isPlain_sizerParent (parent : ParentPlain p.above) {sizer : Var}
    (h : s.sizerParent? p = some sizer) : StartsPlain sizer.name := by
  obtain ⟨i, hi, rfl⟩ := Option.map_eq_some_iff.1 h
  obtain ⟨hi, hs⟩ := Option.filter_eq_some_iff.1 hi
  have category : i.kind.category = .sizer := beq_iff_eq.1 hs
  exact startsPlain_var (parent i hi (by rw [Kind.isForm, category]; rfl))

theorem exists_speaks_create (own : StartsPlain p.item.name) (args : List Expr)
    (init : Option String) : ∃ st ∈ s.create p args init, st.speaks = true :=
  ⟨_, List.mem_append_right _ List.mem_cons_self,
    Step.speaks_create (startsPlain_var own) _ _ _⟩

/-- A node that is placed is created or added by a statement. -/
theorem exists_speaks_createNode (own : StartsPlain p.item.name) (parent : ParentPlain p.above)
    (placed : isPlaced p.item p.above = true) : ∃ st ∈ s.createNode p, st.speaks = true := by
  unfold isPlaced at placed
  unfold createNode
  split
  · exact ⟨_, List.mem_cons_self, Step.speaks_create (startsPlain_var own) _ _ _⟩
  · next hk =>
    rw [show p.item.kind.category = .spacer from hk] at placed
    have some := (isSome_sizerParent (s := s)).trans placed
    obtain ⟨sizer, hsizer⟩ := Option.isSome_iff_exists.1 some
    have plain : (Target.var sizer).IsPlain := isPlain_sizerParent parent hsizer
    unfold addSpacer
    simp only [hsizer]
    exact ⟨_, List.mem_cons_self, Step.speaks_call plain _ _⟩
  · exact exists_speaks_create own _ _
  · exact exists_speaks_create own _ _
  · next hk =>
    rw [show p.item.kind.category = .menuItem from hk] at placed
    obtain ⟨menu, hmenu⟩ := Option.isSome_iff_exists.1 (s.isSome_menuParent.trans placed)
    have plain := isPlain_menuParent parent hmenu
    unfold createMenuItem
    simp only [hmenu]
    split
    · exact ⟨_, List.mem_cons_self, Step.speaks_call plain _ _⟩
    · obtain ⟨st, hst, speaks⟩ := exists_speaks_create (s := s) own _ _
      exact ⟨st, List.mem_append_left _ (List.mem_append_left _ (List.mem_append_left _
        (List.mem_append_left _ hst))), speaks⟩
  · next hk =>
    rw [show p.item.kind.category = .tool from hk] at placed
    obtain ⟨bar, hbar⟩ := Option.isSome_iff_exists.1 (s.isSome_toolParent.trans placed)
    have plain := isPlain_toolParent parent hbar
    unfold createTool
    simp only [hbar]
    split <;> exact ⟨_, List.mem_cons_self, Step.speaks_call plain _ _⟩
  · exact exists_speaks_create own _ _
  · obtain ⟨st, hst, speaks⟩ := exists_speaks_create (s := s) own (s.args p) none
    exact ⟨st, List.mem_append_left _ (List.mem_append_left _ (List.mem_append_left _ hst)), speaks⟩

/-- Spacers and entries of menus are finished when they are created, and tools without a bar. -/
theorem finish_eq_nil (h : p.kind.category = .spacer ∨ p.kind.category = .menuItem ∨
    p.kind.category = .tool ∧ s.toolParent? p = none) : s.finish p = [] := by
  unfold finish
  dsimp only
  split
  case h_6 hk =>
    rcases h with h | h | ⟨-, h⟩
    · simp [hk, Kind.category] at h
    · simp [hk, Kind.category] at h
    · rw [setDropdown, h]
  case h_10 => rcases h with h | h | ⟨h, -⟩ <;> simp [h]
  all_goals
    next hk => simp [hk, Kind.category] at h

/-- Nothing is written for a node that is not placed. -/
theorem steps_eq_nil (placed : isPlaced p.item p.above = false) :
    s.createNode p ++ s.finish p = [] := by
  unfold isPlaced at placed
  split at placed
  · next hk =>
    have hk : p.kind.category = .spacer := hk
    have none : s.sizerParent? p = none := by
      rw [← Option.not_isSome_iff_eq_none, isSome_sizerParent, placed]
      exact Bool.false_ne_true
    rw [finish_eq_nil (Or.inl hk), createNode, hk]
    simp [addSpacer, none]
  · next hk =>
    have hk : p.kind.category = .menuItem := hk
    have none : s.menuParent? p = none := by
      rw [← Option.not_isSome_iff_eq_none, isSome_menuParent, placed]
      exact Bool.false_ne_true
    rw [finish_eq_nil (Or.inr (Or.inl hk)), createNode, hk]
    simp [createMenuItem, none]
  · next hk =>
    have hk : p.kind.category = .tool := hk
    have none : s.toolParent? p = none := by
      rw [← Option.not_isSome_iff_eq_none, isSome_toolParent, placed]
      exact Bool.false_ne_true
    rw [finish_eq_nil (Or.inr (Or.inr ⟨hk, none⟩)), createNode, hk]
    simp [createTool, none]
  · cases placed

theorem not_mem_name_feed (k : Kind) : '\n' ∉ k.name.toList := by
  cases k <;> decide +kernel

/-- A remark in one line is a comment. -/
theorem hasCode_comment {text : String} (h : '\n' ∉ text.toList) :
    hasCode (Dialect.comment .python text) = false := by
  have line : (Dialect.comment .python text).toList = '#' :: ' ' :: text.toList := by
    simp [Dialect.comment, Dialect.commentStart]
  have whole : ('#' :: ' ' :: text.toList).splitOn '\n' = ['#' :: ' ' :: text.toList] := by
    refine List.splitOnP_eq_singleton fun c hc => ?_
    rcases List.mem_cons.1 hc with rfl | hc
    · decide
    · rcases List.mem_cons.1 hc with rfl | hc
      · decide
      · rw [beq_eq_false_iff_ne]
        rintro rfl
        exact h hc
  have start : ['#'] <+: Text.Chars.trim ('#' :: ' ' :: text.toList) := by
    rw [Text.Chars.trim, Text.Chars.trimStart_eq_self (by simp; decide),
      Text.Chars.prefix_trimEnd_iff (by simp; decide)]
    exact ⟨_, rfl⟩
  obtain ⟨trimmed, htrimmed⟩ := start
  rw [hasCode, Text.splitOn, line, Text.Chars.splitOn_eq, whole]
  simp [isCode, Text.trim, ← htrimmed]

theorem not_speaks_unsupported {i : Item} (h : '\n' ∉ i.element.varName.toList) :
    ∀ st ∈ s.unsupported i, st.speaks = false := by
  have dialect : '\n' ∉ s.dialect.name.toList := by
    cases s.dialect <;> decide
  have kind := not_mem_name_feed i.element.kind
  have describe : '\n' ∉ i.element.describe.toList := by
    unfold Element.describe
    split <;> simp [h, kind]
  have message : hasCode (Dialect.comment .python
      (i.element.describe ++ " cannot be generated for " ++ s.dialect.name)) = false :=
    hasCode_comment (by simp [describe, dialect])
  simp [unsupported, Step.speaks, Dialect.stmt, message]

mutual

/-- Whether a statement is written for a node or for one below it. -/
def writes (s : Site) (above : List Item) : Branch Item → Bool
  | .mk i cs =>
    !i.isMenuBuilder && s.creates i.kind &&
      (i.element.selector?.isSome || isPlaced i above || s.writesAny (i :: above) cs)

/-- Whether one is written for any of some siblings. -/
def writesAny (s : Site) (above : List Item) : List (Branch Item) → Bool
  | [] => false
  | b :: bs => s.writes above b || s.writesAny above bs

end

mutual

/-- Where a node is confined to platforms, a statement is written for it or for one below it; and so
it is with the nodes below. -/
def BlocksPlaced (s : Site) (above : List Item) : Branch Item → Prop
  | .mk i cs =>
    i.isMenuBuilder = false → s.creates i.kind = true →
      (i.element.selector?.isSome = true →
        isPlaced i above = true ∨ s.writesAny (i :: above) cs = true) ∧
      s.BlocksPlacedAll (i :: above) cs

/-- The same for siblings. -/
def BlocksPlacedAll (s : Site) (above : List Item) : List (Branch Item) → Prop
  | [] => True
  | b :: bs => s.BlocksPlaced above b ∧ s.BlocksPlacedAll above bs

end

/-- For a node itself something is written if and only if it is placed. -/
theorem exists_speaks_iff_isPlaced (own : StartsPlain p.item.name) (parent : ParentPlain p.above) :
    (∃ st ∈ s.createNode p ++ s.finish p, st.speaks = true) ↔ isPlaced p.item p.above = true := by
  constructor
  · rintro ⟨st, hst, -⟩
    by_contra placed
    rw [steps_eq_nil (Bool.eq_false_iff.2 placed)] at hst
    cases hst
  · intro placed
    obtain ⟨st, hst, speaks⟩ := exists_speaks_createNode (s := s) own parent placed
    exact ⟨st, List.mem_append_left _ hst, speaks⟩

theorem parentPlain_cons {i : Item} (h : i.HasPlainName) (above : List Item) :
    ParentPlain (i :: above) := by
  rintro _ ⟨⟩ -
  exact h.starts

/-- In the body of a block something is written if the node is placed or something is written for
one below it. -/
theorem exists_speaks_body (own : StartsPlain p.item.name) (parent : ParentPlain p.above)
    {steps : List Step} {below : Bool} (h : (∃ st ∈ steps, st.speaks = true) ↔ below = true) :
    (∃ st ∈ s.createNode p ++ steps ++ s.finish p, st.speaks = true) ↔
      isPlaced p.item p.above = true ∨ below = true := by
  rw [← h, ← exists_speaks_iff_isPlaced (s := s) own parent]
  simp only [List.mem_append, or_and_right, exists_or]
  exact or_right_comm

mutual

theorem exists_speaks_planNode (s : Site) {above : List Item} (before : List Item)
    {b : Branch Item} (parent : ParentPlain above)
    (names : ∀ sp ∈ spotsOf above b, sp.item.HasPlainName) :
    (∃ st ∈ s.planNode above before b, st.speaks = true) ↔ s.writes above b = true := by
  cases b with
  | mk i cs =>
    obtain ⟨own, below⟩ := List.forall_mem_cons.1 names
    let p : Place := { item := i, children := cs.map Branch.label, above, before }
    have inside := exists_speaks_body (s := s) (p := p) own.starts parent
      (exists_speaks_planAll s [] (parentPlain_cons own above) below)
    unfold planNode writes
    dsimp only
    cases hm : i.isMenuBuilder with
    | true => simp
    | false =>
      cases hc : s.creates i.kind with
      | false =>
        have silent := not_speaks_unsupported (s := s) own.one_line
        simpa using silent
      | true =>
        simp only [Bool.false_eq_true, if_false, if_true, Bool.not_false, Bool.true_and,
          Bool.or_eq_true]
        unfold confined
        cases i.element.selector? with
        | none => simpa [or_assoc] using inside
        | some selector => simp [Step.speaks]

/-- For a node or for one below it something is written. -/
theorem exists_speaks_planAll (s : Site) {above : List Item} (before : List Item)
    {bs : List (Branch Item)} (parent : ParentPlain above)
    (names : ∀ sp ∈ spotsOfAll above bs, sp.item.HasPlainName) :
    (∃ st ∈ s.planAll above before bs, st.speaks = true) ↔ s.writesAny above bs = true := by
  cases bs with
  | nil => simp [planAll, writesAny]
  | cons b bs =>
    rw [spotsOfAll, List.forall_mem_append] at names
    have first : (∃ st ∈ s.planNode above before b, st.speaks = true) ↔ s.writes above b = true :=
      exists_speaks_planNode s before parent names.1
    have rest : (∃ st ∈ s.planAll above (b.label :: before) bs, st.speaks = true) ↔
        s.writesAny above bs = true := exists_speaks_planAll s _ parent names.2
    rw [planAll, writesAny, Bool.or_eq_true, ← first, ← rest]
    simp only [List.mem_append, or_and_right, exists_or]

end

mutual

theorem speaks_iff_blocksPlaced (s : Site) {above before : List Item} {b : Branch Item}
    (parent : ParentPlain above) (names : ∀ sp ∈ spotsOf above b, sp.item.HasPlainName) :
    s.Speaks above before b ↔ s.BlocksPlaced above b := by
  cases b with
  | mk i cs =>
    obtain ⟨own, below⟩ := List.forall_mem_cons.1 names
    let p : Place := { item := i, children := cs.map Branch.label, above, before }
    have inside := exists_speaks_body (s := s) (p := p) own.starts parent
      (exists_speaks_planAll s [] (parentPlain_cons own above) below)
    unfold Speaks BlocksPlaced
    rw [← speaksAll_iff_blocksPlacedAll s (parentPlain_cons own above) below, ← inside]

theorem speaksAll_iff_blocksPlacedAll (s : Site) {above before : List Item}
    {bs : List (Branch Item)} (parent : ParentPlain above)
    (names : ∀ sp ∈ spotsOfAll above bs, sp.item.HasPlainName) :
    s.SpeaksAll above before bs ↔ s.BlocksPlacedAll above bs := by
  cases bs with
  | nil => exact Iff.rfl
  | cons b bs =>
    rw [spotsOfAll, List.forall_mem_append] at names
    rw [SpeaksAll, BlocksPlacedAll, speaks_iff_blocksPlaced s parent names.1,
      speaksAll_iff_blocksPlacedAll s parent names.2]

end

end Site

/-! ## The form -/

namespace Form

open Dialect

variable (f : Form)

/-- The variables of the nodes below the form have names that look like names. -/
def HasPlainNames : Prop :=
  ∀ sp ∈ f.innerSpots, sp.item.HasPlainName

/-- Every node that is confined to platforms is placed or has a node below it that is, and every
group of bindings that is confined has a handler that is no function in place. -/
structure BlocksPlaced (c : Collected) : Prop where
  nodes : (f.site .python c.images).BlocksPlacedAll f.path f.children
  bindings : ∀ part ∈ c.events.bound.bySelector, ∃ u ∈ part.2, isInline u.event.handler = false
  entries : ∀ menu ∈ f.menuBranches,
    { f.site .python c.images with inMenu := true }.BlocksPlacedAll (menu.2.label :: menu.1)
      menu.2.children

variable {f}

/-- In Python a binding is written unless its handler is a function in place. -/
theorem speaks_bind {u : EventUse} (name : u.item.kind.isForm = false → StartsPlain u.item.name) :
    (Step.bind (f.binding u)).speaks = true ↔ isInline u.event.handler = false := by
  have source (v : Var) (h : u.item.bindSource = .window v) : StartsPlain v.name := by
    obtain ⟨hf, -, rfl⟩ := bindSource_window h
    exact name hf
  unfold Step.speaks Dialect.binding
  cases hi : isInline u.event.handler with
  | true => simp [binding, hi]
  | false =>
    refine iff_of_true ?_ rfl
    simp only [binding, hi, Bool.false_and, Bool.false_eq_true, if_false, Option.any_some]
    have bind : StartsPlain "self.Bind(" := rfl
    cases hs : u.item.bindSource with
    | form => exact ((((bind.append _).append _).append _).append _).hasCode
    | window v =>
      exact ((((((startsPlain_varRef (source v hs)).append _).append _).append _).append _).append
        _).hasCode
    | item id =>
      exact ((((((bind.append _).append _).append _).append _).append _).append _).hasCode

/-- The events of a selector are events of the form's nodes. -/
theorem mem_spots_of_mem_bySelector {part : String × List EventUse}
    (hpart : part ∈ f.events.sort.bound.bySelector) {u : EventUse} (hu : u ∈ part.2) :
    u.spot ∈ f.spots := by
  have entry : (some part.1, u) ∈ f.events.sort.bound.entries :=
    List.mem_append_right _ (List.mem_flatMap.2 ⟨part, hpart, List.mem_map_of_mem hu⟩)
  exact mem_spots_of_mem_placedUses (mem_entries_bound.1 entry)

/-- Where names look like names, a statement is written into each block if and only if something is
placed in it. -/
theorem blocksSpeak_iff_blocksPlaced (hf : f.node.kind.isForm = true) (names : f.HasPlainNames)
    {c : Collected} (hc : c.events = f.events.sort) : f.BlocksSpeak c ↔ f.BlocksPlaced c := by
  have parent : Site.ParentPlain f.path := by
    rintro _ ⟨⟩ h
    exact Bool.noConfusion (hf.symm.trans h)
  have nodes : (f.site .python c.images).SpeaksAll f.path [] f.children ↔
      (f.site .python c.images).BlocksPlacedAll f.path f.children :=
    Site.speaksAll_iff_blocksPlacedAll _ parent names
  have bindings (part : String × List EventUse) (hpart : part ∈ c.events.bound.bySelector)
      (u : EventUse) (hu : u ∈ part.2) :
      (Step.bind (f.binding u)).speaks = true ↔ isInline u.event.handler = false := by
    refine speaks_bind fun hk => ?_
    rw [hc] at hpart
    have spot := mem_innerSpots_of_not_isForm (mem_spots_of_mem_bySelector hpart hu) hf hk
    exact (names _ spot).starts
  have entries (menu : List Item × Branch Item) (hmenu : menu ∈ f.menuBranches) :
      { f.site .python c.images with inMenu := true }.SpeaksAll (menu.2.label :: menu.1) []
          menu.2.children ↔
        { f.site .python c.images with inMenu := true }.BlocksPlacedAll (menu.2.label :: menu.1)
          menu.2.children := by
    obtain ⟨above, i, cs⟩ := menu
    have builder : { item := i, above } ∈ f.innerSpots :=
      mem_innerSpots_of_mem_menuBuilders hf (List.mem_map_of_mem hmenu)
    exact Site.speaksAll_iff_blocksPlacedAll _ (Site.parentPlain_cons (names _ builder) above)
      fun sp hsp => names sp (spots_subset_of_mem_menuBranchesIn hmenu hsp)
  constructor
  · intro h
    refine ⟨nodes.1 h.nodes, fun part hpart => ?_, fun menu hmenu =>
      (entries menu hmenu).1 (h.entries menu hmenu)⟩
    obtain ⟨u, hu, speaks⟩ := h.bindings part hpart
    exact ⟨u, hu, (bindings part hpart u hu).1 speaks⟩
  · intro h
    refine ⟨nodes.2 h.nodes, fun part hpart => ?_, fun menu hmenu =>
      (entries menu hmenu).2 (h.entries menu hmenu)⟩
    obtain ⟨u, hu, named⟩ := h.bindings part hpart
    exact ⟨u, hu, (bindings part hpart u hu).2 named⟩

end Form

/-- **Of the class that is generated in Python:** each block for platforms holds a statement exactly
when a step in it is written as one; and where names look like names that is when something is
placed in each. -/
theorem platformBlocks_filled_iff {t : Tree} {id : Nat} {f : Form} (hf : Form.ofTree t id = .ok f)
    {o : Options} {source : FileSource} {cache after : Cache} {table : ImageTable}
    (images : f.images source o.artDirectory cache = (.ok table, after)) :
    let c := f.collected .python table after
    generateSource t id (.source .python) o source cache = (.ok (f.output .python o c), after) ∧
      (Filled (f.classEdits .python (f.classInfo o c.events) c) ↔ f.BlocksSpeak c) ∧
      (f.HasPlainNames → (f.BlocksSpeak c ↔ f.BlocksPlaced c)) := by
  refine ⟨?_, f.filled_classEdits_iff _ _, fun names =>
    Form.blocksSpeak_iff_blocksPlaced (Form.isForm_of_ofTree hf) names rfl⟩
  rw [generateSource_eq hf rfl, Form.generate, images]

/-- In the dialog with the panel for Windows, the panel and its event fill their blocks. -/
theorem menuDialog_platformBlocks_filled :
    let c := menuDialog.collected .python .empty .empty
    generateSource (.ofDesign menuDesign) 0 (.source .python) .default noFiles .empty
        = (.ok (menuDialog.output .python .default c), .empty) ∧
      menuDialog.HasPlainNames ∧
      Filled (menuDialog.classEdits .python (menuDialog.classInfo .default c.events) c) := by
  have hf : Form.ofTree (.ofDesign menuDesign) 0 = .ok menuDialog := by with_unfolding_all rfl
  have images : menuDialog.images noFiles Options.default.artDirectory .empty
      = (.ok .empty, .empty) := rfl
  obtain ⟨generated, filled, placed⟩ := platformBlocks_filled_iff hf images
  have names : menuDialog.HasPlainNames := by
    have plain : ∀ sp ∈ menuDialog.innerSpots,
        sp.item.name.toList.head?.any (fun c => !Text.isBlank c && c != '#') = true ∧
          '\n' ∉ sp.item.element.varName.toList := by decide +kernel
    exact fun sp hsp => ⟨(plain sp hsp).1, (plain sp hsp).2⟩
  refine ⟨generated, names, filled.2 ((placed names).2 ⟨?_, ?_, ?_⟩)⟩
  -- below the panel there is only the menu, which takes no steps of the constructor
  · exact ⟨fun _ _ => ⟨fun _ => Or.inl rfl, fun h => absurd h (by decide), trivial⟩, trivial⟩
  · decide +kernel
  -- the entry of the menu is confined to no platforms
  · intro menu hmenu
    obtain rfl := List.mem_singleton.1 hmenu
    exact ⟨fun _ _ => ⟨fun h => absurd h (by decide), trivial⟩, trivial⟩

/-- A button for Windows alone, with a handler in place. -/
def inPlaceButton : Element where
  kind := .button
  props := [(.varName, "m_button"), (.platforms, "Windows")]
  events := [{ name := "wxEVT_BUTTON", handler := "[](wxCommandEvent&) \x7b\x7d" }]

/-- A dialog with that button. -/
def inPlaceDesign : Design :=
  .mk { Element.ofKind .dialog with props := [(.className, "Dlg")] } [.mk inPlaceButton []]

/-- The form of that dialog. -/
def inPlaceDialog : Form where
  node :=
    { Element.ofKind .dialog with
      props := [(.className, "Dlg")], id := 0, parent := none, children := [1] }
  children :=
    [.mk
      { node := { inPlaceButton with id := 1, parent := some 0, children := [] },
        name := "m_button" }
      []]
  above := []

/-- Python cannot bind the handler of the button, and so the block for Windows stays empty. -/
theorem inPlaceDialog_not_filled :
    let c := inPlaceDialog.collected .python .empty .empty
    Form.ofTree (.ofDesign inPlaceDesign) 0 = .ok inPlaceDialog ∧
      generateSource (.ofDesign inPlaceDesign) 0 (.source .python) .default noFiles .empty
        = (.ok (inPlaceDialog.output .python .default c), .empty) ∧
      Dialect.steps .python (inPlaceDialog.bindSteps c.events)
        = [.line "if wx.Platform == \"__WXMSW__\":", .indent, .unindent] ∧
      ¬Filled (inPlaceDialog.classEdits .python (inPlaceDialog.classInfo .default c.events) c) := by
  have hf : Form.ofTree (.ofDesign inPlaceDesign) 0 = .ok inPlaceDialog := by
    with_unfolding_all rfl
  refine ⟨hf, ?_, ?_, fun h => ?_⟩
  · rw [generateSource_eq hf rfl]
    rfl
  · decide +kernel
  · have bindings := ((Form.filled_classEdits_iff _ _ _).1 h).bindings
    revert bindings
    decide +kernel

end FormDesign
