import FormDesign.Proofs.Code.Visit
import FormDesign.Proofs.Grouped

/-!
# The header declares what the constructor creates

The variable of a node is computed twice: by the plan, which creates an object in it, and by the
pass over the members, which declares it.

* `Form.mem_part_members`: the lines that declare members come from the spots outside of menus
* `Form.declaredBy_members`: which lines are in which part
* `Form.declared_of_created`: in C++ both agree on every variable that is a member, and a node with
  a local variable brings no more than the variable of its validator
-/

namespace FormDesign

/-! ## The lines that declare members -/

namespace MemberTable

/-- The lines for members of some visibility, under a destination. -/
def part (t : MemberTable) (a : Access) (destination : Option String) : List String :=
  match a with
  | .publicMember => t.exposed.part destination
  | .protectedMember => t.guarded.part destination
  | .temporary => []

/-- The selectors of both tables are in order. -/
structure Ordered (t : MemberTable) : Prop where
  exposed : t.exposed.Ordered
  guarded : t.guarded.Ordered

/-- No selector of either table has an empty part. -/
structure Inhabited (t : MemberTable) : Prop where
  exposed : t.exposed.Inhabited
  guarded : t.guarded.Inhabited

end MemberTable

namespace Spot

/-- The declaration of the variable of a node. -/
def declaration (d : Dialect) (s : Spot) : MemberDeclaration :=
  let e := s.item.element
  let resolved := resolveClass d e
  { varName := s.item.name, classToken := resolved.token, byValue := resolved.byValue,
    comment := e.text .varComment, isPublic := Access.of e == .publicMember }

/-- The line declares the variable of the node as a member of some visibility. -/
structure Declares (d : Dialect) (s : Spot) (a : Access) (line : String) : Prop where
  access : Access.of s.item.element = a
  isMember : a.isMember = true
  hasClass : s.item.kind.hasClass = true
  line_eq : d.memberDeclaration (s.declaration d) = some line

/-- The line declares the validator variable of the node, which is always protected. -/
structure DeclaresValidator (d : Dialect) (s : Spot) (a : Access) (line : String) : Prop where
  access : a = .protectedMember
  line_eq : s.item.element.validator? >>= d.validatorDeclaration = some line

end Spot

namespace MemberTable

variable {d : Dialect} {s : Spot} {t : MemberTable}

/-- A node without a variable of the class leaves the table as it is. -/
theorem addVariable_of_not_member
    (h : ((Access.of s.item.element).isMember && s.item.kind.hasClass) = false) :
    t.addVariable d s = t := by
  have h : ((Access.of s.item.element).isMember && s.item.element.kind.hasClass) = false := h
  simp [addVariable, h]

theorem Ordered.addVariable (h : t.Ordered) : (t.addVariable d s).Ordered := by
  unfold MemberTable.addVariable
  dsimp only
  split
  · split
    · exact ⟨h.exposed, h.guarded⟩
    · split
      · exact ⟨h.exposed.alter _ _, h.guarded⟩
      · exact ⟨h.exposed, h.guarded.alter _ _⟩
  · exact h

theorem Ordered.addValidator (h : t.Ordered) : (t.addValidator d s).Ordered := by
  unfold MemberTable.addValidator
  split
  · exact h
  · exact ⟨h.exposed, h.guarded.alter _ _⟩

theorem Inhabited.addVariable (h : t.Inhabited) : (t.addVariable d s).Inhabited := by
  unfold MemberTable.addVariable
  dsimp only
  split
  · split
    · exact ⟨h.exposed, h.guarded⟩
    · split
      · exact ⟨h.exposed.insert _ _, h.guarded⟩
      · exact ⟨h.exposed, h.guarded.insert _ _⟩
  · exact h

theorem Inhabited.addValidator (h : t.Inhabited) : (t.addValidator d s).Inhabited := by
  unfold MemberTable.addValidator
  split
  · exact h
  · exact ⟨h.exposed, h.guarded.insert _ _⟩

/-- What is declared once the variable of a node was added. -/
theorem mem_part_addVariable (h : t.Ordered) {a : Access} {destination : Option String}
    {line : String} :
    line ∈ (t.addVariable d s).part a destination ↔
      s.destination = destination ∧ s.Declares d a line ∨ line ∈ t.part a destination := by
  by_cases hm : ((Access.of s.item.element).isMember && s.item.kind.hasClass) = true
  · obtain ⟨hmember, hclass⟩ := Bool.and_eq_true_iff.1 hm
    have declares (l : String) (hl : d.memberDeclaration (s.declaration d) = some l) :
        s.Declares d a line ↔ Access.of s.item.element = a ∧ line = l := by
      refine ⟨fun hd => ⟨hd.access, Option.some.inj (hd.line_eq.symm.trans hl)⟩, ?_⟩
      rintro ⟨ha, hline⟩
      exact ⟨ha, ha ▸ hmember, hclass, hline ▸ hl⟩
    have hm : ((Access.of s.item.element).isMember && s.item.element.kind.hasClass) = true := hm
    unfold addVariable
    simp only [hm, if_true]
    split
    · next hl =>
      have hl : d.memberDeclaration (s.declaration d) = none := hl
      have hn : ¬s.Declares d a line := by
        intro hd
        cases hl.symm.trans hd.line_eq
      cases a <;> simp [part, hn]
    · next l hl =>
      have hl : d.memberDeclaration (s.declaration d) = some l := hl
      rw [declares l hl]
      by_cases hp : Access.of s.item.element = .publicMember
      · rw [if_pos (by simp [hp]), hp]
        cases a
        case publicMember => simpa [part] using Grouped.mem_part_insert h.exposed
        all_goals simp [part]
      · have hp' : Access.of s.item.element = .protectedMember := by
          cases ha : Access.of s.item.element <;> simp_all [Access.isMember]
        rw [if_neg (by simp [hp]), hp']
        cases a
        case protectedMember => simpa [part] using Grouped.mem_part_insert h.guarded
        all_goals simp [part]
  · have hm : ((Access.of s.item.element).isMember && s.item.kind.hasClass) = false := by
      simpa using hm
    have hn : ¬s.Declares d a line := by
      intro hd
      rw [hd.access, hd.isMember, hd.hasClass] at hm
      exact Bool.noConfusion hm
    rw [addVariable_of_not_member hm]
    simp [hn]

theorem mem_part_addValidator (h : t.Ordered) {a : Access} {destination : Option String}
    {line : String} :
    line ∈ (t.addValidator d s).part a destination ↔
      s.destination = destination ∧ s.DeclaresValidator d a line ∨ line ∈ t.part a destination := by
  unfold addValidator
  split
  · next hv =>
    have hn : ¬s.DeclaresValidator d a line := by
      intro hd
      cases hv.symm.trans hd.line_eq
    simp [hn]
  · next l hv =>
    have hd : s.DeclaresValidator d a line ↔ a = .protectedMember ∧ line = l := by
      refine ⟨fun hd => ⟨hd.access, Option.some.inj (hd.line_eq.symm.trans hv)⟩, ?_⟩
      rintro ⟨ha, hl⟩
      exact ⟨ha, hl ▸ hv⟩
    rw [hd]
    cases a
    case protectedMember => simpa [part] using Grouped.mem_part_insert h.guarded
    all_goals simp [part]

/-- What is declared once a node was visited. -/
theorem mem_part_addSpot (h : t.Ordered) {a : Access} {destination : Option String}
    {line : String} :
    line ∈ (t.addSpot d s).part a destination ↔
      s.destination = destination ∧ (s.Declares d a line ∨ s.DeclaresValidator d a line) ∨
        line ∈ t.part a destination := by
  rw [addSpot, mem_part_addValidator h.addVariable, mem_part_addVariable h, and_or_left,
    or_left_comm, or_assoc]

theorem mem_part_foldl (h : t.Ordered) {spots : List Spot} {a : Access}
    {destination : Option String} {line : String} :
    line ∈ (spots.foldl (addSpot d) t).part a destination ↔
      (∃ s ∈ spots, s.destination = destination ∧
        (s.Declares d a line ∨ s.DeclaresValidator d a line)) ∨ line ∈ t.part a destination := by
  induction spots generalizing t with
  | nil => simp
  | cons s spots ih =>
    have next : (t.addSpot d s).Ordered := h.addVariable.addValidator
    rw [List.foldl_cons, ih next, mem_part_addSpot h]
    simp only [List.mem_cons, exists_eq_or_imp]
    exact or_left_comm.trans or_assoc.symm

theorem ordered_empty : empty.Ordered :=
  ⟨Grouped.ordered_empty, Grouped.ordered_empty⟩

theorem Ordered.foldl (h : t.Ordered) (spots : List Spot) :
    (spots.foldl (addSpot d) t).Ordered := by
  induction spots generalizing t with
  | nil => exact h
  | cons s spots ih => exact ih h.addVariable.addValidator

theorem Inhabited.foldl (h : t.Inhabited) (spots : List Spot) :
    (spots.foldl (addSpot d) t).Inhabited := by
  induction spots generalizing t with
  | nil => exact h
  | cons s spots ih => exact ih h.addVariable.addValidator

theorem inhabited_empty : empty.Inhabited :=
  ⟨fun _ he => (List.not_mem_nil he).elim, fun _ he => (List.not_mem_nil he).elim⟩

end MemberTable

/-- **The members of the class are those of the spots outside of context menus.** -/
theorem Form.mem_part_members (f : Form) (d : Dialect) {a : Access} {destination : Option String}
    {line : String} :
    line ∈ (f.members d).part a destination ↔
      ∃ s ∈ spotsOutsideMenusAll f.path f.children, s.destination = destination ∧
        (s.Declares d a line ∨ s.DeclaresValidator d a line) := by
  have none : line ∉ MemberTable.empty.part a destination := by
    cases a <;> cases destination <;>
      simp [MemberTable.part, MemberTable.empty, Grouped.part, Grouped.part?, Grouped.empty,
        Sorted.get?]
  rw [members, MemberTable.mem_part_foldl MemberTable.ordered_empty]
  simp [none]

/-- A line that declares a member does it for the variable of a node or for that of a validator. -/
theorem Form.declares_of_mem_members (f : Form) (d : Dialect) {line : String}
    (h : line ∈ (f.members d).exposed.toList ++ (f.members d).guarded.toList) :
    ∃ s a, Spot.Declares d s a line ∨ Spot.DeclaresValidator d s a line := by
  have ordered : (f.members d).Ordered := MemberTable.ordered_empty.foldl _
  obtain ⟨a, destination, h⟩ : ∃ a destination, line ∈ (f.members d).part a destination := by
    rcases List.mem_append.1 h with h | h
    · obtain ⟨destination, h⟩ := Grouped.mem_part_of_mem_toList ordered.exposed h
      exact ⟨.publicMember, destination, h⟩
    · obtain ⟨destination, h⟩ := Grouped.mem_part_of_mem_toList ordered.guarded h
      exact ⟨.protectedMember, destination, h⟩
  obtain ⟨s, -, -, h⟩ := (f.mem_part_members d).1 h
  exact ⟨s, a, h⟩

/-! ## The spots that may declare a member -/

namespace Form

variable {f : Form}

/-- Whether neither the spot nor one above it inside the form opens a context menu. -/
def isOutsideMenus (f : Form) (sp : Spot) : Bool :=
  (sp.item :: f.inside sp.above).all fun i => !i.isMenuBuilder

/-- The spots that lie below a node that opens a menu are no spots outside of menus. -/
theorem filter_isOutsideMenus_of_menu {inner : List Item}
    (menu : inner.any (·.isMenuBuilder) = true) (bs : List (Branch Item)) :
    (spotsOfAll (inner ++ f.path) bs).filter f.isOutsideMenus = [] := by
  refine List.filter_eq_nil_iff.2 fun sp hsp hout => ?_
  obtain ⟨nearer, habove⟩ := suffix_of_mem_spotsOfAll hsp
  obtain ⟨i, hi, hm⟩ := List.any_eq_true.1 menu
  rw [isOutsideMenus, ← habove, ← List.append_assoc, inside_append] at hout
  have fail := List.all_eq_true.1 hout i
    (List.mem_cons_of_mem _ (List.mem_append_right nearer hi))
  rw [hm] at fail
  cases fail

mutual

theorem spotsOutsideMenus_eq {inner : List Item} (outside : inner.any (·.isMenuBuilder) = false)
    (b : Branch Item) :
    spotsOutsideMenus (inner ++ f.path) b
      = (spotsOf (inner ++ f.path) b).filter f.isOutsideMenus := by
  cases b with
  | mk i cs =>
    have self : f.isOutsideMenus { item := i, above := inner ++ f.path } = !i.isMenuBuilder := by
      rw [isOutsideMenus, inside_append, List.all_cons, ← List.not_any_eq_all_not, outside,
        Bool.not_false, Bool.and_true]
    unfold spotsOutsideMenus spotsOf
    rw [List.filter_cons, self]
    cases hm : i.isMenuBuilder with
    | true =>
      have menu : (i :: inner).any (·.isMenuBuilder) = true := by
        rw [List.any_cons, hm, Bool.true_or]
      exact (filter_isOutsideMenus_of_menu menu cs).symm
    | false =>
      have outside : (i :: inner).any (·.isMenuBuilder) = false := by
        rw [List.any_cons, hm, outside]
        rfl
      rw [if_neg Bool.false_ne_true, if_pos Bool.not_false]
      exact congrArg (List.cons _) (spotsOutsideMenusAll_eq outside cs)

/-- The spots outside of menus are those that have no menu around them. -/
theorem spotsOutsideMenusAll_eq {inner : List Item} (outside : inner.any (·.isMenuBuilder) = false)
    (bs : List (Branch Item)) :
    spotsOutsideMenusAll (inner ++ f.path) bs
      = (spotsOfAll (inner ++ f.path) bs).filter f.isOutsideMenus := by
  cases bs with
  | nil => rfl
  | cons b bs =>
    unfold spotsOutsideMenusAll spotsOfAll
    rw [List.filter_append, spotsOutsideMenus_eq outside b, spotsOutsideMenusAll_eq outside bs]

end

/-- The spot lies below the form, and neither it nor one above it inside the form opens a context
menu. -/
structure Eligible (f : Form) (sp : Spot) : Prop where
  below : sp ∈ f.innerSpots
  opensNone : sp.item.isMenuBuilder = false
  inNone : ∀ i ∈ f.inside sp.above, i.isMenuBuilder = false

theorem mem_spotsOutsideMenusAll {sp : Spot} :
    sp ∈ spotsOutsideMenusAll f.path f.children ↔ f.Eligible sp := by
  have heq := @spotsOutsideMenusAll_eq f [] rfl f.children
  rw [List.nil_append] at heq
  rw [heq, List.mem_filter, isOutsideMenus, List.all_cons, Bool.and_eq_true, Bool.not_eq_true',
    List.all_eq_true]
  simp only [Bool.not_eq_true']
  exact ⟨fun ⟨hin, hown, habove⟩ => ⟨hin, hown, habove⟩, fun h => ⟨h.below, h.opensNone, h.inNone⟩⟩

/-- **The table has the lines that the form declares**, each under its visibility and destination,
and no other lines. -/
structure DeclaredBy (f : Form) (d : Dialect) (t : MemberTable) : Prop where
  mem_exposed : ∀ destination line, line ∈ t.exposed.part destination ↔
    ∃ sp, f.Eligible sp ∧ sp.destination = destination ∧ sp.Declares d .publicMember line
  mem_guarded : ∀ destination line, line ∈ t.guarded.part destination ↔
    ∃ sp, f.Eligible sp ∧ sp.destination = destination ∧
      (sp.Declares d .protectedMember line ∨
        sp.item.element.validator? >>= d.validatorDeclaration = some line)
  /-- Each selector has one part. -/
  ordered : t.Ordered
  /-- No selector has an empty part. -/
  inhabited : t.Inhabited

/-- **The members that are collected are those that the form declares.** -/
theorem declaredBy_members (f : Form) (d : Dialect) : f.DeclaredBy d (f.members d) where
  mem_exposed destination line := by
    refine (f.mem_part_members d (a := .publicMember)).trans (exists_congr fun sp => ?_)
    rw [mem_spotsOutsideMenusAll]
    refine and_congr_right fun _ => and_congr_right fun _ => or_iff_left ?_
    intro hv
    cases hv.access
  mem_guarded destination line := by
    refine (f.mem_part_members d (a := .protectedMember)).trans (exists_congr fun sp => ?_)
    rw [mem_spotsOutsideMenusAll]
    refine and_congr_right fun _ => and_congr_right fun _ => or_congr_right ?_
    exact ⟨fun hv => hv.line_eq, fun hv => ⟨rfl, hv⟩⟩
  ordered := MemberTable.ordered_empty.foldl _
  inhabited := MemberTable.inhabited_empty.foldl _

/-- Of the lines that the form declares, a node brings at most that of its validator variable: the
others are there for other nodes. -/
structure BringsOnlyValidator (f : Form) (d : Dialect) (sp : Spot) : Prop where
  undeclared : ∀ a line, ¬ sp.Declares d a line
  mem_part : ∀ a destination line, line ∈ (f.members d).part a destination ↔
    (∃ other, other ≠ sp ∧ f.Eligible other ∧ other.destination = destination ∧
      (other.Declares d a line ∨ other.DeclaresValidator d a line)) ∨
    sp.destination = destination ∧ sp.DeclaresValidator d a line

/-- So it is with a node whose own variable is not declared. -/
theorem bringsOnlyValidator {d : Dialect} {sp : Spot} (eligible : f.Eligible sp)
    (undeclared : ∀ a line, ¬ sp.Declares d a line) : f.BringsOnlyValidator d sp where
  undeclared := undeclared
  mem_part a destination line := by
    rw [f.mem_part_members d]
    simp only [mem_spotsOutsideMenusAll]
    constructor
    · rintro ⟨other, hother, hdestination, hdeclares⟩
      by_cases same : other = sp
      · subst same
        exact Or.inr ⟨hdestination, hdeclares.resolve_left (undeclared a line)⟩
      · exact Or.inl ⟨other, same, hother, hdestination, hdeclares⟩
    · rintro (⟨other, -, hother, hdestination, hdeclares⟩ | ⟨hdestination, hvalidator⟩)
      · exact ⟨other, hother, hdestination, hdeclares⟩
      · exact ⟨sp, eligible, hdestination, Or.inr hvalidator⟩

end Form

/-! ## The variables of the constructor -/

theorem byValue_resolveClass (d : Dialect) (e : Element) :
    (resolveClass d e).byValue = (e.kind == .timer) := by
  unfold resolveClass
  dsimp only
  split
  · rfl
  · split
    · rfl
    · split <;> rfl

/-- Nodes that keep an object have a class to instantiate. -/
theorem Kind.hasClass_of_hasConstruction (k : Kind) (hc : k.hasConstruction = true)
    (hs : k.category ≠ .spacer) (ht : k.category ≠ .tool) (hr : k ≠ .separator) :
    k.hasClass = true := by
  cases k <;> simp_all [hasConstruction, category, hasClass, className, name]

theorem Site.hasClass_of_keeps {s : Site} {i : Item} {above : List Item}
    (hc : s.creates i.kind = true) (hk : keeps i above = true) : i.kind.hasClass = true := by
  have hc : i.kind.hasConstruction = true := (Bool.and_eq_true_iff.1 hc).2
  refine i.kind.hasClass_of_hasConstruction hc ?_ ?_ ?_
  · intro h
    simp [keeps, h] at hk
  · intro h
    simp [keeps, h] at hk
  · intro h
    simp [keeps, h, Kind.category] at hk

namespace Form

/-- **The header declares the members that the constructor creates.** A member is declared with the
name and the class that it is created with, as a value when it is created as one, among the members
of its visibility and under its platforms. A local variable is not declared: of its node the header
takes no more than the variable of its validator. -/
theorem declared_of_created (f : Form) (images : List Asset) {x : Traced}
    (hx : x ∈ f.trace .cpp images) {p : Place} (ho : x.origin = .node p) {v : Var}
    {className : String} {args : List Expr} {initMethod : Option String}
    (hs : x.step = .stmt (.create v className args initMethod)) :
    (v.isMember = true →
      ∃ line ∈ (f.members .cpp).part (Access.of p.element) p.spot.destination,
        Dialect.cpp.memberDeclaration
          { varName := v.name, classToken := className, byValue := v.byValue,
            comment := p.element.text .varComment,
            isPublic := Access.of p.element == .publicMember } = some line) ∧
      (v.isMember = false → f.BringsOnlyValidator .cpp p.spot) := by
  have hc : x.step.creation? = some (v, className) := by rw [hs]; rfl
  obtain ⟨q, inner, hq, hfrom⟩ :=
    Site.fromNode_of_mem_traceAll (mem_traceAll_of_creation hx hc)
  have eligible : f.Eligible q.spot := mem_spotsOutsideMenusAll.1 hq
  obtain rfl : q = p := Origin.node.inj (hfrom.origin.symm.trans ho)
  obtain ⟨hk, -, hobject⟩ := hfrom.creation hc
  unfold Site.object? at hobject
  split at hobject
  · -- the node keeps the object, and its variable is what its visibility says
    next hkeeps =>
    obtain ⟨rfl, rfl⟩ := Prod.mk.inj (Option.some.inj hobject)
    have hclass := Site.hasClass_of_keeps hk hkeeps
    refine ⟨fun hm => ?_, fun hm => ?_⟩
    · have hm : (Access.of q.item.element).isMember = true := hm
      obtain ⟨line, hline⟩ : ∃ line, Dialect.cpp.memberDeclaration (q.spot.declaration .cpp)
        = some line := ⟨_, rfl⟩
      have hdeclares : q.spot.Declares .cpp (Access.of q.element) line := ⟨rfl, hm, hclass, hline⟩
      refine ⟨line, (f.mem_part_members .cpp).2 ⟨q.spot, hq, rfl, Or.inl hdeclares⟩, ?_⟩
      -- both hold by value the timers that are members
      have hvalue : ((f.site .cpp images).var q.item).byValue
          = (resolveClass .cpp q.item.element).byValue := by
        rw [byValue_resolveClass]
        exact (congrArg (· && q.item.kind == .timer) hm).trans (Bool.true_and _)
      rw [← hline, hvalue]
      rfl
    · have hm : (Access.of q.item.element).isMember = false := hm
      refine bringsOnlyValidator eligible fun a line hdeclares => ?_
      have member := hdeclares.isMember
      rw [← hdeclares.access] at member
      exact Bool.noConfusion (hm.symm.trans member)
  · -- the menu of a tool is local, and a tool has no class
    split at hobject
    · next hd =>
      obtain ⟨rfl, -⟩ := Prod.mk.inj (Option.some.inj hobject)
      refine ⟨fun hmember => ?_, fun _ => ?_⟩
      · cases hmember
      have hd : q.item.kind = .toolDropdown := by
        simp only [Bool.and_eq_true, Site.hasMenu, beq_iff_eq] at hd
        exact hd.1.1
      have hclass : q.item.kind.hasClass = false := by simp [hd, Kind.hasClass, Kind.className]
      refine bringsOnlyValidator eligible fun a line hdeclares => ?_
      exact Bool.noConfusion (hclass.symm.trans hdeclares.hasClass)
    · simp [hfrom.outside] at hobject

end Form

/-- A public timer on one platform. -/
def publicTimer : Item where
  node :=
    { kind := .timer, props := [(.classAccess, "public:"), (.platforms, "Windows")], events := [],
      id := 1, parent := some 0, children := [] }
  name := "m_timer"

/-- A dialog with that timer. -/
def timerDialog : Form where
  node := { kind := .dialog, props := [], events := [], id := 0, parent := none, children := [1] }
  children := [.mk publicTimer []]
  above := []

/-- The step that creates the timer. -/
def timerCreation : Traced where
  blocks := ["Windows"]
  origin :=
    .node { item := publicTimer, children := [], above := timerDialog.path, before := [] }
  step :=
    .stmt (.create { name := "m_timer", isMember := true, byValue := true } "wxTimer" [.self]
      (some "SetOwner"))

theorem timer_declared :
    timerCreation ∈ timerDialog.trace .cpp [] ∧
      "wxTimer m_timer;" ∈ (timerDialog.members .cpp).part .publicMember (some "Windows") := by
  have created : timerCreation ∈ timerDialog.trace .cpp [] := by
    rw [show timerDialog.trace .cpp [] = [timerCreation] from rfl]
    exact List.mem_singleton_self timerCreation
  obtain ⟨line, hline, heq⟩ := (timerDialog.declared_of_created [] created rfl rfl).1 rfl
  obtain rfl : "wxTimer m_timer;" = line := Option.some.inj heq
  exact ⟨created, hline⟩

/-- A text box with a local variable and a validator. -/
def localText : Item where
  node :=
    { kind := .textCtrl, props := [(.classAccess, "none"), (.validatorVariable, "m_value")],
      events := [], id := 1, parent := some 0, children := [] }
  name := "m_text"

/-- A dialog with nothing else in it. -/
def localTextDialog : Form where
  node := { kind := .dialog, props := [], events := [], id := 0, parent := none, children := [1] }
  children := [.mk localText []]
  above := []

/-- Where the text box is. -/
def localTextPlace : Place where
  item := localText
  children := []
  above := localTextDialog.path
  before := []

/-- The text box is created in a local variable, and a line of the header is there for it, which
declares the variable of its validator. -/
theorem localText_declares_validator :
    (∃ x ∈ localTextDialog.trace .cpp [], x.origin = .node localTextPlace ∧
      ∃ v className args initMethod,
        x.step = .stmt (.create v className args initMethod) ∧ v.isMember = false) ∧
      localTextDialog.innerSpots = [localTextPlace.spot] ∧
      "wxString m_value;" ∈ (localTextDialog.members .cpp).part .protectedMember none := by
  have created : (localTextDialog.trace .cpp [])[0]? = some _ := rfl
  have declared :
      "wxString m_value;" ∈ (localTextDialog.members .cpp).part .protectedMember none := by
    decide +kernel
  exact ⟨⟨_, List.mem_of_getElem? created, rfl, _, _, _, _, rfl, rfl⟩, rfl, declared⟩

end FormDesign
