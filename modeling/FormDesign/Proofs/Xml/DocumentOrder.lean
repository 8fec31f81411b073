import FormDesign.Proofs.Tree.Walk
import FormDesign.Proofs.Xml.Edits

/-!
# The order of a document

A node of a document comes before all that is below it, and what is below a node comes before what
is below its later siblings. The elements of a name are found in this order, each of them once, and
none that is outside of the document. What was taken out stays outside, with all that is below it.

* `XmlDocument.Under`, `XmlDocument.Reached`: what is below a node, and what is part of a document
* `XmlDocument.Precedes`: the order of a document
* `XmlDocument.Search`: the search for the elements of a name, with a stack
* `XmlDocument.Arranged.finds`: which elements are found
* `XmlDocument.Arranged.takesOut`: what is different when a child was taken out
* `XmlDocument.run_inOrder`: what holds of every document that is edited
-/

namespace FormDesign

namespace XmlDocument

/-- The node itself, and what is below it. -/
inductive Under (d : XmlDocument) (a : Nat) : Nat → Prop
  | refl : Under d a a
  | child {p c : Nat} (above : Under d a p) (member : c ∈ d.children p) : Under d a c

/-- The nodes that are part of the document: those at the top, and what is below them. -/
inductive Reached (d : XmlDocument) : Nat → Prop
  | top {i : Nat} (member : i ∈ d.top) : Reached d i
  | child {p c : Nat} (above : Reached d p) (member : c ∈ d.children p) : Reached d c

/-- Siblings, the first of them before the second. -/
def Beside (d : XmlDocument) (a b : Nat) : Prop :=
  [a, b].Sublist d.top ∨ ∃ p, [a, b].Sublist (d.children p)

/-- The order of a document: a node comes before what is below it, and after what is below its
earlier siblings. -/
inductive Precedes (d : XmlDocument) : Nat → Nat → Prop
  | below {p c x : Nat} (member : c ∈ d.children p) (under : Under d c x) : Precedes d p x
  | beside {a b x y : Nat} (siblings : d.Beside a b) (first : Under d a x) (second : Under d b y) :
      Precedes d x y

variable {d : XmlDocument} {a b c i p x y : Nat}

/-! ## Below a node -/

theorem Under.trans (h : d.Under a b) (below : d.Under b x) : d.Under a x := by
  induction below with
  | refl => exact h
  | child _ member ih => exact ih.child member

/-- What is below a node is the node, or below one of its children. -/
theorem under_iff : d.Under a x ↔ x = a ∨ ∃ c ∈ d.children a, d.Under c x := by
  constructor
  · intro h
    induction h with
    | refl => exact Or.inl rfl
    | @child p c _ member ih =>
      rcases ih with rfl | ⟨first, hfirst, below⟩
      · exact Or.inr ⟨c, member, .refl⟩
      · exact Or.inr ⟨first, hfirst, below.child member⟩
  · rintro (rfl | ⟨c, member, below⟩)
    · exact .refl
    · exact (Under.child .refl member).trans below

theorem Reached.under (h : d.Reached a) (below : d.Under a x) : d.Reached x := by
  induction below with
  | refl => exact h
  | child _ member ih => exact ih.child member

theorem reached_iff : d.Reached x ↔ ∃ i ∈ d.top, d.Under i x := by
  constructor
  · intro h
    induction h with
    | top member => exact ⟨_, member, .refl⟩
    | child _ member ih =>
      obtain ⟨i, hi, below⟩ := ih
      exact ⟨i, hi, below.child member⟩
  · rintro ⟨i, hi, below⟩
    exact (Reached.top hi).under below

namespace Arranged

theorem lt_of_mem_children (h : d.Arranged) (member : c ∈ d.children p) : p < c :=
  h.parent_lt (h.linked.parent_of_mem member)

theorem eq_of_mem_children (h : d.Arranged) {q : Nat} (hp : c ∈ d.children p)
    (hq : c ∈ d.children q) : p = q :=
  Option.some.inj ((h.linked.parent_of_mem hp).symm.trans (h.linked.parent_of_mem hq))

/-- What is at the top is no child. -/
theorem notMem_children_of_top (h : d.Arranged) (top : i ∈ d.top) : i ∉ d.children p := by
  intro member
  have none := h.linked.parent_of_top i top
  rw [h.linked.parent_of_mem member] at none
  cases none

theorem le_of_under (h : d.Arranged) (below : d.Under a x) : a ≤ x := by
  induction below with
  | refl => exact Nat.le_refl a
  | child _ member ih => exact Nat.le_trans ih (Nat.le_of_lt (h.lt_of_mem_children member))

/-- Of two nodes above a third, one is above the other. -/
theorem under_or_under (h : d.Arranged) (ha : d.Under a x) (hb : d.Under b x) :
    d.Under a b ∨ d.Under b a := by
  induction ha with
  | refl => exact Or.inr hb
  | @child p c above member ih =>
    cases hb with
    | refl => exact Or.inl (above.child member)
    | @child q _ hq hc =>
      obtain rfl := h.eq_of_mem_children member hc
      exact ih hq

/-- Nodes with the same parent, or both without one, are not below each other. -/
theorem eq_of_under (h : d.Arranged) (parents : d.parent? a = d.parent? b) (below : d.Under a b) :
    a = b := by
  cases below with
  | refl => rfl
  | child above member =>
    rw [h.linked.parent_of_mem member] at parents
    exact absurd (h.le_of_under above) (Nat.not_le_of_lt (h.parent_lt parents))

/-- Nothing is below two of them. -/
theorem eq_of_under_of_under (h : d.Arranged) (parents : d.parent? a = d.parent? b)
    (ha : d.Under a x) (hb : d.Under b x) : a = b := by
  rcases h.under_or_under ha hb with below | below
  · exact h.eq_of_under parents below
  · exact (h.eq_of_under parents.symm below).symm

/-! ## Siblings -/

theorem siblings_nodup (h : d.Arranged) (siblings : d.Beside a b) : a ≠ b := by
  have apart {ids : List Nat} (nodup : ids.Nodup) (pair : [a, b].Sublist ids) : a ≠ b := by
    simpa using nodup.sublist pair
  rcases siblings with top | ⟨p, children⟩
  · exact apart h.top_nodup top
  · exact apart (h.linked.nodup p) children

theorem parent?_beside (h : d.Arranged) (siblings : d.Beside a b) : d.parent? a = d.parent? b := by
  rcases siblings with top | ⟨p, children⟩
  · have mem {c : Nat} (hc : c ∈ [a, b]) := h.linked.parent_of_top c (top.subset hc)
    rw [mem List.mem_cons_self, mem (List.mem_cons_of_mem _ List.mem_cons_self)]
  · have mem {c : Nat} (hc : c ∈ [a, b]) := h.linked.parent_of_mem (children.subset hc)
    rw [mem List.mem_cons_self, mem (List.mem_cons_of_mem _ List.mem_cons_self)]

/-- Nothing is below two siblings. -/
theorem not_under_beside (h : d.Arranged) (siblings : d.Beside a b) (ha : d.Under a x)
    (hb : d.Under b x) : False :=
  h.siblings_nodup siblings (h.eq_of_under_of_under (h.parent?_beside siblings) ha hb)

/-- A sibling of a child is a child of the same node. -/
theorem mem_children_beside (h : d.Arranged) (siblings : d.Beside a b)
    (member : a ∈ d.children p ∨ b ∈ d.children p) : a ∈ d.children p ∧ b ∈ d.children p := by
  rcases siblings with top | ⟨q, children⟩
  · rcases member with ha | hb
    · exact absurd ha (h.notMem_children_of_top (top.subset List.mem_cons_self))
    · refine absurd hb (h.notMem_children_of_top (top.subset ?_))
      exact List.mem_cons_of_mem _ List.mem_cons_self
  · have ha : a ∈ d.children q := children.subset List.mem_cons_self
    have hb : b ∈ d.children q := children.subset (List.mem_cons_of_mem _ List.mem_cons_self)
    have same : q = p := member.elim (h.eq_of_mem_children ha) (h.eq_of_mem_children hb)
    exact same ▸ ⟨ha, hb⟩

/-- Whatever is above one of two siblings is above the other one. -/
theorem under_beside (h : d.Arranged) (siblings : d.Beside a b) :
    (d.Under x a → x = a ∨ d.Under x b) ∧ (d.Under x b → x = b ∨ d.Under x a) := by
  constructor
  · rintro (_ | ⟨above, member⟩)
    · exact Or.inl rfl
    · exact Or.inr (above.child (h.mem_children_beside siblings (Or.inl member)).2)
  · rintro (_ | ⟨above, member⟩)
    · exact Or.inl rfl
    · exact Or.inr (above.child (h.mem_children_beside siblings (Or.inr member)).1)

end Arranged

theorem not_sublist_swap {ids : List Nat} (nodup : ids.Nodup) (pair : [a, b].Sublist ids) :
    ¬ [b, a].Sublist ids := by
  intro swapped
  induction ids with
  | nil => cases pair
  | cons i ids ih =>
    obtain ⟨new, nodup⟩ := List.nodup_cons.1 nodup
    have second {c d : Nat} (h : [c, d].Sublist ids) : d ∈ ids :=
      h.subset (List.mem_cons_of_mem _ List.mem_cons_self)
    cases pair with
    | cons _ pair =>
      cases swapped with
      | cons _ swapped => exact ih nodup pair swapped
      | cons_cons _ _ => exact new (second pair)
    | cons_cons _ pair =>
      cases swapped with
      | cons _ swapped => exact new (second swapped)
      | cons_cons _ _ => exact new (pair.subset List.mem_cons_self)

theorem Arranged.beside_asymm (h : d.Arranged) (siblings : d.Beside a b) : ¬ d.Beside b a := by
  intro swapped
  have second {ids : List Nat} (pair : [a, b].Sublist ids) : b ∈ ids :=
    pair.subset (List.mem_cons_of_mem _ List.mem_cons_self)
  have first {ids : List Nat} (pair : [b, a].Sublist ids) : b ∈ ids :=
    pair.subset List.mem_cons_self
  rcases siblings with top | ⟨p, children⟩
  · rcases swapped with other | ⟨q, other⟩
    · exact not_sublist_swap h.top_nodup top other
    · exact h.notMem_children_of_top (second top) (first other)
  · rcases swapped with other | ⟨q, other⟩
    · exact h.notMem_children_of_top (first other) (second children)
    · obtain rfl := h.eq_of_mem_children (second children) (first other)
      exact not_sublist_swap (h.linked.nodup p) children other

/-- No two nodes come before each other. -/
theorem Arranged.precedes_asymm (h : d.Arranged) (before : d.Precedes x y) :
    ¬ d.Precedes y x := by
  intro after
  cases before with
  | below member under =>
    cases after with
    | below member' under' =>
      have hxy := Nat.lt_of_lt_of_le (h.lt_of_mem_children member) (h.le_of_under under)
      have hyx := Nat.lt_of_lt_of_le (h.lt_of_mem_children member') (h.le_of_under under')
      exact Nat.lt_asymm hxy hyx
    | beside siblings first second =>
      exact h.not_under_beside siblings first ((second.child member).trans under)
  | @beside a b _ _ siblings first second =>
    cases after with
    | below member under =>
      exact h.not_under_beside siblings first ((second.child member).trans under)
    | @beside a' b' _ _ siblings' first' second' =>
      -- `x` is below `a` and `b'`, and `y` below `b` and `a'`, so these are the same two siblings
      have same : a = b' := by
        rcases h.under_or_under first second' with below | below
        · refine ((h.under_beside siblings').2 below).resolve_right fun higher => ?_
          exact h.not_under_beside siblings (higher.trans first') second
        · refine (((h.under_beside siblings).1 below).resolve_right fun higher => ?_).symm
          exact h.not_under_beside siblings' first' (higher.trans second)
      subst same
      have parents : d.parent? b = d.parent? a' :=
        (h.parent?_beside siblings).symm.trans (h.parent?_beside siblings').symm
      obtain rfl := h.eq_of_under_of_under parents second first'
      exact h.beside_asymm siblings siblings'

/-! ## Lists of nodes -/

/-- The numbers of a node and of what is below it, as they are listed. -/
def below (d : XmlDocument) (i : Nat) : List Nat :=
  if h : i < d.entries.size then (d.branchAt i h).toList.map Prod.fst else []

theorem map_fst_toListAll {ids : List Nat} (known : ∀ i ∈ ids, i < d.entries.size) :
    (Branch.toListAll (ids.attach.map fun i => d.branchAt i.1 (known i.1 i.2))).map Prod.fst
      = ids.flatMap d.below := by
  have each (i : {i // i ∈ ids}) :
      (d.branchAt i.1 (known i.1 i.2)).toList.map Prod.fst = d.below i.1 := by
    rw [below, dif_pos (known i.1 i.2)]
  rw [Branch.toListAll_eq, List.flatMap_map, List.map_flatMap, List.flatMap_congr fun i _ => each i,
    ← List.flatMap_map Subtype.val d.below, List.attach_map_subtype_val]

theorem findAll_eq (d : XmlDocument) (name : String) :
    d.findAll name = (d.top.flatMap d.below).filter fun i => d.name? i == some name := by
  rw [findAll, Branch.visit_eq, branches, ← map_fst_toListAll d.top_lt, List.filter_map]
  rfl

namespace Arranged

theorem below_eq (h : d.Arranged) (known : i < d.size) :
    d.below i = i :: (d.children i).flatMap d.below := by
  have hi : i < d.entries.size := known
  have other : d.parent? i ≠ some i := fun own => Nat.lt_irrefl i (h.parent_lt own)
  have children : d.properChildren i hi = d.children i := by
    rw [properChildren_eq h.linked other, children_eq hi]
  rw [below, dif_pos hi, branchAt, Branch.toList, List.map_cons, ← children]
  exact congrArg _ (map_fst_toListAll fun c hc => (mem_properChildren hc).2)

theorem mem_below_iff (h : d.Arranged) {i : Nat} (known : i < d.size) :
    x ∈ d.below i ↔ d.Under i x := by
  rw [h.below_eq known, under_iff, List.mem_cons, List.mem_flatMap]
  refine or_congr Iff.rfl (exists_congr fun c => and_congr_right fun member => ?_)
  exact h.mem_below_iff (XmlDocument.lt_of_mem_children member)
termination_by d.size - i
decreasing_by
  have := h.lt_of_mem_children member
  omega

/-- What is below siblings is in order if it is so for each of them. -/
theorem pairwise_flatMap_below (h : d.Arranged) {ids : List Nat} (known : ∀ i ∈ ids, i < d.size)
    (each : ∀ i ∈ ids, (d.below i).Pairwise d.Precedes)
    (siblings : ∀ {a b}, [a, b].Sublist ids → d.Beside a b) :
    (ids.flatMap d.below).Pairwise d.Precedes := by
  refine List.pairwise_flatMap.2 ⟨each, List.pairwise_iff_forall_sublist.2 ?_⟩
  intro a b pair x hx y hy
  have ha := known a (pair.subset List.mem_cons_self)
  have hb := known b (pair.subset (List.mem_cons_of_mem _ List.mem_cons_self))
  exact .beside (siblings pair) ((h.mem_below_iff ha).1 hx) ((h.mem_below_iff hb).1 hy)

theorem pairwise_below (h : d.Arranged) {i : Nat} (known : i < d.size) :
    (d.below i).Pairwise d.Precedes := by
  rw [h.below_eq known]
  refine List.pairwise_cons.2 ⟨fun x hx => ?_, h.pairwise_flatMap_below (fun c hc => ?_)
    (fun c hc => ?_) fun pair => Or.inr ⟨i, pair⟩⟩
  · obtain ⟨c, member, hx⟩ := List.mem_flatMap.1 hx
    exact .below member ((h.mem_below_iff (XmlDocument.lt_of_mem_children member)).1 hx)
  · exact XmlDocument.lt_of_mem_children hc
  · exact h.pairwise_below (XmlDocument.lt_of_mem_children hc)
termination_by d.size - i
decreasing_by
  have := h.lt_of_mem_children hc
  omega

end Arranged

/-! ## Elements of a name -/

/-- A search on its way: the nodes to be looked at, the next one last, and those found. -/
structure Search where
  stack : List Nat
  found : List Nat

namespace Search

/-- One round. A search with nothing on its stack has ended. -/
def step (d : XmlDocument) (name : String) (s : Search) : Search :=
  match s.stack.getLast? with
  | none => s
  | some i =>
    { stack := s.stack.dropLast ++ (d.children i).reverse
      found := s.found ++ [i].filter fun i => d.name? i == some name }

variable {name : String} {stack found : List Nat}

theorem step_concat : step d name ⟨stack ++ [i], found⟩
    = ⟨stack ++ (d.children i).reverse,
        found ++ [i].filter fun i => d.name? i == some name⟩ := by
  simp only [step, List.getLast?_concat, List.dropLast_concat]

/-- The rounds for some nodes with what is below them, when each is searched by itself. -/
theorem iterate_step_reverse {ids : List Nat}
    (each : ∀ c ∈ ids, ∀ stack found, (step d name)^[(d.below c).length] ⟨stack ++ [c], found⟩
      = ⟨stack, found ++ (d.below c).filter fun i => d.name? i == some name⟩)
    (stack found : List Nat) :
    (step d name)^[(ids.flatMap d.below).length] ⟨stack ++ ids.reverse, found⟩
      = ⟨stack, found ++ (ids.flatMap d.below).filter fun i => d.name? i == some name⟩ := by
  rw [List.filter_flatMap]
  exact iterate_stack each stack found

/-- A node is searched with all that is below it, and the rest of the stack is left as it was. -/
theorem iterate_step (h : d.Arranged) {i : Nat} (known : i < d.size) (stack found : List Nat) :
    (step d name)^[(d.below i).length] ⟨stack ++ [i], found⟩
      = ⟨stack, found ++ (d.below i).filter fun i => d.name? i == some name⟩ := by
  have each : ∀ c ∈ d.children i, ∀ stack found,
      (step d name)^[(d.below c).length] ⟨stack ++ [c], found⟩
        = ⟨stack, found ++ (d.below c).filter fun i => d.name? i == some name⟩ :=
    fun c member stack found => iterate_step h (lt_of_mem_children member) stack found
  rw [h.below_eq known, List.length_cons, Function.iterate_succ_apply, step_concat,
    iterate_step_reverse each, List.append_assoc, ← List.filter_append, List.singleton_append]
termination_by d.size - i
decreasing_by
  have := h.lt_of_mem_children member
  omega

end Search

/-- The elements of a name, as they are found. -/
structure Finds (d : XmlDocument) (name : String) : Prop where
  /-- The search with a stack ends, and has found them in this order. -/
  searched : ∃ rounds, (Search.step d name)^[rounds] ⟨d.top.reverse, []⟩ = ⟨[], d.findAll name⟩
  /-- What is found is the elements of the name that are part of the document. -/
  mem_iff : ∀ i, i ∈ d.findAll name ↔ d.Reached i ∧ d.name? i = some name
  nodup : (d.findAll name).Nodup
  ordered : (d.findAll name).Pairwise d.Precedes

theorem Arranged.finds (h : d.Arranged) (name : String) : d.Finds name := by
  have ordered : (d.findAll name).Pairwise d.Precedes := by
    rw [findAll_eq]
    refine List.Pairwise.filter _ (h.pairwise_flatMap_below d.top_lt (fun i hi => ?_) Or.inl)
    exact h.pairwise_below (d.top_lt i hi)
  refine ⟨⟨(d.top.flatMap d.below).length, ?_⟩, fun x => ?_, ordered.imp fun before heq => ?_,
    ordered⟩
  · rw [findAll_eq]
    exact Search.iterate_step_reverse (fun i hi => Search.iterate_step h (d.top_lt i hi)) [] []
  · rw [findAll_eq, List.mem_filter, beq_iff_eq, List.mem_flatMap, reached_iff]
    refine and_congr_left fun _ => exists_congr fun i => and_congr_right fun hi => ?_
    exact h.mem_below_iff (d.top_lt i hi)
  · subst heq
    exact h.precedes_asymm before before

/-! ## Children that are taken out -/

/-- What is different when a child was taken out: the child is missing among the children of its
parent and has no parent, and whatever is below it is not part of the document. -/
structure TakenOut (d : XmlDocument) (p c : Nat) (d' : XmlDocument) : Prop where
  top : d'.top = d.top
  others : ∀ i, i ≠ p → i ≠ c → d'.entry? i = d.entry? i
  parent : ∃ above name attributes text children, c ∈ children ∧
    d.entry? p = some ⟨above, .element name attributes text children⟩ ∧
    d'.entry? p = some ⟨above, .element name attributes text (children.erase c)⟩
  child : ∃ body, d.entry? c = some ⟨some p, body⟩ ∧ d'.entry? c = some ⟨none, body⟩
  unreached : ∀ x, d.Under c x → ¬ d'.Reached x

/-- An element with a child. -/
theorem exists_entry_of_mem_children (member : c ∈ d.children p) :
    ∃ above name attributes text children, c ∈ children ∧
      d.entry? p = some ⟨above, .element name attributes text children⟩ := by
  unfold children at member
  cases he : d.entry? p with
  | none =>
    rw [he] at member
    cases member
  | some e =>
    rw [he] at member
    obtain ⟨above, body⟩ := e
    cases body with
    | comment => cases member
    | element name attributes text children =>
      exact ⟨above, name, attributes, text, children, member, rfl⟩

theorem Arranged.not_reached_removeChild (h : d.Arranged) (member : c ∈ d.children p)
    (reached : (d.removeChild p c).Reached x) : ¬ d.Under c x := by
  have linked := (h.removeChild p c).linked
  induction reached with
  | top top =>
    rw [top_removeChild] at top
    rintro (_ | ⟨above, below⟩)
    · exact h.notMem_children_of_top top member
    · exact h.notMem_children_of_top top below
  | @child q x _ below ih =>
    have was : x ∈ d.children q := by
      rw [children_removeChild member] at below
      split at below
      · exact List.mem_of_mem_erase below
      · exact below
    rintro (_ | ⟨above, other⟩)
    · -- the child that was taken out has no parent any more
      have left := linked.parent_of_mem below
      rw [parent?_removeChild member, if_pos rfl] at left
      cases left
    · obtain rfl := h.eq_of_mem_children was other
      exact ih above

theorem Arranged.takenOut (h : d.Arranged) (member : c ∈ d.children p) :
    d.TakenOut p c (d.removeChild p c) := by
  have older : p < c := h.lt_of_mem_children member
  have entry := entry?_removeChild member
  obtain ⟨above, name, attributes, text, children, hc, hp⟩ := exists_entry_of_mem_children member
  refine ⟨top_removeChild, fun i hip hic => ?_,
    ⟨above, name, attributes, text, children, hc, hp, ?_⟩, ?_,
    fun x under reached => h.not_reached_removeChild member reached under⟩
  · rw [entry]
    simp only [if_neg (Ne.symm hip), if_neg (Ne.symm hic)]
    exact Option.map_id'
  · rw [entry, hp, Option.map_some, if_neg (Nat.ne_of_gt older), if_pos rfl]
    rfl
  · obtain ⟨e, he, parent⟩ := Option.bind_eq_some_iff.1 (h.linked.parent_of_mem member)
    refine ⟨e.body, ?_, ?_⟩
    · rw [he, ← parent]
    · rw [entry, he, Option.map_some, if_pos rfl, if_neg (Nat.ne_of_lt older)]

/-! ## Documents that are edited -/

/-- The node that is some steps above another one. -/
def above? (d : XmlDocument) (i : Nat) : Nat → Option Nat
  | 0 => some i
  | n + 1 => (d.above? i n).bind d.parent?

/-- Every step upwards leads to an older node. -/
theorem Arranged.above?_le (h : d.Arranged) {n j : Nat} (hj : d.above? i n = some j) :
    j + n ≤ i := by
  induction n generalizing j with
  | zero => exact Nat.le_of_eq (Option.some.inj hj).symm
  | succ n ih =>
    obtain ⟨k, hk, parent⟩ := Option.bind_eq_some_iff.1 hj
    have := ih hk
    have := h.parent_lt parent
    omega

/-- What holds of the nodes of a document. -/
structure InOrder (d : XmlDocument) : Prop where
  /-- No node is twice among the children of all nodes and the nodes at the top. -/
  once : (d.top ++ (List.range d.size).flatMap d.children).Nodup
  /-- A child has its parent, and is younger. -/
  younger : ∀ {p c}, c ∈ d.children p → d.parent? c = some p ∧ p < c
  attributes_once : ∀ {i e}, d.entry? i = some e → (e.body.attributes.map Prod.fst).Nodup
  /-- The way from a node to its parent, and on to the parent of that, ends. -/
  climb_ends : ∀ {i n}, i < n → d.above? i n = none
  finds : ∀ name, d.Finds name
  asymm : ∀ {x y}, d.Precedes x y → ¬ d.Precedes y x
  /-- A child is taken out if it is one, and then nothing else changes. -/
  takes : ∀ p c, ((d.takeChild p c).1 = true ↔ c ∈ d.children p) ∧
    (c ∈ d.children p → d.TakenOut p c (d.takeChild p c).2) ∧
    (c ∉ d.children p → (d.takeChild p c).2 = d)

theorem Arranged.isInOrder (h : d.Arranged) : d.InOrder where
  once := by
    refine List.nodup_append.2 ⟨h.top_nodup, List.nodup_flatMap.2 ⟨fun p _ => h.linked.nodup p, ?_⟩,
      fun i hi c hc => ?_⟩
    · exact List.nodup_range.imp fun {p q} hne c hp hq => hne (h.eq_of_mem_children hp hq)
    · obtain ⟨p, -, member⟩ := List.mem_flatMap.1 hc
      rintro rfl
      exact h.notMem_children_of_top hi member
  younger member := ⟨h.linked.parent_of_mem member, h.lt_of_mem_children member⟩
  attributes_once he := h.attributes_once he
  climb_ends {i n} hn := by
    cases hj : d.above? i n with
    | none => rfl
    | some j =>
      have := h.above?_le hj
      omega
  finds := h.finds
  asymm := h.precedes_asymm
  takes p c := ⟨List.contains_iff_mem, h.takenOut, removeChild_of_not_mem⟩

/-- **Documents are in order at all times**, whatever edits they were built with, if these used
numbers that were given out before. -/
theorem run_inOrder (edits : List XmlEdit) (known : empty.Knows edits) :
    (empty.run edits).InOrder :=
  (arranged_empty.run known).isInOrder

/-- A child is taken out, and extended afterwards. -/
def swapEdits : List XmlEdit :=
  [.addRoot "resource", .addChild 0 "object", .setAttribute 1 "class" "wxButton",
    .addTextChild 1 "label" "OK", .addRootComment "end", .takeChild 0 1, .addChild 1 "object",
    .addComment 3 "default", .addChild 0 "object", .setAttribute 6 "class" "wxFrame",
    .setAttribute 6 "class" "wxPanel"]

theorem swapEdits_inOrder : empty.Knows swapEdits ∧ (empty.run swapEdits).InOrder ∧
    (empty.run swapEdits).findAll "object" = [6] := by
  have known : empty.Knows swapEdits := by decide
  exact ⟨known, run_inOrder swapEdits known, by with_unfolding_all rfl⟩

end XmlDocument

end FormDesign
