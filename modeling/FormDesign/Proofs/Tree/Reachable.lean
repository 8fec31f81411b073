import FormDesign.Tree.Query
import Mathlib.Data.List.Nodup

/-!
# Trees that the operations build

A tree is laid out from a design, and then grows and changes by the operations. In such a tree a
node and its children know each other, so a walk from a node downwards meets no node twice.

* `Tree.Reachable.wellFormed`: what holds of a tree in which nodes and their children agree
* `Tree.nodup_branchAt`: no node occurs twice in a branch
-/

namespace FormDesign

namespace Branch

variable {α β : Type}

theorem label_map (f : α → β) (b : Branch α) : (b.map f).label = f b.label := by
  cases b
  rfl

theorem toList_eq (b : Branch α) : b.toList = b.label :: toListAll b.children := by
  cases b
  rfl

theorem children_map (f : α → β) (b : Branch α) :
    (b.map f).children = b.children.map (map f) := by
  cases b with
  | mk a cs => exact mapAll_eq f cs

mutual

theorem toList_map (f : α → β) (b : Branch α) : (b.map f).toList = b.toList.map f := by
  cases b with
  | mk a cs => rw [map, toList, toList, toListAll_mapAll f cs, List.map_cons]

theorem toListAll_mapAll (f : α → β) (bs : List (Branch α)) :
    toListAll (mapAll f bs) = (toListAll bs).map f := by
  cases bs with
  | nil => rfl
  | cons b bs =>
    rw [mapAll, toListAll, toListAll, toList_map f b, toListAll_mapAll f bs, List.map_append]

end

end Branch

/-! ## Elements -/

namespace Element

/-- The events, each name at most once. -/
def EventsOnce (e : Element) : Prop :=
  (e.events.map Event.name).Nodup

theorem eventsOnce_ofKind (k : Kind) : (ofKind k).EventsOnce :=
  List.nodup_nil

theorem EventsOnce.setProp {e : Element} (h : e.EventsOnce) (p : Property) (value : String) :
    (e.setProp p value).EventsOnce :=
  h

theorem name_mem_putEvent {new : Event} {events : List Event} {name : String}
    (h : name ∈ (putEvent new events).map Event.name) :
    name = new.name ∨ name ∈ events.map Event.name := by
  induction events with
  | nil => exact Or.inl (List.mem_singleton.1 h)
  | cons old events ih =>
    unfold putEvent at h
    split at h
    · next heq =>
      rcases List.mem_cons.1 h with rfl | h
      · exact Or.inl rfl
      · exact Or.inr (List.mem_cons_of_mem _ h)
    · rcases List.mem_cons.1 h with rfl | h
      · exact Or.inr List.mem_cons_self
      · exact (ih h).imp_right (List.mem_cons_of_mem _)

theorem EventsOnce.setEvent {e : Element} (h : e.EventsOnce) (name handler : String) :
    (e.setEvent name handler).EventsOnce := by
  have put (new : Event) {events : List Event} (h : (events.map Event.name).Nodup) :
      ((putEvent new events).map Event.name).Nodup := by
    induction events with
    | nil => exact List.nodup_cons.2 ⟨List.not_mem_nil, List.nodup_nil⟩
    | cons old events ih =>
      obtain ⟨hold, hrest⟩ := List.nodup_cons.1 h
      unfold putEvent
      split
      · next heq =>
        rw [List.map_cons, ← heq]
        exact List.nodup_cons.2 ⟨hold, hrest⟩
      · next hne =>
        refine List.nodup_cons.2 ⟨fun hm => ?_, ih hrest⟩
        rcases name_mem_putEvent hm with heq | hm
        · exact hne heq
        · exact hold hm
  exact put _ h

end Element

/-! ## Laid out nodes -/

namespace Design

/-- Every child of a node is among the nodes and has it as its parent. -/
def Related (nodes : List Node) : Prop :=
  ∀ n ∈ nodes, ∀ c ∈ n.children, ∃ m ∈ nodes, m.id = c ∧ m.parent = some n.id

/-- Nodes that keep their names and parents stay related. -/
theorem Related.map {nodes : List Node} (h : Related nodes) {g : Node → Node}
    (id_eq : ∀ n, (g n).id = n.id) (parent_eq : ∀ n, (g n).parent = n.parent) {n : Node}
    (hn : n ∈ nodes) {c : Nat} (hc : c ∈ n.children) :
    ∃ m ∈ nodes.map g, m.id = c ∧ m.parent = some (g n).id := by
  obtain ⟨m, hm, hmc, hmp⟩ := h n hn c hc
  refine ⟨g m, List.mem_map_of_mem hm, ?_, ?_⟩
  · rw [id_eq, hmc]
  · rw [parent_eq, id_eq, hmp]

theorem nodup_starts (start : Nat) (bs : List Design) : (starts start bs).Nodup := by
  induction bs generalizing start with
  | nil => exact List.nodup_nil
  | cons b bs ih =>
    refine List.nodup_cons.2 ⟨fun h => ?_, ih _⟩
    have := (mem_starts h).1
    have := b.size_pos
    omega

theorem exists_root_layAll {parent start c : Nat} {bs : List Design} (h : c ∈ starts start bs) :
    ∃ m ∈ layAll parent start bs, m.id = c ∧ m.parent = some parent := by
  induction bs generalizing start with
  | nil => cases h
  | cons b bs ih =>
    obtain ⟨e, cs⟩ := b
    rcases List.mem_cons.1 h with rfl | h
    · exact ⟨_, List.mem_append_left _ List.mem_cons_self, rfl, rfl⟩
    · obtain ⟨m, hm, hc⟩ := ih h
      exact ⟨m, List.mem_append_right _ hm, hc⟩

theorem Related.append {xs ys : List Node} (hx : Related xs) (hy : Related ys) :
    Related (xs ++ ys) := by
  intro n hn c hc
  rcases List.mem_append.1 hn with hn | hn
  · obtain ⟨m, hm, h⟩ := hx n hn c hc
    exact ⟨m, List.mem_append_left _ hm, h⟩
  · obtain ⟨m, hm, h⟩ := hy n hn c hc
    exact ⟨m, List.mem_append_right _ hm, h⟩

mutual

theorem related_lay (parent : Option Nat) (start : Nat) (b : Design) :
    Related (lay parent start b) := by
  cases b with
  | mk e cs =>
    intro n hn c hc
    unfold lay at hn ⊢
    rcases List.mem_cons.1 hn with rfl | hn
    · obtain ⟨m, hm, h⟩ := exists_root_layAll hc
      exact ⟨m, List.mem_cons_of_mem _ hm, h⟩
    · obtain ⟨m, hm, h⟩ := related_layAll start (start + 1) cs n hn c hc
      exact ⟨m, List.mem_cons_of_mem _ hm, h⟩

theorem related_layAll (parent start : Nat) (bs : List Design) :
    Related (layAll parent start bs) := by
  cases bs with
  | nil =>
    intro n hn
    cases hn
  | cons b bs =>
    unfold layAll
    exact (related_lay (some parent) start b).append (related_layAll parent (start + b.size) bs)

end

mutual

theorem mem_lay {parent : Option Nat} {start : Nat} {b : Design} {n : Node}
    (h : n ∈ lay parent start b) : n.toElement ∈ b.toList ∧ n.children.Nodup := by
  cases b with
  | mk e cs =>
    unfold lay at h
    unfold Branch.toList
    rcases List.mem_cons.1 h with rfl | h
    · exact ⟨List.mem_cons_self, nodup_starts _ _⟩
    · exact (mem_layAll h).imp_left (List.mem_cons_of_mem _)

/-- A laid out node is an element of its design, and its children are told apart. -/
theorem mem_layAll {parent start : Nat} {bs : List Design} {n : Node}
    (h : n ∈ layAll parent start bs) : n.toElement ∈ Branch.toListAll bs ∧ n.children.Nodup := by
  cases bs with
  | nil => cases h
  | cons b bs =>
    unfold layAll at h
    unfold Branch.toListAll
    rcases List.mem_append.1 h with h | h
    · exact (mem_lay h).imp_left (List.mem_append_left _)
    · exact (mem_layAll h).imp_left (List.mem_append_right _)

end

/-- A design as it can be written down: the events of each node have names of their own. -/
def EventsOnce (b : Design) : Prop :=
  ∀ e ∈ b.toList, e.EventsOnce

end Design

/-! ## Trees -/

namespace Tree

/-- The trees that the operations build. -/
inductive Reachable : Tree → Prop
  | ofDesign {b : Design} (once : b.EventsOnce) : Reachable (Tree.ofDesign b)
  | add {t grown : Tree} {parent id : Nat} {b : Design} (reachable : Reachable t)
      (once : b.EventsOnce) (eq : t.add parent b = .ok (id, grown)) : Reachable grown
  | setProp {t : Tree} (reachable : Reachable t) (id : Nat) (p : Property) (value : String) :
      Reachable (t.setProp id p value)

/-- Nodes and their children agree. -/
structure WellFormed (t : Tree) : Prop where
  related : Design.Related t.nodes.toList
  children_nodup : ∀ n ∈ t.nodes, n.children.Nodup
  events_once : ∀ n ∈ t.nodes, n.toElement.EventsOnce

theorem wellFormed_ofDesign {b : Design} (once : b.EventsOnce) : (ofDesign b).WellFormed where
  related := Design.related_lay none 0 b
  children_nodup _ hn := (Design.mem_lay (List.mem_toArray.1 hn)).2
  events_once _ hn := once _ (Design.mem_lay (List.mem_toArray.1 hn)).1

/-- Changing the node at a position is changing the node of that name. -/
theorem modify_eq_map (t : Tree) (id : Nat) (f : Node → Node) :
    t.nodes.modify id f = t.nodes.map fun n => if n.id = id then f n else n := by
  refine Array.ext (by simp) fun i hi _ => ?_
  have := t.id_eq i (by simpa using hi)
  rw [Array.getElem_modify, Array.getElem_map, this]
  split
  · next heq => rw [if_pos heq.symm]
  · next hne => rw [if_neg (Ne.symm hne)]

/-- A node after a design was added below `parent`. -/
def grow (t : Tree) (parent : Nat) (n : Node) : Node :=
  if n.id = parent then withChild n t.size else n

theorem grow_same (t : Tree) (parent : Nat) (n : Node) :
    (t.grow parent n).id = n.id ∧ (t.grow parent n).parent = n.parent ∧
      (t.grow parent n).toElement = n.toElement := by
  unfold grow
  split <;> exact ⟨rfl, rfl, rfl⟩

theorem mem_children_grow {t : Tree} {parent c : Nat} {n : Node}
    (h : c ∈ (t.grow parent n).children) : c ∈ n.children ∨ n.id = parent ∧ c = t.size := by
  unfold grow at h
  split at h
  · next heq =>
    rcases List.mem_append.1 h with h | h
    · exact Or.inl h
    · exact Or.inr ⟨heq, List.mem_singleton.1 h⟩
  · exact Or.inl h

theorem nodup_children_grow {t : Tree} (parent : Nat) {n : Node} (hn : n ∈ t.nodes)
    (h : n.children.Nodup) : (t.grow parent n).children.Nodup := by
  unfold grow
  split
  · -- the new child is further on than all that the tree had
    have new : [t.size].Nodup := List.nodup_cons.2 ⟨List.not_mem_nil, List.nodup_nil⟩
    refine List.nodup_append.2 ⟨h, new, fun c hc d hd => ?_⟩
    have lt := ((t.linked n hn).children_lt c hc).2
    rw [List.mem_singleton.1 hd]
    exact Nat.ne_of_lt lt
  · exact h

theorem toList_attach {t : Tree} {parent : Nat} {b : Design} (hp : parent < t.size) :
    (t.attach parent b hp).nodes.toList
      = t.nodes.toList.map (t.grow parent) ++ Design.lay (some parent) t.size b := by
  simp only [attach, grown, modify_eq_map, Array.toList_append, Array.toList_map]
  rfl

theorem mem_attach {t : Tree} {parent : Nat} {b : Design} {hp : parent < t.size} {n : Node}
    (h : n ∈ (t.attach parent b hp).nodes) :
    (∃ m ∈ t.nodes, t.grow parent m = n) ∨ n ∈ Design.lay (some parent) t.size b := by
  rw [← Array.mem_toList_iff, toList_attach, List.mem_append, List.mem_map] at h
  simpa only [Array.mem_toList_iff] using h

theorem WellFormed.attach {t : Tree} (h : t.WellFormed) {parent : Nat} {b : Design}
    (once : b.EventsOnce) (hp : parent < t.size) : (t.attach parent b hp).WellFormed where
  related n hn c hc := by
    rw [toList_attach]
    rcases mem_attach (Array.mem_toList_iff.1 hn) with ⟨m, hm, rfl⟩ | hn
    · have same := t.grow_same parent
      rcases mem_children_grow hc with hc | ⟨hid, rfl⟩
      · obtain ⟨k, hk, hkc⟩ := h.related.map (fun n => (same n).1) (fun n => (same n).2.1)
          (Array.mem_toList_iff.2 hm) hc
        exact ⟨k, List.mem_append_left _ hk, hkc⟩
      · -- the new child is the root of the design
        obtain ⟨e, cs⟩ := b
        refine ⟨_, List.mem_append_right _ List.mem_cons_self, rfl, ?_⟩
        rw [(same m).1, hid]
    · obtain ⟨k, hk, hkc⟩ := Design.related_lay (some parent) t.size b n hn c hc
      exact ⟨k, List.mem_append_right _ hk, hkc⟩
  children_nodup n hn := by
    rcases mem_attach hn with ⟨m, hm, rfl⟩ | hn
    · exact nodup_children_grow parent hm (h.children_nodup m hm)
    · exact (Design.mem_lay hn).2
  events_once n hn := by
    rcases mem_attach hn with ⟨m, hm, rfl⟩ | hn
    · rw [(t.grow_same parent m).2.2]
      exact h.events_once m hm
    · exact once _ (Design.mem_lay hn).1

theorem WellFormed.setProp {t : Tree} (h : t.WellFormed) (id : Nat) (p : Property)
    (value : String) : (t.setProp id p value).WellFormed := by
  let set (n : Node) : Node :=
    if n.id = id then { n with toElement := n.toElement.setProp p value } else n
  have same (n : Node) :
      (set n).id = n.id ∧ (set n).parent = n.parent ∧ (set n).children = n.children ∧
        (set n).events = n.events := by
    simp only [set]
    split <;> exact ⟨rfl, rfl, rfl, rfl⟩
  have nodes : (t.setProp id p value).nodes = t.nodes.map set :=
    modify_eq_map t id fun n => { n with toElement := n.toElement.setProp p value }
  have old {n : Node} (hn : n ∈ (t.setProp id p value).nodes) : ∃ m ∈ t.nodes, set m = n := by
    rwa [nodes, Array.mem_map] at hn
  refine ⟨fun n hn c hc => ?_, fun n hn => ?_, fun n hn => ?_⟩
  · obtain ⟨m, hm, rfl⟩ := old (Array.mem_toList_iff.1 hn)
    obtain ⟨-, -, hchildren, -⟩ := same m
    rw [hchildren] at hc
    rw [nodes, Array.toList_map]
    exact h.related.map (fun n => (same n).1) (fun n => (same n).2.1)
      (Array.mem_toList_iff.2 hm) hc
  · obtain ⟨m, hm, rfl⟩ := old hn
    rw [(same m).2.2.1]
    exact h.children_nodup m hm
  · obtain ⟨m, hm, rfl⟩ := old hn
    rw [Element.EventsOnce, (same m).2.2.2]
    exact h.events_once m hm

/-- **Nodes and their children agree in every tree that the operations build.** -/
theorem Reachable.wellFormed {t : Tree} (h : t.Reachable) : t.WellFormed := by
  induction h with
  | ofDesign once => exact wellFormed_ofDesign once
  | add _ once eq ih =>
    unfold Tree.add at eq
    split at eq
    · next hp =>
      obtain ⟨-, rfl⟩ := Prod.mk.inj (Except.ok.inj eq)
      exact ih.attach once hp
    · cases eq
  | setProp _ id p value ih => exact ih.setProp id p value

/-! ## Branches -/

/-- The position of the parent of a node. -/
def parent? (t : Tree) (id : Nat) : Option Nat :=
  (t.get? id).bind Node.parent

/-- Going up from the second node leads to the first. -/
inductive Under (t : Tree) (id : Nat) : Nat → Prop
  | refl : Under t id id
  | up {x p : Nat} (parent : t.parent? x = some p) (under : Under t id p) : Under t id x

variable {t : Tree} {a c d p x : Nat}

theorem parent_lt (h : t.parent? x = some p) : p < x := by
  obtain ⟨n, hn, hp⟩ := Option.bind_eq_some_iff.1 h
  exact id_of_get? hn ▸ (linked_of_get? hn).parent_lt p hp

theorem lt_of_mem_ancestors {id : Nat} {n : Node} (h : n ∈ t.ancestors id) :
    n.id < id := by
  fun_induction ancestors t id with
  | case1 => cases h
  | case2 => cases h
  | case3 id m hm p hp lt ih =>
    rcases List.mem_append.1 h with h | h
    · rw [id_of_get? (Option.mem_toList.1 h)]
      exact lt
    · exact Nat.lt_trans (ih h) lt

theorem under_of_mem_ancestors {id : Nat} {n : Node} (h : n ∈ t.ancestors id) :
    t.Under n.id id := by
  fun_induction ancestors t id with
  | case1 => cases h
  | case2 => cases h
  | case3 id m hm p hp lt ih =>
    have parent : t.parent? id = some p := by rw [parent?, hm, Option.bind_some, hp]
    rcases List.mem_append.1 h with h | h
    · rw [id_of_get? (Option.mem_toList.1 h)]
      exact .up parent .refl
    · exact .up parent (ih h)

theorem Under.le (h : t.Under a x) : a ≤ x := by
  induction h with
  | refl => exact Nat.le_refl a
  | up parent _ ih => exact Nat.le_of_lt (Nat.lt_of_le_of_lt ih (parent_lt parent))

theorem Under.of_child (hp : t.parent? c = some a) (h : t.Under c x) : t.Under a x := by
  induction h with
  | refl => exact .up hp .refl
  | up parent _ ih => exact .up parent ih

/-- Nothing stands under two children of one node. -/
theorem Under.eq_of_siblings (hc : t.parent? c = some p) (hd : t.parent? d = some p)
    (h : t.Under c x) (h' : t.Under d x) : c = d := by
  have apart {e : Nat} (he : t.parent? e = some p) : ¬t.Under e p := fun hu =>
    Nat.lt_irrefl p (Nat.lt_of_lt_of_le (parent_lt he) hu.le)
  induction h with
  | refl =>
    cases h' with
    | refl => rfl
    | up parent under =>
      obtain rfl := Option.some.inj (hc.symm.trans parent)
      exact absurd under (apart hd)
  | up parent under ih =>
    cases h' with
    | refl =>
      obtain rfl := Option.some.inj (hd.symm.trans parent)
      exact absurd under (apart hc)
    | up parent' under' =>
      obtain rfl := Option.some.inj (parent'.symm.trans parent)
      exact ih under'

theorem WellFormed.parent?_of_mem_children (h : t.WellFormed) {id : Nat} (hid : id < t.nodes.size)
    (hc : c ∈ t.nodes[id].children) : t.parent? c = some id := by
  obtain ⟨m, hm, rfl, hp⟩ := h.related _ (Array.mem_toList_iff.2 (Array.getElem_mem hid)) c hc
  obtain ⟨i, hi, rfl⟩ := Array.mem_iff_getElem.1 (Array.mem_toList_iff.1 hm)
  rw [t.id_eq i hi]
  rw [t.id_eq id hid] at hp
  simp [parent?, get?, hi, hp]

theorem WellFormed.under_of_mem_branchAt (h : t.WellFormed) {id : Nat} (hid : id < t.nodes.size)
    {n : Node} (hn : n ∈ (t.branchAt id hid).toList) : n ∈ t.nodes ∧ t.Under id n.id := by
  induction id, hid using branchAt.induct t with
  | case1 id hid ih =>
    unfold branchAt at hn
    rw [Branch.toList, Branch.toListAll_eq] at hn
    rcases List.mem_cons.1 hn with rfl | hn
    · rw [t.id_eq id hid]
      exact ⟨Array.getElem_mem hid, .refl⟩
    · obtain ⟨b, hb, hn⟩ := List.mem_flatMap.1 hn
      obtain ⟨⟨c, hc⟩, -, rfl⟩ := List.mem_map.1 hb
      obtain ⟨hmem, under⟩ := ih c hc hn
      exact ⟨hmem, under.of_child (h.parent?_of_mem_children hid hc)⟩

/-- **No node occurs twice in a branch.** -/
theorem WellFormed.nodup_branchAt (h : t.WellFormed) {id : Nat} (hid : id < t.nodes.size) :
    ((t.branchAt id hid).toList.map Node.id).Nodup := by
  induction id, hid using branchAt.induct t with
  | case1 id hid ih =>
    have children : ((t.nodes[id].children.attach.map fun c =>
        t.branchAt c.1 ((t.linked _ (Array.getElem_mem hid)).children_lt c.1 c.2).2).flatMap
          fun b => b.toList.map Node.id).Nodup := by
      rw [List.flatMap_map, List.nodup_flatMap]
      refine ⟨fun c _ => ih c.1 c.2, ?_⟩
      have distinct := h.children_nodup _ (Array.getElem_mem hid)
      refine (List.nodup_attach.2 distinct).imp ?_
      rintro ⟨c, hc⟩ ⟨d, hd⟩ hne x hx hx'
      obtain ⟨n, hn, rfl⟩ := List.mem_map.1 hx
      obtain ⟨m, hm, hmn⟩ := List.mem_map.1 hx'
      have underC := (h.under_of_mem_branchAt _ hn).2
      have underD := (h.under_of_mem_branchAt _ hm).2
      rw [hmn] at underD
      refine hne (Subtype.ext ?_)
      exact underC.eq_of_siblings (h.parent?_of_mem_children hid hc)
        (h.parent?_of_mem_children hid hd) underD
    unfold branchAt
    rw [Branch.toList, Branch.toListAll_eq, List.map_cons, List.map_flatMap, List.nodup_cons]
    refine ⟨fun hm => ?_, children⟩
    obtain ⟨b, hb, hm⟩ := List.mem_flatMap.1 hm
    obtain ⟨⟨c, hc⟩, -, rfl⟩ := List.mem_map.1 hb
    obtain ⟨n, hn, heq⟩ := List.mem_map.1 hm
    have under := (h.under_of_mem_branchAt _ hn).2
    rw [heq, t.id_eq id hid] at under
    exact Nat.lt_irrefl id
      (Nat.lt_of_lt_of_le (parent_lt (h.parent?_of_mem_children hid hc)) under.le)

/-- A design that is taken out of a tree is made of elements of the tree. -/
theorem WellFormed.exists_node_of_mem_design (h : t.WellFormed) {id : Nat} {b : Design}
    (hb : t.design id = .ok b) {e : Element} (he : e ∈ b.toList) :
    ∃ n ∈ t.nodes, n.toElement = e := by
  unfold design branch? at hb
  split at hb
  · next b' heq =>
    split at heq
    · next hid =>
      obtain rfl := Option.some.inj heq
      obtain rfl := Except.ok.inj hb
      rw [Branch.toList_map] at he
      obtain ⟨n, hn, rfl⟩ := List.mem_map.1 he
      exact ⟨n, (h.under_of_mem_branchAt hid hn).1, rfl⟩
    · cases heq
  · cases hb

theorem WellFormed.eventsOnce_design (h : t.WellFormed) {id : Nat} {b : Design}
    (hb : t.design id = .ok b) : b.EventsOnce := by
  intro e he
  obtain ⟨n, hn, rfl⟩ := h.exists_node_of_mem_design hb he
  exact h.events_once n hn

/-- Copying a subtree is one of the operations, since a subtree is a design. -/
theorem Reachable.copySubtree {source grown : Tree} {id parent new : Nat} (h : t.Reachable)
    (hs : source.Reachable) (eq : t.copySubtree source id parent = .ok (new, grown)) :
    grown.Reachable := by
  unfold Tree.copySubtree at eq
  cases hb : source.design id with
  | error fault =>
    rw [hb] at eq
    cases eq
  | ok b =>
    rw [hb] at eq
    exact h.add (hs.wellFormed.eventsOnce_design hb) eq

end Tree

end FormDesign
