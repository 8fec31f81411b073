import FormDesign.Proofs.Tree.Reachable

/-!
# Forms of a project and their places

The forms of a project stand below folders only. And two branches that were written down the same
differ by the names of their nodes at most, so one can be had from the other by relabelling.

* `Branch.exists_relabel`: branches that look the same
* `Tree.outline_of_mem_ancestors`: what stands above a form of a project
-/

namespace FormDesign

/-! ## Branches that look the same -/

/-- Lists that look the same can be had from each other, if nothing is repeated in the first. -/
theorem exists_relabel {α β : Type} [DecidableEq α] {view : α → β} {xs ys : List α}
    (distinct : xs.Nodup) (same : ys.map view = xs.map view) :
    ∃ r : α → α, ys = xs.map r ∧ ∀ a, view (r a) = view a := by
  induction xs generalizing ys with
  | nil => exact ⟨id, List.map_eq_nil_iff.1 same, fun _ => rfl⟩
  | cons x xs ih =>
    obtain ⟨y, ys, rfl, hy, hys⟩ := List.map_eq_cons_iff.1 same
    obtain ⟨hx, hxs⟩ := List.nodup_cons.1 distinct
    obtain ⟨r, rfl, hr⟩ := ih hxs hys
    refine ⟨Function.update r x y, ?_, fun a => ?_⟩
    · rw [List.map_cons, Function.update_self]
      congr 1
      refine List.map_congr_left fun a ha => ?_
      have hne : a ≠ x := fun heq => hx (heq ▸ ha)
      rw [Function.update_of_ne hne]
    · by_cases heq : a = x
      · subst heq
        rw [Function.update_self]
        exact hy
      · rw [Function.update_of_ne heq]
        exact hr a

namespace Branch

variable {α β γ : Type} {u : α → γ} {v : β → γ} {r : α → β}

theorem length_toList_of_map_eq {b : Branch α} {b' : Branch β} (shape : b'.map v = b.map u) :
    b'.toList.length = b.toList.length := by
  have h := congrArg (fun b => b.toList.length) shape
  simpa only [toList_map, List.length_map] using h

mutual

/-- Branches of one shape are as their labels are. -/
theorem eq_map_of_toList {b : Branch α} {b' : Branch β} (shape : b'.map v = b.map u)
    (labels : b'.toList = b.toList.map r) : b' = b.map r := by
  obtain ⟨a, cs⟩ := b
  obtain ⟨a', cs'⟩ := b'
  rw [map, map] at shape
  rw [toList, toList, List.map_cons] at labels
  obtain ⟨-, shapes⟩ := Branch.mk.inj shape
  obtain ⟨hlabel, hlabels⟩ := List.cons.inj labels
  rw [map, hlabel, eq_mapAll_of_toListAll shapes hlabels]

theorem eq_mapAll_of_toListAll {bs : List (Branch α)} {bs' : List (Branch β)}
    (shape : mapAll v bs' = mapAll u bs) (labels : toListAll bs' = (toListAll bs).map r) :
    bs' = mapAll r bs := by
  cases bs with
  | nil =>
    cases bs' with
    | nil => rfl
    | cons => cases shape
  | cons b bs =>
    cases bs' with
    | nil => cases shape
    | cons b' bs' =>
      rw [mapAll, mapAll] at shape
      rw [toListAll, toListAll, List.map_append] at labels
      obtain ⟨hshape, hshapes⟩ := List.cons.inj shape
      have hlength : b'.toList.length = (b.toList.map r).length := by
        rw [List.length_map, length_toList_of_map_eq hshape]
      obtain ⟨hlabels, hrest⟩ := List.append_inj labels hlength
      rw [mapAll, ← eq_map_of_toList hshape hlabels, ← eq_mapAll_of_toListAll hshapes hrest]

end

/-- Branches that look the same can be had from each other, if no label of the first is repeated. -/
theorem exists_relabel {α β : Type} [DecidableEq α] {view : α → β} {b b' : Branch α}
    (distinct : b.toList.Nodup) (same : b'.map view = b.map view) :
    ∃ r : α → α, b' = b.map r ∧ ∀ a, view (r a) = view a := by
  have labels := congrArg toList same
  rw [toList_map, toList_map] at labels
  obtain ⟨r, hlabels, hview⟩ := FormDesign.exists_relabel distinct labels
  exact ⟨r, eq_map_of_toList same hlabels, hview⟩

end Branch

/-! ## Above the forms of a project -/

namespace Tree

variable {t : Tree}

theorem ancestors_of_parent? {id p : Nat} (hp : p < t.nodes.size) (h : t.parent? id = some p) :
    t.ancestors id = t.nodes[p] :: t.ancestors p := by
  obtain ⟨n, hn, hparent⟩ := Option.bind_eq_some_iff.1 h
  have hget : t.get? p = some t.nodes[p] := Array.getElem?_eq_getElem hp
  rw [ancestors]
  split
  · next heq => cases hn.symm.trans heq
  · next m heq =>
    obtain rfl := Option.some.inj (hn.symm.trans heq)
    split
    · next hnone => cases hparent.symm.trans hnone
    · next q hq =>
      obtain rfl := Option.some.inj (hparent.symm.trans hq)
      rw [hget]
      rfl

/-- A node without a parent has nothing above it. -/
theorem ancestors_of_parent?_eq_none {id : Nat} (h : t.parent? id = none) :
    t.ancestors id = [] := by
  rw [ancestors]
  split
  · rfl
  · next n hn =>
    split
    · rfl
    · next p hp =>
      rw [parent?, hn] at h
      cases hp.symm.trans h

theorem lt_size_of_parent? {id p : Nat} (h : t.parent? id = some p) : p < t.nodes.size := by
  obtain ⟨n, hn, -⟩ := Option.bind_eq_some_iff.1 h
  obtain ⟨hid, -⟩ := Array.getElem?_eq_some_iff.1 hn
  exact Nat.lt_trans (parent_lt h) hid

theorem ancestors_root : t.ancestors root = [] := by
  cases hp : t.parent? root with
  | none => exact ancestors_of_parent?_eq_none hp
  | some p => exact absurd (parent_lt hp) (Nat.not_lt_zero p)

theorem label_branchAt {id : Nat} (hid : id < t.nodes.size) :
    (t.branchAt id hid).label = t.nodes[id] := by
  unfold branchAt
  rfl

theorem branchAt_eq {id : Nat} (hid : id < t.nodes.size) :
    t.branchAt id hid = .mk t.nodes[id] (t.nodes[id].children.filterMap t.branch?) := by
  have hlt (c : { c // c ∈ t.nodes[id].children }) : c.1 < t.nodes.size :=
    ((t.linked _ (Array.getElem_mem hid)).children_lt c.1 c.2).2
  calc
    t.branchAt id hid
        = .mk t.nodes[id] (t.nodes[id].children.attach.map fun c => t.branchAt c.1 (hlt c)) := by
          rw [branchAt]
    _ = .mk t.nodes[id] (t.nodes[id].children.attach.filterMap (t.branch? ∘ Subtype.val)) := by
          rw [← List.filterMap_eq_map]
          congr 1
          refine List.filterMap_congr fun c _ => ?_
          show some _ = t.branch? c.1
          rw [branch?, dif_pos (hlt c)]
    _ = .mk t.nodes[id] (t.nodes[id].children.filterMap t.branch?) := by
          rw [← List.filterMap_map, List.attach_map_subtype_val]

theorem mem_children_branchAt {id : Nat} {hid : id < t.nodes.size} {b : Branch Node}
    (hb : b ∈ (t.branchAt id hid).children) :
    ∃ c ∈ t.nodes[id].children, ∃ hc : c < t.nodes.size, b = t.branchAt c hc := by
  unfold branchAt at hb
  obtain ⟨⟨c, hc⟩, -, rfl⟩ := List.mem_map.1 hb
  exact ⟨c, hc, _, rfl⟩

theorem mem_formsInAll {bs : List (Branch Node)} {id : Nat} (h : id ∈ formsInAll bs) :
    ∃ b ∈ bs, id ∈ formsIn b := by
  induction bs with
  | nil => cases h
  | cons b bs ih =>
    unfold formsInAll at h
    rcases List.mem_append.1 h with h | h
    · exact ⟨b, List.mem_cons_self, h⟩
    · obtain ⟨b', hb', h⟩ := ih h
      exact ⟨b', List.mem_cons_of_mem _ hb', h⟩

theorem formsIn_eq (b : Branch Node) :
    formsIn b =
      match b.label.kind.category with
      | .folder => formsInAll b.children
      | .form | .images => [b.label.id]
      | _ => [] := by
  obtain ⟨n, cs⟩ := b
  rw [formsIn]
  rfl

/-- A form listed for a branch is a form or an image list of the tree, and there are only folders
between it and the branch. -/
theorem WellFormed.of_mem_formsIn (h : t.WellFormed) {k : Nat} (hk : k < t.nodes.size) {id : Nat}
    (hid : id ∈ formsIn (t.branchAt k hk)) :
    (∃ n, t.get? id = some n ∧ (n.kind.category = .form ∨ n.kind.category = .images)) ∧
      ∀ a ∈ t.ancestors id, a ∈ t.ancestors k ∨ a.kind.category = .folder := by
  induction k, hk using branchAt.induct t with
  | case1 k hk ih =>
    -- the walk ends here at a form, and goes on below a folder
    have hself (hleaf : t.nodes[k].kind.category = .form ∨ t.nodes[k].kind.category = .images)
        (hid : id ∈ [t.nodes[k].id]) :
        (∃ n, t.get? id = some n ∧ (n.kind.category = .form ∨ n.kind.category = .images)) ∧
          ∀ a ∈ t.ancestors id, a ∈ t.ancestors k ∨ a.kind.category = .folder := by
      obtain rfl : id = k := (List.mem_singleton.1 hid).trans (t.id_eq k hk)
      exact ⟨⟨_, Array.getElem?_eq_getElem hk, hleaf⟩, fun a ha => Or.inl ha⟩
    rw [formsIn_eq, label_branchAt] at hid
    split at hid
    · next hfolder =>
      obtain ⟨b, hb, hid⟩ := mem_formsInAll hid
      obtain ⟨c, hc, hlt, rfl⟩ := mem_children_branchAt hb
      obtain ⟨hnode, habove⟩ := ih c hc hid
      refine ⟨hnode, fun a ha => ?_⟩
      rcases habove a ha with ha | ha
      · rw [ancestors_of_parent? hk (h.parent?_of_mem_children hk hc)] at ha
        rcases List.mem_cons.1 ha with rfl | ha
        · exact Or.inr hfolder
        · exact Or.inl ha
      · exact Or.inr ha
    · next hform => exact hself (Or.inl hform) hid
    · next himages => exact hself (Or.inr himages) hid
    · cases hid

/-- A form listed for a project is a form or an image list, and only folders and the project itself
stand above it. -/
theorem WellFormed.of_mem_forms (h : t.WellFormed) (root : t.rootNode.kind = .project) {id : Nat}
    (hid : id ∈ t.forms) :
    (∃ n, t.get? id = some n ∧ (n.kind.category = .form ∨ n.kind.category = .images)) ∧
      ∀ a ∈ t.ancestors id, a.kind.category = .project ∨ a.kind.category = .folder := by
  obtain ⟨b, hb, hid⟩ := mem_formsInAll hid
  obtain ⟨c, hc, hlt, rfl⟩ := mem_children_branchAt hb
  obtain ⟨hnode, habove⟩ := h.of_mem_formsIn _ hid
  refine ⟨hnode, fun a ha => ?_⟩
  rcases habove a ha with ha | ha
  · have hparent := h.parent?_of_mem_children t.size_pos hc
    have habove : t.ancestors c = [t.rootNode] := by
      rw [ancestors_of_parent? t.size_pos hparent]
      -- nothing is above the root
      exact congrArg (List.cons _) ancestors_root
    rw [habove] at ha
    obtain rfl := List.mem_singleton.1 ha
    exact Or.inl (congrArg Kind.category root)
  · exact Or.inr ha

end Tree

end FormDesign
