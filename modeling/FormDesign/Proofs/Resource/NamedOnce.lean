import FormDesign.Proofs.Resource.Names
import FormDesign.Proofs.Tree.Places

/-!
# Every node is in the resource once

With comments left out, the objects of a design have the names of the nodes that the resource
describes, each as often as the design has it. Pages that move up to a tree book are neither lost
nor written twice, and what stands below a node without an object is left out with it.

* `perm_names_growAll`: the names in what siblings grow into
* `ResourceDocument.perm_names_addition`: the names in what is added to a document
* `Tree.NamesApart.named_add`: how many objects of a document have the name of a node
-/

namespace FormDesign

/-- Whether the resource has an object for a node. -/
def Element.isDescribed (e : Element) : Bool :=
  e.kind.isDescribed

/-! ## One node -/

namespace Sprout

/-- The names in objects and pages. -/
def names (sprouts : List Sprout) : List String :=
  Xml.names (sprouts.map xml)

@[simp] theorem names_nil : names [] = [] :=
  rfl

theorem names_cons (s : Sprout) (sprouts : List Sprout) :
    names (s :: sprouts) = Xml.names [s.xml] ++ names sprouts :=
  Xml.names_cons ..

theorem names_append (sprouts more : List Sprout) :
    names (sprouts ++ more) = names sprouts ++ names more := by
  rw [names, List.map_append, Xml.names_append]
  rfl

/-- Taking the pages out loses nothing. -/
theorem perm_staying (sprouts : List Sprout) :
    (staying sprouts ++ (pages sprouts).map xml).Perm (sprouts.map xml) := by
  induction sprouts with
  | nil => exact .nil
  | cons s sprouts ih =>
    cases s with
    | here x => exact ih.cons x
    | page x => exact List.perm_middle.trans (ih.cons x)

end Sprout

namespace Element

/-- What stays at a node and what moves on are all the objects and pages below it. -/
theorem perm_settle (e : Element) (sprouts : List Sprout) :
    ((e.settle sprouts).1 ++ (e.settle sprouts).2.map Sprout.xml).Perm
      (sprouts.map Sprout.xml) := by
  unfold settle
  split
  · exact .of_eq (List.append_nil _)
  · exact Sprout.perm_staying sprouts

theorem perm_names_settle (e : Element) (sprouts : List Sprout) :
    (Xml.names (e.settle sprouts).1 ++ Sprout.names (e.settle sprouts).2).Perm
      (Sprout.names sprouts) := by
  rw [Sprout.names, ← Xml.names_append]
  exact Xml.names_perm (e.perm_settle sprouts)

theorem names_container (e : Element) {leafless : Bool} {children : List Xml}
    (leaf : leafless = true → children = []) :
    Xml.names (e.container leafless children) = Xml.names children := by
  unfold container
  split
  · simp [paneWindow]
  · split
    · next h => rw [leaf h]
    · simp [dropdownMenu, Xml.names_element]
  · rfl

end Element

namespace Growth

/-- The names in the object of a node and in the pages that move on. -/
def names (g : Growth) : List String :=
  g.object.names ++ Sprout.names g.pages

theorem names_asChild {g : Growth} (supported : g.placement ≠ .notSupported) :
    Sprout.names g.asChild.sprouts = g.names := by
  rw [asChild, if_neg supported, names, Sprout.names_cons, Sprout.xml, Part.names_object,
    Xml.names_nil, List.append_nil]

theorem names_asPage (g : Growth) (depth : Nat) :
    Sprout.names (g.asPage depth).sprouts = g.names := by
  rw [asPage, names, Sprout.names_cons, Sprout.xml, Part.names_object, Xml.names_nil,
    List.append_nil, Part.names, Xml.names_leaf]
  rfl

variable {above : List Element} {trail : Trail} {depth : Nat} {e : Element} {leafless : Bool}
  {grove : Bool → Trail → Grove}

theorem around_of_not_described (h : e.isDescribed = false) :
    (around false above trail depth e leafless grove).placement = .notSupported := by
  have holds := e.holdsChildren_resourceShape false above
  rw [show e.kind.isDescribed = false from h] at holds
  unfold around assemble
  cases hs : e.resourceShape false above with
  | absent | remark object => rfl
  | plain object => rw [hs] at holds; cases holds
  | wrapped outer inner => rw [hs] at holds; cases holds

/-- A node that the resource describes has its names, and the names of what is below it. -/
theorem perm_names_around (h : e.isDescribed = true) {below : List String}
    (leaf : leafless = true → ∀ flatten inner, (grove flatten inner).sprouts = [])
    (hbelow : ∀ flatten inner, (Sprout.names (grove flatten inner).sprouts).Perm below) :
    (around false above trail depth e leafless grove).placement ≠ .notSupported ∧
      (around false above trail depth e leafless grove).names.Perm (e.objectNames ++ below) := by
  have holds := e.holdsChildren_resourceShape false above
  rw [show e.kind.isDescribed = true from h] at holds
  have own := e.names_resourceShape false above h
  -- the grove that the node stands around, with whatever it was asked for
  obtain ⟨children, hchildren, hleaf, hperm⟩ : ∃ children : Grove,
      (if (e.resourceShape false above).holdsChildren then
        grove (Element.flattensFolders (e.resourceShape false above) e)
          (trail.enter e ((above.find? fun a => a.kind.isBook).map Element.kind) depth)
        else .empty) = children ∧
      (leafless = true → children.sprouts = []) ∧ (Sprout.names children.sprouts).Perm below := by
    rw [if_pos holds]
    exact ⟨_, rfl, fun hl => leaf hl _ _, hbelow _ _⟩
  have contents : Xml.names (e.container leafless (e.settle children.sprouts).1)
      = Xml.names (e.settle children.sprouts).1 :=
    e.names_container fun hl => by
      rw [hleaf hl]
      unfold Element.settle
      split <;> rfl
  have settled := (e.perm_names_settle children.sprouts).trans hperm
  unfold around
  simp only [hchildren]
  unfold assemble names
  cases hs : e.resourceShape false above with
  | absent => rw [hs] at holds; cases holds
  | remark object => rw [hs] at holds; cases holds
  | plain object =>
    refine ⟨nofun, ?_⟩
    rw [hs, Shape.names_plain] at own
    rw [Part.names_extend, contents, own, List.append_assoc]
    exact settled.append_left _
  | wrapped outer inner =>
    refine ⟨nofun, ?_⟩
    rw [hs, Shape.names_wrapped] at own
    rw [Part.names_extend, Part.names_object, Part.names_extend, contents, Xml.names_nil,
      List.append_nil, ← List.append_assoc, own, List.append_assoc]
    exact settled.append_left _

end Growth

/-! ## All nodes of a design -/

theorem sprouts_growAll_of_isEmpty {comments : Bool} {parent : Element} {flatten : Bool}
    {above : List Element} {trail : Trail} {bs : List Design} (h : bs.isEmpty = true) :
    (growAll comments parent flatten above trail bs).sprouts = [] := by
  rw [List.isEmpty_iff.1 h, growAll]
  rfl

/-- Without comments nothing is left of a node that the resource cannot describe. -/
theorem sprouts_growChild_of_not_described (parent : Element) (flatten : Bool)
    (above : List Element) (trail : Trail) {b : Design} (h : b.label.isDescribed = false) :
    (growChild false parent flatten above trail b).sprouts = [] := by
  cases b with
  | mk e cs =>
    have h : e.isDescribed = false := h
    have hkind (k : Kind) (hk : k.isDescribed = true) : e.kind ≠ k := by
      rintro rfl
      cases h.symm.trans hk
    unfold growChild
    dsimp only
    rw [if_neg (by simp [hkind .folder rfl]), if_neg (by simp [hkind .bookPage rfl]),
      Growth.asChild, if_pos (Growth.around_of_not_described h)]

mutual

theorem perm_names_growChild (parent : Element) (flatten : Bool) (above : List Element)
    (trail : Trail) (b : Design) :
    (Sprout.names (growChild false parent flatten above trail b).sprouts).Perm
      ((b.pruned Element.isDescribed).flatMap Element.objectNames) := by
  cases b with
  | mk e cs =>
    have below (flatten : Bool) (inner : Trail) :
        (Sprout.names (growAll false e flatten (e :: above) inner cs).sprouts).Perm
          ((Branch.prunedAll Element.isDescribed cs).flatMap Element.objectNames) :=
      perm_names_growAll e flatten (e :: above) inner cs
    have leaf (h : cs.isEmpty = true) (flatten : Bool) (inner : Trail) :
        (growAll false e flatten (e :: above) inner cs).sprouts = [] :=
      sprouts_growAll_of_isEmpty h
    unfold Branch.pruned
    cases hd : e.isDescribed with
    | false =>
      rw [sprouts_growChild_of_not_described parent flatten above trail (b := .mk e cs) hd]
      exact .nil
    | true =>
      rw [if_pos rfl, List.flatMap_cons, growChild]
      dsimp only
      split
      · next hfolder =>
        have none : e.objectNames = [] := by
          rw [Element.objectNames, (by simpa using hfolder : _ ∧ e.kind = .folder).2]
        rw [none]
        exact below true trail
      · split
        · rw [Growth.names_asPage]
          exact (Growth.perm_names_around hd leaf below).2
        · obtain ⟨supported, perm⟩ := Growth.perm_names_around hd leaf below
          rw [Growth.names_asChild supported]
          exact perm

theorem perm_names_growAll (parent : Element) (flatten : Bool) (above : List Element)
    (trail : Trail) (bs : List Design) :
    (Sprout.names (growAll false parent flatten above trail bs).sprouts).Perm
      ((Branch.prunedAll Element.isDescribed bs).flatMap Element.objectNames) := by
  cases bs with
  | nil =>
    rw [growAll]
    exact .nil
  | cons b bs =>
    unfold growAll Branch.prunedAll
    rw [Grove.append, Sprout.names_append, List.flatMap_append]
    exact (perm_names_growChild parent flatten above trail b).append
      (perm_names_growAll parent flatten above trail bs)

end

/-! ## Outside of tree books -/

namespace Sprout

theorem pages_append (sprouts more : List Sprout) :
    pages (sprouts ++ more) = pages sprouts ++ pages more :=
  List.filter_append ..

end Sprout

theorem Trail.inTreeBook_enter {trail : Trail} {e : Element} {book : Option Kind} {depth : Nat}
    (h : e.kind ≠ .treebook) : (trail.enter e book depth).inTreeBook = trail.inTreeBook := by
  unfold enter
  rw [if_neg h]
  split <;> rfl

/-- No page leaves a node unless one comes from below, and a tree book keeps all of them. -/
theorem Growth.pages_around {comments : Bool} {above : List Element} {trail : Trail} {depth : Nat}
    {e : Element} {leafless : Bool} {grove : Bool → Trail → Grove} (out : trail.inTreeBook = false)
    (below : ∀ flatten inner, inner.inTreeBook = false →
      Sprout.pages (grove flatten inner).sprouts = []) :
    (around comments above trail depth e leafless grove).pages = [] := by
  let book := (above.find? fun a => a.kind.isBook).map Element.kind
  have settled (flatten : Bool) :
      (e.settle (grove flatten (trail.enter e book depth)).sprouts).2 = [] := by
    unfold Element.settle
    split
    · rfl
    · next h => exact below flatten _ ((Trail.inTreeBook_enter h).trans out)
  unfold around assemble
  cases e.resourceShape comments above with
  | absent | remark object => rfl
  | plain object => exact settled _
  | wrapped outer inner => exact settled _

mutual

/-- Outside of tree books no page moves up. -/
theorem pages_growChild (comments : Bool) (parent : Element) (flatten : Bool)
    (above : List Element) {trail : Trail} (out : trail.inTreeBook = false) (b : Design) :
    Sprout.pages (growChild comments parent flatten above trail b).sprouts = [] := by
  cases b with
  | mk e cs =>
    have below (flatten : Bool) (inner : Trail) (h : inner.inTreeBook = false) :
        Sprout.pages (growAll comments e flatten (e :: above) inner cs).sprouts = [] :=
      pages_growAll comments e flatten (e :: above) h cs
    unfold growChild
    dsimp only
    split
    · exact below true trail out
    · rw [out, Bool.and_false, if_neg Bool.false_ne_true]
      unfold Growth.asChild
      split
      · rfl
      · show Sprout.pages (Growth.around ..).pages = []
        rw [Growth.pages_around out below]
        rfl

theorem pages_growAll (comments : Bool) (parent : Element) (flatten : Bool) (above : List Element)
    {trail : Trail} (out : trail.inTreeBook = false) (bs : List Design) :
    Sprout.pages (growAll comments parent flatten above trail bs).sprouts = [] := by
  cases bs with
  | nil =>
    rw [growAll]
    rfl
  | cons b bs =>
    unfold growAll
    rw [Grove.append, Sprout.pages_append, pages_growChild comments parent flatten above out b,
      pages_growAll comments parent flatten above out bs]
    rfl

end

/-- No page leaves the object of a form. -/
theorem pages_grow (comments : Bool) (above : List Element) (b : Design) :
    (grow comments above b).pages = [] :=
  Growth.pages_around rfl fun flatten _ out =>
    pages_growAll comments b.label flatten (b.label :: above) out b.children

/-! ## Documents -/

namespace ResourceDocument

/-- Without a preview the object is added as it is. -/
theorem objects_addition (comments : Bool) (above : List Element) (b : Design) :
    (addition comments false above b).objects
      = if b.label.kind = .project then (grow comments above b).object.contents
        else if (grow comments above b).placement = .notSupported then []
        else [(grow comments above b).object.object] := by
  unfold addition
  dsimp only
  rw [Bool.false_and, Bool.false_and, if_neg Bool.false_ne_true, if_neg Bool.false_ne_true]
  exact apply_ite Addition.objects ..

/-- A project or folder has no attributes of its own. -/
theorem attributes_grow_of_grouping {comments : Bool} {above : List Element} {b : Design}
    (grouping : b.label.kind.isGrouping = true) :
    (grow comments above b).object.attributes = [] := by
  have plain : b.label.resourceShape comments above = .plain ⟨[], []⟩ := by
    rw [Element.resourceShape, if_pos grouping]
  unfold grow Growth.around
  dsimp only
  rw [plain]
  rfl

/-- What is added for a design has the names of its nodes. -/
theorem perm_names_addition (above : List Element) (b : Design) :
    (Xml.names (addition false false above b).objects).Perm
      ((b.pruned Element.isDescribed).flatMap Element.objectNames) := by
  rw [objects_addition]
  obtain ⟨e, cs⟩ := b
  have leaf (h : cs.isEmpty = true) (flatten : Bool) (inner : Trail) :
      (growAll false e flatten (e :: above) inner cs).sprouts = [] :=
    sprouts_growAll_of_isEmpty h
  unfold Branch.pruned
  cases hd : e.isDescribed with
  | false =>
    have placement : (grow false above (.mk e cs)).placement = .notSupported :=
      Growth.around_of_not_described hd
    have project : (Branch.mk e cs).label.kind ≠ .project := by
      rintro (hk : e.kind = .project)
      rw [Element.isDescribed, hk] at hd
      cases hd
    rw [if_neg project, if_pos placement]
    exact .nil
  | true =>
    obtain ⟨supported, perm⟩ : (grow false above (.mk e cs)).placement ≠ .notSupported ∧
        (grow false above (.mk e cs)).names.Perm
          (e.objectNames
            ++ (Branch.prunedAll Element.isDescribed cs).flatMap Element.objectNames) :=
      Growth.perm_names_around hd leaf fun flatten inner =>
        perm_names_growAll e flatten (e :: above) inner cs
    have object : (grow false above (.mk e cs)).object.names
        = (grow false above (.mk e cs)).names := by
      rw [Growth.names, pages_grow, Sprout.names_nil, List.append_nil]
    rw [if_pos rfl, List.flatMap_cons]
    refine List.Perm.trans (.of_eq ?_) perm
    refine Eq.trans ?_ object
    split
    · next project =>
      rw [Part.names, attributes_grow_of_grouping (by rw [project]; rfl)]
      rfl
    · rw [Part.names_object, Xml.names_nil, List.append_nil]

/-- The elements of a document that carry a name. -/
def named (d : ResourceDocument) (name : String) : List Xml :=
  (Xml.elementsAll d.nodes).filter fun x => x.attribute? "name" == some name

theorem length_named (d : ResourceDocument) (name : String) :
    (d.named name).length = (Xml.names d.nodes).count name := by
  rw [named, Xml.names, List.count_filterMap, List.countP_eq_length_filter]

/-- Around its objects a document has no names. -/
theorem names_nodes (d : ResourceDocument) :
    Xml.names d.nodes = Xml.names (d.objects.getD []) := by
  unfold nodes
  cases d.banner <;> cases d.objects <;>
    simp [bannerComments, resourceElement, Xml.names_element, List.lookup_cons]

end ResourceDocument

/-! ## Names of their own -/

/-- Kinds whose nodes have a name in the resource. -/
def Kind.isNamed : Kind → Bool
  | .spacer | .separator | .toolSeparator | .folder | .project => false
  | _ => true

namespace Element

theorem prop?_varName {e : Element} (nonempty : e.varName ≠ "") :
    e.prop? .varName = some e.varName := by
  unfold varName text at nonempty ⊢
  cases h : e.prop? .varName with
  | none =>
    rw [h] at nonempty
    exact absurd rfl nonempty
  | some value => rfl

/-- Without an identifier the variable is the name. -/
theorem ownName_of_varName {e : Element} (noId : e.prop? .id = none) (nonempty : e.varName ≠ "") :
    e.ownName = [e.varName] := by
  have parse : Identifier.parse? (e.text .id) = none := by
    rw [text, noId]
    rfl
  have name : e.resourceName = e.varName := by
    rw [resourceName, parse, hasProp, prop?_varName nonempty]
    rfl
  rw [ownName, name, if_neg nonempty]

/-- A node brings its variable along once, unless its kind has no name. -/
theorem count_objectNames {e : Element} (noId : e.prop? .id = none) (nonempty : e.varName ≠ "")
    {name : String} (stock : name ∉ dialogButtons.map Prod.snd) :
    e.objectNames.count name = if e.kind.isNamed = true ∧ e.varName = name then 1 else 0 := by
  have own : e.ownName.count name = if e.varName = name then 1 else 0 := by
    rw [ownName_of_varName noId nonempty, List.count_singleton']
  have sizer : ((if e.hasValue .varName then [e.varName] else []) ++ e.buttons).count name
      = if e.varName = name then 1 else 0 := by
    have value : e.hasValue .varName = true := by
      simpa [hasValue, prop?_varName nonempty] using nonempty
    have buttons : name ∉ e.buttons := fun hmem =>
      stock (List.map_subset _ List.filter_sublist.subset hmem)
    rw [if_pos value, List.count_append, List.count_eq_zero_of_not_mem buttons,
      List.count_singleton']
    rfl
  unfold objectNames
  cases hk : e.kind
  case project | folder | spacer | separator | toolSeparator => rfl
  case stdDialogButtonSizer => simpa [Kind.isNamed] using sizer
  all_goals simpa [Kind.isNamed] using own

end Element

namespace ResourceDocument

/-- The panel around a bar has the name of the bar's class, and the sizer in it has its own. -/
theorem flatMap_objectNames_barPanel (bar : Design) :
    ((barPanel bar).pruned Element.isDescribed).flatMap Element.objectNames
      = ((if bar.label.className = "" then [] else [bar.label.className]) ++ [shellSizerName])
        ++ (bar.pruned Element.isDescribed).flatMap Element.objectNames := by
  let panel := (Element.ofKind .panelForm).setProp .className bar.label.className
  let sizer := (Element.ofKind .verticalBoxSizer).setProp .varName shellSizerName
  have panelNames : panel.objectNames
      = if bar.label.className = "" then [] else [bar.label.className] :=
    rfl
  have sizerNames : sizer.objectNames = [shellSizerName] := rfl
  have pruned : (barPanel bar).pruned Element.isDescribed
      = panel :: sizer :: bar.pruned Element.isDescribed := by
    show panel :: ((sizer :: (bar.pruned Element.isDescribed ++ [])) ++ []) = _
    rw [List.append_nil, List.append_nil]
  rw [pruned, List.flatMap_cons, List.flatMap_cons, panelNames, sizerNames, List.append_assoc]

/-- Adding a node without comments and previews adds the names of the nodes below it that the
resource describes. Only a bar brings two more. -/
theorem exists_perm_names_add (d : ResourceDocument) (comments : d.options.addComments = false)
    (plain : d.previewing = false) {t : Tree} {id : Nat} {b : Design} (hb : t.design id = .ok b) :
    ∃ placement d', d.add t id = .ok (placement, d') ∧
      ∃ more ⊆ [b.label.className, shellSizerName],
        (Xml.names d'.nodes).Perm (Xml.names d.nodes
          ++ (more ++ (b.pruned Element.isDescribed).flatMap Element.objectNames)) := by
  rw [add, hb]
  refine ⟨_, _, rfl, ?_⟩
  simp only [comments, plain, names_nodes, extend, Option.getD_some, Xml.names_append]
  split
  · have perm := perm_names_addition [] (barPanel b)
    rw [flatMap_objectNames_barPanel] at perm
    refine ⟨_, ?_, perm.append_left _⟩
    split <;> simp
  · exact ⟨[], List.nil_subset _, (perm_names_addition ..).append_left _⟩

end ResourceDocument

namespace Tree

/-- The nodes of a subtree have names of their own: each has a variable and no identifier, the
variables differ, and none is a name that the resource has for something else. -/
structure NamesApart (t : Tree) (id : Nat) : Prop where
  nonempty : ∀ n ∈ t.descendants id, n.varName ≠ ""
  noId : ∀ n ∈ t.descendants id, n.prop? .id = none
  nodup : ((t.descendants id).map fun n => n.varName).Nodup
  className : ∀ n ∈ t.descendants id, ∀ form ∈ t.get? id, n.varName ≠ form.className
  stock : ∀ n ∈ t.descendants id, n.varName ∉ dialogButtons.map Prod.snd
  temporary : ∀ n ∈ t.descendants id, n.varName ≠ ResourceDocument.shellSizerName

variable {t : Tree} {id : Nat}

/-- Some nodes of the subtree bring the name of a node along if the node is one of them. -/
theorem NamesApart.count_flatMap (h : t.NamesApart id) {n : Node} (hn : n ∈ t.descendants id)
    (named : n.kind.isNamed = true) {ns : List Node} (sub : ns ⊆ t.descendants id) :
    (ns.flatMap fun m => m.objectNames).count n.varName = ns.count n := by
  induction ns with
  | nil => rfl
  | cons m ns ih =>
    obtain ⟨hm, hns⟩ := List.cons_subset.1 sub
    have own := Element.count_objectNames (h.noId m hm) (h.nonempty m hm) (h.stock n hn)
    rw [List.flatMap_cons, List.count_append, own, ih hns, List.count_cons, Nat.add_comm]
    congr 1
    by_cases heq : m = n
    · subst heq
      simp [named]
    · have differ : m.varName ≠ n.varName := fun hv =>
        heq (List.inj_on_of_nodup_map h.nodup hm hn hv)
      simp [heq, differ]

/-- **The name of a node is in the document once if the resource describes the node and what it
stands in, and not at all if not.** -/
theorem NamesApart.named_add (reachable : t.Reachable) {form : Node}
    (hform : t.get? id = some form) (apart : t.NamesApart id) {options : ResourceOptions}
    (comments : options.addComments = false) (banner : Bool) :
    ∃ placement d, (ResourceDocument.empty options false banner).add t id = .ok (placement, d) ∧
      ∀ n ∈ t.descendants id, n.kind.isNamed = true →
        (d.named n.varName).length
          = if ∀ a ∈ n :: t.ancestors n.id, a ∈ t.descendants id → a.kind.isDescribed = true
            then 1 else 0 := by
  obtain ⟨hid, hlabel⟩ := Array.getElem?_eq_some_iff.1 hform
  let b := t.branchAt id hid
  let left := b.pruned fun n => n.isDescribed
  have design : t.design id = .ok (b.map Node.toElement) := by
    rw [Tree.design, branch?, dif_pos hid]
  have className : (b.map Node.toElement).label.className = form.className := by
    rw [← hlabel]
    simp only [b, branchAt_eq, Branch.map, Branch.label]
  obtain ⟨placement, d, hd, more, hmore, perm⟩ :=
    ResourceDocument.exists_perm_names_add (.empty options false banner) comments rfl design
  refine ⟨placement, d, hd, fun n hn named => ?_⟩
  have fresh : Xml.names (ResourceDocument.empty options false banner).nodes = [] := by
    rw [ResourceDocument.names_nodes]
    rfl
  have other : n.varName ∉ more := by
    intro hmem
    have hmem := hmore hmem
    rw [className, List.mem_pair] at hmem
    rcases hmem with heq | heq
    · exact apart.className n hn form hform heq
    · exact apart.temporary n hn heq
  have sub : left ⊆ t.descendants id := by
    rw [descendants_eq hid]
    exact (Branch.pruned_sublist ..).subset
  have nodup : left.Nodup := by
    refine (Branch.pruned_sublist ..).nodup ?_
    rw [← descendants_eq hid]
    exact List.Nodup.of_map _ apart.nodup
  calc
    (d.named n.varName).length
        = (left.flatMap fun m => m.objectNames).count n.varName := by
          rw [ResourceDocument.length_named, perm.count_eq, fresh, List.nil_append,
            List.count_append, List.count_eq_zero_of_not_mem other, Nat.zero_add,
            Branch.pruned_map, List.flatMap_map]
          rfl
    _ = if n ∈ left then 1 else 0 := by
          rw [apart.count_flatMap hn named sub, nodup.count]
    _ = _ := by
          refine if_congr ?_ rfl rfl
          rw [reachable.wellFormed.mem_pruned_branchAt hid hn, List.forall_mem_cons]
          exact ⟨fun h => ⟨fun _ => h.1, h.2⟩, fun h => ⟨h.1 hn, h.2⟩⟩

/-! ## A dialog with a tree book -/

/-- An element with a variable. -/
def namedElement (kind : Kind) (name : String) : Element :=
  (Element.ofKind kind).setProp .varName name

/-- A dialog with a timer, and with a page below a page. -/
def bookDialog : Design :=
  .mk (.ofKind .project)
    [.mk ((namedElement .dialog "m_dialog").setProp .className "BookDialog")
      [.mk (namedElement .timer "m_timer") [],
        .mk (namedElement .verticalBoxSizer "m_sizer")
          [.mk (namedElement .treebook "m_book")
            [.mk (namedElement .bookPage "m_top")
              [.mk (namedElement .bookPage "m_nested") [.mk (namedElement .button "m_ok") []]]]]]]

theorem bookDialog_named :
    (ofDesign bookDialog).NamesApart 1 ∧
      ∃ placement d,
        (ResourceDocument.empty .default false true).add (ofDesign bookDialog) 1
            = .ok (placement, d) ∧
          ((ofDesign bookDialog).descendants 1).map
              (fun n => (n.varName, (d.named n.varName).length))
            = [("m_dialog", 1), ("m_timer", 0), ("m_sizer", 1), ("m_book", 1), ("m_top", 1),
                ("m_nested", 1), ("m_ok", 1)] := by
  have reachable : (ofDesign bookDialog).Reachable := .ofDesign (by
    unfold Design.EventsOnce Element.EventsOnce
    decide)
  have nodes : (ofDesign bookDialog).descendants 1 = (Design.lay none 0 bookDialog).tail := by
    with_unfolding_all rfl
  have apart : (ofDesign bookDialog).NamesApart 1 := by
    constructor <;> rw [nodes] <;> decide
  have comments : ResourceOptions.default.addComments = false := rfl
  obtain ⟨placement, d, hd, h⟩ := apart.named_add reachable rfl comments true
  refine ⟨apart, placement, d, hd, ?_⟩
  have named : ∀ n ∈ (ofDesign bookDialog).descendants 1, n.kind.isNamed = true := by
    rw [nodes]
    decide
  rw [List.map_congr_left fun n hn => congrArg (Prod.mk n.varName) (h n hn (named n hn))]
  with_unfolding_all rfl

end Tree

end FormDesign
