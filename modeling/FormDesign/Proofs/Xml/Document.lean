import FormDesign.Proofs.Xml.RoundTrip
import FormDesign.Xml.Document
import Mathlib.Data.List.Forall2
import Mathlib.Data.List.Nodup

/-!
# Documents that are built

A document is built step by step, and nodes are taken out of it again. At all times the children of
an element have it as their parent, none of them is one twice, and the nodes at the top have no
parent. So an element that is its own child, and whatever else stands outside of the document,
cannot be reached from the top. What is reached is printed, and the reader gets it back.

* `XmlDocument.Built`: the documents that are built
* `XmlDocument.Linked`: parents and children fit
* `XmlDocument.Shows`: a node of the document as XML
* `XmlDocument.read_print`: what is part of a document is read back from its text
-/

namespace FormDesign

namespace XmlDocument

/-- The documents that the operations build. -/
inductive Built : XmlDocument → Prop
  | empty : Built .empty
  | addRoot {d : XmlDocument} (h : Built d) (name : String) : Built (d.addRoot name)
  | addRootComment {d : XmlDocument} (h : Built d) (text : String) : Built (d.addRootComment text)
  | addChild {d : XmlDocument} (h : Built d) (parent : Nat) (name : String) :
      Built (d.addChild parent name)
  | addTextChild {d : XmlDocument} (h : Built d) (parent : Nat) (name text : String) :
      Built (d.addTextChild parent name text)
  | addComment {d : XmlDocument} (h : Built d) (parent : Nat) (text : String) :
      Built (d.addComment parent text)
  | removeChild {d : XmlDocument} (h : Built d) (parent child : Nat) :
      Built (d.removeChild parent child)
  | setAttribute {d : XmlDocument} (h : Built d) (i : Nat) (name value : String) :
      Built (d.setAttribute i name value)
  | setText {d : XmlDocument} (h : Built d) (i : Nat) (value : String) : Built (d.setText i value)

/-- Parents and children fit, and no child is one twice. -/
structure Linked (d : XmlDocument) : Prop where
  parent_of_mem : ∀ {i c}, c ∈ d.children i → d.parent? c = some i
  parent_of_top : ∀ i ∈ d.top, d.parent? i = none
  nodup : ∀ i, (d.children i).Nodup

variable {d d' : XmlDocument} {body : XmlBody} {i c : Nat}

theorem entry?_eq_none (h : d.size ≤ i) : d.entry? i = none :=
  Array.getElem?_eq_none h

theorem lt_of_mem_children (h : c ∈ d.children i) : c < d.size := by
  unfold children entry? at h
  by_cases hi : i < d.entries.size
  · rw [Array.getElem?_eq_getElem hi] at h
    exact (d.children_le i hi c h).2
  · rw [Array.getElem?_eq_none (Nat.le_of_not_lt hi)] at h
    cases h

/-- Children and parents are all that counts. -/
theorem Linked.congr (h : d.Linked) (top : d'.top = d.top)
    (children : ∀ i, d'.children i = d.children i) (parent : ∀ i, d'.parent? i = d.parent? i) :
    d'.Linked where
  parent_of_mem hc := by
    rw [children] at hc
    rw [parent, h.parent_of_mem hc]
  parent_of_top i hi := by
    rw [top] at hi
    rw [parent, h.parent_of_top i hi]
  nodup i := by
    rw [children]
    exact h.nodup i

/-! ## Making nodes -/

/-- The entries with one more. -/
def pushed? (d : XmlDocument) (entry : XmlEntry) (i : Nat) : Option XmlEntry :=
  if i = d.size then some entry else d.entry? i

/-- A new entry without children changes no children. -/
theorem children_pushed (d : XmlDocument) (entry : XmlEntry) (hb : entry.body.children = [])
    (i : Nat) : (d.pushed? entry i).elim [] (fun e => e.body.children) = d.children i := by
  unfold pushed?
  split
  · next heq =>
    rw [children, heq, entry?_eq_none d.size.le_refl, Option.elim_some, hb, Option.elim_none]
  · rfl

theorem parent_pushed (d : XmlDocument) (entry : XmlEntry) (i : Nat) :
    (d.pushed? entry i).bind XmlEntry.parent
      = if i = d.size then entry.parent else d.parent? i := by
  unfold pushed?
  split <;> rfl

theorem parent?_size (d : XmlDocument) : d.parent? d.size = none := by
  rw [parent?, entry?_eq_none d.size.le_refl]
  rfl

theorem entry?_pushTop (d : XmlDocument) (hb : body.children = []) (i : Nat) :
    entry? (d.pushTop body hb) i = d.pushed? { parent := none, body } i :=
  Array.getElem?_push

theorem parent?_pushTop (d : XmlDocument) (hb : body.children = []) (i : Nat) :
    (d.pushTop body hb).parent? i = d.parent? i := by
  rw [parent?, entry?_pushTop]
  refine (d.parent_pushed _ i).trans ?_
  split
  · next heq => rw [heq, parent?_size]
  · rfl

/-- A node at the top has no parent, and no children. -/
theorem Linked.pushTop (h : d.Linked) (hb : body.children = []) : (d.pushTop body hb).Linked := by
  have children (i : Nat) : (d.pushTop body hb).children i = d.children i := by
    rw [XmlDocument.children, entry?_pushTop]
    exact d.children_pushed _ hb i
  refine ⟨fun {i c} hc => ?_, fun i hi => ?_, fun i => ?_⟩
  · rw [children] at hc
    rw [parent?_pushTop, h.parent_of_mem hc]
  · rw [parent?_pushTop]
    rcases List.mem_append.1 hi with hi | hi
    · exact h.parent_of_top i hi
    · rw [List.mem_singleton.1 hi, parent?_size]
  · rw [children]
    exact h.nodup i

theorem children_withChild_cases (child : Nat) (e : XmlEntry) :
    (withChild child e).body.children = e.body.children ∨
      (withChild child e).body.children = e.body.children ++ [child] := by
  unfold withChild
  cases e.body with
  | comment => exact Or.inl rfl
  | element => exact Or.inr rfl

theorem entry?_pushChild (d : XmlDocument) (parent : Nat) (hb : body.children = []) (i : Nat) :
    entry? (d.pushChild parent body hb) i
      = if parent = i then (d.pushed? { parent := some parent, body } i).map (withChild d.size)
        else d.pushed? { parent := some parent, body } i := by
  unfold XmlDocument.entry? XmlDocument.pushChild
  rw [Array.getElem?_modify, Array.getElem?_push]
  rfl

theorem parent?_pushChild (d : XmlDocument) (parent : Nat) (hb : body.children = []) (i : Nat) :
    (d.pushChild parent body hb).parent? i = if i = d.size then some parent else d.parent? i := by
  rw [parent?, entry?_pushChild, ← d.parent_pushed { parent := some parent, body } i]
  split
  · cases d.pushed? { parent := some parent, body } i <;> rfl
  · rfl

/-- A new node is a child of its parent or of none. -/
theorem Linked.pushChild (h : d.Linked) (parent : Nat) (hb : body.children = []) :
    (d.pushChild parent body hb).Linked := by
  -- the parent need not be an element, or not be there, or be the new node itself
  have children (i : Nat) : (d.pushChild parent body hb).children i = d.children i ∨
      parent = i ∧ (d.pushChild parent body hb).children i = d.children i ++ [d.size] := by
    rw [← d.children_pushed { parent := some parent, body } hb i, XmlDocument.children,
      entry?_pushChild]
    split
    · next heq =>
      cases d.pushed? { parent := some parent, body } i with
      | none => exact Or.inl rfl
      | some e => exact (children_withChild_cases d.size e).imp_right fun added => ⟨heq, added⟩
    · exact Or.inl rfl
  refine ⟨fun {i c} hc => ?_, fun i hi => ?_, fun i => ?_⟩
  · rw [parent?_pushChild]
    rcases children i with same | ⟨rfl, added⟩
    · rw [same] at hc
      rw [if_neg (Nat.ne_of_lt (lt_of_mem_children hc)), h.parent_of_mem hc]
    · rw [added] at hc
      rcases List.mem_append.1 hc with hc | hc
      · rw [if_neg (Nat.ne_of_lt (lt_of_mem_children hc)), h.parent_of_mem hc]
      · rw [if_pos (List.mem_singleton.1 hc)]
  · have old : i < d.size := d.top_lt i hi
    rw [parent?_pushChild, if_neg (Nat.ne_of_lt old)]
    exact h.parent_of_top i hi
  · rcases children i with same | ⟨-, added⟩
    · rw [same]
      exact h.nodup i
    · rw [added]
      refine List.nodup_append.2 ⟨h.nodup i, List.nodup_singleton _, fun c hc other ho => ?_⟩
      rw [List.mem_singleton.1 ho]
      exact Nat.ne_of_lt (lt_of_mem_children hc)

/-! ## Changing nodes -/

section Modify

variable {f : XmlEntry → XmlEntry} {hf : ∀ e, ∀ c ∈ (f e).body.children, c ∈ e.body.children}

theorem entry?_modify (j : Nat) :
    entry? (d.modify i f hf) j = if i = j then (d.entry? j).map f else d.entry? j :=
  Array.getElem?_modify

theorem children_modify {g : List Nat → List Nat} (empty : g [] = [])
    (each : ∀ e, (f e).body.children = g e.body.children) (j : Nat) :
    (d.modify i f hf).children j = if i = j then g (d.children j) else d.children j := by
  unfold children
  rw [entry?_modify]
  split
  · cases d.entry? j with
    | none => exact empty.symm
    | some e => exact each e
  · rfl

theorem parent?_modify {g : Option Nat → Option Nat} (none : g none = none)
    (each : ∀ e, (f e).parent = g e.parent) (j : Nat) :
    (d.modify i f hf).parent? j = if i = j then g (d.parent? j) else d.parent? j := by
  unfold parent?
  rw [entry?_modify]
  split
  · cases d.entry? j with
    | none => exact none.symm
    | some e => exact each e
  · rfl

/-- A change that keeps parents and children keeps the links. -/
theorem Linked.modify (h : d.Linked) (children : ∀ e, (f e).body.children = e.body.children)
    (parent : ∀ e, (f e).parent = e.parent) : (d.modify i f hf).Linked := by
  refine h.congr rfl (fun j => ?_) fun j => ?_
  · rw [children_modify (g := id) rfl children]
    exact ite_self _
  · rw [parent?_modify (g := id) rfl parent]
    exact ite_self _

end Modify

theorem children_mapChildren {e : XmlEntry} {g : List Nat → List Nat} (empty : g [] = []) :
    (e.body.mapChildren g).children = g e.body.children := by
  cases e.body with
  | comment => exact empty.symm
  | element => rfl

section Remove

variable {parent child : Nat}

theorem children_removeChild (h : child ∈ d.children parent) (j : Nat) :
    (d.removeChild parent child).children j
      = if parent = j then (d.children j).erase child else d.children j := by
  unfold removeChild
  rw [if_pos (List.contains_iff_mem.2 h),
    children_modify (f := fun e => { e with parent := none }) (g := id) rfl fun _ => rfl,
    children_modify (g := (·.erase child)) rfl fun e => children_mapChildren rfl]
  exact ite_self _

theorem parent?_removeChild (h : child ∈ d.children parent) (j : Nat) :
    (d.removeChild parent child).parent? j = if child = j then none else d.parent? j := by
  unfold removeChild
  rw [if_pos (List.contains_iff_mem.2 h), parent?_modify (g := fun _ => none) rfl fun _ => rfl,
    parent?_modify (f := fun e => { e with body := e.body.mapChildren (·.erase child) }) (g := id)
      rfl fun _ => rfl]
  split
  · rfl
  · exact ite_self _

theorem top_removeChild : (d.removeChild parent child).top = d.top := by
  unfold removeChild
  split <;> rfl

/-- A child that is taken out has no parent any more, and no element has it as a child. -/
theorem Linked.removeChild (h : d.Linked) (parent child : Nat) :
    (d.removeChild parent child).Linked := by
  by_cases member : child ∈ d.children parent
  · refine ⟨fun {i c} hc => ?_, fun i hi => ?_, fun i => ?_⟩
    · rw [children_removeChild member] at hc
      have old : c ∈ d.children i := by
        split at hc
        · exact List.mem_of_mem_erase hc
        · exact hc
      have other : child ≠ c := by
        rintro rfl
        have heq : parent = i :=
          Option.some.inj ((h.parent_of_mem member).symm.trans (h.parent_of_mem old))
        rw [if_pos heq] at hc
        exact ((h.nodup i).mem_erase_iff.1 hc).1 rfl
      rw [parent?_removeChild member, if_neg other, h.parent_of_mem old]
    · rw [top_removeChild] at hi
      rw [parent?_removeChild member, h.parent_of_top i hi, ite_self]
    · rw [children_removeChild member]
      split
      · exact (h.nodup i).erase child
      · exact h.nodup i
  · have same : d.removeChild parent child = d :=
      if_neg fun contained => member (List.contains_iff_mem.1 contained)
    rw [same]
    exact h

end Remove

theorem linked_empty : empty.Linked where
  parent_of_mem hc := by cases hc
  parent_of_top _ hi := by cases hi
  nodup _ := List.nodup_nil

/-- Whatever is built is linked. -/
theorem Built.linked (h : d.Built) : d.Linked := by
  induction h with
  | empty => exact linked_empty
  | addRoot _ _ ih => exact ih.pushTop rfl
  | addRootComment _ _ ih => exact ih.pushTop rfl
  | addChild _ parent _ ih => exact ih.pushChild parent rfl
  | addTextChild _ parent _ _ ih => exact ih.pushChild parent rfl
  | addComment _ parent _ ih => exact ih.pushChild parent rfl
  | removeChild _ parent child ih => exact ih.removeChild parent child
  | setAttribute _ _ name value ih =>
    exact ih.modify (fun e => e.body.children_setAttribute name value) fun _ => rfl
  | setText _ _ value ih => exact ih.modify (fun e => e.body.children_setText value) fun _ => rfl

/-! ## What is part of a document -/

/-- The node with this number is shown as XML: as the same comment, or as an element with the same
name, the same attributes and text, and children that are shown one by one. -/
inductive Shows (d : XmlDocument) : Nat → Xml → Prop
  | comment {i : Nat} {parent : Option Nat} {text : String}
      (entry : d.entry? i = some { parent, body := .comment text }) : Shows d i (.comment text)
  | element {i : Nat} {parent : Option Nat} {name : String} {attributes : List (String × String)}
      {text : Option String} {children : List Nat} {xs : List Xml}
      (entry : d.entry? i = some { parent, body := .element name attributes text children })
      (below : List.Forall₂ (Shows d) children xs) : Shows d i (.element name attributes text xs)

theorem xmlOfAll_eq (bs : List (Branch (Nat × XmlBody))) : xmlOfAll bs = bs.map xmlOf := by
  induction bs with
  | nil => rfl
  | cons b bs ih => rw [xmlOfAll, ih, List.map_cons]

/-- Lists that are related entry by entry, one of them made from the other. -/
theorem forall₂_attach_map {α β : Type} {R : α → β → Prop} {l : List α}
    {f : {a // a ∈ l} → β} (h : ∀ a, R a.1 (f a)) : List.Forall₂ R l (l.attach.map f) := by
  have each : List.Forall₂ R (l.attach.map Subtype.val) (l.attach.map f) := by
    rw [List.forall₂_map_left_iff, List.forall₂_map_right_iff, List.forall₂_same]
    exact fun a _ => h a
  rwa [List.attach_map_subtype_val] at each

theorem children_eq (h : i < d.entries.size) : d.children i = d.entries[i].body.children := by
  rw [children, entry?, Array.getElem?_eq_getElem h]
  rfl

/-- All children of an element are others, unless it is its own parent. -/
theorem properChildren_eq (linked : d.Linked) {h : i < d.entries.size}
    (other : d.parent? i ≠ some i) : d.properChildren i h = d.entries[i].body.children := by
  refine List.filter_eq_self.2 fun c hc => decide_eq_true ?_
  have child : c ∈ d.children i := by rwa [children_eq h]
  have away : i ≠ c := by
    rintro rfl
    exact other (linked.parent_of_mem child)
  exact Nat.lt_of_le_of_ne (d.children_le i h c hc).1 away

theorem Shows.ofEntry {entry : XmlEntry} {bs : List (Branch (Nat × XmlBody))}
    (h : d.entry? i = some entry)
    (below : List.Forall₂ d.Shows entry.body.children (xmlOfAll bs)) :
    d.Shows i (xmlOf (.mk (i, entry.body) bs)) := by
  obtain ⟨parent, body⟩ := entry
  cases body with
  | comment => exact .comment h
  | element => exact .element h below

/-- A node that is not its own parent is shown with all that is below it. -/
theorem Linked.shows_branchAt (linked : d.Linked) {i : Nat} {h : i < d.entries.size}
    (other : d.parent? i ≠ some i) : d.Shows i (xmlOf (d.branchAt i h)) := by
  rw [branchAt]
  refine .ofEntry (Array.getElem?_eq_getElem h) ?_
  rw [← properChildren_eq linked other, xmlOfAll_eq, List.map_map]
  refine forall₂_attach_map fun ⟨c, hc⟩ => ?_
  have lt := mem_properChildren hc
  rw [properChildren_eq linked other] at hc
  have child : c ∈ d.children i := by rwa [children_eq h]
  -- children were made after their parent, so none of them is its own parent
  refine linked.shows_branchAt fun own => ?_
  rw [linked.parent_of_mem child] at own
  exact Nat.ne_of_lt lt.1 (Option.some.inj own)
termination_by d.entries.size - i
decreasing_by omega

/-- The nodes at the top are shown, in their order. -/
theorem Linked.shows_nodes (linked : d.Linked) : List.Forall₂ d.Shows d.top d.nodes := by
  rw [nodes, branches, xmlOfAll_eq, List.map_map]
  refine forall₂_attach_map fun ⟨i, hi⟩ => linked.shows_branchAt fun own => ?_
  rw [linked.parent_of_top i hi] at own
  cases own

/-- **What is part of a document is read back from its text**, however it is indented. -/
theorem read_print (built : d.Built) (readable : ∀ x ∈ d.nodes, x.Readable) :
    List.Forall₂ d.Shows d.top d.nodes ∧ ∀ style, Xml.read (d.print style) = some d.nodes :=
  ⟨built.linked.shows_nodes, fun style => Xml.read_document style readable⟩

/-! ## A resource with a button -/

/-- A resource with a button, and another object that was taken out again. -/
def buttonResource : XmlDocument :=
  (((((((empty.addRoot "resource").setAttribute 0 "version" "2.5.3.0").addChild 0
    "object").setAttribute 1 "class" "wxButton").addTextChild 1 "label" "OK & Cancel").addTextChild
    1 "tooltip" "").addChild 0 "object").removeChild 0 4

/-- What is part of the resource. -/
def buttonNodes : List Xml :=
  [.element "resource" [("version", "2.5.3.0")] none
    [.element "object" [("class", "wxButton")] none
      [.element "label" [] (some "OK & Cancel") [], .element "tooltip" [] (some "") []]]]

theorem buttonResource_read :
    List.Forall₂ buttonResource.Shows buttonResource.top buttonNodes ∧
      ∀ style, Xml.read (buttonResource.print style) = some buttonNodes := by
  have nodes : buttonResource.nodes = buttonNodes := by with_unfolding_all rfl
  have built : buttonResource.Built :=
    (((((((Built.empty.addRoot _).setAttribute _ _ _).addChild _ _).setAttribute _ _ _).addTextChild
      _ _ _).addTextChild _ _ _).addChild _ _).removeChild _ _
  have text {name : String} (named : Xml.isName name = true) (text : String) :
      (Xml.element name [] (some text) []).Readable :=
    .element named (List.forall_mem_nil _) (Or.inr rfl) (List.forall_mem_nil _)
  have readable : ∀ x ∈ buttonNodes, x.Readable := by
    refine List.forall_mem_singleton.2 (.element (by decide) (by decide) (Or.inl rfl) ?_)
    refine List.forall_mem_singleton.2 (.element (by decide) (by decide) (Or.inl rfl) ?_)
    exact List.forall_mem_cons.2
      ⟨text (by decide) _, List.forall_mem_singleton.2 (text (by decide) _)⟩
  have h := read_print built (nodes ▸ readable)
  rwa [nodes] at h

end XmlDocument

end FormDesign
