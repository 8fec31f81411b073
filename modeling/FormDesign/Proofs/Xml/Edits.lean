import FormDesign.Proofs.Xml.Document

/-!
# Edits of a document

A document that is edited through the numbers it gave out. Nodes that were taken out keep their
numbers, and edits may go on below them. Whatever the edits are, parents are older than their
children, also those outside of the document, and no element has two attributes of one name.

* `XmlEdit`, `XmlDocument.run`: the edits, and what they make of a document
* `XmlDocument.Arranged`: what every edit keeps
* `XmlDocument.Arranged.run`: it is kept by a whole run of edits
-/

namespace FormDesign

/-! ## Attributes -/

namespace XmlBody

def attributes : XmlBody → List (String × String)
  | .element _ attributes _ _ => attributes
  | .comment _ => []

/-- The attributes, each name at most once. -/
def AttributesOnce (b : XmlBody) : Prop :=
  (b.attributes.map Prod.fst).Nodup

/-- Setting an attribute adds its name at the end, unless it is there. -/
theorem map_fst_putAttribute (name value : String) (attributes : List (String × String)) :
    (putAttribute name value attributes).map Prod.fst
      = if name ∈ attributes.map Prod.fst then attributes.map Prod.fst
        else attributes.map Prod.fst ++ [name] := by
  induction attributes with
  | nil => rfl
  | cons pair rest ih =>
    obtain ⟨k, v⟩ := pair
    unfold putAttribute
    by_cases heq : k = name
    · simp [heq]
    · rw [if_neg heq, List.map_cons, ih]
      by_cases hm : name ∈ rest.map Prod.fst
      · simp [hm]
      · simp [hm, Ne.symm heq]

theorem AttributesOnce.setAttribute {b : XmlBody} (h : b.AttributesOnce) (name value : String) :
    (b.setAttribute name value).AttributesOnce := by
  cases b with
  | comment => exact h
  | element _ attributes _ _ =>
    show ((putAttribute name value attributes).map Prod.fst).Nodup
    rw [map_fst_putAttribute]
    split
    · exact h
    · next new =>
      refine List.nodup_append.2 ⟨h, List.nodup_singleton name, fun k hk other hother => ?_⟩
      rw [List.mem_singleton.1 hother]
      rintro rfl
      exact new hk

theorem attributes_setText (value : String) (b : XmlBody) :
    (b.setText value).attributes = b.attributes := by
  cases b <;> rfl

theorem attributes_mapChildren (f : List Nat → List Nat) (b : XmlBody) :
    (b.mapChildren f).attributes = b.attributes := by
  cases b <;> rfl

end XmlBody

/-! ## Edits -/

/-- An edit of a document. -/
inductive XmlEdit
  | addRoot (name : String)
  | addRootComment (text : String)
  | addChild (parent : Nat) (name : String)
  | addTextChild (parent : Nat) (name text : String)
  | addComment (parent : Nat) (text : String)
  | takeChild (parent child : Nat)
  | setAttribute (i : Nat) (name value : String)
  | setText (i : Nat) (value : String)

/-- The numbers that an edit is given. -/
def XmlEdit.given : XmlEdit → List Nat
  | .addRoot _ | .addRootComment _ => []
  | .addChild parent _ | .addTextChild parent _ _ | .addComment parent _ => [parent]
  | .takeChild parent child => [parent, child]
  | .setAttribute i _ _ | .setText i _ => [i]

namespace XmlDocument

def edit (d : XmlDocument) : XmlEdit → XmlDocument
  | .addRoot name => d.addRoot name
  | .addRootComment text => d.addRootComment text
  | .addChild parent name => d.addChild parent name
  | .addTextChild parent name text => d.addTextChild parent name text
  | .addComment parent text => d.addComment parent text
  | .takeChild parent child => (d.takeChild parent child).2
  | .setAttribute i name value => d.setAttribute i name value
  | .setText i value => d.setText i value

/-- The document after some edits, one after the other. -/
def run (d : XmlDocument) (edits : List XmlEdit) : XmlDocument :=
  edits.foldl edit d

/-- Every edit is given numbers that the document gave out before. -/
def Knows (d : XmlDocument) : List XmlEdit → Prop
  | [] => True
  | e :: edits => (∀ i ∈ e.given, i < d.size) ∧ (d.edit e).Knows edits

instance decidableKnows (d : XmlDocument) : (edits : List XmlEdit) → Decidable (d.Knows edits)
  | [] => inferInstanceAs (Decidable True)
  | e :: edits =>
    @instDecidableAnd _ _ (List.decidableBAll (fun i => i < d.size) e.given)
      (decidableKnows (d.edit e) edits)

variable {d : XmlDocument} {body : XmlBody} {i c : Nat}

/-! ## What every edit keeps -/

/-- Links fit, parents are older, the nodes at the top are apart, and so are the names of
attributes. -/
structure Arranged (d : XmlDocument) : Prop where
  linked : d.Linked
  parent_lt : ∀ {i p}, d.parent? i = some p → p < i
  top_nodup : d.top.Nodup
  attributes_once : ∀ {i e}, d.entry? i = some e → e.body.AttributesOnce

theorem pushed?_cases {entry e : XmlEntry} (h : d.pushed? entry i = some e) :
    e = entry ∨ d.entry? i = some e := by
  unfold pushed? at h
  split at h
  · exact Or.inl (Option.some.inj h).symm
  · exact Or.inr h

theorem Arranged.pushTop (h : d.Arranged) (hb : body.children = []) (once : body.AttributesOnce) :
    (d.pushTop body hb).Arranged where
  linked := h.linked.pushTop hb
  parent_lt hp := by
    rw [parent?_pushTop] at hp
    exact h.parent_lt hp
  top_nodup := List.nodup_append.2 ⟨h.top_nodup, List.nodup_singleton _, fun i hi j hj => by
    rw [List.mem_singleton.1 hj]
    exact Nat.ne_of_lt (d.top_lt i hi)⟩
  attributes_once he := by
    rw [entry?_pushTop] at he
    rcases pushed?_cases he with rfl | old
    · exact once
    · exact h.attributes_once old

/-- A parent that the document knows is older than its new child. -/
theorem Arranged.pushChild (h : d.Arranged) {parent : Nat} (known : parent < d.size)
    (hb : body.children = []) (once : body.AttributesOnce) :
    (d.pushChild parent body hb).Arranged where
  linked := h.linked.pushChild parent hb
  parent_lt hp := by
    rw [parent?_pushChild] at hp
    split at hp
    · next heq =>
      rw [heq, ← Option.some.inj hp]
      exact known
    · exact h.parent_lt hp
  top_nodup := h.top_nodup
  attributes_once {i e} he := by
    have pushed {e : XmlEntry} (hpush : d.pushed? { parent := some parent, body } i = some e) :
        e.body.AttributesOnce := by
      rcases pushed?_cases hpush with rfl | old
      · exact once
      · exact h.attributes_once old
    rw [entry?_pushChild] at he
    split at he
    · obtain ⟨e, hpush, rfl⟩ := Option.map_eq_some_iff.1 he
      unfold XmlBody.AttributesOnce
      rw [withChild, XmlBody.attributes_mapChildren]
      exact pushed hpush
    · exact pushed he

/-- A change that keeps parents and children, and names of attributes apart. -/
theorem Arranged.modify (h : d.Arranged) {f : XmlEntry → XmlEntry}
    {hf : ∀ e, ∀ c ∈ (f e).body.children, c ∈ e.body.children}
    (children : ∀ e, (f e).body.children = e.body.children) (parent : ∀ e, (f e).parent = e.parent)
    (once : ∀ e, e.body.AttributesOnce → (f e).body.AttributesOnce) :
    (d.modify i f hf).Arranged where
  linked := h.linked.modify children parent
  parent_lt hp := by
    rw [parent?_modify (g := id) rfl parent, id, ite_self] at hp
    exact h.parent_lt hp
  top_nodup := h.top_nodup
  attributes_once he := by
    rw [entry?_modify] at he
    split at he
    · obtain ⟨old, hold, rfl⟩ := Option.map_eq_some_iff.1 he
      exact once old (h.attributes_once hold)
    · exact h.attributes_once he

/-- When a child is taken out, its parent is without it, and it is without a parent. -/
theorem entry?_removeChild {parent child : Nat} (member : child ∈ d.children parent) (j : Nat) :
    entry? (d.removeChild parent child) j = (d.entry? j).map fun e =>
      { parent := if child = j then none else e.parent
        body := if parent = j then e.body.mapChildren (·.erase child) else e.body } := by
  unfold removeChild
  rw [if_pos (List.contains_iff_mem.2 member), entry?_modify, entry?_modify]
  split_ifs
  · rw [Option.map_map]
    rfl
  · rfl
  · rfl
  · exact Option.map_id'.symm

theorem removeChild_of_not_mem {parent child : Nat} (other : child ∉ d.children parent) :
    d.removeChild parent child = d :=
  if_neg fun contained => other (List.contains_iff_mem.1 contained)

theorem Arranged.removeChild (h : d.Arranged) (parent child : Nat) :
    (d.removeChild parent child).Arranged := by
  by_cases member : child ∈ d.children parent
  · refine ⟨h.linked.removeChild parent child, fun hp => ?_, ?_, fun he => ?_⟩
    · rw [parent?_removeChild member] at hp
      split at hp
      · cases hp
      · exact h.parent_lt hp
    · rw [top_removeChild]
      exact h.top_nodup
    · rw [entry?_removeChild member] at he
      obtain ⟨old, hold, rfl⟩ := Option.map_eq_some_iff.1 he
      have once := h.attributes_once hold
      unfold XmlBody.AttributesOnce at once ⊢
      dsimp only
      split
      · rwa [XmlBody.attributes_mapChildren]
      · exact once
  · rwa [removeChild_of_not_mem member]

theorem arranged_empty : empty.Arranged where
  linked := linked_empty
  parent_lt hp := by cases hp
  top_nodup := List.nodup_nil
  attributes_once he := by cases he

/-- Every edit through known numbers keeps a document arranged. -/
theorem Arranged.edit (h : d.Arranged) {e : XmlEdit} (known : ∀ i ∈ e.given, i < d.size) :
    (d.edit e).Arranged := by
  cases e with
  | addRoot => exact h.pushTop rfl List.nodup_nil
  | addRootComment => exact h.pushTop rfl List.nodup_nil
  | addChild parent => exact h.pushChild (known parent List.mem_cons_self) rfl List.nodup_nil
  | addTextChild parent => exact h.pushChild (known parent List.mem_cons_self) rfl List.nodup_nil
  | addComment parent => exact h.pushChild (known parent List.mem_cons_self) rfl List.nodup_nil
  | takeChild parent child => exact h.removeChild parent child
  | setAttribute i name value =>
    show (d.setAttribute i name value).Arranged
    exact h.modify (fun e => e.body.children_setAttribute name value) (fun _ => rfl)
      fun _ once => once.setAttribute name value
  | setText i value =>
    show (d.setText i value).Arranged
    refine h.modify (fun e => e.body.children_setText value) (fun _ => rfl) fun e once => ?_
    unfold XmlBody.AttributesOnce
    rwa [XmlBody.attributes_setText]

/-- So does a whole run of them. -/
theorem Arranged.run (h : d.Arranged) {edits : List XmlEdit} (known : d.Knows edits) :
    (d.run edits).Arranged := by
  induction edits generalizing d with
  | nil => exact h
  | cons e edits ih => exact ih (h.edit known.1) known.2

end XmlDocument

end FormDesign
