import FormDesign.Tree.Branch
import FormDesign.Xml.Print

/-!
# Documents under construction

An XML document that is built step by step. Its nodes are numbered as they are made and keep their
numbers when they are taken out of the document again. A node is made as the last child of its
parent and never moves, so children have greater numbers than their parents. The one exception is an
element that was asked for as a child of the number it gets: it is its own child, and no part of the
document.
-/

namespace FormDesign

/-- What a node of a document is. -/
inductive XmlBody
  | element (name : String) (attributes : List (String × String)) (text : Option String)
      (children : List Nat)
  | comment (text : String)
  deriving DecidableEq

/-- A node of a document. The number of its parent may be one that the document lacks. -/
structure XmlEntry where
  parent : Option Nat
  body : XmlBody
  deriving DecidableEq

namespace XmlBody

def children : XmlBody → List Nat
  | .element _ _ _ cs => cs
  | .comment _ => []

/-- Changes the children of an element. -/
def mapChildren (f : List Nat → List Nat) : XmlBody → XmlBody
  | .element name attributes text cs => .element name attributes text (f cs)
  | .comment text => .comment text

/-- The attributes after one was set: in its old place, or at the end when new. -/
def putAttribute (name value : String) : List (String × String) → List (String × String)
  | [] => [(name, value)]
  | (k, v) :: rest =>
    if k = name then (name, value) :: rest else (k, v) :: putAttribute name value rest

/-- Sets an attribute of an element. -/
def setAttribute (name value : String) : XmlBody → XmlBody
  | .element n attributes text cs => .element n (putAttribute name value attributes) text cs
  | .comment text => .comment text

/-- Sets the text of an element. -/
def setText (value : String) : XmlBody → XmlBody
  | .element name attributes _ cs => .element name attributes (some value) cs
  | .comment text => .comment text

theorem children_setAttribute (name value : String) (b : XmlBody) :
    (b.setAttribute name value).children = b.children := by
  cases b <;> rfl

theorem children_setText (value : String) (b : XmlBody) :
    (b.setText value).children = b.children := by
  cases b <;> rfl

end XmlBody

/-- A document: its nodes by number, and the numbers of those at the top. -/
structure XmlDocument where
  entries : Array XmlEntry
  top : List Nat
  top_lt : ∀ i ∈ top, i < entries.size
  children_le : ∀ i (h : i < entries.size), ∀ c ∈ entries[i].body.children, i ≤ c ∧ c < entries.size

namespace XmlDocument

def empty : XmlDocument where
  entries := #[]
  top := []
  top_lt := by simp
  children_le := by simp

def size (d : XmlDocument) : Nat := d.entries.size

def entry? (d : XmlDocument) (i : Nat) : Option XmlEntry := d.entries[i]?

/-! ## Making nodes -/

/-- A body without children. -/
def elementBody (name : String) : XmlBody := .element name [] none []

theorem top_lt_push (d : XmlDocument) (entry : XmlEntry) :
    ∀ i ∈ d.top ++ [d.size], i < (d.entries.push entry).size := by
  intro i hi
  simp only [List.mem_append, List.mem_singleton] at hi
  simp only [Array.size_push]
  rcases hi with hi | rfl
  · have := d.top_lt i hi
    omega
  · simp [size]

theorem children_le_push (d : XmlDocument) (entry : XmlEntry) (hb : entry.body.children = []) :
    ∀ i (h : i < (d.entries.push entry).size), ∀ c ∈ (d.entries.push entry)[i].body.children,
      i ≤ c ∧ c < (d.entries.push entry).size := by
  intro i h c hc
  simp only [Array.size_push] at h ⊢
  rw [Array.getElem_push] at hc
  split at hc
  · rename_i hi
    have := d.children_le i hi c hc
    omega
  · simp [hb] at hc

/-- Makes a node and puts it at the top. -/
def pushTop (d : XmlDocument) (body : XmlBody) (hb : body.children = []) : XmlDocument where
  entries := d.entries.push { parent := none, body }
  top := d.top ++ [d.size]
  top_lt := d.top_lt_push { parent := none, body }
  children_le := d.children_le_push { parent := none, body } hb

/-- An entry with one more child, the last. -/
def withChild (child : Nat) (e : XmlEntry) : XmlEntry :=
  { e with body := e.body.mapChildren (· ++ [child]) }

theorem mem_children_withChild {child c : Nat} {e : XmlEntry}
    (h : c ∈ (withChild child e).body.children) : c ∈ e.body.children ∨ c = child := by
  revert h
  simp only [withChild]
  cases e.body with
  | comment text => simp [XmlBody.mapChildren, XmlBody.children]
  | element name attributes text cs => simp [XmlBody.mapChildren, XmlBody.children]

/-- Makes a node as the last child of `parent`. It stays outside of the document when `parent` is no
element of it. -/
def pushChild (d : XmlDocument) (parent : Nat) (body : XmlBody) (hb : body.children = []) :
    XmlDocument where
  entries := (d.entries.push { parent := some parent, body }).modify parent (withChild d.size)
  top := d.top
  top_lt := by
    intro i hi
    have := d.top_lt i hi
    simp only [Array.size_push, Array.size_modify]
    omega
  children_le := by
    intro i h c hc
    simp only [Array.size_push, Array.size_modify] at h ⊢
    have hi : i < (d.entries.push { parent := some parent, body }).size := by simpa using h
    have old : ∀ c ∈ (d.entries.push { parent := some parent, body })[i].body.children,
        i ≤ c ∧ c < d.entries.size + 1 := by
      intro c hc
      rw [Array.getElem_push] at hc
      split at hc
      · rename_i hi
        have := d.children_le i hi c hc
        omega
      · simp [hb] at hc
    rw [Array.getElem_modify] at hc
    split at hc
    · rcases mem_children_withChild hc with hc | rfl
      · exact old c hc
      · simp only [size]
        omega
    · exact old c hc

/-- Makes an element at the top. -/
def addRoot (d : XmlDocument) (name : String) : XmlDocument :=
  d.pushTop (elementBody name) rfl

/-- Makes a comment at the top. -/
def addRootComment (d : XmlDocument) (text : String) : XmlDocument :=
  d.pushTop (.comment text) rfl

/-- Makes an element as the last child of `parent`. -/
def addChild (d : XmlDocument) (parent : Nat) (name : String) : XmlDocument :=
  d.pushChild parent (elementBody name) rfl

/-- Makes an element that holds a text as the last child of `parent`. -/
def addTextChild (d : XmlDocument) (parent : Nat) (name text : String) : XmlDocument :=
  d.pushChild parent (.element name [] (some text) []) rfl

/-- Makes a comment as the last child of `parent`. -/
def addComment (d : XmlDocument) (parent : Nat) (text : String) : XmlDocument :=
  d.pushChild parent (.comment text) rfl

/-! ## Changing nodes -/

/-- Changes an entry without giving it other children than some of those it has. -/
def modify (d : XmlDocument) (i : Nat) (f : XmlEntry → XmlEntry)
    (hf : ∀ e, ∀ c ∈ (f e).body.children, c ∈ e.body.children) : XmlDocument where
  entries := d.entries.modify i f
  top := d.top
  top_lt := by
    intro j hj
    simpa using d.top_lt j hj
  children_le := by
    intro j h c hc
    simp only [Array.size_modify] at h ⊢
    rw [Array.getElem_modify] at hc
    split at hc
    · exact d.children_le j h c (hf _ c hc)
    · exact d.children_le j h c hc

/-- Sets an attribute of an element. Anything else is left alone. -/
def setAttribute (d : XmlDocument) (i : Nat) (name value : String) : XmlDocument :=
  d.modify i (fun e => { e with body := e.body.setAttribute name value }) (by
    intro e c hc
    simpa [XmlBody.children_setAttribute] using hc)

/-- Sets the text of an element. Anything else is left alone. -/
def setText (d : XmlDocument) (i : Nat) (value : String) : XmlDocument :=
  d.modify i (fun e => { e with body := e.body.setText value }) (by
    intro e c hc
    simpa [XmlBody.children_setText] using hc)

/-- The numbers of the children of an element. -/
def children (d : XmlDocument) (i : Nat) : List Nat :=
  (d.entry? i).elim [] fun e => e.body.children

/-- Takes a child out of the document. Nothing happens unless it is a child of `parent`. -/
def removeChild (d : XmlDocument) (parent child : Nat) : XmlDocument :=
  if (d.children parent).contains child then
    (d.modify parent (fun e => { e with body := e.body.mapChildren (·.erase child) }) (by
      intro e c hc
      cases hb : e.body with
      | comment text => simp [hb, XmlBody.mapChildren, XmlBody.children] at hc
      | element name attributes text cs =>
        simp only [hb, XmlBody.mapChildren, XmlBody.children] at hc ⊢
        exact List.mem_of_mem_erase hc)).modify child (fun e => { e with parent := none })
      (fun _ _ hc => hc)
  else d

/-- Takes a child out of the document, and tells whether it was a child of `parent`. -/
def takeChild (d : XmlDocument) (parent child : Nat) : Bool × XmlDocument :=
  ((d.children parent).contains child, d.removeChild parent child)

/-! ## Looking at nodes -/

/-- The name of an element. -/
def name? (d : XmlDocument) (i : Nat) : Option String :=
  match (d.entry? i).map XmlEntry.body with
  | some (.element name ..) => some name
  | _ => none

/-- The text of an element. -/
def text? (d : XmlDocument) (i : Nat) : Option String :=
  match (d.entry? i).map XmlEntry.body with
  | some (.element _ _ text _) => text
  | _ => none

/-- The text of a comment. -/
def comment? (d : XmlDocument) (i : Nat) : Option String :=
  match (d.entry? i).map XmlEntry.body with
  | some (.comment text) => some text
  | _ => none

/-- The value of an attribute of an element. -/
def attribute? (d : XmlDocument) (i : Nat) (name : String) : Option String :=
  match (d.entry? i).map XmlEntry.body with
  | some (.element _ attributes _ _) => (attributes.find? fun (k, _) => k == name).map Prod.snd
  | _ => none

def parent? (d : XmlDocument) (i : Nat) : Option Nat :=
  d.entry? i >>= XmlEntry.parent

/-- The first element at the top. -/
def root? (d : XmlDocument) : Option Nat :=
  d.top.find? fun i => (d.name? i).isSome

/-- The first child element with the given name. -/
def firstNamed? (d : XmlDocument) (i : Nat) (name : String) : Option Nat :=
  (d.children i).find? fun c => d.name? c == some name

/-- The text of the first child element with the given name. -/
def childText? (d : XmlDocument) (i : Nat) (name : String) : Option String :=
  d.firstNamed? i name >>= d.text?

/-! ## The document as a tree -/

/-- The children of an element other than itself. -/
def properChildren (d : XmlDocument) (i : Nat) (h : i < d.entries.size) : List Nat :=
  d.entries[i].body.children.filter fun c => i < c

theorem mem_properChildren {d : XmlDocument} {i c : Nat} {h : i < d.entries.size}
    (hc : c ∈ d.properChildren i h) : i < c ∧ c < d.entries.size := by
  simp only [properChildren, List.mem_filter, decide_eq_true_eq] at hc
  exact ⟨hc.2, (d.children_le i h c hc.1).2⟩

/-- The node with the given number and what is below it. -/
def branchAt (d : XmlDocument) (i : Nat) (h : i < d.entries.size) : Branch (Nat × XmlBody) :=
  .mk (i, d.entries[i].body) <| (d.properChildren i h).attach.map fun ⟨c, hc⟩ =>
    have lt := mem_properChildren hc
    d.branchAt c lt.2
termination_by d.entries.size - i

/-- The nodes at the top and what is below them. -/
def branches (d : XmlDocument) : List (Branch (Nat × XmlBody)) :=
  d.top.attach.map fun ⟨i, hi⟩ => d.branchAt i (d.top_lt i hi)

/-- The numbers of the elements with the given name that are part of the document, in its order. -/
def findAll (d : XmlDocument) (name : String) : List Nat :=
  ((Branch.visit d.branches).filter fun (i, _) => d.name? i == some name).map Prod.fst

mutual

/-- A branch of a document as XML. -/
def xmlOf : Branch (Nat × XmlBody) → Xml
  | .mk (_, .comment text) _ => .comment text
  | .mk (_, .element name attributes text _) cs => .element name attributes text (xmlOfAll cs)

/-- Branches of a document as XML. -/
def xmlOfAll : List (Branch (Nat × XmlBody)) → List Xml
  | [] => []
  | b :: bs => xmlOf b :: xmlOfAll bs

end

/-- What is part of the document. -/
def nodes (d : XmlDocument) : List Xml :=
  xmlOfAll d.branches

/-- The text of the document. -/
def print (d : XmlDocument) (style : Indentation) : String :=
  Xml.document style d.nodes

end XmlDocument

end FormDesign
