import FormDesign.Resource.Document

/-!
# What the resource reads above a form

The object of a node depends on what stands above it in two ways only: the node may stand directly
in a sizer, and a page belongs to the nearest book. So a form has the same objects wherever it
stands, as long as neither is above it.

* `Overhead`: elements above a node that make no difference
* `grow_congr`: the object of a design
* `ResourceDocument.addition_congr`: what is added to a document
-/

namespace FormDesign

/-- The elements above a node agree in what the object of the node depends on. -/
structure Overhead (xs ys : List Element) : Prop where
  sizer : (xs.head?.any fun e => e.kind.isSizer) = ys.head?.any fun e => e.kind.isSizer
  book : (xs.find? fun e => e.kind.isBook) = ys.find? fun e => e.kind.isBook

namespace Overhead

variable {xs ys : List Element}

/-- Below the node itself they agree as well. -/
theorem cons (h : Overhead xs ys) (e : Element) : Overhead (e :: xs) (e :: ys) where
  sizer := rfl
  book := by
    rw [List.find?_cons, List.find?_cons, h.book]

/-- Elements that are neither sizers nor books make no difference. -/
theorem of_plain (hxs : ∀ e ∈ xs, e.kind.isSizer = false ∧ e.kind.isBook = false)
    (hys : ∀ e ∈ ys, e.kind.isSizer = false ∧ e.kind.isBook = false) : Overhead xs ys where
  sizer := by
    have head {es : List Element} (h : ∀ e ∈ es, e.kind.isSizer = false ∧ e.kind.isBook = false) :
        (es.head?.any fun e => e.kind.isSizer) = false := by
      cases es with
      | nil => rfl
      | cons e es => exact (h e List.mem_cons_self).1
    rw [head hxs, head hys]
  book := by
    have found {es : List Element} (h : ∀ e ∈ es, e.kind.isSizer = false ∧ e.kind.isBook = false) :
        (es.find? fun e => e.kind.isBook) = none :=
      List.find?_eq_none.2 fun e he => by simp [(h e he).2]
    rw [found hxs, found hys]

theorem resourceShape (h : Overhead xs ys) (e : Element) (comments : Bool) :
    e.resourceShape comments xs = e.resourceShape comments ys := by
  simp only [Element.resourceShape, Element.shape, h.sizer, h.book]

theorem around (h : Overhead xs ys) (comments : Bool) (trail : Trail) (depth : Nat) (e : Element)
    (leafless : Bool) (grove : Bool → Trail → Grove) :
    Growth.around comments xs trail depth e leafless grove
      = Growth.around comments ys trail depth e leafless grove := by
  simp only [Growth.around, h.resourceShape, h.book]

end Overhead

mutual

theorem growChild_congr {xs ys : List Element} (h : Overhead xs ys) (comments : Bool)
    (parent : Element) (flatten : Bool) (trail : Trail) (b : Design) :
    growChild comments parent flatten xs trail b
      = growChild comments parent flatten ys trail b := by
  cases b with
  | mk e cs =>
    -- the node stands above its own children in both places
    have hbelow (flatten : Bool) (inner : Trail) :
        growAll comments e flatten (e :: xs) inner cs
          = growAll comments e flatten (e :: ys) inner cs :=
      growAll_congr (h.cons e) comments e flatten inner cs
    simp only [growChild, hbelow, h.around]

theorem growAll_congr {xs ys : List Element} (h : Overhead xs ys) (comments : Bool)
    (parent : Element) (flatten : Bool) (trail : Trail) (bs : List Design) :
    growAll comments parent flatten xs trail bs = growAll comments parent flatten ys trail bs := by
  cases bs with
  | nil => rw [growAll, growAll]
  | cons b bs =>
    rw [growAll, growAll, growChild_congr h comments parent flatten trail b,
      growAll_congr h comments parent flatten trail bs]

end

/-- The object of a design is the same. -/
theorem grow_congr {xs ys : List Element} (h : Overhead xs ys) (comments : Bool) (b : Design) :
    grow comments xs b = grow comments ys b := by
  have hbelow (flatten : Bool) (inner : Trail) :
      growAll comments b.label flatten (b.label :: xs) inner b.children
        = growAll comments b.label flatten (b.label :: ys) inner b.children :=
    growAll_congr (h.cons b.label) comments b.label flatten inner b.children
  simp only [grow, hbelow, h.around]

/-- What is added to a document is the same. -/
theorem ResourceDocument.addition_congr {xs ys : List Element} (h : Overhead xs ys)
    (comments previewing : Bool) (b : Design) :
    addition comments previewing xs b = addition comments previewing ys b := by
  have hself := grow_congr h comments b
  have hchild (child : Design) := grow_congr (h.cons b.label) comments child
  simp only [addition, hself, hchild]

end FormDesign
