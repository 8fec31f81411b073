import FormDesign.Proofs.Resource.Shapes

/-!
# Texts in a resource

What a resource says of a property is the text of an element. Properties that are empty have none.

* `Xml.textOf?`: the text of the first element with a name
* `Element.getD_textTag`, `Element.beq_flagTag`: properties are read off their elements
-/

namespace FormDesign

namespace Xml

/-- The text of an element before its children. -/
def text? : Xml → Option String
  | .element _ _ text _ => text
  | .comment _ => none

/-- The text of the first element with a name. -/
def textOf? (name : String) (xs : List Xml) : Option String :=
  xs.findSome? fun x => if x.name? = some name then x.text? else none

variable {name : String}

@[simp] theorem textOf?_nil : textOf? name [] = none :=
  rfl

@[simp] theorem textOf?_append (xs ys : List Xml) :
    textOf? name (xs ++ ys) = (textOf? name xs).or (textOf? name ys) :=
  List.findSome?_append

@[simp] theorem textOf?_leaf (tag text : String) (xs : List Xml) :
    textOf? name (.leaf tag text :: xs) = if tag = name then some text else textOf? name xs := by
  by_cases h : tag = name <;> simp [textOf?, leaf, name?, text?, h]

@[simp] theorem textOf?_ite (p : Prop) [Decidable p] (xs ys : List Xml) :
    textOf? name (if p then xs else ys) = if p then textOf? name xs else textOf? name ys :=
  apply_ite _ _ _ _

theorem textOf?_eq_none {xs : List Xml} (h : ∀ x ∈ xs, x.name? ≠ some name) :
    textOf? name xs = none :=
  List.findSome?_eq_none_iff.2 fun x hx => if_neg (h x hx)

end Xml

namespace Element

open Xml (textOf?)

variable (e : Element) {name tag : String}

@[simp] theorem textOf?_textTag (p : Property) :
    textOf? name (e.textTag p tag)
      = if tag = name ∧ e.hasValue p then some (e.text p) else none := by
  by_cases h : e.hasValue p = true <;> simp [textTag, h]

@[simp] theorem textOf?_flagTag (p : Property) :
    textOf? name (e.flagTag p tag) = if tag = name ∧ e.flag p then some "1" else none := by
  by_cases h : e.flag p = true <;> simp [flagTag, h]

theorem textOf?_pairTag (h : tag ≠ name) (p : Property) :
    textOf? name (e.pairTag p tag) = none := by
  unfold pairTag
  split <;> simp [h]

theorem name?_of_mem_bitmapTag {comments : Bool} {p : Property} {x : Xml}
    (hx : x ∈ e.bitmapTag comments p tag) : x.name? = none ∨ x.name? = some tag := by
  unfold bitmapTag at hx
  split at hx
  · cases hx
  · split at hx
    · next d _ =>
      rw [List.mem_singleton.1 hx]
      right
      unfold imageTag
      cases d.kind <;> rfl
    · split at hx
      · rw [List.mem_singleton.1 hx]
        exact Or.inl rfl
      · cases hx

theorem textOf?_bitmapTag (h : tag ≠ name) (comments : Bool) (p : Property) :
    textOf? name (e.bitmapTag comments p tag) = none := by
  refine Xml.textOf?_eq_none fun x hx => ?_
  rcases e.name?_of_mem_bitmapTag hx with hname | hname
  · rw [hname]
    exact nofun
  · rw [hname]
    exact fun heq => h (Option.some.inj heq)

theorem text_of_not_hasValue {e : Element} {p : Property} (h : ¬e.hasValue p = true) :
    e.text p = "" := by
  unfold hasValue at h
  unfold text
  cases hp : e.prop? p <;> simp_all

theorem getD_textTag (p : Property) (tag : String) :
    (textOf? tag (e.textTag p tag)).getD "" = e.text p := by
  rw [textOf?_textTag]
  by_cases h : e.hasValue p = true
  · rw [if_pos ⟨rfl, h⟩]
    rfl
  · rw [if_neg fun hp => h hp.2, text_of_not_hasValue h]
    rfl

theorem beq_flagTag (p : Property) (tag : String) :
    (textOf? tag (e.flagTag p tag) == some "1") = e.flag p := by
  rw [textOf?_flagTag]
  cases e.flag p <;> simp

end Element

end FormDesign
