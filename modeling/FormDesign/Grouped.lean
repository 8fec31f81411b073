import FormDesign.Text.Split

/-!
# Collections by platform

Declarations and events of a form are kept apart by the platform selector they fall under. Those
without a selector go to the common part. Selectors count as they are written, so two orders of the
same platforms are two groups; the groups are listed in the order of their selectors.

Sorted lists without repetition stand for sets here, and sorted pairs for maps.
-/

namespace FormDesign

/-! ## Sorted lists -/

namespace Sorted

/-- Adds a text to a sorted list, unless it is there. -/
def insert (s : String) : List String → List String
  | [] => [s]
  | t :: rest => if s < t then s :: t :: rest else if s = t then t :: rest else t :: insert s rest

/-- The texts in order, each once. -/
def ofList (texts : List String) : List String :=
  texts.foldl (fun sorted s => insert s sorted) []

/-- Changes the entry of a key in a sorted list of pairs. A missing entry starts as `none`. -/
def alter {α : Type} (key : String) (f : Option α → α) : List (String × α) → List (String × α)
  | [] => [(key, f none)]
  | (k, a) :: rest =>
    if key < k then (key, f none) :: (k, a) :: rest
    else if key = k then (k, f (some a)) :: rest
    else (k, a) :: alter key f rest

/-- Sets the entry of a key. -/
def put {α : Type} (key : String) (a : α) (pairs : List (String × α)) : List (String × α) :=
  alter key (fun _ => a) pairs

/-- The entry of a key. -/
def get? {α : Type} (key : String) (pairs : List (String × α)) : Option α :=
  (pairs.find? fun (k, _) => k == key).map Prod.snd

end Sorted

/-- The texts without repetition, each where it came first. -/
def firsts : List String → List String :=
  go []
where
  /-- The texts that are neither in `seen` nor repeated. -/
  go (seen : List String) : List String → List String
    | [] => []
    | s :: rest => if seen.contains s then go seen rest else s :: go (s :: seen) rest

/-! ## Groups -/

/-- A collection in a common part and one part for each selector. -/
structure Grouped (α : Type) where
  common : List α
  /-- The parts by selector, in the order of the selectors. -/
  bySelector : List (String × List α)

namespace Grouped

variable {α β : Type}

def empty : Grouped α := { common := [], bySelector := [] }

/-- Changes the part for a destination, which starts out empty. -/
def alter (g : Grouped α) (destination : Option String) (f : List α → List α) : Grouped α :=
  match destination with
  | none => { g with common := f g.common }
  | some selector =>
    { g with bySelector := Sorted.alter selector (fun part => f (part.getD [])) g.bySelector }

/-- Adds an item at the end of the part for its destination. -/
def add (g : Grouped α) (destination : Option String) (a : α) : Grouped α :=
  g.alter destination (· ++ [a])

/-- Adds a text to the part for its destination, which is kept sorted and without repetition. -/
def insert (g : Grouped String) (destination : Option String) (s : String) : Grouped String :=
  g.alter destination (Sorted.insert s)

/-- The part for a selector, if there is one. -/
def part? (g : Grouped α) (selector : String) : Option (List α) :=
  Sorted.get? selector g.bySelector

/-- The part for a destination. -/
def part (g : Grouped α) : Option String → List α
  | none => g.common
  | some selector => (g.part? selector).getD []

/-- The items of both, part by part. -/
def merge (g h : Grouped α) : Grouped α :=
  h.bySelector.foldl (fun acc (selector, items) => acc.alter (some selector) (· ++ items))
    { g with common := g.common ++ h.common }

/-- Changes every part. -/
def mapParts (g : Grouped α) (f : List α → List β) : Grouped β :=
  { common := f g.common
    bySelector := g.bySelector.map fun (selector, items) => (selector, f items) }

/-- Every item, those of the common part first. -/
def toList (g : Grouped α) : List α :=
  g.common ++ g.bySelector.flatMap Prod.snd

end Grouped

end FormDesign
