/-!
# Image needs

Which helpers for images a generated file has to define.
-/

namespace FormDesign

structure ImageNeeds where
  /-- Pictures from a generated header. -/
  header : Bool
  svg : Bool
  animation : Bool
  /-- Pictures of the toolkit's own stock. -/
  art : Bool
  /-- Embedded bitmaps. -/
  image : Bool
  deriving DecidableEq

namespace ImageNeeds

def none : ImageNeeds :=
  { header := false, svg := false, animation := false, art := false, image := false }

/-- Whether anything is needed. -/
def any (n : ImageNeeds) : Bool :=
  n.header || n.svg || n.animation || n.art || n.image

/-- What either of two parts needs. -/
def merge (a b : ImageNeeds) : ImageNeeds :=
  { header := a.header || b.header
    svg := a.svg || b.svg
    animation := a.animation || b.animation
    art := a.art || b.art
    image := a.image || b.image }

end ImageNeeds

end FormDesign
