import FormDesign.Code.Form

/-!
# Members of a form

The member variables of the generated class, split by visibility and by platform, and the variables
of validators, which are always protected. What belongs to a context menu is local to its handler
and declares nothing.
-/

namespace FormDesign

/-- The lines that declare the members of a class. -/
structure MemberTable where
  exposed : Grouped String
  guarded : Grouped String
  warnings : List String

namespace MemberTable

def empty : MemberTable := { exposed := .empty, guarded := .empty, warnings := [] }

/-- Every line, public members first, each once. -/
def lines (t : MemberTable) : List String :=
  firsts (t.exposed.toList ++ t.guarded.toList)

end MemberTable

mutual

/-- The spots of a branch outside of context menus. -/
def spotsOutsideMenus (above : List Item) : Branch Item → List Spot
  | .mk i cs =>
    if i.isMenuBuilder then [] else { item := i, above } :: spotsOutsideMenusAll (i :: above) cs

/-- The spots of several branches outside of context menus. -/
def spotsOutsideMenusAll (above : List Item) : List (Branch Item) → List Spot
  | [] => []
  | b :: bs => spotsOutsideMenus above b ++ spotsOutsideMenusAll above bs

end

/-- Adds the variable of a node to the table, when it is a member of the class. -/
def MemberTable.addVariable (d : Dialect) (s : Spot) (t : MemberTable) : MemberTable :=
  let e := s.item.element
  let access := Access.of e
  if access.isMember && e.kind.hasClass then
    let resolved := resolveClass d e
    let t := { t with warnings := t.warnings ++ resolved.warning.toList }
    let declaration : MemberDeclaration :=
      { varName := s.item.name, classToken := resolved.token, byValue := resolved.byValue,
        comment := e.text .varComment, isPublic := access == .publicMember }
    match d.memberDeclaration declaration with
    | none => t
    | some line =>
      if access == .publicMember then { t with exposed := t.exposed.insert s.destination line }
      else { t with guarded := t.guarded.insert s.destination line }
  else t

/-- Adds the validator variable of a node to the table. -/
def MemberTable.addValidator (d : Dialect) (s : Spot) (t : MemberTable) : MemberTable :=
  match s.item.element.validator? >>= d.validatorDeclaration with
  | none => t
  | some line => { t with guarded := t.guarded.insert s.destination line }

/-- Adds what a node declares to the table. -/
def MemberTable.addSpot (d : Dialect) (t : MemberTable) (s : Spot) : MemberTable :=
  (t.addVariable d s).addValidator d s

/-- The members of the class generated for a form. -/
def Form.members (f : Form) (d : Dialect) : MemberTable :=
  (spotsOutsideMenusAll f.path f.children).foldl (MemberTable.addSpot d) .empty

end FormDesign
