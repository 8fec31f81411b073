import FormDesign.Code.Ids
import FormDesign.Code.Members
import FormDesign.Dialect.Frame

/-!
# The C++ header

The header declares the class: its identifiers, its constructors, its handlers and its members.
-/

namespace FormDesign.Dialect

/-- Lines that are confined to platforms part by part. -/
def groupedLines (g : Grouped String) : List Edit :=
  Edit.lines g.common
    ++ g.bySelector.flatMap fun (selector, lines) =>
      Dialect.onPlatform .cpp selector (Edit.lines lines)

/-- The constructors of a class, and the method that creates what is in the form. -/
def headerConstructors (c : ClassInfo) : List Edit :=
  let params := cppParams c.params true
  let body (statement : String) : List Edit :=
    [.line "\x7b", .indent, .line statement, .unindent, .line "\x7d", .gap]
  if c.kind.isTwoStep then
    [.line (c.name ++ "() \x7b\x7d"), .line (c.name ++ "(" ++ params ++ ")")]
      ++ body ("Create(" ++ c.paramNames ++ ");")
      ++ [.line ("bool Create(" ++ params ++ ");")]
  else
    [.line (c.name ++ "(" ++ params ++ ") : " ++ c.baseClass ++ "(" ++ c.paramNames ++ ")")]
      ++ body "Create();"
      ++ [.line "bool Create();"]

/-- The prototypes of the handlers. -/
def headerHandlers (c : ClassInfo) : List Edit :=
  if c.handlers.isEmpty && c.contextMenus.isEmpty then []
  else
    [.line "// Event handlers", .gap]
      ++ c.handlers.map (fun (event, handler) =>
        Edit.line ("virtual void " ++ handler ++ "(" ++ eventClass event
          ++ "& event) \x7b event.Skip(); \x7d"))
      ++ c.contextMenus.map (fun handler =>
        Edit.line ("void " ++ handler ++ "(wxContextMenuEvent& event);"))
      ++ [.gap]

/-- The declarations of the identifiers. -/
def headerIds (ids : IdTable) : List Edit :=
  let lines := Dialect.idDeclarations .cpp ids.bare ids.valued
  if lines = [] then [] else Edit.lines lines ++ [.gap]

/-- The header of a class. -/
def header (c : ClassInfo) (i : Imports) (ids : IdTable) (members : MemberTable) : List Edit :=
  banner .cpp
    ++ [.line "#pragma once", .gap]
    ++ i.systemHeaders.map (fun h => Edit.line ("#include <" ++ h ++ ">"))
    ++ [.gap]
    ++ i.localHeaders.map (fun h => Edit.line ("#include \"" ++ h ++ "\""))
    ++ [.gap]
    ++ openNamespaces c.namespaces
    ++ [.gap, .line ("class " ++ c.name ++ " : public " ++ c.baseClass), .line "\x7b",
      .line "public:", .indent]
    ++ headerIds ids
    ++ headerConstructors c
    ++ [.gap]
    ++ groupedLines members.exposed
    ++ [.unindent, .gap, .line "protected:", .indent]
    ++ headerHandlers c
    ++ groupedLines members.guarded
    ++ [.trim, .unindent, .line "\x7d;"]
    ++ (if c.namespaces.isEmpty then [] else [.gap])
    ++ closeNamespaces c.namespaces

end FormDesign.Dialect
