import FormDesign.Proofs.Code.Ids
import FormDesign.Proofs.Code.Nested

/-!
# The blocks of a class

The frame of a class and its header write the two ends of their blocks in separate definitions. The
whole of them is nested nevertheless, whatever the form and its names are.

* `Dialect.nested_class`, `Dialect.nested_constructor`, `Dialect.nested_menu`: the frames
* `Dialect.nested_header`: the C++ header
* `Form.blocks_balanced`: the blocks of a form are balanced
-/

namespace FormDesign

/-! ## The class -/

namespace Dialect

variable (d : Dialect) (info : ClassInfo) {es : List Edit}

theorem nested_namespaces (names : List String) (h : Nested .cpp es) :
    Nested .cpp (openNamespaces names ++ es ++ closeNamespaces names) := by
  induction names with
  | nil => simpa [openNamespaces, closeNamespaces] using h
  | cons name names ih =>
    have block := Nested.enclosed (.namespaceOf name) ih
    simpa [openNamespaces, closeNamespaces] using block

theorem nested_gap : d.Nested [.gap] := .plain trivial .nil

variable {d}

theorem nested_class (h : d.Nested es) :
    d.Nested (d.openClass info ++ es ++ d.closeClass info) := by
  cases d with
  | cpp =>
    have space : Nested .cpp (if info.namespaces.isEmpty then [] else [.gap]) := by
      split
      · exact .nil
      · exact nested_gap .cpp
    simpa [openClass, closeClass] using nested_namespaces info.namespaces (space.append h)
  | python =>
    have opening : Delimits .python
        [.line ("class " ++ info.name ++ "(" ++ baseToken .python info ++ "):"), .indent]
        [.unindent] :=
      delimits_python "class " (info.name ++ "(" ++ baseToken .python info ++ ")") (by decide)
        (by simp [String.append_assoc])
    simpa [openClass, closeClass] using Nested.block opening h (nested_gap .python)
  | ruby =>
    have header : IsHeader .ruby ("class " ++ info.name ++ " < " ++ baseToken .ruby info) :=
      ⟨"class ", by decide, info.name ++ " < " ++ baseToken .ruby info,
        by simp [String.append_assoc]⟩
    have block := Nested.block (.closingWord header)
      (h.append (.plain (e := .trim) trivial .nil)) (nested_gap .ruby)
    simpa [openClass, closeClass] using block
  | perl =>
    have base : Nested .perl [.line ("use base qw(" ++ baseToken .perl info ++ ");"), .gap] :=
      .plain (not_mem_brackets (c := '(') (by simp) (by decide)) (nested_gap .perl)
    have close : Nested .perl [.gap, .line "1;"] :=
      .plain trivial (.plain (not_mem_brackets (c := '1') (by decide) (by decide)) .nil)
    exact (base.append h).append close

/-- The lines that give defaults to parameters in Perl. -/
theorem nested_givenDefaults (params : List Param) :
    Nested .perl (params.flatMap fun p =>
      match p.default with
      | some e =>
        [.line ("$" ++ p.name ++ " = " ++ expr .perl e ++ " unless defined $" ++ p.name ++ ";")]
      | none => []) := by
  refine .flatMap fun p _ => ?_
  split
  · exact .plain (not_mem_brackets (c := '=') (by simp) (by decide)) .nil
  · exact .nil

/-- The test of the base class in a C++ class that is set up in two steps. -/
theorem nested_baseCreate :
    Nested .cpp [.line ("if (!" ++ info.baseClass ++ "::Create(" ++ info.paramNames ++ "))"),
      .indent, .line "return false;", .unindent, .gap] := by
  have failed : Nested .cpp [.line "return false;"] :=
    .plain (not_mem_brackets (c := ' ') (by decide) (by decide)) .nil
  have block := Nested.block
    (.condition ("!" ++ info.baseClass ++ "::Create(" ++ info.paramNames ++ ")")) failed
    (nested_gap .cpp)
  have test : "if (" ++ ("!" ++ info.baseClass ++ "::Create(" ++ info.paramNames ++ ")") ++ ")"
      = "if (!" ++ info.baseClass ++ "::Create(" ++ info.paramNames ++ "))" := by
    simp [← String.toList_inj]
  rw [test] at block
  exact block

/-- The header of a method in Perl. -/
theorem isHeader_sub (name : String) : IsHeader .perl ("sub " ++ name) :=
  ⟨"sub ", by decide, name, rfl⟩

theorem nested_constructor (h : d.Nested es) :
    d.Nested (d.openConstructor info ++ es ++ d.closeConstructor) := by
  cases d with
  | cpp =>
    have close : Nested .cpp [.gap, .line "return true;"] :=
      .plain trivial (.plain (not_mem_brackets (c := ' ') (by decide) (by decide)) .nil)
    have body := h.append close
    have method {signature : String} (hsignature : IsHeader .cpp signature) {inner : List Edit}
        (hinner : Nested .cpp inner) :
        Nested .cpp (openBlock .cpp signature ++ inner ++ closeBlock .cpp ++ [.gap]) :=
      .block (.function hsignature) hinner (nested_gap .cpp)
    unfold openConstructor
    dsimp only
    split
    · have signature : IsHeader .cpp
          ("bool " ++ info.name ++ "::Create(" ++ cppParams info.params false ++ ")") :=
        ⟨"bool " ++ info.name ++ "::Create", cppParams info.params false,
          by simp [String.append_assoc]⟩
      have block := method signature ((nested_baseCreate info).append body)
      simpa [closeConstructor] using block
    · have signature : IsHeader .cpp ("bool " ++ info.name ++ "::Create()") :=
        ⟨"bool " ++ info.name ++ "::Create", "", by simp [String.append_assoc]⟩
      have block := method signature body
      simpa [closeConstructor] using block
  | python =>
    have init : Nested .python [.line (baseToken .python info ++ ".__init__("
        ++ Text.join ", " ("self" :: info.params.map Param.name) ++ ")"), .gap] :=
      .plain List.not_mem_nil (nested_gap .python)
    let params := Text.join ", " ("self" :: defaultedParams .python "=" info.params)
    have opening : Delimits .python [.line ("def __init__(" ++ params ++ "):"), .indent]
        [.unindent] :=
      delimits_python "def " ("__init__(" ++ params ++ ")") (by decide)
        (by simp [← String.toList_inj])
    simpa [openConstructor, closeConstructor] using
      Nested.block opening (init.append h) (nested_gap .python)
  | ruby =>
    have super : Nested .ruby [.line ("super(" ++ info.paramNames ++ ")"), .gap] :=
      .plain (not_mem_brackets (c := '(') (by simp) (by decide)) (nested_gap .ruby)
    have body := (super.append h).append (.plain (e := .trim) trivial .nil)
    let params := Text.join ", " (defaultedParams .ruby " = " info.params)
    have header : IsHeader .ruby
        (if params = "" then "def initialize" else "def initialize(" ++ params ++ ")") := by
      split
      · exact ⟨"def ", by decide, "initialize", rfl⟩
      · exact ⟨"def ", by decide, "initialize(" ++ params ++ ")", by simp [← String.append_assoc]⟩
    have block := Nested.block (.closingWord header) body (nested_gap .ruby)
    simpa [openConstructor, closeConstructor] using block
  | perl =>
    have line (text : String) (h : '=' ∈ text.toList) : Nested .perl [.line text] :=
      .plain (not_mem_brackets h (by decide)) .nil
    let names := info.params.map fun p => "$" ++ p.name
    have args := line ("my (" ++ Text.join ", " ("$class" :: names) ++ ") = @_;") (by simp)
    have self := line ("my $self = $class->SUPER::new(" ++ Text.join ", " names ++ ");") (by simp)
    have close : Nested .perl [.gap, .line "return $self;"] :=
      .plain trivial (.plain (not_mem_brackets (c := ' ') (by decide) (by decide)) .nil)
    have taken := (args.append (nested_givenDefaults info.params)).append self
    have body := (taken.append (nested_gap .perl)).append (h.append close)
    have block := Nested.block (.brace (isHeader_sub "new")) body (nested_gap .perl)
    simp only [openConstructor, closeConstructor, openBlock, closeBlock, blockStyle,
      List.append_assoc, List.cons_append, List.nil_append] at block ⊢
    exact block

/-- The header of a handler in Python. -/
theorem delimits_handler (handler : String) :
    Delimits .python [.line ("def " ++ handler ++ "(self, event):"), .indent] [.unindent] :=
  delimits_python "def " (handler ++ "(self, event)") (by decide) (by simp [String.append_assoc])

/-- The header of a handler in Ruby. -/
theorem isHeader_handler (handler : String) :
    IsHeader .ruby ("def " ++ methodName .ruby handler ++ "(event)") :=
  ⟨"def ", by decide, methodName .ruby handler ++ "(event)", by simp [String.append_assoc]⟩

/-- The method that shows a context menu. -/
theorem nested_menu (handler : String) (menu : Var) (h : d.Nested es) :
    d.Nested (d.openMenu info handler ++ es ++ d.closeMenu menu) := by
  have line (text : String) (h : '(' ∈ text.toList) : d.Nested [.line text] :=
    .plain (not_mem_brackets h (by decide)) .nil
  cases d with
  | cpp =>
    have shown := line ("PopupMenu(" ++ varRef .cpp menu ++ ");") (by simp)
    have deleted : Nested .cpp [.line ("delete " ++ varRef .cpp menu ++ ";")] :=
      .plain (not_mem_brackets (c := ' ') (by simp) (by decide)) .nil
    have signature : IsHeader .cpp
        ("void " ++ info.name ++ "::" ++ handler ++ "(wxContextMenuEvent& WXUNUSED(event))") :=
      ⟨"void " ++ info.name ++ "::" ++ handler, "wxContextMenuEvent& WXUNUSED(event)",
        by simp [String.append_assoc]⟩
    have block := Nested.block (.function signature)
      (h.append (shown.append deleted)) (nested_gap .cpp)
    simpa [openMenu, closeMenu, openBlock, closeBlock, blockStyle] using block
  | python =>
    have shown : Nested .python (Edit.lines
        ["self.PopupMenu(" ++ varRef .python menu ++ ")", varRef .python menu ++ ".Destroy()"]) :=
      .lines fun _ _ => List.not_mem_nil
    have block := Nested.block (delimits_handler handler) (h.append shown) (nested_gap .python)
    simpa [openMenu, closeMenu, Edit.lines] using block
  | ruby =>
    have shown := line ("popup_menu(" ++ varRef .ruby menu ++ ")") (by simp)
    have block := Nested.block (.closingWord (isHeader_handler handler)) (h.append shown)
      (nested_gap .ruby)
    simpa [openMenu, closeMenu] using block
  | perl =>
    have args := line "my ($self, $event) = @_;" (by decide)
    have shown := line ("$self->PopupMenu(" ++ varRef .perl menu ++ ", wxDefaultPosition);")
      (by simp)
    have block := Nested.block (.brace (isHeader_sub handler)) (args.append (h.append shown))
      (nested_gap .perl)
    simpa [openMenu, closeMenu, openBlock, closeBlock, blockStyle] using block

theorem nested_handlerStub (handler : String) : d.Nested (d.handlerStub handler) := by
  cases d with
  | cpp => exact .nil
  | python =>
    have skip : Nested .python [.line "event.Skip()"] := .plain List.not_mem_nil .nil
    exact .block (delimits_handler handler) skip (nested_gap .python)
  | ruby =>
    have skip : Nested .ruby [.line "event.skip"] :=
      .plain (not_mem_brackets (c := '.') (by decide) (by decide)) .nil
    exact .block (.closingWord (isHeader_handler handler)) skip (nested_gap .ruby)
  | perl =>
    have body : Nested .perl [.line "my ($self, $event) = @_;", .line "$event->Skip();"] :=
      .plain (show "my ($self, $event) = @_;" ∉ _ by decide)
        (.plain (show "$event->Skip();" ∉ _ by decide) .nil)
    exact .block (.brace (isHeader_sub handler)) body (nested_gap .perl)

theorem nested_handlerStubs : d.Nested (d.handlerStubs info) := by
  have stubs : d.handlerStubs info = (info.handlers.map Prod.snd).flatMap d.handlerStub := by
    simp [handlerStubs, List.flatMap_map]
  rw [stubs]
  exact .flatMap fun handler _ => nested_handlerStub handler

/-! ## The header -/

theorem nested_groupedLines {g : Grouped String} (h : ∀ line ∈ g.toList, line ∉ brackets .cpp) :
    Nested .cpp (groupedLines g) := by
  have common : Nested .cpp (Edit.lines g.common) :=
    .lines fun line hline => h line (List.mem_append_left _ hline)
  refine common.append (.flatMap fun part hpart => ?_)
  refine Nested.onPlatform (.lines fun line hline => h line (List.mem_append_right _ ?_)) part.1
  exact List.mem_flatMap.2 ⟨part, hpart, hline⟩

theorem nested_headerIds (ids : IdTable) : Nested .cpp (headerIds ids) := by
  have valued : Nested .cpp (Edit.lines (ids.valued.map (valuedLine .cpp))) := by
    refine .lines fun text ht => ?_
    obtain ⟨⟨name, value⟩, -, rfl⟩ := List.mem_map.1 ht
    have sign : '=' ∈ ("static const int " ++ name ++ " = " ++ value ++ ";").toList := by simp
    exact not_mem_brackets sign (by decide)
  have bare : Nested .cpp (Edit.lines ((listed ids.bare).map (bareLine .cpp))) := by
    refine .lines fun text ht => ?_
    obtain ⟨⟨name, i, more⟩, -, rfl⟩ := List.mem_map.1 ht
    have tab : '\t' ∈ ("\t" ++ name ++ (if i = 0 then " = wxID_HIGHEST + 1" else "")
        ++ (if more then "," else "")).toList := by simp
    exact not_mem_brackets tab (by decide)
  let entries := ["enum", "\x7b"] ++ (listed ids.bare).map (bareLine .cpp) ++ ["\x7d;"]
  have layout : idDeclarations .cpp ids.bare ids.valued
      = (if ids.bare = [] then [] else entries) ++ ids.valued.map (valuedLine .cpp) := rfl
  have enumeration : Nested .cpp (Edit.lines (if ids.bare = [] then [] else entries)) := by
    split
    · exact .nil
    · have block := Nested.block .enumeration bare .nil
      simpa [Edit.lines, entries] using block
  have lines : Nested .cpp (Edit.lines (idDeclarations .cpp ids.bare ids.valued)) := by
    rw [layout, Edit.lines, List.map_append]
    exact enumeration.append valued
  unfold headerIds
  dsimp only
  split
  · exact .nil
  · exact lines.append (nested_gap .cpp)

theorem nested_headerConstructors : Nested .cpp (headerConstructors info) := by
  have line (text : String) (h : '(' ∈ text.toList) : Nested .cpp [.line text] :=
    .plain (not_mem_brackets h (by decide)) .nil
  have defined {signature : String} (hsignature : IsHeader .cpp signature) (statement : String)
      (h : '(' ∈ statement.toList) :
      Nested .cpp [.line signature, .line "\x7b", .indent, .line statement, .unindent,
        .line "\x7d", .gap] :=
    .block (.function hsignature) (line statement h) (nested_gap .cpp)
  unfold headerConstructors
  dsimp only
  split
  · have default := line (info.name ++ "() \x7b\x7d") (by simp)
    have signature : IsHeader .cpp (info.name ++ "(" ++ cppParams info.params true ++ ")") :=
      ⟨info.name, cppParams info.params true, rfl⟩
    have full := defined signature ("Create(" ++ info.paramNames ++ ");") (by simp)
    have create := line ("bool Create(" ++ cppParams info.params true ++ ");") (by simp)
    exact (default.append full).append create
  · have signature : IsHeader .cpp (info.name ++ "(" ++ cppParams info.params true ++ ") : "
        ++ info.baseClass ++ "(" ++ info.paramNames ++ ")") :=
      ⟨info.name ++ "(" ++ cppParams info.params true ++ ") : " ++ info.baseClass, info.paramNames,
        rfl⟩
    have only := defined signature "Create();" (by decide)
    exact only.append (line "bool Create();" (by decide))

theorem nested_headerHandlers : Nested .cpp (headerHandlers info) := by
  unfold headerHandlers
  split
  · exact .nil
  · have remark : Nested .cpp [.line "// Event handlers", .gap] :=
      .plain (not_mem_brackets (c := ' ') (by decide) (by decide)) (nested_gap .cpp)
    refine ((remark.append (.of_plain fun e he => ?_)).append
      (.of_plain fun e he => ?_)).append (nested_gap .cpp)
    · obtain ⟨_, -, rfl⟩ := List.mem_map.1 he
      exact not_mem_brackets (c := '(') (by simp) (by decide)
    · obtain ⟨_, -, rfl⟩ := List.mem_map.1 he
      exact not_mem_brackets (c := '(') (by simp) (by decide)

/-- The lines in front of the class. -/
theorem nested_includes (i : Imports) :
    Nested .cpp (banner .cpp ++ [.line "#pragma once", .gap]
      ++ i.systemHeaders.map (fun h => Edit.line ("#include <" ++ h ++ ">"))
      ++ [.gap]
      ++ i.localHeaders.map (fun h => Edit.line ("#include \"" ++ h ++ "\""))
      ++ [.gap]) := by
  refine .of_plain fun e he => ?_
  simp only [List.mem_append, List.mem_map, List.mem_cons, List.not_mem_nil, or_false, banner] at he
  have spaced (text : String) (h : ' ' ∈ text.toList) : IsPlain .cpp (.line text) :=
    not_mem_brackets h (by decide)
  rcases he with ((((he | he) | he) | rfl) | he) | rfl
  · rcases he with rfl | rfl | rfl
    · exact spaced _ (by decide)
    · exact spaced _ (by decide)
    · trivial
  · rcases he with rfl | rfl
    · exact spaced _ (by decide)
    · trivial
  · obtain ⟨h, -, rfl⟩ := he
    exact spaced _ (by simp)
  · trivial
  · obtain ⟨h, -, rfl⟩ := he
    exact spaced _ (by simp)
  · trivial

theorem nested_header (i : Imports) (ids : IdTable) {members : MemberTable}
    (h : ∀ line ∈ members.exposed.toList ++ members.guarded.toList, line ∉ brackets .cpp) :
    Nested .cpp (header info i ids members) := by
  have gap := nested_gap .cpp
  have exposed : Nested .cpp (groupedLines members.exposed) :=
    nested_groupedLines fun line hline => h line (List.mem_append_left _ hline)
  have guarded : Nested .cpp (groupedLines members.guarded) :=
    nested_groupedLines fun line hline => h line (List.mem_append_right _ hline)
  have trim : Nested .cpp [.trim] := .plain trivial .nil
  have publicPart := (((nested_headerIds ids).append (nested_headerConstructors info)).append
    gap).append exposed
  have protectedPart := ((nested_headerHandlers info).append guarded).append trim
  have inner := Nested.block (.visibility (.inl rfl)) publicPart
    (gap.append (Nested.enclosed (.visibility (.inr rfl)) protectedPart))
  have after : Nested .cpp (if info.namespaces.isEmpty then [] else [.gap]) := by
    split
    · exact .nil
    · exact gap
  have definition := gap.append
    (Nested.block (.classOf info.name info.baseClass) inner after)
  have file := (nested_includes i).append (nested_namespaces info.namespaces definition)
  have publicWord : "public" ++ ":" = "public:" := rfl
  have protectedWord : "protected" ++ ":" = "protected:" := rfl
  rw [publicWord, protectedWord] at file
  -- the equation of a definition this long is slow to state
  delta header
  simp only [List.append_assoc, List.cons_append, List.nil_append] at file ⊢
  exact file

/-- The lines that declare members hold a blank. -/
theorem members_not_mem_brackets (f : Form) (d : Dialect) {line : String}
    (h : line ∈ (f.members d).exposed.toList ++ (f.members d).guarded.toList) :
    line ∉ d.brackets := by
  refine not_mem_brackets (c := ' ') ?_ (by decide)
  obtain ⟨s, a, declares | validates⟩ := f.declares_of_mem_members d h
  · have eq := declares.line_eq
    unfold memberDeclaration at eq
    split at eq
    · obtain rfl := Option.some.inj eq
      simp
    · split at eq
      · obtain rfl := Option.some.inj eq
        simp
      · cases eq
    · cases eq
    · cases eq
  · obtain ⟨v, -, eq⟩ := Option.bind_eq_some_iff.1 validates.line_eq
    unfold validatorDeclaration at eq
    split at eq
    · split at eq
      · obtain rfl := Option.some.inj eq
        simp
      · obtain rfl := Option.some.inj eq
        simp
      · obtain rfl := Option.some.inj eq
        simp
    all_goals cases eq

/-- The declaration of an identifier holds a blank. -/
theorem blank_of_mem_idDeclarations (hd : d ≠ .cpp) {bare : List String}
    {valued : List (String × String)} {line : String} (h : line ∈ d.idDeclarations bare valued) :
    ' ' ∈ line.toList := by
  cases d with
  | cpp => exact absurd rfl hd
  | _ =>
    rcases List.mem_append.1 h with h | h <;>
      (obtain ⟨_, -, rfl⟩ := List.mem_map.1 h; simp)

theorem nested_declarations {c : Collected}
    (h : ∀ line ∈ c.members.exposed.toList ++ c.members.guarded.toList, line ∉ d.brackets) :
    d.Nested (Form.declarations d c) := by
  unfold Form.declarations
  dsimp only
  split
  · exact .nil
  · next hd =>
    have hd : d ≠ .cpp := by
      rintro rfl
      simp at hd
    refine Nested.append (.lines fun line hline => ?_) (nested_gap d)
    rcases List.mem_append.1 hline with hline | hline
    · exact not_mem_brackets (blank_of_mem_idDeclarations hd hline) (by decide)
    · exact h line (mem_firsts.1 hline)

theorem nested_validatorInits (f : Form) : d.Nested (Edit.lines (f.validatorInits d)) := by
  refine .lines fun text ht => not_mem_brackets (c := '=') ?_ (by decide)
  obtain ⟨v, -, heq⟩ := List.mem_filterMap.1 ht
  unfold validatorInit at heq
  split at heq
  · cases heq
  all_goals
    obtain rfl := Option.some.inj heq
    simp

end Dialect

namespace Form

open Dialect Step

variable (f : Form) (d : Dialect)

theorem nested_plan (images : List Asset) : d.Nested (d.steps (f.plan d images)) := by
  have settings : Each (Uses fun _ => True) ((f.site d images).formSettings f.element) :=
    Site.uses_formSettings f.element
  have finish : Each (Uses fun _ => True) (Site.formFinish f.element) :=
    Site.uses_formFinish f.element
  have before : d.Nested (d.steps ((f.site d images).formSettings f.element)) :=
    nested_plain (settings.imp fun _ h => h.plain) (Site.callsKnown_formSettings _ _)
  have nodes : d.Nested (d.steps ((f.site d images).planAll f.path [] f.children)) :=
    (f.site d images).nested_planAll f.path [] f.children
  have after : d.Nested (d.steps (Site.formFinish f.element)) :=
    nested_plain (finish.imp fun _ h => h.plain) (Site.callsKnown_formFinish _)
  simp only [plan, steps_append]
  exact (before.append nodes).append after

theorem nested_bindSteps (events : EventTables) : d.Nested (d.steps (f.bindSteps events)) := by
  have within : d.Nested (d.steps (events.bound.bySelector.map fun part =>
      .within part.1 (part.2.map fun u => .bind (f.binding u)))) := by
    refine nested_steps fun st hst => ?_
    obtain ⟨part, -, rfl⟩ := List.mem_map.1 hst
    exact nested_within (nested_binds part.2 f.binding) part.1
  simp only [bindSteps, steps_append]
  exact ((nested_binds _ f.binding).append within).append (nested_binds _ id)

theorem nested_menuMethod (info : ClassInfo) (c : Collected) (above : List Item)
    (builder : Branch Item) : d.Nested (f.menuMethod d info c above builder) := by
  refine nested_menu info _ _ ?_
  have plan : d.Nested (d.steps (f.menuPlan d c.images above builder)) := by
    cases builder with
    | mk i cs =>
      have created : d.Nested (d.step
          (.stmt (.create contextMenuVar (d.classToken "wxMenu" .core) [] none))) :=
        nested_step rfl (callsKnown_create ..)
      have entries : d.Nested (d.steps
          ({ f.site d c.images with inMenu := true }.planAll (i :: above) [] cs)) :=
        Site.nested_planAll { f.site d c.images with inMenu := true } (i :: above) [] cs
      exact created.append entries
  rw [menuSteps, steps_append]
  exact plan.append (nested_binds _ f.binding)

/-- The methods of the context menus stand between the constructor and the empty handlers. -/
theorem classEdits_eq (info : ClassInfo) (c : Collected) :
    f.classEdits d info c
      = d.openClass info ++ declarations d c ++ d.openConstructor info
        ++ Edit.lines (f.validatorInits d) ++ d.steps (f.constructorSteps d c) ++ d.closeConstructor
        ++ f.menuBranches.flatMap (fun menu => f.menuMethod d info c menu.1 menu.2)
        ++ d.handlerStubs info ++ d.closeClass info :=
  rfl

theorem nested_classEdits (info : ClassInfo) {c : Collected} (h : c.members = f.members d) :
    d.Nested (f.classEdits d info c) := by
  have declared : d.Nested (declarations d c) :=
    nested_declarations fun line hline => members_not_mem_brackets f d (h ▸ hline)
  have steps : d.Nested (d.steps (f.constructorSteps d c)) := by
    have gap : d.Nested (d.steps [.gap]) := nested_gap d
    simp only [constructorSteps, steps_append]
    exact ((f.nested_plan d c.images).append gap).append (f.nested_bindSteps d c.events)
  have constructor := nested_constructor info ((nested_validatorInits f).append steps)
  have menus : d.Nested
      (f.menuBranches.flatMap fun menu => f.menuMethod d info c menu.1 menu.2) :=
    .flatMap fun menu _ => f.nested_menuMethod ..
  have text := nested_class info
    (((declared.append constructor).append menus).append (nested_handlerStubs info))
  simpa [classEdits_eq] using text

/-- The class generated for a form is nested and keeps to its levels, as is the header that goes
with it in C++; and so does each part of a class that is laid out by itself. For the empty text this
says that nothing is taken back at level 0, and that the text ends there. -/
structure BlocksBalanced (o : Options) (c : Collected) : Prop where
  class_text : d.Balanced (f.classEdits d (f.classInfo o c.events) c)
  header (hd : d = .cpp) : Balanced .cpp
    (Dialect.header (f.classInfo o c.events) (f.imports d c.includes) c.ids c.members)
  /-- Any node of the construction, wherever it stands. -/
  node (inMenu : Bool) (above before : List Item) (b : Branch Item) :
    d.Balanced (d.steps ({ f.site d c.images with inMenu }.planNode above before b))
  /-- The bindings for some events. -/
  bindings (uses : List EventUse) :
    d.Balanced (d.steps (uses.map fun u => .bind (f.binding u)))
  /-- The bindings that are confined to platforms. -/
  confined_bindings (selector : String) (uses : List EventUse) :
    d.Balanced (d.step (.within selector (uses.map fun u => .bind (f.binding u))))
  /-- The handler of a context menu. -/
  menu_handler (above : List Item) (builder : Branch Item) :
    d.Balanced (f.menuMethod d (f.classInfo o c.events) c above builder)
  stub (handler : String) : d.Balanced (d.handlerStub handler)

/-- **In every dialect the blocks of a generated class are balanced:** each is closed by what
belongs to its opening. -/
theorem blocks_balanced (o : Options) (t : ImageTable) (cache : Cache) :
    f.BlocksBalanced d o (f.collected d t cache) where
  class_text := (f.nested_classEdits d _ rfl).balanced
  header := by
    rintro rfl
    exact (nested_header _ _ _ fun _ hline => members_not_mem_brackets f .cpp hline).balanced
  node inMenu above before b := by
    let s : Site := { f.site d (f.collected d t cache).images with inMenu }
    have nested : d.Nested (d.steps (s.planNode above before b)) := s.nested_planNode above before b
    exact nested.balanced
  bindings uses := (nested_binds uses f.binding).balanced
  confined_bindings selector uses := (nested_within (nested_binds uses f.binding) selector).balanced
  menu_handler above builder := (f.nested_menuMethod d _ _ above builder).balanced
  stub handler := (nested_handlerStub handler).balanced

end Form

end FormDesign
