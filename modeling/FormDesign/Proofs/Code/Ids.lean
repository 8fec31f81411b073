import FormDesign.Proofs.Code.Handlers
import FormDesign.Proofs.Grouped
import FormDesign.Proofs.Identifier

/-!
# The identifiers of a form

The identifiers that the nodes of a form name are collected into two tables, the bare ones and those
with a value. Whatever a node names is declared from there; but its text may be spelled with more
than its name, and a name that stands in both tables is declared twice.

* `IdTable.bare_ofTexts`, `map_fst_valued_ofTexts`: the tables are sorted lists of the names
* `Dialect.filter_idDeclarations`: the lines that declare identifiers, one for each entry
* `Form.identifiersDeclared_iff`: when each identifier is spelled as it is declared
* `Form.declaredOnce_iff`: when each identifier is declared once
-/

namespace FormDesign

/-! ## The tables -/

namespace Sorted

/-- Changing an entry puts its key in. -/
theorem map_fst_alter {α : Type} (key : String) (f : Option α → α) (pairs : List (String × α)) :
    (alter key f pairs).map Prod.fst = insert key (pairs.map Prod.fst) := by
  induction pairs with
  | nil => rfl
  | cons pair rest ih =>
    rw [alter, List.map_cons, insert]
    split
    · rfl
    · split
      · rfl
      · rw [List.map_cons, ih]

theorem nodup_ofList (texts : List String) : (ofList texts).Nodup :=
  (ofList_spec texts).1.imp fun hlt => String.ne_of_lt hlt

end Sorted

namespace Identifier

/-- The name of a bare identifier. -/
def bare? : Identifier → Option String
  | .bare name => some name
  | .constant .. => none

/-- The name of an identifier with a value. -/
def valued? : Identifier → Option String
  | .bare _ => none
  | .constant name _ => some name

theorem bare?_eq_some {id : Identifier} {name : String} :
    id.bare? = some name ↔ id = .bare name := by
  cases id <;> simp [bare?]

theorem valued?_eq_some {id : Identifier} {name : String} :
    id.valued? = some name ↔ ∃ value, id = .constant name value := by
  cases id <;> simp [valued?]

end Identifier

namespace IdTable

variable {texts : List String} {name : String}

/-- The identifiers in the texts that are none of the stock. -/
def ownIn (texts : List String) : List Identifier :=
  (texts.filterMap Identifier.parse?).filter fun id => !id.isStock

theorem mem_ownIn {id : Identifier} :
    id ∈ ownIn texts ↔
      (∃ text ∈ texts, Identifier.parse? text = some id) ∧ id.isStock = false := by
  rw [ownIn, List.mem_filter, List.mem_filterMap, Bool.not_eq_true']

/-- The tables after some more identifiers: bare names go into the one, names with a value into the
other. -/
theorem foldl_add (ids : List Identifier) (t : IdTable) :
    (ids.foldl add t).bare
        = ((ids.filter fun id => !id.isStock).filterMap Identifier.bare?).foldl
            (fun sorted s => Sorted.insert s sorted) t.bare ∧
      (ids.foldl add t).valued.map Prod.fst
        = ((ids.filter fun id => !id.isStock).filterMap Identifier.valued?).foldl
            (fun sorted s => Sorted.insert s sorted) (t.valued.map Prod.fst) := by
  induction ids generalizing t with
  | nil => exact ⟨rfl, rfl⟩
  | cons id rest ih =>
    rw [List.foldl_cons]
    by_cases stock : id.isStock = true
    · have same : t.add id = t := if_pos stock
      rw [same, List.filter_cons_of_neg (by simp [stock])]
      exact ih t
    · rw [List.filter_cons_of_pos (by simp [stock])]
      obtain ⟨bare, valued⟩ := ih (t.add id)
      rw [bare, valued]
      cases id with
      | bare own =>
        have step : t.add (.bare own) = { t with bare := Sorted.insert own t.bare } := if_neg stock
        rw [step]
        exact ⟨rfl, rfl⟩
      | constant own value =>
        have step : t.add (.constant own value)
            = { t with valued := Sorted.put own value t.valued } := if_neg stock
        have keys : (Sorted.put own value t.valued).map Prod.fst
            = Sorted.insert own (t.valued.map Prod.fst) := Sorted.map_fst_alter own _ t.valued
        rw [step, keys]
        exact ⟨rfl, rfl⟩

theorem bare_ofTexts (texts : List String) :
    (ofTexts texts).bare = Sorted.ofList ((ownIn texts).filterMap Identifier.bare?) :=
  (foldl_add _ empty).1

theorem map_fst_valued_ofTexts (texts : List String) :
    (ofTexts texts).valued.map Prod.fst
      = Sorted.ofList ((ownIn texts).filterMap Identifier.valued?) :=
  (foldl_add _ empty).2

theorem mem_bare_ofTexts : name ∈ (ofTexts texts).bare ↔ .bare name ∈ ownIn texts := by
  rw [bare_ofTexts, (Sorted.ofList_spec _).2, List.mem_filterMap]
  simp [Identifier.bare?_eq_some]

theorem mem_map_fst_valued_ofTexts :
    name ∈ (ofTexts texts).valued.map Prod.fst ↔ ∃ value, .constant name value ∈ ownIn texts := by
  rw [map_fst_valued_ofTexts, (Sorted.ofList_spec _).2, List.mem_filterMap]
  simp only [Identifier.valued?_eq_some]
  constructor
  · rintro ⟨id, hid, value, rfl⟩
    exact ⟨value, hid⟩
  · rintro ⟨value, hid⟩
    exact ⟨_, hid, value, rfl⟩

/-- The names that are declared from the tables. -/
def names (t : IdTable) : List String :=
  t.bare ++ t.valued.map Prod.fst

theorem mem_names_ofTexts :
    name ∈ (ofTexts texts).names ↔ ∃ id ∈ ownIn texts, id.name = name := by
  rw [names, List.mem_append, mem_bare_ofTexts, mem_map_fst_valued_ofTexts]
  constructor
  · rintro (h | ⟨value, h⟩)
    · exact ⟨_, h, rfl⟩
    · exact ⟨_, h, rfl⟩
  · rintro ⟨id, h, rfl⟩
    cases id with
    | bare own => exact Or.inl h
    | constant own value => exact Or.inr ⟨value, h⟩

/-- A name is declared once if it is in one of the tables only. -/
theorem count_names_ofTexts (h : name ∈ (ofTexts texts).names) :
    (ofTexts texts).names.count name = 1 ↔
      ¬(name ∈ (ofTexts texts).bare ∧ name ∈ (ofTexts texts).valued.map Prod.fst) := by
  have bare : (ofTexts texts).bare.Nodup := bare_ofTexts texts ▸ Sorted.nodup_ofList _
  have valued : ((ofTexts texts).valued.map Prod.fst).Nodup :=
    map_fst_valued_ofTexts texts ▸ Sorted.nodup_ofList _
  rw [names, List.count_append, bare.count, valued.count]
  rcases List.mem_append.1 h with h | h <;> simp [h]

end IdTable

/-! ## The declarations -/

namespace Dialect

/-- The line that declares a bare identifier, with its position and whether another one follows. -/
def bareLine (d : Dialect) : String × Nat × Bool → String
  | (name, i, more) =>
    match d with
    | .cpp =>
      "\t" ++ name ++ (if i = 0 then " = wxID_HIGHEST + 1" else "") ++ (if more then "," else "")
    | .python => name ++ " = wx.NewIdRef()"
    | .ruby => name ++ " = Wx::ID_HIGHEST + " ++ toString (i + 1)
    | .perl => "use constant " ++ name ++ " => Wx::NewId();"

/-- The line that declares an identifier with a value. -/
def valuedLine (d : Dialect) : String × String → String
  | (name, value) =>
    match d with
    | .cpp => "static const int " ++ name ++ " = " ++ value ++ ";"
    | .python | .ruby => name ++ " = " ++ value
    | .perl => "use constant " ++ name ++ " => " ++ value ++ ";"

/-- The lines that declare identifiers, each with the name that it declares. -/
def declarationLines (d : Dialect) (t : IdTable) : List (String × String) :=
  (listed t.bare).map (fun entry => (entry.1, d.bareLine entry))
    ++ t.valued.map fun entry => (entry.1, d.valuedLine entry)

/-- The lines around an enumeration. They declare nothing. -/
def enumFrame : Dialect → List String
  | .cpp => ["enum", "\x7b", "\x7d;"]
  | .python | .ruby | .perl => []

theorem map_fst_listed (names : List String) : (listed names).map Prod.fst = names := by
  rw [listed, List.map_map]
  exact List.zipIdx_map_fst 0 names

theorem map_fst_declarationLines (d : Dialect) (t : IdTable) :
    (d.declarationLines t).map Prod.fst = t.names := by
  rw [declarationLines, List.map_append, List.map_map, List.map_map, IdTable.names]
  exact congrArg (· ++ _) (map_fst_listed t.bare)

/-- A line that declares something is none of those around an enumeration. -/
theorem notMem_enumFrame (d : Dialect) {line : String}
    (h : d = .cpp → line.toList.head? = some '\t' ∨ line.toList.head? = some 's') :
    line ∉ d.enumFrame := by
  cases d with
  | cpp =>
    have first : ∀ l ∈ enumFrame .cpp,
        ¬(l.toList.head? = some '\t' ∨ l.toList.head? = some 's') := by decide
    exact fun hline => first line hline (h rfl)
  | python | ruby | perl => exact List.not_mem_nil

/-- The declarations of bare identifiers may be framed; those with a value follow. -/
theorem idDeclarations_eq (d : Dialect) (t : IdTable) :
    ∃ opening closing, opening ⊆ d.enumFrame ∧ closing ⊆ d.enumFrame ∧
      d.idDeclarations t.bare t.valued
        = opening ++ (listed t.bare).map d.bareLine ++ closing ++ t.valued.map d.valuedLine := by
  have plain {lines : List String} (h : lines = (listed t.bare).map d.bareLine) :
      lines ++ t.valued.map d.valuedLine
        = [] ++ (listed t.bare).map d.bareLine ++ [] ++ t.valued.map d.valuedLine := by
    rw [h, List.nil_append, List.append_nil]
  have byName {line : String → String} (h : ∀ entry, d.bareLine entry = line entry.1) :
      t.bare.map line = (listed t.bare).map d.bareLine := by
    rw [funext h, ← map_fst_listed t.bare, List.map_map, map_fst_listed]
    rfl
  cases d with
  | cpp =>
    unfold idDeclarations
    by_cases empty : t.bare = []
    · refine ⟨[], [], List.nil_subset _, List.nil_subset _, ?_⟩
      rw [empty]
      rfl
    · refine ⟨["enum", "\x7b"], ["\x7d;"], by simp [enumFrame], by simp [enumFrame], ?_⟩
      dsimp only
      rw [if_neg empty]
      rfl
  | python | perl =>
    exact ⟨[], [], List.nil_subset _, List.nil_subset _, plain (byName fun _ => rfl)⟩
  | ruby =>
    refine ⟨[], [], List.nil_subset _, List.nil_subset _, plain ?_⟩
    rw [listed, List.map_map]
    rfl

/-- **Apart from the frame of an enumeration, what is written are the declarations.** -/
theorem filter_idDeclarations (d : Dialect) (t : IdTable) :
    (d.idDeclarations t.bare t.valued).filter (· ∉ d.enumFrame)
      = (d.declarationLines t).map Prod.snd := by
  have framed {lines : List String} (h : lines ⊆ d.enumFrame) :
      lines.filter (· ∉ d.enumFrame) = [] :=
    List.filter_eq_nil_iff.2 fun line hline => by simpa using h hline
  have kept {lines : List String} (h : ∀ line ∈ lines, line ∉ d.enumFrame) :
      lines.filter (· ∉ d.enumFrame) = lines :=
    List.filter_eq_self.2 fun line hline => by simpa using h line hline
  have bare : ∀ line ∈ (listed t.bare).map d.bareLine, line ∉ d.enumFrame := by
    intro line hline
    refine d.notMem_enumFrame ?_
    rintro rfl
    obtain ⟨⟨name, i, more⟩, -, rfl⟩ := List.mem_map.1 hline
    have first : "\t".toList.head? = some '\t' := rfl
    exact Or.inl (Text.head?_append (Text.head?_append (Text.head?_append first _) _) _)
  have valued : ∀ line ∈ t.valued.map d.valuedLine, line ∉ d.enumFrame := by
    intro line hline
    refine d.notMem_enumFrame ?_
    rintro rfl
    obtain ⟨⟨name, value⟩, -, rfl⟩ := List.mem_map.1 hline
    have first : "static const int ".toList.head? = some 's' := rfl
    exact Or.inr
      (Text.head?_append (Text.head?_append (Text.head?_append (Text.head?_append first _) _) _) _)
  obtain ⟨opening, closing, hopening, hclosing, heq⟩ := d.idDeclarations_eq t
  rw [heq, List.filter_append, List.filter_append, List.filter_append, framed hopening,
    framed hclosing, kept bare, kept valued, declarationLines, List.map_append, List.map_map,
    List.map_map, List.nil_append, List.append_nil]
  rfl

end Dialect

/-! ## The identifiers of the nodes -/

namespace Form

variable {f : Form} {d : Dialect}

/-- The texts of the identifier properties of the form and the nodes below it. -/
def idTexts (f : Form) : List String :=
  f.elements.flatMap Element.idTexts

theorem ids_eq (f : Form) : f.ids = .ofTexts f.idTexts := rfl

/-- An identifier is spelled as what it is: any, one of the stock, or one that the form declares. -/
def SpellsIdentifier (f : Form) (d : Dialect) (text : String) : Prop :=
  match Identifier.parse? text with
  | none => d.expr (.id text) = d.constant "wxID_ANY"
  | some id =>
    if id.isStock then d.expr (.id text) = d.constant id.name
    else ∃ name, (name ∈ f.ids.bare ∨ name ∈ f.ids.valued.map Prod.fst) ∧
      d.expr (.id text) = d.customId name

/-- The text of an identifier has no blanks or values that show where they should not. -/
def PlainIdentifier (d : Dialect) (text : String) : Prop :=
  (Text.trim text = "" → text = "") ∧
    (Text.startsWith (Text.trimStart text) Identifier.stockStart = true → d.SpellsByName text)

theorem spellsIdentifier_iff {text : String} (h : text ∈ f.idTexts) :
    f.SpellsIdentifier d text ↔ PlainIdentifier d text := by
  unfold SpellsIdentifier PlainIdentifier
  cases parsed : Identifier.parse? text with
  | none =>
    have blank := Identifier.parse?_eq_none_iff.1 parsed
    dsimp only
    rw [d.expr_blank_iff blank]
    refine ⟨fun empty => ⟨fun _ => empty, ?_⟩, fun plain => plain.1 blank⟩
    rw [empty]
    intro stock
    cases stock
  | some id =>
    have inhabited : Text.trim text = "" → text = "" := by
      intro blank
      rw [Identifier.parse?_eq_none_iff.2 blank] at parsed
      cases parsed
    dsimp only
    rw [and_iff_right inhabited, ← Identifier.isStock_of_parse? parsed]
    by_cases stock : id.isStock = true
    · have begins := (Identifier.isStock_of_parse? parsed).symm.trans stock
      rw [if_pos stock, forall_prop_of_true stock, Identifier.name_of_parse? parsed,
        d.spellsByName_iff begins]
    · -- the form's own identifiers are declared under the name that they are spelled with
      have own : id.isStock = false := Bool.eq_false_iff.2 stock
      have declared : id.name ∈ f.ids.names :=
        IdTable.mem_names_ofTexts.2 ⟨id, IdTable.mem_ownIn.2 ⟨⟨text, h, parsed⟩, own⟩, rfl⟩
      rw [if_neg stock]
      exact iff_of_true ⟨id.name, List.mem_append.1 declared, d.expr_own parsed own⟩
        fun h => absurd h stock

/-- **When each identifier that is used is declared.** What is declared is the name in the text; the
text of a stock identifier has to be spelled by its name as well. -/
theorem identifiersDeclared_iff (f : Form) (d : Dialect) :
    (∀ text ∈ f.idTexts, f.SpellsIdentifier d text) ↔
      ∀ text ∈ f.idTexts, PlainIdentifier d text :=
  forall₂_congr fun _ h => spellsIdentifier_iff h

end Form

/-- A dialog for controls that have identifiers. -/
def idDialog : Element where
  kind := .dialog
  props := [(.className, "Dlg")]
  events := []

/-- A button with an identifier. -/
def idButton (varName text : String) : Element where
  kind := .button
  props := [(.varName, varName), (.id, text)]
  events := []

/-- A dialog with a button whose identifier is a blank. -/
def blankIdForm : Form where
  node := { idDialog with id := 0, parent := none, children := [1] }
  children :=
    [.mk
      { node := { idButton "m_ok" " " with id := 1, parent := some 0, children := [] },
        name := "m_ok" }
      []]
  above := []

/-- The button gets an empty argument in C++, though its text holds no identifier. -/
theorem blankIdForm_not_identifiersDeclared :
    Form.ofTree (.ofDesign (.mk idDialog [.mk (idButton "m_ok" " ") []])) 0 = .ok blankIdForm ∧
      blankIdForm.idTexts = [" "] ∧ Identifier.parse? " " = none ∧
      Dialect.expr .cpp (.id " ") = "" ∧
      ¬∀ text ∈ blankIdForm.idTexts, blankIdForm.SpellsIdentifier .cpp text := by
  have texts : blankIdForm.idTexts = [" "] := by decide +kernel
  refine ⟨by with_unfolding_all rfl, texts, by decide +kernel, by decide +kernel, fun h => ?_⟩
  have mem : " " ∈ blankIdForm.idTexts := texts ▸ List.mem_cons_self
  have plain := (Form.spellsIdentifier_iff mem).1 (h " " mem)
  exact absurd (plain.1 (by decide +kernel)) (by decide)

/-! ## Each identifier once -/

namespace Form

variable {f : Form} {d : Dialect}

theorem headerIds_infix_header (info : ClassInfo) (i : Imports) (ids : IdTable)
    (members : MemberTable) :
    Dialect.headerIds ids <:+: Dialect.header info i ids members := by
  unfold Dialect.header
  iterate 9 refine List.IsInfix.trans ?_ (List.prefix_append _ _).isInfix
  exact (List.suffix_append _ _).isInfix

theorem declarations_infix_classEdits (info : ClassInfo) (c : Collected) :
    declarations d c <:+: f.classEdits d info c := by
  unfold classEdits
  iterate 7 refine List.IsInfix.trans ?_ (List.prefix_append _ _).isInfix
  exact (List.suffix_append _ _).isInfix

theorem lines_prefix_declarations (script : d ≠ .cpp) (c : Collected) :
    Edit.lines (d.idDeclarations c.ids.bare c.ids.valued) <+: declarations d c := by
  unfold declarations
  dsimp only
  split
  · next h =>
    have empty : d.idDeclarations c.ids.bare c.ids.valued ++ c.members.lines = [] := by
      simpa [script] using h
    rw [(List.append_eq_nil_iff.1 empty).1]
    exact List.nil_prefix
  · rw [Edit.lines, Edit.lines, List.map_append, List.append_assoc]
    exact List.prefix_append _ _

theorem lines_prefix_headerIds (ids : IdTable) :
    Edit.lines (Dialect.idDeclarations .cpp ids.bare ids.valued) <+: Dialect.headerIds ids := by
  unfold Dialect.headerIds
  dsimp only
  split
  · next empty =>
    rw [empty]
    exact List.nil_prefix
  · exact List.prefix_append _ _

/-- The declarations stand in the header in C++, or else in the class. -/
theorem idDeclarations_infix {c : Collected} (hc : c.ids = f.ids) (o : Options) :
    Edit.lines (d.idDeclarations f.ids.bare f.ids.valued) <:+: f.handlerEdits d o c := by
  rw [← hc]
  by_cases header : d = .cpp
  · subst header
    exact (lines_prefix_headerIds _).isInfix.trans (headerIds_infix_header _ _ _ _)
  · have edits : f.handlerEdits d o c = f.classEdits d (f.classInfo o c.events) c := by
      cases d with
      | cpp => exact absurd rfl header
      | python | ruby | perl => rfl
    rw [edits]
    exact (lines_prefix_declarations header c).isInfix.trans (declarations_infix_classEdits _ c)

/-- **Every identifier of the form's own is declared once.** -/
structure DeclaredOnce (f : Form) (d : Dialect) : Prop where
  /-- No name is in both tables. -/
  apart : ∀ name ∈ f.ids.bare, name ∉ f.ids.valued.map Prod.fst
  /-- What is written, apart from the frame of an enumeration, declares one name a line. -/
  lines : (d.idDeclarations f.ids.bare f.ids.valued).filter (· ∉ d.enumFrame)
    = (d.declarationLines f.ids).map Prod.snd
  /-- Each name is that of one line. -/
  once : ∀ id ∈ IdTable.ownIn f.idTexts,
    ((d.declarationLines f.ids).map Prod.fst).count id.name = 1
  /-- The lines are written for the class. -/
  written : ∀ o c, c.ids = f.ids →
    Edit.lines (d.idDeclarations f.ids.bare f.ids.valued) <:+: f.handlerEdits d o c

/-- **When each identifier is declared once**: no two nodes name the same identifier, one of them
bare and the other one with a value. -/
theorem declaredOnce_iff (f : Form) (d : Dialect) :
    f.DeclaredOnce d ↔ ∀ name value, .bare name ∈ IdTable.ownIn f.idTexts →
      .constant name value ∉ IdTable.ownIn f.idTexts := by
  have apart : (∀ name ∈ f.ids.bare, name ∉ f.ids.valued.map Prod.fst) ↔
      ∀ name value, .bare name ∈ IdTable.ownIn f.idTexts →
        .constant name value ∉ IdTable.ownIn f.idTexts := by
    simp only [ids_eq, IdTable.mem_bare_ofTexts, IdTable.mem_map_fst_valued_ofTexts, not_exists]
    exact ⟨fun h name value bare => h name bare value, fun h name bare value => h name value bare⟩
  refine ⟨fun h => apart.1 h.apart, fun h =>
    ⟨apart.2 h, d.filter_idDeclarations f.ids, ?_, fun o _ hc => idDeclarations_infix hc o⟩⟩
  intro id own
  have declared : id.name ∈ f.ids.names := IdTable.mem_names_ofTexts.2 ⟨id, own, rfl⟩
  rw [d.map_fst_declarationLines]
  exact (IdTable.count_names_ofTexts declared).2 fun both => apart.2 h id.name both.1 both.2

end Form

/-- A dialog with two buttons that have the same identifier, one of them bare and the other one with
a value. -/
def twiceIdForm : Form where
  node := { idDialog with id := 0, parent := none, children := [1, 2] }
  children :=
    [.mk
      { node := { idButton "m_ok" "ID_SAVE" with id := 1, parent := some 0, children := [] },
        name := "m_ok" }
      [],
    .mk
      { node := { idButton "m_no" "ID_SAVE=100" with id := 2, parent := some 0, children := [] },
        name := "m_no" }
      []]
  above := []

/-- The identifier is declared in the enumeration and as a constant. -/
theorem twiceIdForm_not_declaredOnce :
    Form.ofTree
        (.ofDesign
          (.mk idDialog
            [.mk (idButton "m_ok" "ID_SAVE") [], .mk (idButton "m_no" "ID_SAVE=100") []]))
        0 = .ok twiceIdForm ∧
      twiceIdForm.ids = { bare := ["ID_SAVE"], valued := [("ID_SAVE", "100")] } ∧
      Dialect.idDeclarations .cpp twiceIdForm.ids.bare twiceIdForm.ids.valued
        = ["enum", "\x7b", "\tID_SAVE = wxID_HIGHEST + 1", "\x7d;",
          "static const int ID_SAVE = 100;"] ∧
      ∀ d, ¬twiceIdForm.DeclaredOnce d := by
  have ids : twiceIdForm.ids = { bare := ["ID_SAVE"], valued := [("ID_SAVE", "100")] } := by
    decide +kernel
  refine ⟨by with_unfolding_all rfl, ids, ?_, fun d h => ?_⟩
  · rw [ids]
    decide +kernel
  · have apart := h.apart
    rw [ids] at apart
    exact apart "ID_SAVE" List.mem_cons_self List.mem_cons_self

end FormDesign
