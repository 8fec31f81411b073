import FormDesign.Code.Class
import FormDesign.Proofs.Code.Ids
import FormDesign.Proofs.Reference

/-!
# What the defaults of the constructor refer to

Where a language writes the defaults of parameters into the signature of the constructor, they are
read before there is a form. Titles are literals, styles are made of constants and numbers, and
positions and sizes are the toolkit's, so all that may refer to the form is the identifier: Python
spells those that the form declares as members of it.

* `Dialect.inScope_id_iff`: when an identifier is known where it is spelled
* `Dialect.idInScope_iff_of_isWord`: the same for an identifier that is a word
* `Form.defaultsInScope_iff`: when all the defaults of a constructor are known
-/

namespace FormDesign

open Identifier

/-! ## Identifiers -/

namespace Text

theorem isBlank_of_isWordChar {c : Char} (h : isWordChar c = true) : isBlank c = false := by
  simpa using of_isWordChar (p := fun c => !isBlank c) (by decide +kernel) h

theorem IsWord.trimStart_eq {text : String} (h : IsWord text.toList) : trimStart text = text := by
  rw [trimStart,
    Chars.trimStart_eq_self fun c hc => isBlank_of_isWordChar (h c (List.mem_of_mem_head? hc)),
    String.ofList_toList]

theorem IsWord.trim_eq {text : String} (h : IsWord text.toList) : trim text = text := by
  rw [trim,
    Chars.trim_eq_self (fun c hc => isBlank_of_isWordChar (h c (List.mem_of_mem_head? hc)))
      fun c hc => isBlank_of_isWordChar (h c (List.mem_of_mem_getLast? hc)),
    String.ofList_toList]

/-- The name in a word is the word. -/
theorem IsWord.nameIn_eq {text : String} (h : IsWord text.toList) : nameIn text = text := by
  have all : text.toList.takeWhile (· != '=') = text.toList := by
    refine List.takeWhile_eq_self_iff.2 fun c hc => bne_iff_ne.2 ?_
    rintro rfl
    cases h _ hc
  rw [nameIn, all, String.ofList_toList, h.trim_eq]

end Text

namespace Dialect

variable {d : Dialect} {ids : List String} {text : String}

/-- Nothing unknown is in an identifier: what follows the start of one of the stock is known, and
one that the form declares is known by its name, but not where it is a member of the form. -/
structure IdInScope (d : Dialect) (ids : List String) (text : String) : Prop where
  stock : Text.startsWith text stockStart = true → d.InScope ids (d.constant text).toList
  own : text ≠ "" → Text.startsWith text stockStart = false →
    d ≠ .python ∧ d.InScope ids (nameIn text).toList

/-- A member of the form begins at the form. -/
theorem not_inScope_self (name : String) : ¬InScope .python ids ("self." ++ name).toList := by
  intro h
  let path := "self.".toList ++ name.toList.takeWhile (isPathChar .python)
  have code : ("self." ++ name).toList = path ++ name.toList.dropWhile (isPathChar .python) := by
    rw [String.toList_append, List.append_assoc, List.takeWhile_append_dropWhile]
  have chars : ∀ c ∈ path, isPathChar .python c = true := by
    have front : "self.".toList.all (isPathChar .python) = true := by decide
    intro c hc
    rcases List.mem_append.1 hc with hc | hc
    · exact List.all_eq_true.1 front c hc
    · exact List.mem_takeWhile_imp hc
  have stop : ∀ c ∈ (name.toList.dropWhile (isPathChar .python)).head?,
      isPathChar .python c = false := by
    intro c hc
    have first := List.head?_dropWhile_not (isPathChar .python) name.toList
    rw [hc] at first
    simpa using first
  have known : isKnown .python ids path = true :=
    h path (code ▸ mem_references_append chars (List.cons_ne_nil _ _) stop)
  have own : isOwn .python path = true := rfl
  rw [isKnown, own] at known
  cases known

/-- **When an identifier is known where it is spelled.** -/
theorem inScope_id_iff : d.InScope ids (d.expr (.id text)).toList ↔ d.IdInScope ids text := by
  rw [expr_id]
  by_cases empty : text = ""
  · have any : IsConstant "wxID_ANY" := by decide
    rw [if_pos empty, empty]
    exact iff_of_true (unquoted_constant any).inScope ⟨nofun, fun h => absurd rfl h⟩
  rw [if_neg empty]
  by_cases stock : Text.startsWith text stockStart = true
  · rw [if_pos stock]
    exact ⟨fun h => ⟨fun _ => h, fun _ own => by rw [stock] at own; cases own⟩,
      fun h => h.stock stock⟩
  rw [if_neg stock]
  have other : d.IdInScope ids text ↔ d ≠ .python ∧ d.InScope ids (nameIn text).toList :=
    ⟨fun h => h.own empty (Bool.eq_false_iff.2 stock),
      fun h => ⟨fun start => absurd start stock, fun _ _ => h⟩⟩
  rw [other]
  cases d with
  | python => exact iff_of_false (not_inScope_self _) fun h => h.1 rfl
  | cpp | ruby | perl => exact (and_iff_right nofun).symm

/-- What the form is called is all that may be wrong with a word. -/
theorem isOwn_iff_of_isWord (word : Text.IsWord text.toList) :
    d.isOwn text.toList = true ↔ text = d.selfRef := by
  have name : text.toList.takeWhile isNameChar = text.toList :=
    List.takeWhile_eq_self_iff.2 fun c hc => by simp [isNameChar, word c hc]
  have sigil : text.toList.head? ≠ some '@' := fun h => by
    cases word '@' (List.mem_of_mem_head? h)
  cases d <;> simp [isOwn, name, sigil, String.toList_inj]

/-- **A word is known unless Python spells it, or it is the name for the form.** -/
theorem idInScope_iff_of_isWord (word : Text.IsWord text.toList)
    (declared : text ≠ "" → Text.startsWith text stockStart = false → text ∈ ids) :
    d.IdInScope ids text ↔ text = "" ∨ Text.startsWith text stockStart = true ∨
      (d ≠ .python ∧ text ≠ d.selfRef) := by
  by_cases empty : text = ""
  · rw [empty]
    exact iff_of_true ⟨nofun, fun h => absurd rfl h⟩ (Or.inl rfl)
  by_cases stock : Text.startsWith text stockStart = true
  · obtain ⟨rest, hrest⟩ := exists_stock stock
    have constant : IsConstant text := ⟨by rw [hrest]; exact isToolkitName_stock rest, word⟩
    exact iff_of_true
      ⟨fun _ => (unquoted_constant constant).inScope, fun _ own => by rw [stock] at own; cases own⟩
      (Or.inr (Or.inl stock))
  have own : Text.startsWith text stockStart = false := Bool.eq_false_iff.2 stock
  have named : d.InScope ids text.toList ↔ text ≠ d.selfRef := by
    have alone : d.references text.toList = [text.toList] :=
      references_path (fun c hc => isPathChar_of_isWordChar (word c hc)) (by simpa using empty)
    rw [InScope, alone, List.forall_mem_singleton, isKnown, String.ofList_toList,
      List.contains_iff_mem.2 (declared empty own), ne_eq, ← not_congr (isOwn_iff_of_isWord word)]
    simp
  constructor
  · intro h
    obtain ⟨notPython, known⟩ := h.own empty own
    rw [word.nameIn_eq] at known
    exact Or.inr (Or.inr ⟨notPython, named.1 known⟩)
  · rintro (h | h | ⟨notPython, other⟩)
    · exact absurd h empty
    · exact absurd h stock
    · refine ⟨fun start => absurd start stock, fun _ _ => ⟨notPython, ?_⟩⟩
      rw [word.nameIn_eq]
      exact named.2 other

end Dialect

/-! ## The identifiers of a form -/

theorem Element.text_id_mem_idTexts {e : Element} (h : e.text .id ≠ "") :
    e.text .id ∈ e.idTexts := by
  unfold text at h ⊢
  cases found : e.prop? .id with
  | none => exact absurd (by rw [found]; rfl) h
  | some value =>
    obtain ⟨⟨p, _⟩, first, rfl⟩ := Option.map_eq_some_iff.1 found
    obtain rfl : p = .id := by simpa using List.find?_some first
    have hmem := List.mem_of_find?_eq_some first
    exact List.mem_map.2 ⟨_, List.mem_filter.2 ⟨hmem, rfl⟩, rfl⟩

namespace Form

variable {f : Form} {d : Dialect}

theorem element_mem_elements (f : Form) : f.element ∈ f.elements :=
  List.mem_cons_self

/-- The name in the text of an identifier is declared if it is none of the stock. -/
theorem nameIn_mem_names {text : String} (h : text ∈ f.idTexts) (inhabited : Text.trim text ≠ "")
    (own : Text.startsWith (Text.trimStart text) stockStart = false) :
    nameIn text ∈ f.ids.names := by
  obtain ⟨id, parsed⟩ := Option.ne_none_iff_exists'.1 (mt parse?_eq_none_iff.1 inhabited)
  refine IdTable.mem_names_ofTexts.2 ⟨id, IdTable.mem_ownIn.2 ⟨⟨text, h, parsed⟩, ?_⟩, ?_⟩
  · rw [isStock_of_parse? parsed, own]
  · exact name_of_parse? parsed

end Form

/-! ## Parameters -/

/-- The styles of a form hold constants and numbers, with bars between. -/
structure Element.HasPlainStyles (e : Element) : Prop where
  style : IsStyle (e.text .style)
  windowStyle : IsStyle (e.text .windowStyle)

namespace Kind

/-- The forms whose constructors take an identifier. -/
def takesId : Kind → Bool
  | .dialog | .wizard | .frame | .panelForm | .toolBarForm | .ribbonBarForm => true
  | _ => false

end Kind

namespace Param

variable {d : Dialect} {ids : List String} {e : Element}

/-- The default is known before there is a form. -/
def InScope (d : Dialect) (ids : List String) (p : Param) : Prop :=
  ∀ default ∈ p.default, d.InScope ids (d.expr default).toList

theorem inScope_none : (parent none).InScope d ids :=
  nofun

theorem inScope_null : (parent (some .null)).InScope d ids := by
  intro default hdefault
  obtain rfl := Option.some.inj hdefault
  exact Dialect.unquoted_nullLiteral.inScope

theorem inScope_id_iff : (Param.id e).InScope d ids ↔ d.IdInScope ids (e.text .id) := by
  rw [← Dialect.inScope_id_iff]
  exact ⟨fun h => h _ rfl, fun h default hdefault => Option.some.inj hdefault ▸ h⟩

theorem inScope_title : (title e).InScope d ids := by
  intro default hdefault
  obtain rfl := Option.some.inj hdefault
  exact d.inScope_textLiteral ids (e.text .title)

theorem inScope_const {name cppType value : String} (h : IsStyle value) :
    InScope d ids { name, cppType, default := some (.const value) } := by
  intro default hdefault
  obtain rfl := Option.some.inj hdefault
  exact (Dialect.unquoted_constants h).inScope

theorem inScope_pos : pos.InScope d ids :=
  inScope_const (by decide)

theorem inScope_size (signature : d ≠ .perl) : (size e).InScope d ids := by
  have usual : IsStyle "wxDefaultSize" := by decide
  intro default hdefault
  obtain rfl := Option.some.inj hdefault
  split
  · next width height _ =>
    unfold Expr.sizeOf
    split
    · exact (Dialect.unquoted_constants usual).inScope
    · exact (Dialect.unquoted_size signature width height).inScope
  · exact (Dialect.unquoted_constants usual).inScope

/-- The styles that are given are joined with the bar that stands between flags. -/
theorem inScope_style (h : e.HasPlainStyles) {usual : String} (flags : IsStyle usual) :
    (style e usual).InScope d ids := by
  refine inScope_const ?_
  split
  · exact flags
  · intro part hpart
    rw [show "|" = String.singleton '|' from rfl, Text.fields_join_eq_flatMap] at hpart
    obtain ⟨text, htext, hpart⟩ := List.mem_flatMap.1 hpart
    have given := (List.mem_filter.1 htext).1
    simp only [List.mem_cons, List.not_mem_nil, or_false] at given
    rcases given with rfl | rfl
    · exact h.style part hpart
    · exact h.windowStyle part hpart

theorem id_mem_all_iff : Param.id e ∈ all e ↔ e.kind.takesId = true := by
  unfold all
  split
  all_goals
    rename_i kind
    simp [kind, Kind.takesId, Param.id, parent, title, pos, size, style]

/-- Whatever the kind of the form, the identifier is all that may be unknown. -/
theorem eq_id_or_inScope (signature : d ≠ .perl) (styles : e.HasPlainStyles) :
    ∀ p ∈ all e, p = Param.id e ∨ p.InScope d ids := by
  have usual (value : String) (flags : IsStyle value) : (style e value).InScope d ids :=
    inScope_style styles flags
  have dialog := usual "wxDEFAULT_DIALOG_STYLE" (by decide +kernel)
  have frame := usual "wxDEFAULT_FRAME_STYLE" (by decide +kernel)
  have panel := usual "wxTAB_TRAVERSAL" (by decide +kernel)
  have popup := usual "wxBORDER_NONE" (by decide +kernel)
  have menuBar := usual "0" (by decide +kernel)
  have toolBar := usual "wxTB_HORIZONTAL" (by decide +kernel)
  have ribbonBar := usual "wxRIBBON_BAR_DEFAULT_STYLE" (by decide +kernel)
  have size : (size e).InScope d ids := inScope_size signature
  unfold all
  split
  all_goals
    simp [inScope_none, inScope_null, inScope_title, inScope_pos, size, dialog, frame, panel,
      popup, menuBar, toolBar, ribbonBar]

end Param

namespace Form

variable {f : Form} {d : Dialect}

/-- All the defaults of the constructor are known before there is a form. -/
def DefaultsInScope (f : Form) (d : Dialect) : Prop :=
  ∀ p ∈ Param.all f.element, p.InScope d f.ids.names

theorem defaultsInScope_iff_idInScope (signature : d ≠ .perl)
    (styles : f.element.HasPlainStyles) :
    f.DefaultsInScope d ↔
      (f.element.kind.takesId = true → d.IdInScope f.ids.names (f.element.text .id)) := by
  constructor
  · intro h takes
    exact Param.inScope_id_iff.1 (h _ (Param.id_mem_all_iff.2 takes))
  · intro h p hp
    rcases Param.eq_id_or_inScope signature styles p hp with rfl | known
    · exact Param.inScope_id_iff.2 (h (Param.id_mem_all_iff.1 hp))
    · exact known

/-- The form's own identifier is among those that it declares. -/
theorem id_mem_names (word : Text.IsWord (f.element.text .id).toList)
    (inhabited : f.element.text .id ≠ "")
    (own : Text.startsWith (f.element.text .id) stockStart = false) :
    f.element.text .id ∈ f.ids.names := by
  have mem : f.element.text .id ∈ f.idTexts :=
    List.mem_flatMap.2 ⟨_, f.element_mem_elements, Element.text_id_mem_idTexts inhabited⟩
  have declared := nameIn_mem_names mem (by rwa [word.trim_eq]) (by rwa [word.trimStart_eq])
  rwa [word.nameIn_eq] at declared

/-- **When all the defaults of the constructor are known**: it takes no identifier, or nothing
unknown is in the identifier. One that is a word has to be of the stock, or of the form but neither
in Python nor called like the form itself. -/
theorem defaultsInScope_iff (signature : d ≠ .perl) (styles : f.element.HasPlainStyles) :
    let id := f.element.text .id
    (f.DefaultsInScope d ↔ (f.element.kind.takesId = true → d.IdInScope f.ids.names id)) ∧
      (Text.IsWord id.toList →
        (d.IdInScope f.ids.names id ↔ id = "" ∨ Text.startsWith id stockStart = true ∨
          (d ≠ .python ∧ id ≠ d.selfRef))) := by
  intro id
  refine ⟨defaultsInScope_iff_idInScope signature styles, fun word => ?_⟩
  exact Dialect.idInScope_iff_of_isWord word (id_mem_names word)

end Form

/-- A dialog with an identifier of its own. -/
def mainElement : Element where
  kind := .dialog
  props :=
    [(.className, "Dlg"), (.id, "ID_MAIN"), (.title, "the \"self\""),
      (.style, "wxDEFAULT_DIALOG_STYLE|wxRESIZE_BORDER")]
  events := []

/-- The form of that dialog. -/
def mainDialog : Form where
  node := { mainElement with id := 0, parent := none, children := [] }
  children := []
  above := []

/-- In Ruby the identifier is spelled by its name, and so all the defaults are known. -/
theorem mainDialog_defaultsInScope :
    Form.ofTree (.ofDesign (.mk mainElement [])) 0 = .ok mainDialog ∧
      mainDialog.element.HasPlainStyles ∧ mainDialog.DefaultsInScope .ruby := by
  have styles : mainDialog.element.HasPlainStyles := ⟨by decide +kernel, by decide +kernel⟩
  obtain ⟨known, named⟩ := Form.defaultsInScope_iff (d := .ruby) (by decide) styles
  have word : Text.IsWord (mainDialog.element.text .id).toList := by decide
  refine ⟨by with_unfolding_all rfl, styles, known.2 fun _ => (named word).2 ?_⟩
  exact Or.inr (Or.inr (by decide))

/-- Python spells the identifier as a member of the form, though it is declared in the class. -/
theorem mainDialog_not_defaultsInScope :
    Form.ofTree (.ofDesign (.mk mainElement [])) 0 = .ok mainDialog ∧
      mainDialog.element.HasPlainStyles ∧ mainDialog.ids.names = ["ID_MAIN"] ∧
      Dialect.idDeclarations .python mainDialog.ids.bare mainDialog.ids.valued
        = ["ID_MAIN = wx.NewIdRef()"] ∧
      Dialect.defaultedParams .python "=" [Param.id mainDialog.element] = ["id=self.ID_MAIN"] ∧
      ¬mainDialog.DefaultsInScope .python := by
  have styles : mainDialog.element.HasPlainStyles := ⟨by decide +kernel, by decide +kernel⟩
  have names : mainDialog.ids.names = ["ID_MAIN"] := by decide +kernel
  refine ⟨by with_unfolding_all rfl, styles, names, ?_, ?_, fun h => ?_⟩
  · decide +kernel
  · decide +kernel
  · have known := h (Param.id mainDialog.element) (Param.id_mem_all_iff.2 rfl) _ rfl
    rw [names] at known
    revert known
    decide +kernel

end FormDesign
