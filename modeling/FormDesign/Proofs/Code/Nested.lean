import FormDesign.Proofs.Code.Header
import FormDesign.Proofs.Layout

/-!
# Nested blocks

What opens a block and what closes it are laid out in different places. Here both ends belong
together in one relation, and nested edits are those that are generated by it. Steps are laid out
nested: a block of the plan holds whole nodes, and a node lies between both ends of its block.

* `Dialect.Delimits`: what opens a block, with what closes it
* `Dialect.Nested`: lines and blocks in blocks, each with both of its ends
* `Dialect.Nested.balanced`: the levels of indentation that follow from it
* `Site.nested_planNode`: the steps for a node are nested
-/

namespace FormDesign

namespace Dialect

/-! ## Both ends of a block -/

/-- The lines that open or close a block by themselves. -/
def brackets : Dialect → List String
  | .cpp => ["\x7b", "\x7d", "\x7d;"]
  | .python => []
  | .ruby => ["end"]
  | .perl => ["\x7d"]

/-- The edit neither opens nor closes a block. -/
def IsPlain (d : Dialect) : Edit → Prop
  | .line text => text ∉ d.brackets
  | .gap | .trim => True
  | .flush _ | .indent | .unindent => False

/-- What the text that opens a block looks like, without what sets it off from its body: in C++ a
function with its parameters, elsewhere a class, a method or a condition by its keyword. -/
def IsHeader : Dialect → String → Prop
  | .cpp, text => ∃ function parameters, text = function ++ "(" ++ parameters ++ ")"
  | .python, text | .ruby, text =>
    ∃ keyword ∈ ["class ", "def ", "if "], ∃ rest, text = keyword ++ rest
  | .perl, text => ∃ keyword ∈ ["sub ", "if "], ∃ rest, text = keyword ++ rest

/-- The edits that open a block, and those that close it. -/
inductive Delimits : Dialect → List Edit → List Edit → Prop
  | function {header : String} (h : IsHeader .cpp header) :
    Delimits .cpp [.line header, .line "\x7b", .indent] [.unindent, .line "\x7d"]
  | classOf (name base : String) :
    Delimits .cpp [.line ("class " ++ name ++ " : public " ++ base), .line "\x7b"]
      [.line "\x7d;"]
  | enumeration : Delimits .cpp [.line "enum", .line "\x7b"] [.line "\x7d;"]
  | namespaceOf (name : String) :
    Delimits .cpp [.line ("namespace " ++ name), .line "\x7b"]
      [.line ("\x7d  // namespace " ++ name)]
  /-- The members of a visibility in C++. -/
  | visibility {word : String} (h : word = "public" ∨ word = "protected") :
    Delimits .cpp [.line (word ++ ":"), .indent] [.unindent]
  /-- A single statement under a condition in C++. -/
  | condition (test : String) :
    Delimits .cpp [.line ("if (" ++ test ++ ")"), .indent] [.unindent]
  /-- A part for the platforms of a selector in C++. -/
  | platforms {selector test : String}
    (h : platformCondition .cpp (Platform.ofSelector selector) = "#if " ++ test) :
    Delimits .cpp [.flush ("#if " ++ test)] [.flush ("#endif  // " ++ selector)]
  | colon {header : String} (h : IsHeader .python header) :
    Delimits .python [.line (header ++ ":"), .indent] [.unindent]
  | closingWord {header : String} (h : IsHeader .ruby header) :
    Delimits .ruby [.line header, .indent] [.unindent, .line "end"]
  | brace {header : String} (h : IsHeader .perl header) :
    Delimits .perl [.line (header ++ " \x7b"), .indent] [.unindent, .line "\x7d"]

/-- Lines and blocks, where each block has both of its ends around it. -/
inductive Nested (d : Dialect) : List Edit → Prop
  | nil : Nested d []
  | plain {e : Edit} {rest : List Edit} (h : d.IsPlain e) (hrest : Nested d rest) :
    Nested d (e :: rest)
  | block {opening body closing rest : List Edit} (h : d.Delimits opening closing)
    (hbody : Nested d body) (hrest : Nested d rest) :
    Nested d (opening ++ body ++ closing ++ rest)

/-- The edits are nested, and so they keep to their levels of indentation in every text. -/
structure Balanced (d : Dialect) (es : List Edit) : Prop where
  nested : d.Nested es
  /-- The level after them is the level before. -/
  level_run : ∀ w : Lines, (w.run es).level = w.level
  /-- No indentation of the text before them is taken back. -/
  lt_level_run : ∀ (w : Lines) (before after : List Edit), es = before ++ .unindent :: after →
    w.level < (w.run before).level

section

variable {d : Dialect} {es fs opening body closing : List Edit}

theorem Delimits.isLevel (h : d.Delimits opening closing) (hbody : Edit.IsLevel body) :
    Edit.IsLevel (opening ++ body ++ closing) := by
  cases h <;>
    simp [Edit.IsLevel, Edit.levelFrom?_append, Edit.levelFrom?_cons, Edit.levelAfter?,
      hbody.levelFrom?]

theorem IsPlain.levelAfter? {e : Edit} (h : d.IsPlain e) : Edit.levelAfter? 0 e = some 0 := by
  cases e <;> first | rfl | exact h.elim

/-! ## Nested edits -/

namespace Nested

theorem isLevel (h : d.Nested es) : Edit.IsLevel es := by
  induction h with
  | nil => rfl
  | plain he _ ih =>
    rw [Edit.IsLevel, Edit.levelFrom?_cons, he.levelAfter?]
    exact ih
  | block hblock _ _ ihbody ihrest => exact (hblock.isLevel ihbody).append ihrest

theorem balanced (h : d.Nested es) : d.Balanced es where
  nested := h
  level_run := h.isLevel.level_run
  lt_level_run w _ _ := h.isLevel.lt_level_run w

theorem append (hes : d.Nested es) (hfs : d.Nested fs) : d.Nested (es ++ fs) := by
  induction hes with
  | nil => exact hfs
  | plain he _ ih => exact .plain he ih
  | block hblock hbody _ _ ih =>
    rw [List.append_assoc]
    exact .block hblock hbody ih

theorem of_plain (h : ∀ e ∈ es, d.IsPlain e) : d.Nested es := by
  induction es with
  | nil => exact .nil
  | cons e es ih =>
    exact .plain (h e List.mem_cons_self) (ih fun e he => h e (List.mem_cons_of_mem _ he))

/-- A block by itself. -/
theorem enclosed (hblock : d.Delimits opening closing) (hbody : d.Nested body) :
    d.Nested (opening ++ body ++ closing) := by
  simpa using Nested.block hblock hbody .nil

theorem flatMap {α : Type} {f : α → List Edit} {xs : List α} (h : ∀ x ∈ xs, d.Nested (f x)) :
    d.Nested (xs.flatMap f) := by
  induction xs with
  | nil => exact .nil
  | cons x xs ih =>
    obtain ⟨hx, hxs⟩ := List.forall_mem_cons.1 h
    exact hx.append (ih hxs)

theorem lines {texts : List String} (h : ∀ text ∈ texts, text ∉ d.brackets) :
    d.Nested (Edit.lines texts) := by
  refine of_plain fun e he => ?_
  obtain ⟨text, ht, rfl⟩ := List.mem_map.1 he
  exact h text ht

end Nested

/-! ## Lines that are no brackets -/

/-- The letters of brackets. -/
theorem mem_of_mem_brackets {d : Dialect} {bracket : String} (h : bracket ∈ d.brackets) {c : Char}
    (hc : c ∈ bracket.toList) : c ∈ "\x7b\x7d;end".toList := by
  have listed :
      d.brackets.all (fun b => b.toList.all fun c => "\x7b\x7d;end".toList.contains c) = true := by
    cases d <;> decide
  exact List.contains_iff_mem.1 (List.all_eq_true.1 (List.all_eq_true.1 listed bracket h) c hc)

/-- A text with another letter is no bracket. -/
theorem not_mem_brackets {text : String} {c : Char} (hc : c ∈ text.toList)
    (h : c ∉ "\x7b\x7d;end".toList) : text ∉ d.brackets :=
  fun hm => h (mem_of_mem_brackets hm hc)

end

/-! ## Blocks of the dialects -/

/-- A Python block, by the line that opens it. -/
theorem delimits_python {text : String} (keyword rest : String)
    (hkeyword : keyword ∈ ["class ", "def ", "if "]) (h : text = keyword ++ rest ++ ":") :
    Delimits .python [.line text, .indent] [.unindent] := by
  rw [h]
  exact .colon ⟨keyword, hkeyword, rest, rfl⟩

/-- The condition on platforms, by the keyword that begins it. -/
theorem exists_platformCondition (d : Dialect) (platforms : List Platform) :
    ∃ test, d.platformCondition platforms =
      match d with
      | .cpp => "#if " ++ test
      | .python => "if " ++ test ++ ":"
      | .ruby | .perl => "if " ++ test := by
  cases d <;> cases platforms
  case cpp.nil => exact ⟨"0", rfl⟩
  case cpp.cons => exact ⟨_, rfl⟩
  case python.nil => exact ⟨"False", rfl⟩
  case python.cons => exact ⟨_, rfl⟩
  case ruby.nil => exact ⟨"false", rfl⟩
  case ruby.cons p ps =>
    refine ⟨"RUBY_PLATFORM =~ /" ++ Text.join "|" ((p :: ps).map Platform.osPattern) ++ "/", ?_⟩
    simp [platformCondition, ← String.append_assoc]
  case perl.nil => exact ⟨"(0)", rfl⟩
  case perl.cons p ps =>
    refine ⟨"($^O =~ /" ++ Text.join "|" ((p :: ps).map Platform.osPattern) ++ "/i)", ?_⟩
    simp [platformCondition, ← String.append_assoc]

/-- A part that is confined to the platforms of a selector. -/
theorem delimits_platform (d : Dialect) (selector : String) :
    d.Delimits (d.beginPlatform selector) (d.endPlatform selector) := by
  obtain ⟨test, htest⟩ := d.exists_platformCondition (Platform.ofSelector selector)
  cases d with
  | cpp =>
    have condition : platformCondition .cpp (Platform.ofSelector selector) = "#if " ++ test := htest
    have block := Delimits.platforms condition
    rwa [← condition] at block
  | python => exact delimits_python "if " test (by decide) htest
  | ruby => exact .closingWord ⟨"if ", by decide, test, htest⟩
  | perl => exact .brace ⟨"if ", by decide, test, htest⟩

theorem Nested.onPlatform {d : Dialect} {es : List Edit} (h : d.Nested es) (selector : String) :
    d.Nested (d.onPlatform selector es) :=
  .enclosed (delimits_platform d selector) h

end Dialect

/-! ## Steps -/

namespace Step

/-- The methods of forms that are called. In Ruby a call without arguments is the name alone. -/
def formMethods : List String :=
  ["Add", "AddButton", "AddSeparator", "AddTool", "Append", "AppendSeparator", "AppendSubMenu",
    "Centre", "Realize", "SetDropdownMenu", "SetIcon", "SetMenuBar", "SetMinSize",
    "SetSizerAndFit", "SetStatusBar", "SetToolBar", "SetToolTip"]

/-- A call of a method of the form is one of those. -/
def CallsKnown : Step → Prop
  | .stmt (.call .form method _) => method ∈ formMethods
  | _ => True

@[simp] theorem callsKnown_call (target : Target) (method : String) (args : List Expr) :
    CallsKnown (call target method args) ↔ (target = .form → method ∈ formMethods) := by
  cases target <;> simp [call, CallsKnown]

@[simp] theorem callsKnown_create (v : Var) (className : String) (args : List Expr)
    (init : Option String) : CallsKnown (.stmt (.create v className args init)) := trivial

@[simp] theorem callsKnown_gap : CallsKnown .gap := trivial

@[simp] theorem callsKnown_warn (text : String) : CallsKnown (.warn text) := trivial

@[simp] theorem callsKnown_validate (control : Var) (v : ValidatorVar) :
    CallsKnown (.validate control v) := trivial

theorem snakeCase_ne_end : ∀ method ∈ formMethods, Text.snakeCase method ≠ "end" := by
  decide +kernel

end Step

namespace Site

open Step

variable (s : Site) (p : Place)

@[simp] theorem callsKnown_addPage : Each CallsKnown (s.addPage p) := by
  unfold addPage
  grind [each_nil, each_cons, callsKnown_call]

@[simp] theorem callsKnown_attach : Each CallsKnown (s.attach p) := by
  unfold attach
  dsimp only
  split <;> simp [formMethods]

@[simp] theorem callsKnown_split : Each CallsKnown (s.split p) := by
  unfold split
  dsimp only
  split <;> simp

@[simp] theorem callsKnown_appendMenu : Each CallsKnown (s.appendMenu p) := by
  unfold appendMenu
  dsimp only
  split
  · exact each_nil
  · split <;> simp [formMethods]

@[simp] theorem callsKnown_setDropdown : Each CallsKnown (s.setDropdown p) := by
  unfold setDropdown
  split <;> simp [formMethods]

theorem callsKnown_finish : Each CallsKnown (s.finish p) := by
  unfold finish
  dsimp only
  split
  case h_10 => split <;> simp
  all_goals simp [formMethods, giveToFrame]

theorem callsKnown_createSizer : Each CallsKnown (s.createSizer p) := by
  simp [createSizer]

theorem callsKnown_addSpacer : Each CallsKnown (s.addSpacer p) := by
  unfold addSpacer
  dsimp only
  split <;> simp

theorem callsKnown_create (args : List Expr) (init : Option String) :
    Each CallsKnown (s.create p args init) := by
  simp [create]

theorem callsKnown_createMenuItem : Each CallsKnown (s.createMenuItem p) := by
  unfold createMenuItem
  dsimp only
  split
  · exact each_nil
  · simp [callsKnown_create, formMethods]

theorem callsKnown_createTool : Each CallsKnown (s.createTool p) := by
  unfold createTool
  dsimp only
  split
  · exact each_nil
  · split <;> simp [formMethods]

theorem callsKnown_windowSettings : Each CallsKnown (s.windowSettings p) := by
  simp [windowSettings]

@[simp] theorem callsKnown_chainPage : Each CallsKnown (s.chainPage p) := by
  unfold chainPage
  dsimp only
  split
  · exact each_nil
  · split <;> simp

theorem callsKnown_kindSettings : Each CallsKnown (s.kindSettings p) := by
  unfold kindSettings
  dsimp only
  split
  all_goals simp

theorem callsKnown_createNode : Each CallsKnown (s.createNode p) := by
  unfold createNode
  split
  · exact s.callsKnown_createSizer p
  · exact s.callsKnown_addSpacer p
  · exact s.callsKnown_create p _ _
  · exact s.callsKnown_create p _ _
  · exact s.callsKnown_createMenuItem p
  · exact s.callsKnown_createTool p
  · exact s.callsKnown_create p _ _
  · simp [createWindow, callsKnown_create, callsKnown_windowSettings, callsKnown_kindSettings]

theorem callsKnown_formSettings (e : Element) : Each CallsKnown (s.formSettings e) := by
  unfold formSettings
  dsimp only
  split <;> simp [formMethods]

theorem callsKnown_formFinish (e : Element) : Each CallsKnown (formFinish e) := by
  unfold formFinish
  split
  case h_3 | h_4 => dsimp only; split <;> simp [formMethods]
  all_goals simp [formMethods]

end Site

namespace Dialect

open Step

variable (d : Dialect)

/-- A statement is no bracket. In Ruby that takes the names of the methods of forms. -/
theorem stmt_not_mem_brackets {st : Stmt} (h : CallsKnown (.stmt st)) : d.stmt st ∉ d.brackets := by
  cases st with
  | create v className args init =>
    simp only [stmt]
    split
    · exact not_mem_brackets (c := '(') (by simp) (by decide)
    · exact not_mem_brackets (c := '=') (by simp) (by decide)
  | comment text => exact not_mem_brackets (c := ' ') (by simp [stmt, comment]) (by decide)
  | call target method args =>
    cases d with
    | cpp =>
      refine not_mem_brackets (c := '(') ?_ (by decide)
      simp only [stmt, methodCall]
      split <;> simp
    | python => exact not_mem_brackets (c := '(') (by simp [stmt, methodCall]) (by decide)
    | perl => exact not_mem_brackets (c := '(') (by simp [stmt, methodCall]) (by decide)
    | ruby =>
      simp only [stmt, methodCall, statementEnd, String.append_empty]
      split
      · next ht =>
        split
        · cases target with
          | form =>
            have hne := snakeCase_ne_end method h
            simpa [brackets, methodName] using hne
          | var v => cases ht
          | result e => cases ht
        · exact not_mem_brackets (c := '(') (by simp) (by decide)
      · exact not_mem_brackets (c := '.') (by simp) (by decide)

theorem binding_not_mem_brackets {b : Binding} {text : String} (h : d.binding b = some text) :
    text ∉ d.brackets := by
  unfold binding at h
  split at h
  · cases h
  · obtain rfl := Option.some.inj h
    refine not_mem_brackets (c := '(') ?_ (by decide)
    split <;> simp

theorem validatorBinding_not_mem_brackets {control : Var} {v : ValidatorVar} {text : String}
    (h : d.validatorBinding control v = some text) : text ∉ d.brackets := by
  cases d with
  | cpp =>
    obtain rfl := Option.some.inj h
    exact not_mem_brackets (c := '(') (by simp) (by decide)
  | _ => cases h

end Dialect

/-! ## Nested steps -/

namespace Dialect

open Step

variable {d : Dialect}

theorem steps_append (xs ys : List Step) : d.steps (xs ++ ys) = d.steps xs ++ d.steps ys := by
  induction xs with
  | nil => rfl
  | cons x xs ih => rw [List.cons_append, steps, ih, steps, List.append_assoc]

theorem nested_steps {steps : List Step} (h : Each (fun st => d.Nested (d.step st)) steps) :
    d.Nested (d.steps steps) := by
  induction steps with
  | nil => exact .nil
  | cons st rest ih =>
    rw [each_cons] at h
    exact h.1.append (ih h.2)

/-- A line that is there or not. -/
theorem nested_line? {line? : Option String} (h : ∀ text ∈ line?, text ∉ d.brackets) :
    d.Nested (line?.toList.map .line) :=
  .lines fun text ht => h text (Option.mem_toList.1 ht)

theorem nested_step {st : Step} (plain : st.isPlain = true) (known : CallsKnown st) :
    d.Nested (d.step st) := by
  cases st with
  | stmt s => exact .plain (d.stmt_not_mem_brackets known) .nil
  | validate control v => exact nested_line? fun _ => d.validatorBinding_not_mem_brackets
  | gap => exact .plain trivial .nil
  | warn text => exact .nil
  | bind b => cases plain
  | within selector body => cases plain

theorem nested_plain {steps : List Step} (plain : Each (fun st => st.isPlain = true) steps)
    (known : Each CallsKnown steps) : d.Nested (d.steps steps) :=
  nested_steps fun st hst => nested_step (plain st hst) (known st hst)

theorem nested_binds {α : Type} (xs : List α) (f : α → Binding) :
    d.Nested (d.steps (xs.map fun x => .bind (f x))) := by
  refine nested_steps fun st hst => ?_
  obtain ⟨x, -, rfl⟩ := List.mem_map.1 hst
  exact nested_line? fun _ => d.binding_not_mem_brackets

theorem nested_within {body : List Step} (h : d.Nested (d.steps body)) (selector : String) :
    d.Nested (d.step (.within selector body)) := by
  rw [step]
  exact h.onPlatform selector

end Dialect

namespace Site

open Step

mutual

/-- The steps for a node are nested, as are the nodes. -/
theorem nested_planNode (s : Site) (above before : List Item) (b : Branch Item) :
    s.dialect.Nested (s.dialect.steps (s.planNode above before b)) := by
  cases b with
  | mk i cs =>
    unfold planNode
    dsimp only
    split
    · exact .nil
    · next hm =>
      have hm : i.isMenuBuilder = false := by simpa using hm
      split
      · let p : Place := { item := i, children := cs.map Branch.label, above, before }
        have body : s.dialect.Nested (s.dialect.steps
            (s.createNode p ++ s.planAll (i :: above) [] cs ++ s.finish p)) := by
          rw [Dialect.steps_append, Dialect.steps_append]
          exact ((Dialect.nested_plain (plain_createNode hm) (s.callsKnown_createNode p)).append
            (nested_planAll s (i :: above) [] cs)).append
              (Dialect.nested_plain (plain_finish hm) (s.callsKnown_finish p))
        unfold confined
        split
        · rw [Dialect.steps, Dialect.steps, List.append_nil]
          exact Dialect.nested_within body _
        · exact body
      · exact Dialect.nested_plain (plain_unsupported i)
          (by simp [unsupported, CallsKnown])

/-- The steps for siblings are nested. -/
theorem nested_planAll (s : Site) (above before : List Item) (bs : List (Branch Item)) :
    s.dialect.Nested (s.dialect.steps (s.planAll above before bs)) := by
  cases bs with
  | nil => exact .nil
  | cons b bs =>
    rw [planAll, Dialect.steps_append]
    exact (nested_planNode s above before b).append (nested_planAll s above (b.label :: before) bs)

end

end Site

end FormDesign
