import FormDesign.Proofs.Code.Header
import FormDesign.Proofs.Literal

/-!
# The variables of validators

Several nodes may tie their validators to one variable. Each of them writes a line that declares it,
with the type and the initial value that the node has for it, and only lines that are the same are
written once.

* `Dialect.validatorDeclaration_inj`: a line tells its type and initial value, unless the name ends
  like an initializer
* `Form.validators`: the variable of a name, as the nodes of a destination have it
* `Form.validatorDeclaredOnce_iff`: when a variable is declared once under a destination
-/

namespace FormDesign

/-! ## Sorted parts -/

/-- Every part stays sorted and without repetition. -/
theorem Grouped.pairwise_part_insert {g : Grouped String} (h : g.Ordered)
    (sorted : ∀ destination, (g.part destination).Pairwise (· < ·)) (destination : Option String)
    (s : String) (other : Option String) :
    ((g.insert destination s).part other).Pairwise (· < ·) := by
  rw [insert, part_alter h]
  split
  · exact Sorted.pairwise_insert (sorted destination)
  · exact sorted other

namespace MemberTable

variable {d : Dialect} {t : MemberTable}

theorem pairwise_addSpot (h : t.Ordered)
    (sorted : ∀ destination, (t.guarded.part destination).Pairwise (· < ·)) (sp : Spot)
    (destination : Option String) :
    ((t.addSpot d sp).guarded.part destination).Pairwise (· < ·) := by
  have kept : ∀ destination,
      ((t.addVariable d sp).guarded.part destination).Pairwise (· < ·) := by
    unfold addVariable
    dsimp only
    split
    · split
      · exact sorted
      · split
        · exact sorted
        · exact Grouped.pairwise_part_insert h.guarded sorted _ _
    · exact sorted
  unfold addSpot addValidator
  split
  · exact kept destination
  · exact Grouped.pairwise_part_insert h.addVariable.guarded kept _ _ destination

theorem pairwise_foldl (h : t.Ordered)
    (sorted : ∀ destination, (t.guarded.part destination).Pairwise (· < ·)) (spots : List Spot)
    (destination : Option String) :
    ((spots.foldl (addSpot d) t).guarded.part destination).Pairwise (· < ·) := by
  induction spots generalizing t with
  | nil => exact sorted destination
  | cons sp spots ih =>
    rw [List.foldl_cons]
    exact ih h.addVariable.addValidator (pairwise_addSpot h sorted sp)

end MemberTable

/-- No line is twice among the protected members of a destination. -/
theorem Form.nodup_guarded (f : Form) (d : Dialect) (destination : Option String) :
    ((f.members d).guarded.part destination).Nodup := by
  have empty (other : Option String) :
      (MemberTable.empty.guarded.part other).Pairwise (· < ·) := by
    cases other <;> exact List.Pairwise.nil
  have sorted := MemberTable.pairwise_foldl MemberTable.ordered_empty empty
    (spotsOutsideMenusAll f.path f.children) destination (d := d)
  refine List.Pairwise.imp (fun {a b} hlt heq => ?_) sorted
  subst heq
  exact String.lt_irrefl a hlt

/-! ## The initial values of a type -/

namespace InitialValue

/-- Whether a variable with the value is declared without it. -/
def isOmitted : InitialValue → Bool
  | .absent | .text "" => true
  | .bool _ | .number _ | .text _ => false

theorem isOmitted_iff {init : InitialValue} :
    init.isOmitted = true ↔ init = .absent ∨ init = .text "" := by
  unfold isOmitted
  split <;> simp_all

/-- The value is of the form that goes with a type. -/
def IsOf (dataType : String) (init : InitialValue) : Prop :=
  if dataType = "bool" then ∃ b, init = .bool b
  else if Element.numberTypes.contains dataType then init = .absent ∨ ∃ text, init = .number text
  else if dataType = "wxString" || dataType = "wxFileName" then ∃ s, init = .text s
  else init = .absent

variable {dataType : String} {init init' : InitialValue}

/-- Of the values for a type only one is omitted. -/
theorem IsOf.eq_of_isOmitted (h : init.IsOf dataType) (h' : init'.IsOf dataType)
    (omitted : init.isOmitted = true) (omitted' : init'.isOmitted = true) : init = init' := by
  unfold IsOf at h h'
  split_ifs at h h' with bool number text
  · obtain ⟨b, rfl⟩ := h
    cases omitted
  · rcases h with rfl | ⟨_, rfl⟩
    · rcases h' with rfl | ⟨_, rfl⟩
      · rfl
      · cases omitted'
    · cases omitted
  · obtain ⟨s, rfl⟩ := h
    obtain ⟨s', rfl⟩ := h'
    rcases isOmitted_iff.1 omitted with h | h
    · cases h
    · rcases isOmitted_iff.1 omitted' with h' | h'
      · cases h'
      · rw [h, h']
  · rw [h, h']

/-- The others differ in their literals. -/
theorem IsOf.eq_of_literal_eq (h : init.IsOf dataType) (h' : init'.IsOf dataType)
    (written : init.isOmitted = false) (written' : init'.isOmitted = false)
    (literal : Dialect.initialLiteral .cpp init = Dialect.initialLiteral .cpp init') :
    init = init' := by
  unfold IsOf at h h'
  split_ifs at h h' with bool number text
  · obtain ⟨b, rfl⟩ := h
    obtain ⟨b', rfl⟩ := h'
    cases b <;> cases b' <;> first | rfl | exact absurd literal (by decide)
  · rcases h with rfl | ⟨text, rfl⟩
    · cases written
    · rcases h' with rfl | ⟨text', rfl⟩
      · cases written'
      · exact congrArg InitialValue.number literal
  · obtain ⟨s, rfl⟩ := h
    obtain ⟨s', rfl⟩ := h'
    have literal : Dialect.textLiteral .cpp s = Dialect.textLiteral .cpp s' := literal
    have read := (Dialect.isLiteral_textLiteral .cpp s').read
    rw [← literal, (Dialect.isLiteral_textLiteral .cpp s).read] at read
    rw [Option.some.inj read]
  · rw [h, h']

/-- The types whose values may be written. -/
def writtenTypes : List String :=
  "bool" :: Element.numberTypes ++ ["wxString", "wxFileName"]

theorem IsOf.mem_writtenTypes (h : init.IsOf dataType) (written : init.isOmitted = false) :
    dataType ∈ writtenTypes := by
  unfold IsOf at h
  split_ifs at h with bool number text
  · rw [bool]
    exact List.mem_cons_self
  · exact List.mem_append_left _ (List.mem_cons_of_mem _ (by simpa using number))
  · exact List.mem_append_right _ (by simpa using text)
  · rw [h] at written
    cases written

/-- No such type, with a blank behind it, begins another one. -/
theorem eq_of_type_append_eq {type type' : String} (h : type ∈ writtenTypes)
    (h' : type' ∈ writtenTypes) {rest rest' : String}
    (heq : type ++ " " ++ rest = type' ++ " " ++ rest') : type = type' := by
  have apart : ∀ type ∈ writtenTypes, ∀ type' ∈ writtenTypes,
      (type ++ " ").toList <+: (type' ++ " ").toList → type = type' := by decide
  have begins : (type ++ " ").toList <+: (type' ++ " " ++ rest').toList :=
    heq ▸ ⟨rest.toList, String.toList_append.symm⟩
  have begins' : (type' ++ " ").toList <+: (type' ++ " " ++ rest').toList :=
    ⟨rest'.toList, String.toList_append.symm⟩
  rcases List.prefix_or_prefix_of_prefix begins begins' with shorter | shorter
  · exact apart type h type' h' shorter
  · exact (apart type' h' type h shorter).symm

end InitialValue

theorem Element.isOf_initialValue (e : Element) (dataType : String) :
    (e.initialValue dataType).IsOf dataType := by
  unfold initialValue InitialValue.IsOf
  split_ifs
  · exact ⟨_, rfl⟩
  · unfold firstNumber
    dsimp only
    split
    · exact Or.inr ⟨_, rfl⟩
    · exact Or.inl rfl
  all_goals first | exact ⟨_, rfl⟩ | rfl

/-! ## The lines of validator variables -/

attribute [ext] ValidatorVar

namespace ValidatorVar

/-- The variable has a name, and a value that goes with its type. -/
structure Proper (v : ValidatorVar) : Prop where
  named : v.name ≠ ""
  isOf : v.init.IsOf v.dataType

theorem Proper.of_validator? {e : Element} {v : ValidatorVar} (h : e.validator? = some v) :
    v.Proper := by
  unfold Element.validator? at h
  dsimp only at h
  split at h
  · cases h
  · next named =>
    obtain rfl := Option.some.inj h
    exact ⟨named, e.isOf_initialValue _⟩

variable {v v' : ValidatorVar}

theorem validatorDeclaration_of_isOmitted (omitted : v.init.isOmitted = true) :
    Dialect.validatorDeclaration .cpp v = some (v.dataType ++ " " ++ v.name ++ ";") := by
  unfold Dialect.validatorDeclaration
  dsimp only
  rcases InitialValue.isOmitted_iff.1 omitted with h | h <;> simp [h]

theorem validatorDeclaration_of_written (written : v.init.isOmitted = false) :
    Dialect.validatorDeclaration .cpp v = some (v.dataType ++ " "
      ++ (v.name ++ " \x7b " ++ Dialect.initialLiteral .cpp v.init ++ " \x7d") ++ ";") := by
  have other : ¬(v.init = .absent ∨ v.init = .text "") := fun h =>
    Bool.false_ne_true (written.symm.trans (InitialValue.isOmitted_iff.2 h))
  obtain ⟨absent, empty⟩ := not_or.1 other
  have close : " \x7d;" = " \x7d" ++ ";" := by decide
  unfold Dialect.validatorDeclaration
  dsimp only
  split
  · next h => exact absurd h absent
  · next h => exact absurd h empty
  · simp only [close, String.append_assoc]

theorem exists_declaration (v : ValidatorVar) :
    ∃ line, Dialect.validatorDeclaration .cpp v = some line := by
  cases omitted : v.init.isOmitted
  · exact ⟨_, validatorDeclaration_of_written omitted⟩
  · exact ⟨_, validatorDeclaration_of_isOmitted omitted⟩

/-- A declaration without a value is also one with a value only if the name ends like one. -/
theorem getLast?_of_isOmitted (h : v.Proper) (omitted : v.init.isOmitted = true)
    (written : v'.init.isOmitted = false)
    (same : Dialect.validatorDeclaration .cpp v = Dialect.validatorDeclaration .cpp v') :
    v.name.toList.getLast? = some '\x7d' := by
  rw [validatorDeclaration_of_isOmitted omitted, validatorDeclaration_of_written written,
    Option.some_inj, String.append_left_inj] at same
  have last := congrArg (fun s => s.toList.getLast?) same
  simp only [String.toList_append, List.getLast?_append] at last
  have named : v.name.toList.getLast? ≠ none := by
    simpa using h.named
  obtain ⟨c, hc⟩ := Option.ne_none_iff_exists'.1 named
  rw [hc] at last ⊢
  exact last

/-- **A line tells the type and the initial value of its variable**, unless the name ends in a
brace. -/
theorem validatorDeclaration_inj (h : v.Proper) (h' : v'.Proper) (name : v.name = v'.name)
    (same : Dialect.validatorDeclaration .cpp v = Dialect.validatorDeclaration .cpp v') :
    v = v' ∨ v.name.toList.getLast? = some '\x7d' := by
  have isOf := h.isOf
  cases omitted : v.init.isOmitted <;> cases omitted' : v'.init.isOmitted
  · left
    rw [validatorDeclaration_of_written omitted, validatorDeclaration_of_written omitted',
      Option.some_inj, String.append_left_inj] at same
    have type := InitialValue.eq_of_type_append_eq (isOf.mem_writtenTypes omitted)
      (h'.isOf.mem_writtenTypes omitted') same
    rw [type, name, String.append_right_inj, String.append_left_inj, String.append_right_inj]
      at same
    have init := isOf.eq_of_literal_eq (type ▸ h'.isOf) omitted omitted' same
    exact ValidatorVar.ext name type init
  · exact Or.inr (name ▸ getLast?_of_isOmitted h' omitted' omitted same.symm)
  · exact Or.inr (getLast?_of_isOmitted h omitted omitted' same)
  · left
    rw [validatorDeclaration_of_isOmitted omitted, validatorDeclaration_of_isOmitted omitted',
      Option.some_inj, String.append_left_inj, name, String.append_left_inj,
      String.append_left_inj] at same
    have init := isOf.eq_of_isOmitted (same ▸ h'.isOf) omitted omitted'
    exact ValidatorVar.ext name same init

end ValidatorVar

/-! ## The declarations of a form -/

/-- A list without repetition has at most one member if and only if its members are the same. -/
theorem length_le_one_iff_of_nodup {α : Type} {xs : List α} (nodup : xs.Nodup) :
    xs.length ≤ 1 ↔ ∀ a ∈ xs, ∀ b ∈ xs, a = b := by
  match xs, nodup with
  | [], _ => simp
  | [x], _ => simp
  | x :: y :: xs, nodup =>
    obtain ⟨apart, -⟩ := List.nodup_cons.1 nodup
    refine iff_of_false (by simp) fun same => apart ?_
    rw [same x List.mem_cons_self y (List.mem_cons_of_mem x List.mem_cons_self)]
    exact List.mem_cons_self

theorem countP_le_one_iff {α : Type} [DecidableEq α] {xs ys : List α} (nodup : xs.Nodup)
    (sub : ys ⊆ xs) : xs.countP (fun x => decide (x ∈ ys)) ≤ 1 ↔ ∀ a ∈ ys, ∀ b ∈ ys, a = b := by
  have mem {a : α} : a ∈ xs.filter (fun x => decide (x ∈ ys)) ↔ a ∈ ys := by
    rw [List.mem_filter, decide_eq_true_iff]
    exact and_iff_right_of_imp fun h => sub h
  rw [List.countP_eq_length_filter, length_le_one_iff_of_nodup (nodup.filter _)]
  exact ⟨fun same a ha b hb => same a (mem.2 ha) b (mem.2 hb),
    fun same a ha b hb => same a (mem.1 ha) b (mem.1 hb)⟩

namespace Form

variable {f : Form} {name : String} {destination : Option String}

/-- The variable of a name, as the nodes of a destination have it that may declare one. -/
def validators (f : Form) (name : String) (destination : Option String) : List ValidatorVar :=
  ((spotsOutsideMenusAll f.path f.children).filter (·.destination = destination)).filterMap
    fun sp => sp.item.element.validator?.filter (·.name = name)

theorem mem_validators {v : ValidatorVar} : v ∈ f.validators name destination ↔
    ∃ sp, f.Eligible sp ∧ sp.destination = destination ∧
      sp.item.element.validator? = some v ∧ v.name = name := by
  rw [validators, List.mem_filterMap]
  refine exists_congr fun sp => ?_
  rw [List.mem_filter, mem_spotsOutsideMenusAll, decide_eq_true_iff, Option.filter_eq_some_iff,
    decide_eq_true_iff, and_assoc]

/-- The lines that declare the variable. -/
def validatorLines (f : Form) (name : String) (destination : Option String) : List String :=
  (f.validators name destination).filterMap (Dialect.validatorDeclaration .cpp)

/-- **The variable is declared at most once** among the protected members of a destination. -/
def DeclaresValidatorOnce (f : Form) (name : String) (destination : Option String) : Prop :=
  ((f.members .cpp).guarded.part destination).countP
    (fun line => decide (line ∈ f.validatorLines name destination)) ≤ 1

theorem validatorLines_subset : f.validatorLines name destination
    ⊆ (f.members .cpp).guarded.part destination := by
  intro line h
  obtain ⟨v, hv, hline⟩ := List.mem_filterMap.1 h
  obtain ⟨sp, eligible, hdestination, hsp, -⟩ := mem_validators.1 hv
  refine ((f.declaredBy_members .cpp).mem_guarded destination line).2
    ⟨sp, eligible, hdestination, Or.inr ?_⟩
  rw [hsp]
  exact hline

/-- **When a validator variable is declared once under a destination**: its nodes agree on its type
and on its initial value. Only if the name ends in a brace may the line of one also be that of
another. -/
theorem validatorDeclaredOnce_iff (f : Form) (name : String) (destination : Option String) :
    f.validatorLines name destination ⊆ (f.members .cpp).guarded.part destination ∧
      (f.DeclaresValidatorOnce name destination ↔
        ∀ v ∈ f.validators name destination, ∀ v' ∈ f.validators name destination, v = v' ∨
          name.toList.getLast? = some '\x7d' ∧
            Dialect.validatorDeclaration .cpp v = Dialect.validatorDeclaration .cpp v') := by
  refine ⟨validatorLines_subset, ?_⟩
  rw [DeclaresValidatorOnce,
    countP_le_one_iff (f.nodup_guarded .cpp destination) validatorLines_subset]
  constructor
  · intro once v hv v' hv'
    obtain ⟨sp, -, -, hsp, rfl⟩ := mem_validators.1 hv
    obtain ⟨sp', -, -, hsp', hname⟩ := mem_validators.1 hv'
    obtain ⟨line, hline⟩ := v.exists_declaration
    obtain ⟨line', hline'⟩ := v'.exists_declaration
    have same : Dialect.validatorDeclaration .cpp v = Dialect.validatorDeclaration .cpp v' := by
      rw [hline, hline', once line (List.mem_filterMap.2 ⟨v, hv, hline⟩) line'
        (List.mem_filterMap.2 ⟨v', hv', hline'⟩)]
    exact (ValidatorVar.validatorDeclaration_inj (.of_validator? hsp) (.of_validator? hsp')
      hname.symm same).imp_right fun brace => ⟨brace, same⟩
  · intro agree line hline line' hline'
    obtain ⟨v, hv, hvline⟩ := List.mem_filterMap.1 hline
    obtain ⟨v', hv', hvline'⟩ := List.mem_filterMap.1 hline'
    refine Option.some.inj (hvline.symm.trans (Eq.trans ?_ hvline'))
    rcases agree v hv v' hv' with rfl | ⟨-, same⟩
    · rfl
    · exact same

end Form

/-! ## A check box and a text with one variable -/

/-- A control whose validator is tied to the variable. -/
def valuedControl (kind : Kind) (varName : String) : Element where
  kind := kind
  props := [(.varName, varName), (.validatorVariable, "m_value")]
  events := []

/-- A dialog with a check box and a text control. -/
def valuedDesign : Design :=
  .mk (.ofKind .dialog)
    [.mk (valuedControl .checkBox "m_check") [], .mk (valuedControl .textCtrl "m_text") []]

/-- The form of that dialog. -/
def valuedForm : Form where
  node := { Element.ofKind .dialog with id := 0, parent := none, children := [1, 2] }
  children :=
    [.mk
      { node := { valuedControl .checkBox "m_check" with id := 1, parent := some 0, children := [] }
        name := "m_check" }
      [],
    .mk
      { node := { valuedControl .textCtrl "m_text" with id := 2, parent := some 0, children := [] }
        name := "m_text" }
      []]
  above := []

/-- The variable is declared with both types. -/
theorem valuedForm_not_declaresValidatorOnce :
    Form.ofTree (.ofDesign valuedDesign) 0 = .ok valuedForm ∧
      "bool m_value \x7b false \x7d;" ∈ (valuedForm.members .cpp).guarded.common ∧
      "wxString m_value;" ∈ (valuedForm.members .cpp).guarded.common ∧
      ¬valuedForm.DeclaresValidatorOnce "m_value" none := by
  refine ⟨by with_unfolding_all rfl, by decide +kernel, by decide +kernel, ?_⟩
  unfold Form.DeclaresValidatorOnce
  decide +kernel

end FormDesign
