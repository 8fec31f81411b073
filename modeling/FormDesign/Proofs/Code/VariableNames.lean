import FormDesign.Proofs.Code.Spots
import FormDesign.Proofs.Grouped
import FormDesign.Proofs.Reference
import FormDesign.Proofs.Value

/-!
# The names of variables

Nodes keep the names that the design gives them. The others are called after their classes; from the
second node of a base on, the names are numbered.

* `numbered_inj`: numbered names differ, unless base and number are the same
* `nodup_numberedFrom`: the names that are made up for a form are apart
* `perm_assignedFrom`: the names of a form are those given and those made up
* `Form.names_eq`: the name of each node in tree order
* `Form.nodup_names_iff`: when the names of a form are apart
-/

namespace FormDesign

/-! ## Numbered names -/

/-- The number behind the name of the `n`-th node of a base. The first has none. -/
def numberChars (n : Nat) : List Char :=
  if n = 1 then [] else Nat.toDigits 10 n

/-- The name of the `n`-th node of a base. -/
def numbered (base : String) (n : Nat) : String :=
  if n = 1 then base else base ++ toString n

/-- The base does not end in a digit. -/
def EndsPlain (base : String) : Prop :=
  ∀ c ∈ base.toList.getLast?, c.isDigit = false

theorem toList_numbered (base : String) (n : Nat) :
    (numbered base n).toList = base.toList ++ numberChars n := by
  unfold numbered numberChars
  split
  · rw [List.append_nil]
  · rw [String.toList_append, Nat.toString_eq_ofList_toDigits, String.toList_ofList]

theorem isDigit_of_mem_numberChars {n : Nat} {c : Char} (h : c ∈ numberChars n) :
    c.isDigit = true := by
  unfold numberChars at h
  split at h
  · cases h
  · exact Text.Numeral.isDigit_of_mem_toDigits h

theorem numberChars_inj {n n' : Nat} (h : numberChars n = numberChars n') : n = n' := by
  have digits (m : Nat) : Nat.toDigits 10 m ≠ [] := by
    obtain ⟨c, rest, hm, -⟩ := Text.Numeral.exists_toDigits m
    rw [hm]
    exact List.cons_ne_nil c rest
  unfold numberChars at h
  split at h <;> split at h
  · next hn hn' => rw [hn, hn']
  · exact absurd h.symm (digits n')
  · exact absurd h (digits n)
  · calc
      n = Nat.ofDigitChars 10 (Nat.toDigits 10 n) 0 := Nat.ofDigitChars_ten_toDigits.symm
      _ = Nat.ofDigitChars 10 (Nat.toDigits 10 n') 0 := by rw [h]
      _ = n' := Nat.ofDigitChars_ten_toDigits

/-- Without the digits at its end a numbered name is its base. -/
theorem rdropWhile_numbered {base : String} (h : EndsPlain base) (n : Nat) :
    (numbered base n).toList.rdropWhile Char.isDigit = base.toList := by
  have digits : ∀ c ∈ (numberChars n).reverse, c.isDigit = true := fun c hc =>
    isDigit_of_mem_numberChars (List.mem_reverse.1 hc)
  rw [toList_numbered, List.rdropWhile, List.reverse_append,
    List.dropWhile_append_of_pos digits]
  cases hb : base.toList.reverse with
  | nil => rw [List.dropWhile_nil, List.reverse_eq_iff.1 hb]
  | cons c rest =>
    have last : base.toList.getLast? = some c := by
      rw [← List.head?_reverse, hb, List.head?_cons]
    rw [List.dropWhile_cons_of_neg (Bool.eq_false_iff.1 (h c last)), ← hb, List.reverse_reverse]

/-- **Numbered names differ**, unless base and number are the same. -/
theorem numbered_inj {base base' : String} (h : EndsPlain base) (h' : EndsPlain base')
    {n n' : Nat} (heq : numbered base n = numbered base' n') : base = base' ∧ n = n' := by
  have bases : base = base' := by
    rw [← String.toList_inj, ← rdropWhile_numbered h n, heq, rdropWhile_numbered h' n']
  subst bases
  have texts := congrArg String.toList heq
  rw [toList_numbered, toList_numbered] at texts
  exact ⟨rfl, numberChars_inj (List.append_cancel_left texts)⟩

namespace Text

theorem isDigit_toLower {c : Char} (h : isWordChar c = true) : c.toLower.isDigit = c.isDigit :=
  eq_of_beq (of_isWordChar (p := fun c => c.toLower.isDigit == c.isDigit) (by decide +kernel) h)

/-- Outside Unicode's tables small letters are found one by one. -/
theorem Chars.lowerFrom_eq_map {seen s : List Char} (h : IsWord s) :
    lowerFrom seen s = s.map Char.toLower := by
  induction s generalizing seen with
  | nil => rfl
  | cons d rest ih =>
    obtain ⟨first, others⟩ := List.forall_mem_cons.1 h
    have ascii : d.toNat < 128 := toNat_lt_of_isWordChar first
    have sigma : d ≠ 'Σ' := by
      rintro rfl
      exact absurd ascii (by decide)
    rw [lowerFrom, if_neg sigma, lowerChar, if_pos ascii, ih others, List.map_cons]
    rfl

/-- Snake case brings no digits into a name. -/
theorem isDigit_of_mem_snakeCase {s : String} (word : IsWord s.toList)
    (plain : ∀ c ∈ s.toList, c.isDigit = false) :
    ∀ c ∈ (snakeCase s).toList, c.isDigit = false := by
  refine forall_mem_join (List.forall_mem_singleton.2 rfl) fun text htext c hc => ?_
  obtain ⟨w, hw, rfl⟩ := List.mem_map.1 htext
  have letters := Chars.isWord_of_mem_words word hw
  rw [String.toList_ofList, Chars.lower, Chars.lowerFrom_eq_map letters] at hc
  obtain ⟨d, hd, rfl⟩ := List.mem_map.1 hc
  rw [isDigit_toLower (letters d hd)]
  exact plain d (Chars.mem_of_mem_words hw hd)

end Text

theorem Text.mem_of_mem_dropStart {s start : String} {c : Char}
    (h : c ∈ (dropStart s start).toList) : c ∈ s.toList := by
  unfold dropStart at h
  cases drop : dropStart? s start with
  | none => rwa [drop] at h
  | some rest =>
    rw [drop] at h
    rw [eq_append_of_dropStart? drop, String.toList_append]
    exact List.mem_append_right _ h

/-- No class ends in a digit, and no kind without a class. -/
theorem endsPlain_defaultVarName (e : Element) : EndsPlain e.defaultVarName := by
  have classes : ∀ k ∈ Kind.all,
      k.className.toList.all fun c => Text.isWordChar c && !c.isDigit := by
    decide +kernel
  have kinds : ∀ k ∈ Kind.all, k.className = "" →
      k.name.toList.all fun c => Text.isWordChar c && !c.isDigit := by
    decide +kernel
  have chars : ∀ c ∈ (Text.dropStart
      (if e.kind.className = "" then e.kind.name else e.kind.className) "wx").toList,
      Text.isWordChar c = true ∧ c.isDigit = false := by
    intro c hc
    replace hc := Text.mem_of_mem_dropStart hc
    rw [← Bool.not_eq_true', ← Bool.and_eq_true]
    split at hc
    · next unclassed => exact List.all_eq_true.1 (kinds e.kind e.kind.mem_all unclassed) c hc
    · exact List.all_eq_true.1 (classes e.kind e.kind.mem_all) c hc
  intro c hc
  exact Text.isDigit_of_mem_snakeCase (fun c hc => (chars c hc).1) (fun c hc => (chars c hc).2) c
    (List.mem_of_mem_getLast? hc)

/-! ## Names that are made up -/

/-- The names for nodes with these bases, one after the other, when those in `before` had theirs. -/
def numberedFrom (before : List String) : List String → List String
  | [] => []
  | base :: rest =>
    numbered base (before.count base + 1) :: numberedFrom (before ++ [base]) rest

theorem mem_numberedFrom {before bases : List String} {name : String} :
    name ∈ numberedFrom before bases ↔ ∃ base n,
      before.count base < n ∧ n ≤ (before ++ bases).count base ∧ numbered base n = name := by
  induction bases generalizing before with
  | nil =>
    rw [List.append_nil]
    constructor
    · exact nofun
    · rintro ⟨base, n, hlt, hle, -⟩
      omega
  | cons first rest ih =>
    rw [numberedFrom, List.mem_cons, ih, List.append_assoc, List.singleton_append]
    constructor
    · rintro (rfl | ⟨base, n, hlt, hle, rfl⟩)
      · refine ⟨first, _, Nat.lt_succ_self _, ?_, rfl⟩
        rw [List.count_append, List.count_cons_self]
        omega
      · rw [List.count_append] at hlt
        exact ⟨base, n, by omega, hle, rfl⟩
    · rintro ⟨base, n, hlt, hle, rfl⟩
      by_cases hfirst : base = first ∧ n = before.count first + 1
      · exact Or.inl (by rw [hfirst.1, hfirst.2])
      · refine Or.inr ⟨base, n, ?_, hle, rfl⟩
        rw [List.count_append, List.count_singleton]
        split
        · next heq =>
          obtain rfl := eq_of_beq heq
          have other : n ≠ before.count first + 1 := fun hn => hfirst ⟨rfl, hn⟩
          omega
        · omega

/-- **Names that are made up are apart.** -/
theorem nodup_numberedFrom {before bases : List String} (plain : ∀ base ∈ bases, EndsPlain base) :
    (numberedFrom before bases).Nodup := by
  induction bases generalizing before with
  | nil => exact List.nodup_nil
  | cons first rest ih =>
    obtain ⟨hfirst, hrest⟩ := List.forall_mem_cons.1 plain
    refine List.nodup_cons.2 ⟨fun hmem => ?_, ih hrest⟩
    obtain ⟨base, n, hlt, hle, heq⟩ := mem_numberedFrom.1 hmem
    -- a base that is counted further stands in the rest
    have inRest : base ∈ rest := by
      rw [← List.count_pos_iff]
      rw [List.count_append] at hle
      omega
    obtain ⟨rfl, rfl⟩ := numbered_inj (hrest base inRest) hfirst heq
    rw [List.count_append, List.count_singleton_self] at hlt
    omega

/-! ## Names of elements -/

/-- The names that the design gives to these elements. -/
def givenNames (es : List Element) : List String :=
  (es.map Element.varName).filter (· ≠ "")

/-- What those without a name are called after. -/
def nameBases (es : List Element) : List String :=
  (es.filter (·.varName = "")).map Element.defaultVarName

/-- The name of the variable of an element, given those before it: its own, or the next of its
base. -/
def variableName (before : List Element) (e : Element) : String :=
  if e.varName ≠ "" then e.varName
  else numbered e.defaultVarName ((nameBases before).count e.defaultVarName + 1)

/-- The names of the variables of elements that come after others. -/
def assignedFrom (before : List Element) : List Element → List String
  | [] => []
  | e :: es => variableName before e :: assignedFrom (before ++ [e]) es

theorem nameBases_append (es es' : List Element) :
    nameBases (es ++ es') = nameBases es ++ nameBases es' := by
  rw [nameBases, List.filter_append, List.map_append]
  rfl

theorem assignedFrom_append (before es es' : List Element) :
    assignedFrom before (es ++ es')
      = assignedFrom before es ++ assignedFrom (before ++ es) es' := by
  induction es generalizing before with
  | nil => rw [List.append_nil]; rfl
  | cons e es ih =>
    rw [List.cons_append, assignedFrom, assignedFrom, ih, List.append_assoc, List.singleton_append,
      List.cons_append]

/-- **The names of elements are those given and those made up.** -/
theorem perm_assignedFrom (before es : List Element) :
    (assignedFrom before es).Perm
      (givenNames es ++ numberedFrom (nameBases before) (nameBases es)) := by
  induction es generalizing before with
  | nil => exact .nil
  | cons e es ih =>
    have rest := ih (before ++ [e])
    rw [nameBases_append] at rest
    by_cases named : e.varName = ""
    · have base : nameBases (e :: es) = e.defaultVarName :: nameBases es := by
        simp [nameBases, named]
      have given : givenNames (e :: es) = givenNames es := by simp [givenNames, named]
      have single : nameBases [e] = [e.defaultVarName] := by simp [nameBases, named]
      rw [assignedFrom, variableName, if_neg (not_not.2 named), base, given, numberedFrom]
      rw [single] at rest
      exact (rest.cons _).trans List.perm_middle.symm
    · have base : nameBases (e :: es) = nameBases es := by simp [nameBases, named]
      have given : givenNames (e :: es) = e.varName :: givenNames es := by
        simp [givenNames, named]
      have single : nameBases [e] = [] := by simp [nameBases, named]
      rw [assignedFrom, variableName, if_pos named, base, given]
      rw [single, List.append_nil] at rest
      exact rest.cons _

/-- Names are apart when those given are, and none of them is made up for another element. -/
theorem nodup_assignedFrom {es : List Element} :
    (assignedFrom [] es).Nodup ↔ (givenNames es).Nodup ∧
      ∀ base n, 1 ≤ n → n ≤ (nameBases es).count base → numbered base n ∉ givenNames es := by
  have plain : ∀ base ∈ nameBases es, EndsPlain base := by
    intro base hbase
    obtain ⟨e, -, rfl⟩ := List.mem_map.1 hbase
    exact endsPlain_defaultVarName e
  rw [(perm_assignedFrom [] es).nodup_iff, List.nodup_append]
  refine and_congr_right fun _ => ?_
  rw [and_iff_right (nodup_numberedFrom plain)]
  constructor
  · intro apart base n hpos hle given
    exact apart _ given _ (mem_numberedFrom.2 ⟨base, n, hpos, hle, rfl⟩) rfl
  · rintro apart name given made hmade rfl
    obtain ⟨base, n, hpos, hle, rfl⟩ := mem_numberedFrom.1 hmade
    exact apart base n hpos hle given

/-! ## Names of a form -/

/-- The counts say how often each base was used for these elements. -/
structure CountsBases (counts : NameCounts) (before : List Element) : Prop where
  increasing : Sorted.Increasing counts
  get?_eq : ∀ base, (Sorted.get? base counts).getD 0 = (nameBases before).count base

theorem countsBases_nil : CountsBases [] [] where
  increasing := List.Pairwise.nil
  get?_eq _ := rfl

/-- The name of the next node, and the counts after it. -/
theorem nextName_spec {counts : NameCounts} {before : List Element} (h : CountsBases counts before)
    (e : Element) :
    (nextName counts e).1 = variableName before e ∧
      CountsBases (nextName counts e).2 (before ++ [e]) := by
  unfold nextName variableName
  by_cases named : e.varName ≠ ""
  · have bases : nameBases (before ++ [e]) = nameBases before := by
      simp [nameBases, named]
    rw [if_pos named, if_pos named]
    exact ⟨rfl, h.increasing, fun base => by rw [bases, h.get?_eq]⟩
  · have bases : nameBases (before ++ [e]) = nameBases before ++ [e.defaultVarName] := by
      rw [nameBases_append]
      simp [nameBases, not_not.1 named]
    rw [if_neg named, if_neg named, ← h.get?_eq]
    refine ⟨rfl, h.increasing.alter, fun base => ?_⟩
    rw [bases, List.count_append, ← h.get?_eq base]
    dsimp only
    rw [Sorted.put, Sorted.get?_alter _ _ _ h.increasing, List.count_singleton]
    by_cases same : base = e.defaultVarName
    · simp [same]
    · simp [Ne.symm same]

mutual

theorem names_nameBranch {counts : NameCounts} {before : List Element}
    (h : CountsBases counts before) (b : Branch Node) :
    (nameBranch counts b).1.toList.map Item.name
        = assignedFrom before (b.toList.map Node.toElement) ∧
      CountsBases (nameBranch counts b).2 (before ++ b.toList.map Node.toElement) := by
  cases b with
  | mk n cs =>
    obtain ⟨name, step⟩ := nextName_spec h n.toElement
    obtain ⟨names, rest⟩ := names_nameBranches step cs
    unfold nameBranch Branch.toList
    dsimp only
    rw [List.map_cons, List.map_cons, assignedFrom, names, name]
    rw [List.append_assoc, List.singleton_append] at rest
    exact ⟨rfl, rest⟩

/-- The names of the nodes of branches, with the counts after them. -/
theorem names_nameBranches {counts : NameCounts} {before : List Element}
    (h : CountsBases counts before) (bs : List (Branch Node)) :
    (Branch.toListAll (nameBranches counts bs).1).map Item.name
        = assignedFrom before ((Branch.toListAll bs).map Node.toElement) ∧
      CountsBases (nameBranches counts bs).2
        (before ++ (Branch.toListAll bs).map Node.toElement) := by
  cases bs with
  | nil => exact ⟨rfl, (List.append_nil before).symm ▸ h⟩
  | cons b bs =>
    obtain ⟨names, step⟩ := names_nameBranch h b
    obtain ⟨names', rest⟩ := names_nameBranches step bs
    unfold nameBranches Branch.toListAll
    dsimp only
    rw [List.map_append, List.map_append, assignedFrom_append, names, names']
    rw [List.append_assoc] at rest
    exact ⟨rfl, rest⟩

end

namespace Form

variable {f : Form}

/-- The names of the variables of the nodes below the form, in tree order. -/
def names (f : Form) : List String :=
  f.innerSpots.map fun sp => sp.item.name

/-- **The name of each node below a form**: its own, or the next of its base. -/
theorem names_eq {t : Tree} {id : Nat} (hf : ofTree t id = .ok f) :
    f.names = assignedFrom [] f.innerElements := by
  obtain ⟨-, cs, -, -, hchildren, -⟩ := of_ofTree hf
  have items : f.innerSpots.map Spot.item = Branch.toListAll (nameBranches [] cs).1 := by
    rw [innerSpots, map_item_spotsOfAll, hchildren]
  have nodes : f.innerElements = (Branch.toListAll cs).map Node.toElement := by
    have kept := congrArg Branch.toListAll (mapAll_nameBranches [] cs)
    rw [Branch.toListAll_mapAll] at kept
    rw [← kept, List.map_map, ← items, List.map_map]
    rfl
  have assigned := (names_nameBranches countsBases_nil cs).1
  rw [← items, ← nodes, List.map_map] at assigned
  exact assigned

/-- **When the names of a form are apart**: those given are, and none of them is the name that is
made up for another node. Names that are made up are apart in any case. -/
theorem nodup_names_iff {t : Tree} {id : Nat} (hf : ofTree t id = .ok f) :
    f.names = assignedFrom [] f.innerElements ∧
      (f.names.Nodup ↔ (givenNames f.innerElements).Nodup ∧
        ∀ base n, 1 ≤ n → n ≤ (nameBases f.innerElements).count base →
          numbered base n ∉ givenNames f.innerElements) := by
  refine ⟨names_eq hf, ?_⟩
  rw [names_eq hf]
  exact nodup_assignedFrom

end Form

/-! ## Two sizers -/

/-- A box sizer with a name. -/
def namedSizer (name : String) : Element where
  kind := .boxSizer
  props := [(.varName, name)]
  events := []

/-- A dialog with a sizer in another. The outer one has no name. -/
def nestedSizers (name : String) : Design :=
  .mk (.ofKind .dialog) [.mk (.ofKind .verticalBoxSizer) [.mk (namedSizer name) []]]

/-- The form of that dialog. -/
def nestedSizersForm (name : String) : Form where
  node := { Element.ofKind .dialog with id := 0, parent := none, children := [1] }
  children :=
    [.mk
      { node :=
          { Element.ofKind .verticalBoxSizer with id := 1, parent := some 0, children := [2] },
        name := "box_sizer" }
      [.mk
        { node := { namedSizer name with id := 2, parent := some 1, children := [] },
          name := if name ≠ "" then name else "box_sizer2" }
        []]]
  above := []

/-- Without a name the inner sizer is the second of the base. -/
theorem nestedSizers_names_nodup :
    Form.ofTree (.ofDesign (nestedSizers "")) 0 = .ok (nestedSizersForm "") ∧
      (nestedSizersForm "").names = ["box_sizer", "box_sizer2"] ∧
      (nestedSizersForm "").names.Nodup := by
  have hf : Form.ofTree (.ofDesign (nestedSizers "")) 0 = .ok (nestedSizersForm "") := by
    with_unfolding_all rfl
  have apart := (Form.nodup_names_iff hf).2
  refine ⟨hf, by decide +kernel, apart.2 ⟨by decide +kernel, fun base n _ _ => ?_⟩⟩
  have given : givenNames (nestedSizersForm "").innerElements = [] := by decide +kernel
  rw [given]
  exact List.not_mem_nil

/-- The name that is made up for the outer sizer is also that of the inner one. -/
theorem nestedSizers_names_not_nodup :
    Form.ofTree (.ofDesign (nestedSizers "box_sizer")) 0 = .ok (nestedSizersForm "box_sizer") ∧
      givenNames (nestedSizersForm "box_sizer").innerElements = ["box_sizer"] ∧
      (givenNames (nestedSizersForm "box_sizer").innerElements).Nodup ∧
      (nestedSizersForm "box_sizer").names = ["box_sizer", "box_sizer"] ∧
      ¬(nestedSizersForm "box_sizer").names.Nodup := by
  refine ⟨?_, ?_, ?_, ?_, ?_⟩
  · with_unfolding_all rfl
  all_goals decide +kernel

end FormDesign
