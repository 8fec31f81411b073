import FormDesign.Code.Construct.Args
import FormDesign.Proofs.Value

/-!
# Parameters of custom controls

A design gives the parameters of a custom control in parentheses, which are taken off. That goes
character by character, for as long as the text starts with an opening parenthesis or ends with a
closing one. So the pair around the parameters goes alone only if no parenthesis of their own stands
next to it.

* `Text.Chars.isBalanced`: whether the parentheses of a text come in pairs
* `Element.customParameters_enclosed`: what is left of a text in parentheses
* `Element.isBalanced_customParameters`: whether parentheses that come in pairs still do
* `Site.args_enclosed_iff`: when all that the parentheses enclose is left
-/

namespace FormDesign

namespace Text.Chars

/-- Whether the parentheses come in pairs, given how many are open in front. -/
def isBalanced : Nat → List Char → Bool
  | depth, [] => depth == 0
  | depth, '(' :: rest => isBalanced (depth + 1) rest
  | 0, ')' :: _ => false
  | depth + 1, ')' :: rest => isBalanced depth rest
  | depth, _ :: rest => isBalanced depth rest

/-- A character that is no parenthesis. -/
def IsBare (c : Char) : Prop :=
  c ≠ '(' ∧ c ≠ ')'

theorem isBare_of_isBlank {c : Char} (h : isBlank c = true) : IsBare c := by
  constructor <;> rintro rfl <;> cases h

/-- What the pairs skip at any depth. -/
theorem isBare_of_depth {n : Nat} {c : Char} (hopen : c ≠ '(') (hzero : n = 0 → c ≠ ')')
    (hsucc : ∀ m, n = m + 1 → c ≠ ')') : IsBare c := by
  refine ⟨hopen, ?_⟩
  cases n with
  | zero => exact hzero rfl
  | succ n => exact hsucc n rfl

/-! ### Parentheses in pairs -/

section

variable {u : List Char} (h : ∀ c ∈ u, IsBare c)

include h

theorem isBalanced_bare_append (n : Nat) (s : List Char) :
    isBalanced n (u ++ s) = isBalanced n s := by
  induction u with
  | nil => rfl
  | cons c u ih =>
    obtain ⟨⟨hopen, hclose⟩, hu⟩ := List.forall_mem_cons.1 h
    rw [List.cons_append, ← ih hu]
    cases n with
    | zero => rw [isBalanced] <;> simp [hopen, hclose]
    | succ n => rw [isBalanced] <;> simp [hopen, hclose]

theorem isBalanced_append_bare (n : Nat) (s : List Char) :
    isBalanced n (s ++ u) = isBalanced n s := by
  fun_induction isBalanced n s with
  | case1 n => rw [List.nil_append, ← List.append_nil u, isBalanced_bare_append h, isBalanced]
  | case2 n rest ih => exact ih
  | case3 rest => rfl
  | case4 n rest ih => exact ih
  | case5 n c rest hopen hzero hsucc ih =>
    have bare : ∀ d ∈ [c], IsBare d :=
      List.forall_mem_singleton.2 (isBare_of_depth hopen hzero hsucc)
    exact (isBalanced_bare_append bare n (rest ++ u)).trans ih

end

/-- Trimming leaves the pairs alone. -/
theorem isBalanced_trim (n : Nat) (s : List Char) : isBalanced n (trim s) = isBalanced n s := by
  have front : ∀ c ∈ s.takeWhile isBlank, IsBare c :=
    fun c hc => isBare_of_isBlank (List.mem_takeWhile_imp hc)
  have back : ∀ c ∈ (trimStart s).rtakeWhile isBlank, IsBare c :=
    fun c hc => isBare_of_isBlank (List.mem_rtakeWhile_imp hc)
  have parts : s.takeWhile isBlank ++ (trim s ++ (trimStart s).rtakeWhile isBlank) = s := by
    rw [show trim s ++ (trimStart s).rtakeWhile isBlank = trimStart s from
      List.rdropWhile_append_rtakeWhile]
    exact List.takeWhile_append_dropWhile
  conv_rhs => rw [← parts, isBalanced_bare_append front, isBalanced_append_bare back]

/-- Pairs have as many closing parentheses as opening ones. -/
theorem count_of_isBalanced {n : Nat} {s : List Char} (h : isBalanced n s = true) :
    s.count ')' = n + s.count '(' := by
  fun_induction isBalanced n s with
  | case1 n =>
    have closed : n = 0 := beq_iff_eq.1 h
    simp [closed]
  | case2 n rest ih =>
    rw [List.count_cons_of_ne (by decide), List.count_cons_self, ih h]
    omega
  | case3 rest => cases h
  | case4 n rest ih =>
    rw [List.count_cons_self, List.count_cons_of_ne (by decide), ih h]
    omega
  | case5 n c rest hopen hzero hsucc ih =>
    have bare := isBare_of_depth hopen hzero hsucc
    rw [List.count_cons_of_ne bare.2, List.count_cons_of_ne bare.1, ih h]

/-! ## Dropping from a text in parentheses -/

/-- The parentheses in front end before the closing one. -/
theorem dropWhile_concat_of_neg {p : Char → Bool} {c : Char} (h : p c = false) (s : List Char) :
    (s ++ [c]).dropWhile p = s.dropWhile p ++ [c] := by
  rw [List.dropWhile_append, List.dropWhile_cons_of_neg (Bool.eq_false_iff.1 h)]
  cases s.dropWhile p <;> rfl

/-! ## Counting what is left -/

section

variable {p : Char → Bool} {c : Char} (h : p c = false)

include h

/-- Dropping takes nothing but what it is to drop. -/
theorem count_dropWhile (s : List Char) : (s.dropWhile p).count c = s.count c := by
  induction s with
  | nil => rfl
  | cons first rest ih =>
    by_cases dropped : p first = true
    · have hne : first ≠ c := by
        rintro rfl
        rw [h] at dropped
        cases dropped
      rw [List.dropWhile_cons_of_pos dropped, ih, List.count_cons_of_ne hne]
    · rw [List.dropWhile_cons_of_neg dropped]

theorem count_dropEndWhile (s : List Char) : (dropEndWhile p s).count c = s.count c := by
  rw [dropEndWhile, List.count_reverse, count_dropWhile h, List.count_reverse]

end

/-- Trimming takes nothing but blanks. -/
theorem count_trim {c : Char} (solid : isBlank c = false) (s : List Char) :
    (trim s).count c = s.count c := by
  rw [trim, trimEnd, count_dropEndWhile solid, trimStart, count_dropWhile solid]

/-- What is left of a text is not the whole of it if a solid character is missing. -/
theorem trim_ne_of_count_lt {c : Char} (solid : isBlank c = false) {part s : List Char}
    (fewer : part.count c < s.count c) : trim part ≠ trim s := by
  intro h
  rw [← count_trim solid part, ← count_trim solid s, h] at fewer
  exact Nat.lt_irrefl _ fewer

/-- A text without the parentheses at its ends, whatever they belong to. -/
def unparenthesized (s : List Char) : List Char :=
  dropEndWhile (· == ')') (s.dropWhile (· == '('))

theorem unparenthesized_cons (s : List Char) : unparenthesized ('(' :: s) = unparenthesized s := by
  rw [unparenthesized, List.dropWhile_cons_of_pos (by decide), unparenthesized]

theorem unparenthesized_concat (s : List Char) :
    unparenthesized (s ++ [')']) = unparenthesized s := by
  rw [unparenthesized, dropWhile_concat_of_neg (by decide), dropEndWhile_concat_of_pos (by decide),
    unparenthesized]

theorem unparenthesized_sublist (s : List Char) : (unparenthesized s).Sublist s :=
  (List.rdropWhile_prefix _ _).sublist.trans (List.dropWhile_sublist _)

/-- A parenthesis in front is missing. -/
theorem count_unparenthesized_cons_lt (s : List Char) :
    (unparenthesized ('(' :: s)).count '(' < ('(' :: s).count '(' := by
  rw [unparenthesized_cons, List.count_cons_self]
  exact Nat.lt_succ_of_le ((unparenthesized_sublist s).count_le _)

/-- A parenthesis at the end is missing. -/
theorem count_unparenthesized_concat_lt (s : List Char) :
    (unparenthesized (s ++ [')'])).count ')' < (s ++ [')']).count ')' := by
  rw [unparenthesized_concat, List.count_append, List.count_singleton_self]
  exact Nat.lt_succ_of_le ((unparenthesized_sublist s).count_le _)

/-- Without a parenthesis in front only closing ones are missing. -/
theorem count_open_unparenthesized {s : List Char} (first : s.head? ≠ some '(') :
    (unparenthesized s).count '(' = s.count '(' := by
  have front : s.dropWhile (· == '(') = s :=
    dropWhile_eq_self_of_head? fun c hc => beq_false_of_ne (by rintro rfl; exact first hc)
  rw [unparenthesized, front, count_dropEndWhile (by decide)]

/-- Without a parenthesis at the end only opening ones are missing. -/
theorem count_close_unparenthesized {s : List Char} (last : s.getLast? ≠ some ')') :
    (unparenthesized s).count ')' = s.count ')' := by
  have back : dropEndWhile (· == ')') (s.dropWhile (· == '(')) = s.dropWhile (· == '(') := by
    refine dropEndWhile_eq_self_of_getLast? fun c hc => beq_false_of_ne ?_
    rintro rfl
    obtain ⟨front, hfront⟩ := List.dropWhile_suffix (l := s) (· == '(')
    refine last ?_
    rw [← hfront, List.getLast?_append, Option.mem_def.1 hc]
    rfl
  rw [unparenthesized, back, count_dropWhile (by decide)]

theorem unparenthesized_eq_self {s : List Char} (first : s.head? ≠ some '(')
    (last : s.getLast? ≠ some ')') : unparenthesized s = s := by
  have front : s.dropWhile (· == '(') = s :=
    dropWhile_eq_self_of_head? fun c hc => beq_false_of_ne (by rintro rfl; exact first hc)
  have back : dropEndWhile (· == ')') s = s :=
    dropEndWhile_eq_self_of_getLast? fun c hc => beq_false_of_ne (by rintro rfl; exact last hc)
  rw [unparenthesized, front, back]

/-- Nothing but blanks is missing if and only if the text has no parenthesis at its ends. -/
theorem trim_unparenthesized_eq_iff (s : List Char) :
    trim (unparenthesized s) = trim s ↔ s.head? ≠ some '(' ∧ s.getLast? ≠ some ')' := by
  constructor
  · intro kept
    constructor
    · intro first
      obtain ⟨rest, rfl⟩ := List.head?_eq_some_iff.1 first
      exact trim_ne_of_count_lt (by decide) (count_unparenthesized_cons_lt rest) kept
    · intro last
      obtain ⟨front, rfl⟩ := List.getLast?_eq_some_iff.1 last
      exact trim_ne_of_count_lt (by decide) (count_unparenthesized_concat_lt front) kept
  · rintro ⟨first, last⟩
    rw [unparenthesized_eq_self first last]

end Text.Chars

/-! ## Custom controls -/

/-- Of parameters in parentheses, all parentheses at the ends are dropped. -/
theorem Element.customParameters_enclosed {e : Element} {inner : String}
    (given : Text.trim (e.text .parameters) = "(" ++ inner ++ ")") :
    e.customParameters
      = String.ofList (Text.Chars.trim (Text.Chars.unparenthesized inner.toList)) := by
  have text : ("(" ++ inner ++ ")").toList = '(' :: (inner.toList ++ [')']) := by
    simp [String.toList_append]
  rw [customParameters, given, Text.trim, Text.dropEndWhile, Text.dropWhile, String.toList_ofList,
    String.toList_ofList, text, ← Text.Chars.unparenthesized, Text.Chars.unparenthesized_cons,
    Text.Chars.unparenthesized_concat]

/-- Parentheses that come in pairs still do if there are none at the ends, and do not any more if
there is one at one end only. -/
theorem Element.isBalanced_customParameters {e : Element} {inner : String}
    (given : Text.trim (e.text .parameters) = "(" ++ inner ++ ")")
    (balanced : Text.Chars.isBalanced 0 inner.toList = true) :
    (inner.toList.head? ≠ some '(' → inner.toList.getLast? ≠ some ')' →
      Text.Chars.isBalanced 0 e.customParameters.toList = true) ∧
    (¬(inner.toList.head? = some '(' ↔ inner.toList.getLast? = some ')') →
      Text.Chars.isBalanced 0 e.customParameters.toList = false) := by
  rw [customParameters_enclosed given, String.toList_ofList, Text.Chars.isBalanced_trim]
  refine ⟨fun first last => ?_, fun one => ?_⟩
  · rw [Text.Chars.unparenthesized_eq_self first last, balanced]
  · rw [← Bool.not_eq_true]
    intro still
    have before := Text.Chars.count_of_isBalanced balanced
    have after := Text.Chars.count_of_isBalanced still
    by_cases first : inner.toList.head? = some '('
    · have last : inner.toList.getLast? ≠ some ')' := fun last =>
        one ⟨fun _ => last, fun _ => first⟩
      have kept := Text.Chars.count_close_unparenthesized last
      obtain ⟨rest, hinner⟩ := List.head?_eq_some_iff.1 first
      have fewer := Text.Chars.count_unparenthesized_cons_lt rest
      rw [← hinner] at fewer
      omega
    · have last : inner.toList.getLast? = some ')' := by
        by_contra last
        exact one ⟨fun h => absurd h first, fun h => absurd h last⟩
      have kept := Text.Chars.count_open_unparenthesized first
      obtain ⟨front, hinner⟩ := List.getLast?_eq_some_iff.1 last
      have fewer := Text.Chars.count_unparenthesized_concat_lt front
      rw [← hinner] at fewer
      omega

namespace Site

variable {s : Site} {p : Place}

theorem args_eq_raw_iff (custom : p.kind = .customControl) {text : String} (inhabited : text ≠ "") :
    s.args p = [.raw text] ↔ p.element.customParameters = text := by
  unfold args
  rw [custom]
  dsimp only
  split
  · next empty =>
    rw [empty]
    exact ⟨fun h => by simp at h, fun h => absurd h.symm inhabited⟩
  · simp

/-- A custom control whose parameters stand in parentheses, with blanks around them or not, gets
them as its only argument if and only if they have no parenthesis of their own at either end. -/
theorem args_enclosed_iff (custom : p.kind = .customControl) {inner : String}
    (given : Text.trim (p.element.text .parameters) = "(" ++ inner ++ ")")
    (inhabited : Text.trim inner ≠ "") :
    s.args p = [.raw (Text.trim inner)]
      ↔ inner.toList.head? ≠ some '(' ∧ inner.toList.getLast? ≠ some ')' := by
  rw [args_eq_raw_iff custom inhabited, Element.customParameters_enclosed given, Text.trim,
    String.ofList_inj, Text.Chars.trim_unparenthesized_eq_iff]

/-! ## A custom control with calls among its parameters -/

/-- A custom control in a dialog. -/
def customPlace (parameters : String) : Place where
  item :=
    { node :=
        { kind := .customControl
          props := [(.className, "Meter"), (.varName, "m_meter"), (.parameters, parameters)]
          events := [], id := 1, parent := some 0, children := [] }
      name := "m_meter" }
  children := []
  above :=
    [.nameless
      { kind := .dialog, props := [(.className, "Dlg")], events := [], id := 0, parent := none,
        children := [1] }]
  before := []

/-- Where the constructor of that dialog creates it. -/
def pythonSite : Site where
  dialect := .python
  formKind := .dialog
  embedded := []
  inMenu := false

/-- A call in the middle keeps its parentheses. -/
theorem args_customPlace :
    let p := customPlace " ( self, scale(10), wx.ID_ANY ) "
    p.kind = .customControl ∧
      Text.trim (p.element.text .parameters) = "(" ++ " self, scale(10), wx.ID_ANY " ++ ")" ∧
      Text.Chars.isBalanced 0 " self, scale(10), wx.ID_ANY ".toList = true ∧
      pythonSite.args p = [.raw "self, scale(10), wx.ID_ANY"] := by
  intro p
  have given : Text.trim (p.element.text .parameters)
      = "(" ++ " self, scale(10), wx.ID_ANY " ++ ")" := by decide +kernel
  have trimmed : Text.trim " self, scale(10), wx.ID_ANY " = "self, scale(10), wx.ID_ANY" := by
    decide +kernel
  have kept := (args_enclosed_iff (s := pythonSite) (p := p) rfl given (by decide +kernel)).2
    (by decide +kernel)
  exact ⟨rfl, given, by decide +kernel, trimmed ▸ kept⟩

/-- A call at the end loses its closing parenthesis along with the one around the parameters. -/
theorem args_customPlace_ne :
    let p := customPlace "(self, scale(10))"
    p.kind = .customControl ∧
      Text.trim (p.element.text .parameters) = "(" ++ "self, scale(10)" ++ ")" ∧
      Text.trim "self, scale(10)" ≠ "" ∧
      Text.Chars.isBalanced 0 "self, scale(10)".toList = true ∧
      pythonSite.args p = [.raw "self, scale(10"] ∧
      pythonSite.args p ≠ [.raw (Text.trim "self, scale(10)")] := by
  intro p
  have left : p.element.customParameters = "self, scale(10" := by decide +kernel
  refine ⟨rfl, by decide +kernel, by decide +kernel, by decide +kernel,
    (args_eq_raw_iff rfl (by decide)).2 left, fun kept => ?_⟩
  rw [args_eq_raw_iff rfl (by decide +kernel), left] at kept
  exact absurd kept (by decide +kernel)

end Site

end FormDesign
