import FormDesign.Proofs.Code.Header
import FormDesign.Proofs.Code.InlineHandlers
import FormDesign.Proofs.Code.MenuScope

/-!
# Calls through variables in C++

Where a member holds the object itself, C++ calls its methods with a dot, and with an arrow where it
holds a pointer, as local variables do. The header says which members hold objects themselves. Calls
stand in statements and their arguments, in the bindings of events and in those of validators, and
not all of these are written by the same function.

* `Step.calls`: the calls of a step, each with its text
* `Form.exists_line_of_call`: calls are written in the class
* `Form.HeldByValue`: the variables that the header declares as objects
* `Form.fits_of_mem_trace`: construction calls through every variable as the header declares it
* `callsFit_iff`: when all methods of the class do
-/

namespace FormDesign

/-! ## The calls of a step -/

/-- A call of a method through a variable. -/
structure VarCall where
  target : Var
  /-- What is written for the call. -/
  text : String

namespace VarCall

/-- The name of the variable and the sign are what the call begins with. -/
def HasSign (k : VarCall) (sign : String) : Prop :=
  ∃ rest, k.text = k.target.name ++ sign ++ rest

/-- The call is written with a dot exactly if the variable holds the object itself. -/
structure Fits (k : VarCall) (held : Var → Prop) : Prop where
  dot : held k.target → k.HasSign "."
  arrow : ¬held k.target → k.HasSign "->"

variable {k : VarCall} {held : Var → Prop}

theorem not_hasSign_dot (h : k.HasSign "->") : ¬k.HasSign "." := by
  rintro ⟨rest, dot⟩
  obtain ⟨rest', arrow⟩ := h
  rw [arrow, String.append_assoc, String.append_assoc, String.append_right_inj] at dot
  exact absurd (congrArg String.toList dot) (by simp)

theorem fits_of_arrow (h : k.HasSign "->") : k.Fits held ↔ ¬held k.target :=
  ⟨fun fits hheld => not_hasSign_dot h (fits.dot hheld),
    fun none => ⟨fun hheld => absurd hheld none, fun _ => h⟩⟩

end VarCall

/-- The call of a method, if it is one through a variable. -/
def Target.through (text : String) : Target → List VarCall
  | .var v => [{ target := v, text }]
  | .form | .result _ => []

mutual

/-- The calls through variables in an expression. -/
def Expr.calls : Expr → List VarCall
  | .call target method args =>
    target.through (Dialect.cpp.expr (.call target method args)) ++ target.calls
      ++ Expr.callsAll args
  | .new _ _ args => Expr.callsAll args
  | .self | .var _ | .text _ | .int _ | .bool _ | .const _ | .id _ | .size .. | .point ..
  | .bitmap _ | .animation _ | .raw _ | .null => []

/-- The calls through variables in the target of another. -/
def Target.calls : Target → List VarCall
  | .result e => e.calls
  | .form | .var _ => []

/-- The calls through variables in several expressions. -/
def Expr.callsAll : List Expr → List VarCall
  | [] => []
  | e :: rest => e.calls ++ Expr.callsAll rest

end

/-- The calls through variables in a statement. Creation is one where the variable holds the object
itself. -/
def Stmt.calls (st : Stmt) : List VarCall :=
  match st with
  | .create v _ args initMethod =>
    (if initMethod.isSome && v.byValue then [{ target := v, text := Dialect.cpp.stmt st }] else [])
      ++ Expr.callsAll args
  | .call target _ args =>
    target.through (Dialect.cpp.stmt st) ++ target.calls ++ Expr.callsAll args
  | .comment _ => []

/-- The calls through variables in a step. -/
def Step.calls : Step → List VarCall
  | .stmt st => st.calls
  | .bind b =>
    match b.source with
    | .form => []
    | .window v => (Dialect.cpp.binding b).toList.map fun text => { target := v, text }
    | .item id => id.calls
  | .validate control v =>
    (Dialect.cpp.validatorBinding control v).toList.map fun text => { target := control, text }
  | .gap | .within .. | .warn _ => []

/-! ### Their texts -/

theorem Text.infix_join {sep text : String} {texts : List String} (h : text ∈ texts) :
    text.toList <:+: (join sep texts).toList := by
  unfold join
  induction texts with
  | nil => cases h
  | cons first rest ih =>
    cases rest with
    | nil =>
      obtain rfl := List.mem_singleton.1 h
      simp
    | cons next rest =>
      rw [String.intercalate_cons_cons, String.toList_append, String.toList_append]
      rcases List.mem_cons.1 h with rfl | h
      · exact ((List.prefix_append _ _).trans (List.prefix_append _ _)).isInfix
      · exact (ih h).trans (List.suffix_append _ _).isInfix

namespace Dialect

theorem methodCall_cpp (t : String) (byValue : Bool) (method args : String) :
    cpp.methodCall (some t) byValue method args
      = t ++ (if byValue then "." else "->") ++ (method ++ "(" ++ args ++ ")") := rfl

theorem args_infix_methodCall (target : Option String) (byValue : Bool) (method args : String) :
    args.toList <:+: (cpp.methodCall target byValue method args).toList := by
  have call : args.toList <:+: (method ++ "(" ++ args ++ ")").toList := by
    simp only [String.toList_append]
    exact List.infix_append _ _ _
  cases target with
  | none => exact call
  | some t =>
    rw [methodCall_cpp, String.toList_append]
    exact call.trans (List.suffix_append _ _).isInfix

theorem target_infix_methodCall (t : String) (byValue : Bool) (method args : String) :
    t.toList <:+: (cpp.methodCall (some t) byValue method args).toList := by
  rw [methodCall_cpp, String.toList_append, String.toList_append]
  exact ((List.prefix_append _ _).trans (List.prefix_append _ _)).isInfix

theorem args_infix_newObject (token args : String) :
    args.toList <:+: (cpp.newObject token args).toList := by
  unfold newObject
  simp only [String.toList_append]
  exact List.infix_append _ _ _

mutual

theorem infix_expr {e : Expr} {k : VarCall} (h : k ∈ e.calls) :
    k.text.toList <:+: (cpp.expr e).toList := by
  cases e with
  | call target method args =>
    unfold Expr.calls at h
    simp only [List.mem_append] at h
    rcases h with (h | h) | h
    · cases target with
      | var v =>
        obtain rfl := List.mem_singleton.1 h
        exact List.infix_refl _
      | form | result => cases h
    · cases target with
      | result e =>
        unfold Target.calls at h
        rw [expr, Dialect.target]
        exact (infix_expr h).trans (target_infix_methodCall _ _ _ _)
      | form | var => cases h
    · obtain ⟨text, htext, inside⟩ := infix_exprs h
      rw [expr]
      exact (inside.trans (Text.infix_join htext)).trans (args_infix_methodCall _ _ _ _)
  | new className library args =>
    unfold Expr.calls at h
    obtain ⟨text, htext, inside⟩ := infix_exprs h
    rw [expr]
    exact (inside.trans (Text.infix_join htext)).trans (args_infix_newObject _ _)
  | self | var | text | int | bool | const | id | size | point | bitmap | animation | raw | null =>
    cases h

/-- The calls of some expressions are written in one of them. -/
theorem infix_exprs {es : List Expr} {k : VarCall} (h : k ∈ Expr.callsAll es) :
    ∃ text ∈ cpp.exprs es, k.text.toList <:+: text.toList := by
  cases es with
  | nil => cases h
  | cons e es =>
    unfold Expr.callsAll at h
    rw [exprs]
    rcases List.mem_append.1 h with h | h
    · exact ⟨_, List.mem_cons_self, infix_expr h⟩
    · obtain ⟨text, htext, inside⟩ := infix_exprs h
      exact ⟨text, List.mem_cons_of_mem _ htext, inside⟩

end

theorem infix_args {es : List Expr} {k : VarCall} (h : k ∈ Expr.callsAll es) :
    k.text.toList <:+: (cpp.args es).toList := by
  obtain ⟨text, htext, inside⟩ := infix_exprs h
  exact inside.trans (Text.infix_join htext)

theorem infix_stmt {st : Stmt} {k : VarCall} (h : k ∈ st.calls) :
    k.text.toList <:+: (cpp.stmt st).toList := by
  cases st with
  | create v className es initMethod =>
    unfold Stmt.calls at h
    rcases List.mem_append.1 h with own | given
    · split at own
      · obtain rfl := List.mem_singleton.1 own
        exact List.infix_refl _
      · cases own
    · refine (infix_args given).trans ?_
      unfold stmt
      dsimp only
      split
      · simp only [String.toList_append]
        exact (List.infix_append _ _ _).trans (List.prefix_append _ _).isInfix
      · simp only [String.toList_append]
        exact (args_infix_newObject _ _).trans (List.infix_append _ _ _)
  | call target method es =>
    have whole : (cpp.methodCall (cpp.target target) (isValueTarget target) method
        (cpp.args es)).toList <:+: (cpp.stmt (.call target method es)).toList := by
      unfold stmt
      rw [String.toList_append]
      exact (List.prefix_append _ _).isInfix
    unfold Stmt.calls at h
    simp only [List.mem_append] at h
    rcases h with (own | nested) | given
    · cases target with
      | var v =>
        obtain rfl := List.mem_singleton.1 own
        exact List.infix_refl _
      | form | result => cases own
    · cases target with
      | result e =>
        rw [Dialect.target] at whole
        exact ((infix_expr nested).trans (target_infix_methodCall _ _ _ _)).trans whole
      | form | var => cases nested
    · exact ((infix_args given).trans (args_infix_methodCall _ _ _ _)).trans whole
  | comment => cases h

/-- C++ binds every event. -/
theorem binding_cpp (b : Binding) :
    cpp.binding b
      = some (cpp.bindingLine b.source b.event (cpp.handlerRef b.className b.handler)) := by
  rw [binding_eq, if_neg (by simp)]
  rfl

/-- **The calls of a step are written in its text.** -/
theorem calls_written {st : Step} {k : VarCall} (h : k ∈ st.calls) :
    ∃ line, .line line ∈ cpp.step st ∧ k.text.toList <:+: line.toList := by
  cases st with
  | stmt st => exact ⟨_, List.mem_singleton_self _, infix_stmt h⟩
  | bind b =>
    unfold Step.calls at h
    dsimp only at h
    split at h
    · cases h
    · obtain ⟨text, written, rfl⟩ := List.mem_map.1 h
      exact ⟨text, List.mem_map_of_mem written, List.infix_refl _⟩
    · next id source =>
      have written := binding_cpp b
      rw [source] at written
      refine ⟨_, List.mem_map_of_mem (Option.mem_toList.2 written), (infix_expr h).trans ?_⟩
      unfold bindingLine
      simp only [String.toList_append]
      exact List.infix_append _ _ _
  | validate control v =>
    obtain ⟨text, written, rfl⟩ := List.mem_map.1 h
    exact ⟨text, List.mem_map_of_mem written, List.infix_refl _⟩
  | gap | within | warn => cases h

/-! ### Their signs -/

theorem varRef_cpp (v : Var) : cpp.varRef v = v.name := by
  unfold varRef
  split <;> rfl

end Dialect

/-- A call that the variable decides the sign of. -/
def VarCall.Signed (k : VarCall) : Prop :=
  k.HasSign (if k.target.byValue then "." else "->")

theorem VarCall.Signed.fits {k : VarCall} {held : Var → Prop} (h : k.Signed)
    (same : k.target.byValue = true ↔ held k.target) : k.Fits held := by
  unfold VarCall.Signed at h
  constructor
  · intro hheld
    rwa [if_pos (same.2 hheld)] at h
  · intro none
    rwa [if_neg (mt same.1 none)] at h

theorem Target.signed_of_mem_through {target : Target} {text method args rest : String}
    {k : VarCall} (written : text = Dialect.cpp.methodCall (Dialect.cpp.target target)
      (Dialect.isValueTarget target) method args ++ rest)
    (h : k ∈ target.through text) : k.Signed ∧ k.target ∈ target.vars := by
  cases target with
  | var v =>
    obtain rfl := List.mem_singleton.1 h
    refine ⟨⟨method ++ "(" ++ args ++ ")" ++ rest, ?_⟩, List.mem_singleton_self _⟩
    rw [written, Dialect.target, Dialect.methodCall_cpp, Dialect.varRef_cpp, String.append_assoc]
    rfl
  | form | result => cases h

mutual

theorem Expr.signed_of_mem_calls {e : Expr} {k : VarCall} (h : k ∈ e.calls) :
    k.Signed ∧ k.target ∈ e.vars := by
  cases e with
  | call target method args =>
    unfold Expr.calls at h
    simp only [List.mem_append] at h
    unfold Expr.vars
    rcases h with (own | nested) | given
    · have written : Dialect.cpp.expr (.call target method args)
          = Dialect.cpp.methodCall (Dialect.cpp.target target) (Dialect.isValueTarget target) method
            (Text.join ", " (Dialect.cpp.exprs args)) ++ "" := by
        rw [Dialect.expr, String.append_empty]
      exact (Target.signed_of_mem_through written own).imp_right (List.mem_append_left _)
    · exact (Target.signed_of_mem_calls nested).imp_right (List.mem_append_left _)
    · exact (Expr.signed_of_mem_callsAll given).imp_right (List.mem_append_right _)
  | new className library args =>
    unfold Expr.calls at h
    unfold Expr.vars
    exact Expr.signed_of_mem_callsAll h
  | self | var | text | int | bool | const | id | size | point | bitmap | animation | raw | null =>
    cases h

theorem Target.signed_of_mem_calls {target : Target} {k : VarCall} (h : k ∈ target.calls) :
    k.Signed ∧ k.target ∈ target.vars := by
  cases target with
  | result e =>
    unfold Target.calls at h
    unfold Target.vars
    exact Expr.signed_of_mem_calls h
  | form | var => cases h

/-- The calls of expressions have the sign of their variable. -/
theorem Expr.signed_of_mem_callsAll {es : List Expr} {k : VarCall} (h : k ∈ Expr.callsAll es) :
    k.Signed ∧ k.target ∈ Expr.varsAll es := by
  cases es with
  | nil => cases h
  | cons e es =>
    unfold Expr.callsAll at h
    unfold Expr.varsAll
    rcases List.mem_append.1 h with h | h
    · exact (Expr.signed_of_mem_calls h).imp_right (List.mem_append_left _)
    · exact (Expr.signed_of_mem_callsAll h).imp_right (List.mem_append_right _)

end

/-- The calls of a statement have the sign of their variable, which it refers to or creates. -/
theorem Stmt.signed_of_mem_calls {st : Stmt} {k : VarCall} (h : k ∈ st.calls) :
    k.Signed ∧
      (k.target ∈ st.mentions ∨ ∃ className, st.creation? = some (k.target, className)) := by
  cases st with
  | create v className es initMethod =>
    unfold Stmt.calls at h
    rcases List.mem_append.1 h with own | given
    · split at own
      · next hv =>
        obtain rfl := List.mem_singleton.1 own
        obtain ⟨hinit, byValue⟩ := Bool.and_eq_true_iff.1 hv
        obtain ⟨method, rfl⟩ := Option.isSome_iff_exists.1 hinit
        have written : Dialect.cpp.stmt (.create v className es (some method))
            = v.name ++ "." ++ (method ++ "(" ++ Dialect.cpp.args es ++ ")"
              ++ Dialect.cpp.statementEnd) := by
          unfold Dialect.stmt
          simp only [byValue, Dialect.holdsByValue, Bool.and_self, String.append_assoc]
        refine ⟨?_, Or.inr ⟨className, rfl⟩⟩
        unfold VarCall.Signed
        rw [if_pos byValue]
        exact ⟨_, written⟩
      · cases own
    · exact (Expr.signed_of_mem_callsAll given).imp_right Or.inl
  | call target method es =>
    unfold Stmt.calls at h
    simp only [List.mem_append] at h
    unfold Stmt.mentions
    rcases h with (own | nested) | given
    · exact (Target.signed_of_mem_through rfl own).imp_right
        fun hv => Or.inl (List.mem_append_left _ hv)
    · exact (Target.signed_of_mem_calls nested).imp_right
        fun hv => Or.inl (List.mem_append_left _ hv)
    · exact (Expr.signed_of_mem_callsAll given).imp_right
        fun hv => Or.inl (List.mem_append_right _ hv)
  | comment => cases h

/-! ## What the header declares -/

namespace Form

variable {f : Form} {d : Dialect} {c : Collected} {images : List Asset} {v : Var}

/-- The header declares the variable as a member that is the object itself. -/
def HeldByValue (f : Form) (v : Var) : Prop :=
  ∃ sp a line, f.Eligible sp ∧ sp.item.var = v ∧ sp.Declares .cpp a line ∧
    (sp.declaration .cpp).byValue = true

theorem byValue_var_iff {i : Item} :
    i.var.byValue = true ↔ (Access.of i.element).isMember = true ∧ i.kind = .timer := by
  unfold Item.var
  rw [Bool.and_eq_true, beq_iff_eq]

theorem HeldByValue.byValue (h : f.HeldByValue v) : v.byValue = true := by
  obtain ⟨sp, a, line, -, rfl, declares, value⟩ := h
  have value : (resolveClass .cpp sp.item.element).byValue = true := value
  rw [byValue_resolveClass, beq_iff_eq] at value
  exact byValue_var_iff.2 ⟨declares.access ▸ declares.isMember, value⟩

/-- Outside of menus, members that hold an object themselves are declared so. -/
theorem Eligible.heldByValue {sp : Spot} (h : f.Eligible sp) (hv : sp.item.var.byValue = true) :
    f.HeldByValue sp.item.var := by
  obtain ⟨isMember, timer⟩ := byValue_var_iff.1 hv
  have hasClass : sp.item.kind.hasClass = true := by
    rw [timer]
    rfl
  have value : (sp.declaration .cpp).byValue = true := by
    have timer : sp.item.element.kind = .timer := timer
    exact (byValue_resolveClass .cpp sp.item.element).trans (beq_iff_eq.2 timer)
  exact ⟨sp, _, _, h, rfl, ⟨rfl, isMember, hasClass, rfl⟩, value⟩

/-! ## Construction -/

theorem byValue_var_site {s : Site} {i : Item} (h : (s.var i).byValue = true) :
    i.kind = .timer ∧ s.var i = i.var := by
  unfold Site.var at h ⊢
  split at h
  · cases h
  · next local? =>
    rw [if_neg local?]
    exact ⟨(byValue_var_iff.1 h).2, rfl⟩

/-- What is created is declared by value if it is held so. -/
theorem heldByValue_of_created (hv : v ∈ Traced.created (f.trace d images))
    (byValue : v.byValue = true) : f.HeldByValue v := by
  obtain ⟨x, hx, className, hcr⟩ := Traced.mem_created.1 hv
  have hv := Traced.mem_created.2 ⟨x, mem_traceAll_of_creation hx hcr, className, hcr⟩
  obtain ⟨-, -, p, -, hplace, -, ⟨-, rfl⟩ | ⟨-, rfl⟩⟩ := Site.exists_place_of_created hv
  · obtain ⟨-, same⟩ := byValue_var_site byValue
    rw [same] at byValue ⊢
    exact (mem_spotsOutsideMenusAll.1 hplace).heldByValue byValue
  · cases byValue

/-- No stray is held by value: those are no timers. -/
theorem byValue_of_mem_strays {s : Site} {p : Place} (hv : v ∈ s.strays p) :
    v.byValue = false := by
  rw [Bool.eq_false_iff]
  intro byValue
  simp only [Site.strays, List.mem_append] at hv
  rcases hv with ((hv | hv) | hv) | hv
  · unfold Site.strayMenu at hv
    split at hv
    · cases hv
    · split at hv
      · obtain rfl := List.mem_singleton.1 hv
        cases byValue
      · cases hv
  · obtain ⟨book, hfind, -, rfl⟩ := Site.book_of_mem_strayBook hv
    have isBook := List.find?_some hfind
    rw [(byValue_var_site byValue).1] at isBook
    cases isBook
  · unfold Site.strayPanes at hv
    split at hv
    · obtain ⟨i, hi, rfl⟩ := List.mem_map.1 hv
      have pane := (List.mem_filter.1 (List.mem_of_mem_take (List.mem_filter.1 hi).1)).2
      rw [(byValue_var_site byValue).1] at pane
      cases pane
    · cases hv
  · unfold Site.strayOwner at hv
    split at hv
    · cases hv
    · next i above ha =>
      split at hv
      · next hk =>
        obtain rfl := List.mem_singleton.1 hv
        have keeps : Site.keeps i above = true := by
          simp [Site.keeps, (byValue_var_site byValue).1, Kind.category]
        rw [keeps, Bool.not_true, Bool.and_false] at hk
        cases hk
      · cases hv

/-- A variable that construction refers to or creates is held by value if it is declared so. -/
theorem heldByValue_of_mention (form : f.node.kind.isForm = true) {x : Traced}
    (hx : x ∈ f.trace d images) (hv : v ∈ x.step.mentions) (byValue : v.byValue = true) :
    f.HeldByValue v := by
  obtain ⟨before, after, heq⟩ := List.append_of_mem hx
  rcases created_or_stray form heq hv with made | stray
  · exact heldByValue_of_created (Traced.mem_created_of_before heq made) byValue
  · obtain ⟨p, -, stray, -⟩ := place_of_mem_straysOf form hx stray
    cases byValue.symm.trans (byValue_of_mem_strays stray)

/-- Validators are written with an arrow. -/
theorem arrow_of_mem_calls_validate {control : Var} {w : ValidatorVar} {k : VarCall}
    (hk : k ∈ (Step.validate control w).calls) : k.target = control ∧ k.HasSign "->" := by
  obtain ⟨text, written, rfl⟩ := List.mem_map.1 hk
  obtain rfl := Option.some.inj (Option.mem_toList.1 written)
  refine ⟨rfl, "SetValidator(wxGenericValidator(&" ++ w.name ++ "));", ?_⟩
  simp only [Dialect.varRef_cpp, String.append_assoc]
  rfl

/-- Validators are tied to no timers. -/
theorem byValue_of_validate {x : Traced} (hx : x ∈ f.trace d images) {w : ValidatorVar}
    (hs : x.step = .validate v w) : v.byValue = false := by
  have notForm {steps : List Step} (h : Step.Each (fun st => st.ties = false) steps)
      (plain : Step.Each (fun st => st.isPlain = true) steps) :
      x ∉ Traced.mark [] (.node f.place) steps := fun hmem => by
    have none := h _ ((Traced.mem_mark_of_plain plain).1 hmem).2.2
    rw [hs] at none
    cases none
  have settings : Step.Each (Step.Uses fun _ => True) ((f.site d images).formSettings f.element) :=
    Site.uses_formSettings _
  have finish : Step.Each (Step.Uses fun _ => True) (Site.formFinish f.element) :=
    Site.uses_formFinish _
  rw [trace, List.mem_append, List.mem_append] at hx
  rcases hx with (hx | hx) | hx
  · exact absurd hx (notForm (Site.not_ties_formSettings _) (settings.imp fun _ h => h.plain))
  · obtain ⟨i, rfl, notTimer⟩ := Site.exists_of_validate hx hs
    exact Bool.eq_false_iff.2 fun byValue => notTimer (byValue_var_site byValue).1
  · exact absurd hx (notForm (Site.not_ties_formFinish _) (finish.imp fun _ h => h.plain))

/-- **Construction calls through every variable as the header declares it.** -/
theorem fits_of_mem_trace (form : f.node.kind.isForm = true) {x : Traced}
    (hx : x ∈ f.trace .cpp images) {k : VarCall} (hk : k ∈ x.step.calls) :
    k.Fits f.HeldByValue := by
  have plain := isPlain_of_mem_trace hx
  cases hs : x.step with
  | stmt st =>
    rw [hs] at hk
    obtain ⟨signed, target⟩ := Stmt.signed_of_mem_calls hk
    refine signed.fits ⟨fun byValue => ?_, HeldByValue.byValue⟩
    rcases target with mention | ⟨className, creation⟩
    · exact heldByValue_of_mention form hx (by rwa [hs]) byValue
    · have made : k.target ∈ Traced.created (f.trace .cpp images) :=
        Traced.mem_created.2 ⟨x, hx, className, by rwa [hs]⟩
      exact heldByValue_of_created made byValue
  | validate control w =>
    rw [hs] at hk
    obtain ⟨rfl, arrow⟩ := arrow_of_mem_calls_validate hk
    exact (VarCall.fits_of_arrow arrow).2 fun held =>
      Bool.noConfusion (held.byValue.symm.trans (byValue_of_validate hx hs))
  | bind | within => rw [hs] at plain; cases plain
  | gap | warn => rw [hs] at hk; cases hk

/-! ## Bindings -/

/-- A binding calls through the window that its event comes from, if it comes from one. -/
theorem mem_calls_bind {b : Binding} {i : Item} (source : b.source = i.bindSource) {k : VarCall} :
    k ∈ (Step.bind b).calls ↔
      i.bindSource = .window k.target ∧ Dialect.cpp.binding b = some k.text := by
  have calls : (Step.bind b).calls
      = match i.bindSource with
        | .form => []
        | .window v => (Dialect.cpp.binding b).toList.map fun text => { target := v, text }
        | .item id => id.calls := by
    rw [← source]
    rfl
  rw [calls]
  cases hi : i.bindSource with
  | form => simp
  | window v =>
    obtain ⟨target, text⟩ := k
    simp [and_comm, eq_comm]
  | item id =>
    refine ⟨fun hk => ?_, fun h => nomatch h.1⟩
    have mention := (Expr.signed_of_mem_calls hk).2
    rw [vars_of_bindSource hi] at mention
    cases mention

/-- Bindings are written with an arrow. -/
theorem arrow_of_mem_calls_bind {b : Binding} {i : Item} (source : b.source = i.bindSource)
    {k : VarCall} (hk : k ∈ (Step.bind b).calls) : k.HasSign "->" := by
  obtain ⟨window, written⟩ := (mem_calls_bind source).1 hk
  rw [Dialect.binding_cpp, source, window] at written
  refine ⟨"Bind(" ++ b.event ++ ", " ++ Dialect.cpp.handlerRef b.className b.handler ++ ");", ?_⟩
  rw [← Option.some.inj written]
  unfold Dialect.bindingLine
  simp only [Dialect.varRef_cpp, String.append_assoc]
  rfl

/-- A binding calls through a window, whatever its event. -/
theorem exists_mem_calls_bind {b : Binding} {i : Item} (source : b.source = i.bindSource) {v : Var}
    (window : i.bindSource = .window v) : ∃ k ∈ (Step.bind b).calls, k.target = v :=
  ⟨{ target := v, text := _ }, (mem_calls_bind source).2 ⟨window, Dialect.binding_cpp b⟩, rfl⟩

theorem eq_var_of_bindSource {i : Item} (h : i.bindSource = .window v) : v = i.var := by
  unfold Item.bindSource at h
  split at h
  · cases h
  · split at h
    · cases h
    · cases h
    · exact (BindSource.window.inj h).symm

theorem bindSource_of_timer {i : Item} (h : i.kind = .timer) : i.bindSource = .window i.var := by
  unfold Item.bindSource
  rw [h]
  rfl

section Events

variable {destination : Option String} {u : EventUse}

theorem constructor_mem_spotEvents {inMenu : Bool} {sp : Spot}
    (h : (BindPlace.constructor destination, u) ∈ spotEvents inMenu sp) :
    inMenu = false ∧ u.spot = sp := by
  obtain ⟨event, -, heq⟩ := List.mem_map.1 h
  obtain ⟨place, rfl⟩ := Prod.mk.inj heq
  cases inMenu with
  | true => cases place
  | false => exact ⟨rfl, rfl⟩

mutual

theorem outside_of_mem_nodeEvents {inMenu : Bool} {above : List Item} {b : Branch Item}
    (h : (BindPlace.constructor destination, u) ∈ nodeEvents inMenu above b) :
    inMenu = false ∧ u.spot ∈ spotsOutsideMenus above b := by
  cases b with
  | mk i cs =>
    unfold nodeEvents at h
    unfold spotsOutsideMenus
    split at h
    · exact absurd h (notMem_entryEventsAll cs)
    · next hm =>
      rw [if_neg hm]
      rcases List.mem_append.1 h with own | below
      · obtain ⟨outside, heq⟩ := constructor_mem_spotEvents own
        exact ⟨outside, List.mem_cons.2 (Or.inl heq)⟩
      · exact (outside_of_mem_nodeEventsAll below).imp_right (List.mem_cons_of_mem _)

/-- What the constructor binds stands outside of menus. -/
theorem outside_of_mem_nodeEventsAll {inMenu : Bool} {above : List Item} {bs : List (Branch Item)}
    (h : (BindPlace.constructor destination, u) ∈ nodeEventsAll inMenu above bs) :
    inMenu = false ∧ u.spot ∈ spotsOutsideMenusAll above bs := by
  cases bs with
  | nil => cases h
  | cons b bs =>
    unfold nodeEventsAll at h
    unfold spotsOutsideMenusAll
    rcases List.mem_append.1 h with h | h
    · exact (outside_of_mem_nodeEvents h).imp_right (List.mem_append_left _)
    · exact (outside_of_mem_nodeEventsAll h).imp_right (List.mem_append_right _)

theorem notMem_entryEvents {above : List Item} (b : Branch Item) :
    (BindPlace.constructor destination, u) ∉ entryEvents above b := by
  cases b with
  | mk i cs =>
    unfold entryEvents
    intro h
    rcases List.mem_append.1 h with own | below
    · cases (constructor_mem_spotEvents own).1
    · cases (outside_of_mem_nodeEventsAll below).1

theorem notMem_entryEventsAll {above : List Item} (bs : List (Branch Item)) :
    (BindPlace.constructor destination, u) ∉ entryEventsAll above bs := by
  cases bs with
  | nil => exact List.not_mem_nil
  | cons b bs =>
    unfold entryEventsAll
    intro h
    rcases List.mem_append.1 h with h | h
    · exact notMem_entryEvents b h
    · exact notMem_entryEventsAll bs h

end

end Events

/-- Where the constructor binds an event of a member that holds its object itself, the header
declares that member so. -/
theorem heldByValue_of_bound (form : f.node.kind.isForm = true) {u : EventUse}
    (hu : u ∈ f.events.sort.bound.toList) (byValue : u.item.var.byValue = true) :
    f.HeldByValue u.item.var := by
  rw [← Grouped.map_snd_entries] at hu
  obtain ⟨⟨destination, _⟩, entry, rfl⟩ := List.mem_map.1 hu
  have outside := (outside_of_mem_nodeEvents (mem_entries_bound.1 entry)).2
  dsimp only at outside byValue ⊢
  unfold branch spotsOutsideMenus at outside
  rw [if_neg (by rw [not_isMenuBuilder_item form]; exact Bool.false_ne_true)] at outside
  rcases List.mem_cons.1 outside with heq | inner
  · -- the form is no timer
    have timer := (byValue_var_iff.1 byValue).2
    rw [EventUse.item, heq] at timer
    have form : f.item.kind.isForm = true := form
    rw [timer] at form
    cases form
  · exact (mem_spotsOutsideMenusAll.1 inner).heldByValue byValue

/-- The items whose events the constructor binds: those of its own events, and those that have a
context menu. -/
inductive Binds (f : Form) (events : EventTables) : Item → Prop
  | event {u : EventUse} (mem : u ∈ events.bound.toList) : Binds f events u.item
  | menu {builder : Spot} {owner : Item} (mem : builder ∈ f.menuBuilders)
    (owns : owner ∈ builder.above.head?) : Binds f events owner

variable {events : EventTables} {x : Traced}

theorem exists_of_mem_traceBindings (hx : x ∈ f.traceBindings events) :
    ∃ b i, x.step = .bind b ∧ b.source = i.bindSource ∧ f.Binds events i := by
  rw [traceBindings_eq, List.mem_append] at hx
  rcases hx with hx | hx
  · obtain ⟨⟨destination, u⟩, hu, rfl⟩ := List.mem_map.1 hx
    refine ⟨_, u.item, rfl, rfl, .event ?_⟩
    rw [← Grouped.map_snd_entries]
    exact List.mem_map_of_mem hu
  · obtain ⟨builder, hbuilder, hx⟩ := List.mem_filterMap.1 hx
    obtain ⟨b, hb, rfl⟩ := Option.map_eq_some_iff.1 hx
    obtain ⟨owner, howner, rfl⟩ := Option.map_eq_some_iff.1 hb
    exact ⟨_, owner, rfl, rfl, .menu hbuilder howner⟩

theorem Binds.exists_mem_traceBindings {i : Item} (h : f.Binds events i) :
    ∃ x ∈ f.traceBindings events, ∃ b, x.step = .bind b ∧ b.source = i.bindSource := by
  rw [traceBindings_eq]
  cases h with
  | event mem =>
    rw [← Grouped.map_snd_entries] at mem
    obtain ⟨⟨destination, _⟩, entry, rfl⟩ := List.mem_map.1 mem
    exact ⟨_, List.mem_append_left _ (List.mem_map_of_mem entry), _, rfl, rfl⟩
  | @menu builder _ mem owns =>
    have binding : f.menuBinding? builder = some
        { event := "wxEVT_CONTEXT_MENU", handler := menuHandler builder, className := f.className,
          source := i.bindSource } := by
      rw [menuBinding?, Option.mem_def.1 owns]
      rfl
    have bound := congrArg
      (Option.map fun b => ({ blocks := [], origin := .menu builder, step := .bind b } : Traced))
      binding
    exact ⟨_, List.mem_append_right _ (List.mem_filterMap.2 ⟨builder, mem, bound⟩), _, rfl, rfl⟩

/-! ## All methods -/

/-- The calls of the methods are written in the class. -/
theorem exists_line_of_call {o : Options} {xs : List Traced} (hxs : xs ∈ f.traces .cpp c)
    (hx : x ∈ xs) {k : VarCall} (hk : k ∈ x.step.calls) :
    ∃ line, .line line ∈ f.classEdits .cpp (f.classInfo o c.events) c ∧
      k.text.toList <:+: line.toList := by
  have leaves : xs.map Traced.erase ∈ (f.methods .cpp c).map (Step.leavesAll []) := by
    rw [leavesAll_methods]
    exact List.mem_map_of_mem hxs
  obtain ⟨steps, hsteps, heq⟩ := List.mem_map.1 leaves
  have leaf : (x.blocks, x.step) ∈ Step.leavesAll [] steps := by
    rw [heq]
    exact List.mem_map_of_mem hx
  obtain ⟨line, written, inside⟩ := Dialect.calls_written hk
  exact ⟨line, mem_classEdits_of_leaf hsteps leaf written, inside⟩

/-- What the class calls through variables, it calls as the header declares them. The variables of
context menus are local to their handlers. -/
structure CallsFit (f : Form) (c : Collected) : Prop where
  constructor : ∀ x ∈ f.traceConstructor .cpp c, ∀ k ∈ x.step.calls, k.Fits f.HeldByValue
  menus : ∀ menu ∈ f.menuBranches, ∀ x ∈ f.traceMenu .cpp c menu.1 menu.2, ∀ k ∈ x.step.calls,
    k.Fits fun _ => False

theorem byValue_of_created_menu {menu : List Item × Branch Item}
    (hv : v ∈ Traced.created (f.traceMenu d c menu.1 menu.2)) : v.byValue = false := by
  rw [eq_temporary_of_mem_created hv]
  rfl

/-- In the handlers of context menus no statement refers to a variable that holds its object
itself. -/
theorem byValue_of_mention_menu {menu : List Item × Branch Item} (hmenu : menu ∈ f.menuBranches)
    (hx : x ∈ f.traceMenu d c menu.1 menu.2) (hv : v ∈ x.step.mentions) : v.byValue = false := by
  obtain ⟨before, after, heq⟩ := List.append_of_mem hx
  have builder := isMenuBuilder_of_mem_menuBranches hmenu
  rcases created_or_foreign builder heq (x.step.mentions_subset_refers hv) with
    made | foreign | ⟨u, -, rfl, -⟩
  · exact byValue_of_created_menu (Traced.mem_created_of_before heq made)
  · rcases List.mem_append.1 (of_decide_eq_true (List.mem_filter.1 foreign).2) with stray | around
    · obtain ⟨p, -, -, stray⟩ := Site.exists_node_of_mem_straysOf stray
      exact byValue_of_mem_strays stray
    · obtain ⟨-, i, rest, -, -, hobject⟩ := Site.mem_around around
      rcases Site.objectVar?_cases hobject with rfl | ⟨-, rfl⟩ <;> rfl
  · cases hv

/-- **The handlers of context menus call through their variables with arrows.** -/
theorem fits_of_mem_traceMenu {menu : List Item × Branch Item} (hmenu : menu ∈ f.menuBranches)
    (hx : x ∈ f.traceMenu .cpp c menu.1 menu.2) {k : VarCall} (hk : k ∈ x.step.calls) :
    k.Fits fun _ => False := by
  have arrow (h : k.HasSign "->") : k.Fits fun _ => False :=
    (VarCall.fits_of_arrow h).2 not_false
  cases hs : x.step with
  | stmt st =>
    rw [hs] at hk
    obtain ⟨signed, target⟩ := Stmt.signed_of_mem_calls hk
    have pointer : k.target.byValue = false := by
      rcases target with mention | ⟨className, creation⟩
      · exact byValue_of_mention_menu hmenu hx (by rwa [hs])
      · exact byValue_of_created_menu (Traced.mem_created.2 ⟨x, hx, className, by rwa [hs]⟩)
    refine signed.fits ⟨fun byValue => ?_, False.elim⟩
    cases byValue.symm.trans pointer
  | validate control w =>
    rw [hs] at hk
    exact arrow (arrow_of_mem_calls_validate hk).2
  | bind b =>
    rcases mem_traceMenu hx with ⟨-, plain⟩ | hnode | ⟨u, -, rfl⟩
    · rw [hs] at plain
      cases plain
    · have plain := Site.isPlain_of_mem_traceAll hnode
      rw [hs] at plain
      cases plain
    · exact arrow (arrow_of_mem_calls_bind (b := f.binding u) rfl hk)
  | gap | within | warn => rw [hs] at hk; cases hk

theorem callsFit_iff_binds (form : f.node.kind.isForm = true) :
    f.CallsFit c ↔ ∀ i, f.Binds c.events i → ¬f.HeldByValue i.var := by
  constructor
  · intro fit i binds held
    obtain ⟨x, hx, b, hs, source⟩ := binds.exists_mem_traceBindings
    have timer := (byValue_var_iff.1 held.byValue).2
    obtain ⟨k, hk, target⟩ := exists_mem_calls_bind source (bindSource_of_timer timer)
    have fits := fit.constructor x (List.mem_append_right _ hx) k (hs ▸ hk)
    refine (VarCall.fits_of_arrow (arrow_of_mem_calls_bind source hk)).1 fits ?_
    rwa [target]
  · intro none
    refine ⟨fun x hx k hk => ?_, fun menu hmenu x hx k hk => fits_of_mem_traceMenu hmenu hx hk⟩
    rw [traceConstructor, List.mem_append, List.mem_append] at hx
    rcases hx with (hx | hx) | hx
    · exact fits_of_mem_trace form hx hk
    · obtain rfl := List.mem_singleton.1 hx
      cases hk
    · obtain ⟨b, i, hs, source, binds⟩ := exists_of_mem_traceBindings hx
      rw [hs] at hk
      refine (VarCall.fits_of_arrow (arrow_of_mem_calls_bind source hk)).2 ?_
      rw [eq_var_of_bindSource ((mem_calls_bind source).1 hk).1]
      exact none i binds

end Form

/-- **When C++ calls through all variables as the header declares them**: no member that is the
object itself has an event that the constructor binds, or a context menu. All of these calls are
written in the class. -/
theorem callsFit_iff {t : Tree} {id : Nat} {f : Form} (hf : Form.ofTree t id = .ok f)
    (hd : Dialect.cpp.supports f.node.kind = true) {o : Options} {source : FileSource}
    {cache after : Cache} {table : ImageTable}
    (images : f.images source o.artDirectory cache = (.ok table, after)) :
    let c := f.collected .cpp table after
    generateSource t id (.source .cpp) o source cache = (.ok (f.output .cpp o c), after) ∧
      (∀ xs ∈ f.traces .cpp c, ∀ x ∈ xs, ∀ k ∈ x.step.calls,
        ∃ line, .line line ∈ f.classEdits .cpp (f.classInfo o c.events) c ∧
          k.text.toList <:+: line.toList) ∧
      (f.CallsFit c ↔
        (∀ u ∈ c.events.bound.toList, u.item.kind = .timer →
            (Access.of u.item.element).isMember = false) ∧
          ∀ builder ∈ f.menuBuilders, ∀ owner ∈ builder.above.head?,
            ¬f.HeldByValue owner.var) := by
  intro c
  have form := Form.isForm_of_ofTree hf
  refine ⟨by rw [generateSource_eq hf hd, Form.generate, images],
    fun xs hxs x hx k hk => Form.exists_line_of_call hxs hx hk, ?_⟩
  rw [Form.callsFit_iff_binds form]
  constructor
  · intro none
    refine ⟨fun u hu timer => ?_, fun builder mem owner owns => none owner (.menu mem owns)⟩
    refine Bool.eq_false_iff.2 fun isMember => none u.item (.event hu) ?_
    exact Form.heldByValue_of_bound form hu (Form.byValue_var_iff.2 ⟨isMember, timer⟩)
  · rintro ⟨events, menus⟩ i binds
    cases binds with
    | event hu =>
      intro held
      obtain ⟨isMember, timer⟩ := Form.byValue_var_iff.1 held.byValue
      cases isMember.symm.trans (events _ hu timer)
    | menu mem owns => exact menus _ mem _ owns

/-! ## A timer with an event -/

/-- A timer with an event, given who can see its variable. -/
def boundTimer (access : String) : Element where
  kind := .timer
  props := [(.varName, "m_timer"), (.classAccess, access)]
  events := [{ name := "wxEVT_TIMER", handler := "OnTimer" }]

/-- A dialog with that timer. -/
def timerDesign (access : String) : Design :=
  .mk { kind := .dialog, props := [(.className, "Dlg")], events := [] }
    [.mk (boundTimer access) []]

/-- The form of that dialog. -/
def timerForm (access : String) : Form where
  node :=
    { kind := .dialog, props := [(.className, "Dlg")], events := [], id := 0, parent := none,
      children := [1] }
  children :=
    [.mk
      { node := { boundTimer access with id := 1, parent := some 0, children := [] }
        name := "m_timer" }
      []]
  above := []

/-- The event of that timer. -/
def timerUse (access : String) : EventUse where
  spot :=
    { item :=
        { node := { boundTimer access with id := 1, parent := some 0, children := [] }
          name := "m_timer" }
      above := (timerForm access).path }
  event := { name := "wxEVT_TIMER", handler := "OnTimer" }

/-- A local timer is a pointer, and its event is bound with an arrow. -/
theorem timerForm_callsFit :
    let f := timerForm "none"
    let c := f.collected .cpp .empty .empty
    Form.ofTree (.ofDesign (timerDesign "none")) 0 = .ok f ∧
      generateSource (.ofDesign (timerDesign "none")) 0 (.source .cpp) .default noFiles .empty
        = (.ok (f.output .cpp .default c), .empty) ∧
      c.events.bound.toList = [timerUse "none"] ∧ ¬f.HeldByValue (timerUse "none").item.var ∧
      f.CallsFit c := by
  intro f c
  have hf : Form.ofTree (.ofDesign (timerDesign "none")) 0 = .ok f := by with_unfolding_all rfl
  have images : f.images noFiles Options.default.artDirectory .empty = (.ok .empty, .empty) := rfl
  obtain ⟨generated, -, fit⟩ := callsFit_iff hf (by decide) images
  have events : c.events.bound.toList = [timerUse "none"] := by with_unfolding_all rfl
  refine ⟨hf, generated, events, fun held => ?_, fit.2 ⟨fun u hu _ => ?_, List.forall_mem_nil _⟩⟩
  · cases held.byValue
  · obtain rfl := List.mem_singleton.1 (events ▸ hu)
    decide

/-- The event of a timer that is a member is bound with an arrow as well, though the header declares
the timer itself. -/
theorem timerForm_not_callsFit :
    let f := timerForm "protected:"
    let c := f.collected .cpp .empty .empty
    Form.ofTree (.ofDesign (timerDesign "protected:")) 0 = .ok f ∧
      generateSource (.ofDesign (timerDesign "protected:")) 0 (.source .cpp) .default noFiles .empty
        = (.ok (f.output .cpp .default c), .empty) ∧
      c.events.bound.toList = [timerUse "protected:"] ∧
      "wxTimer m_timer;" ∈ c.members.guarded.part none ∧
      Dialect.binding .cpp (f.binding (timerUse "protected:"))
        = some "m_timer->Bind(wxEVT_TIMER, &Dlg::OnTimer, this);" ∧
      f.HeldByValue (timerUse "protected:").item.var ∧ ¬f.CallsFit c := by
  intro f c
  have hf : Form.ofTree (.ofDesign (timerDesign "protected:")) 0 = .ok f := by
    with_unfolding_all rfl
  have events : c.events.bound.toList = [timerUse "protected:"] := by with_unfolding_all rfl
  have bound : timerUse "protected:" ∈ f.events.sort.bound.toList :=
    events ▸ List.mem_singleton_self _
  have held := Form.heldByValue_of_bound rfl bound (by decide)
  refine ⟨hf, ?_, events, by decide +kernel, by decide +kernel, held, fun fit => ?_⟩
  · rw [generateSource_eq hf (by decide)]
    rfl
  · exact (Form.callsFit_iff_binds rfl).1 fit _ (.event bound) held

end FormDesign
