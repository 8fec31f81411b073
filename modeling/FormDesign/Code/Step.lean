import FormDesign.Code.Events
import FormDesign.Dialect.Block
import FormDesign.Dialect.Member

/-!
# Steps

The plan of a method body: statements, bindings and validators, some of them confined to platforms.
A dialect lays a plan out as text; the warnings that came up while it was made stand in it where
they arose.
-/

namespace FormDesign

inductive Step where
  | stmt (s : Stmt)
  /-- Binds an event. Nothing is written where the language cannot express it. -/
  | bind (b : Binding)
  /-- Ties a validator variable to a control. Nothing is written where the language has none. -/
  | validate (control : Var) (v : ValidatorVar)
  /-- A blank line between two groups. -/
  | gap
  /-- Steps that are taken on the platforms of a selector only. -/
  | within (selector : String) (body : List Step)
  /-- Something to tell the user. -/
  | warn (text : String)

namespace Step

mutual

/-- The warnings in a step. -/
def warnings : Step → List String
  | .warn text => [text]
  | .within _ body => warningsAll body
  | .stmt _ | .bind _ | .validate .. | .gap => []

/-- The warnings in several steps. -/
def warningsAll : List Step → List String
  | [] => []
  | s :: rest => warnings s ++ warningsAll rest

end

mutual

/-- The statements in a step, in order. -/
def stmts : Step → List Stmt
  | .stmt s => [s]
  | .within _ body => stmtsAll body
  | .bind _ | .validate .. | .gap | .warn _ => []

/-- The statements in several steps, in order. -/
def stmtsAll : List Step → List Stmt
  | [] => []
  | s :: rest => stmts s ++ stmtsAll rest

end

/-- A call of a method. -/
def call (target : Target) (method : String) (args : List Expr) : Step :=
  .stmt (.call target method args)

/-- A step that is taken if the condition holds. -/
def when (condition : Bool) (s : Step) : List Step :=
  if condition then [s] else []

end Step

namespace Dialect

mutual

/-- The text of a step. -/
def step (d : Dialect) : Step → List Edit
  | .stmt s => [.line (d.stmt s)]
  | .bind b => (d.binding b).toList.map .line
  | .validate control v => (d.validatorBinding control v).toList.map .line
  | .gap => [.gap]
  | .within selector body => d.beginPlatform selector ++ d.steps body ++ d.endPlatform selector
  | .warn _ => []

/-- The text of several steps. -/
def steps (d : Dialect) : List Step → List Edit
  | [] => []
  | s :: rest => d.step s ++ d.steps rest

end

end Dialect

end FormDesign
