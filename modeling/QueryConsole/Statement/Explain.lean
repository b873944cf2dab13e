import QueryConsole.Statement.Adhoc
import QueryConsole.Json.Basic

namespace QueryConsole

inductive ExplainMode : Type
  | plan : ExplainMode
  | indexes : ExplainMode
  | actions : ExplainMode
  | pipeline : ExplainMode
  | tree : ExplainMode
  | normalized : ExplainMode
  | estimate : ExplainMode
  deriving DecidableEq

namespace ExplainMode

def all : List ExplainMode :=
  [.plan, .indexes, .actions, .pipeline, .tree, .normalized, .estimate]

def name : ExplainMode → String
  | .plan => "plan"
  | .indexes => "indexes"
  | .actions => "actions"
  | .pipeline => "pipeline"
  | .tree => "ast"
  | .normalized => "syntax"
  | .estimate => "estimate"

def ofName (name : String) : Except Failure ExplainMode :=
  match all.find? fun mode => mode.name == name with
  | some mode => .ok mode
  | none => .error (.invalid (.unknownExplainMode name))

def opening : ExplainMode → String
  | .plan => "EXPLAIN PLAN "
  | .indexes => "EXPLAIN indexes = 1 "
  | .actions => "EXPLAIN actions = 1 "
  | .pipeline => "EXPLAIN PIPELINE "
  | .tree => "EXPLAIN AST "
  | .normalized => "EXPLAIN SYNTAX "
  | .estimate => "EXPLAIN ESTIMATE "

def isPlainText : ExplainMode → Bool
  | .tree | .normalized => true
  | _ => false

end ExplainMode

namespace Explain

def compile (mode : ExplainMode) (query : String) : Except Failure Statement :=
  let statement := Adhoc.withoutTerminators query
  let body := (Adhoc.beforeFormat? statement).getD statement
  if body.isEmpty then .error (.invalid .emptyQuery) else .ok ⟨mode.opening ++ body, ∅⟩

def wrapLines (text : String) : List Json :=
  ((Text.lines text).filter fun line => !Text.isBlankText line).map fun line =>
    .object [("explain", .text line)]

end Explain

end QueryConsole
