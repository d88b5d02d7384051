import MobDebug.Literal.Reader
import MobDebug.Error
/-!
Evaluating an expression: the command that asks for it, and the values in its reply. The reply is a
flat table with one literal, as a string, for each value.
-/
namespace MobDebug.Evaluation

/-- The command that evaluates an expression in a stack frame. -/
def command (frame : Nat) (expression : String) (maxDepth : Nat) :
    Except ProtocolFault Wire.Command :=
  let expression := Text.trim expression.toList
  if expression.isEmpty then .error .emptyExpression
  else if expression.any Wire.isLineEnd then .error .multiLineExpression
  else
    .ok { name := .exec, args := "return " ++ String.ofList expression, frame := some frame,
          options := ["maxlevel=" ++ toString maxDepth] }

/-- The value of one result. -/
def result (maxDepth : Nat) : Literal.Value → Except Error Literal.Value
  | .str text => (Literal.read maxDepth text).mapError .literal
  | v => .error (.protocol (.notSerialized v.typeName))

/-- The values in a reply, each nesting tables at most `maxDepth` deep. -/
def results (maxDepth : Nat) (body : String) : Except Error (List Literal.Value) :=
  match Literal.read 1 body with
  | .error e => .error (.literal e)
  | .ok (.table t) =>
    if Literal.Table.sequenceLength t = t.length then
      (Literal.Table.sequence t).mapM (result maxDepth)
    else .error (.protocol .keyedResults)
  | .ok v => .error (.protocol (.notResults v.typeName))

/-- The first value, or nil where there is none. -/
def first (values : List Literal.Value) : Literal.Value :=
  values.headD .nil

end MobDebug.Evaluation
