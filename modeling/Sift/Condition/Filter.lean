import Sift.Condition.Operand

/-!
# Reading filters

A filter is a sequence of conditions `field operator value`, groups in parentheses and gates. It is
read one token at a time by a machine that keeps the groups still open and what it expects next. A
group takes the last gate that stands directly in it, and is an and-group if there is none.

* `Filter.State`: the groups read so far.
* `Filter.step`: what one token does.
* `Filter.ofTokens`: the condition tree of a filter.
-/

namespace Sift.Filter

/-- How deep groups may nest inside the filter itself. -/
def maxDepth : Nat := 128

/-- A group that is being read: its gate so far, and its conditions so far, the last one first. -/
structure Level where
  gate : Gate
  reversed : List Condition

namespace Level

/-- A group nothing has been read of. -/
def empty : Level := ⟨.and, []⟩

/-- The group with one more condition. -/
def push (l : Level) (c : Condition) : Level := { l with reversed := c :: l.reversed }

/-- The group as a condition. -/
def condition (l : Level) : Condition := .group l.gate l.reversed.reverse

end Level

/-- What has to come next. -/
inductive Expected where
  /-- A condition, a group or a gate. -/
  | field
  /-- The operator of a condition on a field. -/
  | operator (field : String)
  /-- The value of a condition. -/
  | value (field : String) (operator : Operator)
deriving Repr, DecidableEq

/-- The groups being read, the outermost last. -/
structure State where
  current : Level
  enclosing : List Level
  expected : Expected

namespace State

/-- Nothing has been read. -/
def start : State := ⟨.empty, [], .field⟩

/-- How many groups the current one lies in. -/
def depth (s : State) : Nat := s.enclosing.length

/-- Adds a condition to the current group and expects the next. -/
def push (s : State) (c : Condition) : State :=
  { s with current := s.current.push c, expected := .field }

end State

/-- A token where a condition may start. -/
def stepField (ctx : Context) (s : State) : Token → QueryResult State
  | .gate g => .ok { s with current := { s.current with gate := g } }
  | .openGroup =>
    if s.depth < maxDepth then .ok ⟨.empty, s.current :: s.enclosing, .field⟩ else .error .tooDeep
  | .closeGroup =>
    match s.enclosing with
    | [] => .error .unmatchedClose
    | outer :: rest => .ok ⟨outer.push s.current.condition, rest, .field⟩
  | .operator op => .error (.fieldMissing op)
  | .word w =>
    if ctx.lookup.contains w then .ok { s with expected := .operator w }
    else .error (.unknownField w)
  | .quoted text => .error (.unknownField (Token.quoted text).shown)

/-- A token where the operator of a condition has to stand. -/
def stepOperator (s : State) (field : String) : Token → QueryResult State
  | .operator op => .ok { s with expected := .value field op }
  | .word _ => .error .invalidOperator
  | .quoted _ => .error .invalidOperator
  | t => .error (.operatorExpected field t)

/-- A token where the value of a condition has to stand. -/
def stepValue (ctx : Context) (s : State) (field : String) (op : Operator) (t : Token) :
    QueryResult State :=
  match t.value? with
  | some text => (ctx.leaf field op text).map fun l => s.push (.leaf l)
  | none => .error (.valueExpected field op t)

/-- What one token does. -/
def step (ctx : Context) (s : State) (t : Token) : QueryResult State :=
  match s.expected with
  | .field => stepField ctx s t
  | .operator field => stepOperator s field t
  | .value field op => stepValue ctx s field op t

/-- What several tokens do, up to the first error. -/
def run (ctx : Context) (s : State) (ts : List Token) : QueryResult State := ts.foldlM (step ctx) s

/-- The condition tree at the end of the tokens. -/
def finish (s : State) : QueryResult Condition :=
  match s.expected, s.enclosing with
  | .operator field, _ => .error (.operatorMissing field)
  | .value field op, _ => .error (.valueMissing field op)
  | .field, [] => .ok s.current.condition
  | .field, _ :: _ => .error .unclosedGroup

/-- **The condition tree of a filter** given by its tokens. -/
def ofTokens (ctx : Context) (ts : List Token) : QueryResult Condition := do
  finish (← run ctx .start ts)

/-- The condition tree of a filter text. -/
def ofText (ctx : Context) (text : String) : QueryResult Condition :=
  ofTokens ctx (Token.ofText text)

end Sift.Filter
