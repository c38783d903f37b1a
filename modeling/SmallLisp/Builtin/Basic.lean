import SmallLisp.Arity

/-!
The names and arities of the built-in operations. What they compute stands in
`SmallLisp.Builtin.Call`.
-/

namespace SmallLisp

inductive Builtin where
  | add
  | subtract
  | multiply
  | divide
  | less
  | lessOrEqual
  | greater
  | greaterOrEqual
  | equal
  | list
  | isList
  | count
  | isEmpty
  | not
  | printString
  | displayString
  | printLine
  | displayLine
  deriving DecidableEq, Repr

namespace Builtin

/-- Every builtin, in the order in which the root frame binds them. -/
def all : List Builtin :=
  [add, subtract, multiply, divide, less, lessOrEqual, greater, greaterOrEqual, equal, list,
    isList, count, isEmpty, not, printString, displayString, printLine, displayLine]

def name : Builtin → String
  | add => "+"
  | subtract => "-"
  | multiply => "*"
  | divide => "/"
  | less => "<"
  | lessOrEqual => "<="
  | greater => ">"
  | greaterOrEqual => ">="
  | equal => "="
  | list => "list"
  | isList => "list?"
  | count => "count"
  | isEmpty => "empty?"
  | not => "not"
  | printString => "pr-str"
  | displayString => "str"
  | printLine => "prn"
  | displayLine => "println"

def arity : Builtin → Arity
  | add | multiply | list | printString | displayString | printLine | displayLine => .any
  | subtract | divide => .atLeast 1
  | less | lessOrEqual | greater | greaterOrEqual | equal => .atLeast 2
  | isList | count | isEmpty | not => .exactly 1

def ofName? (name : String) : Option Builtin :=
  all.find? (·.name = name)

theorem ofName?_name (builtin : Builtin) : ofName? builtin.name = some builtin := by
  cases builtin <;> rfl

end Builtin

end SmallLisp
