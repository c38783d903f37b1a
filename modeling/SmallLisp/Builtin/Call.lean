import SmallLisp.Action
import SmallLisp.Builtin.Basic
import SmallLisp.Number
import SmallLisp.Value.Equality
import SmallLisp.Value.Printer

/-!
What the built-in operations compute. Arithmetic is exact or fails. A comparison of several
arguments holds when it holds of all neighbours.
-/

namespace SmallLisp.Builtin

def arityError (operation : Builtin) (arguments : List Value) : Error :=
  .arity operation.arity arguments.length (some operation.name)

/-- The arguments of a numeric operation as numbers. The first argument that is not a number is an
error, which tells its place. -/
def numbers (operation : Builtin) (place : Nat) : List Value → Except Error (List Int64)
  | [] => .ok []
  | .number n :: rest => (numbers operation (place + 1) rest).map (n :: ·)
  | value :: _ =>
    .error (.type s!"{operation.name}: argument {place} must be a number, got {value.typeName}")

def ofInteger (operation : Builtin) (i : Int) : Except Error Int64 :=
  match Number.ofInt? i with
  | some n => .ok n
  | none => .error (.evaluation s!"{operation.name}: integer overflow")

def sum (numbers : List Int64) : Except Error Int64 :=
  numbers.foldlM (fun total n => ofInteger add (total.toInt + n.toInt)) 0

def product (numbers : List Int64) : Except Error Int64 :=
  numbers.foldlM (fun total n => ofInteger multiply (total.toInt * n.toInt)) 1

/-- The first number less all others. A single number is negated. -/
def difference : List Int64 → Except Error Int64
  | [] => .error (subtract.arityError [])
  | [n] => ofInteger subtract (-n.toInt)
  | first :: rest => rest.foldlM (fun total n => ofInteger subtract (total.toInt - n.toInt)) first

/-- A quotient without its fractional part. -/
def quotientOf (dividend divisor : Int64) : Except Error Int64 :=
  if divisor = 0 then .error (.evaluation s!"{divide.name}: division by zero")
  else ofInteger divide (dividend.toInt.tdiv divisor.toInt)

/-- The first number divided by the others in turn. A single number divides one. -/
def quotient : List Int64 → Except Error Int64
  | [] => .error (divide.arityError [])
  | [n] => quotientOf 1 n
  | first :: rest => rest.foldlM quotientOf first

def neighbours {α : Type} (related : α → α → Bool) (items : List α) : Bool :=
  (items.zip items.tail).all fun (x, y) => related x y

def compare (operation : Builtin) (related : Int64 → Int64 → Bool) (arguments : List Value) :
    Except Error Value := do
  return .ofBool (neighbours related (← numbers operation 1 arguments))

def calculate (operation : Builtin) (result : List Int64 → Except Error Int64)
    (arguments : List Value) : Except Error Value := do
  return .number (← result (← numbers operation 1 arguments))

/-- The value of a call whose number of arguments the operation accepts. -/
def value (operation : Builtin) (arguments : List Value) : Except Error Value :=
  match operation, arguments with
  | add, _ => calculate add sum arguments
  | subtract, _ => calculate subtract difference arguments
  | multiply, _ => calculate multiply product arguments
  | divide, _ => calculate divide quotient arguments
  | less, _ => compare less (· < ·) arguments
  | lessOrEqual, _ => compare lessOrEqual (· ≤ ·) arguments
  | greater, _ => compare greater (· > ·) arguments
  | greaterOrEqual, _ => compare greaterOrEqual (· ≥ ·) arguments
  | equal, _ => .ok (.ofBool (neighbours (· == ·) arguments))
  | list, _ => .ok (.list arguments)
  | isList, [argument] => .ok (.ofBool argument.isList)
  | count, [argument] => do return .number (← ofInteger count argument.count)
  | isEmpty, [argument] => .ok (.ofBool (argument.count == 0))
  | not, [argument] => .ok (.ofBool !argument.isTruthy)
  | printString, _ => .ok (.string (Value.printJoined .readable " " arguments))
  | displayString, _ => .ok (.string (Value.printJoined .display "" arguments))
  | printLine, _ => .ok .nil
  | displayLine, _ => .ok .nil
  | _, _ => .error (operation.arityError arguments)

/-- What a call writes. -/
def written (operation : Builtin) (arguments : List Value) : String :=
  match operation with
  | printLine => Value.printJoined .readable " " arguments ++ "\n"
  | displayLine => Value.printJoined .display " " arguments ++ "\n"
  | _ => ""

/-- Calls an operation. Writing never fails here, so printing has no error of its own. -/
def call (operation : Builtin) (arguments : List Value) : Action Value := do
  if operation.arity.accepts arguments.length then
    let result ← Action.ofExcept (operation.value arguments)
    modify (·.write (operation.written arguments))
    return result
  else
    Action.fail (operation.arityError arguments)

end SmallLisp.Builtin
