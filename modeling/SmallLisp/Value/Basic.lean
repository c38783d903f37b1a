import SmallLisp.Builtin.Basic
import SmallLisp.Symbol

/-!
Values. Programs and data are made of the same trees: what the reader builds is what evaluation
takes and gives back, and closures and builtins are values among the others.
-/

namespace SmallLisp

/-- Frames are numbered in the order of their creation. -/
abbrev FrameId := Nat

/-- The parameters of a closure: one name for each leading argument, and perhaps a name for the
list of all further ones. -/
structure Parameters where
  fixed : List Symbol
  rest : Option Symbol
  deriving DecidableEq, Repr

def Parameters.arity (parameters : Parameters) : Arity :=
  match parameters.rest with
  | none => .exactly parameters.fixed.length
  | some _ => .atLeast parameters.fixed.length

inductive Value where
  | number (n : Int64)
  | string (text : String)
  | symbol (symbol : Symbol)
  | list (items : List Value)
  | vector (items : List Value)
  /-- The entries of a map stand in the order in which their keys were first inserted. -/
  | map (entries : List (Value × Value))
  /-- A closure remembers the frame it was made in. Its identity tells it apart from closures
  with the same text. -/
  | closure (identity : Nat) (parameters : Parameters) (body : List Value) (scope : FrameId)
  | builtin (operation : Builtin)
  deriving Inhabited

namespace Value

def nil : Value := .symbol .nil

def ofBool (b : Bool) : Value := .symbol (.ofBool b)

def isNil : Value → Bool
  | .symbol s => s = .nil
  | _ => false

/-- Everything counts as true but `nil` and `false`. -/
def isTruthy : Value → Bool
  | .symbol s => s ≠ .nil && s ≠ .ofBool false
  | _ => true

def isList : Value → Bool
  | .list _ => true
  | _ => false

/-- The items of a list or a vector. -/
def items? : Value → Option (List Value)
  | .list items | .vector items => some items
  | _ => none

/-- How many items a collection has. The value `nil` counts as an empty one, and every other value
as one item. -/
def count : Value → Nat
  | .list items | .vector items => items.length
  | .map entries => entries.length
  | value => if value.isNil then 0 else 1

def typeName : Value → String
  | .number _ => "number"
  | .string _ => "string"
  | .symbol _ => "symbol"
  | .list _ => "list"
  | .vector _ => "vector"
  | .map _ => "map"
  | .closure .. | .builtin _ => "function"

end Value

end SmallLisp
