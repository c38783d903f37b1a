import SmallLisp.Value.Basic

/-!
Equality of values as programs see it. A list and a vector with equal items are equal, maps are
compared entry by entry in their order, and closures by identity.
-/

namespace SmallLisp.Value

mutual

def beq : Value → Value → Bool
  | .number m, .number n => m == n
  | .string s, .string t => s == t
  | .symbol s, .symbol t => s == t
  | .list xs, .list ys | .list xs, .vector ys | .vector xs, .list ys | .vector xs, .vector ys =>
    beqItems xs ys
  | .map xs, .map ys => beqEntries xs ys
  | .closure i _ _ _, .closure j _ _ _ => i == j
  | .builtin f, .builtin g => f == g
  | _, _ => false

def beqItems : List Value → List Value → Bool
  | [], [] => true
  | x :: xs, y :: ys => beq x y && beqItems xs ys
  | _, _ => false

def beqEntries : List (Value × Value) → List (Value × Value) → Bool
  | [], [] => true
  | (k, v) :: xs, (l, w) :: ys => beq k l && beq v w && beqEntries xs ys
  | _, _ => false

end

instance : BEq Value := ⟨beq⟩

end SmallLisp.Value
