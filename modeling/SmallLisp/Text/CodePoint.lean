/-!
Code points, and properties of them given by tables. A property is a list of closed ranges in
ascending order, and a character has it when its code point lies in one of them.
-/

namespace SmallLisp.Text

/-- The first and the last code point of a stretch that shares a property. -/
abbrev CodePointRange := Nat × Nat

/-- A character has the property of a table when one of its ranges holds the character's code
point. -/
def inRanges (ranges : List CodePointRange) (c : Char) : Bool :=
  ranges.any fun (first, last) => first ≤ c.toNat && c.toNat ≤ last

end SmallLisp.Text
