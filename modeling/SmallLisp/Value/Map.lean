import SmallLisp.Entries
import SmallLisp.Value.Equality

/-!
Maps from values to values. Keys that are equal as values are one key.
-/

namespace SmallLisp.Value

/-- The map of an alternating sequence of keys and values. A last key without a value gets `nil`. -/
def mapOfItems (items : List Value) : Value :=
  .map (Entries.insertAll (Entries.pairUp nil items) [])

end SmallLisp.Value
