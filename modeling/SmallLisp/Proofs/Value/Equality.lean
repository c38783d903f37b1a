import SmallLisp.Value.Equality

/-!
What equality of values tells apart. Two values are equal if they are the same once vectors have
become lists and closures have lost all but their identity. So equality is an equivalence.
-/

namespace SmallLisp.Value

mutual

/-- The value without what equality does not look at: vectors become lists, and of a closure only
the identity is left. -/
def plain : Value → Value
  | .number n => .number n
  | .string text => .string text
  | .symbol s => .symbol s
  | .list items | .vector items => .list (plainAll items)
  | .map entries => .map (plainEntries entries)
  | .closure identity _ _ _ => .closure identity ⟨[], none⟩ [] 0
  | .builtin operation => .builtin operation

def plainAll : List Value → List Value
  | [] => []
  | item :: items => item.plain :: plainAll items

def plainEntries : List (Value × Value) → List (Value × Value)
  | [] => []
  | (key, value) :: entries => (key.plain, value.plain) :: plainEntries entries

end

mutual

theorem beq_eq_true_iff (first second : Value) :
    beq first second = true ↔ first.plain = second.plain := by
  cases first with
  | list items => cases second <;> simp [beq, plain, beqItems_eq_true_iff items]
  | vector items => cases second <;> simp [beq, plain, beqItems_eq_true_iff items]
  | map entries => cases second <;> simp [beq, plain, beqEntries_eq_true_iff entries]
  | _ => cases second <;> simp [beq, plain]

theorem beqItems_eq_true_iff (first second : List Value) :
    beqItems first second = true ↔ plainAll first = plainAll second := by
  cases first with
  | nil => cases second <;> simp [beqItems, plainAll]
  | cons item items =>
    cases second with
    | nil => simp [beqItems, plainAll]
    | cons other others =>
      simp [beqItems, plainAll, beq_eq_true_iff item, beqItems_eq_true_iff items]

theorem beqEntries_eq_true_iff (first second : List (Value × Value)) :
    beqEntries first second = true ↔ plainEntries first = plainEntries second := by
  cases first with
  | nil => cases second <;> simp [beqEntries, plainEntries]
  | cons entry entries =>
    obtain ⟨key, value⟩ := entry
    cases second with
    | nil => simp [beqEntries, plainEntries]
    | cons other others =>
      obtain ⟨otherKey, otherValue⟩ := other
      simp [beqEntries, plainEntries, beq_eq_true_iff key, beq_eq_true_iff value,
        beqEntries_eq_true_iff entries]

end

theorem beq_iff_plain_eq {first second : Value} : first == second ↔ first.plain = second.plain :=
  beq_eq_true_iff first second

instance : EquivBEq Value where
  rfl := beq_iff_plain_eq.2 rfl
  symm h := beq_iff_plain_eq.2 (beq_iff_plain_eq.1 h).symm
  trans h h' := beq_iff_plain_eq.2 ((beq_iff_plain_eq.1 h).trans (beq_iff_plain_eq.1 h'))

end SmallLisp.Value
