/-!
Numbers are the integers that fit in 64 bits. Nothing ever wraps around: arithmetic is done on
integers, and a result out of range is no number.
-/

namespace SmallLisp.Number

/-- An integer as a number, if it is in range. -/
def ofInt? (i : Int) : Option Int64 :=
  if Int64.minValue.toInt ≤ i ∧ i ≤ Int64.maxValue.toInt then some (Int64.ofInt i) else none

theorem ofInt?_eq_some_iff {i : Int} {n : Int64} : ofInt? i = some n ↔ n.toInt = i := by
  simp only [ofInt?, Option.ite_none_right_eq_some, Option.some.injEq]
  constructor
  · rintro ⟨⟨hlow, hhigh⟩, rfl⟩
    exact Int64.toInt_ofInt_of_le hlow (by simpa [Int64.maxValue] using Int.lt_add_one_of_le hhigh)
  · rintro rfl
    exact ⟨⟨Int64.minValue_le_toInt n, Int64.toInt_le n⟩, Int64.ofInt_toInt n⟩

/-- The value of decimal digits, the most significant first. -/
def digitsValue (digits : List Char) : Nat :=
  digits.foldl (fun value digit => 10 * value + (digit.toNat - '0'.toNat)) 0

/-- The value of a non-empty run of the digits `0` to `9`. -/
def ofDigits? (digits : List Char) : Option Nat :=
  if digits ≠ [] ∧ digits.all Char.isDigit then some (digitsValue digits) else none

/-- The value of a numeral: digits, with or without a minus sign in front. -/
def ofNumeral? : List Char → Option Int
  | '-' :: digits => (ofDigits? digits).map fun value => -value
  | digits => (ofDigits? digits).map fun value => value

theorem digitsValue_append (digits : List Char) (last : Char) :
    digitsValue (digits ++ [last]) = 10 * digitsValue digits + (last.toNat - '0'.toNat) := by
  simp [digitsValue]

theorem digitsValue_toDigits (n : Nat) : digitsValue (Nat.toDigits 10 n) = n := by
  induction n using Nat.strongRecOn with
  | _ n ih =>
    by_cases hsmall : n < 10
    · rw [Nat.toDigits_of_lt_base hsmall]
      simpa [digitsValue] using Nat.toNat_digitChar_sub_48_of_lt_ten hsmall
    · rw [Nat.toDigits_of_base_le (by decide) (by omega), digitsValue_append, ih _ (by omega)]
      have hdigit := Nat.toNat_digitChar_sub_48_of_lt_ten (Nat.mod_lt n (show 0 < 10 by decide))
      change 10 * (n / 10) + ((n % 10).digitChar.toNat - 48) = n
      omega

theorem ofDigits?_toDigits (n : Nat) : ofDigits? (Nat.toDigits 10 n) = some n := by
  have hdigits : (Nat.toDigits 10 n).all Char.isDigit :=
    List.all_eq_true.2 fun c hc => Nat.isDigit_of_mem_toDigits (by decide) (by decide) hc
  have hnonempty : Nat.toDigits 10 n ≠ [] := List.ne_nil_of_length_pos Nat.length_toDigits_pos
  rw [ofDigits?, if_pos ⟨hnonempty, hdigits⟩, digitsValue_toDigits]

/-- A number reads back from its decimal text. -/
theorem ofNumeral?_repr (i : Int) : ofNumeral? i.repr.toList = some i := by
  cases i with
  | ofNat n =>
    have hstart : (Nat.toDigits 10 n).head? ≠ some '-' := by
      intro hminus
      have hdigit := Nat.isDigit_of_mem_toDigits (by decide) (by decide) (List.mem_of_head? hminus)
      contradiction
    show ofNumeral? (String.ofList (Nat.toDigits 10 n)).toList = _
    rw [String.toList_ofList]
    unfold ofNumeral?
    split
    · simp_all
    · simp [ofDigits?_toDigits]
  | negSucc n =>
    have htext : (Int.negSucc n).repr.toList = '-' :: Nat.toDigits 10 (n + 1) := by
      show ("-" ++ String.ofList (Nat.toDigits 10 (n + 1))).toList = _
      simp
    rw [htext, ofNumeral?, ofDigits?_toDigits]
    rfl

end SmallLisp.Number
