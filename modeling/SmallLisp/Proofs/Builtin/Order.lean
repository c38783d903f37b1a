import SmallLisp.Proofs.Builtin.Comparison
import SmallLisp.Proofs.Builtin.Numbers

/-!
The order of numbers. A comparison of several numbers looks at neighbours and so decides about all
pairs. It comes to the same as the converse comparison of the numbers in reverse. Arguments that are
no numbers are found before any two are compared.
-/

namespace SmallLisp.Builtin

/-- The comparisons of numbers, each with the relation of integers that it is about. -/
inductive Compares : Builtin → (Int → Int → Prop) → Prop
  | less : Compares less (· < ·)
  | lessOrEqual : Compares lessOrEqual (· ≤ ·)
  | greater : Compares greater (· > ·)
  | greaterOrEqual : Compares greaterOrEqual (· ≥ ·)

theorem compare_map_number (operation : Builtin) (related : Int64 → Int64 → Bool)
    (numbers : List Int64) :
    compare operation related (numbers.map .number) =
      .ok (.ofBool (neighbours related numbers)) := by
  rw [compare, numbers_map_number]
  rfl

namespace Compares

variable {operation : Builtin} {order : Int → Int → Prop}

theorem isNumeric (h : Compares operation order) : operation.isNumeric := by
  cases h <;> rfl

theorem accepts_iff (h : Compares operation order) {count : Nat} :
    operation.arity.accepts count ↔ 2 ≤ count := by
  cases h <;> exact decide_eq_true_iff

theorem written (h : Compares operation order) (arguments : List Value) :
    operation.written arguments = "" := by
  cases h <;> rfl

theorem trans (h : Compares operation order) {i j k : Int} (hij : order i j) (hjk : order j k) :
    order i k := by
  cases h with
  | less => exact Int.lt_trans hij hjk
  | lessOrEqual => exact Int.le_trans hij hjk
  | greater => exact Int.lt_trans hjk hij
  | greaterOrEqual => exact Int.le_trans hjk hij

theorem exists_related (h : Compares operation order) :
    ∃ related : Int64 → Int64 → Bool, (∀ m n, related m n ↔ order m.toInt n.toInt) ∧
      ∀ arguments, operation.value arguments = compare operation related arguments := by
  cases h with
  | less =>
    exact ⟨_, fun m n => decide_eq_true_iff.trans Int64.lt_iff_toInt_lt, fun _ => rfl⟩
  | lessOrEqual =>
    exact ⟨_, fun m n => decide_eq_true_iff.trans Int64.le_iff_toInt_le, fun _ => rfl⟩
  | greater =>
    exact ⟨_, fun m n => decide_eq_true_iff.trans Int64.lt_iff_toInt_lt, fun _ => rfl⟩
  | greaterOrEqual =>
    exact ⟨_, fun m n => decide_eq_true_iff.trans Int64.le_iff_toInt_le, fun _ => rfl⟩

/-- Numbers are compared pair by pair, whichever two they are. -/
theorem exists_gives (h : Compares operation order) {numbers : List Int64}
    (hlength : 2 ≤ numbers.length) :
    ∃ answer : Bool, (answer ↔ numbers.Pairwise fun m n => order m.toInt n.toInt) ∧
      operation.Gives (numbers.map .number) (.ok (.ofBool answer)) := by
  obtain ⟨related, hrelated, hvalue⟩ := h.exists_related
  refine ⟨neighbours related numbers, ?_, ?_⟩
  · have htrans : IsTrans Int64 fun m n => order m.toInt n.toInt := ⟨fun _ _ _ => h.trans⟩
    simp only [neighbours_iff_isChain, hrelated]
    exact List.isChain_iff_pairwise
  · rw [← compare_map_number operation, ← hvalue]
    rw [← List.length_map (f := Value.number)] at hlength
    exact gives_value (h.accepts_iff.2 hlength) (h.written _)

/-- The calls that do not fail are those with numbers only. -/
theorem gives_ok_iff (h : Compares operation order) {arguments : List Value}
    (hlength : 2 ≤ arguments.length) {value : Value} :
    operation.Gives arguments (.ok value) ↔
      ∃ (numbers : List Int64) (answer : Bool), arguments = numbers.map .number ∧
        value = .ofBool answer ∧
          (answer ↔ numbers.Pairwise fun m n => order m.toInt n.toInt) := by
  constructor
  · intro hgives
    rcases eq_map_number_or_isFirstStray arguments with ⟨numbers, rfl⟩ | ⟨place, stray, hstray⟩
    · rw [List.length_map] at hlength
      obtain ⟨answer, hanswer, hfound⟩ := h.exists_gives hlength
      cases hgives.unique hfound
      exact ⟨numbers, answer, rfl, rfl, hanswer⟩
    · cases hgives.unique (gives_of_isFirstStray h.isNumeric (h.accepts_iff.2 hlength) hstray)
  · rintro ⟨numbers, answer, rfl, rfl, hanswer⟩
    rw [List.length_map] at hlength
    obtain ⟨found, hfound, hgives⟩ := h.exists_gives hlength
    rwa [Bool.eq_iff_iff.2 (hanswer.trans hfound.symm)]

/-- The converse comparison of the same numbers in reverse has the same answer. -/
theorem gives_reverse {converse : Builtin} (h : Compares operation order)
    (hconverse : Compares converse fun i j => order j i) {arguments : List Value}
    (hlength : 2 ≤ arguments.length) {value : Value}
    (hgives : operation.Gives arguments (.ok value)) :
    converse.Gives arguments.reverse (.ok value) := by
  obtain ⟨numbers, answer, rfl, rfl, hanswer⟩ := (h.gives_ok_iff hlength).1 hgives
  rw [← List.length_reverse] at hlength
  rw [hconverse.gives_ok_iff hlength]
  refine ⟨numbers.reverse, answer, List.map_reverse.symm, rfl, ?_⟩
  rw [hanswer, List.pairwise_reverse]

theorem gives_reverse_iff {converse : Builtin} (h : Compares operation order)
    (hconverse : Compares converse fun i j => order j i) {arguments : List Value}
    (hlength : 2 ≤ arguments.length) {value : Value} :
    operation.Gives arguments (.ok value) ↔ converse.Gives arguments.reverse (.ok value) := by
  constructor
  · exact h.gives_reverse hconverse hlength
  · intro hgives
    rw [← List.length_reverse] at hlength
    have hback := hconverse.gives_reverse h hlength hgives
    rwa [List.reverse_reverse] at hback

end Compares

theorem ofBool_eq_true_iff {answer : Bool} :
    Value.ofBool true = .ofBool answer ↔ answer = true := by
  cases answer <;> simp [Value.ofBool, Symbol.ofBool]

/-- Equality tells the two values apart, in whichever order they are compared. -/
def ToldApart (first second : Value) : Prop :=
  equal.Gives [first, second] (.ok (.ofBool false)) ∧
    equal.Gives [second, first] (.ok (.ofBool false))

theorem toldApart_number {m n : Int64} (h : m ≠ n) : ToldApart (.number m) (.number n) := by
  have hdiffer : ∀ {m n : Int64}, m ≠ n →
      equal.Gives [.number m, .number n] (.ok (.ofBool false)) := by
    intro m n hne
    have hunequal : (Value.number m == .number n) = false := beq_false_of_ne (α := Int64) hne
    have hanswer : neighbours (· == ·) [Value.number m, .number n] = false := by
      rw [neighbours_cons_cons, hunequal, Bool.false_and]
    have hcall : equal.Gives [.number m, .number n] (equal.value [.number m, .number n]) :=
      gives_value rfl rfl
    rwa [value, hanswer] at hcall
  exact ⟨hdiffer h, hdiffer (Ne.symm h)⟩

theorem gives_lessOrEqual_of_less {arguments : List Value} (hlength : 2 ≤ arguments.length)
    (h : less.Gives arguments (.ok (.ofBool true))) :
    lessOrEqual.Gives arguments (.ok (.ofBool true)) ∧ arguments.Pairwise ToldApart := by
  obtain ⟨numbers, answer, rfl, hvalue, hanswer⟩ := (Compares.less.gives_ok_iff hlength).1 h
  have hascending := hanswer.1 (ofBool_eq_true_iff.1 hvalue)
  constructor
  · rw [Compares.lessOrEqual.gives_ok_iff hlength]
    refine ⟨numbers, true, rfl, rfl, fun _ => ?_, fun _ => rfl⟩
    exact hascending.imp Int.le_of_lt
  · rw [List.pairwise_map]
    refine hascending.imp fun hless => toldApart_number ?_
    rintro rfl
    exact Int.lt_irrefl _ hless

/-- What the four comparisons of numbers come to, with two arguments or more. -/
structure ComparisonsDecideOrder : Prop where
  /-- An argument that is no number is an error, also behind two numbers that decide the answer. -/
  stray : ∀ operation order, Compares operation order → ∀ arguments : List Value,
    2 ≤ arguments.length → (∃ argument ∈ arguments, ∀ n, argument ≠ .number n) →
      ∃ place stray, IsFirstStray arguments place stray ∧
        operation.Gives arguments (.error (operation.strayError place stray))
  pairs : ∀ operation order, Compares operation order → ∀ numbers : List Int64,
    2 ≤ numbers.length → ∃ answer : Bool,
      (answer ↔ numbers.Pairwise fun m n => order m.toInt n.toInt) ∧
        operation.Gives (numbers.map .number) (.ok (.ofBool answer))
  less_reverse : ∀ arguments : List Value, 2 ≤ arguments.length → ∀ answer,
    less.Gives arguments (.ok answer) ↔ greater.Gives arguments.reverse (.ok answer)
  lessOrEqual_reverse : ∀ arguments : List Value, 2 ≤ arguments.length → ∀ answer,
    lessOrEqual.Gives arguments (.ok answer) ↔ greaterOrEqual.Gives arguments.reverse (.ok answer)
  less_strict : ∀ arguments : List Value, 2 ≤ arguments.length →
    less.Gives arguments (.ok (.ofBool true)) →
      lessOrEqual.Gives arguments (.ok (.ofBool true)) ∧ arguments.Pairwise ToldApart

/-- A comparison of several numbers says whether each of them stands in the relation to every later
one. Turning both the relation and the list around changes nothing, and numbers that ascend strictly
ascend and are all different. -/
theorem comparisons_decide_order : ComparisonsDecideOrder where
  stray _ _ hcompares _ hlength hstray :=
    exists_gives_strayError hcompares.isNumeric (hcompares.accepts_iff.2 hlength) hstray
  pairs _ _ hcompares _ hlength := hcompares.exists_gives hlength
  less_reverse _ hlength _ := Compares.less.gives_reverse_iff .greater hlength
  lessOrEqual_reverse _ hlength _ := Compares.lessOrEqual.gives_reverse_iff .greaterOrEqual hlength
  less_strict _ hlength := gives_lessOrEqual_of_less hlength

/-- Three numbers that ascend, also as the same numbers in reverse that descend. The string in
`(< 2 1 "a")` is an error although two is not less than one. -/
theorem comparisons_decide_order_of_three :
    let ascending : List Int64 := [-1, 0, 7]
    let mixed : List Value := [.number 2, .number 1, .string "a"]
    2 ≤ ascending.length ∧ less.Gives (ascending.map .number) (.ok (.ofBool true)) ∧
      greater.Gives (ascending.map .number).reverse (.ok (.ofBool true)) ∧
      (ascending.map Value.number).Pairwise ToldApart ∧
      (∃ argument ∈ mixed, ∀ n, argument ≠ .number n) ∧
      ∃ place stray, IsFirstStray mixed place stray ∧
        less.Gives mixed (.error (less.strayError place stray)) := by
  intro ascending mixed
  have hlength : 2 ≤ ascending.length := by decide
  have hmapped : 2 ≤ (ascending.map Value.number).length := by decide
  have hpairs : ascending.Pairwise fun m n => m.toInt < n.toInt := by decide
  obtain ⟨answer, hanswer, hless⟩ :=
    comparisons_decide_order.pairs less _ .less ascending hlength
  obtain rfl := hanswer.2 hpairs
  have hstray : ∃ argument ∈ mixed, ∀ n, argument ≠ .number n :=
    ⟨.string "a", by simp [mixed], by simp⟩
  exact ⟨hlength, hless, (comparisons_decide_order.less_reverse _ hmapped _).1 hless,
    (comparisons_decide_order.less_strict _ hmapped hless).2, hstray,
    comparisons_decide_order.stray less _ .less mixed (by decide) hstray⟩

end SmallLisp.Builtin
