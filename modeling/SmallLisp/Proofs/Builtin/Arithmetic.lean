import Mathlib
import SmallLisp.Proofs.Builtin.Numbers

/-!
Arithmetic. A sum, a product or a difference is computed step by step, and it is exact if no step
leaves the range of numbers; the result alone being in range is not enough. A quotient is taken
divisor by divisor. Dropping the fraction each time drops no more than dividing by the product of
the divisors once, and only the least number divided by minus one leaves the range.
-/

namespace SmallLisp

namespace Number

/-- The integers that are numbers. -/
def InRange (i : Int) : Prop :=
  -2 ^ 63 ≤ i ∧ i < 2 ^ 63

instance (i : Int) : Decidable (InRange i) :=
  inferInstanceAs (Decidable (_ ∧ _))

theorem inRange_toInt (n : Int64) : InRange n.toInt :=
  ⟨n.le_toInt, n.toInt_lt⟩

theorem exists_toInt_eq {i : Int} (h : InRange i) : ∃ n : Int64, n.toInt = i :=
  ⟨Int64.ofInt i, Int64.toInt_ofInt_of_le h.1 h.2⟩

/-- The integers that some numbers are. -/
def toInts (numbers : List Int64) : List Int :=
  numbers.map Int64.toInt

/-- A calculation in steps has a number after each of them. -/
def StaysInRange (combine : Int → Int → Int) (start : Int) (operands : List Int) : Prop :=
  ∀ front, front <+: operands → InRange (front.foldl combine start)

theorem staysInRange_cons_iff {combine : Int → Int → Int} {start operand : Int}
    {operands : List Int} :
    StaysInRange combine start (operand :: operands) ↔
      InRange start ∧ StaysInRange combine (combine start operand) operands := by
  constructor
  · intro h
    refine ⟨h [] List.nil_prefix, fun front hfront => ?_⟩
    exact h (operand :: front) (List.cons_prefix_cons.2 ⟨rfl, hfront⟩)
  · rintro ⟨hstart, hrest⟩ front hfront
    rcases List.prefix_cons_iff.1 hfront with rfl | ⟨others, rfl, hothers⟩
    · exact hstart
    · exact hrest others hothers

theorem StaysInRange.start {combine : Int → Int → Int} {start : Int} {operands : List Int}
    (h : StaysInRange combine start operands) : InRange start :=
  h [] List.nil_prefix

theorem foldl_sub_eq (start : Int) (operands : List Int) :
    operands.foldl (· - ·) start = start - operands.sum := by
  induction operands generalizing start with
  | nil => simp
  | cons operand operands ih =>
    rw [List.foldl_cons, ih, List.sum_cons]
    omega

/-- Dividing twice without the fraction is dividing once by the product. -/
theorem tdiv_tdiv (i j k : Int) : (i.tdiv j).tdiv k = i.tdiv (j * k) := by
  obtain ⟨l, rfl | rfl⟩ := i.eq_nat_or_neg
  all_goals obtain ⟨m, rfl | rfl⟩ := j.eq_nat_or_neg
  all_goals obtain ⟨n, rfl | rfl⟩ := k.eq_nat_or_neg
  all_goals
    simp only [Int.neg_tdiv, Int.tdiv_neg, ← Int.ofNat_tdiv, Int.neg_mul, Int.mul_neg, Int.neg_neg,
      ← Int.natCast_mul, Nat.div_div_eq_div_mul]

end Number

namespace Builtin

open Number

/-- The error about a result that is out of range. -/
def overflow (operation : Builtin) : Error :=
  .evaluation s!"{operation.name}: integer overflow"

def divisionByZero : Error :=
  .evaluation s!"{divide.name}: division by zero"

theorem ofInteger_toInt (operation : Builtin) (n : Int64) :
    ofInteger operation n.toInt = .ok n := by
  rw [ofInteger, Number.ofInt?_eq_some_iff.2 rfl]

theorem ofInteger_of_not_inRange (operation : Builtin) {i : Int} (h : ¬ InRange i) :
    ofInteger operation i = .error operation.overflow := by
  have hnone : Number.ofInt? i = none := by
    cases hsome : Number.ofInt? i with
    | none => rfl
    | some n =>
      rw [Number.ofInt?_eq_some_iff] at hsome
      exact absurd (hsome ▸ inRange_toInt n) h
  rw [ofInteger, hnone]
  rfl

section

variable (operation : Builtin) (combine : Int → Int → Int)

/-- The calculation that checks the result of every step. -/
def inSteps (start : Int64) (numbers : List Int64) : Except Error Int64 :=
  numbers.foldlM (fun total n => ofInteger operation (combine total.toInt n.toInt)) start

theorem inSteps_cons_of_toInt_eq {start next n : Int64}
    (h : next.toInt = combine start.toInt n.toInt) (rest : List Int64) :
    inSteps operation combine start (n :: rest) = inSteps operation combine next rest := by
  rw [inSteps, List.foldlM_cons, ← h, ofInteger_toInt]
  rfl

theorem inSteps_cons_of_not_inRange {start n : Int64}
    (h : ¬ InRange (combine start.toInt n.toInt)) (rest : List Int64) :
    inSteps operation combine start (n :: rest) = .error operation.overflow := by
  rw [inSteps, List.foldlM_cons, ofInteger_of_not_inRange operation h]
  rfl

theorem exists_inSteps_of_staysInRange {start : Int64} {numbers : List Int64}
    (h : StaysInRange combine start.toInt (toInts numbers)) :
    ∃ n : Int64, n.toInt = (toInts numbers).foldl combine start.toInt ∧
      inSteps operation combine start numbers = .ok n := by
  induction numbers generalizing start with
  | nil => exact ⟨start, rfl, rfl⟩
  | cons n rest ih =>
    have hrest := (staysInRange_cons_iff.1 h).2
    obtain ⟨next, hnext⟩ := exists_toInt_eq hrest.start
    rw [inSteps_cons_of_toInt_eq operation combine hnext]
    rw [← hnext] at hrest
    obtain ⟨result, hresult, hsteps⟩ := ih hrest
    exact ⟨result, by rw [hresult, hnext]; rfl, hsteps⟩

theorem inSteps_of_not_staysInRange {start : Int64} {numbers : List Int64}
    (h : ¬ StaysInRange combine start.toInt (toInts numbers)) :
    inSteps operation combine start numbers = .error operation.overflow := by
  induction numbers generalizing start with
  | nil =>
    refine absurd (fun front hfront => ?_) h
    rw [List.prefix_nil.1 hfront]
    exact inRange_toInt start
  | cons n rest ih =>
    by_cases hstep : InRange (combine start.toInt n.toInt)
    · obtain ⟨next, hnext⟩ := exists_toInt_eq hstep
      rw [inSteps_cons_of_toInt_eq operation combine hnext]
      apply ih
      intro hrest
      rw [hnext] at hrest
      exact h (staysInRange_cons_iff.2 ⟨inRange_toInt start, hrest⟩)
    · exact inSteps_cons_of_not_inRange operation combine hstep rest

end

/-- A dividend can be divided by all the divisors in turn: none of them is zero, and the least
number is not divided by minus one. -/
def DividesThrough (dividend : Int) (divisors : List Int) : Prop :=
  ∀ front divisor rest, divisors = front ++ divisor :: rest →
    divisor ≠ 0 ∧ ¬ (dividend.tdiv front.prod = -2 ^ 63 ∧ divisor = -1)

/-- What a division comes to: the quotient without its fraction, or the failure at the first divisor
that the dividend cannot be divided by. -/
inductive DivisionEnds (dividend : Int) (divisors : List Int) : Except Error Int → Prop
  | exact (h : DividesThrough dividend divisors) :
      DivisionEnds dividend divisors (.ok (dividend.tdiv divisors.prod))
  | byZero {front rest : List Int} (hsplit : divisors = front ++ 0 :: rest)
      (h : DividesThrough dividend front) : DivisionEnds dividend divisors (.error divisionByZero)
  | overflow {front rest : List Int} (hsplit : divisors = front ++ -1 :: rest)
      (h : DividesThrough dividend front) (hleast : dividend.tdiv front.prod = -2 ^ 63) :
      DivisionEnds dividend divisors (.error divide.overflow)

theorem dividesThrough_nil (dividend : Int) : DividesThrough dividend [] := by
  intro front divisor rest hsplit
  simp at hsplit

theorem dividesThrough_concat_iff {dividend divisor : Int} {divisors : List Int} :
    DividesThrough dividend (divisors ++ [divisor]) ↔
      DividesThrough dividend divisors ∧ divisor ≠ 0 ∧
        ¬ (dividend.tdiv divisors.prod = -2 ^ 63 ∧ divisor = -1) := by
  constructor
  · intro h
    refine ⟨fun front other rest hsplit => ?_, h divisors divisor [] rfl⟩
    exact h front other (rest ++ [divisor]) (by rw [hsplit, List.append_assoc, List.cons_append])
  · rintro ⟨hfront, hlast⟩ front other rest hsplit
    rcases List.eq_nil_or_concat rest with rfl | ⟨rest, last, rfl⟩
    · obtain ⟨rfl, hother⟩ := List.append_inj' hsplit rfl
      obtain rfl := List.singleton_inj.1 hother
      exact hlast
    · rw [List.concat_eq_append, ← List.cons_append, ← List.append_assoc] at hsplit
      exact hfront front other rest (List.append_inj' hsplit rfl).1

theorem exists_divisionEnds (dividend : Int) (divisors : List Int) :
    ∃ outcome, DivisionEnds dividend divisors outcome := by
  induction divisors using List.reverseRecOn with
  | nil => exact ⟨_, .exact (dividesThrough_nil dividend)⟩
  | append_singleton divisors divisor ih =>
    obtain ⟨outcome, hends⟩ := ih
    cases hends with
    | @byZero front rest hsplit h =>
      have hlonger : divisors ++ [divisor] = front ++ 0 :: (rest ++ [divisor]) := by
        rw [hsplit, List.append_assoc, List.cons_append]
      exact ⟨_, .byZero hlonger h⟩
    | @overflow front rest hsplit h hleast =>
      have hlonger : divisors ++ [divisor] = front ++ -1 :: (rest ++ [divisor]) := by
        rw [hsplit, List.append_assoc, List.cons_append]
      exact ⟨_, .overflow hlonger h hleast⟩
    | exact h =>
      by_cases hzero : divisor = 0
      · subst hzero
        exact ⟨_, .byZero rfl h⟩
      · by_cases hleast : dividend.tdiv divisors.prod = -2 ^ 63 ∧ divisor = -1
        · obtain ⟨hleast, rfl⟩ := hleast
          exact ⟨_, .overflow rfl h hleast⟩
        · exact ⟨_, .exact (dividesThrough_concat_iff.2 ⟨h, hzero, hleast⟩)⟩

theorem exists_quotientOf {dividend divisor : Int64} (hzero : divisor.toInt ≠ 0)
    (hleast : ¬ (dividend.toInt = -2 ^ 63 ∧ divisor.toInt = -1)) :
    ∃ n : Int64,
      n.toInt = dividend.toInt.tdiv divisor.toInt ∧ quotientOf dividend divisor = .ok n := by
  have hdivisor : divisor ≠ 0 := fun h => hzero (by rw [h]; rfl)
  have hexact : (dividend / divisor).toInt = dividend.toInt.tdiv divisor.toInt := by
    by_cases hminus : divisor = -1
    · refine Int64.toInt_div_of_ne_left _ _ fun h => hleast ?_
      rw [h, hminus]
      exact ⟨rfl, rfl⟩
    · exact Int64.toInt_div_of_ne_right _ _ hminus
  refine ⟨dividend / divisor, hexact, ?_⟩
  rw [quotientOf, if_neg hdivisor, ← hexact, ofInteger_toInt]

theorem exists_foldlM_quotientOf {dividend : Int64} {divisors : List Int64}
    (h : DividesThrough dividend.toInt (toInts divisors)) :
    ∃ n : Int64, n.toInt = dividend.toInt.tdiv (toInts divisors).prod ∧
      divisors.foldlM quotientOf dividend = .ok n := by
  induction divisors using List.reverseRecOn with
  | nil => exact ⟨dividend, (Int.tdiv_one _).symm, rfl⟩
  | append_singleton divisors divisor ih =>
    rw [toInts, List.map_append] at h
    obtain ⟨hfront, hzero, hleast⟩ := dividesThrough_concat_iff.1 h
    obtain ⟨quotient, hquotient, hfold⟩ := ih hfront
    change ¬ (dividend.toInt.tdiv (toInts divisors).prod = _ ∧ _) at hleast
    rw [← hquotient] at hleast
    obtain ⟨n, hn, hstep⟩ := exists_quotientOf hzero hleast
    refine ⟨n, ?_, ?_⟩
    · rw [hn, hquotient, tdiv_tdiv, toInts, toInts, List.map_append, List.prod_append,
        List.map_singleton, List.prod_singleton]
    · rw [List.foldlM_append, hfold]
      exact congrArg (· >>= pure) hstep

/-- A division that fails at a divisor fails whatever divisors come behind it. -/
theorem foldlM_quotientOf_of_error {dividend quotient divisor : Int64} {front rest : List Int64}
    {e : Error} (hfront : front.foldlM quotientOf dividend = .ok quotient)
    (hfails : quotientOf quotient divisor = .error e) :
    (front ++ divisor :: rest).foldlM quotientOf dividend = .error e := by
  rw [List.foldlM_append, hfront]
  change List.foldlM quotientOf quotient (divisor :: rest) = _
  rw [List.foldlM_cons, hfails]
  rfl

/-- A split of integers that are numbers splits the numbers. -/
theorem exists_of_toInts_eq {numbers : List Int64} {front rest : List Int} {i : Int}
    (h : toInts numbers = front ++ i :: rest) :
    ∃ before n after, numbers = before ++ n :: after ∧ toInts before = front ∧ n.toInt = i := by
  obtain ⟨before, behind, rfl, hbefore, hbehind⟩ := List.map_eq_append_iff.1 h
  obtain ⟨n, after, rfl, hn, -⟩ := List.map_eq_cons_iff.1 hbehind
  exact ⟨before, n, after, rfl, hbefore, hn⟩

/-- The call gives the number that this integer is, or fails with this error. -/
def GivesInteger (operation : Builtin) (numbers : List Int64) : Except Error Int → Prop
  | .ok i => ∃ n : Int64, n.toInt = i ∧ operation.Gives (numbers.map .number) (.ok (.number n))
  | .error e => operation.Gives (numbers.map .number) (.error e)

/-- The call gives the exact result where the condition holds, and overflows everywhere else. -/
structure GivesExactly (operation : Builtin) (numbers : List Int64) (condition : Prop)
    (exact : Int) : Prop where
  exact : condition → operation.GivesInteger numbers (.ok exact)
  overflow : ¬ condition → operation.GivesInteger numbers (.error operation.overflow)

/-- The call comes to what the division of the dividend by the divisors comes to. -/
structure GivesQuotient (numbers : List Int64) (dividend : Int) (divisors : List Int) : Prop where
  ends : ∃ outcome, DivisionEnds dividend divisors outcome
  gives : ∀ outcome, DivisionEnds dividend divisors outcome → divide.GivesInteger numbers outcome

theorem calculate_map_number (operation : Builtin) (result : List Int64 → Except Error Int64)
    (numbers : List Int64) :
    calculate operation result (numbers.map .number) = (result numbers).map .number := by
  rw [calculate, numbers_map_number]
  change (result numbers >>= fun n => pure (Value.number n)) = _
  cases result numbers <;> rfl

/-- A call that computes from its arguments comes to what is computed. -/
theorem givesInteger_of_calculate {operation : Builtin} {result : List Int64 → Except Error Int64}
    {numbers : List Int64} (haccepts : operation.arity.accepts numbers.length)
    (hwritten : operation.written (numbers.map .number) = "")
    (hvalue : operation.value (numbers.map .number) =
      calculate operation result (numbers.map .number)) :
    operation.GivesInteger numbers ((result numbers).map Int64.toInt) := by
  rw [← List.length_map (f := Value.number)] at haccepts
  have hcall := gives_value haccepts hwritten
  rw [hvalue, calculate_map_number] at hcall
  cases hresult : result numbers with
  | ok n =>
    rw [hresult] at hcall
    exact ⟨n, rfl, hcall⟩
  | error e =>
    rw [hresult] at hcall
    exact hcall

theorem givesExactly_of_inSteps (combine : Int → Int → Int) (start : Int64) {operation : Builtin}
    {numbers operands : List Int64}
    (h : operation.GivesInteger numbers
      ((inSteps operation combine start operands).map Int64.toInt)) :
    operation.GivesExactly numbers (StaysInRange combine start.toInt (toInts operands))
      ((toInts operands).foldl combine start.toInt) where
  exact hrange := by
    obtain ⟨n, hn, hsteps⟩ := exists_inSteps_of_staysInRange operation combine hrange
    rwa [hsteps, Except.map, hn] at h
  overflow hrange := by
    rwa [inSteps_of_not_staysInRange operation combine hrange] at h

theorem givesExactly_add (numbers : List Int64) :
    add.GivesExactly numbers (∀ front, front <+: toInts numbers → InRange front.sum)
      (toInts numbers).sum := by
  have hcall : add.GivesInteger numbers ((sum numbers).map Int64.toInt) :=
    givesInteger_of_calculate rfl rfl rfl
  have hexact := givesExactly_of_inSteps (· + ·) 0 hcall
  simpa only [StaysInRange, Int64.toInt_zero, ← List.sum_eq_foldl] using hexact

theorem givesExactly_multiply (numbers : List Int64) :
    multiply.GivesExactly numbers (∀ front, front <+: toInts numbers → InRange front.prod)
      (toInts numbers).prod := by
  have hcall : multiply.GivesInteger numbers ((product numbers).map Int64.toInt) :=
    givesInteger_of_calculate rfl rfl rfl
  have hexact := givesExactly_of_inSteps (· * ·) 1 hcall
  simpa only [StaysInRange, Int64.toInt_one, ← List.prod_eq_foldl] using hexact

theorem givesExactly_subtract (first second : Int64) (rest : List Int64) :
    subtract.GivesExactly (first :: second :: rest)
      (∀ front, front <+: toInts (second :: rest) → InRange (first.toInt - front.sum))
      (first.toInt - (toInts (second :: rest)).sum) := by
  have haccepts : subtract.arity.accepts (first :: second :: rest).length := by
    simp [arity, Arity.accepts]
  have hcall : subtract.GivesInteger (first :: second :: rest)
      ((difference (first :: second :: rest)).map Int64.toInt) :=
    givesInteger_of_calculate haccepts rfl rfl
  have hexact := givesExactly_of_inSteps (· - ·) first hcall
  simpa only [StaysInRange, foldl_sub_eq] using hexact

/-- A number can be negated if it is not the least. -/
theorem givesExactly_negate (n : Int64) :
    subtract.GivesExactly [n] (n.toInt ≠ -2 ^ 63) (-n.toInt) := by
  have hcall : subtract.GivesInteger [n] ((difference [n]).map Int64.toInt) :=
    givesInteger_of_calculate rfl rfl rfl
  have hlow := n.le_toInt
  have hhigh := n.toInt_lt
  constructor
  · intro hleast
    have hrange : InRange (-n.toInt) := by
      simp only [InRange]
      omega
    obtain ⟨negated, hnegated⟩ := exists_toInt_eq hrange
    rw [difference, ← hnegated, ofInteger_toInt] at hcall
    rwa [← hnegated]
  · intro hleast
    have hrange : ¬ InRange (-n.toInt) := by
      simp only [InRange]
      omega
    rwa [difference, ofInteger_of_not_inRange _ hrange] at hcall

/-- A division in steps comes to what the division comes to. -/
theorem foldlM_quotientOf_eq {dividend : Int64} {divisors : List Int64} {outcome : Except Error Int}
    (h : DivisionEnds dividend.toInt (toInts divisors) outcome) :
    (divisors.foldlM quotientOf dividend).map Int64.toInt = outcome := by
  cases h with
  | exact h =>
    obtain ⟨n, hn, hfold⟩ := exists_foldlM_quotientOf h
    rw [hfold, Except.map, hn]
  | byZero hsplit h =>
    obtain ⟨front, divisor, rest, rfl, rfl, hzero⟩ := exists_of_toInts_eq hsplit
    obtain ⟨quotient, -, hfold⟩ := exists_foldlM_quotientOf h
    have hfails : quotientOf quotient divisor = .error divisionByZero := by
      rw [quotientOf, if_pos (Int64.toInt_inj.1 hzero)]
      rfl
    rw [foldlM_quotientOf_of_error hfold hfails]
    rfl
  | overflow hsplit h hleast =>
    obtain ⟨front, divisor, rest, rfl, rfl, hminus⟩ := exists_of_toInts_eq hsplit
    obtain ⟨quotient, hquotient, hfold⟩ := exists_foldlM_quotientOf h
    have hdivisor : divisor ≠ 0 := fun hzero => by
      rw [hzero] at hminus
      cases hminus
    have hrange : ¬ InRange (quotient.toInt.tdiv divisor.toInt) := by
      rw [hquotient, hleast, hminus]
      decide
    have hfails : quotientOf quotient divisor = .error divide.overflow := by
      rw [quotientOf, if_neg hdivisor, ofInteger_of_not_inRange _ hrange]
    rw [foldlM_quotientOf_of_error hfold hfails]
    rfl

theorem givesQuotient_divide (first second : Int64) (rest : List Int64) :
    GivesQuotient (first :: second :: rest) first.toInt (toInts (second :: rest)) where
  ends := exists_divisionEnds _ _
  gives outcome hends := by
    have haccepts : divide.arity.accepts (first :: second :: rest).length := by
      simp [arity, Arity.accepts]
    have hcall : divide.GivesInteger (first :: second :: rest)
        ((quotient (first :: second :: rest)).map Int64.toInt) :=
      givesInteger_of_calculate haccepts rfl rfl
    have hfold :
        quotient (first :: second :: rest) = (second :: rest).foldlM quotientOf first := rfl
    rwa [hfold, foldlM_quotientOf_eq hends] at hcall

theorem givesQuotient_reciprocal (n : Int64) : GivesQuotient [n] 1 (toInts [n]) where
  ends := exists_divisionEnds _ _
  gives outcome hends := by
    have hcall : divide.GivesInteger [n] ((quotient [n]).map Int64.toInt) :=
      givesInteger_of_calculate rfl rfl rfl
    have hfold : quotient [n] = [n].foldlM quotientOf 1 := (bind_pure _).symm
    rw [← Int64.toInt_one] at hends
    rwa [hfold, foldlM_quotientOf_eq hends] at hcall

/-- What the four operations of arithmetic come to. -/
structure ArithmeticIsExact : Prop where
  /-- An argument that is no number is an error, whatever would become of the numbers around it. -/
  stray : ∀ operation ∈ [add, subtract, multiply, divide], ∀ arguments : List Value,
    operation.arity.accepts arguments.length → (∃ argument ∈ arguments, ∀ n, argument ≠ .number n) →
      ∃ place stray, IsFirstStray arguments place stray ∧
        operation.Gives arguments (.error (operation.strayError place stray))
  sum : ∀ numbers, add.GivesExactly numbers
    (∀ front, front <+: toInts numbers → InRange front.sum) (toInts numbers).sum
  product : ∀ numbers, multiply.GivesExactly numbers
    (∀ front, front <+: toInts numbers → InRange front.prod) (toInts numbers).prod
  difference : ∀ first second rest, subtract.GivesExactly (first :: second :: rest)
    (∀ front, front <+: toInts (second :: rest) → InRange (first.toInt - front.sum))
    (first.toInt - (toInts (second :: rest)).sum)
  negation : ∀ n, subtract.GivesExactly [n] (n.toInt ≠ -2 ^ 63) (-n.toInt)
  quotient : ∀ first second rest,
    GivesQuotient (first :: second :: rest) first.toInt (toInts (second :: rest))
  reciprocal : ∀ n, GivesQuotient [n] 1 (toInts [n])

/-- Arithmetic never wraps around. Arguments that are no numbers come before everything else. A sum,
a product or a difference is exact where every step stays in range, and overflows elsewhere. A
division is a single division by the product of the divisors, unless one of them is zero or the
least number meets minus one, whichever is first. -/
theorem arithmetic_is_exact : ArithmeticIsExact where
  stray operation hoperation arguments haccepts hstray := by
    have hnumeric : ∀ operation ∈ [add, subtract, multiply, divide], operation.isNumeric := by
      decide
    exact exists_gives_strayError (hnumeric operation hoperation) haccepts hstray
  sum := givesExactly_add
  product := givesExactly_multiply
  difference := givesExactly_subtract
  negation := givesExactly_negate
  quotient := givesQuotient_divide
  reciprocal := givesQuotient_reciprocal

/-- A sum that is in range overflows on the way to it. The least number meets minus one before the
zero, and behind the zero nothing matters. Two divisions that drop a fraction drop what one drops. A
string in the third place counts for more than the overflow in front of it. -/
theorem arithmetic_is_exact_on_the_way :
    let greatest := Int64.maxValue
    let least := Int64.minValue
    add.Gives [.number greatest, .number 1, .number (-1)] (.error add.overflow) ∧
      divide.Gives [.number least, .number 1, .number (-1), .number 0] (.error divide.overflow) ∧
      divide.Gives [.number least, .number 0, .number (-1)] (.error divisionByZero) ∧
      (∃ n : Int64, n.toInt = 1 ∧
        divide.Gives [.number (-7), .number 2, .number (-2)] (.ok (.number n))) ∧
      ∃ place stray, IsFirstStray [.number greatest, .number 1, .string "a", .nil] place stray ∧
        add.Gives [.number greatest, .number 1, .string "a", .nil]
          (.error (add.strayError place stray)) := by
  intro greatest least
  have hsteps : ¬ ∀ front, front <+: toInts [greatest, 1, -1] → InRange front.sum := by
    intro h
    exact absurd (h (toInts [greatest, 1]) (List.prefix_append _ _)) (by decide)
  have hdivides : DividesThrough least.toInt [1] := by
    rw [← List.nil_append [1], dividesThrough_concat_iff]
    exact ⟨dividesThrough_nil _, by decide, by decide⟩
  have hquotient : DividesThrough (-7) [2, -2] := by
    rw [← List.singleton_append, dividesThrough_concat_iff, ← List.nil_append [2],
      dividesThrough_concat_iff]
    exact ⟨⟨dividesThrough_nil _, by decide, by decide⟩, by decide, by decide⟩
  have hminus : toInts [1, -1, 0] = [1] ++ -1 :: [0] := rfl
  have hzero : toInts [0, -1] = [] ++ 0 :: [-1] := rfl
  refine ⟨(arithmetic_is_exact.sum [greatest, 1, -1]).overflow hsteps, ?_, ?_, ?_, ?_⟩
  · exact (arithmetic_is_exact.quotient least 1 [-1, 0]).gives _
      (.overflow hminus hdivides (by decide))
  · exact (arithmetic_is_exact.quotient least 0 [-1]).gives _
      (.byZero hzero (dividesThrough_nil _))
  · exact (arithmetic_is_exact.quotient (-7) 2 [-2]).gives _ (.exact hquotient)
  · exact arithmetic_is_exact.stray add (by decide) _ rfl ⟨.string "a", by simp, by simp⟩

end Builtin

end SmallLisp
