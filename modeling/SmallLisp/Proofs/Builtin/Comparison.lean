import Mathlib.Data.List.Forall2
import Mathlib.Data.List.Pairwise
import SmallLisp.Proofs.Evaluation.Outcomes
import SmallLisp.Proofs.Value.Equality

/-!
Comparisons. Values are equal when they have the same shape and the same parts, where a list and a
vector have one shape. A call that compares several arguments looks only at neighbours. Where the
comparison is transitive this decides about all pairs, and where it is symmetric too, as equality
is, the order of the arguments does not matter.
-/

namespace SmallLisp

namespace Builtin

theorem neighbours_cons_cons {α : Type} (related : α → α → Bool) (first second : α)
    (rest : List α) :
    neighbours related (first :: second :: rest) =
      (related first second && neighbours related (second :: rest)) := rfl

theorem neighbours_iff_isChain {α : Type} (related : α → α → Bool) (items : List α) :
    neighbours related items ↔ items.IsChain fun x y => related x y := by
  induction items with
  | nil => simp [neighbours]
  | cons first rest ih =>
    cases rest with
    | nil => simp [neighbours]
    | cons second rest =>
      rw [neighbours_cons_cons, Bool.and_eq_true, ih, List.isChain_cons_cons]

/-- Neighbours are equal where all arguments are. -/
theorem neighbours_beq_iff (arguments : List Value) :
    neighbours (· == ·) arguments ↔
      ∀ first ∈ arguments, ∀ second ∈ arguments, first == second := by
  have htrans : IsTrans Value fun x y => x == y := ⟨fun _ _ _ => BEq.trans⟩
  rw [neighbours_iff_isChain, List.isChain_iff_pairwise]
  constructor
  · intro hpairs
    have hsymm : Std.Symm fun x y : Value => (x == y) = true := ⟨fun _ _ => BEq.symm⟩
    exact hpairs.forall_of_forall fun _ _ => BEq.refl _
  · intro hall
    exact List.pairwise_of_forall_mem_list hall

end Builtin

namespace Value

theorem beqItems_iff_forall₂ (items others : List Value) :
    beqItems items others = true ↔ List.Forall₂ (fun item other => item == other) items others := by
  induction items generalizing others with
  | nil => cases others <;> simp [beqItems]
  | cons item items ih =>
    cases others with
    | nil => simp [beqItems]
    | cons other others =>
      rw [beqItems, Bool.and_eq_true, ih, List.forall₂_cons]
      rfl

theorem beqEntries_iff_forall₂ (entries others : List (Value × Value)) :
    beqEntries entries others = true ↔
      List.Forall₂ (fun entry other => entry.1 == other.1 ∧ entry.2 == other.2) entries others := by
  induction entries generalizing others with
  | nil => cases others <;> simp [beqEntries]
  | cons entry entries ih =>
    cases others with
    | nil => simp [beqEntries]
    | cons other others =>
      rw [beqEntries, Bool.and_eq_true, Bool.and_eq_true, ih, List.forall₂_cons]
      rfl

/-- Lists and vectors are equal when their items are, whichever of the two each is. -/
theorem beq_iff_of_items? {first second : Value} {items others : List Value}
    (hfirst : first.items? = some items) (hsecond : second.items? = some others) :
    first == second ↔ List.Forall₂ (fun item other => item == other) items others := by
  rw [← beqItems_iff_forall₂]
  cases first <;> cases second <;> cases hfirst <;> cases hsecond <;> exact Iff.rfl

end Value

theorem callsTo_equal_iff {arguments : List Value} (h : 2 ≤ arguments.length) {before after : Store}
    {outcome : Except Error Value} :
    CallsTo (.builtin .equal) arguments before outcome after ↔
      outcome = .ok (.ofBool (Builtin.neighbours (· == ·) arguments)) ∧ after = before := by
  have haccepts : Builtin.equal.arity.accepts arguments.length := decide_eq_true h
  have hwritten : Builtin.equal.written arguments = "" := rfl
  rw [callsTo_builtin_iff haccepts rfl, hwritten, Store.write_empty]

/-- What equality tells apart, as an operation on values and as a builtin. -/
structure EqualityIsStructural : Prop where
  /-- Equal values are one tree when every vector in them has become a list. -/
  eq_iff : ∀ first second : Value, first == second ↔ first.plain = second.plain
  closure_iff : ∀ identity parameters body scope other parameters' body' scope',
    Value.closure identity parameters body scope == .closure other parameters' body' scope' ↔
      identity = other
  builtin_iff : ∀ operation other : Builtin,
    Value.builtin operation == .builtin other ↔ operation.name = other.name
  refl : ∀ value : Value, value == value
  symm : ∀ first second : Value, first == second → second == first
  trans : ∀ first second third : Value, first == second → second == third → first == third
  items_iff : ∀ (first second : Value) items others, first.items? = some items →
    second.items? = some others →
      (first == second ↔ List.Forall₂ (fun item other => item == other) items others)
  map_iff : ∀ entries others, Value.map entries == .map others ↔
    List.Forall₂ (fun entry other => entry.1 == other.1 ∧ entry.2 == other.2) entries others
  /-- The builtin says whether all its arguments are equal, and does nothing else. -/
  equal : ∀ arguments : List Value, 2 ≤ arguments.length → ∃ answer : Bool,
    (answer ↔ ∀ first ∈ arguments, ∀ second ∈ arguments, first == second) ∧
      ∀ before outcome after, CallsTo (.builtin .equal) arguments before outcome after ↔
        outcome = .ok (.ofBool answer) ∧ after = before
  equal_perm : ∀ arguments others : List Value, 2 ≤ arguments.length → arguments.Perm others →
    ∀ before outcome after, CallsTo (.builtin .equal) arguments before outcome after ↔
      CallsTo (.builtin .equal) others before outcome after

/-- Equality of values is sameness but for the difference of lists and vectors. It is an equivalence
and goes by the parts of lists, vectors and maps, so the builtin that compares neighbours compares
all its arguments, in whatever order they stand. -/
theorem equality_is_structural : EqualityIsStructural where
  eq_iff _ _ := Value.beq_iff_plain_eq
  closure_iff _ _ _ _ _ _ _ _ := by simp [Value.beq_iff_plain_eq, Value.plain]
  builtin_iff operation other := by
    rw [Value.beq_iff_plain_eq, Value.plain, Value.plain, Value.builtin.injEq]
    constructor
    · exact congrArg Builtin.name
    · intro hname
      have hfound := Builtin.ofName?_name other
      rwa [← hname, Builtin.ofName?_name, Option.some.injEq] at hfound
  refl _ := BEq.refl _
  symm _ _ := BEq.symm
  trans _ _ _ := BEq.trans
  items_iff _ _ _ _ := Value.beq_iff_of_items?
  map_iff entries others := Value.beqEntries_iff_forall₂ entries others
  equal arguments h := ⟨_, Builtin.neighbours_beq_iff arguments, fun _ _ _ => callsTo_equal_iff h⟩
  equal_perm arguments others h hperm before outcome after := by
    have hanswer : Builtin.neighbours (· == ·) arguments = Builtin.neighbours (· == ·) others := by
      rw [Bool.eq_iff_iff, Builtin.neighbours_beq_iff, Builtin.neighbours_beq_iff]
      simp only [hperm.mem_iff]
    rw [callsTo_equal_iff h, callsTo_equal_iff (hperm.length_eq ▸ h), hanswer]

/-- The three ways to bracket a list in a list are equal to one another. -/
theorem equality_is_structural_brackets :
    let arguments : List Value :=
      [.list [.number 1, .vector [.number 2]], .vector [.number 1, .list [.number 2]],
        .vector [.number 1, .vector [.number 2]]]
    2 ≤ arguments.length ∧
      ∀ store, CallsTo (.builtin .equal) arguments store (.ok (.ofBool true)) store := by
  intro arguments
  have hlength : 2 ≤ arguments.length := by decide
  obtain ⟨answer, hanswer, hcalls⟩ := equality_is_structural.equal arguments hlength
  have hplain : ∀ argument ∈ arguments,
      argument.plain = .list [.number 1, .list [.number 2]] := by
    simp [arguments, Value.plain, Value.plainAll]
  have hall : ∀ first ∈ arguments, ∀ second ∈ arguments, first == second := by
    intro first hfirst second hsecond
    rw [equality_is_structural.eq_iff, hplain first hfirst, hplain second hsecond]
  obtain rfl := hanswer.2 hall
  exact ⟨hlength, fun store => (hcalls store _ store).2 ⟨rfl, rfl⟩⟩

end SmallLisp
