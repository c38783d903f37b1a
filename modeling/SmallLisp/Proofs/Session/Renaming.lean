import Mathlib.Logic.Equiv.Basic
import SmallLisp.Proofs.Session.Run

/-!
The names that a program gives to its variables do not matter. A session in which they are renamed
goes like the first one: the values have the same text, the errors are of the same kind, the same is
written, and the frames hold the same bindings under the other names.
-/

namespace SmallLisp

namespace Error

/-- What kind of error it is, whatever it says. -/
inductive Variant where
  | read
  | evaluation
  | type
  | unbound
  | arity
  | notCallable
  | malformed
  deriving DecidableEq, Repr

def variant : Error → Variant
  | .read _ => .read
  | .evaluation _ => .evaluation
  | .type _ => .type
  | .unbound _ => .unbound
  | .arity .. => .arity
  | .notCallable _ => .notCallable
  | .malformed _ => .malformed

theorem Renamed.variant_eq {ρ : Renaming} {d e : Error} (h : Renamed ρ d e) :
    e.variant = d.variant := by
  cases h <;> rfl

end Error

namespace Renaming

/-- Two stores with the same output and the same frames, where the bindings of the second have the
renamed names and values. -/
structure MirrorsStore (ρ : Renaming) (s t : Store) : Prop where
  output : t.output = s.output
  frames : t.frames = s.frames.map (Frame.rename ρ)

/-- Two ends that differ in the names of variables at most. -/
inductive Mirrors (ρ : Renaming) :
    EStateM.Result Halt Store Value → EStateM.Result Halt Store Value → Prop
  | ok {v w s t} (hprint : w.print .readable = v.print .readable) (hstores : ρ.MirrorsStore s t) :
      Mirrors ρ (.ok v s) (.ok w t)
  | failure {d e s t} (hvariant : e.variant = d.variant) (hstores : ρ.MirrorsStore s t) :
      Mirrors ρ (.error (.failure d) s) (.error (.failure e) t)
  | outOfFuel {s t} (hstores : ρ.MirrorsStore s t) :
      Mirrors ρ (.error .outOfFuel s) (.error .outOfFuel t)

theorem mirrorsStore_rename (ρ : Renaming) (s : Store) : ρ.MirrorsStore s (s.rename ρ) where
  output := rfl
  frames := rfl

theorem mirrors_of_endsRelated {ρ : Renaming} {first second : EStateM.Result Halt Store Value}
    (h : Action.EndsRelated (Correspondence.renamed ρ).relation (Vocabulary.settled.Renamed ρ)
      first second) : ρ.Mirrors first second := by
  cases h with
  | ok hvalue hstores =>
    obtain ⟨hsettled, rfl⟩ := hvalue
    obtain ⟨-, rfl⟩ := hstores
    exact .ok (Value.print_rename hsettled ρ .readable) (ρ.mirrorsStore_rename _)
  | failure herror hstores =>
    obtain ⟨-, rfl⟩ := hstores
    exact .failure herror.variant_eq (ρ.mirrorsStore_rename _)
  | outOfFuel hstores =>
    obtain ⟨-, rfl⟩ := hstores
    exact .outOfFuel (ρ.mirrorsStore_rename _)

end Renaming

/-- Expressions that were read, evaluated one after the other in a session, and the renamed
expressions in another session: at every step both succeed, both fail or both go on forever, and
what can be seen of them is the same but for the names. -/
theorem names_do_not_matter (ρ : Renaming) (fuel : Nat) (expressions : List Value)
    (hread : ∀ expression ∈ expressions, ∃ text, read text = .ok expression) :
    List.Forall₂ ρ.Mirrors
      (Action.runEach
        (expressions.map fun expression => evaluateWithin fuel expression Session.start.frame)
        Session.start.store)
      (Action.runEach
        ((expressions.map (Value.rename ρ)).map fun expression =>
          evaluateWithin fuel expression Session.start.frame)
        Session.start.store) := by
  let C := Correspondence.renamed ρ
  have hactions : List.Forall₂ (Action.Related C.relation (Vocabulary.settled.Renamed ρ))
      (expressions.map fun expression => evaluateWithin fuel expression Session.start.frame)
      ((expressions.map (Value.rename ρ)).map fun expression =>
        evaluateWithin fuel expression Session.start.frame) := by
    rw [List.map_map, List.forall₂_map_left_iff, List.forall₂_map_right_iff, List.forall₂_same]
    intro expression hexpression
    obtain ⟨text, htext⟩ := hread expression hexpression
    exact C.evaluateWithin_inStep fuel _ (isLiteral_of_read htext).1
  have hstart : C.Stores Session.start.store Session.start.store :=
    ⟨Session.start_isSettled, (Session.start_rename ρ).symm⟩
  have hends := Action.forall₂_runEach hactions hstart
  exact hends.imp fun _ _ => Renaming.mirrors_of_endsRelated

/-- Whether a symbol has no meaning of its own. -/
def Symbol.isVariable (symbol : Symbol) : Bool :=
  !symbol.isConstant && (SpecialForm.ofSymbol? symbol).isNone && symbol ≠ .ampersand &&
    (Builtin.ofName? symbol.name).isNone

theorem Symbol.swap_of_not_isVariable {first second symbol : Symbol} (hfirst : first.isVariable)
    (hsecond : second.isVariable) (h : symbol.isVariable = false) :
    Equiv.swap first second symbol = symbol := by
  apply Equiv.swap_apply_of_ne_of_ne
  · rintro rfl
    rw [h] at hfirst
    cases hfirst
  · rintro rfl
    rw [h] at hsecond
    cases hsecond

/-- The renaming that swaps two variables. -/
def Renaming.swap (first second : Symbol) (hfirst : first.isVariable)
    (hsecond : second.isVariable) :
    Renaming where
  apply := Equiv.swap first second
  injective := (Equiv.swap first second).injective
  constant symbol hsymbol :=
    Symbol.swap_of_not_isVariable hfirst hsecond (by simp [Symbol.isVariable, hsymbol])
  form form :=
    Symbol.swap_of_not_isVariable hfirst hsecond (by cases form <;> decide)
  ampersand :=
    Symbol.swap_of_not_isVariable hfirst hsecond (by decide)
  builtin operation :=
    Symbol.swap_of_not_isVariable hfirst hsecond (by cases operation <;> decide)

/-- A session that defines `x`, shadows it by `y` and by a parameter, prints both, and then fails at
`y`, which is not defined. With the two names swapped it prints the same and fails at `x`. -/
theorem names_do_not_matter_swapped :
    let ρ := Renaming.swap ⟨"x"⟩ ⟨"y"⟩ rfl rfl
    let x : Value := .symbol ⟨"x"⟩
    let y : Value := .symbol ⟨"y"⟩
    let definition (a : Value) : Value := .list [.symbol ⟨"def!"⟩, a, .number 1]
    let shadowing (a b : Value) : Value := .list [.symbol ⟨"let*"⟩, .vector [b, .number 2],
      .list [.list [.symbol ⟨"fn*"⟩, .list [a], .list [.symbol ⟨"prn"⟩, a, b]], b]]
    let session (a b : Value) : List (Action Value) :=
      [definition a, shadowing a b, b].map (evaluateWithin 9 · Session.start.frame)
    (∀ expression ∈ [definition x, shadowing x y, y], ∃ text, read text = .ok expression) ∧
      List.Forall₂ ρ.Mirrors (Action.runEach (session x y) Session.start.store)
        (Action.runEach (session y x) Session.start.store) := by
  intro ρ x y definition shadowing session
  have hread : ∀ expression ∈ [definition x, shadowing x y, y],
      ∃ text, read text = .ok expression := by
    simp only [List.forall_mem_cons]
    refine ⟨⟨"(def! x 1)", ?_⟩, ⟨"(let* [y 2] ((fn* (x) (prn x y)) y))", ?_⟩, ⟨"y", ?_⟩,
      List.forall_mem_nil _⟩
    all_goals cbv
  have hsession := names_do_not_matter ρ 9 [definition x, shadowing x y, y] hread
  have hrenamed : [definition x, shadowing x y, y].map (Value.rename ρ) =
      [definition y, shadowing y x, x] := by
    rfl
  rw [hrenamed] at hsession
  exact ⟨hread, hsession⟩

end SmallLisp
