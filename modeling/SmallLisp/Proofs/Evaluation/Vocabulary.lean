import SmallLisp.Proofs.Action.Related
import SmallLisp.Proofs.Evaluation.BigStep
import SmallLisp.Proofs.Value.Literal
import SmallLisp.Proofs.Value.Rename

/-!
Vocabularies. A vocabulary says which names, expressions and values a program may use, so that its
evaluation stays among them. Two runs are compared within a vocabulary, where the second run has the
renamed values of the first.
-/

namespace SmallLisp

namespace Parameters

variable (ρ : Renaming)

theorem symbols_renamed (items : List Value) :
    Action.OutcomesRelated (Error.Renamed ρ)
      (fun symbols others => others = symbols.map ρ.apply)
      (symbols items) (symbols (items.map (Value.rename ρ))) := by
  fun_induction symbols items with
  | case1 => exact .ok rfl
  | case2 symbol rest ih =>
    rw [List.map_cons, Value.rename, symbols]
    apply ih.map
    rintro names _ rfl
    rfl
  | case3 value rest hvalue =>
    have hrenamed : symbols (value.rename ρ :: rest.map (Value.rename ρ)) =
        .error (.type ("fn* parameters must be symbols, got " ++
          (value.rename ρ).print .readable)) := by
      cases value with
      | symbol s => exact absurd rfl (hvalue s)
      | _ => rfl
    rw [List.map_cons, hrenamed]
    exact .error (.type _ value)

/-- A renamed parameter list names the renamed parameters, or is refused as the first one was. -/
theorem ofItems_renamed (items : List Value) :
    Action.OutcomesRelated (Error.Renamed ρ)
      (fun parameters others => ofItems items = .ok parameters ∧ others = parameters.rename ρ)
      (ofItems items) (ofItems (items.map (Value.rename ρ))) := by
  have hsymbols := symbols_renamed ρ items
  rw [ofItems, ofItems]
  generalize symbols items = first at hsymbols
  generalize symbols (items.map (Value.rename ρ)) = second at hsymbols
  cases hsymbols with
  | error herror => exact .error herror
  | @ok names _ hmap =>
    subst hmap
    change Action.OutcomesRelated _ _ (ofSymbols names) (ofSymbols (names.map ρ.apply))
    rw [ofSymbols_map]
    cases hfound : ofSymbols names with
    | ok parameters => exact .ok ⟨hfound, rfl⟩
    | error e => exact .error (.same e)

end Parameters

/-- Names, expressions and values that evaluation does not lead out of. -/
structure Vocabulary where
  /-- The names that expressions define or look up. -/
  IsName : Symbol → Prop
  /-- The values that may be evaluated. -/
  IsExpression : Value → Prop
  /-- The values that evaluation gives and that names stand for. -/
  IsValue : Value → Prop
  name_of_expression : ∀ {name}, IsExpression (.symbol name) → IsName name
  items_of_expression : ∀ {expression items}, expression.items? = some items →
    IsExpression expression → ∀ item ∈ items, IsExpression item
  entries_of_expression : ∀ {entries}, IsExpression (.map entries) →
    ∀ entry ∈ entries, IsExpression entry.1 ∧ IsExpression entry.2
  value_of_expression : ∀ {expression}, expression.isSelfEvaluating →
    IsExpression expression → IsValue expression
  number : ∀ n, IsValue (.number n)
  string : ∀ text, IsValue (.string text)
  nil : IsValue .nil
  ofBool : ∀ b, IsValue (.ofBool b)
  list : ∀ {items}, (∀ item ∈ items, IsValue item) → IsValue (.list items)
  vector : ∀ {items}, (∀ item ∈ items, IsValue item) → IsValue (.vector items)
  map : ∀ {entries}, (∀ entry ∈ entries, IsValue entry.1 ∧ IsValue entry.2) →
    IsValue (.map (Entries.insertAll entries []))
  closure : ∀ {items parameters body}, (∀ item ∈ items, IsExpression item) →
    Parameters.ofItems items = .ok parameters → (∀ part ∈ body, IsExpression part) →
    ∀ identity scope, IsValue (.closure identity parameters body scope)
  names_of_closure : ∀ {identity parameters body scope},
    IsValue (.closure identity parameters body scope) →
    ∀ name ∈ parameters.fixed ++ parameters.rest.toList, IsName name
  body_of_closure : ∀ {identity parameters body scope},
    IsValue (.closure identity parameters body scope) → ∀ part ∈ body, IsExpression part

namespace Vocabulary

/-- A value of the first run and the value of the second run that goes with it. -/
def Renamed (V : Vocabulary) (ρ : Renaming) (first second : Value) : Prop :=
  V.IsValue first ∧ second = first.rename ρ

/-- The same for several values. -/
def RenamedAll (V : Vocabulary) (ρ : Renaming) (first second : List Value) : Prop :=
  (∀ value ∈ first, V.IsValue value) ∧ second = first.map (Value.rename ρ)

/-- Steps that are the same but for the names. -/
inductive RenamedStep (V : Vocabulary) (ρ : Renaming) : Step → Step → Prop
  | done {value} (h : V.IsValue value) : RenamedStep V ρ (.done value) (.done (value.rename ρ))
  | continue {expression frame} (h : V.IsExpression expression) :
      RenamedStep V ρ (.continue expression frame) (.continue (expression.rename ρ) frame)

variable {V : Vocabulary} {ρ : Renaming}

theorem ofBool_renamed (b : Bool) : V.Renamed ρ (.ofBool b) (.ofBool b) :=
  ⟨V.ofBool b, (Value.rename_ofBool ρ b).symm⟩

theorem calculated_renamed (outcome : Except Error Int64) :
    Action.OutcomesRelated (Error.Renamed ρ) (V.Renamed ρ)
      (outcome.map .number) (outcome.map .number) := by
  cases outcome with
  | ok n => exact .ok ⟨V.number n, rfl⟩
  | error e => exact .error (.same e)

theorem compared_renamed (operation : Builtin) (related : Int64 → Int64 → Bool)
    (arguments : List Value) :
    Action.OutcomesRelated (Error.Renamed ρ) (V.Renamed ρ)
      (operation.compare related arguments) (operation.compare related arguments) := by
  rw [Builtin.compare]
  cases operation.numbers 1 arguments with
  | ok numbers => exact .ok (ofBool_renamed _)
  | error e => exact .error (.same e)

/-- The bindings of a call are names and values again. -/
theorem bindings_of_closure {identity : Nat} {parameters : Parameters} {body : List Value}
    {scope : FrameId} (hclosure : V.IsValue (.closure identity parameters body scope))
    {arguments : List Value} (harguments : ∀ argument ∈ arguments, V.IsValue argument) :
    ∀ binding ∈ parameters.bindings arguments, V.IsName binding.1 ∧ V.IsValue binding.2 := by
  have hnames := V.names_of_closure hclosure
  refine Entries.forall_insertAll (fun binding hbinding => ?_) (List.forall_mem_nil _)
  rcases List.mem_append.1 hbinding with hfixed | hrest
  · obtain ⟨hname, hargument⟩ := List.of_mem_zip hfixed
    exact ⟨hnames _ (List.mem_append_left _ hname), harguments _ hargument⟩
  · obtain ⟨name, hname, rfl⟩ := List.mem_map.1 hrest
    refine ⟨hnames _ (List.mem_append_right _ hname), V.list fun argument hargument => ?_⟩
    exact harguments argument (List.mem_of_mem_drop hargument)

end Vocabulary

end SmallLisp
