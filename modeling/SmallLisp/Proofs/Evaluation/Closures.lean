import Mathlib.Data.List.TakeWhile
import SmallLisp.Proofs.Evaluation.Outcomes
import SmallLisp.Proofs.Value.Insertions
import SmallLisp.Proofs.Value.Settled

/-!
Closures and their parameters. A parameter list makes a closure if it holds only symbols, and the
ampersand nowhere or once, right before the last symbol. A call with the right number of arguments
runs the body as a sequence in a new frame, in which exactly the parameters are bound. Any other
call is refused before anything is done.
-/

namespace SmallLisp

open SmallLisp.Action Evaluation

namespace Parameters

/-- The ampersand is absent, or it stands once, right before the last symbol. -/
def PlacesRest (names : List Symbol) : Prop :=
  .ampersand ∉ names ∨
    names.count .ampersand = 1 ∧ ∃ front last, names = front ++ [.ampersand, last]

/-- The symbols that declare parameters. -/
def declaration (parameters : Parameters) : List Symbol :=
  match parameters.rest with
  | none => parameters.fixed
  | some rest => parameters.fixed ++ [.ampersand, rest]

/-- The symbols declare the parameters, none of which is called ampersand. -/
structure Declares (names : List Symbol) (parameters : Parameters) : Prop where
  names_eq : names = parameters.declaration
  fixed_ne : .ampersand ∉ parameters.fixed
  rest_ne : parameters.rest ≠ some .ampersand

section

variable {names : List Symbol} {parameters : Parameters} {e : Error}

theorem Declares.placesRest (h : Declares names parameters) : PlacesRest names := by
  obtain ⟨rfl, hfixed, hrest⟩ := h
  obtain ⟨fixed, _ | rest⟩ := parameters
  · exact .inl hfixed
  · have hne : rest ≠ .ampersand := fun h => hrest (congrArg some h)
    have hcount : fixed.count .ampersand = 0 := List.count_eq_zero.2 hfixed
    refine .inr ⟨?_, fixed, rest, rfl⟩
    simp [declaration, hcount, hne]

theorem exists_declares_of_placesRest (h : PlacesRest names) :
    ∃ parameters, Declares names parameters := by
  rcases h with habsent | ⟨hcount, front, last, rfl⟩
  · exact ⟨⟨names, none⟩, rfl, habsent, nofun⟩
  · have hothers : front.count .ampersand + [last].count .ampersand = 0 := by
      rw [List.count_append, List.count_cons_self] at hcount
      omega
    obtain ⟨hfront, hlast⟩ := Nat.add_eq_zero_iff.1 hothers
    refine ⟨⟨front, some last⟩, rfl, List.count_eq_zero.1 hfront, ?_⟩
    rintro ⟨⟩
    exact List.count_eq_zero.1 hlast List.mem_cons_self

theorem ofSymbols_of_declares (h : Declares names parameters) :
    ofSymbols names = .ok parameters := by
  obtain ⟨rfl, hfixed, hrest⟩ := h
  obtain ⟨fixed, rest⟩ := parameters
  have hbefore : ∀ name ∈ fixed, decide (name ≠ .ampersand) := by
    intro name hname
    exact decide_eq_true fun hsame => hfixed (hsame ▸ hname)
  cases rest with
  | none =>
    have hall : fixed.takeWhile (· ≠ .ampersand) = fixed := List.takeWhile_eq_self_iff.2 hbefore
    have hnone : fixed.dropWhile (· ≠ .ampersand) = [] := List.dropWhile_eq_nil_iff.2 hbefore
    simp only [ofSymbols, declaration, hall, hnone]
  | some rest =>
    have hne : rest ≠ .ampersand := fun h => hrest (congrArg some h)
    simp only [ofSymbols, declaration, List.takeWhile_append_of_pos hbefore,
      List.dropWhile_append_of_pos hbefore]
    simp [hne]

theorem declares_of_ofSymbols (h : ofSymbols names = .ok parameters) :
    Declares names parameters := by
  have hnames := names_of_ofSymbols h
  refine ⟨?_, fun hfixed => ?_, fun hrest => ?_⟩
  · have hsplit := List.takeWhile_append_dropWhile (p := (· ≠ Symbol.ampersand)) (l := names)
    rw [ofSymbols] at h
    split at h
    · next hbehind =>
      cases h
      rw [hbehind, List.append_nil] at hsplit
      exact hsplit.symm
    · next ampersand rest hbehind =>
      have hhead : ampersand = .ampersand := by
        have hstop := List.head?_dropWhile_not (· ≠ Symbol.ampersand) names
        rw [hbehind] at hstop
        simpa using hstop
      split at h
      · cases h
        rw [hbehind, hhead] at hsplit
        exact hsplit.symm
      · cases h
    · cases h
  · exact (hnames .ampersand (List.mem_append_left _ hfixed)).2 rfl
  · refine (hnames .ampersand (List.mem_append_right _ ?_)).2 rfl
    rw [hrest]
    exact List.mem_singleton.2 rfl

theorem Declares.unique {others : Parameters} (h : Declares names parameters)
    (hothers : Declares names others) : parameters = others := by
  have hsame := (ofSymbols_of_declares h).symm.trans (ofSymbols_of_declares hothers)
  exact Except.ok.inj hsame

theorem ofSymbols_of_not_placesRest (h : ¬ PlacesRest names) :
    ofSymbols names = .error ofSymbols.misplacedAmpersand := by
  cases hresult : ofSymbols names with
  | ok parameters => exact absurd (declares_of_ofSymbols hresult).placesRest h
  | error e =>
    rw [ofSymbols] at hresult
    split at hresult
    · cases hresult
    · split at hresult <;> cases hresult
      rfl
    · cases hresult
      rfl

end

theorem ofItems_map_symbol (names : List Symbol) :
    ofItems (names.map .symbol) = ofSymbols names := by
  rw [ofItems, symbols_eq_ok_iff.2 rfl]
  rfl

theorem ofItems_of_declares {names : List Symbol} {parameters : Parameters}
    (h : Declares names parameters) : ofItems (names.map .symbol) = .ok parameters := by
  rw [ofItems_map_symbol, ofSymbols_of_declares h]

theorem exists_declares_of_ofItems {items : List Value} {parameters : Parameters}
    (h : ofItems items = .ok parameters) :
    ∃ names, items = List.map .symbol names ∧ Declares names parameters := by
  cases hsymbols : symbols items with
  | error e => simp [ofItems, hsymbols, bind, Except.bind] at h
  | ok names =>
    obtain rfl := symbols_eq_ok_iff.1 hsymbols
    rw [ofItems_map_symbol] at h
    exact ⟨names, rfl, declares_of_ofSymbols h⟩

/-- Of the items that are no symbols the first one is found. -/
theorem exists_first_of_mem {items : List Value} {item : Value} (hitem : item ∈ items)
    (h : ∀ name, item ≠ .symbol name) :
    ∃ front first back, items = List.map .symbol front ++ first :: back ∧
      ∀ name, first ≠ .symbol name := by
  induction items with
  | nil => cases hitem
  | cons head rest ih =>
    by_cases hhead : ∃ name, head = .symbol name
    · obtain ⟨name, rfl⟩ := hhead
      have hrest : item ∈ rest := (List.mem_cons.1 hitem).resolve_left (h name)
      obtain ⟨front, first, back, rfl, hfirst⟩ := ih hrest
      exact ⟨name :: front, first, back, rfl, hfirst⟩
    · exact ⟨[], head, rest, rfl, not_exists.1 hhead⟩

theorem ofItems_of_first (front : List Symbol) {first : Value} (back : List Value)
    (h : ∀ name, first ≠ .symbol name) :
    ofItems (front.map .symbol ++ first :: back) =
      .error (.type s!"fn* parameters must be symbols, got {first.print .readable}") := by
  have hsymbols : symbols (front.map .symbol ++ first :: back) =
      .error (.type s!"fn* parameters must be symbols, got {first.print .readable}") := by
    induction front with
    | nil =>
      rw [List.map_nil, List.nil_append, symbols]
      exact h
    | cons name front ih => rw [List.map_cons, List.cons_append, symbols, ih]; rfl
  rw [ofItems, hsymbols]
  rfl

/-- A closure with the parameters takes so many arguments. -/
def Takes (parameters : Parameters) (count : Nat) : Prop :=
  match parameters.rest with
  | none => count = parameters.fixed.length
  | some _ => parameters.fixed.length ≤ count

theorem accepts_arity_iff {parameters : Parameters} {count : Nat} :
    parameters.arity.accepts count ↔ parameters.Takes count := by
  obtain ⟨fixed, _ | rest⟩ := parameters
  · exact beq_iff_eq
  · exact decide_eq_true_iff

theorem Takes.length_le {parameters : Parameters} {count : Nat} (h : parameters.Takes count) :
    parameters.fixed.length ≤ count := by
  obtain ⟨fixed, _ | rest⟩ := parameters
  · exact Nat.le_of_eq h.symm
  · exact h

instance (parameters : Parameters) (count : Nat) : Decidable (parameters.Takes count) :=
  decidable_of_iff _ accepts_arity_iff

/-- The bindings of a call are those of the parameters to the arguments: the last of the parameters
with one name counts, where the one for the rest stands behind all others. -/
structure Assigns (parameters : Parameters) (arguments : List Value)
    (bindings : List (Symbol × Value)) : Prop where
  distinct : Entries.DistinctKeys bindings
  bound_iff : ∀ name, (Entries.get? name bindings).isSome ↔
    name ∈ parameters.fixed ∨ parameters.rest = some name
  rest : ∀ name, parameters.rest = some name →
    Entries.get? name bindings = some (.list (arguments.drop parameters.fixed.length))
  fixed : ∀ name, parameters.rest ≠ some name → ∀ value,
    Entries.get? name bindings = some value ↔ ∃ earlier later,
      parameters.fixed = earlier ++ name :: later ∧ name ∉ later ∧
        arguments[earlier.length]? = some value

/-- The value of a name among those of the fixed parameters stands where the name stands last. -/
theorem get?_reverse_zip_eq_some_iff {fixed : List Symbol} {arguments : List Value}
    (h : fixed.length ≤ arguments.length) {name : Symbol} {value : Value} :
    Entries.get? name (fixed.zip arguments).reverse = some value ↔ ∃ earlier later,
      fixed = earlier ++ name :: later ∧ name ∉ later ∧
        arguments[earlier.length]? = some value := by
  rw [Entries.get?_reverse_eq_some_iff]
  constructor
  · rintro ⟨earlier, found, later, hpairs, hfound, hlater⟩
    obtain rfl := eq_of_beq hfound
    have hfixed := List.map_fst_zip h
    rw [hpairs, List.map_append, List.map_cons] at hfixed
    refine ⟨earlier.map Prod.fst, later.map Prod.fst, hfixed.symm, ?_, ?_⟩
    · rintro hname
      obtain ⟨pair, hpair, hsame⟩ := List.mem_map.1 hname
      simpa [hsame] using hlater pair hpair
    · have hplace : (fixed.zip arguments)[earlier.length]? = some (found, value) := by
        rw [hpairs]
        simp
      rw [List.length_map]
      exact (List.getElem?_zip_eq_some.1 hplace).2
  · rintro ⟨earlier, later, rfl, hlater, hvalue⟩
    obtain ⟨hlt, rfl⟩ := List.getElem?_eq_some_iff.1 hvalue
    have hsplit : arguments = arguments.take earlier.length ++
        arguments[earlier.length] :: arguments.drop (earlier.length + 1) := by
      rw [← List.drop_eq_getElem_cons hlt, List.take_append_drop]
    have hlength : earlier.length = (arguments.take earlier.length).length := by
      rw [List.length_take, Nat.min_eq_left (Nat.le_of_lt hlt)]
    refine ⟨earlier.zip (arguments.take earlier.length), name,
      later.zip (arguments.drop (earlier.length + 1)), ?_, BEq.refl name, fun pair hpair => ?_⟩
    · conv_lhs => rw [hsplit, List.zip_append hlength, List.zip_cons_cons]
    · have hmem : pair.1 ∈ later := (List.of_mem_zip hpair).1
      exact beq_false_of_ne fun hsame => hlater (hsame ▸ hmem)

theorem get?_bindings (parameters : Parameters) (arguments : List Value) (name : Symbol) :
    Entries.get? name (parameters.bindings arguments) =
      if parameters.rest = some name then
        some (.list (arguments.drop parameters.fixed.length))
      else Entries.get? name (parameters.fixed.zip arguments).reverse := by
  obtain ⟨fixed, _ | rest⟩ := parameters
  · simp [bindings, Entries.get?_insertAll]
  · simp only [bindings, Entries.get?_insertAll, Option.toList_some, List.map_cons, List.map_nil,
      List.reverse_append, List.reverse_singleton, Entries.get?_append, Entries.get?_cons,
      Entries.get?_nil, Option.or_none, beq_iff_eq, Option.some.injEq]
    split <;> rfl

theorem assigns_bindings {parameters : Parameters} {arguments : List Value}
    (h : parameters.Takes arguments.length) :
    parameters.Assigns arguments (parameters.bindings arguments) where
  distinct := Entries.distinctKeys_insertAll _
  bound_iff name := by
    rw [get?_bindings]
    split
    · next hrest => simp [hrest]
    · next hrest =>
      have hfixed : name ∈ parameters.fixed ↔
          ∃ pair ∈ parameters.fixed.zip arguments, pair.1 = name := by
        conv_lhs => rw [← List.map_fst_zip h.length_le]
        exact List.mem_map
      rw [hfixed, ← Option.ne_none_iff_isSome, Ne, Entries.get?_eq_none_iff]
      simp [hrest]
  rest name hrest := by rw [get?_bindings, if_pos hrest]
  fixed name hrest value := by
    rw [get?_bindings, if_neg hrest, get?_reverse_zip_eq_some_iff h.length_le]

end Parameters

section

variable {frame : FrameId} {before after : Store} {outcome : Except Error Value}

theorem evaluateWithin_function (fuel : Nat) {parameters : Value} {items : List Value}
    (hitems : parameters.items? = some items) (body : List Value) :
    evaluateWithin (fuel + 1) (SpecialForm.function.use (parameters :: body)) frame =
      makeClosure frame items body := by
  rw [evaluateWithin_use, finish_applyForm_function _ _ hitems]

theorem evaluatesTo_function_iff_of_ok {parameters : Value} {items body : List Value}
    (hitems : parameters.items? = some items) {accepted : Parameters}
    (haccepted : Parameters.ofItems items = .ok accepted) :
    EvaluatesTo (SpecialForm.function.use (parameters :: body)) frame before outcome after ↔
      outcome = .ok (.closure before.closureCount accepted body frame) ∧
        after = { before with closureCount := before.closureCount + 1 } := by
  simp only [evaluatesTo_iff_succ, evaluateWithin_function _ hitems, exists_const]
  rw [makeClosure, haccepted]
  exact (ends_bind_of_ok rfl).trans (ends_newIdentity_bind_iff.trans ends_pure_iff)

theorem evaluatesTo_function_iff_of_error {parameters : Value} {items body : List Value}
    (hitems : parameters.items? = some items) {e : Error}
    (hrefused : Parameters.ofItems items = .error e) :
    EvaluatesTo (SpecialForm.function.use (parameters :: body)) frame before outcome after ↔
      outcome = .error e ∧ after = before := by
  simp only [evaluatesTo_iff_succ, evaluateWithin_function _ hitems, exists_const]
  rw [makeClosure, hrefused]
  exact ends_fail_iff

/-- What comes of making closures in a frame. -/
structure Store.MakesClosures (before : Store) (frame : FrameId) : Prop where
  succeeds_iff : ∀ {parameters items body}, parameters.items? = some items →
    ((∃ value after, EvaluatesTo (SpecialForm.function.use (parameters :: body)) frame before
        (.ok value) after) ↔
      ∃ names, items = List.map .symbol names ∧ Parameters.PlacesRest names)
  /-- A closure has the parameters that the symbols declare, and remembers the frame. -/
  accepted : ∀ {parameters names body}, parameters.items? = some (List.map .symbol names) →
    Parameters.PlacesRest names → ∃ accepted, Parameters.Declares names accepted ∧
      ∀ {outcome after},
        EvaluatesTo (SpecialForm.function.use (parameters :: body)) frame before outcome after ↔
          outcome = .ok (.closure before.closureCount accepted body frame) ∧
            after = { before with closureCount := before.closureCount + 1 }
  /-- Items that are no symbols are refused first, wherever an ampersand stands. -/
  no_symbol : ∀ {parameters items body item}, parameters.items? = some items → item ∈ items →
    (∀ name, item ≠ .symbol name) → ∃ front first back,
      items = List.map .symbol front ++ first :: back ∧ (∀ name, first ≠ .symbol name) ∧
      ∀ {outcome after},
        EvaluatesTo (SpecialForm.function.use (parameters :: body)) frame before outcome after ↔
          outcome = .error
              (.type s!"fn* parameters must be symbols, got {first.print .readable}") ∧
            after = before
  misplaced : ∀ {parameters names body}, parameters.items? = some (List.map .symbol names) →
    ¬ Parameters.PlacesRest names → ∀ {outcome after},
      EvaluatesTo (SpecialForm.function.use (parameters :: body)) frame before outcome after ↔
        outcome = .error (.evaluation ("invalid fn* arity definition: '&' must be followed by " ++
          "exactly one rest parameter at the end")) ∧ after = before

theorem Store.makesClosures (before : Store) (frame : FrameId) : before.MakesClosures frame where
  succeeds_iff {parameters items body} hitems := by
    constructor
    · rintro ⟨value, after, h⟩
      cases hresult : Parameters.ofItems items with
      | ok accepted =>
        obtain ⟨names, rfl, hdeclares⟩ := Parameters.exists_declares_of_ofItems hresult
        exact ⟨names, rfl, hdeclares.placesRest⟩
      | error e => cases ((evaluatesTo_function_iff_of_error hitems hresult).1 h).1
    · rintro ⟨names, rfl, hplaced⟩
      obtain ⟨accepted, hdeclares⟩ := Parameters.exists_declares_of_placesRest hplaced
      have haccepted := Parameters.ofItems_of_declares hdeclares
      exact ⟨_, _, (evaluatesTo_function_iff_of_ok hitems haccepted).2 ⟨rfl, rfl⟩⟩
  accepted {parameters names body} hitems hplaced := by
    obtain ⟨accepted, hdeclares⟩ := Parameters.exists_declares_of_placesRest hplaced
    have haccepted := Parameters.ofItems_of_declares hdeclares
    exact ⟨accepted, hdeclares, evaluatesTo_function_iff_of_ok hitems haccepted⟩
  no_symbol {parameters items body item} hitems hitem hsymbol := by
    obtain ⟨front, first, back, rfl, hfirst⟩ := Parameters.exists_first_of_mem hitem hsymbol
    have hrefused := Parameters.ofItems_of_first front back hfirst
    exact ⟨front, first, back, rfl, hfirst, evaluatesTo_function_iff_of_error hitems hrefused⟩
  misplaced {parameters names body} hitems hplaced := by
    have hrefused : Parameters.ofItems (names.map .symbol) =
        .error Parameters.ofSymbols.misplacedAmpersand := by
      rw [Parameters.ofItems_map_symbol, Parameters.ofSymbols_of_not_placesRest hplaced]
    intro outcome after
    exact evaluatesTo_function_iff_of_error hitems hrefused

variable {identity : Nat} {parameters : Parameters} {body arguments : List Value} {scope : FrameId}

theorem callsTo_closure_iff (h : parameters.Takes arguments.length) :
    CallsTo (.closure identity parameters body scope) arguments before outcome after ↔
      EvaluatesTo (SpecialForm.sequence.use body) before.frames.size
        (before.push ⟨parameters.bindings arguments, some scope, false⟩) outcome after := by
  have harity := Parameters.accepts_arity_iff.2 h
  rw [callsTo_iff_applies, evaluatesTo_iff_evaluates, evaluates_sequence_iff]
  constructor
  · intro hcall
    cases hcall with
    | closure _ hbody => exact hbody
    | wrongArity hwrong =>
      rw [harity] at hwrong
      cases hwrong
    | notCallable hcallee => cases hcallee
  · exact .closure harity

theorem finish_apply_closure_of_not_takes (h : ¬ parameters.Takes arguments.length)
    (evaluate : Evaluator) :
    finish evaluate (apply evaluate (.closure identity parameters body scope) arguments) =
      fail (.arity parameters.arity arguments.length (some SpecialForm.function.name)) := by
  rw [finish_apply_closure, if_neg (mt Parameters.accepts_arity_iff.1 h)]

/-- What comes of calling closures in a store. -/
structure Store.CallsClosures (before : Store) : Prop where
  /-- A call with a wrong number of arguments is refused without fuel for the body. -/
  refused : ∀ {identity parameters body scope arguments},
    ¬ Parameters.Takes parameters arguments.length → ∀ fuel outcome after,
      (finish (evaluateWithin fuel)
          (apply (evaluateWithin fuel) (.closure identity parameters body scope) arguments)).Ends
          before outcome after ↔
        outcome = .error (.arity parameters.arity arguments.length
            (some SpecialForm.function.name)) ∧ after = before
  refused_iff : ∀ {identity parameters body scope arguments},
    CallsTo (.closure identity parameters body scope) arguments before
        (.error (.arity parameters.arity arguments.length (some SpecialForm.function.name)))
        before ↔
      ¬ Parameters.Takes parameters arguments.length
  /-- The body runs as a sequence in a new frame below the one of the closure. -/
  entered : ∀ {identity parameters body scope arguments},
    Parameters.Takes parameters arguments.length →
      ∃ bindings, parameters.Assigns arguments bindings ∧ ∀ {outcome after},
        CallsTo (.closure identity parameters body scope) arguments before outcome after ↔
          EvaluatesTo (SpecialForm.sequence.use body) before.frames.size
            (before.push ⟨bindings, some scope, false⟩) outcome after

theorem Store.callsClosures (before : Store) : before.CallsClosures where
  refused h fuel outcome after := by
    rw [finish_apply_closure_of_not_takes h]
    exact ends_fail_iff
  refused_iff {identity parameters body scope arguments} := by
    constructor
    · intro hcall htakes
      have hbody := (callsTo_closure_iff htakes).1 hcall
      have hframe : before.frames.size <
          (before.push ⟨parameters.bindings arguments, some scope, false⟩).frames.size := by
        rw [size_push]
        exact Nat.lt_succ_self _
      -- the new frame stays, so a call that was entered does not leave the store as it was
      exact absurd (hbody.writesOnly (Nat.le_refl _) hframe).size_le (Nat.not_le.2 hframe)
    · intro h
      refine ⟨0, ?_⟩
      rw [finish_apply_closure_of_not_takes h]
      exact ends_fail_iff.2 ⟨rfl, rfl⟩
  entered h := ⟨_, Parameters.assigns_bindings h, callsTo_closure_iff h⟩

end

/-- Closures are made from the parameter lists that declare parameters, and from no others, and a
closure binds exactly its parameters to the arguments of a call, or else refuses the call and does
nothing. -/
theorem closures_bind_parameters (before : Store) (frame : FrameId) :
    before.MakesClosures frame ∧ before.CallsClosures :=
  ⟨before.makesClosures frame, before.callsClosures⟩

/-- The closure made by `(fn* [x x & rest] x)` has the second argument as its value and the list of
those behind it as its rest. It refuses a single argument. -/
theorem closures_bind_parameters_repeated :
    let start := Session.start.store
    let names : List Symbol := [⟨"x"⟩, ⟨"x"⟩, .ampersand, ⟨"rest"⟩]
    let parameters : Parameters := ⟨[⟨"x"⟩, ⟨"x"⟩], some ⟨"rest"⟩⟩
    let body : List Value := [.symbol ⟨"x"⟩]
    let closure : Value := .closure start.closureCount parameters body 1
    let made : Store := { start with closureCount := start.closureCount + 1 }
    EvaluatesTo (SpecialForm.function.use (.vector (names.map .symbol) :: body)) 1 start
        (.ok closure) made ∧
      CallsTo closure [.number 1] made (.error (.arity (.atLeast 2) 1 (some "fn*"))) made ∧
      ∃ bindings, Entries.get? ⟨"x"⟩ bindings = some (.number 2) ∧
        Entries.get? ⟨"rest"⟩ bindings = some (.list [.number 3]) ∧
        Entries.get? .ampersand bindings = none ∧
        CallsTo closure [.number 1, .number 2, .number 3] made (.ok (.number 2))
          (made.push ⟨bindings, some 1, false⟩) := by
  intro start names parameters body closure made
  obtain ⟨hmakes, -⟩ := closures_bind_parameters start 1
  obtain ⟨-, hcalls⟩ := closures_bind_parameters made 1
  have hdeclares : Parameters.Declares names parameters := ⟨rfl, by decide, by decide⟩
  obtain ⟨accepted, haccepted, hmade⟩ :
      ∃ accepted, Parameters.Declares names accepted ∧ ∀ {outcome after},
        EvaluatesTo (SpecialForm.function.use (.vector (names.map .symbol) :: body)) 1 start outcome
            after ↔
          outcome = .ok (.closure start.closureCount accepted body 1) ∧ after = made :=
    hmakes.accepted rfl hdeclares.placesRest
  obtain rfl := haccepted.unique hdeclares
  have htakes : parameters.Takes [Value.number 1, .number 2, .number 3].length := by decide
  obtain ⟨bindings, hassigns, hentered⟩ :=
    @Store.CallsClosures.entered made hcalls start.closureCount parameters body 1 _ htakes
  have hvalue : Entries.get? ⟨"x"⟩ bindings = some (.number 2) :=
    (hassigns.fixed _ (by decide) _).2 ⟨[⟨"x"⟩], [], rfl, List.not_mem_nil, rfl⟩
  have hunbound := mt (hassigns.bound_iff .ampersand).1 (by decide)
  have hfound : (made.push ⟨bindings, some 1, false⟩).get? made.frames.size ⟨"x"⟩ =
      some (.number 2) := by
    rw [Store.get?, Store.chain_push _ _ _ (by decide), List.findSome?_cons, Store.bindings_push,
      if_pos rfl, hvalue]
  refine ⟨hmade.2 ⟨rfl, rfl⟩, hcalls.refused_iff.2 (by decide), bindings, hvalue,
    hassigns.rest _ rfl, Option.not_isSome_iff_eq_none.1 hunbound, hentered.2 ?_⟩
  rw [evaluatesTo_iff_evaluates, evaluates_sequence_iff]
  exact .last (.bound rfl hfound)

end SmallLisp
