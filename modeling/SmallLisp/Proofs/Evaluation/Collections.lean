import Mathlib
import SmallLisp.Proofs.Evaluation.Outcomes
import SmallLisp.Proofs.Value.Map
import SmallLisp.Session

/-!
Collections are evaluated alike. A vector, the entries of a map, and the head and arguments of a
call are evaluated from left to right up to the first failure. So a map comes to what the vector of
its keys and values comes to, and a call fails where the vector of its head and arguments fails.
Only behind these is the value of the head called.
-/

namespace SmallLisp

open SmallLisp.Action Evaluation

section

variable (evaluate : Evaluator) (frame : FrameId)

theorem evaluateAll_cons (expression : Value) (rest : List Value) :
    evaluateAll evaluate frame (expression :: rest) =
      evaluate expression frame >>= fun value =>
        evaluateAll evaluate frame rest >>= fun values => pure (value :: values) :=
  List.mapM_cons

theorem evaluateEntries_cons (key value : Value) (rest : List (Value × Value)) :
    evaluateEntries evaluate frame ((key, value) :: rest) =
      evaluate key frame >>= fun newKey =>
        evaluate value frame >>= fun newValue =>
          evaluateEntries evaluate frame rest >>= fun pairs =>
            pure ((newKey, newValue) :: pairs) := by
  simp only [evaluateEntries, List.mapM_cons, bind_assoc, pure_bind]

/-- The entries of a map are evaluated as the sequence of its keys and values. -/
theorem evaluateAll_flatten (entries : List (Value × Value)) :
    evaluateAll evaluate frame (Entries.flatten entries) =
      evaluateEntries evaluate frame entries >>= fun pairs => pure (Entries.flatten pairs) := by
  induction entries with
  | nil => rfl
  | cons entry entries ih =>
    obtain ⟨key, value⟩ := entry
    rw [Entries.flatten, evaluateAll_cons, evaluateAll_cons, ih, evaluateEntries_cons]
    simp only [bind_assoc, pure_bind, Entries.flatten]

theorem evaluateWithin_vector (fuel : Nat) (items : List Value) :
    evaluateWithin (fuel + 1) (.vector items) frame =
      evaluateAll (evaluateWithin fuel) frame items >>= fun values => pure (.vector values) := by
  rw [evaluateWithin_succ, step, finish_bind]
  rfl

theorem evaluateWithin_map (fuel : Nat) (entries : List (Value × Value)) :
    evaluateWithin (fuel + 1) (.map entries) frame =
      evaluateEntries (evaluateWithin fuel) frame entries >>= fun pairs =>
        pure (.map (Entries.insertAll pairs [])) := by
  rw [evaluateWithin_succ, step, finish_bind]
  rfl

end

variable {frame : FrameId} {before after : Store} {outcome : Except Error Value}

/-- A map fails where the vector of its keys and values fails. -/
theorem evaluatesTo_map_error_iff {entries : List (Value × Value)} {e : Error} :
    EvaluatesTo (.map entries) frame before (.error e) after ↔
      EvaluatesTo (.vector (Entries.flatten entries)) frame before (.error e) after := by
  simp only [evaluatesTo_iff_succ, evaluateWithin_map, evaluateWithin_vector, evaluateAll_flatten,
    bind_assoc, pure_bind, ends_bind_pure_error_iff]

/-- The value of a map is the map of the items that the vector of its keys and values comes to. -/
theorem evaluatesTo_map_ok_iff {entries : List (Value × Value)} {value : Value} :
    EvaluatesTo (.map entries) frame before (.ok value) after ↔
      ∃ items, EvaluatesTo (.vector (Entries.flatten entries)) frame before (.ok (.vector items))
        after ∧ value = .mapOfItems items := by
  have hmap : ∀ pairs : List (Value × Value),
      Value.mapOfItems (Entries.flatten pairs) = .map (Entries.insertAll pairs []) := by
    intro pairs
    rw [Value.mapOfItems, Entries.pairUp_flatten]
  simp only [evaluatesTo_iff_succ, evaluateWithin_map, evaluateWithin_vector, evaluateAll_flatten,
    bind_assoc, pure_bind, ends_bind_pure_ok_iff, Value.vector.injEq]
  constructor
  · rintro ⟨fuel, pairs, hpairs, rfl⟩
    exact ⟨Entries.flatten pairs, ⟨fuel, pairs, hpairs, rfl⟩, (hmap pairs).symm⟩
  · rintro ⟨_, ⟨fuel, pairs, hpairs, rfl⟩, rfl⟩
    exact ⟨fuel, pairs, hpairs, hmap pairs⟩

theorem evaluatesTo_vector_nil_iff :
    EvaluatesTo (.vector []) frame before outcome after ↔
      outcome = .ok (.vector []) ∧ after = before := by
  rw [evaluatesTo_iff_succ]
  exact ⟨fun ⟨_, h⟩ => ends_pure_iff.1 h, fun h => ⟨0, ends_pure_iff.2 h⟩⟩

/-- The items of a vector are evaluated from the first on, each from the store that the one before
it left, and a failure ends this. -/
theorem evaluatesTo_vector_cons_iff {first : Value} {rest : List Value} :
    EvaluatesTo (.vector (first :: rest)) frame before outcome after ↔
      (∃ e, outcome = .error e ∧ EvaluatesTo first frame before (.error e) after) ∨
        ∃ value middle, EvaluatesTo first frame before (.ok value) middle ∧
          ((∃ e, outcome = .error e ∧ EvaluatesTo (.vector rest) frame middle (.error e) after) ∨
            ∃ values, outcome = .ok (.vector (value :: values)) ∧
              EvaluatesTo (.vector rest) frame middle (.ok (.vector values)) after) := by
  constructor
  · intro h
    cases h.evaluates with
    | self hself => cases hself
    | vectorFails hitems =>
      cases hitems with
      | headFails hhead => exact .inl ⟨_, rfl, hhead.evaluatesTo⟩
      | tailFails hhead htail =>
        have hrest := (Evaluates.vectorFails htail).evaluatesTo
        exact .inr ⟨_, _, hhead.evaluatesTo, .inl ⟨_, rfl, hrest⟩⟩
    | vector hitems =>
      cases hitems with
      | cons hhead htail =>
        have hrest := (Evaluates.vector htail).evaluatesTo
        exact .inr ⟨_, _, hhead.evaluatesTo, .inr ⟨_, rfl, hrest⟩⟩
  · rintro (⟨e, rfl, hhead⟩ | ⟨value, middle, hhead, ⟨e, rfl, htail⟩ | ⟨values, rfl, htail⟩⟩)
    · exact (Evaluates.vectorFails (.headFails hhead.evaluates)).evaluatesTo
    · cases htail.evaluates with
      | vectorFails hitems =>
        exact (Evaluates.vectorFails (.tailFails hhead.evaluates hitems)).evaluatesTo
    · cases htail.evaluates with
      | self hself => cases hself
      | vector hitems => exact (Evaluates.vector (.cons hhead.evaluates hitems)).evaluatesTo

/-- The value of a vector is a vector of as many items. -/
theorem EvaluatesTo.vector_ok {items : List Value} {value : Value}
    (h : EvaluatesTo (.vector items) frame before (.ok value) after) :
    ∃ values, value = .vector values ∧ values.length = items.length := by
  induction items generalizing before value with
  | nil =>
    obtain ⟨hvalue, -⟩ := evaluatesTo_vector_nil_iff.1 h
    cases hvalue
    exact ⟨[], rfl, rfl⟩
  | cons item items ih =>
    rcases evaluatesTo_vector_cons_iff.1 h with
      ⟨_, herror, -⟩ | ⟨first, middle, -, ⟨_, herror, -⟩ | ⟨values, hvalue, hrest⟩⟩
    · cases herror
    · cases herror
    · cases hvalue
      obtain ⟨_, hvalues, hlength⟩ := ih hrest
      cases hvalues
      exact ⟨first :: values, rfl, congrArg Nat.succ hlength⟩

/-- A list whose head names no special form comes to what the vector of its items fails with, or
else to what the call of the head's value with the arguments' values comes to. -/
theorem evaluatesTo_list_iff {head : Value} {arguments : List Value}
    (hhead : formOfHead? head = none) :
    EvaluatesTo (.list (head :: arguments)) frame before outcome after ↔
      (∃ e, outcome = .error e ∧
        EvaluatesTo (.vector (head :: arguments)) frame before (.error e) after) ∨
      ∃ callee values middle,
        EvaluatesTo (.vector (head :: arguments)) frame before (.ok (.vector (callee :: values)))
          middle ∧ CallsTo callee values middle outcome after := by
  constructor
  · intro h
    cases h.evaluates with
    | self hself => cases hself
    | form hform =>
      rw [hhead] at hform
      cases hform
    | headFails _ hfails =>
      exact .inl ⟨_, rfl, (Evaluates.vectorFails (.headFails hfails)).evaluatesTo⟩
    | argumentsFail _ hcallee hfails =>
      exact .inl ⟨_, rfl, (Evaluates.vectorFails (.tailFails hcallee hfails)).evaluatesTo⟩
    | call _ hcallee hvalues hcall =>
      exact .inr ⟨_, _, _, (Evaluates.vector (.cons hcallee hvalues)).evaluatesTo, hcall.callsTo⟩
  · rintro (⟨e, rfl, hvector⟩ | ⟨callee, values, middle, hvector, hcall⟩)
    · cases hvector.evaluates with
      | vectorFails hitems =>
        cases hitems with
        | headFails hfails => exact (Evaluates.headFails hhead hfails).evaluatesTo
        | tailFails hcallee hfails =>
          exact (Evaluates.argumentsFail hhead hcallee hfails).evaluatesTo
    · cases hvector.evaluates with
      | self hself => cases hself
      | vector hitems =>
        cases hitems with
        | cons hcallee hvalues =>
          exact (Evaluates.call hhead hcallee hvalues hcall.applies).evaluatesTo

/-- Why a value cannot be called with some arguments, where that is so: it is no function, or a
function of another number of arguments. -/
def Value.refusal? (callee : Value) (arguments : List Value) : Option Error :=
  match callee with
  | .builtin operation =>
    if operation.arity.accepts arguments.length then none else some (operation.arityError arguments)
  | .closure _ parameters _ _ =>
    if parameters.arity.accepts arguments.length then none
    else some (.arity parameters.arity arguments.length (some SpecialForm.function.name))
  | value => some (.notCallable (value.print .readable))

theorem finish_apply_of_refusal {evaluate : Evaluator} {callee : Value} {arguments : List Value}
    {e : Error} (h : callee.refusal? arguments = some e) :
    finish evaluate (apply evaluate callee arguments) = fail e := by
  cases callee with
  | builtin operation =>
    rw [finish_apply_builtin, Builtin.call]
    simp only [Value.refusal?] at h
    split at h
    · cases h
    · next hrefused =>
      cases h
      rw [if_neg hrefused]
  | closure identity parameters body scope =>
    rw [finish_apply_closure]
    simp only [Value.refusal?] at h
    split at h
    · cases h
    · next hrefused =>
      cases h
      rw [if_neg hrefused]
  | _ =>
    cases h
    rfl

theorem callsTo_iff_of_refusal {callee : Value} {arguments : List Value} {e : Error}
    (h : callee.refusal? arguments = some e) :
    CallsTo callee arguments before outcome after ↔ outcome = .error e ∧ after = before := by
  simp only [CallsTo, finish_apply_of_refusal h, ends_fail_iff, exists_const]

/-- A call that is refused is refused behind its arguments. -/
theorem evaluatesTo_list_iff_of_refusal {head callee : Value} {arguments values : List Value}
    {middle : Store} {e : Error} (hhead : formOfHead? head = none)
    (hvector : EvaluatesTo (.vector (head :: arguments)) frame before
      (.ok (.vector (callee :: values))) middle) (hrefusal : callee.refusal? values = some e) :
    EvaluatesTo (.list (head :: arguments)) frame before outcome after ↔
      outcome = .error e ∧ after = middle := by
  rw [evaluatesTo_list_iff hhead]
  constructor
  · rintro (⟨_, rfl, hfails⟩ | ⟨_, _, _, hfound, hcall⟩)
    · cases (hvector.unique hfails).1
    · obtain ⟨hvalues, rfl⟩ := hvector.unique hfound
      cases hvalues
      exact (callsTo_iff_of_refusal hrefusal).1 hcall
  · rintro hrefused
    exact .inr ⟨callee, values, middle, hvector, (callsTo_iff_of_refusal hrefusal).2 hrefused⟩

/-- The evaluation of the collections in a frame of a store, each compared with that of a vector. -/
structure Store.EvaluatesCollectionsAlike (before : Store) (frame : FrameId) : Prop where
  /-- A vector without items is its own value. -/
  vector_nil : ∀ {outcome after},
    EvaluatesTo (.vector []) frame before outcome after ↔
      outcome = .ok (.vector []) ∧ after = before
  /-- Other vectors have their items evaluated from left to right, up to the first failure. -/
  vector_cons : ∀ {first rest outcome after},
    EvaluatesTo (.vector (first :: rest)) frame before outcome after ↔
      (∃ e, outcome = .error e ∧ EvaluatesTo first frame before (.error e) after) ∨
        ∃ value middle, EvaluatesTo first frame before (.ok value) middle ∧
          ((∃ e, outcome = .error e ∧ EvaluatesTo (.vector rest) frame middle (.error e) after) ∨
            ∃ values, outcome = .ok (.vector (value :: values)) ∧
              EvaluatesTo (.vector rest) frame middle (.ok (.vector values)) after)
  vector_ok : ∀ {items value after}, EvaluatesTo (.vector items) frame before (.ok value) after →
    ∃ values, value = .vector values ∧ values.length = items.length
  map_error : ∀ {entries e after},
    EvaluatesTo (.map entries) frame before (.error e) after ↔
      EvaluatesTo (.vector (Entries.flatten entries)) frame before (.error e) after
  map_ok : ∀ {entries value after},
    EvaluatesTo (.map entries) frame before (.ok value) after ↔
      ∃ items, EvaluatesTo (.vector (Entries.flatten entries)) frame before (.ok (.vector items))
        after ∧ value = .mapOfItems items
  map_value : ∀ items, ∃ entries, Value.mapOfItems items = .map entries ∧
    Entries.Collapse (Entries.pairUp .nil items) entries
  /-- A call comes to what the call of the first item of the vector with the others comes to. -/
  list : ∀ {head arguments}, formOfHead? head = none → ∀ {outcome after},
    EvaluatesTo (.list (head :: arguments)) frame before outcome after ↔
      (∃ e, outcome = .error e ∧
        EvaluatesTo (.vector (head :: arguments)) frame before (.error e) after) ∨
      ∃ callee values middle,
        EvaluatesTo (.vector (head :: arguments)) frame before (.ok (.vector (callee :: values)))
          middle ∧ CallsTo callee values middle outcome after
  list_refused : ∀ {head arguments callee values middle e}, formOfHead? head = none →
    EvaluatesTo (.vector (head :: arguments)) frame before (.ok (.vector (callee :: values)))
      middle → callee.refusal? values = some e → ∀ {outcome after},
    EvaluatesTo (.list (head :: arguments)) frame before outcome after ↔
      outcome = .error e ∧ after = middle

/-- Maps, vectors and calls evaluate their parts alike, in every store and frame and whatever the
parts do. A map fails where the vector of its keys and values fails, and otherwise is made from the
items of that vector. A list whose head names no special form fails where the vector of its items
fails, and otherwise calls the first of them with the others: only then is a value that cannot be
called so found out. -/
theorem collections_evaluate_alike (before : Store) (frame : FrameId) :
    before.EvaluatesCollectionsAlike frame where
  vector_nil := evaluatesTo_vector_nil_iff
  vector_cons := evaluatesTo_vector_cons_iff
  vector_ok h := h.vector_ok
  map_error := evaluatesTo_map_error_iff
  map_ok := evaluatesTo_map_ok_iff
  map_value _ := ⟨_, rfl, Entries.collapse_insertAll _⟩
  list hhead := evaluatesTo_list_iff hhead
  list_refused hhead hvector hrefusal := evaluatesTo_list_iff_of_refusal hhead hvector hrefusal

/-- The list `(1 (prn 2))` prints before it turns out that `1` cannot be called, as the vector
`[1 (prn 2)]` prints. -/
theorem collections_evaluate_alike_refused :
    let print := .list [.symbol ⟨"prn"⟩, .number 2]
    let after := Session.start.store.write "2\n"
    EvaluatesTo (.vector [.number 1, print]) 1 Session.start.store (.ok (.vector [.number 1, .nil]))
        after ∧
      EvaluatesTo (.list [.number 1, print]) 1 Session.start.store (.error (.notCallable "1"))
        after := by
  have hvector : EvaluatesTo (.vector [.number 1, .list [.symbol ⟨"prn"⟩, .number 2]]) 1
      Session.start.store (.ok (.vector [.number 1, .nil])) (Session.start.store.write "2\n") := by
    refine ⟨9, ?_⟩
    cbv
  have hrefusal : (Value.number 1).refusal? [.nil] = some (.notCallable "1") := by cbv
  have hcollections := collections_evaluate_alike Session.start.store 1
  exact ⟨hvector, (hcollections.list_refused rfl hvector hrefusal).2 ⟨rfl, rfl⟩⟩

end SmallLisp
