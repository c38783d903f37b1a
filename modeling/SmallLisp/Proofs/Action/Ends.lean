import SmallLisp.Action

/-!
Actions that end, with a result or with an error of the program. Running out of fuel is no ending.
-/

namespace SmallLisp.Action

variable {α β : Type}

theorem bind_apply (action : Action α) (next : α → Action β) (store : Store) :
    (action >>= next) store =
      match action store with
      | .ok result middle => next result middle
      | .error halt middle => .error halt middle := by
  change EStateM.bind action next store = _
  rw [EStateM.bind]
  cases action store <;> rfl

/-- What an action returns when it ends with an outcome and leaves a store. -/
def ending (outcome : Except Error α) (after : Store) : EStateM.Result Halt Store α :=
  match outcome with
  | .ok result => .ok result after
  | .error e => .error (.failure e) after

theorem ending_inj {first second : Except Error α} {store other : Store}
    (h : ending first store = ending second other) : first = second ∧ store = other := by
  cases first <;> cases second <;> cases h <;> exact ⟨rfl, rfl⟩

/-- The result of an action that has one. -/
def result? : EStateM.Result Halt Store α → Option α
  | .ok result _ => some result
  | .error .. => none

theorem exists_of_result?_eq_some {ending : EStateM.Result Halt Store α} {result : α}
    (h : result? ending = some result) : ∃ store, ending = .ok result store := by
  cases ending with
  | ok found store =>
    cases h
    exact ⟨store, rfl⟩
  | error halt store => cases h

/-- From one store the action ends with an outcome and leaves another store. -/
def Ends (action : Action α) (before : Store) (outcome : Except Error α) (after : Store) : Prop :=
  action before = ending outcome after

variable {before after : Store}

/-- An action has at most one ending. -/
theorem Ends.unique {action : Action α} {first second : Except Error α} {other : Store}
    (h : action.Ends before first after) (h' : action.Ends before second other) :
    first = second ∧ after = other :=
  ending_inj (h.symm.trans h')

theorem ends_pure_iff {result : α} {outcome : Except Error α} :
    (pure result : Action α).Ends before outcome after ↔
      outcome = .ok result ∧ after = before := by
  have hpure : (pure result : Action α).Ends before (.ok result) before := rfl
  constructor
  · intro h
    exact h.unique hpure
  · rintro ⟨rfl, rfl⟩
    exact hpure

theorem ends_fail_iff {e : Error} {outcome : Except Error α} :
    (fail e : Action α).Ends before outcome after ↔ outcome = .error e ∧ after = before := by
  have hfail : (fail e : Action α).Ends before (.error e) before := rfl
  constructor
  · intro h
    exact h.unique hfail
  · rintro ⟨rfl, rfl⟩
    exact hfail

theorem ends_ofExcept_iff {result outcome : Except Error α} :
    (ofExcept result).Ends before outcome after ↔ outcome = result ∧ after = before := by
  cases result with
  | ok result => exact ends_pure_iff
  | error e => exact ends_fail_iff

theorem lookup_apply (frame : FrameId) (symbol : Symbol) (store : Store) :
    lookup frame symbol store =
      match store.get? frame symbol with
      | some value => .ok value store
      | none => .error (.failure (.unbound symbol.name)) store := by
  change (match store.get? frame symbol with
    | some value => pure value
    | none => fail (.unbound symbol.name) : Action Value) store = _
  cases store.get? frame symbol <;> rfl

theorem ends_lookup_iff {frame : FrameId} {symbol : Symbol} {outcome : Except Error Value} :
    (lookup frame symbol).Ends before outcome after ↔
      outcome = (match before.get? frame symbol with
        | some value => .ok value
        | none => .error (.unbound symbol.name)) ∧ after = before := by
  rw [Ends, lookup_apply]
  cases before.get? frame symbol with
  | none => exact ends_fail_iff
  | some value => exact ends_pure_iff

/-- Two actions in a row end where the first fails, or where the second ends after it. -/
theorem ends_bind_iff {action : Action α} {next : α → Action β} {outcome : Except Error β} :
    (action >>= next).Ends before outcome after ↔
      (∃ e, action.Ends before (.error e) after ∧ outcome = .error e) ∨
        ∃ result middle, action.Ends before (.ok result) middle ∧
          (next result).Ends middle outcome after := by
  simp only [Ends, bind_apply]
  constructor
  · intro h
    cases hrun : action before with
    | ok result middle =>
      rw [hrun] at h
      exact .inr ⟨result, middle, rfl, h⟩
    | error halt middle =>
      rw [hrun] at h
      cases outcome with
      | ok result => cases h
      | error e =>
        cases h
        exact .inl ⟨e, rfl, rfl⟩
  · rintro (⟨e, hfails, rfl⟩ | ⟨result, middle, hok, hnext⟩)
    · rw [hfails]
      rfl
    · rw [hok]
      exact hnext

/-- What is done to the result of an action afterwards leaves its errors alone. -/
theorem ends_bind_pure_error_iff {action : Action α} {f : α → β} {e : Error} :
    (action >>= fun result => pure (f result)).Ends before (.error e) after ↔
      action.Ends before (.error e) after := by
  rw [ends_bind_iff]
  constructor
  · rintro (⟨_, hfails, herror⟩ | ⟨result, middle, -, hpure⟩)
    · cases herror
      exact hfails
    · cases hpure
  · intro h
    exact .inl ⟨e, h, rfl⟩

theorem ends_bind_pure_ok_iff {action : Action α} {f : α → β} {value : β} :
    (action >>= fun result => pure (f result)).Ends before (.ok value) after ↔
      ∃ result, action.Ends before (.ok result) after ∧ value = f result := by
  rw [ends_bind_iff]
  constructor
  · rintro (⟨_, -, herror⟩ | ⟨result, middle, hok, hpure⟩)
    · cases herror
    · cases hpure
      exact ⟨result, hok, rfl⟩
  · rintro ⟨result, hok, rfl⟩
    exact .inr ⟨result, after, hok, rfl⟩

/-- An action that cannot fail ends like a change of the store. -/
theorem ends_bind_of_ok {action : Action α} {next : α → Action β} {outcome : Except Error β}
    {result : α} {middle : Store} (h : action before = .ok result middle) :
    (action >>= next).Ends before outcome after ↔ (next result).Ends middle outcome after := by
  simp only [Ends, bind_apply, h]

theorem ends_modify_bind_iff {change : Store → Store} {next : PUnit → Action β}
    {outcome : Except Error β} :
    ((modify change : Action PUnit) >>= next).Ends before outcome after ↔
      (next ⟨⟩).Ends (change before) outcome after :=
  ends_bind_of_ok rfl

theorem ends_newFrame_bind_iff {parent : FrameId} {isLocal : Bool}
    {bindings : List (Symbol × Value)} {next : FrameId → Action β} {outcome : Except Error β} :
    (newFrame parent isLocal bindings >>= next).Ends before outcome after ↔
      (next before.frames.size).Ends (before.push ⟨bindings, some parent, isLocal⟩) outcome
        after :=
  ends_bind_of_ok rfl

theorem ends_newIdentity_bind_iff {next : Nat → Action β} {outcome : Except Error β} :
    (newIdentity >>= next).Ends before outcome after ↔
      (next before.closureCount).Ends
        { before with closureCount := before.closureCount + 1 } outcome after :=
  ends_bind_of_ok rfl

theorem Ends.bind {action : Action α} {next : α → Action β} {outcome : Except Error β}
    {result : α} {middle : Store} (h : action.Ends before (.ok result) middle)
    (hnext : (next result).Ends middle outcome after) :
    (action >>= next).Ends before outcome after :=
  ends_bind_iff.2 (.inr ⟨result, middle, h, hnext⟩)

theorem Ends.bind_error {action : Action α} {next : α → Action β} {e : Error}
    (h : action.Ends before (.error e) after) : (action >>= next).Ends before (.error e) after :=
  ends_bind_iff.2 (.inl ⟨e, h, rfl⟩)

end SmallLisp.Action
