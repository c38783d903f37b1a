import Mathlib.Data.List.Forall2
import SmallLisp.Proofs.Action.Ends

/-!
Two actions that run side by side. From related stores related actions end in the same way, with
related results or related errors, and leave related stores behind. Running out of fuel is an ending
here, so a proof about the same amount of fuel on both sides also says when the two runs stop.
-/

namespace SmallLisp

/-- What two runs have to agree on besides their results. -/
structure RunRelation where
  Errors : Error → Error → Prop
  Stores : Store → Store → Prop

namespace Action

variable {α β γ δ : Type}

/-- Outcomes of one kind, with related errors or related results. -/
inductive OutcomesRelated (errors : Error → Error → Prop) (results : α → β → Prop) :
    Except Error α → Except Error β → Prop
  | ok {first second} (h : results first second) :
      OutcomesRelated errors results (.ok first) (.ok second)
  | error {first second} (h : errors first second) :
      OutcomesRelated errors results (.error first) (.error second)

theorem OutcomesRelated.map {errors : Error → Error → Prop} {results : α → β → Prop}
    {mapped : γ → δ → Prop} {first : Except Error α} {second : Except Error β}
    (h : OutcomesRelated errors results first second) {f : α → γ} {g : β → δ}
    (hmap : ∀ a b, results a b → mapped (f a) (g b)) :
    OutcomesRelated errors mapped (first.map f) (second.map g) := by
  cases h with
  | ok h => exact .ok (hmap _ _ h)
  | error h => exact .error h

theorem forall_and_eq_map_of_forall₂ {α β : Type} {P : α → Prop} {f : α → β} {items : List α}
    {others : List β} (h : List.Forall₂ (fun item other => P item ∧ other = f item) items others) :
    (∀ item ∈ items, P item) ∧ others = items.map f := by
  rw [List.forall₂_and_left] at h
  obtain ⟨hitems, hothers⟩ := h
  refine ⟨hitems, ?_⟩
  induction hothers with
  | nil => rfl
  | cons hhead htail ih =>
    rw [List.forall_mem_cons] at hitems
    rw [List.map_cons, hhead, ih hitems.2]

/-- Ends of two runs that agree. -/
inductive EndsRelated (R : RunRelation) (results : α → β → Prop) :
    EStateM.Result Halt Store α → EStateM.Result Halt Store β → Prop
  | ok {first second s t} (hresults : results first second) (hstores : R.Stores s t) :
      EndsRelated R results (.ok first s) (.ok second t)
  | failure {first second s t} (herrors : R.Errors first second) (hstores : R.Stores s t) :
      EndsRelated R results (.error (.failure first) s) (.error (.failure second) t)
  | outOfFuel {s t} (hstores : R.Stores s t) :
      EndsRelated R results (.error .outOfFuel s) (.error .outOfFuel t)

def Related (R : RunRelation) (results : α → β → Prop) (first : Action α) (second : Action β) :
    Prop :=
  ∀ s t, R.Stores s t → EndsRelated R results (first s) (second t)

namespace Related

variable {R : RunRelation} {results : α → β → Prop} {nextResults : γ → δ → Prop}
  {first : Action α} {second : Action β}

theorem pure {a : α} {b : β} (h : results a b) :
    Related R results (Pure.pure a) (Pure.pure b) := by
  intro s t hstores
  exact .ok h hstores

theorem fail {d e : Error} (h : R.Errors d e) :
    Related R results (Action.fail d : Action α) (Action.fail e : Action β) := by
  intro s t hstores
  exact .failure h hstores

theorem mono (h : Related R results first second) {weaker : α → β → Prop}
    (hweaker : ∀ a b, results a b → weaker a b) : Related R weaker first second := by
  intro s t hstores
  have hends := h s t hstores
  generalize first s = firstEnd at hends ⊢
  generalize second t = secondEnd at hends ⊢
  cases hends with
  | ok hresults hstores => exact .ok (hweaker _ _ hresults) hstores
  | failure herrors hstores => exact .failure herrors hstores
  | outOfFuel hstores => exact .outOfFuel hstores

theorem outOfFuel :
    Related R results (throw .outOfFuel : Action α) (throw .outOfFuel : Action β) := by
  intro s t hstores
  exact .outOfFuel hstores

theorem ofExcept {x : Except Error α} {y : Except Error β}
    (h : OutcomesRelated R.Errors results x y) :
    Related R results (Action.ofExcept x) (Action.ofExcept y) := by
  cases h with
  | ok h => exact .pure h
  | error h => exact .fail h

theorem modify {change other : Store → Store}
    (h : ∀ s t, R.Stores s t → R.Stores (change s) (other t)) :
    Related R (fun _ _ => True) (modify change : Action PUnit) (modify other : Action PUnit) := by
  intro s t hstores
  exact .ok trivial (h s t hstores)

theorem bind (h : Related R results first second) {next : α → Action γ} {other : β → Action δ}
    (hnext : ∀ a b, results a b → Related R nextResults (next a) (other b)) :
    Related R nextResults (first >>= next) (second >>= other) := by
  intro s t hstores
  have hends := h s t hstores
  rw [bind_apply, bind_apply]
  generalize first s = firstEnd at hends
  generalize second t = secondEnd at hends
  cases hends with
  | ok hresults hstores => exact hnext _ _ hresults _ _ hstores
  | failure herrors hstores => exact .failure herrors hstores
  | outOfFuel hstores => exact .outOfFuel hstores

/-- Actions for each of two lists, one after the other. -/
theorem mapM {ι κ : Type} {items : List ι} {others : List κ} {f : ι → Action α} {g : κ → Action β}
    (h : List.Forall₂ (fun item other => Related R results (f item) (g other)) items others) :
    Related R (List.Forall₂ results) (items.mapM f) (others.mapM g) := by
  induction h with
  | nil => exact .pure .nil
  | cons hhead htail ih =>
    rw [List.mapM_cons, List.mapM_cons]
    apply hhead.bind
    intro a b hab
    apply ih.bind
    intro as bs habs
    exact .pure (.cons hab habs)

end Related

end Action

end SmallLisp
