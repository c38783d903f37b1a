import SmallLisp.Proofs.Evaluation.Collections
import SmallLisp.Proofs.Session.Run
import SmallLisp.Proofs.Value.Data

/-!
Data in a session. A datum is its own value in every frame, whatever is bound there. Its text is a
line that is answered by the same line, so what a session prints about data can be entered again.
-/

namespace SmallLisp

open Entries (flatten)

namespace Evaluation

variable {evaluate : Evaluator} {frame : FrameId}

theorem evaluateAll_eq_pure {expressions : List Value}
    (h : ∀ expression ∈ expressions, evaluate expression frame = pure expression) :
    evaluateAll evaluate frame expressions = pure expressions := by
  induction expressions with
  | nil => rfl
  | cons expression rest ih =>
    rw [List.forall_mem_cons] at h
    rw [evaluateAll_cons, h.1, ih h.2, pure_bind, pure_bind]

theorem evaluateEntries_eq_pure {entries : List (Value × Value)}
    (h : ∀ part ∈ flatten entries, evaluate part frame = pure part) :
    evaluateEntries evaluate frame entries = pure entries := by
  induction entries with
  | nil => rfl
  | cons entry rest ih =>
    obtain ⟨key, value⟩ := entry
    rw [flatten, List.forall_mem_cons, List.forall_mem_cons] at h
    rw [evaluateEntries_cons, h.1, h.2.1, ih h.2.2, pure_bind, pure_bind, pure_bind]

end Evaluation

namespace Value

open Evaluation

theorem evaluateWithin_of_isSelfEvaluating {value : Value} (h : value.isSelfEvaluating) {fuel : Nat}
    (hfuel : 0 < fuel) (frame : FrameId) : evaluateWithin fuel value frame = pure value := by
  obtain ⟨less, rfl⟩ := Nat.exists_eq_add_of_le' hfuel
  rw [evaluateWithin_succ, step_of_isSelfEvaluating _ _ h, finish_done]

/-- A datum is its own value. It takes as much fuel as the datum is high. -/
theorem IsDatum.evaluateWithin {value : Value} (h : value.IsDatum) {fuel : Nat}
    (hfuel : value.height ≤ fuel) (frame : FrameId) :
    evaluateWithin fuel value frame = pure value := by
  induction h generalizing fuel with
  | number n => exact evaluateWithin_of_isSelfEvaluating rfl hfuel frame
  | string text => exact evaluateWithin_of_isSelfEvaluating rfl hfuel frame
  | @symbol symbol hconstant =>
    have hself : (Value.symbol symbol).isSelfEvaluating := hconstant
    exact evaluateWithin_of_isSelfEvaluating hself hfuel frame
  | emptyList => exact evaluateWithin_of_isSelfEvaluating rfl hfuel frame
  | vector hitems ih =>
    obtain ⟨less, rfl⟩ := Nat.exists_eq_add_of_le' (Nat.le_trans (Nat.succ_pos _) hfuel)
    have hparts := heightOfAll_le_iff.1 (Nat.le_of_succ_le_succ hfuel)
    have hall := evaluateAll_eq_pure fun item hitem => ih item hitem (hparts item hitem)
    rw [evaluateWithin_vector, hall, pure_bind]
  | @map entries hdistinct hparts ih =>
    obtain ⟨less, rfl⟩ := Nat.exists_eq_add_of_le' (Nat.le_trans (Nat.succ_pos _) hfuel)
    have hheight : heightOfAll (flatten entries) ≤ less := by
      rw [← heightOfEntries_eq]
      exact Nat.le_of_succ_le_succ hfuel
    have hlow := heightOfAll_le_iff.1 hheight
    have hall := evaluateEntries_eq_pure fun part hpart => ih part hpart (hlow part hpart)
    -- The keys are evaluated to themselves, so none of them meets an equal one.
    have hkept : Entries.insertAll entries [] = entries :=
      Entries.insertAll_of_distinctKeys hdistinct
    rw [evaluateWithin_map, hall, pure_bind, hkept]

theorem IsDatum.evaluatesTo_iff {value : Value} (h : value.IsDatum) {frame : FrameId}
    {before after : Store} {outcome : Except Error Value} :
    EvaluatesTo value frame before outcome after ↔ outcome = .ok value ∧ after = before := by
  have hself : EvaluatesTo value frame before (.ok value) before := by
    refine ⟨value.height, ?_⟩
    rw [h.evaluateWithin (Nat.le_refl _)]
    exact Action.ends_pure_iff.2 ⟨rfl, rfl⟩
  constructor
  · intro hends
    exact hends.unique hself
  · rintro ⟨rfl, rfl⟩
    exact hself

theorem not_all_isBlank_of_mem {text : List Char} {c : Char} (hmem : c ∈ text)
    (hc : Text.isBlank c = false) : ¬ text.all Text.isBlank := by
  intro hblank
  rw [List.all_eq_true.1 hblank c hmem] at hc
  cases hc

theorem not_all_isBlank_of_isRun {run : List Char} (h : Lexeme.IsRun run) :
    ¬ run.all Text.isBlank := by
  obtain ⟨c, rest, rfl⟩ := List.exists_cons_of_ne_nil h.nonempty
  obtain ⟨hseparator, -⟩ := (Lexeme.startsRun_iff rest).1 h.startsRun
  have hc := (Lexeme.next?_eq_none_iff.1 hseparator).1
  exact not_all_isBlank_of_mem List.mem_cons_self hc

/-- The text of a datum is no blank line. -/
theorem IsDatum.not_all_isBlank_print {value : Value} (h : value.IsDatum)
    (hsettled : value.IsSettled) : ¬ (value.print .readable).toList.all Text.isBlank := by
  cases h with
  | number n =>
    exact not_all_isBlank_of_isRun (Lexeme.isRun_of_isNumeral (Number.isNumeral_repr n.toInt))
  | string text =>
    have hquote : '"' ∈ (StringLiteral.write text).toList := by simp [StringLiteral.write]
    exact not_all_isBlank_of_mem hquote (by decide)
  | symbol hconstant =>
    cases hsettled with
    | symbol _ hname => exact not_all_isBlank_of_isRun (Symbol.isToken_iff_isReadable.1 hname).isRun
  | emptyList => decide
  | @vector items hitems =>
    have hopening : '[' ∈ ((Value.vector items).print .readable).toList := by simp [print]
    exact not_all_isBlank_of_mem hopening (by decide)
  | @map entries hdistinct hparts =>
    have hopening : '\x7b' ∈ ((Value.map entries).print .readable).toList := by simp [print]
    exact not_all_isBlank_of_mem hopening (by decide)

/-- The text of the value is a line that a session answers with the same line. -/
structure PrintsAsItself (value : Value) : Prop where
  newline_not_mem : '\n' ∉ (value.print .readable).toList
  evaluateText : ∀ frame store,
    evaluateText frame (value.print .readable) store = .ok value store
  respond : ∀ frame store,
    respond frame (value.print .readable) store = .ok (value.print .readable) store
  feed : ∀ session : Session, session.feed (value.print .readable) =
    ⟨session.store.write (value.print .readable ++ "\n"), session.frame, session.errors⟩

theorem IsDatum.printsAsItself {value : Value} (h : value.IsDatum) (hsettled : value.IsSettled)
    (hheight : value.height ≤ Reader.maxDepth) : value.PrintsAsItself := by
  have hread := read_print_of_height_le (hsettled.isLiteral h.isData) hheight
  have hfuel : value.height ≤ ampleFuel := Nat.le_trans hheight (by decide)
  have hevaluate : ∀ frame store,
      evaluateText frame (value.print .readable) store = .ok value store := by
    intro frame store
    rw [SmallLisp.evaluateText, hread, SmallLisp.evaluate]
    exact congrFun (h.evaluateWithin hfuel frame) store
  have hrespond : ∀ frame store,
      respond frame (value.print .readable) store = .ok (value.print .readable) store := by
    intro frame store
    rw [SmallLisp.respond, Action.bind_apply, hevaluate]
    rfl
  refine ⟨newline_not_mem_print hsettled, hevaluate, hrespond, ?_⟩
  rintro ⟨store, frame, errors⟩
  rw [Session.feed, if_neg (h.not_all_isBlank_print hsettled), hrespond]

end Value

/-- A datum evaluates to itself in every frame of every store, and changes nothing. If its keywords
can be written and it is not too high, its text is one line, which is answered by the same line. So
is the text of every value of a session that holds no callable and no list with items. -/
theorem data_evaluate_to_themselves :
    (∀ value : Value, value.IsDatum →
      (∀ frame before outcome after, EvaluatesTo value frame before outcome after ↔
        outcome = .ok value ∧ after = before) ∧
      ((∀ name, value.Holds (.symbol name) → name.isKeyword → name.IsToken) →
        value.height ≤ Reader.maxDepth → value.PrintsAsItself)) ∧
      ∀ (fuel : Nat) (lines : List String),
        ∀ ending ∈ Action.runEach (lines.map (evaluateTextWithin fuel Session.start.frame))
          Session.start.store,
        ∀ value store, ending = .ok value store → value.HoldsNoCall →
          value.height ≤ Reader.maxDepth → value.PrintsAsItself := by
  constructor
  · intro value hdatum
    refine ⟨fun frame before outcome after => hdatum.evaluatesTo_iff, fun hnames hheight => ?_⟩
    exact hdatum.printsAsItself (hdatum.isSettled hnames) hheight
  · intro fuel lines ending hending value store hvalue hnoCall hheight
    obtain ⟨hvalues, -⟩ := runEach_isSettled Session.start_isSettled fuel Session.start.frame lines
      ending hending
    have hsettled := (hvalues value store hvalue).1
    exact (hsettled.isDatum hnoCall).printsAsItself hsettled hheight

/-- A map with a keyword, a newline in a string and an empty list is its own value, and its text is
answered by the same text. So is the vector that a session puts together from a name and a
keyword. -/
theorem data_evaluate_to_themselves_with_keywords :
    let datum : Value :=
      .map [(.symbol ⟨":k"⟩, .vector [.number 1, .nil]), (.string "a\nb", .list [])]
    let lines := ["(def! x 2)", "[x :k]"]
    let runs := Action.runEach (lines.map (evaluateTextWithin 9 Session.start.frame))
      Session.start.store
    let result : Value := .vector [.number 2, .symbol ⟨":k"⟩]
    datum.IsDatum ∧ EvaluatesTo datum 1 Session.start.store (.ok datum) Session.start.store ∧
      (∀ name, datum.Holds (.symbol name) → name.isKeyword → name.IsToken) ∧
      datum.height ≤ Reader.maxDepth ∧ datum.PrintsAsItself ∧
      ∃ store, .ok result store ∈ runs ∧ result.HoldsNoCall ∧ result.height ≤ Reader.maxDepth ∧
        result.PrintsAsItself := by
  intro datum lines runs result
  have hvector : Value.IsDatum (.vector [.number 1, .nil]) := by
    apply Value.IsDatum.vector
    simp only [List.forall_mem_cons]
    exact ⟨.number 1, .symbol rfl, List.forall_mem_nil _⟩
  have hdatum : datum.IsDatum := by
    apply Value.IsDatum.map
    · exact List.pairwise_pair.2 rfl
    · simp only [flatten, List.forall_mem_cons]
      exact ⟨.symbol rfl, hvector, .string _, .emptyList, List.forall_mem_nil _⟩
  have hnames : ∀ name, datum.Holds (.symbol name) → name.isKeyword → name.IsToken := by
    intro name hname hkeyword
    simp only [datum] at hname
    cases hname with
    | map hpart hin =>
      simp only [flatten, List.mem_cons, List.not_mem_nil, or_false] at hpart
      rcases hpart with rfl | rfl | rfl | rfl
      · cases hin
        exact Symbol.isToken_iff_isReadable.2 (by decide)
      · cases hin with
        | vector hitem hin =>
          simp only [List.mem_cons, List.not_mem_nil, or_false] at hitem
          rcases hitem with rfl | rfl
          · cases hin
          · cases hin
            exact absurd hkeyword (by decide)
      · cases hin
      · cases hin with
        | list hitem => cases hitem
  have hnoCall : result.HoldsNoCall := by
    intro part hpart
    simp only [result] at hpart
    cases hpart with
    | self => exact ⟨rfl, by simp⟩
    | vector hitem hin =>
      simp only [List.mem_cons, List.not_mem_nil, or_false] at hitem
      rcases hitem with rfl | rfl
      · cases hin
        exact ⟨rfl, by simp⟩
      · cases hin
        exact ⟨rfl, by simp⟩
  have hrun : (runs[1]?).bind Action.result? = some result := by
    cbv
  obtain ⟨ending, hending, hresult⟩ := Option.bind_eq_some_iff.1 hrun
  obtain ⟨store, rfl⟩ := Action.exists_of_result?_eq_some hresult
  have hmem := List.mem_of_getElem? hending
  have hdatumHeight : datum.height ≤ Reader.maxDepth := by decide
  have hresultHeight : result.height ≤ Reader.maxDepth := by decide
  obtain ⟨hvalue, hprints⟩ := data_evaluate_to_themselves.1 datum hdatum
  refine ⟨hdatum, (hvalue 1 _ _ _).2 ⟨rfl, rfl⟩, hnames, hdatumHeight,
    hprints hnames hdatumHeight, store, hmem, hnoCall, hresultHeight, ?_⟩
  exact data_evaluate_to_themselves.2 9 lines _ hmem result store rfl hnoCall hresultHeight

end SmallLisp
