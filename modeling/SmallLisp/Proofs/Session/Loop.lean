import SmallLisp.Proofs.Evaluation.Output
import SmallLisp.Proofs.Session.Run

/-!
The loop over the lines of a session, and what each line adds to the output and to the reports of
errors. A line adds the same whether or not the output of the lines before has been passed on, and
lines that are blank or cannot be read leave no trace in what the others do.
-/

namespace SmallLisp

/-- A line does the same behind any earlier output. -/
theorem evaluateTextWithin_behind (fuel : Nat) (frame : FrameId) (line : String) (earlier : String)
    (store : Store) :
    evaluateTextWithin fuel frame line (store.behind earlier) =
      match evaluateTextWithin fuel frame line store with
      | .ok value after => .ok value (after.behind earlier)
      | .error halt after => .error halt (after.behind earlier) := by
  let C := Correspondence.behind earlier
  have hexpression : ∀ expression, read line = .ok expression →
      Vocabulary.all.IsExpression expression := fun _ _ => trivial
  have hends := C.evaluateTextWithin_inStep hexpression fuel frame store (store.behind earlier) rfl
  generalize evaluateTextWithin fuel frame line store = first at hends ⊢
  generalize evaluateTextWithin fuel frame line (store.behind earlier) = second at hends ⊢
  cases hends with
  | ok hvalue hstores =>
    obtain ⟨-, rfl⟩ := hvalue
    obtain rfl := hstores
    simp only [Value.rename_id]
  | failure herror hstores =>
    obtain rfl := Error.eq_of_renamed_id herror
    obtain rfl := hstores
    rfl
  | outOfFuel hstores =>
    obtain rfl := hstores
    rfl

/-- The run of a line from a store, told by its run from the same store without any output. -/
theorem evaluateTextWithin_eq (fuel : Nat) (frame : FrameId) (line : String) (store : Store) :
    evaluateTextWithin fuel frame line store =
      match evaluateTextWithin fuel frame line { store with output := "" } with
      | .ok value after => .ok value (after.behind store.output)
      | .error halt after => .error halt (after.behind store.output) := by
  have hstore : store = Store.behind store.output { store with output := "" } := by
    simp only [Store.behind, String.append_empty]
  have hrun := evaluateTextWithin_behind fuel frame line store.output { store with output := "" }
  rwa [← hstore] at hrun

namespace Session

/-- Takes one line with a given amount of fuel. -/
def feedWithin (fuel : Nat) : Session → String → Session
  | ⟨store, frame, errors⟩, line =>
    if line.toList.all Text.isBlank then
      ⟨store, frame, errors⟩
    else
      match evaluateTextWithin fuel frame line store with
      | .ok value store => ⟨store.write (value.print .readable ++ "\n"), frame, errors⟩
      | .error (.failure e) store => ⟨store, frame, errors ++ [e]⟩
      | .error .outOfFuel store => ⟨store, frame, errors⟩

theorem feed_eq : feed = feedWithin ampleFuel := by
  funext ⟨store, frame, errors⟩ line
  rw [feed, feedWithin, respond, Action.bind_apply, evaluateText_eq]
  cases evaluateTextWithin ampleFuel frame line store with
  | ok value after => rfl
  | error halt after => cases halt <;> rfl

def feedAllWithin (fuel : Nat) (session : Session) (lines : List String) : Session :=
  lines.foldl (feedWithin fuel) session

theorem feedAllWithin_concat (fuel : Nat) (session : Session) (lines : List String)
    (line : String) :
    session.feedAllWithin fuel (lines ++ [line]) =
      (session.feedAllWithin fuel lines).feedWithin fuel line :=
  List.foldl_append ..

theorem feedAll_eq : feedAll = feedAllWithin ampleFuel := by
  funext session lines
  rw [feedAll, feedAllWithin, feed_eq]

/-- What a line adds to the output and to the reports of a session that has passed on everything
from before. -/
def contribution (fuel : Nat) (session : Session) (line : String) : String × String :=
  let next := session.flush.feedWithin fuel line
  (next.store.output, next.errorOutput)

/-- What each of the lines adds, when everything is passed on after every line. -/
def transcript (fuel : Nat) : Session → List String → List (String × String)
  | _, [] => []
  | session, line :: rest =>
    session.contribution fuel line :: transcript fuel (session.flush.feedWithin fuel line) rest

variable (fuel : Nat)

theorem feedWithin_frame (session : Session) (line : String) :
    (session.feedWithin fuel line).frame = session.frame := by
  rw [feedWithin]
  split
  · rfl
  · split <;> rfl

/-- Passing on what there is, or keeping it, makes no difference to a line. -/
theorem feedWithin_eq (session : Session) (line : String) :
    session.feedWithin fuel line =
      ⟨(session.flush.feedWithin fuel line).store.behind session.store.output, session.frame,
        session.errors ++ (session.flush.feedWithin fuel line).errors⟩ := by
  obtain ⟨store, frame, errors⟩ := session
  simp only [feedWithin, flush, evaluateTextWithin_eq fuel frame line store]
  split
  · simp only [Store.behind, String.append_empty, List.append_nil]
  · cases evaluateTextWithin fuel frame line { store with output := "" } with
    | ok value after =>
      simp only [Store.behind, Store.write, String.append_assoc, List.append_nil]
    | error halt after =>
      cases halt with
      | failure e => rfl
      | outOfFuel => simp only [List.append_nil]

theorem errorOutput_append (store : Store) (frame : FrameId) (earlier later : List Error) :
    errorOutput ⟨store, frame, earlier ++ later⟩ =
      errorOutput ⟨store, frame, earlier⟩ ++ errorOutput ⟨store, frame, later⟩ := by
  simp only [errorOutput, List.map_append, String.join_append]

/-- A line adds its contribution to what there is. -/
theorem feedWithin_contribution (session : Session) (line : String) :
    (session.feedWithin fuel line).store.output =
        session.store.output ++ (session.contribution fuel line).1 ∧
      (session.feedWithin fuel line).errorOutput =
        session.errorOutput ++ (session.contribution fuel line).2 := by
  rw [feedWithin_eq]
  exact ⟨rfl, errorOutput_append ..⟩

theorem flush_feedWithin (session : Session) (line : String) :
    (session.feedWithin fuel line).flush = (session.flush.feedWithin fuel line).flush := by
  have hframe : (session.flush.feedWithin fuel line).frame = session.frame :=
    feedWithin_frame fuel session.flush line
  rw [feedWithin_eq]
  generalize session.flush.feedWithin fuel line = next at hframe ⊢
  rw [← hframe]
  rfl

theorem transcript_eq_of_flush_eq {session other : Session} (h : session.flush = other.flush)
    (lines : List String) : session.transcript fuel lines = other.transcript fuel lines := by
  cases lines with
  | nil => rfl
  | cons line rest => rw [transcript, transcript, contribution, contribution, h]

theorem transcript_cons (session : Session) (line : String) (rest : List String) :
    session.transcript fuel (line :: rest) =
      session.contribution fuel line :: (session.feedWithin fuel line).transcript fuel rest := by
  rw [transcript, transcript_eq_of_flush_eq fuel (flush_feedWithin fuel session line).symm]

theorem transcript_append (session : Session) (lines rest : List String) :
    session.transcript fuel (lines ++ rest) =
      session.transcript fuel lines ++
        (session.feedAllWithin fuel lines).transcript fuel rest := by
  induction lines generalizing session with
  | nil => rfl
  | cons line lines ih =>
    rw [List.cons_append, transcript_cons, transcript_cons, ih, List.cons_append]
    rfl

theorem length_transcript (session : Session) (lines : List String) :
    (session.transcript fuel lines).length = lines.length := by
  induction lines generalizing session with
  | nil => rfl
  | cons line rest ih => rw [transcript, List.length_cons, ih, List.length_cons]

/-- What a session puts out is what its lines add, in order. -/
theorem feedAllWithin_transcript (session : Session) (lines : List String) :
    (session.feedAllWithin fuel lines).store.output =
        session.store.output ++ String.join ((session.transcript fuel lines).map Prod.fst) ∧
      (session.feedAllWithin fuel lines).errorOutput =
        session.errorOutput ++ String.join ((session.transcript fuel lines).map Prod.snd) ∧
      (session.feedAllWithin fuel lines).frame = session.frame := by
  induction lines generalizing session with
  | nil => simp [feedAllWithin, transcript]
  | cons line rest ih =>
    obtain ⟨houtput, herrors⟩ := feedWithin_contribution fuel session line
    obtain ⟨hrestOutput, hrestErrors, hframe⟩ := ih (session.feedWithin fuel line)
    rw [transcript_cons, List.map_cons, List.map_cons, String.join_cons, String.join_cons,
      ← String.append_assoc, ← String.append_assoc, ← houtput, ← herrors]
    exact ⟨hrestOutput, hrestErrors, hframe.trans (feedWithin_frame fuel session line)⟩

/-- A line that is blank or cannot be read. -/
def IsInert (line : String) : Prop :=
  line.toList.all Text.isBlank ∨ ∃ e, read line = .error e

theorem feedWithin_of_blank {line : String} (h : line.toList.all Text.isBlank) (session : Session) :
    session.feedWithin fuel line = session := by
  rw [feedWithin, if_pos h]

theorem feedWithin_of_unreadable {line : String} (hline : ¬ line.toList.all Text.isBlank)
    {e : ReadError} (h : read line = .error e) (session : Session) :
    session.feedWithin fuel line =
      ⟨session.store, session.frame, session.errors ++ [.read e]⟩ := by
  have hrun : evaluateTextWithin fuel session.frame line session.store =
      .error (.failure (.read e)) session.store := by
    rw [evaluateTextWithin, h]
    rfl
  rw [feedWithin, if_neg hline]
  simp only [hrun]

theorem store_feedWithin_of_isInert {line : String} (h : IsInert line) (session : Session) :
    (session.feedWithin fuel line).store = session.store := by
  by_cases hline : line.toList.all Text.isBlank
  · rw [feedWithin_of_blank fuel hline]
  · obtain ⟨e, hread⟩ := h.resolve_left hline
    rw [feedWithin_of_unreadable fuel hline hread]

theorem contribution_eq {session : Session} {line : String} {output report : String}
    (houtput : (session.feedWithin fuel line).store.output = session.store.output ++ output)
    (hreport : (session.feedWithin fuel line).errorOutput = session.errorOutput ++ report) :
    session.contribution fuel line = (output, report) := by
  obtain ⟨houtput', hreport'⟩ := feedWithin_contribution fuel session line
  rw [houtput', String.append_right_inj] at houtput
  rw [hreport', String.append_right_inj] at hreport
  exact Prod.ext houtput hreport

/-- An error gives one report, behind those of the lines before. -/
theorem errorOutput_concat (store other : Store) (frame : FrameId) (errors : List Error)
    (e : Error) :
    errorOutput ⟨store, frame, errors ++ [e]⟩ =
      errorOutput ⟨other, frame, errors⟩ ++ (e.boundary ++ " : " ++ e.message ++ "\n") := by
  rw [errorOutput_append]
  simp [errorOutput, Error.report]
  rfl

/-- What a line writes comes after what was written before it. -/
theorem exists_written (frame : FrameId) (line : String) (store : Store) :
    ∃ written, ((evaluateTextWithin fuel frame line).after store).output =
      store.output ++ written := by
  rw [Action.after, evaluateTextWithin_eq]
  cases evaluateTextWithin fuel frame line { store with output := "" } with
  | ok value after => exact ⟨after.output, rfl⟩
  | error halt after => exact ⟨after.output, rfl⟩

/-- How a session handles a line, with what the line adds to the output and to the reports. -/
structure Handles (session : Session) (line : String) (entry : String × String) : Prop where
  blank : line.toList.all Text.isBlank → session.feedWithin fuel line = session ∧ entry = ("", "")
  unreadable : ∀ e : ReadError, ¬ line.toList.all Text.isBlank → read line = .error e →
    (session.feedWithin fuel line).store = session.store ∧
      entry = ("", "ReadError" ++ " : " ++ e.description ++ "\n")
  failed : ∀ (e : Error) (after : Store), ¬ line.toList.all Text.isBlank →
    evaluateTextWithin fuel session.frame line session.store = .error (.failure e) after →
    (session.feedWithin fuel line).store = after ∧
      ∃ written, after.output = session.store.output ++ written ∧
        entry = (written, e.boundary ++ " : " ++ e.message ++ "\n")
  answered : ∀ (value : Value) (after : Store), ¬ line.toList.all Text.isBlank →
    evaluateTextWithin fuel session.frame line session.store = .ok value after →
    (session.feedWithin fuel line).store = after.write (value.print .readable ++ "\n") ∧
      (∃ written, after.output = session.store.output ++ written ∧
        entry = (written ++ value.print .readable ++ "\n", "")) ∧
      '\n' ∉ (value.print .readable).toList

theorem handles_contribution {session : Session} (h : session.store.IsSettled) (line : String) :
    session.Handles fuel line (session.contribution fuel line) := by
  obtain ⟨written, hwritten⟩ := exists_written fuel session.frame line session.store
  constructor
  · intro hline
    have hfeed := feedWithin_of_blank fuel hline session
    refine ⟨hfeed, contribution_eq fuel ?_ ?_⟩
    · rw [hfeed, String.append_empty]
    · rw [hfeed, String.append_empty]
  · intro e hline hread
    have hfeed := feedWithin_of_unreadable fuel hline hread session
    refine ⟨by rw [hfeed], contribution_eq fuel ?_ ?_⟩
    · rw [hfeed, String.append_empty]
    · rw [hfeed]
      exact errorOutput_concat ..
  · intro e after hline hrun
    rw [Action.after, hrun] at hwritten
    have hfeed : session.feedWithin fuel line = ⟨after, session.frame, session.errors ++ [e]⟩ := by
      rw [feedWithin, if_neg hline]
      simp only [hrun]
    refine ⟨by rw [hfeed], written, hwritten, contribution_eq fuel ?_ ?_⟩
    · rw [hfeed, hwritten]
    · rw [hfeed]
      exact errorOutput_concat ..
  · intro value after hline hrun
    rw [Action.after, hrun] at hwritten
    have hfeed : session.feedWithin fuel line =
        ⟨after.write (value.print .readable ++ "\n"), session.frame, session.errors⟩ := by
      rw [feedWithin, if_neg hline]
      simp only [hrun]
    have hvalue := ((evaluateTextWithin_isSettled h fuel _ line).1 value after hrun).1
    refine ⟨by rw [hfeed], ⟨written, hwritten, contribution_eq fuel ?_ ?_⟩,
      Value.newline_not_mem_print hvalue⟩
    · rw [hfeed, Store.write, hwritten, String.append_assoc, String.append_assoc]
    · rw [hfeed, String.append_empty]
      rfl

theorem feedWithin_isSettled {session : Session} (h : session.store.IsSettled) (line : String) :
    (session.feedWithin fuel line).store.IsSettled := by
  have hrun := evaluateTextWithin_isSettled h fuel session.frame line
  rw [feedWithin]
  split
  · exact h
  · split
    · next value after hok => exact (hrun.1 value after hok).2
    · next e after hfails => exact hrun.2 _ after hfails
    · next after hfuel => exact hrun.2 _ after hfuel

theorem feedAllWithin_isSettled {session : Session} (h : session.store.IsSettled)
    (lines : List String) : (session.feedAllWithin fuel lines).store.IsSettled := by
  induction lines generalizing session with
  | nil => exact h
  | cons line rest ih => exact ih (feedWithin_isSettled fuel h line)

/-- The lines that are left when the marked ones are deleted. -/
def unmarked (marked : List (String × Bool)) : List String :=
  (marked.filter fun line => !line.2).map Prod.fst

/-- Two sessions that agree in their store and their frame go on in the same way, when one of them
is spared some lines that are blank or cannot be read. -/
theorem feedAllWithin_unmarked {session other : Session} (hstore : session.store = other.store)
    (hframe : session.frame = other.frame) {marked : List (String × Bool)}
    (hinert : ∀ line ∈ marked, line.2 → IsInert line.1) :
    (session.feedAllWithin fuel (unmarked marked)).store =
        (other.feedAllWithin fuel (marked.map Prod.fst)).store ∧
      session.transcript fuel (unmarked marked) =
        (((other.transcript fuel (marked.map Prod.fst)).zip (marked.map Prod.snd)).filter
          fun entry => !entry.2).map Prod.fst := by
  induction marked generalizing session other with
  | nil => exact ⟨hstore, rfl⟩
  | cons first rest ih =>
    obtain ⟨line, mark⟩ := first
    rw [List.forall_mem_cons] at hinert
    obtain ⟨hline, hrest⟩ := hinert
    rw [List.map_cons, List.map_cons, transcript_cons, List.zip_cons_cons]
    cases mark with
    | true =>
      have hsame : (other.feedWithin fuel line).store = other.store :=
        store_feedWithin_of_isInert fuel (hline rfl) other
      exact ih (hstore.trans hsame.symm)
        (hframe.trans (feedWithin_frame fuel other line).symm) hrest
    | false =>
      have hflush : session.flush = other.flush := by
        rw [flush, flush, hstore, hframe]
      have hnext : (session.feedWithin fuel line).store = (other.feedWithin fuel line).store := by
        rw [feedWithin_eq, feedWithin_eq fuel other, hflush, hstore]
      have hnextFrame : (session.feedWithin fuel line).frame =
          (other.feedWithin fuel line).frame := by
        rw [feedWithin_frame, feedWithin_frame, hframe]
      have hcontribution : session.contribution fuel line = other.contribution fuel line := by
        rw [contribution, contribution, hflush]
      obtain ⟨hstores, htranscripts⟩ := ih hnext hnextFrame hrest
      have hkept : unmarked ((line, false) :: rest) = line :: unmarked rest := rfl
      rw [hkept, transcript_cons, hcontribution, htranscripts]
      exact ⟨hstores, rfl⟩

end Session

/-- The loop is one session over all its lines, in order, and no error ends it before the lines do.
It puts out what the lines add one after the other. A blank line adds nothing; a line that cannot be
read adds one report and leaves the store alone; a line that fails adds its report and what it wrote
before; and a line with a value ends what it adds with the text of the value, which holds no
newline, and a newline. Blank and unreadable lines can be deleted, any number of them: the other
lines then do and add what they did. -/
theorem loop_is_one_session (fuel : Nat) :
    (∀ lines : List String,
      let final := Session.start.feedAllWithin fuel lines
      let entries := Session.start.transcript fuel lines
      final.frame = Session.start.frame ∧ entries.length = lines.length ∧
        final.store.output = String.join (entries.map Prod.fst) ∧
        final.errorOutput = String.join (entries.map Prod.snd)) ∧
      (∀ (before : List String) (line : String) (rest : List String), ∃ entry,
        Session.start.transcript fuel (before ++ line :: rest) =
          Session.start.transcript fuel before ++
            entry :: (Session.start.feedAllWithin fuel (before ++ [line])).transcript fuel rest ∧
        (Session.start.feedAllWithin fuel before).Handles fuel line entry) ∧
      ∀ marked : List (String × Bool), (∀ line ∈ marked, line.2 → Session.IsInert line.1) →
        (Session.start.feedAllWithin fuel (Session.unmarked marked)).store =
            (Session.start.feedAllWithin fuel (marked.map Prod.fst)).store ∧
          Session.start.transcript fuel (Session.unmarked marked) =
            (((Session.start.transcript fuel (marked.map Prod.fst)).zip
              (marked.map Prod.snd)).filter fun entry => !entry.2).map Prod.fst := by
  refine ⟨fun lines => ?_, fun before line rest => ?_, fun marked hinert => ?_⟩
  · obtain ⟨houtput, hreports, hframe⟩ :=
      Session.feedAllWithin_transcript fuel Session.start lines
    have hnoOutput : Session.start.store.output = "" := rfl
    have hnoReports : Session.start.errorOutput = "" := rfl
    rw [hnoOutput, String.empty_append] at houtput
    rw [hnoReports, String.empty_append] at hreports
    exact ⟨hframe, Session.length_transcript fuel Session.start lines, houtput, hreports⟩
  · refine ⟨(Session.start.feedAllWithin fuel before).contribution fuel line, ?_, ?_⟩
    · rw [Session.transcript_append, Session.transcript_cons, Session.feedAllWithin_concat]
    · exact Session.handles_contribution fuel
        (Session.feedAllWithin_isSettled fuel Session.start_isSettled before) line
  · exact Session.feedAllWithin_unmarked fuel rfl rfl hinert

/-- Four lines, of which the second is blank and the third lacks a bracket. The second adds nothing
and the third adds its report, and without the two the session ends in the same store. -/
theorem loop_is_one_session_without_inert_lines :
    let marked := [("(def! x 1)", false), ("  ", true), ("(prn x", true), ("(do (prn x) x)", false)]
    (∀ line ∈ marked, line.2 → Session.IsInert line.1) ∧
      Session.start.transcript 9 ["(def! x 1)", "  ", "(prn x"] =
        Session.start.transcript 9 ["(def! x 1)"] ++
          [("", ""), ("", "ReadError : expected ')', got end of input at position 6\n")] ∧
      (Session.start.feedAllWithin 9 ["(def! x 1)", "(do (prn x) x)"]).store =
        (Session.start.feedAllWithin 9 (marked.map Prod.fst)).store := by
  intro marked
  have hblank : "  ".toList.all Text.isBlank := by decide
  have hnotBlank : ¬ "(prn x".toList.all Text.isBlank := by decide
  have hread : read "(prn x" = .error ⟨.incomplete, "expected ')', got end of input", 6⟩ := by
    cbv
  have hinert : ∀ line ∈ marked, line.2 → Session.IsInert line.1 := by
    simp only [marked, List.forall_mem_cons]
    exact ⟨fun h => absurd h Bool.false_ne_true, fun _ => .inl hblank, fun _ => .inr ⟨_, hread⟩,
      fun h => absurd h Bool.false_ne_true, List.forall_mem_nil _⟩
  obtain ⟨-, hlines, hdeletion⟩ := loop_is_one_session 9
  obtain ⟨_, hsecond, hhandled⟩ := hlines ["(def! x 1)"] "  " []
  obtain ⟨-, rfl⟩ := hhandled.blank hblank
  obtain ⟨_, hthird, hhandled⟩ := hlines ["(def! x 1)", "  "] "(prn x" []
  obtain ⟨-, rfl⟩ := hhandled.unreadable _ hnotBlank hread
  refine ⟨hinert, ?_, (hdeletion marked hinert).1⟩
  have hfirst : Session.start.transcript 9 ["(def! x 1)", "  "] =
      Session.start.transcript 9 ["(def! x 1)"] ++ [("", "")] := hsecond
  rw [hfirst, List.append_assoc] at hthird
  exact hthird

end SmallLisp
