import Mathlib.Data.List.DropRight
import SmallLisp.Completion
import SmallLisp.Proofs.Session.Run
import SmallLisp.Proofs.Store.History

/-!
Completion in a session. What is completed is the text behind the last break of the line, or behind
the bracket that stands there. It is completed to the names in sight that start with it. These are
tokens, and a token holds no break and starts with no bracket, so a line in which one of them was
taken is completed at the same place.
-/

namespace SmallLisp

namespace Completion

/-- No character of the text breaks words. -/
def Unbroken (text : List Char) : Prop :=
  ∀ c ∈ text, isWordBreak c = false

/-- A word can start behind this text, which is empty or ends in a break. -/
def AtWordStart (before : List Char) : Prop :=
  ∀ c ∈ before.getLast?, isWordBreak c

/-- The text ends in an opening bracket that starts a word. -/
def BehindBracket (before : List Char) : Prop :=
  ∃ outer bracket, before = outer ++ [bracket] ∧ (bracket = '(' ∨ bracket = '[') ∧ AtWordStart outer

theorem opensForm_iff {word : List Char} :
    opensForm word ↔ ∃ bracket rest, word = bracket :: rest ∧ (bracket = '(' ∨ bracket = '[') := by
  fun_cases opensForm word with
  | case1 rest => simp
  | case2 rest => simp
  | case3 word hround hsquare =>
    simp only [Bool.false_eq_true, false_iff, not_exists, not_and]
    rintro bracket rest rfl (rfl | rfl)
    · exact hround rest rfl
    · exact hsquare rest rfl

theorem splitLastWord_append {before word : List Char} (hbefore : AtWordStart before)
    (hword : Unbroken word) : splitLastWord (before ++ word) = (before, word) := by
  have htaken : ∀ c ∈ word.reverse, (!isWordBreak c) = true := by
    intro c hc
    rw [hword c (List.mem_reverse.1 hc), Bool.not_false]
  have hleft : before.reverse.takeWhile (!isWordBreak ·) = [] := by
    cases hreverse : before.reverse with
    | nil => rfl
    | cons c rest =>
      have hlast : before.getLast? = some c := by
        rw [← List.head?_reverse, hreverse, List.head?_cons]
      rw [List.takeWhile_cons, hbefore c hlast]
      rfl
  have hfound : ((before ++ word).reverse.takeWhile (!isWordBreak ·)).reverse = word := by
    rw [List.reverse_append, List.takeWhile_append_of_pos htaken, hleft, List.append_nil,
      List.reverse_reverse]
  rw [splitLastWord, hfound, List.length_append, Nat.add_sub_cancel, List.take_left]

theorem lastWord_unique {before word other last : List Char}
    (hline : before ++ word = other ++ last)
    (hbefore : AtWordStart before) (hword : Unbroken word) (hother : AtWordStart other)
    (hlast : Unbroken last) : word = last := by
  have hsplit := splitLastWord_append hbefore hword
  rw [hline, splitLastWord_append hother hlast] at hsplit
  exact (Prod.mk.inj hsplit).2.symm

/-- Every line has a last word, which may be empty. -/
theorem exists_lastWord (line : List Char) :
    ∃ before word, line = before ++ word ∧ AtWordStart before ∧ Unbroken word := by
  refine ⟨line.rdropWhile (!isWordBreak ·), line.rtakeWhile (!isWordBreak ·),
    List.rdropWhile_append_rtakeWhile.symm, ?_, ?_⟩
  · intro c hc
    obtain ⟨hnonempty, rfl⟩ := List.mem_getLast?_eq_getLast hc
    have hlast := List.rdropWhile_last_not (!isWordBreak ·) line hnonempty
    simpa using hlast
  · intro c hc
    simpa using List.mem_rtakeWhile_imp hc

theorem mem_candidates_iff {names : List String} {stem : List Char} {name : String} :
    name ∈ candidates names stem ↔ name ∈ names ∧ stem <+: name.toList := by
  rw [candidates, List.mem_filter, List.isPrefixOf_iff_prefix]

theorem ofNames_word {before word : List Char} (hbefore : AtWordStart before)
    (hword : Unbroken word) (hopen : opensForm word = false) (names : List String) :
    ofNames names (before ++ word) =
      ⟨(String.ofList before).utf8ByteSize,
        if word.isEmpty then [] else candidates names word⟩ := by
  rw [ofNames, splitLastWord_append hbefore hword]
  simp only [hopen, Bool.false_eq_true, if_false]
  split <;> rfl

theorem unbroken_cons_bracket {bracket : Char} (hbracket : bracket = '(' ∨ bracket = '[')
    {stem : List Char} (hstem : Unbroken stem) : Unbroken (bracket :: stem) := by
  refine List.forall_mem_cons.2 ⟨?_, hstem⟩
  rcases hbracket with rfl | rfl <;> decide

theorem ofNames_bracket {outer stem : List Char} {bracket : Char} (houter : AtWordStart outer)
    (hbracket : bracket = '(' ∨ bracket = '[') (hstem : Unbroken stem) (names : List String) :
    ofNames names (outer ++ [bracket] ++ stem) =
      ⟨(String.ofList (outer ++ [bracket])).utf8ByteSize,
        candidates (Names.ofList (names ++ SpecialForm.all.map SpecialForm.name)) stem⟩ := by
  have hopen : opensForm (bracket :: stem) := opensForm_iff.2 ⟨bracket, stem, rfl, hbracket⟩
  have hword := unbroken_cons_bracket hbracket hstem
  have hsize : (String.ofList [bracket]).utf8ByteSize = 1 := by
    rcases hbracket with rfl | rfl <;> rfl
  rw [List.append_assoc, List.singleton_append, ofNames, splitLastWord_append houter hword,
    String.ofList_append, String.utf8ByteSize_append, hsize]
  simp only [hopen, if_true, List.tail_cons]

/-- A bracket breaks no word, so a text does not both end in one and in a break. -/
theorem BehindBracket.not_atWordStart {before : List Char} (h : BehindBracket before) :
    ¬ AtWordStart before := by
  obtain ⟨outer, bracket, rfl, hbracket, -⟩ := h
  intro hstart
  have hbreak := hstart bracket List.getLast?_concat
  rcases hbracket with rfl | rfl <;> exact absurd hbreak (by decide)

/-- A run is a word of its own: what breaks words ends runs, and so do brackets. -/
theorem unbroken_of_isRun {run : List Char} (h : Lexeme.IsRun run) :
    Unbroken run ∧ opensForm run = false := by
  refine ⟨fun c hc => ?_, ?_⟩
  · have hunbroken := h.unbroken c hc
    simp only [Lexeme.endsRun, List.contains_eq_mem, Bool.or_eq_false_iff, decide_eq_false_iff_not,
      List.mem_cons, not_or] at hunbroken
    simp [isWordBreak, hunbroken]
  · rw [← Bool.not_eq_true, opensForm_iff]
    rintro ⟨bracket, rest, rfl, hbracket⟩
    have hunbroken := h.unbroken bracket List.mem_cons_self
    rcases hbracket with rfl | rfl <;> exact absurd hunbroken (by decide)

end Completion

theorem SpecialForm.isToken_name (form : SpecialForm) : Symbol.IsToken ⟨form.name⟩ := by
  rw [Symbol.isToken_iff_isReadable]
  cases form <;> decide

theorem SpecialForm.mem_names_iff {name : String} :
    name ∈ all.map SpecialForm.name ↔ ∃ form : SpecialForm, form.name = name := by
  rw [List.mem_map]
  constructor
  · rintro ⟨form, -, hname⟩
    exact ⟨form, hname⟩
  · rintro ⟨form, hname⟩
    refine ⟨form, ?_, hname⟩
    cases form <;> decide

theorem Store.mem_names_iff_binds {store : Store} {frame : FrameId} {name : String} :
    name ∈ store.names frame ↔ ∃ f ∈ store.chain frame, store.Binds f ⟨name⟩ := by
  rw [mem_names_iff, ← Option.ne_none_iff_isSome, Ne, get?_eq_none_iff]
  simp only [not_forall, not_not, exists_prop]

/-- In a settled store only tokens are bound. -/
theorem Store.IsSettled.isToken_of_binds {store : Store} (h : store.IsSettled) {f : FrameId}
    {name : Symbol} (hbinds : store.Binds f name) : name.IsToken := by
  obtain ⟨⟨found, value⟩, hfind⟩ := Option.isSome_iff_exists.1 (Option.isSome_map.symm.trans hbinds)
  have hname : found = name := by simpa using List.find?_some hfind
  have hmem := List.mem_of_find?_eq_some hfind
  rw [bindings] at hmem
  cases hf : store.frames[f]? with
  | none => simp [hf] at hmem
  | some frame =>
    rw [hf] at hmem
    exact hname ▸ (h frame (Array.mem_of_getElem? hf) _ hmem).1

/-- The line is completed behind `before`, and `stem` is what stands there already. -/
structure CompletesAt (store : Store) (frame : FrameId) (line : String) (before stem : List Char) :
    Prop where
  split : line.toList = before ++ stem
  start : (complete store frame line).start = (String.ofList before).utf8ByteSize
  unbroken : Completion.Unbroken stem
  place : Completion.AtWordStart before ∨ Completion.BehindBracket before
  /-- A bracket at the start of the last word stays in place, and nothing else does. -/
  bracket : ∀ outer word, line.toList = outer ++ word → Completion.AtWordStart outer →
    Completion.Unbroken word → (Completion.BehindBracket before ↔
      ∃ bracket rest, word = bracket :: rest ∧ (bracket = '(' ∨ bracket = '['))
  names_ascending : (complete store frame line).names.Pairwise fun first second =>
    Text.bytes first < Text.bytes second
  mem_names_iff : ∀ name, name ∈ (complete store frame line).names ↔
    (stem ≠ [] ∨ Completion.BehindBracket before) ∧ stem <+: name.toList ∧
      ((∃ f ∈ store.chain frame, store.Binds f ⟨name⟩) ∨
        Completion.BehindBracket before ∧ ∃ form : SpecialForm, form.name = name)
  /-- Taking one of the names does not change what is completed, and the name stays one of them. -/
  accepted : ∀ name ∈ (complete store frame line).names,
    let accepted := complete store frame (String.ofList (before ++ name.toList))
    accepted.start = (complete store frame line).start ∧ name ∈ accepted.names

section

open Completion

variable {store : Store} {frame : FrameId}

theorem names_complete_ascending (store : Store) (frame : FrameId) (line : String) :
    (complete store frame line).names.Pairwise fun first second =>
      Text.bytes first < Text.bytes second := by
  have hcandidates : ∀ (names : List String) (stem : List Char),
      (candidates (Names.ofList names) stem).Pairwise (· < ·) :=
    fun names stem => (Names.pairwise_ofList names).filter _
  refine List.Pairwise.imp Text.bytes_lt_bytes ?_
  rw [complete, ofNames]
  split
  split
  · exact hcandidates _ _
  · split
    · exact List.Pairwise.nil
    · exact hcandidates _ _

section Word

variable {before : List Char} (hbefore : AtWordStart before)

include hbefore

theorem complete_word {word : List Char} (hword : Unbroken word) (hopen : opensForm word = false) :
    complete store frame (String.ofList (before ++ word)) =
      ⟨(String.ofList before).utf8ByteSize,
        if word.isEmpty then [] else candidates (store.names frame) word⟩ := by
  rw [complete, String.toList_ofList, ofNames_word hbefore hword hopen]

theorem mem_names_word_iff {word : List Char} (hword : Unbroken word)
    (hopen : opensForm word = false) {name : String} :
    name ∈ (complete store frame (String.ofList (before ++ word))).names ↔
      word ≠ [] ∧ word <+: name.toList ∧ ∃ f ∈ store.chain frame, store.Binds f ⟨name⟩ := by
  rw [complete_word hbefore hword hopen]
  split
  · next hempty => simp [List.isEmpty_iff.1 hempty]
  · next hnonempty =>
    rw [List.isEmpty_iff] at hnonempty
    rw [mem_candidates_iff, Store.mem_names_iff_binds, and_comm]
    exact (and_iff_right hnonempty).symm

theorem completesAt_word (h : store.IsSettled) {word : List Char} (hword : Unbroken word)
    (hopen : opensForm word = false) :
    CompletesAt store frame (String.ofList (before ++ word)) before word := by
  have hbehind : ¬ BehindBracket before := fun hbracket => hbracket.not_atWordStart hbefore
  refine ⟨String.toList_ofList, by rw [complete_word hbefore hword hopen], hword, .inl hbefore,
    ?_, names_complete_ascending store frame _, ?_, ?_⟩
  · intro other last hsplit hother hlast
    rw [String.toList_ofList] at hsplit
    obtain rfl := lastWord_unique hsplit hbefore hword hother hlast
    rw [← opensForm_iff, hopen]
    simp [hbehind]
  · intro name
    simp only [mem_names_word_iff hbefore hword hopen, hbehind, or_false, false_and]
  · intro name hname
    obtain ⟨-, -, f, hf, hbinds⟩ := (mem_names_word_iff hbefore hword hopen).1 hname
    have hrun : Lexeme.IsRun name.toList :=
      (Symbol.isToken_iff_isReadable.1 (h.isToken_of_binds hbinds)).isRun
    obtain ⟨hunbroken, hopens⟩ := unbroken_of_isRun hrun
    constructor
    · rw [complete_word hbefore hunbroken hopens, complete_word hbefore hword hopen]
    · rw [mem_names_word_iff hbefore hunbroken hopens]
      exact ⟨hrun.nonempty, List.prefix_refl _, f, hf, hbinds⟩

end Word

section Bracket

variable {outer : List Char} {bracket : Char} (houter : AtWordStart outer)
  (hbracket : bracket = '(' ∨ bracket = '[')

include houter hbracket

theorem complete_bracket {stem : List Char} (hstem : Unbroken stem) :
    complete store frame (String.ofList (outer ++ [bracket] ++ stem)) =
      ⟨(String.ofList (outer ++ [bracket])).utf8ByteSize, candidates
        (Names.ofList (store.names frame ++ SpecialForm.all.map SpecialForm.name)) stem⟩ := by
  rw [complete, String.toList_ofList, ofNames_bracket houter hbracket hstem]

theorem mem_names_bracket_iff {stem : List Char} (hstem : Unbroken stem) {name : String} :
    name ∈ (complete store frame (String.ofList (outer ++ [bracket] ++ stem))).names ↔
      stem <+: name.toList ∧ ((∃ f ∈ store.chain frame, store.Binds f ⟨name⟩) ∨
        ∃ form : SpecialForm, form.name = name) := by
  rw [complete_bracket houter hbracket hstem, mem_candidates_iff, Names.mem_ofList,
    List.mem_append, Store.mem_names_iff_binds, SpecialForm.mem_names_iff, and_comm]

theorem completesAt_bracket (h : store.IsSettled) {stem : List Char} (hstem : Unbroken stem) :
    CompletesAt store frame (String.ofList (outer ++ [bracket] ++ stem)) (outer ++ [bracket])
      stem := by
  have hbehind : BehindBracket (outer ++ [bracket]) := ⟨outer, bracket, rfl, hbracket, houter⟩
  refine ⟨String.toList_ofList, by rw [complete_bracket houter hbracket hstem], hstem,
    .inr hbehind, ?_, names_complete_ascending store frame _, ?_, ?_⟩
  · intro other last hsplit hother hlast
    rw [String.toList_ofList, List.append_assoc, List.singleton_append] at hsplit
    have hword := unbroken_cons_bracket hbracket hstem
    obtain rfl := lastWord_unique hsplit houter hword hother hlast
    exact iff_of_true hbehind ⟨bracket, stem, rfl, hbracket⟩
  · intro name
    simp only [mem_names_bracket_iff houter hbracket hstem, hbehind, or_true, true_and]
  · intro name hname
    obtain ⟨-, hoffered⟩ := (mem_names_bracket_iff houter hbracket hstem).1 hname
    have htoken : Symbol.IsToken ⟨name⟩ := by
      rcases hoffered with ⟨f, -, hbinds⟩ | ⟨form, rfl⟩
      · exact h.isToken_of_binds hbinds
      · exact form.isToken_name
    have hrun : Lexeme.IsRun name.toList := (Symbol.isToken_iff_isReadable.1 htoken).isRun
    have hunbroken := (unbroken_of_isRun hrun).1
    constructor
    · rw [complete_bracket houter hbracket hunbroken, complete_bracket houter hbracket hstem]
    · rw [mem_names_bracket_iff houter hbracket hunbroken]
      exact ⟨List.prefix_refl _, hoffered⟩

end Bracket

theorem exists_completesAt (h : store.IsSettled) (frame : FrameId) (line : String) :
    ∃ before stem, CompletesAt store frame line before stem := by
  obtain ⟨before, word, hline, hbefore, hword⟩ := exists_lastWord line.toList
  obtain rfl : line = String.ofList (before ++ word) := by rw [← hline, String.ofList_toList]
  cases hopen : opensForm word with
  | false => exact ⟨before, word, completesAt_word hbefore h hword hopen⟩
  | true =>
    obtain ⟨bracket, stem, rfl, hbracket⟩ := opensForm_iff.1 hopen
    have hstem := (List.forall_mem_cons.1 hword).2
    have hcompletes : CompletesAt store frame (String.ofList (before ++ [bracket] ++ stem))
        (before ++ [bracket]) stem := completesAt_bracket hbefore hbracket h hstem
    rw [List.append_assoc, List.singleton_append] at hcompletes
    exact ⟨before ++ [bracket], stem, hcompletes⟩

end

/-- The stores of a session: each line is read and evaluated, in whatever frame and with whatever
result, and leaves a store to the next. -/
inductive Store.InSession : Store → Prop where
  | start : InSession Session.start.store
  | line {store : Store} (h : InSession store) (fuel : Nat) (frame : FrameId) (text : String) :
      InSession ((evaluateTextWithin fuel frame text).after store)

theorem Store.InSession.isSettled {store : Store} (h : store.InSession) : store.IsSettled := by
  induction h with
  | start => exact Session.start_isSettled
  | line h fuel frame text ih => exact after_isSettled ih fuel frame text

/-- In a session every line is completed at the start of its last word, or behind the bracket there.
The names offered are in ascending order, and they are those in sight that start with what stands
there, and behind a bracket those of the special forms too. Taking one of them is stable: the line
with the name is completed at the same place, and the name is offered again. -/
theorem completion_is_stable {store : Store} (h : store.InSession) (frame : FrameId)
    (line : String) : ∃ before stem, CompletesAt store frame line before stem := by
  have hsettled := h.isSettled
  exact exists_completesAt hsettled frame line

/-- Behind a bracket a defined name is offered next to a special form, and it stays on offer when it
is taken. -/
theorem completion_is_stable_behind_bracket :
    let store := (evaluateTextWithin 9 1 "(def! deep 1)").after Session.start.store
    store.InSession ∧ complete store 1 "x (de" = ⟨3, ["deep", "def!"]⟩ ∧
      ∃ before stem, CompletesAt store 1 "x (de" before stem ∧
        (complete store 1 (String.ofList (before ++ "deep".toList))).start = 3 ∧
          "deep" ∈ (complete store 1 (String.ofList (before ++ "deep".toList))).names := by
  intro store
  have hsession : store.InSession := .line .start 9 1 "(def! deep 1)"
  have hcomplete : complete store 1 "x (de" = ⟨3, ["deep", "def!"]⟩ := by
    decide +kernel
  obtain ⟨before, stem, hcompletes⟩ := completion_is_stable hsession 1 "x (de"
  have hoffered : "deep" ∈ (complete store 1 "x (de").names := by
    rw [hcomplete]
    exact List.mem_cons_self
  obtain ⟨hstart, hagain⟩ := hcompletes.accepted "deep" hoffered
  rw [hcomplete] at hstart
  exact ⟨hsession, hcomplete, before, stem, hcompletes, hstart, hagain⟩

end SmallLisp
