import SmallLisp.Proofs.Evaluation.Correspondence
import SmallLisp.Proofs.Store.Frames
import SmallLisp.Proofs.Store.Rename
import SmallLisp.Proofs.Value.Settled

/-!
Evaluation of what was read. From literals come settled values, and under other names the same
values come about, in stores that differ in these names only.
-/

namespace SmallLisp

theorem Value.isSettled_of_isSelfEvaluating {value : Value} (hself : value.isSelfEvaluating)
    (h : value.IsLiteral) : value.IsSettled := by
  cases h with
  | number n => exact .number n
  | string text => exact .string text
  | symbol hname => exact .symbol hself (Symbol.isToken_iff_isReadable.2 hname)
  | @list items hitems =>
    cases items with
    | nil => exact .list (List.forall_mem_nil _)
    | cons => cases hself
  | vector | map => cases hself

/-- Literals are evaluated to settled values. -/
def Vocabulary.settled : Vocabulary where
  IsName := Symbol.IsToken
  IsExpression := Value.IsLiteral
  IsValue := Value.IsSettled
  name_of_expression h := by
    cases h with
    | symbol hname => exact Symbol.isToken_iff_isReadable.2 hname
  items_of_expression hitems h := by
    cases h <;> cases hitems
    all_goals assumption
  entries_of_expression h := by
    cases h with
    | map hdistinct hparts => exact Entries.forall_mem_flatten.1 hparts
  value_of_expression := Value.isSettled_of_isSelfEvaluating
  number := .number
  string := .string
  nil := Value.isSettled_nil
  ofBool := Value.isSettled_ofBool
  list := .list
  vector := .vector
  map := Value.isSettled_map_insertAll
  closure hitems hparameters hbody identity scope := by
    refine .closure (fun name hname => ?_) hbody identity scope
    obtain ⟨hmem, hampersand⟩ := Parameters.names_of_ofItems hparameters name hname
    cases hitems _ hmem with
    | symbol hreadable => exact ⟨Symbol.isToken_iff_isReadable.2 hreadable, hampersand⟩
  names_of_closure h name hname := by
    cases h with
    | closure hnames hbody => exact (hnames name hname).1
  body_of_closure h := by
    cases h with
    | closure hnames hbody => exact hbody

/-- Every name in the store can be written, and every value there is settled. -/
def Store.IsSettled (store : Store) : Prop :=
  ∀ frame ∈ store.frames, ∀ binding ∈ frame.bindings, binding.1.IsToken ∧ binding.2.IsSettled

namespace Store.IsSettled

variable {store : Store}

theorem get? (h : store.IsSettled) {frame : FrameId} {name : Symbol} {value : Value}
    (hvalue : store.get? frame name = some value) : value.IsSettled := by
  obtain ⟨f, -, hbound⟩ := List.exists_of_findSome?_eq_some hvalue
  obtain ⟨key, hmem⟩ := Entries.mem_of_get? hbound
  rw [bindings] at hmem
  cases hf : store.frames[f]? with
  | none => simp [hf] at hmem
  | some found =>
    rw [hf] at hmem
    exact (h found (Array.mem_of_getElem? hf) _ hmem).2

theorem push (h : store.IsSettled) {frame : Frame}
    (hframe : ∀ binding ∈ frame.bindings, binding.1.IsToken ∧ binding.2.IsSettled) :
    (store.push frame).IsSettled := by
  intro other hother
  rcases Array.mem_push.1 hother with hold | rfl
  · exact h other hold
  · exact hframe

theorem define (h : store.IsSettled) {name : Symbol} {value : Value} (hname : name.IsToken)
    (hvalue : value.IsSettled) (frame : FrameId) : (store.define frame name value).IsSettled := by
  intro other hother
  obtain ⟨f, hf⟩ := Array.mem_iff_getElem?.1 hother
  rw [frames_define] at hf
  split at hf
  · obtain ⟨old, hold, rfl⟩ := Option.map_eq_some_iff.1 hf
    exact Entries.forall_insert hname hvalue (h old (Array.mem_of_getElem? hold))
  · exact h other (Array.mem_of_getElem? hf)

end Store.IsSettled

/-- The second of two runs has the same store under other names. -/
def Correspondence.renamed (ρ : Renaming) : Correspondence .settled ρ where
  Stores s t := s.IsSettled ∧ t = s.rename ρ
  size := by
    rintro s _ ⟨-, rfl⟩
    exact Array.size_map ..
  definitionFrame := by
    rintro s _ ⟨-, rfl⟩ frame
    exact s.definitionFrame_rename ρ frame
  closureCount := by
    rintro s _ ⟨-, rfl⟩
    rfl
  value_of_get? := by
    rintro s _ ⟨hsettled, -⟩ frame name value - - hvalue
    exact hsettled.get? hvalue
  get? := by
    rintro s _ ⟨-, rfl⟩ frame name - -
    exact s.get?_rename ρ frame name
  push := by
    rintro s _ ⟨hsettled, rfl⟩ bindings hbindings parent isLocal
    exact ⟨hsettled.push hbindings, (s.push_rename ρ ⟨bindings, some parent, isLocal⟩).symm⟩
  define := by
    rintro s _ ⟨hsettled, rfl⟩ name value hname hvalue frame
    exact ⟨hsettled.define hname hvalue frame, (s.define_rename ρ frame name value).symm⟩
  count := by
    rintro s _ ⟨hsettled, rfl⟩
    exact ⟨hsettled, rfl⟩
  write := by
    rintro s _ ⟨hsettled, rfl⟩ text
    exact ⟨hsettled, rfl⟩
  print h mode := Value.print_rename h ρ mode

end SmallLisp
