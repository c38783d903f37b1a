import SmallLisp.Proofs.Reader.Grammar
import SmallLisp.Proofs.Token.Tiling
import SmallLisp.Proofs.Value.Literal
import SmallLisp.Value.Printer

/-!
Readable text and its reading. The text of a literal spells one form, which denotes the literal and
is as deep as the literal is high. The other way around, every value that is read is a literal.
-/

namespace SmallLisp

namespace Value

open Entries (flatten)

mutual

/-- The form that the readable text of a value spells. -/
def toForm : Value → Form
  | .number n => .number n
  | .string text => .string text
  | .symbol s => .symbol s.name
  | .list items => .collection .parenthesis (toForms items)
  | .vector items => .collection .bracket (toForms items)
  | .map entries => .collection .brace (toFormsOfEntries entries)
  | .closure .. => .symbol "#<function>"
  | .builtin operation => .symbol ("#<builtin:" ++ operation.name ++ ">")

def toForms : List Value → List Form
  | [] => []
  | item :: items => item.toForm :: toForms items

def toFormsOfEntries : List (Value × Value) → List Form
  | [] => []
  | (key, value) :: entries => key.toForm :: value.toForm :: toFormsOfEntries entries

end

theorem toFormsOfEntries_eq (entries : List (Value × Value)) :
    toFormsOfEntries entries = toForms (flatten entries) := by
  induction entries with
  | nil => rfl
  | cons entry entries ih => rw [toFormsOfEntries, ih, flatten, toForms, toForms]

theorem printItems_eq_map (mode : PrintMode) (items : List Value) :
    printItems mode items = items.map (print mode) := by
  induction items with
  | nil => rfl
  | cons item items ih => rw [printItems, ih, List.map_cons]

theorem printEntries_eq (mode : PrintMode) (entries : List (Value × Value)) :
    printEntries mode entries = printItems mode (flatten entries) := by
  induction entries with
  | nil => rfl
  | cons entry entries ih => rw [printEntries, ih, flatten, printItems, printItems]

theorem tokensOfAll_toForms (items : List Value) :
    Form.tokensOfAll (toForms items) = items.flatMap fun item => item.toForm.tokens := by
  induction items with
  | nil => rfl
  | cons item items ih => rw [toForms, Form.tokensOfAll, ih, List.flatMap_cons]

theorem yields_collection (delimiter : Delimiter) {items : List Value}
    (hitems : ∀ item ∈ items, TokenStream.Yields (item.print .readable).toList item.toForm.tokens)
    {text : String} (htext : text.toList = delimiter.opening ::
      ((" ".intercalate (printItems .readable items)).toList ++ [delimiter.closing])) :
    TokenStream.Yields text.toList (Form.collection delimiter (toForms items)).tokens := by
  have hinner := (TokenStream.Yields.intercalate hitems).bracketed delimiter
  rw [htext, printItems_eq_map, Form.tokens, tokensOfAll_toForms]
  exact hinner

theorem yields_print {v : Value} (h : v.IsLiteral) :
    TokenStream.Yields (v.print .readable).toList v.toForm.tokens := by
  induction h with
  | number n => exact .number n
  | string text => exact .string text
  | symbol hname => exact .symbol hname
  | list hitems ih =>
    apply yields_collection .parenthesis ih
    simp [print, Delimiter.opening, Delimiter.closing]
  | vector hitems ih =>
    apply yields_collection .bracket ih
    simp [print, Delimiter.opening, Delimiter.closing]
  | map hdistinct hparts ih =>
    rw [toForm, toFormsOfEntries_eq]
    apply yields_collection .brace ih
    simp [print, printEntries_eq, Delimiter.opening, Delimiter.closing]

theorem valuesOfAll_toForms {items : List Value} (h : ∀ item ∈ items, item.toForm.value = item) :
    Form.valuesOfAll (toForms items) = items := by
  induction items with
  | nil => rfl
  | cons item items ih =>
    rw [List.forall_mem_cons] at h
    rw [toForms, Form.valuesOfAll, h.1, ih h.2]

theorem value_toForm {v : Value} (h : v.IsLiteral) : v.toForm.value = v := by
  induction h with
  | number | string | symbol => rfl
  | list hitems ih => rw [toForm, Form.value, valuesOfAll_toForms ih]
  | vector hitems ih => rw [toForm, Form.value, valuesOfAll_toForms ih]
  | map hdistinct hparts ih =>
    rw [toForm, Form.value, toFormsOfEntries_eq, valuesOfAll_toForms ih,
      mapOfItems_flatten hdistinct]

theorem fitsAt_collection_iff {delimiter : Delimiter} {items : List Value}
    (h : ∀ item ∈ items, ∀ depth,
      item.toForm.FitsAt depth ↔ depth + item.height ≤ Reader.maxDepth) {depth : Nat} :
    (Form.collection delimiter (toForms items)).FitsAt depth ↔
      depth + (heightOfAll items + 1) ≤ Reader.maxDepth := by
  have hitems : Form.AllFitAt (depth + 1) (toForms items) ↔
      ∀ item ∈ items, depth + 1 + item.height ≤ Reader.maxDepth := by
    induction items with
    | nil => simp [toForms, Form.AllFitAt]
    | cons item items ih =>
      rw [List.forall_mem_cons] at h ⊢
      rw [toForms, Form.AllFitAt, h.1, ih h.2]
  have hheight : heightOfAll items ≤ Reader.maxDepth - (depth + 1) ↔
      ∀ item ∈ items, item.height ≤ Reader.maxDepth - (depth + 1) := heightOfAll_le_iff
  rw [Form.FitsAt, hitems]
  constructor
  · rintro ⟨hdepth, hall⟩
    have hle := hheight.2 fun item hitem => Nat.le_sub_of_add_le' (hall item hitem)
    omega
  · intro hle
    refine ⟨by omega, fun item hitem => ?_⟩
    have hitem := hheight.1 (by omega) item hitem
    omega

theorem fitsAt_toForm_iff {v : Value} (h : v.IsLiteral) (depth : Nat) :
    v.toForm.FitsAt depth ↔ depth + v.height ≤ Reader.maxDepth := by
  induction h generalizing depth with
  | number | string | symbol => rfl
  | list hitems ih => exact fitsAt_collection_iff ih
  | vector hitems ih => exact fitsAt_collection_iff ih
  | map hdistinct hparts ih =>
    rw [toForm, toFormsOfEntries_eq, height, heightOfEntries_eq]
    exact fitsAt_collection_iff ih

end Value

namespace Form

theorem isReadable_head (shorthand : Shorthand) : Symbol.IsReadable ⟨shorthand.head⟩ := by
  cases shorthand
  all_goals decide

mutual

theorem isLiteral_value (form : Form)
    (h : ∀ name, .symbol name ∈ form.tokens → Symbol.IsReadable ⟨name⟩) :
    form.value.IsLiteral := by
  cases form with
  | number n => exact .number n
  | string text => exact .string text
  | symbol name => exact .symbol (h name (by simp [tokens]))
  | marked mark operand =>
    have hoperand := isLiteral_value operand fun name hname => h name (by simp [tokens, hname])
    apply Value.IsLiteral.list
    simp only [List.forall_mem_cons]
    exact ⟨.symbol (isReadable_head _), hoperand, List.forall_mem_nil _⟩
  | withMeta first second =>
    have hfirst := isLiteral_value first fun name hname => h name (by simp [tokens, hname])
    have hsecond := isLiteral_value second fun name hname => h name (by simp [tokens, hname])
    apply Value.IsLiteral.list
    simp only [List.forall_mem_cons]
    exact ⟨.symbol (isReadable_head _), hsecond, hfirst, List.forall_mem_nil _⟩
  | collection delimiter items =>
    have hitems := isLiteral_valuesOfAll items fun name hname => h name (by simp [tokens, hname])
    cases delimiter with
    | parenthesis => exact .list hitems
    | bracket => exact .vector hitems
    | brace => exact Value.isLiteral_mapOfItems hitems

theorem isLiteral_valuesOfAll (items : List Form)
    (h : ∀ name, .symbol name ∈ tokensOfAll items → Symbol.IsReadable ⟨name⟩) :
    ∀ value ∈ valuesOfAll items, value.IsLiteral := by
  match items with
  | [] => exact List.forall_mem_nil _
  | item :: items =>
    have hitem := isLiteral_value item fun name hname => h name (by simp [tokensOfAll, hname])
    have hitems := isLiteral_valuesOfAll items
      fun name hname => h name (by simp [tokensOfAll, hname])
    exact List.forall_mem_cons.2 ⟨hitem, hitems⟩

end

mutual

theorem height_value_le (form : Form) {depth : Nat} (h : form.FitsAt depth) :
    depth + form.value.height ≤ Reader.maxDepth := by
  cases form with
  | number | string | symbol => exact h
  | marked mark operand =>
    have hoperand := height_value_le operand h.2
    have hpos := operand.value.height_pos
    simp only [value, Value.height, Value.heightOfAll]
    omega
  | withMeta first second =>
    have hfirst := height_value_le first h.2.1
    have hsecond := height_value_le second h.2.2
    have hpos := first.value.height_pos
    simp only [value, Value.height, Value.heightOfAll]
    omega
  | collection delimiter items =>
    have hitems := heightOfAll_valuesOfAll_le items h.1 h.2
    cases delimiter with
    | parenthesis | bracket =>
      simp only [value, Value.height]
      omega
    | brace =>
      have hmap := Value.height_mapOfItems_le (valuesOfAll items)
      simp only [value]
      omega

theorem heightOfAll_valuesOfAll_le (items : List Form) {depth : Nat}
    (hdepth : depth ≤ Reader.maxDepth) (h : AllFitAt depth items) :
    depth + Value.heightOfAll (valuesOfAll items) ≤ Reader.maxDepth := by
  match items with
  | [] => exact hdepth
  | item :: items =>
    have hitem := height_value_le item h.1
    have hitems := heightOfAll_valuesOfAll_le items hdepth h.2
    simp only [valuesOfAll, Value.heightOfAll]
    omega

end

end Form

theorem tokenize_print {v : Value} (h : v.IsLiteral) :
    (tokenize (v.print .readable)).kinds = v.toForm.tokens ∧
      ∃ position, (tokenize (v.print .readable)).ending = .ok position := by
  obtain ⟨hkinds, hending⟩ := Value.yields_print h 0 [] Lexeme.isBoundary_nil
  rw [List.append_nil, TokenStream.scan_nil] at hkinds hending
  constructor
  · simpa [tokenize, TokenStream.kinds] using hkinds
  · exact ⟨_, hending⟩

theorem read_print_of_height_le {v : Value} (h : v.IsLiteral)
    (hheight : v.height ≤ Reader.maxDepth) :
    read (v.print .readable) = .ok v := by
  obtain ⟨hkinds, position, hending⟩ := tokenize_print h
  have hfits : v.toForm.FitsAt 0 := by
    rw [Value.fitsAt_toForm_iff h, Nat.zero_add]
    exact hheight
  exact read_eq_ok_iff.2 ⟨position, v.toForm, hending, hkinds, hfits, Value.value_toForm h⟩

theorem read_print_of_lt_height {v : Value} (h : v.IsLiteral)
    (hheight : Reader.maxDepth < v.height) :
    ∃ position, read (v.print .readable) = .error (Reader.tooDeep position) := by
  obtain ⟨hkinds, -⟩ := tokenize_print h
  have hdeep : ¬ v.toForm.FitsAt 0 := by
    rw [Value.fitsAt_toForm_iff h, Nat.zero_add]
    exact Nat.not_le.2 hheight
  exact read_of_not_fitsAt hkinds hdeep

theorem isLiteral_of_read {text : String} {v : Value} (h : read text = .ok v) :
    v.IsLiteral ∧ v.height ≤ Reader.maxDepth := by
  obtain ⟨position, form, -, hkinds, hfits, rfl⟩ := read_eq_ok_iff.1 h
  have hheight := form.height_value_le hfits
  rw [Nat.zero_add] at hheight
  refine ⟨form.isLiteral_value fun name hname => ?_, hheight⟩
  rw [← hkinds] at hname
  obtain ⟨token, htoken, hkind⟩ := List.mem_map.1 hname
  exact TokenStream.isReadable_of_mem_tokens htoken hkind

/-- Reading is the inverse of readable printing. Every literal that is not too high is read back
from its text as the same tree, and a higher one is refused as too deep. What is read from any text
is such a literal, so printing what was read and reading it again changes nothing. -/
theorem read_inverts_print :
    (∀ v : Value, v.IsLiteral →
      (v.height ≤ Reader.maxDepth → read (v.print .readable) = .ok v) ∧
        (Reader.maxDepth < v.height →
          ∃ e, read (v.print .readable) = .error e ∧ e.kind = .tooDeeplyNested)) ∧
      ∀ (text : String) (v : Value), read text = .ok v →
        v.IsLiteral ∧ v.height ≤ Reader.maxDepth ∧ read (v.print .readable) = .ok v ∧
          (read (v.print .readable)).map (Value.print .readable) = .ok (v.print .readable) := by
  constructor
  · intro v hliteral
    refine ⟨read_print_of_height_le hliteral, fun hheight => ?_⟩
    obtain ⟨position, hread⟩ := read_print_of_lt_height hliteral hheight
    exact ⟨Reader.tooDeep position, hread, rfl⟩
  · intro text v hread
    obtain ⟨hliteral, hheight⟩ := isLiteral_of_read hread
    have hagain := read_print_of_height_le hliteral hheight
    refine ⟨hliteral, hheight, hagain, ?_⟩
    rw [hagain]
    rfl

/-- Lists inside one another, around an empty one. -/
def Value.nested : Nat → Value
  | 0 => .list []
  | n + 1 => .list [nested n]

theorem Value.isLiteral_nested (n : Nat) : (nested n).IsLiteral := by
  induction n with
  | zero => exact .list (List.forall_mem_nil _)
  | succ n ih => exact .list (List.forall_mem_singleton.2 ih)

theorem Value.height_nested (n : Nat) : (nested n).height = n + 1 := by
  induction n with
  | zero => rfl
  | succ n ih =>
    simp only [nested, height, heightOfAll, ih]
    omega

/-- A list with a map that has a vector and a list for keys is read back from its text. With one
list more inside one another than the reader accepts, the text is refused. -/
theorem read_inverts_print_nested :
    let v : Value := .list [.symbol ⟨"+"⟩, .number (-7),
      .map [(.vector [.symbol ⟨":k"⟩], .string "a\"b"), (.list [], .number 7)]]
    let deep := Value.nested Reader.maxDepth
    (v.IsLiteral ∧ v.height ≤ Reader.maxDepth ∧ read (v.print .readable) = .ok v ∧
      (read (v.print .readable)).map (Value.print .readable) = .ok (v.print .readable)) ∧
    deep.IsLiteral ∧ Reader.maxDepth < deep.height ∧
      ∃ e, read (deep.print .readable) = .error e ∧ e.kind = .tooDeeplyNested := by
  intro v deep
  have hplus : Value.IsLiteral (.symbol ⟨"+"⟩) := .symbol (by decide)
  have hkey : Value.IsLiteral (.vector [.symbol ⟨":k"⟩]) :=
    .vector (List.forall_mem_singleton.2 (.symbol (by decide)))
  have hmap : Value.IsLiteral
      (.map [(.vector [.symbol ⟨":k"⟩], .string "a\"b"), (.list [], .number 7)]) := by
    apply Value.IsLiteral.map
    · exact List.pairwise_pair.2 rfl
    · simp only [Entries.flatten, List.forall_mem_cons]
      exact ⟨hkey, .string _, .list (List.forall_mem_nil _), .number 7, List.forall_mem_nil _⟩
  have hliteral : v.IsLiteral := by
    apply Value.IsLiteral.list
    simp only [List.forall_mem_cons]
    exact ⟨hplus, .number (-7), hmap, List.forall_mem_nil _⟩
  have hheight : v.height ≤ Reader.maxDepth := by decide
  have hread := (read_inverts_print.1 v hliteral).1 hheight
  have hdeep : deep.IsLiteral := Value.isLiteral_nested Reader.maxDepth
  have hhigh : Reader.maxDepth < deep.height := by
    rw [Value.height_nested]
    omega
  exact ⟨⟨hliteral, hheight, hread, (read_inverts_print.2 _ v hread).2.2.2⟩,
    hdeep, hhigh, (read_inverts_print.1 deep hdeep).2 hhigh⟩

end SmallLisp
