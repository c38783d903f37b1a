import SmallLisp.Proofs.Reader.RoundTrip
import SmallLisp.Proofs.Value.Rename

/-!
The values that come out of evaluation. Syntax stays in the bodies of closures: outside them every
symbol stands for itself, and a map has every key once.
-/

namespace SmallLisp

/-- The name is one token of its own. -/
def Symbol.IsToken (symbol : Symbol) : Prop :=
  (tokenize symbol.name).kinds = [.symbol symbol.name] ∧
    ∃ position, (tokenize symbol.name).ending = .ok position

theorem Symbol.isToken_iff_isReadable {symbol : Symbol} : symbol.IsToken ↔ symbol.IsReadable := by
  constructor
  · rintro ⟨hkinds, -⟩
    have hmem : Token.Kind.symbol symbol.name ∈ (tokenize symbol.name).kinds := by
      rw [hkinds]
      exact List.mem_singleton.2 rfl
    obtain ⟨token, htoken, hkind⟩ := List.mem_map.1 hmem
    exact TokenStream.isReadable_of_mem_tokens htoken hkind
  · intro hreadable
    exact tokenize_print (.symbol hreadable)

theorem Entries.flatten_map {κ ν : Type} (f : κ → ν) (entries : List (κ × κ)) :
    flatten (entries.map (Prod.map f f)) = (flatten entries).map f := by
  induction entries with
  | nil => rfl
  | cons entry entries ih => rw [List.map_cons, flatten, flatten, ih]; rfl

namespace Parameters

theorem symbols_eq_ok_iff {items : List Value} {names : List Symbol} :
    symbols items = .ok names ↔ items = names.map .symbol := by
  induction items generalizing names with
  | nil => cases names <;> simp [symbols]
  | cons item rest ih =>
    cases item with
    | symbol symbol =>
      rw [symbols]
      cases names with
      | nil => cases symbols rest <;> simp [Except.map]
      | cons name names =>
        have htail : symbols rest = .ok names ↔ rest = names.map .symbol := ih
        cases hrest : symbols rest <;> simp_all [Except.map]
    | _ => cases names <;> simp [symbols]

theorem names_of_ofSymbols {symbols : List Symbol} {parameters : Parameters}
    (h : ofSymbols symbols = .ok parameters) :
    ∀ name ∈ parameters.fixed ++ parameters.rest.toList, name ∈ symbols ∧ name ≠ .ampersand := by
  have hfixed : ∀ name ∈ symbols.takeWhile (· ≠ .ampersand),
      name ∈ symbols ∧ name ≠ .ampersand := by
    intro name hname
    exact ⟨(List.takeWhile_sublist _).mem hname, by simpa using List.mem_takeWhile_imp hname⟩
  rw [ofSymbols] at h
  split at h
  · cases h
    simpa using hfixed
  · next ampersand rest hbehind =>
    have hmem : rest ∈ symbols := by
      apply (List.dropWhile_sublist (· ≠ .ampersand)).mem
      rw [hbehind]
      exact List.mem_cons_of_mem _ List.mem_cons_self
    split at h
    · next hrest =>
      cases h
      simp only [Option.toList_some, List.mem_append, List.mem_singleton]
      rintro name (hname | rfl)
      · exact hfixed name hname
      · exact ⟨hmem, hrest⟩
    · cases h
  · cases h

/-- The names of a parameter list stand in it as symbols, and none of them is the ampersand. -/
theorem names_of_ofItems {items : List Value} {parameters : Parameters}
    (h : ofItems items = .ok parameters) :
    ∀ name ∈ parameters.fixed ++ parameters.rest.toList,
      .symbol name ∈ items ∧ name ≠ .ampersand := by
  cases hsymbols : symbols items with
  | error e => simp [ofItems, hsymbols, bind, Except.bind] at h
  | ok names =>
    have hparameters : ofSymbols names = .ok parameters := by
      rw [← h, ofItems, hsymbols]
      rfl
    have hnames := names_of_ofSymbols hparameters
    intro name hname
    rw [symbols_eq_ok_iff.1 hsymbols]
    exact ⟨List.mem_map_of_mem (hnames name hname).1, (hnames name hname).2⟩

end Parameters

namespace Value

open Entries (flatten DistinctKeys)

/-- Values as evaluation leaves them. -/
inductive IsSettled : Value → Prop where
  | number (n : Int64) : IsSettled (.number n)
  | string (text : String) : IsSettled (.string text)
  | builtin (operation : Builtin) : IsSettled (.builtin operation)
  | symbol {symbol : Symbol} (hconstant : symbol.isConstant) (hname : symbol.IsToken) :
      IsSettled (.symbol symbol)
  | list {items : List Value} (hitems : ∀ item ∈ items, IsSettled item) : IsSettled (.list items)
  | vector {items : List Value} (hitems : ∀ item ∈ items, IsSettled item) :
      IsSettled (.vector items)
  | map {entries : List (Value × Value)} (hdistinct : DistinctKeys entries)
      (hparts : ∀ part ∈ flatten entries, IsSettled part) : IsSettled (.map entries)
  | closure {parameters : Parameters} {body : List Value}
      (hnames : ∀ name ∈ parameters.fixed ++ parameters.rest.toList,
        name.IsToken ∧ name ≠ .ampersand)
      (hbody : ∀ part ∈ body, IsLiteral part) (identity : Nat) (scope : FrameId) :
      IsSettled (.closure identity parameters body scope)

theorem isSettled_ofBool (b : Bool) : IsSettled (.ofBool b) := by
  cases b
  · exact .symbol rfl (Symbol.isToken_iff_isReadable.2 (by decide))
  · exact .symbol rfl (Symbol.isToken_iff_isReadable.2 (by decide))

theorem isSettled_nil : IsSettled .nil :=
  .symbol rfl (Symbol.isToken_iff_isReadable.2 (by decide))

theorem isSettled_map_insertAll {entries : List (Value × Value)}
    (h : ∀ entry ∈ entries, entry.1.IsSettled ∧ entry.2.IsSettled) :
    IsSettled (.map (Entries.insertAll entries [])) := by
  have hentries :=
    Entries.forall_insertAll (P := IsSettled) (Q := IsSettled) h (List.forall_mem_nil _)
  exact .map (Entries.distinctKeys_insertAll entries) (Entries.forall_mem_flatten.2 hentries)

/-- A renaming does not show in the text of a settled value: it leaves the constants alone, and no
other symbol is printed. -/
theorem print_rename {value : Value} (h : value.IsSettled) (ρ : Renaming) (mode : PrintMode) :
    (value.rename ρ).print mode = value.print mode := by
  have hall : ∀ items : List Value, (∀ item ∈ items, (item.rename ρ).print mode = item.print mode) →
      (items.map (rename ρ)).map (print mode) = items.map (print mode) := by
    intro items hitems
    rw [List.map_map]
    exact List.map_congr_left hitems
  induction h with
  | number | string | builtin | closure => rfl
  | symbol hconstant hname => rw [rename, ρ.constant _ hconstant]
  | list hitems ih => simp only [rename, print, printItems_eq_map, renameAll_eq_map, hall _ ih]
  | vector hitems ih => simp only [rename, print, printItems_eq_map, renameAll_eq_map, hall _ ih]
  | @map entries hdistinct hparts ih =>
    simp only [rename, print, printEntries_eq, printItems_eq_map, renameEntries_eq_map,
      Entries.flatten_map, hall _ ih]

mutual

/-- Whether a value holds neither a closure nor a builtin. -/
def isData : Value → Bool
  | .list items | .vector items => allData items
  | .map entries => allEntriesData entries
  | .closure .. | .builtin _ => false
  | _ => true

def allData : List Value → Bool
  | [] => true
  | item :: items => item.isData && allData items

def allEntriesData : List (Value × Value) → Bool
  | [] => true
  | (key, value) :: entries => key.isData && value.isData && allEntriesData entries

end

theorem allData_iff {items : List Value} : allData items ↔ ∀ item ∈ items, item.isData := by
  induction items with
  | nil => simp [allData]
  | cons item items ih => simp [allData, ih]

theorem allEntriesData_eq (entries : List (Value × Value)) :
    allEntriesData entries = allData (flatten entries) := by
  induction entries with
  | nil => rfl
  | cons entry entries ih => rw [allEntriesData, ih, flatten, allData, allData, Bool.and_assoc]

theorem IsSettled.isLiteral {value : Value} (h : value.IsSettled) (hdata : value.isData) :
    value.IsLiteral := by
  induction h with
  | number n => exact .number n
  | string text => exact .string text
  | builtin | closure => cases hdata
  | symbol hconstant hname => exact .symbol (Symbol.isToken_iff_isReadable.1 hname)
  | list hitems ih =>
    rw [isData, allData_iff] at hdata
    exact .list fun item hitem => ih item hitem (hdata item hitem)
  | vector hitems ih =>
    rw [isData, allData_iff] at hdata
    exact .vector fun item hitem => ih item hitem (hdata item hitem)
  | map hdistinct hparts ih =>
    rw [isData, allEntriesData_eq, allData_iff] at hdata
    exact .map hdistinct fun part hpart => ih part hpart (hdata part hpart)

theorem newline_not_mem_intercalate {texts : List String}
    (h : ∀ text ∈ texts, '\n' ∉ text.toList) : '\n' ∉ (" ".intercalate texts).toList := by
  induction texts with
  | nil => simp
  | cons text rest ih =>
    rw [List.forall_mem_cons] at h
    cases rest with
    | nil => simpa using h.1
    | cons next rest =>
      have hrest := ih h.2
      simp only [String.intercalate_cons_cons, String.toList_append, List.mem_append, not_or]
      exact ⟨⟨h.1, by decide⟩, hrest⟩

theorem newline_not_mem_encode (contents : List Char) :
    '\n' ∉ StringLiteral.encode contents := by
  rw [StringLiteral.encode, List.mem_flatMap]
  rintro ⟨c, -, hnewline⟩
  unfold StringLiteral.encodeChar at hnewline
  split at hnewline
  case h_4 hother _ _ => exact hother (List.mem_singleton.1 hnewline).symm
  all_goals exact absurd hnewline (by decide)

theorem newline_not_mem_print {value : Value} (h : value.IsSettled) :
    '\n' ∉ (value.print .readable).toList := by
  have hrun : ∀ run : List Char, Lexeme.IsRun run → '\n' ∉ run := by
    intro run hrun hnewline
    have hunbroken := hrun.unbroken '\n' hnewline
    exact absurd hunbroken (by decide)
  have hbracketed : ∀ (first last : String) (items : List Value),
      '\n' ∉ first.toList → '\n' ∉ last.toList →
      (∀ item ∈ items, '\n' ∉ (item.print .readable).toList) →
      '\n' ∉ (first ++ " ".intercalate (items.map (print .readable)) ++ last).toList := by
    intro first last items hfirst hlast hitems
    have hinner : '\n' ∉ (" ".intercalate (items.map (print .readable))).toList := by
      apply newline_not_mem_intercalate
      intro text htext
      obtain ⟨item, hitem, rfl⟩ := List.mem_map.1 htext
      exact hitems item hitem
    simp only [String.toList_append, List.mem_append, not_or]
    exact ⟨⟨hfirst, hinner⟩, hlast⟩
  induction h with
  | number n => exact hrun _ (Lexeme.isRun_of_isNumeral (Number.isNumeral_repr n.toInt))
  | string text => simp [print, StringLiteral.write, newline_not_mem_encode]
  | builtin operation => cases operation <;> decide
  | symbol hconstant hname => exact hrun _ (Symbol.isToken_iff_isReadable.1 hname).isRun
  | list hitems ih =>
    rw [print, printItems_eq_map]
    exact hbracketed _ _ _ (by decide) (by decide) ih
  | vector hitems ih =>
    rw [print, printItems_eq_map]
    exact hbracketed _ _ _ (by decide) (by decide) ih
  | map hdistinct hparts ih =>
    rw [print, printEntries_eq, printItems_eq_map]
    exact hbracketed _ _ _ (by decide) (by decide) ih
  | closure =>
    rw [print]
    decide

end Value

end SmallLisp
