import Mathlib.Logic.Function.Defs
import SmallLisp.Reader

/-!
The grammar of the reader. A form is a tree of tokens, and what the forms spell is what can be read.
No two forms are spelled alike, since the first token of a form says how it goes on and no form
starts with a closing bracket.
-/

namespace SmallLisp

/-- The shorthands in front of a single expression. -/
inductive Mark where
  | quote
  | quasiquote
  | unquote
  | spliceUnquote
  | deref
  deriving DecidableEq, Repr

def Mark.shorthand : Mark → Shorthand
  | quote => .quote
  | quasiquote => .quasiquote
  | unquote => .unquote
  | spliceUnquote => .spliceUnquote
  | deref => .deref

theorem Mark.shorthand_inj {first second : Mark} (h : first.shorthand = second.shorthand) :
    first = second := by
  cases first <;> cases second <;> first | rfl | cases h

theorem Mark.shorthand_ne_withMeta (mark : Mark) : mark.shorthand ≠ .withMeta := by
  cases mark <;> decide

theorem Shorthand.eq_withMeta_or_mark (shorthand : Shorthand) :
    shorthand = .withMeta ∨ ∃ mark : Mark, shorthand = mark.shorthand := by
  cases shorthand with
  | withMeta => exact .inl rfl
  | quote => exact .inr ⟨.quote, rfl⟩
  | quasiquote => exact .inr ⟨.quasiquote, rfl⟩
  | unquote => exact .inr ⟨.unquote, rfl⟩
  | spliceUnquote => exact .inr ⟨.spliceUnquote, rfl⟩
  | deref => exact .inr ⟨.deref, rfl⟩

inductive Form where
  | number (n : Int64)
  | string (text : String)
  | symbol (name : String)
  | marked (mark : Mark) (operand : Form)
  | withMeta (first second : Form)
  | collection (delimiter : Delimiter) (items : List Form)

namespace Form

mutual

/-- The tokens that spell a form. -/
def tokens : Form → List Token.Kind
  | .number n => [.number n]
  | .string text => [.string text]
  | .symbol name => [.symbol name]
  | .marked mark operand => .shorthand mark.shorthand :: operand.tokens
  | .withMeta first second => .shorthand .withMeta :: (first.tokens ++ second.tokens)
  | .collection delimiter items => .opening delimiter :: (tokensOfAll items ++ [.closing delimiter])

def tokensOfAll : List Form → List Token.Kind
  | [] => []
  | item :: items => item.tokens ++ tokensOfAll items

end

mutual

/-- The value that a form denotes. -/
def value : Form → Value
  | .number n => .number n
  | .string text => .string text
  | .symbol name => .symbol ⟨name⟩
  | .marked mark operand => .list [.symbol ⟨mark.shorthand.head⟩, operand.value]
  | .withMeta first second =>
    .list [.symbol ⟨Shorthand.withMeta.head⟩, second.value, first.value]
  | .collection .parenthesis items => .list (valuesOfAll items)
  | .collection .bracket items => .vector (valuesOfAll items)
  | .collection .brace items => .mapOfItems (valuesOfAll items)

def valuesOfAll : List Form → List Value
  | [] => []
  | item :: items => item.value :: valuesOfAll items

end

mutual

/-- A form that stands at a depth, its parts one deeper, fits when no part is deeper than the reader
accepts. -/
def FitsAt (depth : Nat) : Form → Prop
  | .number _ | .string _ | .symbol _ => depth < Reader.maxDepth
  | .marked _ operand => depth < Reader.maxDepth ∧ operand.FitsAt (depth + 1)
  | .withMeta first second =>
    depth < Reader.maxDepth ∧ first.FitsAt (depth + 1) ∧ second.FitsAt (depth + 1)
  | .collection _ items => depth < Reader.maxDepth ∧ AllFitAt (depth + 1) items

def AllFitAt (depth : Nat) : List Form → Prop
  | [] => True
  | item :: items => item.FitsAt depth ∧ AllFitAt depth items

end

theorem lt_of_fitsAt {form : Form} {depth : Nat} (h : form.FitsAt depth) :
    depth < Reader.maxDepth := by
  cases form with
  | number | string | symbol => exact h
  | marked | withMeta | collection => exact h.1

theorem tokensOfAll_append (first second : List Form) :
    tokensOfAll (first ++ second) = tokensOfAll first ++ tokensOfAll second := by
  induction first with
  | nil => rfl
  | cons item items ih => rw [List.cons_append, tokensOfAll, tokensOfAll, ih, List.append_assoc]

theorem valuesOfAll_eq_map (items : List Form) : valuesOfAll items = items.map value := by
  induction items with
  | nil => rfl
  | cons item items ih => rw [valuesOfAll, ih, List.map_cons]

theorem allFitAt_append {depth : Nat} {first second : List Form} :
    AllFitAt depth (first ++ second) ↔ AllFitAt depth first ∧ AllFitAt depth second := by
  induction first with
  | nil => simp [AllFitAt]
  | cons item items ih => simp [AllFitAt, ih, and_assoc]

/-- A form starts with a token that closes nothing. -/
theorem exists_tokens_eq_cons (form : Form) :
    ∃ kind rest, form.tokens = kind :: rest ∧ ∀ delimiter, kind ≠ .closing delimiter := by
  cases form <;> exact ⟨_, _, rfl, fun _ h => nomatch h⟩

mutual

/-- No two forms are spelled alike, whatever follows them. -/
theorem eq_of_tokens_append (first second : Form) {rest rest' : List Token.Kind}
    (h : first.tokens ++ rest = second.tokens ++ rest') : first = second ∧ rest = rest' := by
  cases first with
  | number n => cases second <;> simp_all [tokens]
  | string text => cases second <;> simp_all [tokens]
  | symbol name => cases second <;> simp_all [tokens]
  | marked mark operand =>
    cases second with
    | marked mark' operand' =>
      simp only [tokens, List.cons_append, List.cons.injEq, Token.Kind.shorthand.injEq] at h
      obtain ⟨hmark, hoperand⟩ := h
      obtain ⟨rfl, rfl⟩ := eq_of_tokens_append operand operand' hoperand
      exact ⟨by rw [Mark.shorthand_inj hmark], rfl⟩
    | withMeta =>
      simp only [tokens, List.cons_append, List.cons.injEq, Token.Kind.shorthand.injEq] at h
      exact absurd h.1 mark.shorthand_ne_withMeta
    | _ => simp [tokens] at h
  | withMeta operand operand₂ =>
    cases second with
    | marked mark' operand' =>
      simp only [tokens, List.cons_append, List.cons.injEq, Token.Kind.shorthand.injEq] at h
      exact absurd h.1.symm mark'.shorthand_ne_withMeta
    | withMeta operand' operand₂' =>
      simp only [tokens, List.cons_append, List.cons.injEq, List.append_assoc, true_and] at h
      obtain ⟨rfl, hsecond⟩ := eq_of_tokens_append operand operand' h
      obtain ⟨rfl, rfl⟩ := eq_of_tokens_append operand₂ operand₂' hsecond
      exact ⟨rfl, rfl⟩
    | _ => simp [tokens] at h
  | collection delimiter items =>
    cases second with
    | collection delimiter' items' =>
      simp only [tokens, List.cons_append, List.cons.injEq, List.append_assoc,
        List.nil_append, Token.Kind.opening.injEq] at h
      obtain ⟨rfl, hitems⟩ := h
      obtain ⟨rfl, -, rfl⟩ := eq_of_tokensOfAll_append items items' hitems
      exact ⟨rfl, rfl⟩
    | _ => simp [tokens] at h

theorem eq_of_tokensOfAll_append (first second : List Form) {delimiter delimiter' : Delimiter}
    {rest rest' : List Token.Kind}
    (h : tokensOfAll first ++ .closing delimiter :: rest =
      tokensOfAll second ++ .closing delimiter' :: rest') :
    first = second ∧ delimiter = delimiter' ∧ rest = rest' := by
  match first, second with
  | [], [] => simpa [tokensOfAll] using h
  | [], item :: items =>
    obtain ⟨kind, later, htokens, hkind⟩ := item.exists_tokens_eq_cons
    simp only [tokensOfAll, htokens, List.nil_append, List.cons_append, List.cons.injEq] at h
    exact absurd h.1.symm (hkind delimiter)
  | item :: items, [] =>
    obtain ⟨kind, later, htokens, hkind⟩ := item.exists_tokens_eq_cons
    simp only [tokensOfAll, htokens, List.nil_append, List.cons_append, List.cons.injEq] at h
    exact absurd h.1 (hkind delimiter')
  | item :: items, item' :: items' =>
    simp only [tokensOfAll, List.append_assoc] at h
    obtain ⟨rfl, hitems⟩ := eq_of_tokens_append item item' h
    obtain ⟨rfl, hrest⟩ := eq_of_tokensOfAll_append items items' hitems
    exact ⟨rfl, hrest⟩

end

theorem tokens_injective : Function.Injective tokens := by
  intro first second h
  have hsame : first.tokens ++ [] = second.tokens ++ [] := by rw [h]
  exact (eq_of_tokens_append first second hsame).1

end Form

end SmallLisp
