import Mathlib.Algebra.Group.Nat.Even
import Mathlib.Data.List.DropRight
import Mathlib.Data.Nat.Find
import SmallLisp.Token.Lexeme

/-!
Where a string literal ends and what it holds. The scan takes each backslash together with the
character behind it, and does not count them. Counted in the text alone, the literal ends at the
first quote behind an even number of backslashes: the number of backslashes that stand in a row
before a place is even just when none of them waits there for the character it takes.
-/

namespace SmallLisp

namespace StringLiteral

/-- What may stand between the quotes of a literal: quotes and backslashes only where a backslash
takes them. -/
inductive IsBody : List Char → Prop
  | nil : IsBody []
  | plain {c : Char} {body : List Char} (hquote : c ≠ '"') (hbackslash : c ≠ '\\')
      (h : IsBody body) : IsBody (c :: body)
  | escape (c : Char) {body : List Char} (h : IsBody body) : IsBody ('\\' :: c :: body)

theorem isBody_of_splitAtClose? {text body after : List Char}
    (h : splitAtClose? text = some (body, after)) : IsBody body := by
  fun_induction splitAtClose? text generalizing body with
  | case1 => cases h
  | case2 =>
    cases h
    exact .nil
  | case3 c rest ih =>
    obtain ⟨⟨inner, after⟩, hfound, hsplit⟩ := Option.map_eq_some_iff.1 h
    cases hsplit
    exact .escape c (ih hfound)
  | case4 c rest hquote hbackslash ih =>
    obtain ⟨⟨inner, after⟩, hfound, hsplit⟩ := Option.map_eq_some_iff.1 h
    cases hsplit
    refine .plain hquote ?_ (ih hfound)
    rintro rfl
    -- nothing is left behind a lone backslash, so no quote is found there
    cases rest with
    | nil => cases hfound
    | cons d rest => exact hbackslash d rest rfl rfl

theorem splitAtClose?_of_isBody {body : List Char} (h : IsBody body) (after : List Char) :
    splitAtClose? (body ++ '"' :: after) = some (body, after) := by
  induction h with
  | nil => rfl
  | plain hquote hbackslash h ih =>
    rw [List.cons_append, splitAtClose?, ih]
    · rfl
    · exact hquote
    · exact fun d rest hsame => absurd hsame hbackslash
  | escape c h ih => simp [splitAtClose?, ih]

theorem splitAtClose?_eq_some_iff {text body after : List Char} :
    splitAtClose? text = some (body, after) ↔ IsBody body ∧ text = body ++ '"' :: after := by
  constructor
  · intro h
    exact ⟨isBody_of_splitAtClose? h, (append_of_splitAtClose? h).symm⟩
  · rintro ⟨hbody, rfl⟩
    exact splitAtClose?_of_isBody hbody after

/-- The text behind an opening quote holds no closing one. -/
def IsUnclosed (text : List Char) : Prop :=
  ∀ body after, IsBody body → text ≠ body ++ '"' :: after

theorem splitAtClose?_eq_none_iff {text : List Char} :
    splitAtClose? text = none ↔ IsUnclosed text := by
  rw [Option.eq_none_iff_forall_ne_some, Prod.forall]
  simp only [ne_eq, splitAtClose?_eq_some_iff, not_and, IsUnclosed]

/-- The length of the longest run of backslashes at the end of a text. -/
def backslashesAtEnd (text : List Char) : Nat :=
  (text.rtakeWhile (· = '\\')).length

@[simp]
theorem backslashesAtEnd_concat_backslash (text : List Char) :
    backslashesAtEnd (text ++ ['\\']) = backslashesAtEnd text + 1 := by
  simp [backslashesAtEnd]

theorem backslashesAtEnd_le (text : List Char) : backslashesAtEnd text ≤ text.length :=
  (List.rtakeWhile_suffix _ text).length_le

/-- A backslash in front counts only if nothing but backslashes follows it. -/
theorem backslashesAtEnd_cons (c : Char) (text : List Char) :
    backslashesAtEnd (c :: text) =
      if c = '\\' ∧ backslashesAtEnd text = text.length then backslashesAtEnd text + 1
      else backslashesAtEnd text := by
  simp only [backslashesAtEnd, List.rtakeWhile, List.length_reverse, List.reverse_cons,
    List.takeWhile_append]
  by_cases hall : (text.reverse.takeWhile (· = '\\')).length = text.length <;>
    by_cases hc : c = '\\' <;> simp [hall, hc]

theorem backslashesAtEnd_cons_of_ne {c : Char} (hc : c ≠ '\\') (text : List Char) :
    backslashesAtEnd (c :: text) = backslashesAtEnd text := by
  rw [backslashesAtEnd_cons, if_neg fun hall => hc hall.1]

/-- A backslash in front and the character it takes do not change whether the number is even. -/
theorem even_backslashesAtEnd_pair (c : Char) (text : List Char) :
    Even (backslashesAtEnd ('\\' :: c :: text)) ↔ Even (backslashesAtEnd text) := by
  have hle := backslashesAtEnd_le text
  have hpair : backslashesAtEnd ('\\' :: c :: text) = backslashesAtEnd text ∨
      backslashesAtEnd ('\\' :: c :: text) = backslashesAtEnd text + 1 + 1 := by
    simp only [backslashesAtEnd_cons, List.length_cons]
    grind
  rcases hpair with hsame | hmore
  · rw [hsame]
  · rw [hmore, Nat.even_add_one, Nat.even_add_one, not_not]

/-- A quote between two parts of a text, with an even number of backslashes right before it. -/
structure FreeQuote (text before after : List Char) : Prop where
  split : text = before ++ '"' :: after
  even : Even (backslashesAtEnd before)

/-- The free quote of a text that has no other on its left. -/
structure FirstFreeQuote (text before after : List Char) : Prop
    extends FreeQuote text before after where
  first {before' after' : List Char} (h : FreeQuote text before' after') :
    before.length ≤ before'.length

theorem FreeQuote.append {text before after : List Char} (h : FreeQuote text before after)
    (more : List Char) : FreeQuote (text ++ more) before (after ++ more) :=
  ⟨by simp [h.split], h.even⟩

theorem exists_firstFreeQuote {text : List Char} (h : ∃ before after, FreeQuote text before after) :
    ∃ before after, FirstFreeQuote text before after := by
  classical
  have hlength : ∃ n before after, FreeQuote text before after ∧ before.length = n := by
    obtain ⟨before, after, hquote⟩ := h
    exact ⟨_, before, after, hquote, rfl⟩
  obtain ⟨before, after, hquote, hleast⟩ := Nat.find_spec hlength
  refine ⟨before, after, hquote, fun hquote' => ?_⟩
  rw [hleast]
  exact Nat.find_min' hlength ⟨_, _, hquote', rfl⟩

theorem IsBody.append {body body' : List Char} (h : IsBody body) (h' : IsBody body') :
    IsBody (body ++ body') := by
  induction h with
  | nil => exact h'
  | plain hquote hbackslash h ih => exact .plain hquote hbackslash ih
  | escape c h ih => exact .escape c ih

theorem IsBody.even {body : List Char} (h : IsBody body) : Even (backslashesAtEnd body) := by
  induction h with
  | nil => exact Even.zero
  | plain hquote hbackslash h ih => rwa [backslashesAtEnd_cons_of_ne hbackslash]
  | escape c h ih => exact (even_backslashesAtEnd_pair ..).2 ih

theorem IsBody.not_freeQuote {body : List Char} (h : IsBody body) (before after : List Char) :
    ¬FreeQuote body before after := by
  rintro ⟨hsplit, heven⟩
  induction h generalizing before with
  | nil => simp at hsplit
  | plain hquote hbackslash h ih =>
    match before with
    | [] => exact hquote (List.cons.inj hsplit).1
    | d :: before =>
      obtain ⟨rfl, hrest⟩ := List.cons.inj hsplit
      rw [backslashesAtEnd_cons_of_ne hbackslash] at heven
      exact ih before hrest heven
  | escape c h ih =>
    match before with
    | [] => simp at hsplit
    | [d] =>
      -- the quote is the character that the backslash takes
      obtain ⟨rfl, -⟩ := List.cons.inj hsplit
      exact absurd heven (by decide)
    | d :: e :: before =>
      obtain ⟨rfl, htaken⟩ := List.cons.inj hsplit
      obtain ⟨rfl, hrest⟩ := List.cons.inj htaken
      exact ih before hrest ((even_backslashesAtEnd_pair ..).1 heven)

/-- The scan of a text up to its first free quote. Behind an even number of backslashes no backslash
waits and the text so far is a body; behind an odd number the last one waits behind a body. -/
theorem isBody_or_waits {text : List Char} (h : ∀ before after, ¬FreeQuote text before after) :
    (Even (backslashesAtEnd text) ∧ IsBody text) ∨
      (¬Even (backslashesAtEnd text) ∧ ∃ body, IsBody body ∧ text = body ++ ['\\']) := by
  induction text using List.reverseRecOn with
  | nil => exact .inl ⟨IsBody.nil.even, .nil⟩
  | append_singleton text c ih =>
    have hfront : ∀ before after, ¬FreeQuote text before after :=
      fun before after hquote => h _ _ (hquote.append [c])
    rcases ih hfront with ⟨heven, hbody⟩ | ⟨-, body, hbody, rfl⟩
    · by_cases hbackslash : c = '\\'
      · subst hbackslash
        refine .inr ⟨?_, text, hbody, rfl⟩
        rwa [backslashesAtEnd_concat_backslash, Nat.even_add_one, not_not]
      · have hquote : c ≠ '"' := by
          rintro rfl
          exact h text [] ⟨rfl, heven⟩
        have hmore : IsBody (text ++ [c]) := hbody.append (.plain hquote hbackslash .nil)
        exact .inl ⟨hmore.even, hmore⟩
    · have hmore : IsBody (body ++ ['\\'] ++ [c]) := by
        rw [List.append_assoc]
        exact hbody.append (.escape c .nil)
      exact .inl ⟨hmore.even, hmore⟩

theorem isBody_iff {body : List Char} :
    IsBody body ↔
      Even (backslashesAtEnd body) ∧ ∀ before after, ¬FreeQuote body before after := by
  constructor
  · intro h
    exact ⟨h.even, h.not_freeQuote⟩
  · rintro ⟨heven, hnone⟩
    rcases isBody_or_waits hnone with ⟨-, hbody⟩ | ⟨hodd, -⟩
    · exact hbody
    · exact absurd heven hodd

theorem firstFreeQuote_iff {text before after : List Char} :
    FirstFreeQuote text before after ↔ IsBody before ∧ text = before ++ '"' :: after := by
  constructor
  · intro h
    refine ⟨isBody_iff.2 ⟨h.even, fun before' after' hquote => ?_⟩, h.split⟩
    have hearlier := h.first (h.split ▸ hquote.append ('"' :: after))
    have hlength := congrArg List.length hquote.split
    simp only [List.length_append, List.length_cons] at hlength
    omega
  · rintro ⟨hbody, hsplit⟩
    refine ⟨⟨hsplit, hbody.even⟩, fun {before' after'} hquote => ?_⟩
    rcases List.append_eq_append_iff.1 (hsplit.symm.trans hquote.split) with
      ⟨between, rfl, -⟩ | ⟨between, hbefore, hafter⟩
    · simp
    · cases between with
      | nil => simp [hbefore]
      | cons c between =>
        -- the quote would stand inside of the body
        obtain ⟨rfl, -⟩ := List.cons.inj hafter
        exact absurd ⟨hbefore, hquote.even⟩ (hbody.not_freeQuote before' between)

theorem isUnclosed_iff {text : List Char} :
    IsUnclosed text ↔ ¬∃ before after, FreeQuote text before after := by
  constructor
  · intro h hsome
    obtain ⟨before, after, hfirst⟩ := exists_firstFreeQuote hsome
    obtain ⟨hbody, hsplit⟩ := firstFreeQuote_iff.1 hfirst
    exact h before after hbody hsplit
  · intro hnone before after hbody hsplit
    exact hnone ⟨before, after, hsplit, hbody.even⟩

/-- The text between the quotes of a literal, and the contents it stands for. It is read from the
left, each backslash with the character behind it, and only three such pairs stand for something
else than themselves. -/
inductive Denotes : List Char → List Char → Prop
  | nil : Denotes [] []
  | plain {c : Char} {body contents : List Char} (hc : c ≠ '\\') (h : Denotes body contents) :
      Denotes (c :: body) (c :: contents)
  | backslash {body contents : List Char} (h : Denotes body contents) :
      Denotes ('\\' :: '\\' :: body) ('\\' :: contents)
  | quote {body contents : List Char} (h : Denotes body contents) :
      Denotes ('\\' :: '"' :: body) ('"' :: contents)
  | newline {body contents : List Char} (h : Denotes body contents) :
      Denotes ('\\' :: 'n' :: body) ('\n' :: contents)
  | pair {c : Char} {body contents : List Char} (hc : c ∉ ['\\', '"', 'n'])
      (h : Denotes body contents) : Denotes ('\\' :: c :: body) ('\\' :: c :: contents)

theorem decode_cons_of_ne {c : Char} (hc : c ≠ '\\') (rest : List Char) :
    decode (c :: rest) = c :: decode rest := by
  rw [decode]
  exact fun _ _ hsame => absurd hsame hc

theorem Denotes.decode_eq {body contents : List Char} (h : Denotes body contents) :
    decode body = contents := by
  induction h with
  | nil => rfl
  | plain hc h ih => rw [decode_cons_of_ne hc, ih]
  | backslash h ih => simp [decode, escaped, ih]
  | quote h ih => simp [decode, escaped, ih]
  | newline h ih => simp [decode, escaped, ih]
  | @pair c body contents hc h ih =>
    have hescaped : escaped c = ['\\', c] := by
      unfold escaped
      split <;> simp_all
    simp [decode, hescaped, ih]

theorem IsBody.denotes {body : List Char} (h : IsBody body) : Denotes body (decode body) := by
  induction h with
  | nil => exact .nil
  | plain hquote hbackslash h ih =>
    rw [decode_cons_of_ne hbackslash]
    exact .plain hbackslash ih
  | escape c h ih =>
    rw [decode]
    unfold escaped
    split
    · exact .newline ih
    · exact .backslash ih
    · exact .quote ih
    · next hnewline hbackslash hquote => exact .pair (by simp_all) ih

end StringLiteral

namespace Lexeme

open StringLiteral

theorem ofString_eq_ok_iff {text : List Char} {lexeme : Lexeme} :
    ofString text = .ok lexeme ↔
      ∃ body after, IsBody body ∧ text = body ++ '"' :: after ∧
        lexeme = ⟨.string (String.ofList (decode body)), '"' :: body ++ ['"'], after⟩ := by
  constructor
  · intro h
    unfold ofString at h
    split at h
    · cases h
    · next body after hclose =>
      cases h
      obtain ⟨hbody, hsplit⟩ := splitAtClose?_eq_some_iff.1 hclose
      exact ⟨body, after, hbody, hsplit, rfl⟩
  · rintro ⟨body, after, hbody, rfl, rfl⟩
    rw [ofString, splitAtClose?_of_isBody hbody]

theorem ofString_eq_error_iff {text : List Char} {flaw : Flaw} :
    ofString text = .error flaw ↔ flaw = .unterminatedString ∧ IsUnclosed text := by
  rw [← splitAtClose?_eq_none_iff]
  cases hclose : splitAtClose? text <;> simp [ofString, hclose, eq_comm]

/-- Behind an opening quote, a string literal goes on to the first quote with an even number of
backslashes right before it. Its contents are what the text up to there stands for, and the text
behind that quote is left. Without such a quote the literal is unterminated, whatever the text
ends in. -/
theorem literal_ends_at_first_free_quote (text : List Char) :
    ((∃ lexeme, ofString text = .ok lexeme) ↔ ∃ before after, FreeQuote text before after) ∧
    (∀ lexeme, ofString text = .ok lexeme ↔
      ∃ before contents after, FirstFreeQuote text before after ∧ Denotes before contents ∧
        lexeme = ⟨.string (String.ofList contents), '"' :: before ++ ['"'], after⟩) ∧
    (ofString text = .error .unterminatedString ↔
      ¬∃ before after, FreeQuote text before after) := by
  refine ⟨⟨?_, ?_⟩, fun lexeme => ⟨?_, ?_⟩, ?_⟩
  · rintro ⟨lexeme, hlexeme⟩
    obtain ⟨body, after, hbody, hsplit, -⟩ := ofString_eq_ok_iff.1 hlexeme
    exact ⟨body, after, hsplit, hbody.even⟩
  · intro hsome
    obtain ⟨before, after, hfirst⟩ := exists_firstFreeQuote hsome
    obtain ⟨hbody, hsplit⟩ := firstFreeQuote_iff.1 hfirst
    exact ⟨_, ofString_eq_ok_iff.2 ⟨before, after, hbody, hsplit, rfl⟩⟩
  · intro hlexeme
    obtain ⟨body, after, hbody, hsplit, hsame⟩ := ofString_eq_ok_iff.1 hlexeme
    exact ⟨body, _, after, firstFreeQuote_iff.2 ⟨hbody, hsplit⟩, hbody.denotes, hsame⟩
  · rintro ⟨before, contents, after, hfirst, hdenotes, hsame⟩
    obtain ⟨hbody, hsplit⟩ := firstFreeQuote_iff.1 hfirst
    rw [← hdenotes.decode_eq] at hsame
    exact ofString_eq_ok_iff.2 ⟨before, after, hbody, hsplit, hsame⟩
  · rw [ofString_eq_error_iff, isUnclosed_iff]
    exact and_iff_right rfl

/-- The last of three backslashes takes the quote, and the one at the end of the text finds nothing
to take. -/
example : ofString ['\\', '\\', '\\', '"', '\\'] = .error .unterminatedString := rfl

end Lexeme

end SmallLisp
