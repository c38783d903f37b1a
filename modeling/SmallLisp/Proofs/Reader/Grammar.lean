import Mathlib.Tactic.ByContra
import SmallLisp.Proofs.Reader.Form
import SmallLisp.Proofs.Token.Yields

/-!
The reader accepts its grammar. Over the tokens of a form that fits, the reader goes from awaiting
an expression to having the form's value. The other way around, its state always tells which forms
and parts of forms the tokens so far have spelled.
-/

namespace SmallLisp

namespace Reader

open Form

theorem foldlM_cons_of_ok {state state' : State} {token : Token} {tokens : List Token}
    (h : next state token = .ok state') :
    (token :: tokens).foldlM next state = tokens.foldlM next state' := by
  rw [List.foldlM_cons, h]
  rfl

theorem foldlM_append_of_ok {state state' : State} {first later : List Token}
    (h : first.foldlM next state = .ok state') :
    (first ++ later).foldlM next state = later.foldlM next state' := by
  rw [List.foldlM_append, h]
  rfl

theorem foldlM_cons_of_error {state : State} {token : Token} {tokens : List Token} {e : ReadError}
    (h : next state token = .error e) : (token :: tokens).foldlM next state = .error e := by
  rw [List.foldlM_cons, h]
  rfl

theorem foldlM_append_of_error {state : State} {first later : List Token} {e : ReadError}
    (h : first.foldlM next state = .error e) : (first ++ later).foldlM next state = .error e := by
  rw [List.foldlM_append, h]
  rfl

theorem next_of_not_closing {token : Token} (h : ∀ delimiter, token.kind ≠ .closing delimiter)
    (pending : List Pending) : next (.inside pending) token = begin pending token := by
  rcases pending with _ | ⟨⟨delimiter, items⟩ | ⟨shorthand, operands⟩, outer⟩
  · rfl
  · cases hkind : token.kind with
    | closing closing => exact absurd hkind (h closing)
    | _ => simp [next, hkind]
  · rfl

theorem next_shorthand {token : Token} {shorthand : Shorthand} {pending : List Pending}
    (hkind : token.kind = .shorthand shorthand) (hdepth : pending.length < maxDepth) :
    next (.inside pending) token = .ok (.inside (.shorthand shorthand [] :: pending)) := by
  rw [next_of_not_closing (by simp [hkind])]
  simp [begin, hdepth, hkind]

theorem next_opening {token : Token} {delimiter : Delimiter} {pending : List Pending}
    (hkind : token.kind = .opening delimiter) (hdepth : pending.length < maxDepth) :
    next (.inside pending) token = .ok (.inside (.collection delimiter [] :: pending)) := by
  rw [next_of_not_closing (by simp [hkind])]
  simp [begin, hdepth, hkind]

theorem next_closing {token : Token} {delimiter : Delimiter} (items : List Value)
    (outer : List Pending) (hkind : token.kind = .closing delimiter) :
    next (.inside (.collection delimiter items :: outer)) token =
      .ok (supply (collect items.reverse delimiter) outer) := by
  simp [next, hkind]

theorem next_of_maxDepth_le {token : Token} (h : ∀ delimiter, token.kind ≠ .closing delimiter)
    {pending : List Pending} (hdepth : ¬ pending.length < maxDepth) :
    next (.inside pending) token = .error (tooDeep token.position) := by
  rw [next_of_not_closing h, begin, if_neg hdepth]

theorem supply_collection (delimiter : Delimiter) (items : List Value) (value : Value)
    (outer : List Pending) :
    supply value (.collection delimiter items :: outer) =
      .inside (.collection delimiter (value :: items) :: outer) := rfl

theorem supply_marked (mark : Mark) (value : Value) (outer : List Pending) :
    supply value (.shorthand mark.shorthand [] :: outer) =
      supply (.list [.symbol ⟨mark.shorthand.head⟩, value]) outer := by
  cases mark <;> rfl

theorem supply_withMeta (value : Value) (outer : List Pending) :
    supply value (.shorthand .withMeta [] :: outer) =
      .inside (.shorthand .withMeta [value] :: outer) := rfl

theorem supply_withMeta_second (first second : Value) (outer : List Pending) :
    supply second (.shorthand .withMeta [first] :: outer) =
      supply (.list [.symbol ⟨Shorthand.withMeta.head⟩, second, first]) outer := rfl

theorem collect_valuesOfAll (delimiter : Delimiter) (items : List Form) :
    collect (valuesOfAll items) delimiter = (Form.collection delimiter items).value := by
  cases delimiter <;> rfl

mutual

/-- Over the tokens of a form that fits, the reader goes from awaiting an expression to having been
supplied the value that the form denotes. -/
theorem foldlM_tokens (form : Form) (pending : List Pending) {tokens : List Token}
    (hfits : form.FitsAt pending.length) (htokens : tokens.map Token.kind = form.tokens) :
    tokens.foldlM next (.inside pending) = .ok (supply form.value pending) := by
  have hdepth := lt_of_fitsAt hfits
  cases form with
  | number | string | symbol =>
    obtain ⟨token, tokens, rfl, hkind, hnil⟩ := List.map_eq_cons_iff.1 htokens
    obtain rfl := List.map_eq_nil_iff.1 hnil
    have hnext : next (.inside pending) token = begin pending token :=
      next_of_not_closing (by simp [hkind]) pending
    simp [hnext, begin, hdepth, hkind, Form.value]
  | marked mark operand =>
    obtain ⟨token, tokens, rfl, hkind, hoperand⟩ := List.map_eq_cons_iff.1 htokens
    have hrest := foldlM_tokens operand (.shorthand mark.shorthand [] :: pending) hfits.2 hoperand
    rw [foldlM_cons_of_ok (next_shorthand hkind hdepth), hrest, supply_marked]
    rfl
  | withMeta first second =>
    obtain ⟨token, tokens, rfl, hkind, hoperands⟩ := List.map_eq_cons_iff.1 htokens
    obtain ⟨before, after, rfl, hfirst, hsecond⟩ := List.map_eq_append_iff.1 hoperands
    have hbefore := foldlM_tokens first (.shorthand .withMeta [] :: pending) hfits.2.1 hfirst
    have hafter := foldlM_tokens second (.shorthand .withMeta [first.value] :: pending)
      hfits.2.2 hsecond
    rw [supply_withMeta] at hbefore
    rw [foldlM_cons_of_ok (next_shorthand hkind hdepth), foldlM_append_of_ok hbefore, hafter]
    rfl
  | collection delimiter items =>
    obtain ⟨token, tokens, rfl, hkind, hitems⟩ := List.map_eq_cons_iff.1 htokens
    obtain ⟨inner, last, rfl, hinner, hlast⟩ := List.map_eq_append_iff.1 hitems
    obtain ⟨close, tokens, rfl, hclose, hnil⟩ := List.map_eq_cons_iff.1 hlast
    obtain rfl := List.map_eq_nil_iff.1 hnil
    have hmiddle := foldlM_tokensOfAll items delimiter [] pending hfits.2 hinner
    have hend := next_closing (valuesOfAll items).reverse pending hclose
    rw [List.reverse_reverse, collect_valuesOfAll] at hend
    rw [List.append_nil] at hmiddle
    rw [foldlM_cons_of_ok (next_opening hkind hdepth), foldlM_append_of_ok hmiddle,
      foldlM_cons_of_ok hend]
    rfl

theorem foldlM_tokensOfAll (items : List Form) (delimiter : Delimiter) (values : List Value)
    (outer : List Pending) {tokens : List Token} (hfits : AllFitAt (outer.length + 1) items)
    (htokens : tokens.map Token.kind = tokensOfAll items) :
    tokens.foldlM next (.inside (.collection delimiter values :: outer)) =
      .ok (.inside (.collection delimiter ((valuesOfAll items).reverse ++ values) :: outer)) := by
  match items with
  | [] =>
    rw [tokensOfAll, List.map_eq_nil_iff] at htokens
    subst htokens
    rfl
  | item :: items =>
    obtain ⟨first, later, rfl, hfirst, hlater⟩ := List.map_eq_append_iff.1 htokens
    have hitem := foldlM_tokens item (.collection delimiter values :: outer) hfits.1 hfirst
    have hitems := foldlM_tokensOfAll items delimiter (item.value :: values) outer hfits.2
      hlater
    rw [foldlM_append_of_ok hitem, supply_collection]
    simpa [valuesOfAll] using hitems

end

mutual

/-- A form that does not fit is refused at its first part that is too deep. -/
theorem foldlM_tokens_of_not_fitsAt (form : Form) (pending : List Pending) {tokens : List Token}
    (hfits : ¬ form.FitsAt pending.length) (htokens : tokens.map Token.kind = form.tokens) :
    ∃ position, tokens.foldlM next (.inside pending) = .error (tooDeep position) := by
  by_cases hdepth : pending.length < maxDepth
  · cases form with
    | number | string | symbol => exact absurd hdepth hfits
    | marked mark operand =>
      obtain ⟨token, tokens, rfl, hkind, hoperand⟩ := List.map_eq_cons_iff.1 htokens
      rw [foldlM_cons_of_ok (next_shorthand hkind hdepth)]
      have hdeep : ¬ operand.FitsAt (pending.length + 1) := fun h => hfits ⟨hdepth, h⟩
      exact foldlM_tokens_of_not_fitsAt operand _ hdeep hoperand
    | withMeta first second =>
      obtain ⟨token, tokens, rfl, hkind, hoperands⟩ := List.map_eq_cons_iff.1 htokens
      obtain ⟨before, after, rfl, hfirst, hsecond⟩ := List.map_eq_append_iff.1 hoperands
      rw [foldlM_cons_of_ok (next_shorthand hkind hdepth)]
      -- What stands in front of the part that is too deep is read as usual.
      by_cases hshallow : first.FitsAt (pending.length + 1)
      · have hdeep : ¬ second.FitsAt (pending.length + 1) := fun h => hfits ⟨hdepth, hshallow, h⟩
        have hbefore := foldlM_tokens first (.shorthand .withMeta [] :: pending) hshallow hfirst
        rw [foldlM_append_of_ok hbefore]
        exact foldlM_tokens_of_not_fitsAt second (.shorthand .withMeta [first.value] :: pending)
          hdeep hsecond
      · obtain ⟨position, hbefore⟩ := foldlM_tokens_of_not_fitsAt first
          (.shorthand .withMeta [] :: pending) hshallow hfirst
        exact ⟨position, foldlM_append_of_error hbefore⟩
    | collection delimiter items =>
      obtain ⟨token, tokens, rfl, hkind, hitems⟩ := List.map_eq_cons_iff.1 htokens
      obtain ⟨inner, last, rfl, hinner, hlast⟩ := List.map_eq_append_iff.1 hitems
      have hdeep : ¬ AllFitAt (pending.length + 1) items := fun h => hfits ⟨hdepth, h⟩
      obtain ⟨position, hmiddle⟩ :=
        foldlM_tokensOfAll_of_not_fitsAt items delimiter [] pending hdeep
        hinner
      rw [foldlM_cons_of_ok (next_opening hkind hdepth)]
      exact ⟨position, foldlM_append_of_error hmiddle⟩
  · obtain ⟨kind, rest, hform, hclosing⟩ := form.exists_tokens_eq_cons
    obtain ⟨token, tokens, rfl, rfl, -⟩ := List.map_eq_cons_iff.1 (htokens.trans hform)
    exact ⟨token.position, foldlM_cons_of_error (next_of_maxDepth_le hclosing hdepth)⟩

theorem foldlM_tokensOfAll_of_not_fitsAt (items : List Form) (delimiter : Delimiter)
    (values : List Value) (outer : List Pending) {tokens : List Token}
    (hfits : ¬ AllFitAt (outer.length + 1) items)
    (htokens : tokens.map Token.kind = tokensOfAll items) :
    ∃ position, tokens.foldlM next (.inside (.collection delimiter values :: outer)) =
      .error (tooDeep position) := by
  match items with
  | [] => exact absurd trivial hfits
  | item :: items =>
    obtain ⟨first, later, rfl, hfirst, hlater⟩ := List.map_eq_append_iff.1 htokens
    by_cases hshallow : item.FitsAt (outer.length + 1)
    · have hdeep : ¬ AllFitAt (outer.length + 1) items := fun h => hfits ⟨hshallow, h⟩
      have hitem := foldlM_tokens item (.collection delimiter values :: outer) hshallow hfirst
      rw [foldlM_append_of_ok hitem]
      exact foldlM_tokensOfAll_of_not_fitsAt items delimiter (item.value :: values) outer hdeep
        hlater
    · obtain ⟨position, hitem⟩ := foldlM_tokens_of_not_fitsAt item
        (.collection delimiter values :: outer) hshallow hfirst
      exact ⟨position, foldlM_append_of_error hitem⟩

end

/-- The kinds of tokens that lead to a stack of pending expressions. Each has begun at a depth that
the reader accepts, and the parts that it has so far are values of forms that fit. -/
inductive Spelled : List Pending → List Token.Kind → Prop where
  | nil : Spelled [] []
  | collection (delimiter : Delimiter) (items : List Form) {outer : List Pending}
      {kinds : List Token.Kind} (houter : Spelled outer kinds) (hdepth : outer.length < maxDepth)
      (hfits : AllFitAt (outer.length + 1) items) :
      Spelled (.collection delimiter (valuesOfAll items).reverse :: outer)
        (kinds ++ .opening delimiter :: tokensOfAll items)
  | shorthand (shorthand : Shorthand) {outer : List Pending} {kinds : List Token.Kind}
      (houter : Spelled outer kinds) (hdepth : outer.length < maxDepth) :
      Spelled (.shorthand shorthand [] :: outer) (kinds ++ [.shorthand shorthand])
  | withMeta (first : Form) {outer : List Pending} {kinds : List Token.Kind}
      (houter : Spelled outer kinds) (hdepth : outer.length < maxDepth)
      (hfits : first.FitsAt (outer.length + 1)) :
      Spelled (.shorthand .withMeta [first.value] :: outer)
        (kinds ++ .shorthand .withMeta :: first.tokens)

/-- The kinds of tokens that lead to a state of the reader. -/
def State.Spelled : State → List Token.Kind → Prop
  | .inside pending, kinds => Reader.Spelled pending kinds
  | .complete value, kinds =>
    ∃ form : Form, form.FitsAt 0 ∧ form.tokens = kinds ∧ form.value = value

/-- A form that fits where an expression is awaited may be the last part of several pending
expressions, which then are forms themselves. -/
theorem spelled_supply {pending : List Pending} {kinds : List Token.Kind}
    (hpending : Spelled pending kinds) (form : Form) (hfits : form.FitsAt pending.length) :
    (supply form.value pending).Spelled (kinds ++ form.tokens) := by
  induction hpending generalizing form with
  | nil => exact ⟨form, hfits, rfl, rfl⟩
  | @collection delimiter items outer kinds houter hdepth hitems ih =>
    have hlast : AllFitAt (outer.length + 1) [form] := ⟨hfits, trivial⟩
    have hall := allFitAt_append.2 ⟨hitems, hlast⟩
    have hmore := Spelled.collection delimiter (items ++ [form]) houter hdepth hall
    rw [supply_collection]
    simpa [State.Spelled, valuesOfAll_eq_map, tokensOfAll_append, tokensOfAll] using hmore
  | shorthand shorthand houter hdepth ih =>
    rcases Shorthand.eq_withMeta_or_mark shorthand with rfl | ⟨mark, rfl⟩
    · have hmore := Spelled.withMeta form houter hdepth hfits
      rw [supply_withMeta]
      simpa [State.Spelled] using hmore
    · have hmore := ih (.marked mark form) ⟨hdepth, hfits⟩
      rw [supply_marked]
      simpa [tokens, Form.value] using hmore
  | withMeta first houter hdepth hfirst ih =>
    have hmore := ih (.withMeta first form) ⟨hdepth, hfirst, hfits⟩
    rw [supply_withMeta_second]
    simpa [tokens, Form.value] using hmore

theorem spelled_begin {pending : List Pending} {kinds : List Token.Kind}
    (hpending : Spelled pending kinds) {token : Token} {state : State}
    (h : begin pending token = .ok state) : state.Spelled (kinds ++ [token.kind]) := by
  have hdepth : pending.length < maxDepth := by
    by_contra hdeep
    rw [begin, if_neg hdeep] at h
    cases h
  rw [begin, if_pos hdepth] at h
  cases hkind : token.kind <;> simp only [hkind] at h <;> cases h
  case number n => exact spelled_supply hpending (.number n) hdepth
  case string text => exact spelled_supply hpending (.string text) hdepth
  case symbol name => exact spelled_supply hpending (.symbol name) hdepth
  case shorthand shorthand => exact .shorthand shorthand hpending hdepth
  case opening delimiter => exact .collection delimiter [] hpending hdepth trivial

theorem spelled_next {state state' : State} {kinds : List Token.Kind} (hstate : state.Spelled kinds)
    {token : Token} (h : next state token = .ok state') :
    state'.Spelled (kinds ++ [token.kind]) := by
  cases state with
  | complete value => cases h
  | inside pending =>
    -- Only a collection can take a closing bracket; all else begins an expression.
    cases hstate with
    | nil => exact spelled_begin .nil h
    | shorthand shorthand houter hdepth =>
      exact spelled_begin (.shorthand shorthand houter hdepth) h
    | withMeta first houter hdepth hfirst =>
      exact spelled_begin (.withMeta first houter hdepth hfirst) h
    | collection delimiter items houter hdepth hitems =>
      by_cases hclosing : ∃ closing, token.kind = .closing closing
      · obtain ⟨closing, hkind⟩ := hclosing
        simp only [next, hkind] at h
        split at h
        · next hsame =>
          cases h
          have hmore := spelled_supply houter (.collection delimiter items) ⟨hdepth, hitems⟩
          rw [List.reverse_reverse, collect_valuesOfAll]
          simpa [tokens, hkind, hsame] using hmore
        · cases h
      · rw [next_of_not_closing (not_exists.1 hclosing)] at h
        exact spelled_begin (.collection delimiter items houter hdepth hitems) h

theorem spelled_foldlM {state state' : State} {kinds : List Token.Kind}
    (hstate : state.Spelled kinds) {tokens : List Token}
    (h : tokens.foldlM next state = .ok state') :
    state'.Spelled (kinds ++ tokens.map Token.kind) := by
  induction tokens generalizing state kinds with
  | nil =>
    cases h
    simpa using hstate
  | cons token tokens ih =>
    rw [List.foldlM_cons] at h
    cases hnext : next state token with
    | error e =>
      rw [hnext] at h
      cases h
    | ok middle =>
      rw [hnext] at h
      have hrest := ih (spelled_next hstate hnext) h
      simpa using hrest

theorem finish_eq_ok_iff {position : Nat} {state : State} {value : Value} :
    finish position state = .ok value ↔ state = .complete value := by
  rcases state with (_ | ⟨⟨delimiter, items⟩ | ⟨shorthand, operands⟩, outer⟩) | found
  · simp [finish, maxDepth]
  · simp [finish]
  · simp only [finish]
    split <;> simp
  · simp [finish]

end Reader

theorem read_eq_ok_iff_complete {text : String} {value : Value} :
    read text = .ok value ↔ (∃ position, (tokenize text).ending = .ok position) ∧
      (tokenize text).tokens.foldlM Reader.next Reader.start = .ok (.complete value) := by
  rw [read]
  cases htokens : (tokenize text).tokens.foldlM Reader.next Reader.start with
  | error e => simp [bind, Except.bind]
  | ok state =>
    cases hending : (tokenize text).ending with
    | error e => simp [bind, Except.bind]
    | ok position => simpa [bind, Except.bind] using Reader.finish_eq_ok_iff

theorem read_eq_ok_iff {text : String} {value : Value} :
    read text = .ok value ↔
      ∃ (position : Nat) (form : Form), (tokenize text).ending = .ok position ∧
        (tokenize text).kinds = form.tokens ∧ form.FitsAt 0 ∧ form.value = value := by
  rw [read_eq_ok_iff_complete]
  constructor
  · rintro ⟨⟨position, hending⟩, htokens⟩
    have hstart : Reader.start.Spelled [] := Reader.Spelled.nil
    obtain ⟨form, hfits, hform, hvalue⟩ := Reader.spelled_foldlM hstart htokens
    exact ⟨position, form, hending, hform.symm, hfits, hvalue⟩
  · rintro ⟨position, form, hending, htokens, hfits, rfl⟩
    exact ⟨⟨position, hending⟩, Reader.foldlM_tokens form [] hfits htokens⟩

theorem read_of_not_fitsAt {text : String} {form : Form}
    (htokens : (tokenize text).kinds = form.tokens) (hfits : ¬ form.FitsAt 0) :
    ∃ position, read text = .error (Reader.tooDeep position) := by
  obtain ⟨position, hdeep⟩ := Reader.foldlM_tokens_of_not_fitsAt form [] hfits htokens
  have hstart : Reader.start = .inside [] := rfl
  refine ⟨position, ?_⟩
  rw [read, hstart, hdeep]
  rfl

/-- The reader accepts its grammar and nothing else. A text can be read as a value exactly if it has
tokens up to its end, these spell a form that is nowhere too deep, and the form denotes the value.
There is only one such form, since no two forms are spelled alike. -/
theorem read_accepts_grammar :
    Function.Injective Form.tokens ∧
      ∀ (text : String) (value : Value), read text = .ok value ↔
        ∃ (position : Nat) (form : Form), (tokenize text).ending = .ok position ∧
          (tokenize text).kinds = form.tokens ∧ form.FitsAt 0 ∧ form.value = value :=
  ⟨Form.tokens_injective, fun _ _ => read_eq_ok_iff⟩

end SmallLisp
