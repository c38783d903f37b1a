import Mathlib
import SmallLisp.Proofs.Token.Newline

/-!
Texts that start further behind. Where a text starts shows in the positions of its tokens and in
nothing else. So a text behind a newline has the tokens that it has alone, moved by what stands in
front of them.
-/

namespace SmallLisp

/-- The same token further behind. -/
def Token.shift (distance : Nat) (token : Token) : Token :=
  { token with position := token.position + distance }

def ReadError.shift (distance : Nat) (e : ReadError) : ReadError :=
  { e with position := e.position + distance }

theorem ReadError.ofFlaw_add (position distance : Nat) (flaw : Lexeme.Flaw) :
    ofFlaw (position + distance) flaw = (ofFlaw position flaw).shift distance := by
  cases flaw <;> rfl

namespace TokenStream

def shiftEnding (distance : Nat) : Except ReadError Nat → Except ReadError Nat
  | .ok position => .ok (position + distance)
  | .error e => .error (e.shift distance)

def shift (distance : Nat) (stream : TokenStream) : TokenStream :=
  ⟨stream.tokens.map (.shift distance), shiftEnding distance stream.ending⟩

def Item.shift (distance : Nat) : Item → Item
  | .token found => .token (found.shift distance)
  | .ending found => .ending (shiftEnding distance found)

theorem items_shift (distance : Nat) (stream : TokenStream) :
    (stream.shift distance).items = stream.items.map (Item.shift distance) := by
  simp [items, shift, Item.shift, Function.comp_def]

/-- Tokens first, and then the items of a further stream. -/
theorem items_append (tokens : List Token) (stream : TokenStream) :
    items ⟨tokens ++ stream.tokens, stream.ending⟩ = tokens.map .token ++ stream.items := by
  simp [items]

theorem scan_shift (distance offset : Nat) (text : List Char) :
    scan (offset + distance) text = (scan offset text).shift distance := by
  fun_induction scan offset text with
  | case1 offset text trivia hsplit =>
    rw [scan_eq, hsplit]
    simp only [shift, shiftEnding, List.map_nil, Nat.add_right_comm]
  | case2 offset text trivia c rest hsplit position flaw hfirst =>
    rw [scan_eq, hsplit]
    simp only [hfirst, shift, shiftEnding, List.map_nil, ← ReadError.ofFlaw_add, position,
      Nat.add_right_comm]
  | case3 offset text trivia c rest hsplit position lexeme hfirst later ih =>
    have hposition :
        offset + distance + (String.ofList trivia).utf8ByteSize = position + distance :=
      Nat.add_right_comm ..
    have hlater :
        scan (position + distance + (String.ofList lexeme.spelling).utf8ByteSize) lexeme.rest =
          later.shift distance := by
      rw [Nat.add_right_comm, ih]
    rw [scan_eq, hsplit]
    simp only [hfirst, hposition, hlater]
    rfl

end TokenStream

/-- A newline keeps what stands in front of it and what stands behind it apart. Where a text has
tokens up to its end, the text with a further line has these tokens, and then those of the line
alone and its end or error, each further behind by the text and the newline. Asked item by item, it
gives first the tokens of the text and then what the line gives. -/
theorem tokenize_further_line {text : String}
    (h : ∃ position, (tokenize text).ending = .ok position) (more : String) :
    let distance := text.utf8ByteSize + 1
    let count := (tokenize text).tokens.length
    let joined := text ++ "\n" ++ more
    (tokenize joined).tokens =
        (tokenize text).tokens ++ (tokenize more).tokens.map (.shift distance) ∧
      (tokenize joined).ending = TokenStream.shiftEnding distance (tokenize more).ending ∧
        ∀ number, (Tokenizer.ofText joined).request? number =
          if number < count then (Tokenizer.ofText text).request? number
          else ((Tokenizer.ofText more).request? (number - count)).map (.shift distance) := by
  obtain ⟨position, hending⟩ := h
  intro distance count joined
  have hline : TokenStream.scan (text.utf8ByteSize + 1) more.toList =
      (tokenize more).shift distance := by
    rw [← Nat.zero_add (_ + 1), TokenStream.scan_shift]
    rfl
  have hjoined : tokenize joined =
      ⟨(tokenize text).tokens ++ ((tokenize more).shift distance).tokens,
        ((tokenize more).shift distance).ending⟩ := by
    rw [tokenize_append_newline hending, hline]
  refine ⟨congrArg TokenStream.tokens hjoined, congrArg TokenStream.ending hjoined,
    fun number => ?_⟩
  have hitems : (tokenize joined).items =
      (tokenize text).tokens.map .token ++ (tokenize more).items.map (.shift distance) := by
    rw [hjoined, TokenStream.items_append, TokenStream.items_shift]
  have hrequest : ∀ (text : String) (number : Nat),
      (Tokenizer.ofText text).request? number = (tokenize text).items[number]? :=
    fun text number => Tokenizer.request?_eq 0 text.toList number
  rw [hrequest, hrequest, hrequest, hitems]
  split
  · next hlt =>
    rw [List.getElem?_append_left (by simpa using hlt), TokenStream.items,
      List.getElem?_append_left (by simpa using hlt)]
  · next hle =>
    rw [List.getElem?_append_right (by simpa using hle), List.length_map, List.getElem?_map]

/-- A mark at the end of a text does not join with the mark that a further line starts with. -/
theorem tokenize_further_line_marks :
    (∃ position, (tokenize "x ~").ending = .ok position) ∧
      (tokenize ("x ~" ++ "\n" ++ "@y")).tokens =
        [⟨.symbol "x", 0⟩, ⟨.shorthand .unquote, 2⟩, ⟨.shorthand .deref, 4⟩, ⟨.symbol "y", 5⟩] := by
  have hending : (tokenize "x ~").ending = .ok 3 := by cbv
  refine ⟨⟨3, hending⟩, ?_⟩
  rw [(tokenize_further_line ⟨3, hending⟩ "@y").1]
  cbv

end SmallLisp
