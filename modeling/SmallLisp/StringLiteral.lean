/-!
String literals: how a string is written between double quotes, and how it is read back. A
backslash takes the next character with it, so the literal ends at the first quote that no
backslash has taken.
-/

namespace SmallLisp.StringLiteral

/-- Splits the text behind an opening quote at the closing one. There is none if the text ends
first, be it after a lone backslash. -/
def splitAtClose? : List Char → Option (List Char × List Char)
  | [] => none
  | '"' :: after => some ([], after)
  | '\\' :: c :: rest => (splitAtClose? rest).map fun (body, after) => ('\\' :: c :: body, after)
  | c :: rest => (splitAtClose? rest).map fun (body, after) => (c :: body, after)

theorem append_of_splitAtClose? {text body after : List Char}
    (h : splitAtClose? text = some (body, after)) : body ++ '"' :: after = text := by
  fun_induction splitAtClose? text generalizing body with
  | case1 => cases h
  | case2 => cases h; rfl
  | case3 c rest ih =>
    obtain ⟨⟨inner, after⟩, hfound, hsplit⟩ := Option.map_eq_some_iff.1 h
    cases hsplit
    simp [ih hfound]
  | case4 c rest _ _ ih =>
    obtain ⟨⟨inner, after⟩, hfound, hsplit⟩ := Option.map_eq_some_iff.1 h
    cases hsplit
    simp [ih hfound]

/-- What a character stands for behind a backslash. Any but these three leaves the pair as it
is. -/
def escaped : Char → List Char
  | 'n' => ['\n']
  | '\\' => ['\\']
  | '"' => ['"']
  | c => ['\\', c]

/-- The contents of a literal, from the text between its quotes. -/
def decode : List Char → List Char
  | '\\' :: c :: rest => escaped c ++ decode rest
  | c :: rest => c :: decode rest
  | [] => []

/-- The characters that a literal cannot show as themselves. -/
def encodeChar : Char → List Char
  | '\n' => ['\\', 'n']
  | '\\' => ['\\', '\\']
  | '"' => ['\\', '"']
  | c => [c]

def encode (contents : List Char) : List Char :=
  contents.flatMap encodeChar

/-- The literal of a string, quotes included. -/
def write (text : String) : String :=
  "\"" ++ String.ofList (encode text.toList) ++ "\""

theorem decode_encode (contents : List Char) : decode (encode contents) = contents := by
  induction contents with
  | nil => rfl
  | cons c rest ih =>
    have hstep : encode (c :: rest) = encodeChar c ++ encode rest := rfl
    rw [hstep]
    unfold encodeChar
    split
    · simpa [decode, escaped] using ih
    · simpa [decode, escaped] using ih
    · simpa [decode, escaped] using ih
    · next hnewline hbackslash hquote =>
      rw [List.singleton_append, decode, ih]
      intro _ _ hsame
      exact absurd hsame hbackslash

theorem splitAtClose?_encode (contents after : List Char) :
    splitAtClose? (encode contents ++ '"' :: after) = some (encode contents, after) := by
  induction contents with
  | nil => rfl
  | cons c rest ih =>
    have hstep : encode (c :: rest) = encodeChar c ++ encode rest := rfl
    rw [hstep, List.append_assoc]
    unfold encodeChar
    split
    · simp [splitAtClose?, ih]
    · simp [splitAtClose?, ih]
    · simp [splitAtClose?, ih]
    · next hnewline hbackslash hquote =>
      rw [List.singleton_append, splitAtClose?, ih] <;> simp_all

end SmallLisp.StringLiteral
