/-!
The lines of a text. A line ends at a newline, which may follow a carriage return; neither belongs
to the line. The last line needs no end.
-/

namespace SmallLisp.Text

/-- Cuts a text into its lines. A newline at the very end opens no further line. -/
def lines : List Char → List (List Char)
  | [] => []
  | '\n' :: rest => [] :: lines rest
  | '\r' :: '\n' :: rest => [] :: lines rest
  | c :: rest =>
    match lines rest with
    | [] => [[c]]
    | line :: others => (c :: line) :: others

end SmallLisp.Text
