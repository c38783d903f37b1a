import SmallLisp.Text.Quoted

/-!
Tokens: the smallest pieces of a text that mean something on their own.
-/

namespace SmallLisp

/-- The three kinds of brackets. -/
inductive Delimiter where
  | parenthesis
  | brace
  | bracket
  deriving DecidableEq, Repr

namespace Delimiter

def all : List Delimiter := [parenthesis, brace, bracket]

def opening : Delimiter → Char
  | parenthesis => '('
  | brace => '\x7b'
  | bracket => '['

def closing : Delimiter → Char
  | parenthesis => ')'
  | brace => '\x7d'
  | bracket => ']'

end Delimiter

/-- Marks in front of an expression that stand for a list with a certain head. -/
inductive Shorthand where
  | quote
  | quasiquote
  | unquote
  | spliceUnquote
  | deref
  | withMeta
  deriving DecidableEq, Repr

namespace Shorthand

def all : List Shorthand := [quote, quasiquote, unquote, spliceUnquote, deref, withMeta]

def spelling : Shorthand → List Char
  | quote => ['\'']
  | quasiquote => ['\x60']
  | unquote => ['~']
  | spliceUnquote => ['~', '@']
  | deref => ['@']
  | withMeta => ['^']

/-- The head of the list that the shorthand stands for. -/
def head : Shorthand → String
  | quote => "quote"
  | quasiquote => "quasiquote"
  | unquote => "unquote"
  | spliceUnquote => "splice-unquote"
  | deref => "deref"
  | withMeta => "with-meta"

/-- How many expressions follow the mark. -/
def operandCount : Shorthand → Nat
  | withMeta => 2
  | _ => 1

/-- Whether the list holds the operands in the reverse of the order in which they are written. -/
def reversesOperands : Shorthand → Bool
  | withMeta => true
  | _ => false

/-- The shorthand that a text starts with, and the text after it. The longer of two spellings
wins. -/
def split? : List Char → Option (Shorthand × List Char)
  | '~' :: '@' :: after => some (spliceUnquote, after)
  | '~' :: after => some (unquote, after)
  | '\'' :: after => some (quote, after)
  | '\x60' :: after => some (quasiquote, after)
  | '@' :: after => some (deref, after)
  | '^' :: after => some (withMeta, after)
  | _ => none

theorem spelling_append_of_split? {text after : List Char} {shorthand : Shorthand}
    (h : split? text = some (shorthand, after)) : shorthand.spelling ++ after = text := by
  unfold split? at h
  split at h <;> cases h <;> rfl

end Shorthand

namespace Token

inductive Kind where
  | number (n : Int64)
  | string (text : String)
  | symbol (name : String)
  | shorthand (shorthand : Shorthand)
  | opening (delimiter : Delimiter)
  | closing (delimiter : Delimiter)
  deriving DecidableEq, Repr

end Token

/-- A token and the byte offset of its first character. -/
structure Token where
  kind : Token.Kind
  position : Nat
  deriving DecidableEq, Repr

/-- The words for a token in a message. -/
def Token.description (token : Token) : String :=
  match token.kind with
  | .number n => n.toInt.repr
  | .string text => Text.quoted text
  | .symbol name => name
  | .shorthand shorthand => String.ofList shorthand.spelling
  | .opening delimiter => s!"'{delimiter.opening}'"
  | .closing delimiter => s!"'{delimiter.closing}'"

end SmallLisp
