import HostScript.Number.Decimal
import HostScript.Text.Printable
import HostScript.Text.Utf8

/-!
# Tokens

The vocabulary of scripts: symbols, which are operators, delimiters and keywords, and lexemes,
which add literals, identifiers and the end of the input. A token is a lexeme with the span of
source bytes that it stands in.
-/

namespace HostScript

/-- Operators, delimiters and keywords. `!` and `not` are one symbol. -/
inductive Symbol
  | plus | minus | asterisk | slash | percent | equals
  | lessThan | lessThanEqual | greaterThan | greaterThanEqual | isEqual | notEqual
  | semicolon | comma | leftParen | rightParen | leftBracket | rightBracket
  | leftBrace | rightBrace
  | and | or | not | if | else | loop | fn | break | return | let | export
  | null | true | false
deriving DecidableEq

namespace Symbol

/-- The name of a symbol in messages. -/
def label : Symbol → String
  | plus => "plus"
  | minus => "minus"
  | asterisk => "asterisk"
  | slash => "slash"
  | percent => "percent"
  | equals => "equals"
  | lessThan => "less_than"
  | lessThanEqual => "less_than_equal"
  | greaterThan => "greater_than"
  | greaterThanEqual => "greater_than_equal"
  | isEqual => "is_equal"
  | notEqual => "not_equal"
  | semicolon => "semicolon"
  | comma => "comma"
  | leftParen => "left_paren"
  | rightParen => "right_paren"
  | leftBracket => "left_bracket"
  | rightBracket => "right_bracket"
  | leftBrace => "left_brace"
  | rightBrace => "right_brace"
  | and => "and"
  | or => "or"
  | not => "not"
  | .if => "if"
  | .else => "else"
  | loop => "loop"
  | fn => "fn"
  | .break => "break"
  | .return => "return"
  | .let => "let"
  | .export => "export"
  | null => "null"
  | true => "true"
  | false => "false"

/-- The symbols that are spelled as words. -/
def keywords : List Symbol :=
  [and, or, not, .if, .else, loop, fn, .break, .return, .let, .export, null, true, false]

/-- The symbol of a keyword. -/
def ofWord? (word : Text) : Option Symbol :=
  keywords.find? fun s => Text.ofString s.label = word

/-- The symbols of one character that begin no longer symbol. -/
def ofChar? : Char → Option Symbol
  | '+' => some plus
  | '-' => some minus
  | '*' => some asterisk
  | '/' => some slash
  | '%' => some percent
  | ';' => some semicolon
  | ',' => some comma
  | '(' => some leftParen
  | ')' => some rightParen
  | '[' => some leftBracket
  | ']' => some rightBracket
  | '\x7b' => some leftBrace
  | '\x7d' => some rightBrace
  | _ => none

/-- The characters that `=` may follow: the symbol with it and the symbol without it. -/
def ofPair? : Char → Option (Symbol × Symbol)
  | '<' => some (lessThanEqual, lessThan)
  | '>' => some (greaterThanEqual, greaterThan)
  | '=' => some (isEqual, equals)
  | '!' => some (notEqual, not)
  | _ => none

/-- How a symbol is written in a script. -/
def spelling : Symbol → String
  | plus => "+"
  | minus => "-"
  | asterisk => "*"
  | slash => "/"
  | percent => "%"
  | equals => "="
  | lessThan => "<"
  | lessThanEqual => "<="
  | greaterThan => ">"
  | greaterThanEqual => ">="
  | isEqual => "=="
  | notEqual => "!="
  | semicolon => ";"
  | comma => ","
  | leftParen => "("
  | rightParen => ")"
  | leftBracket => "["
  | rightBracket => "]"
  | leftBrace => "\x7b"
  | rightBrace => "\x7d"
  | s => s.label

end Symbol

/-- What a token says, wherever it stands. -/
inductive Lexeme
  | symbol (s : Symbol)
  | number (x : Float)
  | string (t : Text)
  | identifier (name : Text)
  | endOfInput
deriving DecidableEq

instance : Coe Symbol Lexeme := ⟨.symbol⟩

namespace Lexeme

/-- The name of the kind of a lexeme. -/
def label : Lexeme → String
  | symbol s => s.label
  | number _ => "number"
  | string _ => "string"
  | identifier _ => "identifier"
  | endOfInput => "eof"

/-- The value of a literal or the name of an identifier, as it stands in messages. -/
def payload? : Lexeme → Option Text
  | number x => some (Number.text x)
  | string t => some t.quoted
  | identifier name => some name.quoted
  | _ => none

/-- How a message speaks of a lexeme that it did not expect. -/
def describe (l : Lexeme) : Text :=
  if l = endOfInput then "end of input"
  else match l.payload? with
    | some value => l.label ++ " " ++ value
    | none => l.label

/-- The form in which tokens are listed. -/
def display (l : Lexeme) : Text :=
  match l.payload? with
  | some value => "Token(" ++ l.label.toUpper ++ ", " ++ value ++ ")"
  | none => "Token(" ++ l.label.toUpper ++ ")"

end Lexeme

/-- A range of bytes of the UTF-8 source, and the line on which it starts. -/
structure Span where
  startByte : Nat
  endByte : Nat
  line : Nat
deriving DecidableEq, Inhabited

/-- A lexeme at its place. -/
structure Token where
  lexeme : Lexeme
  span : Span
deriving DecidableEq

end HostScript
