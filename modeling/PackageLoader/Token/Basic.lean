import PackageLoader.Source.Span
import PackageLoader.Text.Quoted

/-!
Tokens of Gno source text: identifiers, literals, keywords, symbols and the marks that end a text
or stand for text that is no token.
-/
namespace PackageLoader

/-- The reserved words. -/
inductive Keyword where
  | package | import_ | var | const | type | func | interface | struct | map | chan
  | if_ | else_ | for_ | range | switch | case | default | return_ | break_ | continue_ | goto
  | fallthrough | select | go | defer
  deriving DecidableEq, Repr

namespace Keyword

/-- The spelling of a keyword. -/
def text : Keyword → String
  | package => "package" | import_ => "import" | var => "var" | const => "const"
  | type => "type" | func => "func" | interface => "interface" | struct => "struct"
  | map => "map" | chan => "chan" | if_ => "if" | else_ => "else" | for_ => "for"
  | range => "range" | switch => "switch" | case => "case" | default => "default"
  | return_ => "return" | break_ => "break" | continue_ => "continue" | goto => "goto"
  | fallthrough => "fallthrough" | select => "select" | go => "go" | defer => "defer"

/-- Every keyword, declarations first. -/
def all : List Keyword :=
  [package, import_, var, const, type, func, interface, struct, map, chan, if_, else_, for_, range,
    switch, case, default, return_, break_, continue_, goto, fallthrough, select, go, defer]

/-- The keyword with a spelling. -/
def ofText? (s : String) : Option Keyword :=
  all.find? (·.text = s)

end Keyword

/-- The binary operators that also have an assigning form. -/
inductive ArithOp where
  | plus | minus | star | slash | percent | amp | pipe | caret | shl | shr | andNot
  deriving DecidableEq, Repr

namespace ArithOp

/-- The spelling of an operator. -/
def text : ArithOp → String
  | plus => "+" | minus => "-" | star => "*" | slash => "/" | percent => "%" | amp => "&"
  | pipe => "|" | caret => "^" | shl => "<<" | shr => ">>" | andNot => "&^"

/-- Every operator. -/
def all : List ArithOp :=
  [plus, minus, star, slash, percent, amp, pipe, caret, shl, shr, andNot]

end ArithOp

/-- Operators and delimiters. -/
inductive Symbol where
  | arith (op : ArithOp)
  | assignOp (op : ArithOp)
  | tilde | eq | notEq | lt | ltEq | gt | gtEq | and | or | not | arrow | inc | dec | ellipsis
  | assign | colonAssign
  | lparen | rparen | lbracket | rbracket | lbrace | rbrace | comma | colon | semi | dot
  deriving DecidableEq, Repr

namespace Symbol

/-- The spelling of a symbol. -/
def text : Symbol → String
  | arith op => op.text
  | assignOp op => op.text ++ "="
  | tilde => "~" | eq => "==" | notEq => "!=" | lt => "<" | ltEq => "<=" | gt => ">" | gtEq => ">="
  | and => "&&" | or => "||" | not => "!" | arrow => "<-" | inc => "++" | dec => "--"
  | ellipsis => "..." | assign => "=" | colonAssign => ":="
  | lparen => "(" | rparen => ")" | lbracket => "[" | rbracket => "]"
  | lbrace => "\x7b" | rbrace => "\x7d" | comma => "," | colon => ":" | semi => ";" | dot => "."

/-- Every symbol. -/
def all : List Symbol :=
  ArithOp.all.map arith ++ ArithOp.all.map assignOp ++
    [tilde, eq, notEq, lt, ltEq, gt, gtEq, and, or, not, arrow, inc, dec, ellipsis, assign,
      colonAssign, lparen, rparen, lbracket, rbracket, lbrace, rbrace, comma, colon, semi, dot]

/-- Every spelling with its symbol, longer spellings first. -/
def spellings : List (List Char × Symbol) :=
  let spelled := all.map fun s => (s.text.toList, s)
  [3, 2, 1].flatMap fun n => spelled.filter (·.1.length = n)

/-- The symbol with the longest spelling that the text starts with. -/
def longest? (cs : List Char) : Option (List Char × Symbol) :=
  spellings.find? (·.1.isPrefixOf cs)

end Symbol

/-- The literals that carry their source text. -/
inductive LiteralKind where
  | int | float | imag | rune | string
  deriving DecidableEq, Repr

/-- What kind of literal it is, in words. -/
def LiteralKind.name : LiteralKind → String
  | int => "integer"
  | float => "float"
  | imag => "imaginary"
  | rune => "rune"
  | string => "string"

/-- What a token is. Identifiers and literals keep their source text, quotes included. -/
inductive TokenKind where
  | ident (text : String)
  | literal (kind : LiteralKind) (text : String)
  | keyword (word : Keyword)
  | symbol (symbol : Symbol)
  | invalid (c : Char)
  | unterminatedString
  | unterminatedComment
  | eof
  deriving DecidableEq, Repr

namespace TokenKind

/-- A separator between declarations, written or inserted. -/
abbrev semi : TokenKind := .symbol .semi

/-- `TokenKind::name`: the kind of token in words; keywords and symbols are named by their
spelling. -/
def name : TokenKind → String
  | ident _ => "identifier"
  | literal kind _ => kind.name
  | keyword word => word.text
  | symbol s => s.text
  | invalid _ => "invalid character"
  | unterminatedString => "unterminated string"
  | unterminatedComment => "unterminated comment"
  | eof => "EOF"

/-- How a token is shown in messages. -/
def describe (kind : TokenKind) : String :=
  match kind with
  | ident text | literal _ text => kind.name ++ " " ++ text
  | invalid c => "invalid character " ++ Text.quotedRune c
  | _ => "'" ++ kind.name ++ "'"

/-- `TokenKind::ends_statement`: tokens that can be the last one of a statement: a newline behind
one of them ends it. -/
def endsStatement : TokenKind → Bool
  | ident _ | literal _ _ => true
  | keyword .break_ | keyword .continue_ | keyword .fallthrough | keyword .return_ => true
  | symbol .inc | symbol .dec | symbol .rparen | symbol .rbracket | symbol .rbrace => true
  | _ => false

/-- Nothing but the end of the text follows these. -/
def isFinal : TokenKind → Bool
  | eof | unterminatedComment => true
  | _ => false

end TokenKind

/-- A token and where it stands. -/
structure Token where
  kind : TokenKind
  span : Span
  deriving DecidableEq, Repr

namespace Token

/-- A semicolon that stands for a line end covers no text. -/
def isInserted (t : Token) : Bool :=
  t.kind = .semi && t.span.isEmpty

/-- How a token is shown as the thing found where another was expected. -/
def describe (t : Token) : String :=
  if t.isInserted then "newline" else t.kind.describe

end Token

end PackageLoader
