import Scriptlet.Text.Quoted

set_option autoImplicit false

/-! Tokens, the words of the language. -/

namespace Scriptlet

/-- The kinds of tokens. -/
inductive TokenKind
  | eof
  | newline
  | keyword
  | identifier
  | number
  | string
  | operator
  | lparen
  | rparen
  | lbracket
  | rbracket
  | lbrace
  | rbrace
  | semicolon
  | colon
  | comma
deriving Repr, DecidableEq

namespace TokenKind

/-- All kinds, in the order of their numbers. -/
def all : List TokenKind :=
  [eof, newline, keyword, identifier, number, string, operator, lparen, rparen, lbracket, rbracket,
    lbrace, rbrace, semicolon, colon, comma]

def name : TokenKind → String
  | eof => "EOF"
  | newline => "NEWLINE"
  | keyword => "KEYWORD"
  | identifier => "IDENTIFIER"
  | number => "NUMBER"
  | string => "STRING"
  | operator => "OPERATOR"
  | lparen => "LPAREN"
  | rparen => "RPAREN"
  | lbracket => "LBRACKET"
  | rbracket => "RBRACKET"
  | lbrace => "LBRACE"
  | rbrace => "RBRACE"
  | semicolon => "SEMICOLON"
  | colon => "COLON"
  | comma => "COMMA"

/-- The kind of a name. -/
def ofName? (name : String) : Option TokenKind := all.find? fun k => k.name = name

/-- The kind as faults and listings show it. -/
def text (k : TokenKind) : String := "TokenType." ++ k.name

end TokenKind

/-- A token: its kind, its spelling, the line it ends on and its position. A token made by the scanner
always has a kind. -/
structure Token where
  kind : Option TokenKind
  value : String
  line : Nat
  pos : Nat
deriving Repr, DecidableEq

namespace Token

/-- The kind as text, also where there is none. -/
def kindText (t : Token) : String := (t.kind.map TokenKind.text).getD "None"

/-- Kind and spelling between braces. -/
def shortText (t : Token) : String := "\x7b" ++ t.kindText ++ " " ++ t.value ++ "\x7d"

/-- All of a token. -/
def text (t : Token) : String :=
  "\x7b 'type': 'Token<" ++ t.kindText ++ ">', 'contents': \x7b 'value': '" ++ t.value ++
    s!"', 'line': {t.line}, 'pos': {t.pos} \x7d \x7d"

/-- The short texts of tokens, quoted, as one list. -/
def listing (tokens : List Token) : String := Text.quotedList (tokens.map shortText)

end Token

/-- The names of types, which no variable can have. -/
def typeNames : List String := ["int", "float", "string", "bool", "obj", "array"]

/-- All words that are not identifiers. -/
def keywords : List String :=
  ["if", "else", "elseif", "import", "return", "delete", "void", "true", "false", "null", "fun",
    "let", "const"] ++ typeNames

/-- The spellings of operators. -/
def operators : List String :=
  [".", "::", "|", "=", "!", "?", ":", "+", "-", "*", "/", "%", "^", "&", "~", "#", ">", "<", ">=",
    "<=", "==", "!=", "&&", "||", "++", "--"]

end Scriptlet
