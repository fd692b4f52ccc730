import ContextLint.Source.Span

/-!
# Tokens

A source text is a sequence of tokens, possibly cut short by a lexical fault. Layout is part of the
sequence: the end of a logical line, and each change of indentation, is a token of its own.
-/

namespace ContextLint.Source

/-- The kinds of token. -/
inductive TokenKind where
  /-- A name or a keyword. -/
  | name
  | number
  /-- A string or byte-string literal with its quotes. -/
  | string
  /-- An operator or delimiter, or a character that is neither. -/
  | op
  /-- The end of a logical line. -/
  | newline
  /-- The indentation grows. -/
  | indent
  /-- The indentation shrinks by one level. -/
  | dedent
  /-- The end of the text. -/
  | finish
  deriving DecidableEq, Repr, Inhabited

/-- A token with its text and place. -/
structure Token where
  /-- What the token is. -/
  kind : TokenKind
  /-- The characters it covers; empty for layout. -/
  text : String
  /-- Where it stands. -/
  span : Span
  deriving DecidableEq, Repr, Inhabited

/-- Why a text has no further token. -/
structure LexFault where
  /-- The line to blame. -/
  line : Nat
  /-- A loud fault is blamed even when the grammar fails before it. -/
  loud : Bool
  /-- Line of the innermost bracket still open at the fault. -/
  openBracket : Option Nat
  deriving DecidableEq, Repr, Inhabited

/-- The tokens of a text, ended by a `finish` token or by a fault. -/
structure Lexed where
  /-- The tokens in order. -/
  tokens : Array Token
  /-- The fault behind the last token, if there is one. -/
  fault : Option LexFault
  deriving Inhabited

/-- The reserved words, none of which is an identifier. -/
def keywords : List String :=
  ["False", "None", "True", "and", "as", "assert", "async", "await", "break", "class", "continue",
   "def", "del", "elif", "else", "except", "finally", "for", "from", "global", "if", "import",
   "in", "is", "lambda", "nonlocal", "not", "or", "pass", "raise", "return", "try", "while",
   "with", "yield"]

/-- A name token that is no reserved word. -/
def Token.isIdentifier (t : Token) : Bool := t.kind == .name && !keywords.contains t.text

/-- The token is the given operator. -/
def isOp (text : String) (t : Token) : Bool := t.kind == .op && t.text == text

/-- The token is the given keyword. -/
def isWord (text : String) (t : Token) : Bool := t.kind == .name && t.text == text

end ContextLint.Source
