import ContextLint.Source.Expr
import ContextLint.Source.Token

/-!
# Parsers over tokens

A parser reads tokens from a cursor on and either delivers a value or misses. A miss lets another
alternative try from the same place.
-/

namespace ContextLint.Source

/-- Position of a parser. -/
structure Cursor where
  /-- Index of the next token. -/
  next : Nat
  deriving Inhabited

/-- A parser for values of type `α`. -/
def Parser (α : Type) : Type := Lexed → Cursor → Option (α × Cursor)

namespace Parser

variable {α β : Type}

/-- Deliver a value without reading. -/
protected def pure (a : α) : Parser α := fun _ c => some (a, c)

/-- Go on with a parser that depends on the value delivered. -/
protected def bind (p : Parser α) (f : α → Parser β) : Parser β := fun l c =>
  match p l c with
  | some (a, c) => f a l c
  | none => none

instance : Monad Parser where
  pure := Parser.pure
  bind := Parser.bind

/-- Nothing fits here. -/
def miss : Parser α := fun _ _ => none

instance : Inhabited (Parser α) := ⟨miss⟩

/-- Try `p`, and `q` from the same place if `p` misses. -/
def orElse (p : Parser α) (q : Parser α) : Parser α := fun l c =>
  match p l c with
  | some r => some r
  | none => q l c

/-- Look at the token `n` places ahead; behind the end there is nothing but the end. -/
def peekAt (n : Nat) : Parser Token := fun l c =>
  match l.tokens[c.next + n]? with
  | some t => some (t, c)
  | none =>
    match l.tokens.back?, l.fault with
    | some t, none => some (t, c)
    | _, _ => none

/-- Look at the next token. -/
def peek : Parser Token := peekAt 0

/-- Step over the next token. -/
def advance : Parser Unit := fun _ c => some ((), ⟨c.next + 1⟩)

/-- The next token satisfies `p`; read it. -/
def satisfy (p : Token → Bool) : Parser Token := do
  let t ← peek
  if p t then advance; return t else miss

/-- Read the given operator. -/
def op (text : String) : Parser Token := satisfy (isOp text)

/-- Read the given keyword. -/
def word (text : String) : Parser Token := satisfy (isWord text)

/-- Read a token of the given kind. -/
def kind (k : TokenKind) : Parser Token := satisfy (·.kind == k)

/-- The next token satisfies `p`. -/
def next? (p : Token → Bool) : Parser Bool := do return p (← peek)

/-- Read the next token if it satisfies `p`, and tell whether it did. -/
def accept (p : Token → Bool) : Parser Bool := do
  let t ← peek
  if p t then advance; return true else return false

/-- Result of one round of a loop. -/
inductive Round (σ β : Type) where
  | again (state : σ)
  | leave (value : β)

/-- Repeat a round, at most `fuel` times. -/
def iterate {σ : Type} (round : σ → Parser (Round σ β)) : Nat → σ → Parser β
  | 0, _ => miss
  | fuel + 1, s => do
    match ← round s with
    | .again s => iterate round fuel s
    | .leave b => return b

/-- Repeat a round that reads at least one token whenever it goes round again. -/
def loop {σ : Type} (round : σ → Parser (Round σ β)) (s : σ) : Parser β := fun l c =>
  iterate round (l.tokens.size + 2 - c.next) s l c

/-- Place of the next token. -/
def here : Parser Span := do return (← peek).span

/-- Place of the token read last, layout apart. -/
def last : Parser Span := fun l c =>
  let isText (t : Token) : Bool := match t.kind with
    | .newline | .indent | .dedent | .finish => false
    | _ => true
  let rec back : Nat → Span
    | 0 => default
    | n + 1 =>
      match l.tokens[n]? with
      | some t => if isText t then t.span else back n
      | none => back n
  some (back c.next, c)

/-- A new node from `start` to the token read last, without a number of its own. -/
def site (start : Span) : Parser Site := do return ⟨0, start.to (← last)⟩

/-- Run a parser on a whole token sequence. -/
def run (p : Parser α) (l : Lexed) : Option α := (p l ⟨0⟩).map Prod.fst

end Parser

end ContextLint.Source
