import ContextLint.Source.Diagnosis.Grammar
import ContextLint.Source.Literal
import Std.Data.HashMap

/-!
# Matching the grammar

Matching a rule at a token tells how far it reaches and which token its tree would start at. It also
keeps the furthest token ever looked at, and stops as soon as some text is found to be at fault.
-/

namespace ContextLint.Source.Diagnosis

/-- A definite fault. -/
structure Fault where
  /-- The line to blame. -/
  line : Nat
  /-- Index of the furthest token looked at. -/
  furthest : Nat
  /-- No later lexical fault takes its place. -/
  settled : Bool
  deriving DecidableEq, Repr, Inhabited

/-- A match of a rule or item. -/
structure Match where
  /-- Index of the token behind it. -/
  next : Nat
  /-- Index of the token at which its tree starts. -/
  node : Nat
  deriving DecidableEq, Repr, Inhabited

/-- Outcome of matching. -/
inductive Reply where
  /-- It matches. -/
  | found (m : Match)
  /-- It does not match; `final` says that no other alternative may be tried. -/
  | failed (final : Bool)
  /-- The text is at fault. -/
  | fault (f : Fault)
  deriving Inhabited

/-- What matching depends on. -/
structure Setting where
  /-- The tokens. -/
  lexed : Lexed
  /-- Number of brackets open behind each token. -/
  depths : Array Nat
  /-- Whether adjacent string literals are malformed: the line to blame, or none for the line of the
  furthest token. -/
  literalFault : List Token → Option (Option Nat)
  /-- The expression list that starts at a token. -/
  expressionAt : Nat → Option Expr
  /-- The last positional argument of the argument list that starts at the first token and ends in
  front of the second, if it has more than one. -/
  lastArgument : Nat → Nat → Option Expr

/-- What is kept while matching. -/
structure Progress where
  /-- Index of the furthest token looked at. -/
  furthest : Nat
  /-- Results of rules at tokens. -/
  known : Std.HashMap (Nat × Rule) (Option Match)

/-- A fault on the given line. -/
def Progress.faultOn (p : Progress) (line : Nat) : Reply := .fault ⟨line, p.furthest, false⟩

/-- An alternative that is being matched. -/
structure Thread where
  /-- Index of its first token. -/
  start : Nat
  /-- Index of the next token. -/
  pos : Nat
  /-- Match of its first item. -/
  lead : Option Match
  /-- Match of the item that stands for the whole. -/
  inner : Option Match
  /-- Start and match of the held item. -/
  held : Option (Nat × Match)

namespace Thread

/-- An alternative at its start. -/
def begin (pos : Nat) : Thread := ⟨pos, pos, none, none, none⟩

/-- The alternative behind one more match. -/
def after (t : Thread) (m : Match) : Thread :=
  { t with pos := m.next, lead := t.lead.or (some m) }

/-- The match of the whole alternative. An item that reaches as far as the alternative passes its
tree on. -/
def result (t : Thread) : Match :=
  match t.inner, t.lead with
  | some m, _ => ⟨t.pos, m.node⟩
  | none, some m => ⟨t.pos, if m.next = t.pos then m.node else t.start⟩
  | none, none => ⟨t.pos, t.start⟩

end Thread

namespace Setting

variable (s : Setting)

/-- Line of a token; that of the last one if there are fewer. -/
def lineAt (i : Nat) : Nat :=
  (((s.lexed.tokens[i]?).orElse fun _ => s.lexed.tokens.back?).map (·.span.line)).getD 0

/-- Look at a token; behind the last one lies the lexical fault, if there is one. -/
def look (pos : Nat) (p : Progress) : Except Reply Token × Progress :=
  let p := { p with furthest := max p.furthest pos }
  match s.lexed.tokens[pos]? with
  | some t => (.ok t, p)
  | none =>
    match s.lexed.fault with
    | some f => (.error (.fault ⟨f.line, pos, true⟩), p)
    | none => (.error (.failed false), p)

/-- Match one token. -/
def matchToken (test : Token → Bool) (pos : Nat) (p : Progress) : Reply × Progress :=
  match s.look pos p with
  | (.ok t, p) => (if test t then .found ⟨pos + 1, pos⟩ else .failed false, p)
  | (.error r, p) => (r, p)

/-- Match a number literal; one that `test` refuses is at fault. -/
def matchNumber (test : List Char → Bool) (pos : Nat) (p : Progress) : Reply × Progress :=
  match s.look pos p with
  | (.ok t, p) =>
    if t.kind == .number then
      let text := t.text.toList
      (if Literal.isOversized text || !test text then p.faultOn t.span.line
        else .found ⟨pos + 1, pos⟩, p)
    else (.failed false, p)
  | (.error r, p) => (r, p)

/-- The adjacent string literals at a token; the token behind them is looked at. -/
def literalsAt (pos : Nat) (p : Progress) : Nat → List Token → Except Reply (List Token) × Progress
  | 0, acc => (.ok acc.reverse, p)
  | fuel + 1, acc =>
    match s.look pos p with
    | (.ok t, p) =>
      if t.kind == .string then literalsAt (pos + 1) p fuel (t :: acc) else (.ok acc.reverse, p)
    | (.error r, p) => (.error r, p)

/-- Match adjacent string literals. -/
def matchLiterals (pos : Nat) (p : Progress) : Reply × Progress :=
  match s.literalsAt pos p (s.lexed.tokens.size + 1) [] with
  | (.error r, p) => (r, p)
  | (.ok [], p) => (.failed false, p)
  | (.ok tokens, p) =>
    match s.literalFault tokens with
    | none => (.found ⟨pos + tokens.length, pos⟩, p)
    | some line => (p.faultOn (line.getD (s.lineAt p.furthest)), p)

/-- Words that used to start a statement. -/
def oldStatements : List String := ["print", "exec"]

/-- The match is a single word that used to start a statement. -/
def isOldStatement (start : Nat) (m : Match) : Bool :=
  m.next == start + 1 &&
    s.lexed.tokens[start]?.any fun t => t.kind == .name && oldStatements.contains t.text

/-- The part of an expression that cannot be used as a target. -/
def invalidTarget (use : TargetUse) : Nat → Expr → Option Expr
  | 0, _ => none
  | fuel + 1, e =>
    match e with
    | .sequence _ _ elements => elements.findSome? (invalidTarget use fuel)
    | .starred _ value => if use = .deleted then some e else invalidTarget use fuel value
    | .compound _ .compare (left :: _) =>
      if use = .looped then invalidTarget use fuel left else some e
    | .name .. | .subscript .. | .attr .. => none
    | _ => some e

/-- The line that a cause blames behind the given alternative, if it applies. -/
def judge (t : Thread) (p : Progress) : Cause → Option Nat
  | .furthest => some (s.lineAt p.furthest)
  | .held => t.held.map fun h => s.lineAt h.2.node
  | .neighbours => t.held.bind fun (start, m) =>
    if s.isOldStatement start m || s.depths.getD (t.pos - 1) 0 = 0 then none
    else some (s.lineAt m.node)
  | .oldStatement => t.held.bind fun (start, m) =>
    if s.isOldStatement start m then some (s.lineAt m.node) else none
  | .target use => t.held.bind fun (start, _) =>
    ((s.expressionAt start).bind (invalidTarget use (s.lexed.tokens.size + 1))).map (·.span.line)
  | .generatorArgument =>
    t.held.bind fun (start, m) => (s.lastArgument start m.next).map (·.span.line)

mutual

/-- Match an item; `strict` says that alternatives for texts at fault are tried as well. -/
def matchItem (strict : Bool) : Nat → Item → Nat → Progress → Reply × Progress
  | 0, _, _, p => (.failed true, p)
  | fuel + 1, item, pos, p =>
    match item with
    | .token test => s.matchToken test pos p
    | .rule r => matchRule strict fuel r pos p
    | .lenient r => matchRule false fuel r pos p
    | .choice alts => matchAny strict fuel alts pos p
    | .maybe alts =>
      match matchAny strict fuel alts pos p with
      | (.failed _, p) => (.found ⟨pos, pos⟩, p)
      | r => r
    | .many alts => matchMany strict fuel alts pos pos p
    | .ahead alts =>
      match matchAny strict fuel alts pos p with
      | (.found _, p) => (.found ⟨pos, pos⟩, p)
      | r => r
    | .notAhead alts =>
      match matchAny strict fuel alts pos p with
      | (.found _, p) => (.failed false, p)
      | (.failed _, p) => (.found ⟨pos, pos⟩, p)
      | r => r
    | .held item | .inner item => matchItem strict fuel item pos p
    | .forced test =>
      match s.matchToken test pos p with
      | (.failed _, p) => (p.faultOn (s.lineAt pos), p)
      | r => r
    | .number => s.matchNumber (fun _ => true) pos p
    | .real => s.matchNumber (Literal.numberKind · ≠ .complex) pos p
    | .imaginary => s.matchNumber (Literal.numberKind · = .complex) pos p
    | .literals => s.matchLiterals pos p
    | .cut | .blame _ => (.found ⟨pos, pos⟩, p)

/-- Match a rule. -/
def matchRule (strict : Bool) : Nat → Rule → Nat → Progress → Reply × Progress
  | 0, _, _, p => (.failed true, p)
  | fuel + 1, r, pos, p =>
    if r.isBad && !strict then (.failed false, p)
    else match if r.isKept then p.known[(pos, r)]? else none with
      | some (some m) => (.found m, p)
      | some none => (.failed false, p)
      | none =>
        match matchAny strict fuel (alternatives r) pos p with
        | (.found m, p) =>
          (.found m, if r.isKept then { p with known := p.known.insert (pos, r) (some m) } else p)
        | (.failed _, p) =>
          (.failed false,
            if r.isKept then { p with known := p.known.insert (pos, r) none } else p)
        | r => r

/-- Match the first alternative that fits. -/
def matchAny (strict : Bool) : Nat → List (List Item) → Nat → Progress → Reply × Progress
  | 0, _, _, p => (.failed true, p)
  | _ + 1, [], _, p => (.failed false, p)
  | fuel + 1, items :: rest, pos, p =>
    match matchAll strict fuel items false (.begin pos) p with
    | (.failed false, p) => matchAny strict fuel rest pos p
    | (.failed true, p) => (.failed false, p)
    | r => r

/-- Match alternatives again and again; `start` is where the first match began. -/
def matchMany (strict : Bool) :
    Nat → List (List Item) → Nat → Nat → Progress → Reply × Progress
  | 0, _, _, _, p => (.failed true, p)
  | fuel + 1, alts, start, pos, p =>
    match matchAny strict fuel alts pos p with
    | (.found m, p) =>
      if pos < m.next then matchMany strict fuel alts start m.next p else (.found ⟨pos, start⟩, p)
    | (.failed _, p) => (.found ⟨pos, start⟩, p)
    | r => r

/-- Match the items of an alternative one behind the other; `final` says that a cut was passed. -/
def matchAll (strict : Bool) :
    Nat → List Item → Bool → Thread → Progress → Reply × Progress
  | 0, _, _, _, p => (.failed true, p)
  | _ + 1, [], _, t, p => (.found t.result, p)
  | fuel + 1, item :: rest, final, t, p =>
    match item with
    | .cut => matchAll strict fuel rest true t p
    | .blame cause =>
      match s.judge t p cause with
      | some line => (p.faultOn line, p)
      | none => (.failed final, p)
    | item =>
      match matchItem strict fuel item t.pos p with
      | (.found m, p) =>
        let next := match item with
          | .ahead _ | .notAhead _ => t
          | .held _ => { t.after m with held := some (t.pos, m) }
          | .inner _ => { t.after m with inner := some m }
          | _ => t.after m
        matchAll strict fuel rest final next p
      | (.failed _, p) => (.failed final, p)
      | r => r

end

end Setting

end ContextLint.Source.Diagnosis
