import ContextLint.Yaml.Scan
import ContextLint.Yaml.Tag

/-!
# Nodes of a YAML document

A document is one node: a scalar, a sequence or a mapping, each with its type. Aliases stand for the
nodes that they refer to; inside the node itself an alias stands for an empty collection.
-/

namespace ContextLint.Yaml

/-- A node. -/
inductive Node where
  | scalar (tag : Tag) (content : Scalar)
  | sequence (tag : Tag) (items : List Node)
  /-- A mapping in the order of the text. -/
  | mapping (tag : Tag) (pairs : List (Node × Node))

instance : Inhabited Node := ⟨.sequence .seq []⟩

/-- State of a reader of nodes. -/
structure Composer where
  /-- Tokens to come. -/
  tokens : List Token
  /-- Nodes with an anchor. -/
  anchors : List (String × Node) := []
  /-- What tag handles stand for. -/
  handles : List (String × String) := [("!", "!"), ("!!", Tag.namespaceName)]
  deriving Inhabited

/-- A reader of nodes. -/
abbrev Compose := StateT Composer (Except Fault)

/-- The next token. -/
def peekToken : Compose Token := do return (← get).tokens.headD .streamEnd

/-- Go past the next token. -/
def dropToken : Compose Unit := modify fun s => { s with tokens := s.tokens.tail }

/-- The text is malformed here. -/
def refuse {α : Type} : Compose α := throw .malformed

/-- The node of a scalar that is left out. -/
def emptyNode : Node := .scalar .null { text := [], plain := true }

/-- Anchor and tag before a node. -/
structure Properties where
  anchor : Option String := none
  /-- The full tag. -/
  tag : Option String := none
  deriving Inhabited

/-- The tag leaves the type open. -/
def Properties.isOpen (p : Properties) : Bool := p.tag.isNone || p.tag = some "!"

/-- The type of a collection that has one by default. -/
def Properties.typeOr (p : Properties) (tag : Tag) : Tag :=
  if p.isOpen then tag else Tag.ofText (p.tag.getD "")

/-- The type of a scalar. -/
def Properties.scalarType (p : Properties) (s : Scalar) : Tag :=
  match p.tag with
  | none => if s.plain then plainTag s.text else .str
  | some "!" => plainTag s.text
  | some tag => Tag.ofText tag

/-- The full form of a tag. -/
def fullTag (handle : Option String) (suffix : String) : Compose String := do
  match handle with
  | none => return suffix
  | some h =>
    match (← get).handles.lookup h with
    | some text => return text ++ suffix
    | none => refuse

/-- Read an anchor, if one stands here. -/
def anchor? : Compose (Option String) := do
  match ← peekToken with
  | .anchor name => dropToken; return some name
  | _ => return none

/-- Read a tag, if one stands here. -/
def tag? : Compose (Option String) := do
  match ← peekToken with
  | .tag handle suffix => dropToken; return some (← fullTag handle suffix)
  | _ => return none

/-- Read anchor and tag in either order. -/
def properties : Compose Properties := do
  match ← anchor? with
  | some name => return { anchor := some name, tag := ← tag? }
  | none =>
    match ← tag? with
    | some tag => return { anchor := ← anchor?, tag := some tag }
    | none => return {}

/-- Give a node its anchor. -/
def register (p : Properties) (node : Node) : Compose Unit :=
  match p.anchor with
  | none => return
  | some name => modify fun s => { s with anchors := (name, node) :: s.anchors }

/-- An anchor must be new. -/
def checkAnchor (p : Properties) : Compose Unit := do
  match p.anchor with
  | none => return
  | some name => if ((← get).anchors.lookup name).isSome then refuse else return

/-- A node follows a dash in a sequence without indentation of its own. -/
def Token.startsItem : Token → Bool
  | .blockEntry | .key | .value | .blockEnd => false
  | _ => true

/-- A node follows a key or value mark of a mapping by indentation. -/
def Token.startsBlockPart : Token → Bool
  | .key | .value | .blockEnd => false
  | _ => true

/-- A node follows a dash in a sequence by indentation. -/
def Token.startsBlockItem : Token → Bool
  | .blockEntry | .blockEnd => false
  | _ => true

/-- A node follows a value mark inside brackets or braces. -/
def Token.startsFlowValue : Token → Bool
  | .flowEntry | .flowSequenceEnd | .flowMappingEnd => false
  | _ => true

/-- A node follows a key mark inside brackets or braces. -/
def Token.startsFlowKey : Token → Bool
  | .value => false
  | t => t.startsFlowValue

mutual

/-- Read a node. By indentation are allowed collections if `block`, and sequences without
indentation of their own if `indentless`. `fuel` bounds the number of nodes. -/
def node (block indentless : Bool) : Nat → Compose Node
  | 0 => refuse
  | fuel + 1 => do
    match ← peekToken with
    | .alias name =>
      dropToken
      match (← get).anchors.lookup name with
      | some n => return n
      | none => refuse
    | _ =>
      let p ← properties
      checkAnchor p
      let token ← peekToken
      match token with
      | .scalar s =>
        dropToken
        let n := Node.scalar (p.scalarType s) s
        register p n
        return n
      | .blockEntry =>
        if indentless then collect p .seq (indentlessItems [] fuel)
        else empty p
      | .flowSequenceStart => dropToken; collect p .seq (flowItems [] true fuel)
      | .blockSequenceStart =>
        if block then dropToken; collect p .seq (blockItems [] fuel) else empty p
      | .flowMappingStart => dropToken; associate p .map (flowPairs [] true fuel)
      | .blockMappingStart =>
        if block then dropToken; associate p .map (blockPairs [] fuel) else empty p
      | _ => empty p
where
  /-- A scalar that is left out behind an anchor or a tag. -/
  empty (p : Properties) : Compose Node := do
    if p.anchor.isNone && p.tag.isNone then refuse
    let s : Scalar := { text := [], plain := true }
    let n := Node.scalar (p.scalarType s) s
    register p n
    return n
  /-- A sequence of the items read. -/
  collect (p : Properties) (tag : Tag) (items : Compose (List Node)) : Compose Node := do
    let tag := p.typeOr tag
    register p (.sequence tag [])
    let n := Node.sequence tag (← items)
    register p n
    return n
  /-- A mapping of the pairs read. -/
  associate (p : Properties) (tag : Tag) (pairs : Compose (List (Node × Node))) :
      Compose Node := do
    let tag := p.typeOr tag
    register p (.mapping tag [])
    let n := Node.mapping tag (← pairs)
    register p n
    return n

/-- Read the items of a sequence by indentation, and its end. -/
def blockItems (done : List Node) : Nat → Compose (List Node)
  | 0 => refuse
  | fuel + 1 => do
    match ← peekToken with
    | .blockEntry =>
      dropToken
      let item ← if (← peekToken).startsBlockItem then node true false fuel else pure emptyNode
      blockItems (item :: done) fuel
    | .blockEnd => dropToken; return done.reverse
    | _ => refuse

/-- Read the items of a sequence without indentation of its own. -/
def indentlessItems (done : List Node) : Nat → Compose (List Node)
  | 0 => refuse
  | fuel + 1 => do
    match ← peekToken with
    | .blockEntry =>
      dropToken
      let item ← if (← peekToken).startsItem then node true false fuel else pure emptyNode
      indentlessItems (item :: done) fuel
    | _ => return done.reverse

/-- Read the pairs of a mapping by indentation, and its end. -/
def blockPairs (done : List (Node × Node)) : Nat → Compose (List (Node × Node))
  | 0 => refuse
  | fuel + 1 => do
    match ← peekToken with
    | .key =>
      dropToken
      let k ← if (← peekToken).startsBlockPart then node true true fuel else pure emptyNode
      match ← peekToken with
      | .value =>
        dropToken
        let v ← if (← peekToken).startsBlockPart then node true true fuel else pure emptyNode
        blockPairs ((k, v) :: done) fuel
      | _ => blockPairs ((k, emptyNode) :: done) fuel
    | .blockEnd => dropToken; return done.reverse
    | _ => refuse

/-- Read the items of a sequence in brackets, and its end. -/
def flowItems (done : List Node) (first : Bool) : Nat → Compose (List Node)
  | 0 => refuse
  | fuel + 1 => do
    match ← peekToken with
    | .flowSequenceEnd => dropToken; return done.reverse
    | t =>
      if !first then
        match t with
        | .flowEntry => dropToken
        | _ => refuse
      match ← peekToken with
      | .key =>
        dropToken
        let pair ← flowPair fuel
        flowItems (.mapping .map [pair] :: done) false fuel
      | .flowSequenceEnd => dropToken; return done.reverse
      | _ =>
        let item ← node false false fuel
        flowItems (item :: done) false fuel

/-- Read a pair behind its key mark inside brackets or braces. -/
def flowPair : Nat → Compose (Node × Node)
  | 0 => refuse
  | fuel + 1 => do
    let k ← if (← peekToken).startsFlowKey then node false false fuel else pure emptyNode
    match ← peekToken with
    | .value =>
      dropToken
      let v ← if (← peekToken).startsFlowValue then node false false fuel else pure emptyNode
      return (k, v)
    | _ => return (k, emptyNode)

/-- Read the pairs of a mapping in braces, and its end. -/
def flowPairs (done : List (Node × Node)) (first : Bool) : Nat → Compose (List (Node × Node))
  | 0 => refuse
  | fuel + 1 => do
    match ← peekToken with
    | .flowMappingEnd => dropToken; return done.reverse
    | t =>
      if !first then
        match t with
        | .flowEntry => dropToken
        | _ => refuse
      match ← peekToken with
      | .key =>
        dropToken
        let pair ← flowPair fuel
        flowPairs (pair :: done) false fuel
      | .flowMappingEnd => dropToken; return done.reverse
      | _ =>
        let k ← node false false fuel
        flowPairs ((k, emptyNode) :: done) false fuel

end

/-- The token ends the content of a document. -/
def Token.endsDocument : Token → Bool
  | .directive _ | .documentStart | .documentEnd | .streamEnd => true
  | _ => false

/-- Read directives: at most one version, which must be the first, and each handle once. -/
def directives (version : Bool) (handles : List (String × String)) :
    Nat → Compose (List (String × String))
  | 0 => refuse
  | fuel + 1 => do
    match ← peekToken with
    | .directive (.version major) =>
      dropToken
      if version || major ≠ 1 then refuse
      directives true handles fuel
    | .directive (.tag handle text) =>
      dropToken
      if (handles.lookup handle).isSome then refuse
      directives version (handles ++ [(handle, text)]) fuel
    | .directive .other => dropToken; directives version handles fuel
    | _ => return handles

/-- Go past marks for the end of a document. -/
def skipEnds : Nat → Compose Unit
  | 0 => return
  | fuel + 1 => do
    match ← peekToken with
    | .documentEnd => dropToken; skipEnds fuel
    | _ => return

/-- Read the only document, if there is one. -/
def document (fuel : Nat) : Compose (Option Node) := do
  let found ←
    match ← peekToken with
    | .streamEnd => pure none
    | .directive _ | .documentStart => do
      let own ← directives false [] fuel
      modify fun s => { s with handles := own ++ s.handles }
      match ← peekToken with
      | .documentStart => dropToken
      | _ => refuse
      if (← peekToken).endsDocument then pure (some emptyNode)
      else do pure (some (← node true false fuel))
    | _ => do pure (some (← node true false fuel))
  skipEnds fuel
  match ← peekToken with
  | .streamEnd => return found
  | _ => refuse

/-- The node of a text, if it has one. -/
def compose (text : List Char) : Except Fault (Option Node) := do
  let ts ← tokens text
  let (found, _) ← (document (2 * ts.length + 4)).run { tokens := ts }
  return found

end ContextLint.Yaml
