import ContextLint.Source.Token

/-!
# Grammar rules as data

A rule is a list of alternatives, tried in order, and an alternative is a list of items, matched one
behind the other. The first alternative that matches decides. Some alternatives match only texts
that are at fault; they end with the cause that tells which line to blame.
-/

namespace ContextLint.Source.Diagnosis

/-- The rules of the grammar. A rule whose name starts with `bad` matches only texts at fault. -/
inductive Rule where
  | file | statement | simpleStmts | simpleStmt | compoundStmt
  | assignment | assigned | updateOp
  | returnStmt | raiseStmt | scopeStmt | delStmt | assertStmt
  | importName | importFrom | importTargets | importAlias | dottedAlias | dotted
  | block | decorators | classDef | classBody | functionDef | functionBody
  | params | parameters | slashPlain | slashDefault | starEtc | kwds
  | paramPlain | paramStarHint | paramDefault | paramMaybe | param | default
  | lambdaParams | lambdaParameters | lambdaSlashPlain | lambdaSlashDefault | lambdaStarEtc
  | lambdaKwds | lambdaParamPlain | lambdaParamDefault | lambdaParamMaybe | lambda
  | ifStmt | elifStmt | elseBlock | whileStmt | forStmt | withStmt | withItem
  | tryStmt | exceptBlock | exceptStarBlock | finallyBlock
  | matchStmt | subject | caseBlock | guard
  | patterns | pattern | asPattern | orPattern | closedPattern | literalPattern | literalKey
  | complexNumber | signedNumber | captureTarget | member | nameOrAttr | valuePattern
  | groupPattern | sequencePattern | openSequence | maybeSequence | maybeStar | starPattern
  | mappingPattern | mappingItems | mappingItem | doubleStarPattern
  | classPattern | positionalPatterns | keywordPatterns | keywordPattern
  | expressions | expression | bareExpression | yieldExpr
  | starExpressions | starExpression | starNamedList | starNamed | walrus | named
  | disjunction | conjunction | inversion | comparison | comparisonPair
  | bitOr | bitXor | bitAnd | shift | sum | term | factor | power | awaited | primary
  | slices | slice | atom | group | strings
  | list | tuple | set | dict | pairs | pairOrMapping | pair
  | generators | generator | listComp | setComp | genExp | dictComp
  | arguments | args | kwargs | starredArg | kwargOrStarred | kwargOrMapping
  | starTargets | starTargetTuple | starTarget | targetAtomOr | starAtom
  | singleTarget | memberTarget | memberPrimary
  | delTargets | delTarget | delAtom
  | badArguments | badKwarg | badLegacy | badExpression | badNamed | badAssignment | badHintTarget
  | badDel | badBlock | badComprehension | badDictComp | badParameters | badParametersHelper
  | badLambdaParameters | badLambdaHelper | badDefault | badStarEtc | badLambdaStarEtc | badKwds
  | badLambdaKwds | badWithItem | badForTarget | badGroup | badImportTargets | badWith
  | badWithIndent | badTry | badExcept | badFinally | badExceptIndent | badExceptStarIndent
  | badMatch | badCase | badAsPattern | badClassPattern | badClassArguments | badIf | badElif
  | badElse | badWhile | badFor | badFunction | badClass | badPairs | badPair
  deriving DecidableEq, Repr, Inhabited, Hashable

/-- The rules that match only texts at fault. -/
def Rule.isBad : Rule → Bool
  | badArguments | badKwarg | badLegacy | badExpression | badNamed | badAssignment | badHintTarget
  | badDel | badBlock | badComprehension | badDictComp | badParameters | badParametersHelper
  | badLambdaParameters | badLambdaHelper | badDefault | badStarEtc | badLambdaStarEtc | badKwds
  | badLambdaKwds | badWithItem | badForTarget | badGroup | badImportTargets | badWith
  | badWithIndent | badTry | badExcept | badFinally | badExceptIndent | badExceptStarIndent
  | badMatch | badCase | badAsPattern | badClassPattern | badClassArguments | badIf | badElif
  | badElse | badWhile | badFor | badFunction | badClass | badPairs | badPair => true
  | _ => false

/-- The rules whose result at a place is kept once it is known. -/
def Rule.isKept : Rule → Bool
  | simpleStmt | block | starExpression | expression | disjunction | conjunction | inversion
  | bitOr | bitXor | bitAnd | shift | sum | term | factor | awaited | primary | strings
  | arguments | starTarget | targetAtomOr | memberPrimary | delTarget | dotted | member
  | nameOrAttr | badNamed => true
  | _ => false

/-- The ways in which an expression is used as a target. -/
inductive TargetUse where
  /-- It is assigned to. -/
  | assigned
  /-- It is a loop variable; the text up to the iterable reads like a membership test. -/
  | looped
  /-- It is deleted. -/
  | deleted
  deriving DecidableEq, Repr, Inhabited

/-- Why a matched alternative is at fault, and thereby which line is to blame. -/
inductive Cause where
  /-- The line of the held part. -/
  | held
  /-- The line of the furthest token looked at. -/
  | furthest
  /-- Two expressions inside brackets stand next to each other: the line of the first, unless it is
  a name that used to start a statement. -/
  | neighbours
  /-- The held name used to start a statement: its line. -/
  | oldStatement
  /-- The part of the held expression that is no target: its line. -/
  | target (use : TargetUse)
  /-- A generator without parentheses behind other arguments: the line of the last argument. -/
  | generatorArgument
  deriving DecidableEq, Repr, Inhabited

/-- An item of an alternative. -/
inductive Item where
  /-- A token that satisfies the test. -/
  | token (test : Token → Bool)
  /-- What a rule matches. -/
  | rule (r : Rule)
  /-- What a rule matches while alternatives for texts at fault are left out. -/
  | lenient (r : Rule)
  /-- What the first fitting alternative matches. -/
  | choice (alternatives : List (List Item))
  /-- The same, or nothing. -/
  | maybe (alternatives : List (List Item))
  /-- The same, as often as possible. -/
  | many (alternatives : List (List Item))
  /-- One of the alternatives matches here; nothing is read. -/
  | ahead (alternatives : List (List Item))
  /-- None of the alternatives matches here; nothing is read. -/
  | notAhead (alternatives : List (List Item))
  /-- An item that a later cause refers to. -/
  | held (item : Item)
  /-- An item that stands for the whole alternative. -/
  | inner (item : Item)
  /-- No later alternative is tried if this one does not match. -/
  | cut
  /-- A token that must follow. -/
  | forced (test : Token → Bool)
  /-- A number literal. -/
  | number
  /-- A number literal that must be real. -/
  | real
  /-- A number literal that must be imaginary. -/
  | imaginary
  /-- Adjacent string literals. -/
  | literals
  /-- The text is at fault if the cause applies; otherwise the alternative does not match. -/
  | blame (cause : Cause)

end ContextLint.Source.Diagnosis
