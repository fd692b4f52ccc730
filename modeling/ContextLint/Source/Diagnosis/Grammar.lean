import ContextLint.Source.Diagnosis.Rule

/-!
# The grammar with its faults

The alternatives of every rule. Rules that repeat on the left are written as loops.
-/

namespace ContextLint.Source.Diagnosis

/-- An operator. -/
def op (text : String) : Item := .token (isOp text)

/-- A keyword. -/
def word (text : String) : Item := .token (isWord text)

/-- A rule as an item. -/
def use (r : Rule) : Item := .rule r

/-- An identifier. -/
def name : Item := .token Token.isIdentifier

/-- The end of a logical line. -/
def newline : Item := .token (·.kind == .newline)

/-- Deeper indentation. -/
def indent : Item := .token (·.kind == .indent)

/-- The end of an indented block. -/
def dedent : Item := .token (·.kind == .dedent)

/-- The end of the text. -/
def finish : Item := .token (·.kind == .finish)

/-- No deeper indentation. -/
def notIndent : Item := .notAhead [[indent]]

/-- One of several tokens. -/
def oneOf (tests : List (Token → Bool)) : Item := .token fun t => tests.any (· t)

/-- One of several operators. -/
def ops (texts : List String) : Item := oneOf (texts.map isOp)

/-- An optional sequence. -/
def maybe (items : List Item) : Item := .maybe [items]

/-- A sequence any number of times. -/
def many (items : List Item) : Item := .many [items]

/-- Items separated by commas. -/
def listed (item : Item) : List Item := [item, many [op ",", item]]

/-- Items separated by commas, with an optional final comma. -/
def listedComma (item : Item) : List Item := listed item ++ [maybe [op ","]]

/-- A colon, a line end and no block behind it. -/
def noBlock : List Item := [op ":", newline, notIndent, .blame .furthest]

/-- A name given behind `as`. -/
def asName : Item := maybe [word "as", name]

/-- Parameters come in two forms: those of definitions, which end at a parenthesis and may have
annotations, and those of anonymous functions, which end at a colon. -/
structure ParamForm where
  /-- A parameter. -/
  param : Item
  /-- The token that ends the list. -/
  close : String
  /-- A parameter without default and its separator. -/
  plain : Rule
  /-- A parameter with default and its separator. -/
  default : Rule
  /-- A parameter with or without default and its separator. -/
  either : Rule
  /-- Parameters without default up to the slash. -/
  slashPlain : Rule
  /-- Parameters up to the slash, the last with a default. -/
  slashDefault : Rule
  /-- The parameters from the star on. -/
  starEtc : Rule
  /-- The parameter behind the double star. -/
  kwds : Rule
  /-- Parameters with defaults before one without. -/
  badHelper : Rule
  /-- A faulty star. -/
  badStarEtc : Rule
  /-- A faulty double star. -/
  badKwds : Rule

/-- Parameters of definitions. -/
def definedParams : ParamForm where
  param := use .param
  close := ")"
  plain := .paramPlain
  default := .paramDefault
  either := .paramMaybe
  slashPlain := .slashPlain
  slashDefault := .slashDefault
  starEtc := .starEtc
  kwds := .kwds
  badHelper := .badParametersHelper
  badStarEtc := .badStarEtc
  badKwds := .badKwds

/-- Parameters of anonymous functions. -/
def lambdaParams : ParamForm where
  param := name
  close := ":"
  plain := .lambdaParamPlain
  default := .lambdaParamDefault
  either := .lambdaParamMaybe
  slashPlain := .lambdaSlashPlain
  slashDefault := .lambdaSlashDefault
  starEtc := .lambdaStarEtc
  kwds := .lambdaKwds
  badHelper := .badLambdaHelper
  badStarEtc := .badLambdaStarEtc
  badKwds := .badLambdaKwds

namespace ParamForm

variable (f : ParamForm)

/-- Items before a comma, or of the end of the list. -/
def separated (items : List Item) : List (List Item) :=
  [items ++ [op ","], items ++ [.ahead [[op f.close]]]]

/-- A whole parameter list. -/
def list : List (List Item) :=
  let plains := [use f.plain, many [use f.plain]]
  let defaults := [use f.default, many [use f.default]]
  let rest := maybe [use f.starEtc]
  [[use f.slashPlain, many [use f.plain], many [use f.default], rest],
   [use f.slashDefault, many [use f.default], rest],
   plains ++ [many [use f.default], rest],
   defaults ++ [rest],
   [use f.starEtc]]

/-- Parameters without default up to the slash. -/
def plainSlash : List (List Item) := f.separated [use f.plain, many [use f.plain], op "/"]

/-- Parameters up to the slash, the last with a default. -/
def defaultSlash : List (List Item) :=
  f.separated [many [use f.plain], use f.default, many [use f.default], op "/"]

/-- The parameters from the star on; `hinted` adds a form with an unpacked annotation. -/
def star (hinted : List (List Item)) : List (List Item) :=
  [[use f.badStarEtc],
   [op "*", use f.plain, many [use f.either], maybe [use f.kwds]]] ++
  hinted ++
  [[op "*", op ",", use f.either, many [use f.either], maybe [use f.kwds]],
   [use f.kwds]]

/-- The parameter behind the double star. -/
def doubleStar : List (List Item) := [[use f.badKwds], [op "**", use f.plain]]

/-- Parameters with defaults before one without. -/
def helper : List (List Item) := [[use f.slashDefault], [use f.default, many [use f.default]]]

/-- Faults of a whole parameter list; `grouped` is what may not stand in parentheses. -/
def bad (grouped : List Item) : List (List Item) :=
  let slash : List (List Item) := [[use f.slashPlain], [use f.slashDefault]]
  let eithers := many [use f.either]
  [[many [use f.plain], use f.badHelper, .held (use f.plain), .blame .held],
   [many [use f.plain], .held (op "(")] ++ grouped ++ [maybe [op ","], op ")", .blame .held],
   [.held (op "/"), op ",", .blame .held],
   [.choice slash, eithers, .held (op "/"), .blame .held],
   [.maybe slash, eithers, op "*", .choice [[op ","], [use f.plain]], eithers, .held (op "/"),
    .blame .held],
   [use f.either, eithers, op "/", .held (op "*"), .blame .held]]

/-- Faults at the star. -/
def badStar : List (List Item) :=
  let separator : Item := .choice [[use f.plain], [op ","]]
  [[.held (op "*"), .choice [[op f.close], [op ",", .choice [[op f.close], [op "**"]]]],
    .blame .held],
   [op "*", f.param, .held (op "="), .blame .held],
   [op "*", separator, many [use f.either], .held (op "*"), separator, .blame .held]]

/-- Faults at the double star. -/
def badDoubleStar : List (List Item) :=
  [[op "**", f.param, .held (op "="), .blame .held],
   [op "**", f.param, op ",", .held f.param, .blame .held],
   [op "**", f.param, op ",", .held (ops ["*", "**", "/"]), .blame .held]]

end ParamForm

/-- Tokens that go on with a member access, call or subscript. -/
def goesOn : Item := ops ["(", "[", "."]

/-- What may follow a primary. -/
def suffixes : List (List Item) :=
  [[op ".", name], [use .genExp], [op "(", maybe [use .arguments], op ")"],
   [op "[", use .slices, op "]"]]

/-- A member or element as a target. -/
def memberForms : List (List Item) :=
  [[use .memberPrimary, op ".", name, .notAhead [[goesOn]]],
   [use .memberPrimary, op "[", use .slices, op "]", .notAhead [[goesOn]]]]

/-- Binary operators of one level. -/
def level (operand : Rule) (texts : List String) : List (List Item) :=
  [[use operand, many [ops texts, use operand]]]

/-- Operands joined by a keyword. -/
def joinedBy (operand : Rule) (keyword : String) : List (List Item) :=
  [[use operand, word keyword, use operand, many [word keyword, use operand]], [use operand]]

/-- A list that is a tuple as soon as it has a comma. -/
def tupleForms (item : Rule) : List (List Item) :=
  [[use item, op ",", use item, many [op ",", use item], maybe [op ","]],
   [use item, op ","],
   [use item]]

/-- The `async` keyword, or nothing. -/
def maybeAsync : Item := maybe [word "async"]

/-- Context managers of a `with` statement, each read by `item`. -/
def managers (item : Rule) : List Item :=
  listed (.choice [[use item, maybe [word "as", use .starTarget]]])

/-- The end of an item of a `with` statement. -/
def itemEnds : Item := .ahead [[ops [",", ")", ":"]]]

/-- Rules of statements. -/
def statementRules : Rule → List (List Item)
  | .file => [[many [use .statement], finish]]
  | .statement => [[use .compoundStmt], [use .simpleStmts]]
  | .simpleStmts =>
    [[use .simpleStmt, .notAhead [[op ";"]], newline],
     [use .simpleStmt, many [op ";", use .simpleStmt], maybe [op ";"], newline]]
  | .simpleStmt =>
    [[use .assignment], [use .starExpressions], [use .returnStmt], [use .importName],
     [use .importFrom], [use .raiseStmt], [word "pass"], [use .delStmt], [use .yieldExpr],
     [use .assertStmt], [word "break"], [word "continue"], [use .scopeStmt]]
  | .compoundStmt =>
    [[.ahead [[word "def"], [op "@"], [word "async"]], use .functionDef],
     [.ahead [[word "if"]], use .ifStmt],
     [.ahead [[word "class"], [op "@"]], use .classDef],
     [.ahead [[word "with"], [word "async"]], use .withStmt],
     [.ahead [[word "for"], [word "async"]], use .forStmt],
     [.ahead [[word "try"]], use .tryStmt],
     [.ahead [[word "while"]], use .whileStmt],
     [use .matchStmt]]
  | .assignment =>
    [[name, op ":", use .expression, maybe [op "=", use .assigned]],
     [.choice [[op "(", use .singleTarget, op ")"], [use .memberTarget]], op ":", use .expression,
      maybe [op "=", use .assigned]],
     [use .starTargets, op "=", many [use .starTargets, op "="], use .assigned,
      .notAhead [[op "="]]],
     [use .singleTarget, use .updateOp, .cut, use .assigned],
     [use .badAssignment]]
  | .assigned => [[use .yieldExpr], [use .starExpressions]]
  | .updateOp =>
    [[ops ["+=", "-=", "*=", "@=", "/=", "%=", "&=", "|=", "^=", "<<=", ">>=", "**=", "//="]]]
  | .returnStmt => [[word "return", maybe [use .starExpressions]]]
  | .raiseStmt =>
    [[word "raise", use .expression, maybe [word "from", use .expression]], [word "raise"]]
  | .scopeStmt => [oneOf [isWord "global", isWord "nonlocal"] :: listed name]
  | .delStmt =>
    [[word "del", use .delTargets, .ahead [[op ";"], [newline]]], [use .badDel]]
  | .assertStmt => [[word "assert", use .expression, maybe [op ",", use .expression]]]
  | .importName => [word "import" :: listed (use .dottedAlias)]
  | .importFrom =>
    [[word "from", many [ops [".", "..."]], use .dotted, word "import", use .importTargets],
     [word "from", ops [".", "..."], many [ops [".", "..."]], word "import", use .importTargets]]
  | .importTargets =>
    [[op "("] ++ listedComma (use .importAlias) ++ [op ")"],
     listed (use .importAlias) ++ [.notAhead [[op ","]]],
     [op "*"],
     [use .badImportTargets]]
  | .importAlias => [[name, asName]]
  | .dottedAlias => [[use .dotted, asName]]
  | .dotted => [[name, many [op ".", name]]]
  | .block =>
    [[newline, indent, use .statement, many [use .statement], dedent], [use .simpleStmts],
     [use .badBlock]]
  | .decorators =>
    let one := [op "@", use .named, newline]
    [one ++ [many one]]
  | .classDef => [[use .decorators, use .classBody], [use .classBody]]
  | .classBody =>
    [[use .badClass],
     [word "class", name, maybe [op "(", maybe [use .arguments], op ")"], op ":", use .block]]
  | .functionDef => [[use .decorators, use .functionBody], [use .functionBody]]
  | .functionBody =>
    [[use .badFunction],
     [maybeAsync, word "def", name, .forced (isOp "("), maybe [use .params], op ")",
      maybe [op "->", use .expression], .forced (isOp ":"), use .block]]
  | .ifStmt =>
    let head := [word "if", use .named, op ":", use .block]
    [[use .badIf], head ++ [use .elifStmt], head ++ [maybe [use .elseBlock]]]
  | .elifStmt =>
    let head := [word "elif", use .named, op ":", use .block]
    [[use .badElif], head ++ [use .elifStmt], head ++ [maybe [use .elseBlock]]]
  | .elseBlock => [[use .badElse], [word "else", .forced (isOp ":"), use .block]]
  | .whileStmt =>
    [[use .badWhile], [word "while", use .named, op ":", use .block, maybe [use .elseBlock]]]
  | .forStmt =>
    [[use .badFor],
     [maybeAsync, word "for", use .starTargets, word "in", .cut, use .starExpressions,
      .forced (isOp ":"), use .block, maybe [use .elseBlock]],
     [use .badForTarget]]
  | .withStmt =>
    [[use .badWithIndent],
     [maybeAsync, word "with", op "("] ++ listedComma (use .withItem) ++ [op ")", op ":", use .block],
     [maybeAsync, word "with"] ++ listed (use .withItem) ++ [op ":", use .block],
     [use .badWith]]
  | .withItem =>
    [[use .expression, word "as", use .starTarget, itemEnds], [use .badWithItem],
     [use .expression]]
  | .tryStmt =>
    let head := [word "try", .forced (isOp ":"), use .block]
    let tail := [maybe [use .elseBlock], maybe [use .finallyBlock]]
    [[use .badTry],
     head ++ [use .finallyBlock],
     head ++ [use .exceptBlock, many [use .exceptBlock]] ++ tail,
     head ++ [use .exceptStarBlock, many [use .exceptStarBlock]] ++ tail]
  | .exceptBlock =>
    [[use .badExceptIndent],
     [word "except", use .expression, asName, op ":", use .block],
     [word "except", op ":", use .block],
     [use .badExcept]]
  | .exceptStarBlock =>
    [[use .badExceptStarIndent],
     [word "except", op "*", use .expression, asName, op ":", use .block],
     [use .badExcept]]
  | .finallyBlock => [[use .badFinally], [word "finally", .forced (isOp ":"), use .block]]
  | .matchStmt =>
    [[word "match", use .subject, op ":", newline, indent, use .caseBlock, many [use .caseBlock],
      dedent],
     [use .badMatch]]
  | .subject => [[use .starNamed, op ",", maybe [use .starNamedList]], [use .named]]
  | .caseBlock =>
    [[use .badCase], [word "case", use .patterns, maybe [use .guard], op ":", use .block]]
  | .guard => [[word "if", use .named]]
  | _ => []

/-- Rules of parameter lists. -/
def parameterRules : Rule → List (List Item)
  | .params => [[use .badParameters], [use .parameters]]
  | .parameters => definedParams.list
  | .slashPlain => definedParams.plainSlash
  | .slashDefault => definedParams.defaultSlash
  | .starEtc =>
    definedParams.star [[op "*", use .paramStarHint, many [use .paramMaybe], maybe [use .kwds]]]
  | .kwds => definedParams.doubleStar
  | .paramPlain => definedParams.separated [use .param]
  | .paramStarHint => definedParams.separated [name, op ":", use .starExpression]
  | .paramDefault => definedParams.separated [use .param, use .default]
  | .paramMaybe => definedParams.separated [use .param, maybe [use .default]]
  | .param => [[name, maybe [op ":", use .expression]]]
  | .default => [[op "=", use .expression], [use .badDefault]]
  | .lambdaParams => [[use .badLambdaParameters], [use .lambdaParameters]]
  | .lambdaParameters => lambdaParams.list
  | .lambdaSlashPlain => lambdaParams.plainSlash
  | .lambdaSlashDefault => lambdaParams.defaultSlash
  | .lambdaStarEtc => lambdaParams.star []
  | .lambdaKwds => lambdaParams.doubleStar
  | .lambdaParamPlain => lambdaParams.separated [name]
  | .lambdaParamDefault => lambdaParams.separated [name, use .default]
  | .lambdaParamMaybe => lambdaParams.separated [name, maybe [use .default]]
  | _ => []

/-- Rules of `case` patterns. -/
def patternRules : Rule → List (List Item)
  | .patterns => [[use .openSequence], [use .pattern]]
  | .pattern => [[use .asPattern], [use .orPattern]]
  | .asPattern => [[use .orPattern, word "as", use .captureTarget], [use .badAsPattern]]
  | .orPattern => [[use .closedPattern, many [op "|", use .closedPattern]]]
  | .closedPattern =>
    [[use .literalPattern], [use .captureTarget], [word "_"], [use .valuePattern],
     [use .groupPattern], [use .sequencePattern], [use .mappingPattern], [use .classPattern]]
  | .literalPattern | .literalKey =>
    [[use .signedNumber, .notAhead [[ops ["+", "-"]]]], [use .complexNumber], [use .strings],
     [oneOf [isWord "None", isWord "True", isWord "False"]]]
  | .complexNumber => [[maybe [op "-"], .real, ops ["+", "-"], .imaginary]]
  | .signedNumber => [[.number], [op "-", .number]]
  | .captureTarget => [[.notAhead [[word "_"]], name, .notAhead [[ops [".", "(", "="]]]]]
  | .member => [[name, op ".", name, many [op ".", name]]]
  | .nameOrAttr => [[name, many [op ".", name]]]
  | .valuePattern => [[use .member, .notAhead [[ops [".", "(", "="]]]]]
  | .groupPattern => [[op "(", .inner (use .pattern), op ")"]]
  | .sequencePattern =>
    [[op "[", maybe [use .maybeSequence], op "]"], [op "(", maybe [use .openSequence], op ")"]]
  | .openSequence => [[use .maybeStar, op ",", maybe [use .maybeSequence]]]
  | .maybeSequence => [listedComma (use .maybeStar)]
  | .maybeStar => [[use .starPattern], [use .pattern]]
  | .starPattern => [[op "*", use .captureTarget], [op "*", word "_"]]
  | .mappingPattern =>
    [[op "\x7b", op "\x7d"],
     [op "\x7b", use .doubleStarPattern, maybe [op ","], op "\x7d"],
     [op "\x7b", use .mappingItems, op ",", use .doubleStarPattern, maybe [op ","], op "\x7d"],
     [op "\x7b", use .mappingItems, maybe [op ","], op "\x7d"]]
  | .mappingItems => [listed (use .mappingItem)]
  | .mappingItem => [[.choice [[use .literalKey], [use .member]], op ":", use .pattern]]
  | .doubleStarPattern => [[op "**", use .captureTarget]]
  | .classPattern =>
    let head := [use .nameOrAttr, op "("]
    let close := [maybe [op ","], op ")"]
    [head ++ [op ")"],
     head ++ [use .positionalPatterns] ++ close,
     head ++ [use .keywordPatterns] ++ close,
     head ++ [use .positionalPatterns, op ",", use .keywordPatterns] ++ close,
     [use .badClassPattern]]
  | .positionalPatterns => [listed (use .pattern)]
  | .keywordPatterns => [listed (use .keywordPattern)]
  | .keywordPattern => [[name, op "=", use .pattern]]
  | _ => []

/-- Rules of expressions. -/
def expressionRules : Rule → List (List Item)
  | .expressions => tupleForms .expression
  | .expression =>
    [[use .badExpression], [use .badLegacy],
     [use .disjunction, word "if", use .disjunction, word "else", use .expression],
     [use .disjunction], [use .lambda]]
  | .bareExpression =>
    [[use .disjunction, word "if", use .disjunction, word "else", use .expression],
     [use .disjunction], [use .lambda]]
  | .yieldExpr =>
    [[word "yield", word "from", use .expression], [word "yield", maybe [use .starExpressions]]]
  | .starExpressions => tupleForms .starExpression
  | .starExpression => [[op "*", use .bitOr], [use .expression]]
  | .starNamedList => [listedComma (use .starNamed)]
  | .starNamed => [[op "*", use .bitOr], [use .named]]
  | .walrus => [[name, op ":=", .cut, use .expression]]
  | .named => [[use .walrus], [use .badNamed], [use .expression, .notAhead [[op ":="]]]]
  | .disjunction => joinedBy .conjunction "or"
  | .conjunction => joinedBy .inversion "and"
  | .inversion => [[word "not", use .inversion], [use .comparison]]
  | .comparison =>
    [[use .bitOr, use .comparisonPair, many [use .comparisonPair]], [use .bitOr]]
  | .comparisonPair =>
    [[ops ["==", "!=", "<=", "<", ">=", ">"], use .bitOr], [word "not", word "in", use .bitOr],
     [word "in", use .bitOr], [word "is", word "not", use .bitOr], [word "is", use .bitOr]]
  | .bitOr => level .bitXor ["|"]
  | .bitXor => level .bitAnd ["^"]
  | .bitAnd => level .shift ["&"]
  | .shift => level .sum ["<<", ">>"]
  | .sum => level .term ["+", "-"]
  | .term => level .factor ["*", "/", "//", "%", "@"]
  | .factor => [[ops ["+", "-", "~"], use .factor], [use .power]]
  | .power => [[use .awaited, op "**", use .factor], [use .awaited]]
  | .awaited => [[word "await", use .primary], [use .primary]]
  | .primary => [[use .atom, .many suffixes]]
  | .slices =>
    [[use .slice, .notAhead [[op ","]]],
     listedComma (.choice [[use .slice], [use .starredArg]])]
  | .slice =>
    [[maybe [use .expression], op ":", maybe [use .expression],
      maybe [op ":", maybe [use .expression]]],
     [use .named]]
  | .atom =>
    [[name], [oneOf [isWord "True", isWord "False", isWord "None"]], [use .strings], [.number],
     [.ahead [[op "("]], .choice [[use .tuple], [use .group], [use .genExp]]],
     [.ahead [[op "["]], .choice [[use .list], [use .listComp]]],
     [.ahead [[op "\x7b"]], .choice [[use .dict], [use .set], [use .dictComp], [use .setComp]]],
     [op "..."]]
  | .group =>
    [[op "(", .inner (.choice [[use .yieldExpr], [use .named]]), op ")"], [use .badGroup]]
  | .lambda => [[word "lambda", maybe [use .lambdaParams], op ":", use .expression]]
  | .strings => [[.literals]]
  | .list => [[op "[", maybe [use .starNamedList], op "]"]]
  | .tuple =>
    [[op "(", maybe [use .starNamed, op ",", maybe [use .starNamedList]], op ")"]]
  | .set => [[op "\x7b", use .starNamedList, op "\x7d"]]
  | .dict =>
    [[op "\x7b", maybe [use .pairs], op "\x7d"], [op "\x7b", use .badPairs, op "\x7d"]]
  | .pairs => [listedComma (use .pairOrMapping)]
  | .pairOrMapping => [[op "**", use .bitOr], [use .pair]]
  | .pair => [[use .expression, op ":", use .expression]]
  | .generators => [[use .generator, many [use .generator]]]
  | .generator =>
    [[maybeAsync, word "for", use .starTargets, word "in", .cut, use .disjunction,
      many [word "if", use .disjunction]],
     [use .badForTarget]]
  | .listComp => [[op "[", use .named, use .generators, op "]"], [use .badComprehension]]
  | .setComp => [[op "\x7b", use .named, use .generators, op "\x7d"], [use .badComprehension]]
  | .genExp =>
    [[op "(", .choice [[use .walrus], [use .expression, .notAhead [[op ":="]]]], use .generators,
      op ")"],
     [use .badComprehension]]
  | .dictComp => [[op "\x7b", use .pair, use .generators, op "\x7d"], [use .badDictComp]]
  | .arguments => [[use .args, maybe [op ","], .ahead [[op ")"]]], [use .badArguments]]
  | .args =>
    let positional : Item := .choice
      [[use .starredArg],
       [.choice [[use .walrus], [use .expression, .notAhead [[op ":="]]]], .notAhead [[op "="]]]]
    [listed positional ++ [maybe [op ",", use .kwargs]], [use .kwargs]]
  | .kwargs =>
    [listed (use .kwargOrStarred) ++ [op ","] ++ listed (use .kwargOrMapping),
     listed (use .kwargOrStarred),
     listed (use .kwargOrMapping)]
  | .starredArg => [[op "*", use .expression]]
  | .kwargOrStarred => [[use .badKwarg], [name, op "=", use .expression], [use .starredArg]]
  | .kwargOrMapping => [[use .badKwarg], [name, op "=", use .expression], [op "**", use .expression]]
  | _ => []

/-- Rules of targets. -/
def targetRules : Rule → List (List Item)
  | .starTargets =>
    [[use .starTarget, .notAhead [[op ","]]],
     [use .starTarget, many [op ",", use .starTarget], maybe [op ","]]]
  | .starTargetTuple =>
    [[use .starTarget, op ",", use .starTarget, many [op ",", use .starTarget], maybe [op ","]],
     [use .starTarget, op ","]]
  | .starTarget => [[op "*", .notAhead [[op "*"]], use .starTarget], [use .targetAtomOr]]
  | .targetAtomOr => memberForms ++ [[use .starAtom]]
  | .starAtom =>
    [[name], [op "(", .inner (use .targetAtomOr), op ")"],
     [op "(", maybe [use .starTargetTuple], op ")"],
     [op "[", maybe (listedComma (use .starTarget)), op "]"]]
  | .singleTarget => [[use .memberTarget], [name], [op "(", .inner (use .singleTarget), op ")"]]
  | .memberTarget => memberForms
  | .memberPrimary =>
    [[use .atom, .ahead [[goesOn]], .many (suffixes.map (· ++ [.ahead [[goesOn]]]))]]
  | .delTargets => [listedComma (use .delTarget)]
  | .delTarget => memberForms ++ [[use .delAtom]]
  | .delAtom =>
    [[name], [op "(", .inner (use .delTarget), op ")"], [op "(", maybe [use .delTargets], op ")"],
     [op "[", maybe [use .delTargets], op "]"]]
  | _ => []

/-- Faulty expressions. -/
def badExpressionRules : Rule → List (List Item)
  | .badArguments =>
    [[.held (use .args), op ",", op "*", .blame .held],
     [.held (use .expression), use .generators, op ",",
      .maybe [[use .args], [use .expression, use .generators]], .blame .held],
     [.held name, op "=", use .expression, use .generators, .blame .held],
     [.held (use .args), use .generators, .blame .generatorArgument],
     [use .args, op ",", .held (use .expression), use .generators, .blame .held],
     [use .args, op ",", use .args, .blame .furthest]]
  | .badKwarg =>
    [[.held (oneOf [isWord "True", isWord "False", isWord "None"]), op "=", .blame .held],
     [.held name, op "=", use .expression, use .generators, .blame .held],
     [.notAhead [[name, op "="]], .held (use .expression), op "=", .blame .held]]
  | .badLegacy =>
    [[.held name, .notAhead [[op "("]], use .starExpressions, .blame .oldStatement]]
  | .badExpression =>
    [[.notAhead [[name, .token (·.kind == .string)],
        [oneOf [isWord "match", isWord "case", isWord "_"]]],
      .held (use .disjunction), .lenient .bareExpression, .blame .neighbours],
     [.held (use .disjunction), word "if", use .disjunction,
      .notAhead [[word "else"], [op ":"]], .blame .held]]
  | .badNamed =>
    [[.held (use .expression), op ":=", use .expression, .blame .held],
     [.held name, op "=", use .bitOr, .notAhead [[ops ["=", ":="]]], .blame .held],
     [.notAhead [[use .list], [use .tuple], [use .genExp],
        [oneOf [isWord "True", isWord "None", isWord "False"]]],
      .held (use .bitOr), op "=", use .bitOr, .notAhead [[ops ["=", ":="]]], .blame .held]]
  | .badGroup =>
    [[op "(", .held (use .starredArg), op ")", .blame .held],
     [op "(", .held (op "**"), use .expression, op ")", .blame .held]]
  | .badComprehension =>
    [[ops ["[", "(", "\x7b"], .held (use .starredArg), use .generators, .blame .held],
     [ops ["[", "\x7b"], .held (use .starNamed), op ",", use .starNamedList, use .generators,
      .blame .held],
     [ops ["[", "\x7b"], .held (use .starNamed), op ",", use .generators, .blame .held]]
  | .badDictComp =>
    [[op "\x7b", .held (op "**"), use .bitOr, use .generators, op "\x7d", .blame .held]]
  | .badPairs =>
    [listed (use .pairOrMapping) ++ [op ",", use .badPair],
     [use .expression, op ":", .held (op "*"), use .bitOr, .blame .held],
     [use .expression, .held (op ":"), .ahead [[ops ["\x7d", ","]]], .blame .held]]
  | .badPair =>
    [[.held (use .expression), .notAhead [[op ":"]], .blame .held],
     [use .expression, op ":", .held (op "*"), use .bitOr, .blame .held],
     [use .expression, .held (op ":"), .ahead [[ops ["\x7d", ","]]], .blame .held]]
  | .badForTarget =>
    [[maybeAsync, word "for", .held (use .starExpressions), .blame (.target .looped)]]
  | .badParameters => definedParams.bad [use .paramPlain, many [use .paramPlain]]
  | .badParametersHelper => definedParams.helper
  | .badLambdaParameters => lambdaParams.bad (listed name)
  | .badLambdaHelper => lambdaParams.helper
  | .badDefault => [[.held (op "="), .ahead [[op ")"], [op ","]], .blame .held]]
  | .badStarEtc => definedParams.badStar
  | .badLambdaStarEtc => lambdaParams.badStar
  | .badKwds => definedParams.badDoubleStar
  | .badLambdaKwds => lambdaParams.badDoubleStar
  | _ => []

/-- Faulty statements. -/
def badStatementRules : Rule → List (List Item)
  | .badAssignment =>
    [[.held (use .badHintTarget), op ":", use .expression, .blame .held],
     [.held (use .starNamed), op ",", many [use .starNamedList], op ":", use .expression,
      .blame .held],
     [.held (use .expression), op ":", use .expression, .blame .held],
     [many [use .starTargets, op "="], .held (use .starExpressions), op "=",
      .blame (.target .assigned)],
     [many [use .starTargets, op "="], .held (use .yieldExpr), op "=", .blame .held],
     [.held (use .starExpressions), use .updateOp, use .assigned, .blame .held]]
  | .badHintTarget =>
    [[use .list], [use .tuple], [op "(", .inner (use .badHintTarget), op ")"]]
  | .badDel => [[word "del", .held (use .starExpressions), .blame (.target .deleted)]]
  | .badBlock => [[newline, notIndent, .blame .furthest]]
  | .badWithItem =>
    [[use .expression, word "as", .held (use .expression), itemEnds, .blame (.target .assigned)]]
  | .badImportTargets => [listed (use .importAlias) ++ [op ",", newline, .blame .furthest]]
  | .badWith =>
    [[maybeAsync, word "with"] ++ managers .expression ++ [newline, .blame .furthest],
     [maybeAsync, word "with", op "("] ++ managers .expressions ++
       [maybe [op ","], op ")", newline, .blame .furthest]]
  | .badWithIndent =>
    [[maybeAsync, word "with"] ++ managers .expression ++ noBlock,
     [maybeAsync, word "with", op "("] ++ managers .expressions ++ [maybe [op ","], op ")"] ++
       noBlock]
  | .badTry =>
    [word "try" :: noBlock,
     [word "try", op ":", use .block, .notAhead [[word "except"], [word "finally"]],
      .blame .furthest],
     [word "try", op ":", many [use .block],
      .choice [[use .exceptBlock, many [use .exceptBlock], use .exceptStarBlock],
        [use .exceptStarBlock, many [use .exceptStarBlock], use .exceptBlock]],
      many [use .block], .blame .furthest]]
  | .badExcept =>
    [[word "except", maybe [op "*"], .held (use .expression), op ",", use .expressions, asName,
      op ":", .blame .held],
     [word "except", maybe [op "*"], use .expression, asName, newline, .blame .furthest],
     [word "except", newline, .blame .furthest],
     [word "except", op "*", .choice [[newline], [op ":"]], .blame .furthest]]
  | .badFinally => [word "finally" :: noBlock]
  | .badExceptIndent =>
    [[word "except", use .expression, asName] ++ noBlock, word "except" :: noBlock]
  | .badExceptStarIndent => [[word "except", op "*", use .expression, asName] ++ noBlock]
  | .badMatch =>
    [[word "match", use .subject, newline, .blame .furthest],
     [word "match", use .subject] ++ noBlock]
  | .badCase =>
    [[word "case", use .patterns, maybe [use .guard], newline, .blame .furthest],
     [word "case", use .patterns, maybe [use .guard]] ++ noBlock]
  | .badAsPattern =>
    [[use .orPattern, word "as", .held (word "_"), .blame .held],
     [use .orPattern, word "as", .notAhead [[name]], .held (use .expression), .blame .held]]
  | .badClassPattern =>
    [[use .nameOrAttr, op "(", .held (use .badClassArguments), .blame .held]]
  | .badClassArguments =>
    [[maybe [use .positionalPatterns, op ","], use .keywordPatterns, op ",",
      .inner (use .positionalPatterns)]]
  | .badIf =>
    [[word "if", use .named, newline, .blame .furthest], [word "if", use .named] ++ noBlock]
  | .badElif =>
    [[word "elif", use .named, newline, .blame .furthest], [word "elif", use .named] ++ noBlock]
  | .badElse => [word "else" :: noBlock]
  | .badWhile =>
    [[word "while", use .named, newline, .blame .furthest], [word "while", use .named] ++ noBlock]
  | .badFor =>
    [[maybeAsync, word "for", use .starTargets, word "in", use .starExpressions] ++ noBlock]
  | .badFunction =>
    [[maybeAsync, word "def", name, op "(", maybe [use .params], op ")",
      maybe [op "->", use .expression]] ++ noBlock]
  | .badClass =>
    let head := [word "class", name, maybe [op "(", maybe [use .arguments], op ")"]]
    [head ++ [newline, .blame .furthest], head ++ noBlock]
  | _ => []

/-- The alternatives of a rule. -/
def alternatives (r : Rule) : List (List Item) :=
  statementRules r ++ parameterRules r ++ patternRules r ++ expressionRules r ++ targetRules r ++
    badExpressionRules r ++ badStatementRules r

end ContextLint.Source.Diagnosis
