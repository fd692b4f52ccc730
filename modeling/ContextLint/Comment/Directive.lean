import ContextLint.Text.Blank

/-!
# Directives

A comment is a directive if, behind its hash signs, it starts with the keyword and a colon. The
rules it names follow, divided by commas; a further hash sign starts an explanation. A directive
that names no rule is none.
-/

namespace ContextLint.Comment

open Text

/-- The pieces of a text between the dividers, of which there is one more than dividers. -/
def pieces (divider : Char) : List Char → List (List Char)
  | [] => [[]]
  | c :: rest =>
    if c = divider then [] :: pieces divider rest
    else match pieces divider rest with
      | [] => [[c]]
      | piece :: more => (c :: piece) :: more

/-- The rules named in the body of a directive. -/
def ruleNames (body : List Char) : List (List Char) :=
  ((pieces ',' (body.takeWhile (· ≠ '#'))).map trim).filter (!·.isEmpty)

/-- The text of a comment without its hash signs. -/
def content (comment : List Char) : List Char := trim ((trim comment).dropWhile (· == '#'))

/-- The rules that a directive names; nothing if the comment is no directive. -/
def parseDirective (keyword comment : List Char) : Option (List (List Char)) :=
  let text := content comment
  if keyword.isPrefixOf text then
    match trimLeft (text.drop keyword.length) with
    | ':' :: body =>
      match ruleNames body with
      | [] => none
      | rules => some rules
    | _ => none
  else none

/-- The comment is a directive that names the rule. -/
def suppresses (keyword rule comment : List Char) : Bool :=
  match parseDirective keyword comment with
  | some rules => rules.contains rule
  | none => false

end ContextLint.Comment
