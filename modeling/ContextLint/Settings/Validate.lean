import ContextLint.Data.Value
import ContextLint.Settings.Basic
import ContextLint.Text.Blank
import ContextLint.Text.Utf8

/-!
# Checked settings

Settings are built from named values. Every field that is given is checked; names are trimmed, and
neither they nor the two sets that the rule cannot do without may be empty. All issues are reported
together: those of the fields in their fixed order, then the unknown names in the order in which
they are given.
-/

namespace ContextLint

open Data Text

/-- What is wrong with a setting. -/
inductive SettingFault where
  /-- A name that is blank. -/
  | blank
  /-- A set of methods without a name. -/
  | noMethod
  /-- Something else where a text is needed. -/
  | notText
  /-- Bytes or half characters that are no text. -/
  | notUnicode
  /-- Something else where a set is needed. -/
  | notSet
  | malformedCode
  /-- A name that is no setting. -/
  | unknownName
  deriving DecidableEq, Repr, Inhabited

namespace SettingFault

/-- Short code of a fault. -/
def code : SettingFault → String
  | blank | noMethod => "value_error"
  | notText => "string_type"
  | notUnicode => "string_unicode"
  | notSet => "frozen_set_type"
  | malformedCode => "string_pattern_mismatch"
  | unknownName => "extra_forbidden"

/-- The fault as text. -/
def message : SettingFault → String
  | blank => "Value error, must not be empty"
  | noMethod => "Value error, must name at least one method"
  | notText => "Input should be a valid string"
  | notUnicode => "Input should be a valid string, unable to parse raw data as a unicode string"
  | notSet => "Input should be a valid frozenset"
  | malformedCode => "String should match pattern '^[A-Z]\x7b1,3\x7d[0-9]\x7b3\x7d$'"
  | unknownName => "Extra inputs are not permitted"

end SettingFault

/-- A fault and the setting that has it. -/
structure SettingIssue where
  setting : String
  /-- Position in a set. -/
  index : Option Nat := none
  /-- What is wrong. -/
  fault : SettingFault
  deriving DecidableEq, Repr, Inhabited

/-- A value with the issues found on the way to it; it counts only without issues. -/
structure Checked (α : Type) where
  issues : List SettingIssue
  value : α
  deriving Inhabited

/-- Put a name into a sorted list of names. -/
def insertName (name : String) : List String → List String
  | [] => [name]
  | n :: rest =>
    if name < n then name :: n :: rest
    else if name = n then n :: rest
    else n :: insertName name rest

/-- The names, sorted and without repetition. -/
def sortNames (names : List String) : List String := names.foldr insertName []

namespace Settings

/-- The text that a value stands for. Names and codes are texts of whole characters. -/
def textOf : Value → Except SettingFault String
  | .str s => .ok s
  | .brokenText _ => .error .notUnicode
  | .bytes content =>
    match decode content with
    | .ok cs => .ok (String.ofList cs)
    | .error _ => .error .notUnicode
  | _ => .error .notText

/-- The code points of the text that a value stands for, half characters included. -/
def pointsOf : Value → Except SettingFault (List Nat)
  | .brokenText ps => .ok ps
  | v => (textOf v).map points

/-- The members of a value that stands for a set. -/
def membersOf : Value → Option (List Value)
  | .list items | .set items | .tuple items => some items
  | _ => none

/-- Check a value that is read as a text. -/
def checkText {α : Type} (read : Value → Except SettingFault α) (name : String) (default : α)
    (value : Option Value) : Checked α :=
  match value with
  | none => ⟨[], default⟩
  | some v =>
    match read v with
    | .ok s => ⟨[], s⟩
    | .error fault => ⟨[⟨name, none, fault⟩], default⟩

/-- Check a text that must not be blank. -/
def checkName (name default : String) (value : Option Value) : Checked String :=
  let c := checkText textOf name default value
  if c.issues.isEmpty then
    let trimmed := trimString c.value
    if trimmed.isEmpty then ⟨[⟨name, none, .blank⟩], default⟩ else ⟨[], trimmed⟩
  else c

/-- The code has one to three capital letters and three digits. -/
def isCode (code : List Char) : Bool :=
  let letters := code.takeWhile fun c => 'A' ≤ c && c ≤ 'Z'
  let digits := code.drop letters.length
  (1 ≤ letters.length && letters.length ≤ 3) && digits.length == 3 &&
    digits.all fun c => '0' ≤ c && c ≤ '9'

/-- Check a code. -/
def checkCode (name default : String) (value : Option Value) : Checked String :=
  let c := checkText textOf name default value
  if c.issues.isEmpty && !isCode c.value.toList then ⟨[⟨name, none, .malformedCode⟩], default⟩
  else c

/-- Check the members of a set from a position on. -/
def checkMembers (name : String) (index : Nat) : List Value → Checked (List String)
  | [] => ⟨[], []⟩
  | v :: rest =>
    let others := checkMembers name (index + 1) rest
    match textOf v with
    | .ok s => { others with value := s :: others.value }
    | .error fault => { others with issues := ⟨name, some index, fault⟩ :: others.issues }

/-- Check a set of names. -/
def checkSet (name : String) (default : List String) (value : Option Value) :
    Checked (List String) :=
  match value with
  | none => ⟨[], default⟩
  | some v =>
    match membersOf v with
    | none => ⟨[⟨name, none, .notSet⟩], default⟩
    | some items =>
      let c := checkMembers name 0 items
      { c with value := sortNames c.value }

/-- Check a set of methods, of which there must be one. -/
def checkMethods (name : String) (default : List String) (value : Option Value) :
    Checked (List String) :=
  let c := checkSet name default value
  if c.issues.isEmpty then
    let cleaned := sortNames ((c.value.map trimString).filter (!·.isEmpty))
    if cleaned.isEmpty then ⟨[⟨name, none, .noMethod⟩], default⟩ else ⟨[], cleaned⟩
  else c

/-- Names of the settings in their fixed order. -/
def names : List String :=
  ["rule_id", "subject", "rationale", "builder_type", "producer_config_type", "terminal_methods",
   "injection_method", "producing_methods", "finalizing_method", "capability_type",
   "capability_methods", "suppression_keyword", "flake8_code"]

/-- Settings from named values; what is not given keeps its default. -/
def ofValues (values : List (String × Value)) : Except (List SettingIssue) Settings :=
  let d : Settings := {}
  let ruleId := checkName "rule_id" d.ruleId (values.lookup "rule_id")
  let subject := checkText pointsOf "subject" d.subject (values.lookup "subject")
  let rationale := checkText pointsOf "rationale" d.rationale (values.lookup "rationale")
  let builderType := checkName "builder_type" d.builderType (values.lookup "builder_type")
  let producerConfigType :=
    checkName "producer_config_type" d.producerConfigType (values.lookup "producer_config_type")
  let terminalMethods :=
    checkMethods "terminal_methods" d.terminalMethods (values.lookup "terminal_methods")
  let injectionMethod :=
    checkName "injection_method" d.injectionMethod (values.lookup "injection_method")
  let producingMethods :=
    checkSet "producing_methods" d.producingMethods (values.lookup "producing_methods")
  let finalizingMethod :=
    checkName "finalizing_method" d.finalizingMethod (values.lookup "finalizing_method")
  let capabilityType :=
    checkName "capability_type" d.capabilityType (values.lookup "capability_type")
  let capabilityMethods :=
    checkMethods "capability_methods" d.capabilityMethods (values.lookup "capability_methods")
  let suppressionKeyword :=
    checkName "suppression_keyword" d.suppressionKeyword (values.lookup "suppression_keyword")
  let flake8Code := checkCode "flake8_code" d.flake8Code (values.lookup "flake8_code")
  let unknown := (values.filter fun v => !names.contains v.1).map fun v =>
    ({ setting := v.1, fault := .unknownName } : SettingIssue)
  let issues := ruleId.issues ++ subject.issues ++ rationale.issues ++ builderType.issues ++
    producerConfigType.issues ++ terminalMethods.issues ++ injectionMethod.issues ++
    producingMethods.issues ++ finalizingMethod.issues ++ capabilityType.issues ++
    capabilityMethods.issues ++ suppressionKeyword.issues ++ flake8Code.issues ++ unknown
  if issues.isEmpty then
    .ok {
      ruleId := ruleId.value
      subject := subject.value
      rationale := rationale.value
      builderType := builderType.value
      producerConfigType := producerConfigType.value
      terminalMethods := terminalMethods.value
      injectionMethod := injectionMethod.value
      producingMethods := producingMethods.value
      finalizingMethod := finalizingMethod.value
      capabilityType := capabilityType.value
      capabilityMethods := capabilityMethods.value
      suppressionKeyword := suppressionKeyword.value
      flake8Code := flake8Code.value }
  else .error issues

end Settings

end ContextLint
