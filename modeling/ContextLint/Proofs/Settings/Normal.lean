import ContextLint.Proofs.Settings.Valid

/-!
# Settings in normal form

Settings built from named values are in normal form: built again from the values of all their
fields, they come out the same. Named values are turned down exactly if a setting violates what is
asked of its kind or a name is unknown. Every violation is then listed once, as a whole value or as
a member of a set, in the fixed order of the settings and the order of members; the unknown names
follow. Names are texts of whole characters, so this is said of values without half characters in
names.
-/

namespace ContextLint

open Data Text

section NormalForms

variable {s : String} {names : List String}

private theorem trimString_eq_empty_iff : trimString s = "" ↔ Blank s.toList := by
  rw [trimString, ← trim_eq_nil_iff, ← String.toList_eq_nil_iff, String.toList_ofList]

private theorem IsName.trimString_eq (h : IsName s) : trimString s = s := by
  rw [trimString, h.2, String.ofList_toList]

private theorem sortNames_of_sorted (h : names.Pairwise (· < ·)) : sortNames names = names := by
  induction names with
  | nil => rfl
  | cons m rest ih =>
    obtain ⟨hfirst, hrest⟩ := List.pairwise_cons.mp h
    have htail : rest.foldr insertName [] = rest := ih hrest
    rw [sortNames, List.foldr_cons, htail]
    cases rest with
    | nil => rfl
    | cons n rest => rw [insertName, if_pos (hfirst n List.mem_cons_self)]

private theorem cleaned_eq_nil_iff :
    sortNames ((names.map trimString).filter (!·.isEmpty)) = [] ↔ ∀ s ∈ names, Blank s.toList := by
  simp only [List.eq_nil_iff_forall_not_mem, mem_sortNames]
  simp [trimString_eq_empty_iff]

/-- Cleaning a set of methods leaves it as it is. -/
theorem IsMethodSet.cleaned_eq (h : IsMethodSet names) :
    sortNames ((names.map trimString).filter (!·.isEmpty)) = names := by
  have htrim : names.map trimString = names :=
    (List.map_congr_left fun m hm => (h.names m hm).trimString_eq).trans (List.map_id _)
  have hkeep : names.filter (!·.isEmpty) = names := by
    rw [List.filter_eq_self]
    intro m hm
    simpa using (h.names m hm).1
  rw [htrim, hkeep, sortNames_of_sorted h.sorted]

/-- The form of a code is checked exactly as it is described. -/
theorem Settings.isCode_iff {code : List Char} : isCode code = true ↔ IsCode code := by
  refine ⟨isCode_sound, ?_⟩
  rintro ⟨letters, digits, rfl, hmin, hmax, hletters, hlength, hdigits⟩
  have hnone : digits.takeWhile (fun c => 'A' ≤ c && c ≤ 'Z') = [] := by
    rw [List.takeWhile_eq_nil_iff]
    intro hpos hletter
    have hdigit := (hdigits _ (List.getElem_mem hpos)).2
    simp only [Bool.and_eq_true, decide_eq_true_eq] at hletter
    exact absurd (hletter.1.trans hdigit) (by decide)
  have hall : ∀ c ∈ letters, ('A' ≤ c && c ≤ 'Z') = true := by simpa using hletters
  rw [isCode, List.takeWhile_append_of_pos hall, hnone]
  simpa [hmin, hmax, hlength] using hdigits

end NormalForms

/-- The kinds of settings. -/
inductive SettingKind where
  | text
  /-- A text that is not blank. -/
  | name
  | code
  /-- A set of texts. -/
  | set
  /-- A set of texts of which one is not blank. -/
  | methods
  deriving DecidableEq

variable {v : Value} {fault : SettingFault} {index : Option Nat}
  {violates base : Value → Option Nat → SettingFault → Prop} {issues : List SettingIssue}
  {start : Nat} {items : List Value} {s : String}

namespace Settings

/-- The settings in their fixed order, each with its kind. -/
def kinds : List (String × SettingKind) :=
  [("rule_id", .name), ("subject", .text), ("rationale", .text), ("builder_type", .name),
   ("producer_config_type", .name), ("terminal_methods", .methods), ("injection_method", .name),
   ("producing_methods", .set), ("finalizing_method", .name), ("capability_type", .name),
   ("capability_methods", .methods), ("suppression_keyword", .name), ("flake8_code", .code)]

/-- The value as a whole cannot be read. -/
def Unread {α : Type} (read : Value → Except SettingFault α) (v : Value) (index : Option Nat)
    (fault : SettingFault) : Prop :=
  index = none ∧ read v = .error fault

/-- The value is no set, or its member at a position cannot be read. -/
def UnreadSet {α : Type} (read : Value → Except SettingFault α) (v : Value) (index : Option Nat)
    (fault : SettingFault) : Prop :=
  membersOf v = none ∧ index = none ∧ fault = .notSet ∨
    ∃ items i m, membersOf v = some items ∧ index = some i ∧ items[i]? = some m ∧
      read m = .error fault

/-- The value is a blank text. -/
def IsBlank (v : Value) : Prop := ∃ s, textOf v = .ok s ∧ Blank s.toList

/-- The value is a set of blank texts. -/
def NoMethod (v : Value) : Prop := ∃ items, membersOf v = some items ∧ ∀ m ∈ items, IsBlank m

/-- The value, or its member at a position, is not what is asked of the kind. Half characters are
allowed in all texts but codes, and are not blank. -/
def Violates (kind : SettingKind) (v : Value) (index : Option Nat) (fault : SettingFault) : Prop :=
  match kind with
  | .text => Unread pointsOf v index fault
  | .name => Unread pointsOf v index fault ∨ index = none ∧ fault = .blank ∧ IsBlank v
  | .code => Unread textOf v index fault ∨ index = none ∧ fault = .malformedCode ∧
      ∃ s, textOf v = .ok s ∧ ¬ IsCode s.toList
  | .set => UnreadSet pointsOf v index fault
  | .methods => UnreadSet pointsOf v index fault ∨ index = none ∧ fault = .noMethod ∧ NoMethod v

/-- The value is a text with half characters. -/
def isBroken : Value → Bool
  | .brokenText _ => true
  | _ => false

/-- There are no half characters in the value or in a member of it. -/
def IsWhole (v : Value) : Prop := ∀ m ∈ v :: (membersOf v).getD [], isBroken m = false

instance (v : Value) : Decidable (IsWhole v) := inferInstanceAs (Decidable (∀ m ∈ _, _))

/-- No half characters are given in the place of a name. -/
def WholeNames (values : List (String × Value)) : Prop :=
  ∀ field ∈ kinds, field.2 ≠ .text ∧ field.2 ≠ .code → ∀ v ∈ values.lookup field.1, IsWhole v

instance (values : List (String × Value)) : Decidable (WholeNames values) :=
  inferInstanceAs (Decidable (∀ field ∈ _, _ → ∀ v ∈ List.lookup _ _, _))

/-- Without half characters a text is read by its code points if it is read at all. -/
theorem pointsOf_eq_error_iff (h : isBroken v = false) :
    pointsOf v = .error fault ↔ textOf v = .error fault := by
  have hpoints : pointsOf v = (textOf v).map points := by
    cases v with
    | brokenText ps => cases h
    | _ => rfl
  rw [hpoints]
  cases textOf v <;> simp [Except.map]

private theorem unread_pointsOf_iff (h : IsWhole v) :
    Unread pointsOf v index fault ↔ Unread textOf v index fault :=
  and_congr_right fun _ => pointsOf_eq_error_iff (h v List.mem_cons_self)

private theorem unreadSet_pointsOf_iff (h : IsWhole v) :
    UnreadSet pointsOf v index fault ↔ UnreadSet textOf v index fault := by
  refine or_congr_right (exists_congr fun items => exists_congr fun i => exists_congr fun m =>
    and_congr_right fun hitems => and_congr_right fun _ => and_congr_right fun hm => ?_)
  refine pointsOf_eq_error_iff (h m (List.mem_cons_of_mem _ ?_))
  rw [hitems]
  exact List.mem_of_getElem? hm

/-- The issues list the violations of a setting, those of members in their order. -/
structure Lists (name : String) (violates : Value → Option Nat → SettingFault → Prop)
    (value : Option Value) (issues : List SettingIssue) : Prop where
  mem : ∀ n index fault, ⟨n, index, fault⟩ ∈ issues ↔ n = name ∧ ∃ v ∈ value, violates v index fault
  sorted : issues.Pairwise (·.index < ·.index)

section Checks

variable {name default : String} {defaults : List String} {value : Option Value} {v : Value}

private theorem lists_none (name : String) (violates : Value → Option Nat → SettingFault → Prop) :
    Lists name violates none [] :=
  ⟨by simp, List.Pairwise.nil⟩

private theorem Lists.congr (h : Lists name base value issues)
    (hkind : ∀ v ∈ value, ∀ {index fault}, violates v index fault ↔ base v index fault) :
    Lists name violates value issues := by
  refine ⟨fun n index fault => (h.mem n index fault).trans ?_, h.sorted⟩
  exact and_congr_right fun _ => exists_congr fun v => and_congr_right fun hv => (hkind v hv).symm

/-- A further condition on the value as a whole, checked if there is no issue yet. -/
theorem Lists.extend {f : SettingFault} {p : Prop} {result : List SettingIssue}
    (h : Lists name base (some v) issues)
    (hkind : ∀ index fault,
      violates v index fault ↔ base v index fault ∨ index = none ∧ fault = f ∧ p)
    (hnew : p → issues = [] ∧ result = [⟨name, none, f⟩]) (hold : ¬ p → result = issues) :
    Lists name violates (some v) result := by
  have hmem := h.mem
  by_cases hp : p
  · obtain ⟨rfl, rfl⟩ := hnew hp
    have hclean : ∀ index fault, ¬ base v index fault := by simpa using hmem name
    refine ⟨?_, List.pairwise_singleton _ _⟩
    simp [hkind, hclean, hp]
  · rw [hold hp]
    exact ⟨by simpa [hkind, hp] using hmem, h.sorted⟩

private theorem lists_checkText {α : Type} (read : Value → Except SettingFault α) (name : String)
    (default : α) (value : Option Value) :
    Lists name (Unread read) value (checkText read name default value).issues := by
  cases value with
  | none => exact lists_none name _
  | some v =>
    cases h : read v with
    | ok s => refine ⟨?_, ?_⟩ <;> simp [checkText, Unread, h]
    | error fault =>
      refine ⟨?_, ?_⟩
      · simp [checkText, Unread, h, eq_comm (a := fault)]
      · simp [checkText, h]

private theorem lists_checkName (hdefault : IsName default) (hwhole : ∀ v ∈ value, IsWhole v) :
    Lists name (Violates .name) value (checkName name default value).issues := by
  cases value with
  | none =>
    simpa [checkName, checkText, hdefault.trimString_eq, hdefault.1] using
      lists_none name (Violates .name)
  | some v =>
    refine (lists_checkText textOf name default (some v)).extend
      (fun _ _ => or_congr_left (unread_pointsOf_iff (hwhole v rfl))) ?_ ?_
    · rintro ⟨s, hs, hblank⟩
      simp [checkName, checkText, hs, trimString_eq_empty_iff.mpr hblank]
    · intro hblank
      cases hs : textOf v with
      | error fault => simp [checkName, checkText, hs]
      | ok s =>
        have hne : trimString s ≠ "" := fun h => hblank ⟨s, hs, trimString_eq_empty_iff.mp h⟩
        simp [checkName, checkText, hs, hne]

private theorem lists_checkCode (hdefault : IsCode default.toList) :
    Lists name (Violates .code) value (checkCode name default value).issues := by
  cases value with
  | none =>
    simpa [checkCode, checkText, isCode_iff.mpr hdefault] using lists_none name (Violates .code)
  | some v =>
    refine (lists_checkText textOf name default (some v)).extend (fun _ _ => Iff.rfl) ?_ ?_
    · rintro ⟨s, hs, hcode⟩
      have hform : isCode s.toList = false := by simpa using mt isCode_iff.mp hcode
      simp [checkCode, checkText, hs, hform]
    · intro hcode
      cases hs : textOf v with
      | error fault => simp [checkCode, checkText, hs]
      | ok s =>
        have hform : isCode s.toList = true :=
          isCode_iff.mpr (not_not.mp fun h => hcode ⟨s, hs, h⟩)
        simp [checkCode, checkText, hs, hform]

private theorem mem_checkMembers {n : String} :
    ⟨n, index, fault⟩ ∈ (checkMembers name start items).issues ↔
      n = name ∧ ∃ i m, index = some (start + i) ∧ items[i]? = some m ∧
        textOf m = .error fault := by
  induction items generalizing start with
  | nil => simp [checkMembers]
  | cons v rest ih =>
    have hsplit : (∃ i m, index = some (start + i) ∧ (v :: rest)[i]? = some m ∧
        textOf m = .error fault) ↔ index = some start ∧ textOf v = .error fault ∨
          ∃ i m, index = some (start + 1 + i) ∧ rest[i]? = some m ∧ textOf m = .error fault := by
      rw [← Nat.or_exists_add_one]
      simp [Nat.add_comm, Nat.add_left_comm]
    rw [hsplit, checkMembers]
    cases h : textOf v with
    | ok s => simp [ih]
    | error f => simp [ih, and_or_left, eq_comm]

private theorem sorted_checkMembers (start : Nat) (items : List Value) :
    (checkMembers name start items).issues.Pairwise (·.index < ·.index) := by
  induction items generalizing start with
  | nil => exact List.Pairwise.nil
  | cons v rest ih =>
    rw [checkMembers]
    cases h : textOf v with
    | ok s => exact ih (start + 1)
    | error f =>
      refine List.pairwise_cons.mpr ⟨?_, ih (start + 1)⟩
      rintro ⟨n, index, fault⟩ hmem
      obtain ⟨-, i, -, rfl, -⟩ := mem_checkMembers.mp hmem
      exact Option.some_lt_some.mpr (by omega)

private theorem checkMembers_clean_iff :
    (checkMembers name start items).issues = [] ↔ ∀ m ∈ items, ∃ s, textOf m = .ok s := by
  induction items generalizing start with
  | nil => simp [checkMembers]
  | cons v rest ih =>
    rw [checkMembers]
    cases h : textOf v <;> simp [ih, h]

private theorem mem_value_checkMembers :
    s ∈ (checkMembers name start items).value ↔ ∃ m ∈ items, textOf m = .ok s := by
  induction items generalizing start with
  | nil => simp [checkMembers]
  | cons v rest ih =>
    rw [checkMembers]
    cases h : textOf v with
    | ok t => simp [ih, h, eq_comm]
    | error f => simp [ih, h]

private theorem lists_checkSet (name : String) (defaults : List String) (value : Option Value) :
    Lists name (UnreadSet textOf) value (checkSet name defaults value).issues := by
  cases value with
  | none => exact lists_none name _
  | some v =>
    unfold checkSet
    dsimp only
    cases h : membersOf v with
    | none => refine ⟨?_, ?_⟩ <;> simp [UnreadSet, h]
    | some items =>
      refine ⟨?_, sorted_checkMembers 0 items⟩
      simp [UnreadSet, h, mem_checkMembers]

private theorem noMethod_iff (name : String) (defaults : List String) : NoMethod v ↔
    (checkSet name defaults (some v)).issues = [] ∧
      ∀ s ∈ (checkSet name defaults (some v)).value, Blank s.toList := by
  cases hv : membersOf v with
  | none => simp [NoMethod, checkSet, hv]
  | some items =>
    simp only [NoMethod, IsBlank, checkSet, hv, checkMembers_clean_iff, mem_sortNames,
      mem_value_checkMembers, Option.some_inj, exists_eq_left']
    constructor
    · intro h
      refine ⟨fun m hm => (h m hm).imp fun _ hs => hs.1, ?_⟩
      rintro s ⟨m, hm, hs⟩
      obtain ⟨t, ht, hblank⟩ := h m hm
      rwa [← Except.ok.inj (ht.symm.trans hs)]
    · rintro ⟨htexts, hblank⟩ m hm
      obtain ⟨s, hs⟩ := htexts m hm
      exact ⟨s, hs, hblank s ⟨m, hm, hs⟩⟩

private theorem lists_checkMethods (hdefaults : IsMethodSet defaults)
    (hwhole : ∀ v ∈ value, IsWhole v) :
    Lists name (Violates .methods) value (checkMethods name defaults value).issues := by
  cases value with
  | none =>
    simpa [checkMethods, checkSet, hdefaults.cleaned_eq, hdefaults.nonempty] using
      lists_none name (Violates .methods)
  | some v =>
    refine (lists_checkSet name defaults (some v)).extend
      (fun _ _ => or_congr_left (unreadSet_pointsOf_iff (hwhole v rfl))) ?_ ?_
    · intro h
      obtain ⟨hclean, hblank⟩ := (noMethod_iff name defaults).mp h
      simp [checkMethods, hclean, cleaned_eq_nil_iff.mpr hblank]
    · intro h
      by_cases hclean : (checkSet name defaults (some v)).issues = []
      · have hkept := fun hblank => h ((noMethod_iff name defaults).mpr ⟨hclean, hblank⟩)
        simp [checkMethods, hclean, mt cleaned_eq_nil_iff.mp hkept]
      · simp [checkMethods, hclean]

end Checks

/-- One issue is listed before another: settings in their fixed order, members in theirs. -/
def Precedes (names : List String) (a b : SettingIssue) : Prop :=
  [a.setting, b.setting].Sublist names ∨ a.setting = b.setting ∧ a.index < b.index

/-- The issue is a violation by one of the settings. -/
def Violated (fields : List (String × SettingKind)) (values : List (String × Value))
    (issue : SettingIssue) : Prop :=
  ∃ kind v, (issue.setting, kind) ∈ fields ∧ values.lookup issue.setting = some v ∧
    Violates kind v issue.index issue.fault

/-- The issues are the violations by some settings, in the order of the settings. -/
structure ListsAll (values : List (String × Value)) (fields : List (String × SettingKind))
    (issues : List SettingIssue) : Prop where
  mem : ∀ issue, issue ∈ issues ↔ Violated fields values issue
  sorted : issues.Pairwise (Precedes (fields.map Prod.fst))

private theorem ListsAll.nil (values : List (String × Value)) : ListsAll values [] [] :=
  ⟨by simp [Violated], List.Pairwise.nil⟩

/-- The issues of a setting before the others. -/
theorem ListsAll.cons {values : List (String × Value)} {fields : List (String × SettingKind)}
    {name : String} {kind : SettingKind} {first : List SettingIssue}
    (hfirst : Lists name (Violates kind) (values.lookup name) first)
    (h : ListsAll values fields issues) :
    ListsAll values ((name, kind) :: fields) (first ++ issues) := by
  have hname {a : SettingIssue} (ha : a ∈ first) : a.setting = name :=
    ((hfirst.mem _ _ _).mp ha).1
  refine ⟨?_, ?_⟩
  · intro issue
    have hhead : issue ∈ first ↔ ∃ k v, (issue.setting, k) = (name, kind) ∧
        values.lookup issue.setting = some v ∧ Violates k v issue.index issue.fault := by
      rw [hfirst.mem issue.setting]
      constructor
      · rintro ⟨rfl, v, hv, hviolates⟩
        exact ⟨kind, v, rfl, hv, hviolates⟩
      · rintro ⟨_, v, hfield, hv, hviolates⟩
        obtain ⟨rfl, rfl⟩ := Prod.mk.inj hfield
        exact ⟨rfl, v, hv, hviolates⟩
    simp only [List.mem_append, hhead, h.mem, Violated, List.mem_cons, or_and_right, exists_or]
  · rw [List.map_cons, List.pairwise_append]
    refine ⟨hfirst.sorted.imp_of_mem fun ha hb hab => ?_, h.sorted.imp fun hab => ?_, ?_⟩
    · exact .inr ⟨(hname ha).trans (hname hb).symm, hab⟩
    · exact hab.imp (·.cons name) id
    · intro a ha b hb
      obtain ⟨kind, -, hkind, -⟩ := (h.mem b).mp hb
      have hmem : b.setting ∈ fields.map Prod.fst := List.mem_map_of_mem hkind
      rw [Precedes, hname ha]
      exact .inl ((List.singleton_sublist.mpr hmem).cons_cons name)

/-- The issues of names that are no settings. -/
def unknownIssues (values : List (String × Value)) : List SettingIssue :=
  (values.filter fun e => !names.contains e.1).map fun e => ⟨e.1, none, .unknownName⟩

/-- Without half characters in names, the issues are the violations and the unknown names. -/
theorem ofValues_spec {values : List (String × Value)} (h : WholeNames values) :
    ∃ listed, ListsAll values kinds listed ∧
      if listed ++ unknownIssues values = [] then ∃ s, ofValues values = .ok s
      else ofValues values = .error (listed ++ unknownIssues values) := by
  let d : Settings := {}
  have hd : d.Valid := valid_default
  have hnames := hd.identifiers
  simp only [identifiers, List.forall_mem_cons] at hnames
  obtain ⟨ruleId, builderType, producerConfigType, injectionMethod, finalizingMethod,
    capabilityType, suppressionKeyword, -⟩ := hnames
  have hname {name default : String} (hdefault : IsName default) (hmem : (name, .name) ∈ kinds) :
      Lists name (Violates .name) (values.lookup name)
        (checkName name default (values.lookup name)).issues :=
    lists_checkName hdefault (h _ hmem (by simp))
  have hmethods {name : String} {defaults : List String} (hdefaults : IsMethodSet defaults)
      (hmem : (name, .methods) ∈ kinds) :
      Lists name (Violates .methods) (values.lookup name)
        (checkMethods name defaults (values.lookup name)).issues :=
    lists_checkMethods hdefaults (h _ hmem (by simp))
  have hset {name : String} (defaults : List String) (hmem : (name, .set) ∈ kinds) :
      Lists name (Violates .set) (values.lookup name)
        (checkSet name defaults (values.lookup name)).issues :=
    (lists_checkSet name defaults _).congr fun v hv =>
      unreadSet_pointsOf_iff (h _ hmem (by simp) v hv)
  refine ⟨_, .cons (hname ruleId (by decide)) <|
    .cons (lists_checkText pointsOf "subject" d.subject _) <|
    .cons (lists_checkText pointsOf "rationale" d.rationale _) <|
    .cons (hname builderType (by decide)) <| .cons (hname producerConfigType (by decide)) <|
    .cons (hmethods hd.terminalMethods (by decide)) <| .cons (hname injectionMethod (by decide)) <|
    .cons (hset d.producingMethods (by decide)) <| .cons (hname finalizingMethod (by decide)) <|
    .cons (hname capabilityType (by decide)) <|
    .cons (hmethods hd.capabilityMethods (by decide)) <|
    .cons (hname suppressionKeyword (by decide)) <| .cons (lists_checkCode hd.flake8Code) <|
    .nil values, ?_⟩
  simp only [ofValues, unknownIssues, List.append_assoc, List.nil_append, List.isEmpty_iff]
  split_ifs
  · exact ⟨_, rfl⟩
  · rfl

/-- The value that stands for a text of code points. -/
def textValue (ps : List Nat) : Value :=
  if ps.all (Nat.isValidChar ·) then .str (String.ofList (ps.map Char.ofNat)) else .brokenText ps

/-- The values of all settings. -/
def toValues (s : Settings) : List (String × Value) :=
  let set (members : List String) : Value := .set (members.map .str)
  [("rule_id", .str s.ruleId), ("subject", textValue s.subject),
   ("rationale", textValue s.rationale), ("builder_type", .str s.builderType),
   ("producer_config_type", .str s.producerConfigType),
   ("terminal_methods", set s.terminalMethods), ("injection_method", .str s.injectionMethod),
   ("producing_methods", set s.producingMethods), ("finalizing_method", .str s.finalizingMethod),
   ("capability_type", .str s.capabilityType), ("capability_methods", set s.capabilityMethods),
   ("suppression_keyword", .str s.suppressionKeyword), ("flake8_code", .str s.flake8Code)]

section Values

variable {name default : String} {defaults members : List String}

private theorem pointsOf_textValue (ps : List Nat) : pointsOf (textValue ps) = .ok ps := by
  unfold textValue
  split_ifs with h
  · have hpoints : (ps.map Char.ofNat).map Char.toNat = ps := by
      rw [List.map_map]
      refine (List.map_congr_left fun n hn => ?_).trans (List.map_id _)
      have hvalid : n.isValidChar := by simpa using List.all_eq_true.mp h n hn
      change (Char.ofNat n).toNat = n
      rw [Char.ofNat, dif_pos hvalid]
      rfl
    change Except.ok (points (String.ofList (ps.map Char.ofNat))) = _
    rw [points, String.toList_ofList, hpoints]
  · rfl

private theorem checkName_str (h : IsName s) :
    checkName name default (some (.str s)) = ⟨[], s⟩ := by
  simp [checkName, checkText, textOf, h.trimString_eq, h.1]

private theorem checkSet_set (h : members.Pairwise (· < ·)) :
    checkSet name defaults (some (.set (members.map .str))) = ⟨[], members⟩ := by
  have hmembers (start : Nat) : checkMembers name start (members.map .str) = ⟨[], members⟩ := by
    clear h
    induction members generalizing start with
    | nil => rfl
    | cons m rest ih =>
      rw [List.map_cons, checkMembers, ih]
      rfl
  simp [checkSet, membersOf, hmembers, sortNames_of_sorted h]

private theorem checkMethods_set (h : IsMethodSet members) :
    checkMethods name defaults (some (.set (members.map .str))) = ⟨[], members⟩ := by
  simp [checkMethods, checkSet_set h.sorted, h.cleaned_eq, h.nonempty]

private theorem checkCode_str (h : IsCode s.toList) :
    checkCode name default (some (.str s)) = ⟨[], s⟩ := by
  simp [checkCode, checkText, textOf, isCode_iff.mpr h]

end Values

/-- Valid settings come out the same when they are built again from their values. -/
theorem ofValues_toValues {s : Settings} (h : s.Valid) : ofValues s.toValues = .ok s := by
  have hnames := h.identifiers
  simp only [identifiers, List.forall_mem_cons] at hnames
  simp [ofValues, toValues, List.lookup_cons, names, checkText, pointsOf_textValue, checkName_str,
    hnames, checkMethods_set h.terminalMethods, checkSet_set h.producingMethods,
    checkMethods_set h.capabilityMethods, checkCode_str h.flake8Code]

/-- Settings from named values are valid and in normal form. Named values without half characters in
names are turned down exactly if a setting is violated or a name is unknown, and then every
violation is listed once and in order, and behind them the unknown names. -/
theorem settings_normal_or_issues_listed (values : List (String × Value)) :
    (∀ s, ofValues values = .ok s → s.Valid ∧ ofValues s.toValues = .ok s) ∧
    (WholeNames values →
      ((∃ issues, ofValues values = .error issues) ↔
        (∃ issue, Violated kinds values issue) ∨ ∃ e ∈ values, e.1 ∉ names) ∧
      ∀ issues, ofValues values = .error issues →
        ∃ listed, issues = listed ++ unknownIssues values ∧
          (∀ issue, issue ∈ listed ↔ Violated kinds values issue) ∧
          listed.Pairwise (Precedes names)) := by
  refine ⟨?_, ?_⟩
  · intro s hs
    have hvalid := valid_of_ofValues hs
    exact ⟨hvalid, ofValues_toValues hvalid⟩
  · intro hwhole
    obtain ⟨listed, ⟨hmem, hsorted⟩, hspec⟩ := ofValues_spec hwhole
    have hissues : listed ++ unknownIssues values ≠ [] ↔
        (∃ issue, Violated kinds values issue) ∨ ∃ e ∈ values, e.1 ∉ names := by
      simp only [ne_eq, List.append_eq_nil_iff, not_and_or]
      simp [List.eq_nil_iff_forall_not_mem, ← hmem, unknownIssues]
    rw [← hissues]
    split_ifs at hspec with hnil
    · obtain ⟨s, hs⟩ := hspec
      exact ⟨by simp [hs, hnil], fun issues herror => by cases hs.symm.trans herror⟩
    · refine ⟨by simp [hspec, hnil], fun issues herror => ?_⟩
      exact ⟨_, Except.error.inj (herror.symm.trans hspec), hmem, hsorted⟩

namespace HalfCharacters

/-- Half a character in a text and in the code, a blank name, and a name that is no setting. -/
def values : List (String × Value) :=
  [("level", .null), ("flake8_code", .brokenText [0xD800]), ("subject", .brokenText [0xD800]),
   ("rule_id", .str " ")]

/-- The blank name and the code are listed before the unknown name; the text is accepted. -/
theorem issues_listed :
    WholeNames values ∧
      ofValues values = .error [⟨"rule_id", none, .blank⟩, ⟨"flake8_code", none, .notUnicode⟩,
        ⟨"level", none, .unknownName⟩] ∧
      ∃ listed, listed ++ unknownIssues values = [⟨"rule_id", none, .blank⟩,
          ⟨"flake8_code", none, .notUnicode⟩, ⟨"level", none, .unknownName⟩] ∧
        ∀ issue, issue ∈ listed ↔ Violated kinds values issue := by
  have hwhole : WholeNames values := by decide
  have herror : ofValues values = .error [⟨"rule_id", none, .blank⟩,
      ⟨"flake8_code", none, .notUnicode⟩, ⟨"level", none, .unknownName⟩] := by decide +kernel
  obtain ⟨listed, hlisted, hmem, -⟩ :=
    ((settings_normal_or_issues_listed values).2 hwhole).2 _ herror
  exact ⟨hwhole, herror, listed, hlisted.symm, hmem⟩

end HalfCharacters

end Settings

end ContextLint
