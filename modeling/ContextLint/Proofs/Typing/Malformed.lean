import ContextLint.Proofs.Typing.TextLength

/-!
# Malformed annotations

Resolving an annotation fails exactly if it is malformed: it holds a text with a null character or a
lone surrogate, or an optional or annotated form with an empty argument tuple, in a place that is
resolved. Any other annotation resolves, though perhaps to nothing.
-/

namespace ContextLint.Typing

open Source
open Text (isSurrogate)

section

variable {ε α β : Type} {x : Except ε α} {err : ε}

/-- A computation in two parts fails where the first or the second part does. -/
theorem bind_eq_error {f : α → Except ε β} :
    x >>= f = .error err ↔ x = .error err ∨ ∃ a, x = .ok a ∧ f a = .error err := by
  cases x with
  | error err' | ok a => simp [Bind.bind, Except.bind]

private theorem map_eq_error {f : α → β} : f <$> x = .error err ↔ x = .error err := by
  cases x with
  | error err' | ok a => simp [Functor.map, Except.map]

end

variable {points : List Nat} {text : List Char}

/-- Code points are a text if none of them is a lone surrogate or null. -/
theorem annotationText_eq_ok :
    annotationText points = .ok text ↔
      (∀ n ∈ points, isSurrogate n = false) ∧ 0 ∉ points ∧ points.map Char.ofNat = text := by
  unfold annotationText Text.surrogates?
  cases hi : points.findIdx? isSurrogate with
  | some i =>
    obtain ⟨hlt, hfirst, -⟩ := List.findIdx?_eq_some_iff_getElem.mp hi
    constructor
    · intro h
      cases h
    · rintro ⟨hpoints, -⟩
      rw [hpoints _ (List.getElem_mem hlt)] at hfirst
      cases hfirst
  | none =>
    have hpoints : ∀ n ∈ points, isSurrogate n = false := by
      simpa using List.findIdx?_eq_none_iff.mp hi
    by_cases hnull : 0 ∈ points
    · simp [hnull]
    · simpa [hnull] using fun _ => hpoints

variable {e : Expr}

/-- A text inside the expression that a text holds is shorter than the text. -/
theorem longestText_lt {characters : CharacterNames} (htext : annotationText points = .ok text)
    (he : parseExpression? characters text = some e) : longestText e < points.length := by
  have hlength : text.length = points.length := by
    rw [← (annotationText_eq_ok.mp htext).2.2, List.length_map]
  have hempty : parseExpression? characters [] = none := rfl
  have hpos : 0 < text.length := by
    rw [List.length_pos_iff]
    rintro rfl
    rw [hempty] at he
    cases he
  have hle := longestText_le_of_parseExpression? he
  omega

/-- The arguments of a subscript: the elements of a tuple, or the only one. -/
def subscriptArguments : Expr → List Expr
  | .sequence _ .tuple args => args
  | e => [e]

variable {es : List Expr}

private theorem longestText_le_of_mem (h : e ∈ es) : longestText e ≤ longestTextOf es := by
  induction es with
  | nil => cases h
  | cons e' rest ih =>
    rcases List.mem_cons.mp h with rfl | h
    · exact le_max_left _ _
    · exact (ih h).trans (le_max_right _ _)

/-- An annotation stands inside another one. -/
inductive Inside : Expr → Expr → Prop
  | left {site left right} : Inside left (.binary site .bitOr left right)
  | right {site left right} : Inside right (.binary site .bitOr left right)
  | slice {site value slice} : Inside slice (.subscript site value slice)
  /-- Among several in a subscript. -/
  | argument {site site' value e args} (h : e ∈ args) :
    Inside e (.subscript site value (.sequence site' .tuple args))

namespace Inside

variable {e e' : Expr} (h : Inside e' e)
include h

/-- What is inside an annotation is smaller. -/
theorem sizeOf_lt : sizeOf e' < sizeOf e := by
  cases h with
  | left | right => simp only [Expr.binary.sizeOf_spec]; omega
  | slice => simp only [Expr.subscript.sizeOf_spec]; omega
  | argument he =>
    have hsmall := List.sizeOf_lt_of_mem he
    simp only [Expr.subscript.sizeOf_spec, Expr.sequence.sizeOf_spec]
    omega

/-- Its texts are no longer. -/
theorem longestText_le : longestText e' ≤ longestText e := by
  cases h with
  | left => exact le_max_left _ _
  | right => exact le_max_right _ _
  | slice => exact le_rfl
  | argument he => exact longestText_le_of_mem he

end Inside

/-- The arguments of a subscript are inside it. -/
theorem inside_of_mem {site : Site} {value slice : Expr} (h : e ∈ subscriptArguments slice) :
    Inside e (.subscript site value slice) := by
  unfold subscriptArguments at h
  split at h
  · exact .argument h
  · obtain rfl := List.mem_singleton.mp h
    exact .slice

/-- The forms whose arguments are annotations. -/
inductive Form where
  /-- The first argument, or null. -/
  | optional
  /-- Any of the arguments. -/
  | union
  /-- The first argument; the others are remarks. -/
  | annotated
  deriving DecidableEq

variable {n : Nat} {err : AnnotationError}

namespace NameContext

variable (c : NameContext)

/-- The form that a subscripted expression names, if it is one. -/
def form? (value : Expr) : Option Form :=
  (dottedName? value).bind fun base =>
    if spells optionalNames base (c.qualify base) then some .optional
    else if spells unionNames base (c.qualify base) then some .union
    else if spells annotatedNames base (c.qualify base) then some .annotated
    else none

/-- The arguments of a subscript are resolved as its form says. -/
theorem resolveWith_subscript (text : List Nat → Except AnnotationError (Option TypeRef))
    (site : Site) (value slice : Expr) :
    c.resolveWith text (.subscript site value slice) =
      match c.form? value with
      | some .optional =>
        Option.map TypeRef.asNullable <$> c.resolveFirst text (subscriptArguments slice)
      | some .union => unionOf <$> c.resolveAll text (subscriptArguments slice)
      | some .annotated => c.resolveFirst text (subscriptArguments slice)
      | none => .ok ((dottedName? value).map fun base => instanceOf (c.qualify base)) := by
  by_cases htuple : ∃ site' args, slice = .sequence site' .tuple args
  · obtain ⟨site', args, rfl⟩ := htuple
    rw [resolveWith]
    unfold form?
    cases dottedName? value with
    | none => rfl
    | some base =>
      dsimp only [Option.bind_some, subscriptArguments]
      split
      · exact bind_pure_comp ..
      · split
        · exact bind_pure_comp ..
        · split <;> rfl
  · have hslice : subscriptArguments slice = [slice] := by
      unfold subscriptArguments
      split
      · exact (htuple ⟨_, _, rfl⟩).elim
      · rfl
    rw [resolveWith, hslice]
    · unfold form?
      cases dottedName? value with
      | none => rfl
      | some base =>
        dsimp only [Option.bind_some, resolveFirst, resolveAll]
        split
        · exact bind_pure_comp ..
        · split
          · cases c.resolveWith text slice <;> rfl
          · split <;> rfl
    · exact fun site' args heq => htuple ⟨site', args, heq⟩

/-- Resolving an annotation goes on with a text, with the operands of a union or with the arguments
of a subscript, or ends. -/
theorem annotation_induction {P : Expr → Prop}
    (text : ∀ site points, P (.constant site (.str points)))
    (union : ∀ site left right, P left → P right → P (.binary site .bitOr left right))
    (subscript : ∀ site value slice, (∀ e ∈ subscriptArguments slice, P e) →
      P (.subscript site value slice))
    (plain : ∀ e ref, (∀ text, c.resolveWith text e = .ok ref) → P e) (e : Expr) : P e := by
  induction hsize : sizeOf e using Nat.strong_induction_on generalizing e with
  | _ size ih =>
    subst hsize
    cases e with
    | constant site value =>
      cases value with
      | str points => exact text site points
      | _ => exact plain _ _ fun _ => by rw [resolveWith] <;> simp
    | binary site op left right =>
      cases op with
      | bitOr =>
        exact union site left right (ih _ Inside.left.sizeOf_lt left rfl)
          (ih _ Inside.right.sizeOf_lt right rfl)
      | _ => exact plain _ _ fun _ => by rw [resolveWith] <;> simp
    | subscript site value slice =>
      exact subscript site value slice fun e he => ih _ (inside_of_mem he).sizeOf_lt e rfl
    | name site id | attr site value name => exact plain _ _ fun _ => by rw [resolveWith]
    | _ => exact plain _ _ fun _ => by rw [resolveWith] <;> simp

section

variable {text text' : List Nat → Except AnnotationError (Option TypeRef)}

private theorem resolveFirst_congr (h : ∀ e ∈ es, c.resolveWith text e = c.resolveWith text' e) :
    c.resolveFirst text es = c.resolveFirst text' es := by
  cases es with
  | nil => rfl
  | cons e rest => exact h e List.mem_cons_self

private theorem resolveAll_congr (h : ∀ e ∈ es, c.resolveWith text e = c.resolveWith text' e) :
    c.resolveAll text es = c.resolveAll text' es := by
  induction es with
  | nil => rfl
  | cons e rest ih =>
    rw [List.forall_mem_cons] at h
    rw [resolveAll, resolveAll, h.1, ih h.2]

/-- Resolving an annotation resolves no text longer than its own texts. -/
theorem resolveWith_congr (e : Expr)
    (h : ∀ points : List Nat, points.length ≤ longestText e → text points = text' points) :
    c.resolveWith text e = c.resolveWith text' e := by
  induction e using c.annotation_induction with
  | text site points => exact h points le_rfl
  | union site left right ihl ihr =>
    rw [resolveWith, resolveWith, ihl fun points hp => h points (hp.trans (le_max_left _ _)),
      ihr fun points hp => h points (hp.trans (le_max_right _ _))]
  | subscript site value slice ih =>
    have hargs : ∀ e ∈ subscriptArguments slice, c.resolveWith text e = c.resolveWith text' e :=
      fun e he => ih e he fun points hp => h points (hp.trans (inside_of_mem he).longestText_le)
    rw [resolveWith_subscript, resolveWith_subscript, c.resolveFirst_congr hargs,
      c.resolveAll_congr hargs]
  | plain e ref hplain => rw [hplain, hplain]

end

/-- Resolve the expression that a text holds, if it holds one. -/
def resolvePoints (points : List Nat) : Except AnnotationError (Option TypeRef) := do
  match parseExpression? c.characters (← annotationText points) with
  | none => return none
  | some e => c.resolve e

/-- What a text resolves to does not depend on how deeply texts may be nested, as long as that is
more than its own length. -/
theorem resolveText_depth {k : Nat} (hn : points.length < n) (hk : points.length < k) :
    c.resolveText n points = c.resolveText k points := by
  induction n generalizing k points with
  | zero => omega
  | succ n ih =>
    obtain ⟨k, rfl⟩ : ∃ k', k = k' + 1 := ⟨k - 1, by omega⟩
    rw [resolveText, resolveText]
    cases htext : annotationText points with
    | error err => rfl
    | ok text =>
      cases he : parseExpression? c.characters text with
      | none => simp only [Except.bind, Bind.bind, he]
      | some e =>
        have hshort := longestText_lt htext he
        have hcongr : c.resolveWith (c.resolveText n) e = c.resolveWith (c.resolveText k) e :=
          c.resolveWith_congr e fun points' hp => ih (by omega) (by omega)
        simp only [Except.bind, Bind.bind, he, hcongr]

/-- Resolving an annotation resolves the texts in it in the same way. -/
theorem resolve_eq (e : Expr) : c.resolve e = c.resolveWith c.resolvePoints e := by
  refine c.resolveWith_congr e fun points hp => ?_
  unfold resolvePoints
  rw [resolveText]
  cases htext : annotationText points with
  | error err => rfl
  | ok text =>
    cases he : parseExpression? c.characters text with
    | none => simp only [Except.bind, Bind.bind, he]
    | some e' =>
      have hshort := longestText_lt htext he
      have hcongr : c.resolveWith (c.resolveText (longestText e)) e' = c.resolve e' :=
        c.resolveWith_congr e' fun points' hp' => c.resolveText_depth (by omega) (by omega)
      simp only [Except.bind, Bind.bind, he, hcongr]

/-- The annotation cannot be read, for the given reason. -/
inductive Malformed : Expr → AnnotationError → Prop
  /-- A text with a null character and no lone surrogate. -/
  | null {site points} (hpoints : ∀ n ∈ points, isSurrogate n = false)
    (hnull : 0 ∈ points) : Malformed (.constant site (.str points)) .nullCharacter
  /-- A text with lone surrogates; the first ones are to blame. -/
  | surrogate {site front rest first run}
    (hfront : ∀ n ∈ front, isSurrogate n = false) (hrun : ∀ n ∈ first :: run, isSurrogate n = true)
    (hrest : ∀ n ∈ rest.head?, isSurrogate n = false) :
    Malformed (.constant site (.str (front ++ (first :: run ++ rest))))
      (.loneSurrogate first front.length (run.length + 1))
  /-- A text that holds a malformed annotation. -/
  | text {site points e err} (hpoints : ∀ n ∈ points, isSurrogate n = false) (hnull : 0 ∉ points)
    (he : parseExpression? c.characters (points.map Char.ofNat) = some e) (h : Malformed e err) :
    Malformed (.constant site (.str points)) err
  | left {site left right err} (h : Malformed left err) :
    Malformed (.binary site .bitOr left right) err
  | right {site left right err} (h : Malformed right err) :
    Malformed (.binary site .bitOr left right) err
  /-- An optional or annotated form without arguments. -/
  | noArgument {site value slice}
    (hform : c.form? value = some .optional ∨ c.form? value = some .annotated)
    (hargs : subscriptArguments slice = []) :
    Malformed (.subscript site value slice) .emptyArguments
  /-- An optional or annotated form with a malformed first argument. -/
  | argument {site value slice e rest err}
    (hform : c.form? value = some .optional ∨ c.form? value = some .annotated)
    (hargs : subscriptArguments slice = e :: rest) (h : Malformed e err) :
    Malformed (.subscript site value slice) err
  /-- A union form with a malformed argument. -/
  | member {site value slice e err}
    (hform : c.form? value = some .union) (he : e ∈ subscriptArguments slice)
    (h : Malformed e err) : Malformed (.subscript site value slice) err

/-- A text cannot be read because of a null character or of lone surrogates. -/
theorem malformed_of_annotationText (h : annotationText points = .error err) (site : Site) :
    c.Malformed (.constant site (.str points)) err := by
  unfold annotationText at h
  split at h
  · next f hf =>
    obtain ⟨i, hi, rfl⟩ := Option.map_eq_some_iff.mp hf
    obtain rfl := Except.error.inj h
    obtain ⟨hlt, hfirst, hbefore⟩ := List.findIdx?_eq_some_iff_getElem.mp hi
    have hdrop : points.drop i = points[i] :: points.drop (i + 1) := List.drop_eq_getElem_cons hlt
    have hsplit : points = points.take i ++
        (points[i] :: (points.drop (i + 1)).takeWhile isSurrogate ++
          (points.drop (i + 1)).dropWhile isSurrogate) := by
      rw [List.cons_append, List.takeWhile_append_dropWhile, ← hdrop, List.take_append_drop]
    have hrun : (points.drop i).takeWhile isSurrogate =
        points[i] :: (points.drop (i + 1)).takeWhile isSurrogate := by
      rw [hdrop, List.takeWhile_cons_of_pos hfirst]
    have hfront : ∀ n ∈ points.take i, isSurrogate n = false := by
      intro n hn
      obtain ⟨j, hj, rfl⟩ := List.mem_take_iff_getElem.mp hn
      simpa using hbefore j (by omega)
    have hfirst' : ∀ n ∈ points[i] :: (points.drop (i + 1)).takeWhile isSurrogate,
        isSurrogate n = true := by
      intro n hn
      rcases List.mem_cons.mp hn with rfl | hn
      · exact hfirst
      · exact List.mem_takeWhile_imp hn
    have hrest : ∀ n ∈ ((points.drop (i + 1)).dropWhile isSurrogate).head?,
        isSurrogate n = false := by
      intro n hn
      have hhead := List.head?_dropWhile_not isSurrogate (points.drop (i + 1))
      rw [hn] at hhead
      exact hhead
    have hmalformed : c.Malformed (.constant site (.str _)) _ := .surrogate hfront hfirst' hrest
    rw [← hsplit, List.length_take_of_le hlt.le] at hmalformed
    rw [hrun]
    exact hmalformed
  · next hnone =>
    split at h
    · next hzero =>
      obtain rfl := Except.error.inj h
      exact .null (by simpa using List.findIdx?_eq_none_iff.mp (Option.map_eq_none_iff.mp hnone))
        (by simpa using hzero)
    · cases h

/-- A text with a null character or a lone surrogate cannot be read. -/
theorem exists_annotationText_error (hn : n ∈ points) (h : n = 0 ∨ isSurrogate n = true) :
    ∃ err, annotationText points = .error err := by
  cases htext : annotationText points with
  | error err => exact ⟨err, rfl⟩
  | ok text =>
    obtain ⟨hpoints, hnull, -⟩ := annotationText_eq_ok.mp htext
    rcases h with rfl | h
    · exact (hnull hn).elim
    · rw [hpoints n hn] at h
      cases h

section

variable {text : List Nat → Except AnnotationError (Option TypeRef)} {err : AnnotationError}

private theorem exists_of_resolveAll (h : c.resolveAll text es = .error err) :
    ∃ e ∈ es, c.resolveWith text e = .error err := by
  induction es with
  | nil => cases h
  | cons e rest ih =>
    rw [resolveAll, bind_eq_error] at h
    rcases h with h | ⟨ref, -, h⟩
    · exact ⟨e, List.mem_cons_self, h⟩
    · rw [bind_pure_comp, map_eq_error] at h
      obtain ⟨e', he', hfails⟩ := ih h
      exact ⟨e', List.mem_cons_of_mem e he', hfails⟩

private theorem resolveAll_of_mem (he : e ∈ es) (h : c.resolveWith text e = .error err) :
    ∃ err', c.resolveAll text es = .error err' := by
  induction es with
  | nil => cases he
  | cons e' rest ih =>
    rw [resolveAll]
    cases he' : c.resolveWith text e' with
    | error err' => exact ⟨err', rfl⟩
    | ok ref =>
      have hrest : e ∈ rest := by
        rcases List.mem_cons.mp he with rfl | hrest
        · rw [h] at he'
          cases he'
        · exact hrest
      obtain ⟨err', hfails⟩ := ih hrest
      rw [hfails]
      exact ⟨err', rfl⟩

/-- If only malformed texts fail, only malformed annotations fail. -/
theorem malformed_of_resolveWith
    (htext : ∀ site points err, text points = .error err →
      c.Malformed (.constant site (.str points)) err) (h : c.resolveWith text e = .error err) :
    c.Malformed e err := by
  induction e using c.annotation_induction with
  | text site points => exact htext site points err h
  | union site left right ihl ihr =>
    rw [resolveWith, bind_eq_error] at h
    rcases h with h | ⟨l, -, h⟩
    · exact .left (ihl h)
    · rw [bind_pure_comp, map_eq_error] at h
      exact .right (ihr h)
  | subscript site value slice ih =>
    have hfirst (hform : c.form? value = some .optional ∨ c.form? value = some .annotated)
        (h : c.resolveFirst text (subscriptArguments slice) = .error err) :
        c.Malformed (.subscript site value slice) err := by
      cases hargs : subscriptArguments slice with
      | nil =>
        rw [hargs, resolveFirst] at h
        obtain rfl := Except.error.inj h
        exact .noArgument hform hargs
      | cons e rest =>
        rw [hargs, resolveFirst] at h
        exact .argument hform hargs (ih e (by simp [hargs]) h)
    rw [resolveWith_subscript] at h
    split at h
    · next hform => exact hfirst (.inl hform) (map_eq_error.mp h)
    · next hform =>
      obtain ⟨e, he, hfails⟩ := c.exists_of_resolveAll (map_eq_error.mp h)
      exact .member hform he (ih e he hfails)
    · next hform => exact hfirst (.inr hform) h
    · cases h
  | plain e ref hplain =>
    rw [hplain] at h
    cases h

end

private theorem malformed_of_resolveText (n : Nat) (site : Site)
    (h : c.resolveText n points = .error err) : c.Malformed (.constant site (.str points)) err := by
  induction n generalizing site points err with
  | zero => cases h
  | succ n ih =>
    rw [resolveText, bind_eq_error] at h
    rcases h with h | ⟨text, htext, h⟩
    · exact c.malformed_of_annotationText h site
    · obtain ⟨hpoints, hnull, rfl⟩ := annotationText_eq_ok.mp htext
      split at h
      · cases h
      · next e he =>
        exact .text hpoints hnull he (c.malformed_of_resolveWith (fun site _ _ => ih site) h)

/-- An annotation that fails to resolve is malformed. -/
theorem malformed_of_resolve (h : c.resolve e = .error err) : c.Malformed e err :=
  c.malformed_of_resolveWith (fun site _ _ => c.malformed_of_resolveText _ site) h

/-- A malformed annotation fails to resolve. -/
theorem Malformed.resolve_fails {c : NameContext} (h : c.Malformed e err) :
    ∃ err', c.resolve e = .error err' := by
  have hpoints {site : Site} {points : List Nat}
      (hfails : ∃ err, annotationText points = .error err) :
      ∃ err', c.resolve (.constant site (.str points)) = .error err' := by
    obtain ⟨err, hfails⟩ := hfails
    rw [resolve_eq, resolveWith, resolvePoints, hfails]
    exact ⟨err, rfl⟩
  have hfirst {site : Site} {value slice : Expr} {err : AnnotationError}
      (hform : c.form? value = some .optional ∨ c.form? value = some .annotated)
      (hfails : c.resolveFirst c.resolvePoints (subscriptArguments slice) = .error err) :
      ∃ err', c.resolve (.subscript site value slice) = .error err' := by
    rw [resolve_eq, resolveWith_subscript]
    rcases hform with hform | hform
    · rw [hform, hfails]
      exact ⟨err, rfl⟩
    · rw [hform, hfails]
      exact ⟨err, rfl⟩
  induction h with
  | null _ hnull => exact hpoints (exists_annotationText_error hnull (.inl rfl))
  | @surrogate site front rest first run hfront hrun hrest =>
    exact hpoints (exists_annotationText_error (n := first) (by simp)
      (.inr (hrun first List.mem_cons_self)))
  | @text site points e err hplain hnull he _ ih =>
    obtain ⟨err', hfails⟩ := ih
    have htext := annotationText_eq_ok.mpr ⟨hplain, hnull, rfl⟩
    rw [resolve_eq, resolveWith, resolvePoints, htext]
    simp only [Bind.bind, Except.bind, he, hfails]
    exact ⟨err', rfl⟩
  | left _ ih =>
    obtain ⟨err', hfails⟩ := ih
    rw [resolve_eq] at hfails
    rw [resolve_eq, resolveWith, hfails]
    exact ⟨err', rfl⟩
  | @right site left right err _ ih =>
    obtain ⟨err', hfails⟩ := ih
    rw [resolve_eq] at hfails
    rw [resolve_eq, resolveWith, hfails]
    cases c.resolveWith c.resolvePoints left with
    | error err => exact ⟨err, rfl⟩
    | ok ref => exact ⟨err', rfl⟩
  | noArgument hform hargs => exact hfirst hform (by rw [hargs]; rfl)
  | argument hform hargs _ ih =>
    obtain ⟨err', hfails⟩ := ih
    rw [resolve_eq] at hfails
    exact hfirst hform (by rw [hargs]; exact hfails)
  | member hform he _ ih =>
    obtain ⟨err', hfails⟩ := ih
    rw [resolve_eq] at hfails
    obtain ⟨err'', hall⟩ := c.resolveAll_of_mem he hfails
    rw [resolve_eq, resolveWith_subscript, hform, hall]
    exact ⟨err'', rfl⟩

/-- An annotation resolves, perhaps to nothing, unless it is malformed. -/
theorem exists_resolve_iff (e : Expr) :
    (∃ ref, c.resolve e = .ok ref) ↔ ∀ err, ¬ c.Malformed e err := by
  constructor
  · rintro ⟨ref, href⟩ err hmalformed
    obtain ⟨err', hfails⟩ := hmalformed.resolve_fails
    rw [href] at hfails
    cases hfails
  · intro hnone
    cases href : c.resolve e with
    | error err => exact (hnone err (c.malformed_of_resolve href)).elim
    | ok ref => exact ⟨ref, rfl⟩

end NameContext

end ContextLint.Typing
