import Mathlib.Data.List.Chain
import Mathlib.Data.List.TakeWhile
import ContextLint.Data.Json

/-!
# Reading JSON texts

A strict reader: brackets and quotes are closed, no comma stands behind the last item, a number has
no leading zeros and a text no control characters. Only white space may follow the value. Null,
fractions and exponents are not read, since none are written. Two halves of a character in a row are
read as the character, a half alone as itself. What is written for a value is ASCII and is read as
the value, up to halves that are joined.
-/

namespace ContextLint.Text

/-- The sixteen bit units of a code point: itself, or the two halves of one beyond sixteen bits. -/
def units (n : Nat) : List Nat :=
  if n < 0x10000 then [n]
  else [(0xD800 + (n - 0x10000) / 1024) % 0x10000, 0xDC00 + (n - 0x10000) % 1024]

/-- The two units are the halves of a character. -/
def AreHalves (n m : Nat) : Prop := n / 1024 = 54 ∧ m / 1024 = 55

instance (n m : Nat) : Decidable (AreHalves n m) := inferInstanceAs (Decidable (_ ∧ _))

/-- Join the halves of a character that follow each other. -/
def joinHalves : List Nat → List Nat
  | n :: m :: rest =>
    if AreHalves n m then (0x10000 + n % 1024 * 1024 + m % 1024) :: joinHalves rest
    else n :: joinHalves (m :: rest)
  | ps => ps

/-- What a reader of units makes of a text. -/
def reread (ps : List Nat) : List Nat := joinHalves (ps.flatMap units)

/-- A text of code points in which no two halves of a character follow each other. -/
structure IsApart (ps : List Nat) : Prop where
  bounded : ∀ n ∈ ps, n < 0x110000
  apart : ps.IsChain fun n m => ¬ AreHalves n m

private theorem joinHalves_cons {n : Nat} {ps : List Nat} (h : ∀ m ∈ ps.head?, ¬ AreHalves n m) :
    joinHalves (n :: ps) = n :: joinHalves ps := by
  cases ps with
  | nil => rfl
  | cons m rest => rw [joinHalves, if_neg (h m rfl)]

/-- Such a text is read as it is. -/
theorem IsApart.reread_eq {ps : List Nat} (h : IsApart ps) : reread ps = ps := by
  obtain ⟨hbounded, hapart⟩ := h
  induction ps with
  | nil => rfl
  | cons n rest ih =>
    obtain ⟨hn, hrest⟩ := List.forall_mem_cons.mp hbounded
    obtain ⟨hfirst, hapart⟩ := List.isChain_cons.mp hapart
    specialize ih hrest hapart
    rw [reread] at ih ⊢
    rw [List.flatMap_cons, units]
    split
    · rw [List.singleton_append, joinHalves_cons, ih]
      cases rest with
      | nil => exact nofun
      | cons m rest =>
        -- The first unit of the next code point is itself or the first of two halves.
        have hm := hrest m List.mem_cons_self
        have hhalves := hfirst m rfl
        rw [List.flatMap_cons, units]
        split
        · rintro _ ⟨⟩
          exact hhalves
        · rintro _ ⟨⟩
          unfold AreHalves
          omega
    · have hhalves : AreHalves ((0xD800 + (n - 0x10000) / 1024) % 0x10000)
          (0xDC00 + (n - 0x10000) % 1024) := by
        unfold AreHalves
        omega
      have hjoined : 0x10000 + (0xD800 + (n - 0x10000) / 1024) % 0x10000 % 1024 * 1024 +
          (0xDC00 + (n - 0x10000) % 1024) % 1024 = n := by omega
      rw [List.cons_append, List.singleton_append, joinHalves, if_pos hhalves, ih, hjoined]

/-- A character is a code point that is no surrogate. -/
theorem toNat_bounds (c : Char) : c.toNat / 1024 ≠ 54 ∧ c.toNat < 0x110000 ∧
    isSurrogate c.toNat = false := by
  have h : c.toNat.isValidChar := c.valid
  simp only [Nat.isValidChar] at h
  refine ⟨by omega, by omega, ?_⟩
  simp only [isSurrogate, Bool.and_eq_false_iff, decide_eq_false_iff_not]
  omega

/-- A text of whole characters is one. -/
theorem isApart_points (s : String) : IsApart (points s) := by
  refine ⟨List.forall_mem_map.mpr fun c _ => (toNat_bounds c).2.1, ?_⟩
  rw [points, List.isChain_map]
  exact (List.pairwise_of_forall fun c _ h => (toNat_bounds c).1 h.1).isChain

/-- A text comes back from its points. -/
theorem lossy_points (s : String) : lossy (points s) = s := by
  have hself (c : Char) :
      (if isSurrogate c.toNat then Char.ofNat 0xFFFD else Char.ofNat c.toNat) = c := by
    rw [(toNat_bounds c).2.2, Char.ofNat_toNat]
    rfl
  have hmap : s.toList.map ((fun n => if isSurrogate n then Char.ofNat 0xFFFD else Char.ofNat n) ∘
      Char.toNat) = s.toList := (List.map_congr_left fun c _ => hself c).trans (List.map_id _)
  rw [lossy, points, List.map_map, hmap, String.ofList_toList]

end ContextLint.Text

namespace ContextLint.Data.Json

open Text

/-- A reader takes a value off the front of a text. -/
abbrev Reader (α : Type) := List Char → Option (α × List Char)

namespace Reader

variable {α β : Type}

/-- What was read becomes part of another value. -/
def into (f : α → β) (result : Option (α × List Char)) : Option (β × List Char) :=
  result.map (Prod.map f id)

/-- White space. -/
def spaces : List Char := [' ', '\n', '\r', '\t']

/-- The text behind white space. -/
def skip (cs : List Char) : List Char := cs.dropWhile spaces.contains

/-- Value of a hexadecimal digit in either case. -/
def hexDigit? (c : Char) : Option Nat := (List.range 16).find? (·.digitChar = c.toLower)

/-- The number that hexadecimal digits stand for. -/
def hexNumber? (digits : List Char) : Option Nat :=
  digits.foldlM (fun n c => (16 * n + ·) <$> hexDigit? c) 0

/-- The code points that the letters of short escapes stand for. -/
def shortEscapes : List (Char × Nat) :=
  [('"', 0x22), ('\\', 0x5C), ('/', 0x2F), ('b', 8), ('f', 12), ('n', 10), ('r', 13), ('t', 9)]

/-- Read the units of a text up to its closing quote. -/
def body : Reader (List Nat)
  | [] => none
  | '"' :: rest => some ([], rest)
  | '\\' :: 'u' :: a :: b :: c :: d :: rest =>
    (hexNumber? [a, b, c, d]).bind fun n => into (n :: ·) (body rest)
  | '\\' :: c :: rest => (shortEscapes.lookup c).bind fun n => into (n :: ·) (body rest)
  | c :: rest => if c < ' ' then none else into (c.toNat :: ·) (body rest)

/-- Read the rest of a text. -/
def text (cs : List Char) : Option (List Nat × List Char) := into joinHalves (body cs)

/-- Read a number without leading zeros. -/
def natural (cs : List Char) : Option (Nat × List Char) :=
  match cs.takeWhile Char.isDigit with
  | [] | '0' :: _ :: _ => none
  | digits => some (Nat.ofDigitChars 10 digits 0, cs.dropWhile Char.isDigit)

/-- Read a whole number. -/
def whole : Reader Int
  | '-' :: rest => into (fun n : Nat => -(n : Int)) (natural rest)
  | cs => into Int.ofNat (natural cs)

/-- Read at most `n` items up to a closing bracket, a comma between any two. -/
def items (close : Char) (item : Reader α) : Nat → Reader (List α)
  | 0, _ => none
  | n + 1, cs =>
    (item cs).bind fun (a, rest) =>
      match skip rest with
      | [] => none
      | c :: rest =>
        if c = ',' then into (a :: ·) (items close item n rest)
        else if c = close then some ([a], rest)
        else none

/-- Read what stands behind an opening bracket: items, or the closing one. -/
def bracket (close : Char) (item : Reader α) (n : Nat) (cs : List Char) :
    Option (List α × List Char) :=
  (items close item n cs).or
    (if (skip cs).head? = some close then some ([], (skip cs).tail) else none)

/-- Read a named value. -/
def field (value : Reader Json) (cs : List Char) : Option ((String × Json) × List Char) :=
  match skip cs with
  | '"' :: rest =>
    (text rest).bind fun (name, rest) =>
      match skip rest with
      | ':' :: rest => into (lossy name, ·) (value rest)
      | _ => none
  | _ => none

/-- Read a value, with brackets nested less than `n` deep and at most as many items in each. -/
def value : Nat → Reader Json
  | 0, _ => none
  | n + 1, cs =>
    match skip cs with
    | 't' :: 'r' :: 'u' :: 'e' :: rest => some (bool true, rest)
    | 'f' :: 'a' :: 'l' :: 's' :: 'e' :: rest => some (bool false, rest)
    | '"' :: rest => into str (text rest)
    | '[' :: rest => into arr (bracket ']' (value n) n rest)
    | '{' :: rest => into obj (bracket '}' (field (value n)) n rest)
    | rest => into int (whole rest)

end Reader

/-- The value that a text stands for. It has no more brackets and items than the text characters. -/
def decode (text : String) : Option Json :=
  (Reader.value (text.length + 1) text.toList).bind fun (j, rest) =>
    if Reader.skip rest = [] then some j else none

namespace Reader

variable {α : Type}

/-- White space ends at any other character. -/
theorem skip_cons {c : Char} (hc : c ∉ spaces) (cs : List Char) : skip (c :: cs) = c :: cs :=
  List.dropWhile_cons_of_neg (by simpa using hc)

private theorem skip_newline (depth : Nat) (cs : List Char) :
    skip (newline depth ++ cs) = skip cs := by
  have hspaces (n : Nat) : skip (List.replicate n ' ' ++ cs) = skip cs := by
    induction n with
    | zero => rfl
    | succ n ih => exact ih
  exact hspaces _

private theorem hexDigit?_digitChar : ∀ n < 16, hexDigit? n.digitChar = some n := by decide

/-- An escape is read as the last sixteen bits of its number. -/
theorem body_unitEscape (n : Nat) (rest : List Char) :
    body (unitEscape n ++ rest) = into (n % 0x10000 :: ·) (body rest) := by
  have hdigit (k : Nat) : hexDigit? (k % 16).digitChar = some (k % 16) :=
    hexDigit?_digitChar _ (Nat.mod_lt _ (by decide))
  have hnumber : hexNumber? ([n / 4096 % 16, n / 256 % 16, n / 16 % 16, n % 16].map Nat.digitChar) =
      some (n % 0x10000) := by
    simp only [hexNumber?, List.map_cons, List.map_nil, List.foldlM_cons, List.foldlM_nil, hdigit,
      Option.map_eq_map, Option.map_some, Option.bind_eq_bind, Option.bind_some, Option.pure_def,
      Option.some.injEq]
    omega
  rw [List.map_cons, List.map_cons, List.map_cons, List.map_cons, List.map_nil] at hnumber
  simp only [unitEscape, List.map_cons, List.map_nil, List.cons_append, List.nil_append, body,
    hnumber, Option.bind_some]

/-- A code point inside a text is written with a letter, as it is, or by one or two numbers. -/
theorem escapePoint_cases (n : Nat) :
    (∃ x, escapePoint n = ['\\', x] ∧ shortEscapes.lookup x = some n ∧ x.toNat < 128 ∧
      n < 0x10000) ∨
    (∃ c : Char, escapePoint n = [c] ∧ c.toNat = n ∧ c ≠ '"' ∧ c ≠ '\\' ∧ ¬ c < ' ' ∧
      n < 128) ∨
    (escapePoint n = unitEscape n ∧ n < 0x10000) ∨
    (escapePoint n = unitEscape (0xD800 + (n - 0x10000) / 1024) ++
      unitEscape (0xDC00 + (n - 0x10000) % 1024) ∧ 0x10000 ≤ n) := by
  by_cases hletter : n ∈ [0x22, 0x5C, 10, 13, 9, 12, 8]
  · simp only [List.mem_cons, List.not_mem_nil, or_false] at hletter
    rcases hletter with rfl | rfl | rfl | rfl | rfl | rfl | rfl <;>
      exact .inl ⟨_, rfl, rfl, by decide, by decide⟩
  · simp only [List.mem_cons, List.not_mem_nil, or_false, not_or] at hletter
    simp only [escapePoint, hletter, if_false]
    split
    · next hprintable =>
      have hplain : ∀ n < 0x7F, 0x20 ≤ n ∧ n ≠ 0x22 ∧ n ≠ 0x5C → (Char.ofNat n).toNat = n ∧
          Char.ofNat n ≠ '"' ∧ Char.ofNat n ≠ '\\' ∧ ¬ Char.ofNat n < ' ' := by decide
      simp only [Bool.and_eq_true, decide_eq_true_eq] at hprintable
      obtain ⟨htoNat, hquote, hslash, hlow⟩ :=
        hplain n (by omega) ⟨hprintable.1, hletter.1, hletter.2.1⟩
      exact .inr (.inl ⟨_, rfl, htoNat, hquote, hslash, hlow, by omega⟩)
    · split
      · next hsmall => exact .inr (.inr (.inl ⟨rfl, hsmall⟩))
      · next hlarge => exact .inr (.inr (.inr ⟨rfl, Nat.not_lt.mp hlarge⟩))

/-- A code point inside a text is read as its units. -/
theorem body_escapePoint (n : Nat) (rest : List Char) :
    body (escapePoint n ++ rest) = into (units n ++ ·) (body rest) := by
  rcases escapePoint_cases n with ⟨x, h, hx, -, hsmall⟩ | ⟨c, h, hc, hquote, hslash, hlow, hsmall⟩ |
    ⟨h, hsmall⟩ | ⟨h, hlarge⟩
  · rw [h, List.cons_append, List.singleton_append, body, hx, units, if_pos hsmall]
    · rfl
    · rintro - - - - - rfl -
      simp [shortEscapes, List.lookup_cons] at hx
  · have hunit : n < 0x10000 := by omega
    rw [h, List.singleton_append, body, hc, units, if_pos hunit] <;> simp [hquote, hslash, hlow]
  · rw [h, body_unitEscape, Nat.mod_eq_of_lt hsmall, units, if_pos hsmall]
    rfl
  · have hsecond : (0xDC00 + (n - 0x10000) % 1024) % 0x10000 = 0xDC00 + (n - 0x10000) % 1024 := by
      omega
    rw [h, List.append_assoc, body_unitEscape, body_unitEscape, hsecond, units,
      if_neg (Nat.not_lt.mpr hlarge)]
    cases body rest <;> rfl

private theorem text_escaped (ps : List Nat) (rest : List Char) :
    text (ps.flatMap escapePoint ++ '"' :: rest) = some (reread ps, rest) := by
  have hbody : body (ps.flatMap escapePoint ++ '"' :: rest) = some (ps.flatMap units, rest) := by
    induction ps with
    | nil => rfl
    | cons n ps ih =>
      rw [List.flatMap_cons, List.append_assoc, body_escapePoint, ih, List.flatMap_cons]
      rfl
  rw [text, hbody]
  rfl

/-- A number cannot go on in the text. -/
def Ends (rest : List Char) : Prop := ∀ c ∈ rest.head?, c.isDigit = false

/-- The value is read from the characters, whatever follows them that ends a number. -/
def Reads (p : Reader α) (cs : List Char) (a : α) : Prop :=
  ∀ rest, Ends rest → p (cs ++ rest) = some (a, rest)

private theorem isDigit_of_mem {n : Nat} {c : Char} (hc : c ∈ Nat.toDigits 10 n) :
    c.isDigit = true :=
  Nat.isDigit_of_mem_toDigits (by decide) (by decide) hc

/-- Only zero starts with a zero. -/
theorem eq_zero_of_head_digit {n : Nat} (h : (Nat.toDigits 10 n).head? = some '0') : n = 0 := by
  induction n using Nat.strong_induction_on with
  | _ n ih =>
    rw [Nat.toDigits_eq_if (by decide)] at h
    split at h
    · simpa using h
    · next hn =>
      rw [List.head?_append, List.head?_eq_some_head Nat.toDigits_ne_nil, Option.some_or,
        ← List.head?_eq_some_head] at h
      have hquotient := ih (n / 10) (by omega) h
      omega

private theorem natural_digits (n : Nat) : Reads natural (Nat.toDigits 10 n) n := by
  intro rest hrest
  have hstop : rest.takeWhile Char.isDigit = [] ∧ rest.dropWhile Char.isDigit = rest := by
    cases rest with
    | nil => exact ⟨rfl, rfl⟩
    | cons c rest => simp [hrest c rfl]
  rw [natural, List.takeWhile_append_of_pos fun c => isDigit_of_mem,
    List.dropWhile_append_of_pos fun c => isDigit_of_mem, hstop.1, hstop.2, List.append_nil]
  split
  · next h => exact (Nat.toDigits_ne_nil h).elim
  · next h =>
    obtain rfl := eq_zero_of_head_digit (by rw [h]; rfl)
    cases h
  · rw [Nat.ofDigitChars_toDigits (by decide) (by decide)]

/-- What starts with a digit or with a sign is read as a number. -/
theorem value_number {c : Char} (hc : c = '-' ∨ c.isDigit = true) (n : Nat) (cs : List Char) :
    value (n + 1) (c :: cs) = into int (whole (c :: cs)) := by
  have hvisible : c ∉ spaces := by
    simp only [spaces, List.mem_cons, List.not_mem_nil, or_false]
    rintro (rfl | rfl | rfl | rfl) <;> simp at hc
  rw [value, skip_cons hvisible]
  split <;> simp_all

private theorem value_int (n : Nat) (z : Int) : Reads (value (n + 1)) z.repr.toList (int z) := by
  intro rest hrest
  rw [Int.repr_eq_if]
  split
  · next hz =>
    have hread := natural_digits z.toNat rest hrest
    rw [Nat.toList_repr]
    cases h : Nat.toDigits 10 z.toNat with
    | nil => exact (Nat.toDigits_ne_nil h).elim
    | cons c cs =>
      have hdigit : c.isDigit = true := isDigit_of_mem (h ▸ List.mem_cons_self)
      rw [h] at hread
      rw [List.cons_append, value_number (.inr hdigit), whole, ← List.cons_append, hread]
      · simp [into, Int.toNat_of_nonneg hz]
      · rintro rest' heq
        obtain ⟨rfl, -⟩ := List.cons.inj heq
        cases hdigit
  · rw [String.toList_append, Nat.toList_repr]
    change value (n + 1) ('-' :: (Nat.toDigits 10 (-z).toNat ++ rest)) = _
    rw [value_number (.inl rfl), whole, natural_digits _ rest hrest]
    simp [into]
    omega

private theorem value_newline (n depth : Nat) (cs : List Char) :
    value n (newline depth ++ cs) = value n cs := by
  cases n with
  | zero => rfl
  | succ n => rw [value, skip_newline, ← value]

end Reader

/-- Items on lines of their own, behind the opening bracket. -/
def enclosed {α : Type} (close : Char) (depth : Nat) (write : α → List Char) : List α → List Char
  | [] => [close]
  | a :: as =>
    newline (depth + 1) ++ (write a ++
      (as.flatMap (fun b => ',' :: (newline (depth + 1) ++ write b)) ++ (newline depth ++ [close])))

private theorem chars_arr (depth : Nat) (js : List Json) :
    chars depth (arr js) = '[' :: enclosed ']' depth (chars (depth + 1)) js := by
  have hmore (js : List Json) : itemChars (depth + 1) js =
      js.flatMap fun j => ',' :: (newline (depth + 1) ++ chars (depth + 1) j) := by
    induction js with
    | nil => rfl
    | cons j js ih => rw [itemChars, ih, List.flatMap_cons]; rfl
  cases js with
  | nil => rfl
  | cons j js => simp [chars, hmore, enclosed]

private theorem fieldChars_eq (depth : Nat) (f : String × Json) :
    fieldChars depth f = quote (points f.1) ++ ':' :: ' ' :: chars depth f.2 := by
  rw [fieldChars]

private theorem chars_obj (depth : Nat) (fs : List (String × Json)) :
    chars depth (obj fs) = '{' :: enclosed '}' depth (fieldChars (depth + 1)) fs := by
  have hmore (fs : List (String × Json)) : fieldsChars (depth + 1) fs =
      fs.flatMap fun f => ',' :: (newline (depth + 1) ++ fieldChars (depth + 1) f) := by
    induction fs with
    | nil => rfl
    | cons f fs ih => rw [fieldsChars, ih, List.flatMap_cons]; rfl
  cases fs with
  | nil => rfl
  | cons f fs => simp [chars, hmore, enclosed]

/-- Values are made of lists of values and of named values. -/
theorem induction_on {P : Json → Prop} (bool : ∀ b, P (bool b)) (int : ∀ n, P (int n))
    (str : ∀ ps, P (str ps)) (arr : ∀ js, (∀ j ∈ js, P j) → P (arr js))
    (obj : ∀ fs : List (String × Json), (∀ f ∈ fs, P f.2) → P (obj fs)) (j : Json) : P j :=
  @Json.rec P (fun js => ∀ j ∈ js, P j) (fun fs => ∀ f ∈ fs, P f.2) (fun f => P f.2) bool int str
    arr obj (by simp) (fun _ _ h hs => List.forall_mem_cons.mpr ⟨h, hs⟩) (by simp)
    (fun _ _ h hs => List.forall_mem_cons.mpr ⟨h, hs⟩) (fun _ _ h => h) j

mutual

/-- The value with the halves of characters joined in all its texts. -/
def reread : Json → Json
  | str ps => str (Text.reread ps)
  | arr items => arr (rereadItems items)
  | obj fields => obj (rereadFields fields)
  | j => j

/-- The values of a list with halves joined. -/
def rereadItems : List Json → List Json
  | [] => []
  | item :: rest => item.reread :: rereadItems rest

/-- Named values with halves joined. -/
def rereadFields : List (String × Json) → List (String × Json)
  | [] => []
  | (name, value) :: rest => (name, value.reread) :: rereadFields rest

end

@[simp] theorem rereadItems_eq_map (js : List Json) : rereadItems js = js.map reread := by
  induction js with
  | nil => rfl
  | cons j js ih => rw [rereadItems, ih, List.map_cons]

@[simp] theorem rereadFields_eq_map (fs : List (String × Json)) :
    rereadFields fs = fs.map (Prod.map id reread) := by
  induction fs with
  | nil => rfl
  | cons f fs ih => rw [rereadFields, ih, List.map_cons]; rfl

section

variable {α : Type} {close : Char} {item : Reader α} {write : α → List Char} {as : List α}
  {again : α → α} {depth n : Nat}

private theorem length_enclosed : as.length ≤ (enclosed close depth write as).length ∧
    ∀ a ∈ as, (write a).length < (enclosed close depth write as).length := by
  have hmore (as : List α) (f : α → List Char) :
      as.length ≤ (as.flatMap fun a => ',' :: f a).length ∧
        ∀ a ∈ as, (f a).length ≤ (as.flatMap fun a => ',' :: f a).length := by
    induction as with
    | nil => simp
    | cons a as ih => grind
  cases as with
  | nil => simp [enclosed]
  | cons a as =>
    have h := hmore as fun b => newline (depth + 1) ++ write b
    grind [enclosed]

open Reader

variable (hclose : close ∉ ',' :: spaces) (hspace : ∀ depth cs, item (newline depth ++ cs) = item cs)
include hclose hspace

private theorem items_enclosed {a : α} (hread : ∀ b ∈ a :: as, Reads item (write b) (again b))
    (hn : as.length < n) (rest : List Char) :
    items close item n (enclosed close depth write (a :: as) ++ rest) =
      some ((a :: as).map again, rest) := by
  rw [List.mem_cons, not_or] at hclose
  simp only [enclosed, List.append_assoc, List.singleton_append]
  induction as generalizing a n with
  | nil =>
    obtain ⟨n, rfl⟩ := Nat.exists_eq_add_of_lt hn
    rw [items, hspace, hread a List.mem_cons_self _ (by rintro c ⟨⟩; rfl)]
    simp [skip_newline, skip_cons hclose.2, hclose.1]
  | cons b as ih =>
    obtain ⟨n, rfl⟩ := Nat.exists_eq_add_of_lt hn
    have hmore := ih (n := as.length + 1 + n) (fun c hc => hread c (List.mem_cons_of_mem a hc))
      (by omega)
    rw [items, hspace, List.flatMap_cons, List.append_assoc,
      hread a List.mem_cons_self _ (by rintro c ⟨⟩; rfl)]
    simp only [Option.bind_some, List.cons_append, List.append_assoc,
      skip_cons (c := ',') (by decide), if_true, List.length_cons, hmore]
    rfl

/-- Items between brackets are read if each of them is. -/
theorem bracket_enclosed (hnone : ∀ rest, item (close :: rest) = none)
    (hread : ∀ a ∈ as, Reads item (write a) (again a)) (hn : as.length ≤ n) (rest : List Char) :
    bracket close item n (enclosed close depth write as ++ rest) = some (as.map again, rest) := by
  rw [bracket]
  cases as with
  | nil =>
    have hitems : items close item n (close :: rest) = none := by
      cases n with
      | zero => rfl
      | succ n => rw [items, hnone]; rfl
    simp [enclosed, hitems, skip_cons (List.not_mem_of_not_mem_cons hclose)]
  | cons a as => rw [items_enclosed hclose hspace hread hn]; rfl

end

namespace Reader

private theorem field_fieldChars {n depth : Nat} {f : String × Json}
    (h : Reads (value n) (chars depth f.2) f.2.reread) :
    Reads (field (value n)) (fieldChars depth f) (f.map id reread) := by
  intro rest hrest
  have hfield : fieldChars depth f ++ rest = '"' :: ((points f.1).flatMap escapePoint ++
      '"' :: ':' :: ' ' :: (chars depth f.2 ++ rest)) := by simp [fieldChars_eq, quote]
  have hspace : value n (' ' :: (chars depth f.2 ++ rest)) = some (f.2.reread, rest) := by
    rw [← h rest hrest]
    cases n <;> rfl
  rw [field, hfield, skip_cons (by decide)]
  simp only [text_escaped, (isApart_points f.1).reread_eq, lossy_points, Option.bind_some,
    skip_cons (c := ':') (by decide), hspace]
  rfl

/-- A value is read from its characters, up to halves that are joined. -/
theorem value_chars (j : Json) {depth n : Nat} (hn : (chars depth j).length < n) :
    Reads (value n) (chars depth j) j.reread := by
  induction j using Json.induction_on generalizing depth n with
  | bool b =>
    obtain ⟨n, rfl⟩ := Nat.exists_eq_add_of_lt hn
    intro rest _
    cases b <;> rfl
  | int z =>
    obtain ⟨n, rfl⟩ := Nat.exists_eq_add_of_lt hn
    exact value_int _ z
  | str ps =>
    obtain ⟨n, rfl⟩ := Nat.exists_eq_add_of_lt hn
    intro rest _
    have hquote : chars depth (str ps) ++ rest =
        '"' :: (ps.flatMap escapePoint ++ '"' :: rest) := by simp [chars, quote]
    rw [hquote]
    change into str (text _) = _
    rw [text_escaped]
    rfl
  | arr js ih =>
    obtain ⟨n, rfl⟩ : ∃ m, n = m + 1 := ⟨n - 1, by omega⟩
    intro rest _
    rw [chars_arr, List.length_cons, Nat.add_lt_add_iff_right] at hn
    rw [chars_arr]
    change into arr (bracket ']' (value n) n (_ ++ rest)) = _
    rw [bracket_enclosed (by decide) (value_newline n) (fun rest => by cases n <;> rfl)
      (fun j hj => ih j hj ((length_enclosed.2 j hj).trans hn)) (length_enclosed.1.trans hn.le),
      reread, rereadItems_eq_map]
    rfl
  | obj fs ih =>
    obtain ⟨n, rfl⟩ : ∃ m, n = m + 1 := ⟨n - 1, by omega⟩
    intro rest _
    rw [chars_obj, List.length_cons, Nat.add_lt_add_iff_right] at hn
    have hvalue (f : String × Json) (hf : f ∈ fs) : (chars (depth + 1) f.2).length < n := by
      have hfield := (length_enclosed.2 f hf).trans hn
      rw [fieldChars_eq, List.length_append, List.length_cons, List.length_cons] at hfield
      omega
    rw [chars_obj]
    change into obj (bracket '}' (field (value n)) n (_ ++ rest)) = _
    rw [bracket_enclosed (by decide) (fun d cs => by rw [field, skip_newline, ← field])
      (fun rest => rfl) (fun f hf => field_fieldChars (ih f hf (hvalue f hf)))
      (length_enclosed.1.trans hn.le), reread, rereadFields_eq_map]
    rfl

end Reader

/-- The text that is written for a value stands for it, up to halves that are joined. -/
theorem decode_render (j : Json) : decode j.render = some j.reread := by
  have hread := Reader.value_chars j (Nat.lt_succ_self (chars 0 j).length) [] (by rintro c ⟨⟩)
  rw [List.append_nil] at hread
  rw [decode, render, String.toList_ofList, String.length_ofList, hread]
  rfl

private theorem escapePoint_ascii (n : Nat) : ∀ c ∈ escapePoint n, c.toNat < 128 := by
  have hdigit : ∀ n < 16, n.digitChar.toNat < 128 := by decide
  have hunit (n : Nat) : ∀ c ∈ unitEscape n, c.toNat < 128 := by
    simp [unitEscape, hdigit _ (Nat.mod_lt _ (by decide : 0 < 16))]
  rcases Reader.escapePoint_cases n with
    ⟨x, h, -, hx, -⟩ | ⟨c, h, rfl, -, -, -, hc⟩ | ⟨h, -⟩ | ⟨h, -⟩
  · simp [h, hx]
  · simp [h, hc]
  · exact h ▸ hunit n
  · rw [h]
    exact List.forall_mem_append.mpr ⟨hunit _, hunit _⟩

private theorem quote_ascii (ps : List Nat) : ∀ c ∈ quote ps, c.toNat < 128 := by
  have htext := List.forall_mem_flatMap.mpr fun n (_ : n ∈ ps) => escapePoint_ascii n
  exact List.forall_mem_cons.mpr ⟨by decide, List.forall_mem_append.mpr ⟨htext, by simp⟩⟩

private theorem repr_ascii (z : Int) : ∀ c ∈ z.repr.toList, c.toNat < 128 := by
  have hdigits (n : Nat) : ∀ c ∈ n.repr.toList, c.toNat < 128 := by
    intro c hc
    rw [Nat.toList_repr] at hc
    have hnine : c.toNat ≤ '9'.toNat :=
      of_decide_eq_true (Bool.and_eq_true_iff.mp (Reader.isDigit_of_mem hc)).2
    exact hnine.trans_lt (by decide)
  rw [Int.repr_eq_if]
  split
  · exact hdigits _
  · rw [String.toList_append]
    exact List.forall_mem_append.mpr ⟨by simp, hdigits _⟩

private theorem enclosed_ascii {α : Type} {close : Char} (hclose : close.toNat < 128) (depth : Nat)
    {write : α → List Char} {as : List α} (h : ∀ a ∈ as, ∀ c ∈ write a, c.toNat < 128) :
    ∀ c ∈ enclosed close depth write as, c.toNat < 128 := by
  have hline (depth : Nat) : ∀ c ∈ newline depth, c.toNat < 128 := by simp [newline]
  cases as with
  | nil => exact List.forall_mem_singleton.mpr hclose
  | cons a as =>
    rw [List.forall_mem_cons] at h
    simp only [enclosed, List.forall_mem_append, List.forall_mem_flatMap, List.forall_mem_cons]
    exact ⟨hline _, h.1, fun b hb => ⟨by decide, hline _, h.2 b hb⟩, hline _, hclose, nofun⟩

/-- What is written for a value is ASCII. -/
theorem chars_ascii (j : Json) (depth : Nat) : ∀ c ∈ chars depth j, c.toNat < 128 := by
  induction j using Json.induction_on generalizing depth with
  | bool b => cases b <;> simp [chars]
  | int z => exact repr_ascii z
  | str ps => exact quote_ascii ps
  | arr js ih =>
    rw [chars_arr]
    refine List.forall_mem_cons.mpr ⟨by decide, ?_⟩
    exact enclosed_ascii (by decide) depth fun j hj => ih j hj _
  | obj fs ih =>
    rw [chars_obj]
    refine List.forall_mem_cons.mpr ⟨by decide, enclosed_ascii (by decide) depth fun f hf => ?_⟩
    simp only [fieldChars_eq, List.forall_mem_append, List.forall_mem_cons]
    exact ⟨quote_ascii _, by decide, by decide, ih f hf _⟩

end ContextLint.Data.Json
