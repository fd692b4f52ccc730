import Mathlib.Order.Nat
import ContextLint.Proofs.Source.Scanned
import ContextLint.Source.Grammar.Interpolation

/-!
# Texts of string literals

An escape stands for no more characters than it is written with, and quotes stand for none. So the
text that adjacent string literals stand for is shorter than the literals.
-/

namespace ContextLint.Source

variable {names : CharacterNames} {text rest : List Char} {code : Nat} {unicode : Bool}
  {points : List Nat}

namespace Literal

private theorem hexCode_length {n value : Nat} (h : hexCode n value text = some (code, rest)) :
    rest.length ≤ text.length := by
  fun_induction hexCode n value text with
  | case1 =>
    obtain ⟨-, rfl⟩ := by simpa using h
    exact le_rfl
  | case2 n value c text _ ih => exact (ih h).trans (Nat.le_succ _)
  | case3 | case4 => cases h

private theorem octalCode_length (n value : Nat) (text : List Char) :
    (octalCode n value text).2.length ≤ text.length := by
  fun_induction octalCode n value text with
  | case1 | case3 | case4 => exact le_rfl
  | case2 n value c text _ ih => exact ih.trans (Nat.le_succ _)

private theorem namedCode_length (h : namedCode names text = some (code, rest)) :
    rest.length ≤ text.length := by
  unfold namedCode at h
  split at h
  · next more =>
    split at h
    · next hdrop =>
      obtain ⟨n, -, heq⟩ := Option.map_eq_some_iff.mp h
      obtain ⟨-, rfl⟩ := Prod.mk.inj heq
      have hsuffix := (List.dropWhile_suffix (l := more) (· ≠ '}')).length_le
      rw [hdrop] at hsuffix
      simp only [List.length_cons] at hsuffix ⊢
      omega
    · cases h
  · cases h

/-- An escape stands for no more characters than it is written with, its backslash included. -/
theorem escape_length (h : escape names unicode text = some (points, rest)) :
    points.length + rest.length ≤ text.length + 1 := by
  have hcode {x : Option (Nat × List Char)} {text : List Char}
      (hx : ∀ code rest, x = some (code, rest) → rest.length ≤ text.length)
      (h : x.map (fun y => ([y.1], y.2)) = some (points, rest)) :
      points.length + rest.length ≤ text.length + 1 := by
    obtain ⟨⟨code, r⟩, hr, heq⟩ := Option.map_eq_some_iff.mp h
    obtain ⟨rfl, rfl⟩ := by simpa using heq
    have hlength := hx code r hr
    simp only [List.length_singleton]
    omega
  unfold escape at h
  split at h
  · obtain ⟨rfl, rfl⟩ := by simpa using h
    exact le_rfl
  · next c text =>
    rw [List.length_cons]
    split at h
    · obtain ⟨rfl, rfl⟩ := by simpa using h
      simp only [List.length_singleton]
      omega
    · repeat' split at h
      · obtain ⟨rfl, rfl⟩ := by simpa using h
        simp only [List.length_nil]
        omega
      · next n rest' hoctal =>
        obtain ⟨rfl, rfl⟩ := by simpa using h
        have hlength := octalCode_length 2 (c.toNat - '0'.toNat) text
        rw [hoctal] at hlength
        simp only [List.length_singleton] at hlength ⊢
        omega
      · exact (hcode (fun _ _ => hexCode_length) h).trans (Nat.le_succ _)
      · exact (hcode (fun _ _ => hexCode_length) h).trans (Nat.le_succ _)
      · obtain ⟨⟨code, r⟩, hr, heq⟩ := Option.bind_eq_some_iff.mp h
        dsimp only at heq
        split at heq
        · exact (hcode (fun _ _ => hexCode_length) (by rw [hr, ← heq]; rfl)).trans (Nat.le_succ _)
        · cases heq
      · exact (hcode (fun _ _ => namedCode_length) h).trans (Nat.le_succ _)
      · obtain ⟨rfl, rfl⟩ := by simpa using h
        simp only [List.length_cons, List.length_nil]
        omega

private theorem unescapeFrom_length {fuel : Nat} {acc : List Nat}
    (h : unescapeFrom names unicode fuel acc text = some points) :
    points.length ≤ acc.length + text.length := by
  fun_induction unescapeFrom names unicode fuel acc text with
  | case1 fuel acc =>
    obtain rfl := Option.some.inj h
    simp
  | case2 => cases h
  | case3 fuel acc text ih =>
    obtain ⟨⟨ps, rest⟩, hescape, hrest⟩ := Option.bind_eq_some_iff.mp h
    have hpoints := ih ps rest hrest
    have hlength := escape_length hescape
    simp only [List.length_append, List.length_reverse, List.length_cons] at hpoints ⊢
    omega
  | case4 fuel acc c text _ ih =>
    have hpoints := ih h
    simp only [List.length_cons] at hpoints ⊢
    omega

/-- A literal stands for no more characters than there are between its quotes. -/
theorem Quoted.points_length {q : Quoted} (h : q.points names = some points) :
    points.length ≤ q.body.length := by
  unfold Quoted.points at h
  split at h
  · cases h
  · split at h
    · obtain rfl := Option.some.inj h
      exact (List.length_map _).le
    · have hlength := unescapeFrom_length h
      simpa using hlength

/-- A literal has quotes. -/
theorem Quoted.body_length (text : List Char) :
    (Quoted.ofText text).body.length ≤ text.length - 1 := by
  unfold Quoted.ofText
  dsimp only
  rw [List.length_take, List.length_drop, List.length_drop]
  split
  · split <;> omega
  · omega

end Literal

namespace Interpolation

/-- Number of characters of the literal texts among the parts. -/
def textTotal : List Piece → Nat
  | [] => 0
  | .text points :: rest => points.length + textTotal rest
  | _ :: rest => textTotal rest

private theorem textTotal_append (ps ps' : List Piece) :
    textTotal (ps ++ ps') = textTotal ps + textTotal ps' := by
  induction ps with
  | nil => simp [textTotal]
  | cons p rest ih => cases p <;> simp [textTotal, ih, Nat.add_assoc]

/-- Joining texts loses no character. -/
theorem textTotal_merge (ps : List Piece) : textTotal (merge ps) = textTotal ps := by
  fun_induction merge ps with
  | case1 a rest b more hmerge ih =>
    rw [hmerge] at ih
    simp only [textTotal, List.length_append] at ih ⊢
    omega
  | case2 a rest hmore ih => simp only [textTotal, ih]
  | case3 p rest hp ih =>
    cases p with
    | text points => exact (hp points rfl).elim
    | _ => simpa only [textTotal] using ih
  | case4 => rfl

/-- The text of a literal without fields is shorter than the literal. -/
theorem textTotal_piecesOf (names : CharacterNames) {t : Token}
    (h : (Literal.Quoted.ofText t.text.toList).formatted = false) :
    textTotal (piecesOf names t (Literal.Quoted.ofText t.text.toList)) ≤
      t.text.toList.length - 1 := by
  unfold piecesOf
  rw [if_neg (by rw [h]; exact Bool.false_ne_true)]
  split
  · next points hpoints =>
    have hlength := (Literal.Quoted.points_length hpoints).trans (Literal.Quoted.body_length _)
    split
    · exact Nat.zero_le _
    · exact hlength
  · exact Nat.zero_le _

/-- The text of adjacent literals without fields is shorter than the literals. -/
theorem textTotal_adjacentPieces (names : CharacterNames) {ts : List Token}
    (hstring : ∀ t ∈ ts, t.kind = .string)
    (hplain : ∀ t ∈ ts, (Literal.Quoted.ofText t.text.toList).formatted = false) :
    textTotal (adjacentPieces names (ts.map fun t => (t, Literal.Quoted.ofText t.text.toList))) ≤
      stringTotal ts - 1 := by
  have hpieces : textTotal ((ts.map fun t => (t, Literal.Quoted.ofText t.text.toList)).flatMap
      fun x => piecesOf names x.1 x.2) ≤ stringTotal ts - 1 := by
    induction ts with
    | nil => exact Nat.zero_le _
    | cons t rest ih =>
      rw [List.forall_mem_cons] at hstring hplain
      have hrest := ih hstring.2 hplain.2
      have hfirst := textTotal_piecesOf names hplain.1
      have hliteral : t.literal = t.text.toList := if_pos hstring.1
      rw [List.map_cons, List.flatMap_cons, textTotal_append]
      simp only [stringTotal, List.flatMap_cons, List.length_append, hliteral] at hrest ⊢
      omega
  unfold adjacentPieces
  split
  · exact Nat.zero_le _
  · rw [textTotal_merge]
    exact hpieces

end Interpolation

end ContextLint.Source
