import ContextLint.Source.Grammar.Core

/-!
# What parsers deliver

A property of the values that a parser delivers on given tokens follows the way the parser is put
together: through sequences, through branches and, with an invariant, through loops.
-/

namespace ContextLint.Source.Parser

variable {α β σ : Type} {l : Lexed} {P : α → Prop} {Q : β → Prop}

/-- On the given tokens the parser delivers, from wherever it starts, only values with the
property. -/
def Delivers (l : Lexed) (p : Parser α) (P : α → Prop) : Prop :=
  ∀ c a c', p l c = some (a, c') → P a

/-- A value that has the property is delivered with it. -/
theorem Delivers.pure {a : α} (h : P a) : Delivers l (Pure.pure a) P := by
  rintro c b c' hb
  obtain ⟨rfl, -⟩ := Prod.mk.inj (Option.some.inj hb)
  exact h

/-- A miss delivers nothing. -/
theorem Delivers.miss : Delivers l (miss : Parser α) P := by rintro c a c' ⟨⟩

/-- A sequence delivers a value if both of its parts deliver one. -/
theorem exists_of_bind {p : Parser α} {f : α → Parser β} {c c' : Cursor} {b : β}
    (h : (p >>= f) l c = some (b, c')) :
    ∃ a mid, p l c = some (a, mid) ∧ f a l mid = some (b, c') := by
  change Parser.bind p f l c = some (b, c') at h
  unfold Parser.bind at h
  split at h
  · next a mid hp => exact ⟨a, mid, hp, h⟩
  · cases h

/-- A parser that goes on from what another delivers. -/
theorem Delivers.bind {p : Parser α} {f : α → Parser β} (hp : Delivers l p P)
    (hf : ∀ a, P a → Delivers l (f a) Q) : Delivers l (p >>= f) Q := by
  intro c b c' h
  obtain ⟨a, mid, ha, hb⟩ := exists_of_bind h
  exact hf a (hp c a mid ha) mid b c' hb

/-- Whatever comes first does not matter if the rest delivers the property in any case. -/
theorem Delivers.seq {p : Parser α} {f : α → Parser β} (hf : ∀ a, Delivers l (f a) Q) :
    Delivers l (p >>= f) Q :=
  Delivers.bind (P := fun _ => True) (fun _ _ _ _ => trivial) fun a _ => hf a

/-- A function of what is delivered. -/
theorem Delivers.map {p : Parser α} {f : α → β} (hp : Delivers l p P) (hf : ∀ a, P a → Q (f a)) :
    Delivers l (f <$> p) Q :=
  hp.bind fun a ha => .pure (hf a ha)

/-- A parser chosen by a condition. -/
theorem Delivers.ite {condition : Prop} [Decidable condition] {p q : Parser α}
    (hp : Delivers l p P) (hq : Delivers l q P) : Delivers l (if condition then p else q) P := by
  split
  · exact hp
  · exact hq

/-- A parser chosen by a test of what another delivers. -/
theorem Delivers.test {p : Parser β} {condition : β → Prop} [DecidablePred condition]
    {q q' : Parser α} (hq : Delivers l q P) (hq' : Delivers l q' P) :
    Delivers l (p >>= fun b => if condition b then q else q') P :=
  .seq fun _ => .ite hq hq'

/-- One of two parsers delivers. -/
theorem Delivers.orElse {p q : Parser α} (hp : Delivers l p P) (hq : Delivers l q P) :
    Delivers l (orElse p q) P := by
  intro c a c' h
  unfold Parser.orElse at h
  split at h
  · next r hr => exact hp c a c' (hr.trans h)
  · exact hq c a c' h

/-- The next token is one of the tokens or, behind their end, the last one. -/
theorem peek_eq_some {c c' : Cursor} {t : Token} (h : peek l c = some (t, c')) :
    c' = c ∧ (l.tokens[c.next]? = some t ∨ l.tokens.back? = some t ∧ l.fault = none) := by
  unfold peek peekAt at h
  rw [Nat.add_zero] at h
  split at h
  · next t' ht =>
    obtain ⟨rfl, rfl⟩ := Prod.mk.inj (Option.some.inj h)
    exact ⟨rfl, .inl ht⟩
  · split at h
    · next t' hback hfault =>
      obtain ⟨rfl, rfl⟩ := Prod.mk.inj (Option.some.inj h)
      exact ⟨rfl, .inr ⟨hback, hfault⟩⟩
    · cases h

/-- Going round again keeps the invariant, and leaving delivers the property. -/
def Round.Keeps (I : σ → Prop) (P : β → Prop) : Round σ β → Prop
  | .again s => I s
  | .leave b => P b

private theorem Delivers.iterate {round : σ → Parser (Round σ β)} {I : σ → Prop}
    (hround : ∀ s, I s → Delivers l (round s) (Round.Keeps I Q)) (fuel : Nat) {s : σ} (hs : I s) :
    Delivers l (iterate round fuel s) Q := by
  induction fuel generalizing s with
  | zero => exact .miss
  | succ fuel ih =>
    refine (hround s hs).bind fun outcome houtcome => ?_
    cases outcome with
    | again s => exact ih houtcome
    | leave b => exact .pure houtcome

/-- A loop whose rounds keep an invariant delivers what they leave with. -/
theorem Delivers.loop {round : σ → Parser (Round σ β)} {I : σ → Prop}
    (hround : ∀ s, I s → Delivers l (round s) (Round.Keeps I Q)) {s : σ} (hs : I s) :
    Delivers l (loop round s) Q :=
  fun c => Delivers.iterate hround _ hs c

end ContextLint.Source.Parser
