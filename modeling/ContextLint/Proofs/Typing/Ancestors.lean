import Mathlib.Data.List.Flatten
import Mathlib.Data.List.Nodup
import Mathlib.Logic.Relation
import ContextLint.Typing.ClassTable

/-!
# Ancestors by depth-first search

The ancestors of a class are found by a loop over a worklist of names, on which a name may stand
more than once and to which bases may lead back. Every round takes a name off the list and puts the
bases of a class on it at most once, so the loop ends. It yields what the recursive search yields
that goes through the bases from left to right and remembers the names seen: the known classes among
the names that can be reached, each once.
-/

namespace ContextLint.Typing

namespace ClassTable

/-- The first name is that of a known class and the second that of one of its bases. -/
def Extends (t : ClassTable) (q b : String) : Prop := ∃ info, t.get? q = some info ∧ b ∈ info.bases

/-- The second name can be reached from the first through known classes. -/
def Reaches (t : ClassTable) : String → String → Prop := Relation.ReflTransGen t.Extends

/-- Where the loop over the worklist stands. -/
structure Search where
  /-- Names taken off the worklist, the latest first. -/
  seen : List String
  /-- The worklist. -/
  work : List String
  /-- The classes found so far, in order. -/
  found : List ClassInfo

/-- The search from a name starts with that name alone. -/
def Search.start (q : String) : Search := ⟨[], [q], []⟩

/-- One round of the loop. -/
inductive Round (t : ClassTable) : Search → Search → Prop
  /-- A name that was seen before is skipped. -/
  | skip {seen work found q} (hq : q ∈ seen) : Round t ⟨seen, q :: work, found⟩ ⟨seen, work, found⟩
  /-- A name of no known class is only marked. -/
  | unknown {seen work found q} (hq : q ∉ seen) (hinfo : t.get? q = none) :
    Round t ⟨seen, q :: work, found⟩ ⟨q :: seen, work, found⟩
  /-- A known class is found, and its bases go to the head of the worklist. -/
  | known {seen work found q info} (hq : q ∉ seen) (hinfo : t.get? q = some info) :
    Round t ⟨seen, q :: work, found⟩ ⟨q :: seen, info.bases ++ work, found ++ [info]⟩

/-- The recursive search through some names from left to right: the names seen before, the names,
the classes found, and the names seen behind it. -/
inductive DepthFirst (t : ClassTable) :
    List String → List String → List ClassInfo → List String → Prop
  | nil {seen} : DepthFirst t seen [] [] seen
  /-- A name that was seen before is skipped. -/
  | skip {seen seen' q rest found} (hq : q ∈ seen) (hrest : DepthFirst t seen rest found seen') :
    DepthFirst t seen (q :: rest) found seen'
  /-- A name of no known class is only marked. -/
  | unknown {seen seen' q rest found} (hq : q ∉ seen) (hinfo : t.get? q = none)
    (hrest : DepthFirst t (q :: seen) rest found seen') : DepthFirst t seen (q :: rest) found seen'
  /-- A known class comes first, then what its bases lead to, then what the other names lead to. -/
  | known {seen mid seen' q info rest above found} (hq : q ∉ seen) (hinfo : t.get? q = some info)
    (hbases : DepthFirst t (q :: seen) info.bases above mid)
    (hrest : DepthFirst t mid rest found seen') :
    DepthFirst t seen (q :: rest) (info :: (above ++ found)) seen'

variable {seen seen' : List String} {q n : String} {info : ClassInfo} {s s' : Search}
  {t : ClassTable}

private theorem get?_eq_lookup (q : String) : t.get? q = (t.own ++ t.library).lookup q :=
  List.lookup_append.symm

/-- The base names that those of the classes list whose names have not been seen. -/
def pendingBases (seen : List String) (classes : NameMap ClassInfo) : List String :=
  (classes.filter (·.1 ∉ seen)).flatMap (·.2.bases)

private theorem pendingBases_sublist (h : seen ⊆ seen') (classes : NameMap ClassInfo) :
    (pendingBases seen' classes).Sublist (pendingBases seen classes) := by
  have hfilter : (classes.filter (·.1 ∉ seen')).Sublist (classes.filter (·.1 ∉ seen)) := by
    refine List.monotone_filter_right _ fun p hp => ?_
    simp only [decide_eq_true_eq] at hp ⊢
    exact fun hmem => hp (h hmem)
  exact hfilter.flatMap _

/-- When a class is seen its bases are no longer pending. -/
theorem length_pendingBases_cons (hq : q ∉ seen) {classes : NameMap ClassInfo}
    (hinfo : classes.lookup q = some info) :
    (pendingBases (q :: seen) classes).length + info.bases.length ≤
      (pendingBases seen classes).length := by
  obtain ⟨front, back, rfl, -⟩ := List.lookup_eq_some_iff.mp hinfo
  have hfront := (pendingBases_sublist (List.subset_cons_self q seen) front).length_le
  have hback := (pendingBases_sublist (List.subset_cons_self q seen) back).length_le
  have hbehind : pendingBases (q :: seen) (front ++ (q, info) :: back) =
      pendingBases (q :: seen) front ++ pendingBases (q :: seen) back := by
    simp [pendingBases]
  have hbefore : pendingBases seen (front ++ (q, info) :: back) =
      pendingBases seen front ++ (info.bases ++ pendingBases seen back) := by
    simp [pendingBases, hq]
  rw [hbehind, hbefore, List.length_append, List.length_append, List.length_append]
  omega

/-- How many rounds a search may still take: every name on the worklist takes one, and so does every
base name that is still to come. -/
def roundsLeft (t : ClassTable) (seen work : List String) : Nat :=
  work.length + (pendingBases seen (t.own ++ t.library)).length

private theorem roundsLeft_start (t : ClassTable) (q : String) :
    t.roundsLeft [] [q] = t.baseCount + 1 := by
  have hall : (t.own ++ t.library).filter (fun p => p.1 ∉ ([] : List String)) =
      t.own ++ t.library := List.filter_eq_self.mpr fun p _ => by simp
  rw [roundsLeft, pendingBases, hall, baseCount, Nat.add_comm]
  rfl

private theorem roundsLeft_mono {work work' : List String} (hseen : seen ⊆ seen')
    (hwork : work'.length ≤ work.length) : t.roundsLeft seen' work' ≤ t.roundsLeft seen work :=
  Nat.add_le_add hwork (pendingBases_sublist hseen _).length_le

private theorem roundsLeft_cons (seen work : List String) (q : String) :
    t.roundsLeft seen (q :: work) = t.roundsLeft seen work + 1 := by
  rw [roundsLeft, roundsLeft, List.length_cons, Nat.add_right_comm]

/-- The bases of a class are put on the worklist only once, which makes up for their number. -/
theorem roundsLeft_bases (hq : q ∉ seen) (hinfo : t.get? q = some info) (work : List String) :
    t.roundsLeft (q :: seen) (info.bases ++ work) ≤ t.roundsLeft seen work := by
  have hle := length_pendingBases_cons hq (t.get?_eq_lookup q ▸ hinfo)
  rw [roundsLeft, roundsLeft, List.length_append]
  omega

/-- Every round leaves fewer rounds to go. -/
theorem Round.roundsLeft_lt (h : t.Round s s') :
    t.roundsLeft s'.seen s'.work < t.roundsLeft s.seen s.work := by
  cases h with
  | skip hq =>
    rw [roundsLeft_cons]
    exact Nat.lt_succ_self _
  | unknown hq hinfo =>
    rw [roundsLeft_cons, Nat.lt_succ_iff]
    exact roundsLeft_mono (List.subset_cons_self _ _) (Nat.le_refl _)
  | known hq hinfo =>
    rw [roundsLeft_cons, Nat.lt_succ_iff]
    exact roundsLeft_bases hq hinfo _

/-- The loop ends, wherever it starts. -/
theorem round_wellFounded (t : ClassTable) : WellFounded fun s' s => t.Round s s' :=
  Subrelation.wf (fun h => h.roundsLeft_lt) (measure fun s : Search => t.roundsLeft s.seen s.work).wf

/-- The loop goes on as long as there is a name on the worklist. -/
theorem exists_round (h : s.work ≠ []) : ∃ s', t.Round s s' := by
  obtain ⟨seen, work, found⟩ := s
  cases work with
  | nil => exact absurd rfl h
  | cons q work =>
    by_cases hq : q ∈ seen
    · exact ⟨_, .skip hq⟩
    · cases hinfo : t.get? q with
      | none => exact ⟨_, .unknown hq hinfo⟩
      | some info => exact ⟨_, .known hq hinfo⟩

/-- A round of the loop is a round of the function that computes it. -/
theorem Round.ancestorsFrom_eq (h : t.Round s s') (fuel : Nat) :
    s.found ++ t.ancestorsFrom (fuel + 1) s.seen s.work =
      s'.found ++ t.ancestorsFrom fuel s'.seen s'.work := by
  cases h with
  | skip hq => simp [ancestorsFrom, hq]
  | unknown hq hinfo | known hq hinfo => simp [ancestorsFrom, hq, hinfo]

/-- The function computes what the loop ends with, if it may take as many rounds. -/
theorem ancestorsFrom_of_run (h : Relation.ReflTransGen t.Round s s') (hend : s'.work = [])
    {fuel : Nat} (hfuel : t.roundsLeft s.seen s.work ≤ fuel) :
    s.found ++ t.ancestorsFrom fuel s.seen s.work = s'.found := by
  induction h using Relation.ReflTransGen.head_induction_on generalizing fuel with
  | refl => cases fuel <;> simp [ancestorsFrom, hend]
  | head hround hrest ih =>
    have hlt := Nat.lt_of_lt_of_le hround.roundsLeft_lt hfuel
    obtain ⟨fuel, rfl⟩ := Nat.exists_eq_add_one_of_ne_zero (Nat.ne_zero_of_lt hlt)
    rw [hround.ancestorsFrom_eq]
    exact ih (Nat.le_of_lt_succ hlt)

namespace DepthFirst

variable {seen seen' names : List String} {found : List ClassInfo}

/-- What the recursive search does the loop does, whatever else stands on the worklist. -/
theorem run (h : t.DepthFirst seen names found seen') (work : List String)
    (before : List ClassInfo) :
    Relation.ReflTransGen t.Round ⟨seen, names ++ work, before⟩ ⟨seen', work, before ++ found⟩ := by
  induction h generalizing work before with
  | nil =>
    rw [List.append_nil]
    exact .refl
  | skip hq hrest ih => exact .head (.skip hq) (ih work before)
  | unknown hq hinfo hrest ih => exact .head (.unknown hq hinfo) (ih work before)
  | @known seen mid seen' q info rest above found hq hinfo hbases hrest ihbases ihrest =>
    have hthen := ihrest work (before ++ [info] ++ above)
    rw [List.append_assoc, List.append_assoc, List.singleton_append, List.cons_append] at hthen
    have hfirst := ihbases (rest ++ work) (before ++ [info])
    rw [List.append_assoc before] at hfirst
    exact .head (.known hq hinfo) (hfirst.trans hthen)

/-- No name that was seen is forgotten. -/
theorem seen_subset (h : t.DepthFirst seen names found seen') : seen ⊆ seen' := by
  induction h with
  | nil => exact List.Subset.refl _
  | skip hq hrest ih => exact ih
  | unknown hq hinfo hrest ih => exact List.Subset.trans (List.subset_cons_self _ _) ih
  | known hq hinfo hbases hrest ihbases ihrest =>
    exact List.Subset.trans (List.subset_cons_self _ _) (List.Subset.trans ihbases ihrest)

end DepthFirst

/-- The recursive search ends. -/
theorem exists_depthFirst (t : ClassTable) (seen names : List String) :
    ∃ found seen', t.DepthFirst seen names found seen' := by
  -- both the bases and the names behind leave fewer rounds to go
  induction hrounds : t.roundsLeft seen names using Nat.strongRecOn generalizing seen names with
  | ind n ih =>
    subst hrounds
    cases names with
    | nil => exact ⟨[], seen, .nil⟩
    | cons q rest =>
      have hbehind : ∀ mid, seen ⊆ mid → ∃ found seen', t.DepthFirst mid rest found seen' := by
        intro mid hmid
        refine ih _ ?_ mid rest rfl
        rw [roundsLeft_cons, Nat.lt_succ_iff]
        exact roundsLeft_mono hmid (Nat.le_refl _)
      by_cases hq : q ∈ seen
      · obtain ⟨found, seen', hrest⟩ := hbehind seen (List.Subset.refl _)
        exact ⟨found, seen', .skip hq hrest⟩
      cases hinfo : t.get? q with
      | none =>
        obtain ⟨found, seen', hrest⟩ := hbehind (q :: seen) (List.subset_cons_self _ _)
        exact ⟨found, seen', .unknown hq hinfo hrest⟩
      | some info =>
        have hlt : t.roundsLeft (q :: seen) info.bases < t.roundsLeft seen (q :: rest) := by
          rw [roundsLeft_cons, Nat.lt_succ_iff]
          refine Nat.le_trans (roundsLeft_mono (List.Subset.refl _) ?_)
            (roundsLeft_bases hq hinfo rest)
          rw [List.length_append]
          exact Nat.le_add_right _ _
        obtain ⟨above, mid, hbases⟩ := ih _ hlt (q :: seen) info.bases rfl
        obtain ⟨found, seen', hrest⟩ :=
          hbehind mid (List.Subset.trans (List.subset_cons_self _ _) hbases.seen_subset)
        exact ⟨_, seen', .known hq hinfo hbases hrest⟩

/-- The loop from a name finds its ancestors. -/
theorem found_eq_ancestors (h : Relation.ReflTransGen t.Round (.start q) s) (hend : s.work = []) :
    s.found = t.ancestors q :=
  (ancestorsFrom_of_run h hend (Nat.le_of_eq (t.roundsLeft_start q))).symm

/-- So does the recursive search. -/
theorem DepthFirst.eq_ancestors {found : List ClassInfo} (h : t.DepthFirst [] [q] found seen) :
    found = t.ancestors q :=
  found_eq_ancestors (h.run [] []) rfl

/-- The names that a search has seen or is going to see. -/
def Search.met (s : Search) : List String := s.seen ++ s.work

/-- A round skips a name or sees a new one: then the class of that name is found, if there is one,
and its bases are met. -/
theorem Round.inversion (h : t.Round s s') :
    (s'.seen = s.seen ∧ s'.found = s.found ∧ ∀ b, b ∈ s'.met ↔ b ∈ s.met) ∨
    ∃ n ∈ s.met, n ∉ s.seen ∧ s'.seen = n :: s.seen ∧ s'.found = s.found ++ (t.get? n).toList ∧
      ∀ b, b ∈ s'.met ↔ b ∈ s.met ∨ t.Extends n b := by
  cases h with
  | skip hq =>
    refine .inl ⟨rfl, rfl, fun b => ?_⟩
    simp only [Search.met, List.mem_append, List.mem_cons]
    grind
  | @unknown seen work found q hq hinfo =>
    refine .inr ⟨q, by simp [Search.met], hq, rfl, by simp [hinfo], fun b => ?_⟩
    simp only [Search.met, Extends, hinfo, List.mem_append, List.mem_cons]
    grind
  | @known seen work found q info hq hinfo =>
    refine .inr ⟨q, by simp [Search.met], hq, rfl, by simp [hinfo], fun b => ?_⟩
    simp only [Search.met, Extends, hinfo, List.mem_append, List.mem_cons]
    grind

/-- What holds in every round of a search from a name. -/
structure Search.Valid (t : ClassTable) (q : String) (s : Search) : Prop where
  /-- The classes found are those of the names seen, in order. -/
  found_eq : s.found = s.seen.reverse.filterMap t.get?
  /-- No name is seen twice. -/
  nodup : s.seen.Nodup
  /-- Only names that can be reached are met. -/
  reaches : ∀ n ∈ s.met, t.Reaches q n
  /-- The name itself is met. -/
  start_mem : q ∈ s.met
  /-- The bases of a class that was seen are met. -/
  closed : ∀ n ∈ s.seen, ∀ b, t.Extends n b → b ∈ s.met

namespace Search.Valid

variable {q : String} {s s' : Search}

private theorem start (t : ClassTable) (q : String) : (Search.start q).Valid t q where
  found_eq := rfl
  nodup := List.nodup_nil
  reaches n hn := by
    obtain rfl := List.mem_singleton.mp hn
    exact .refl
  start_mem := List.mem_singleton_self q
  closed := List.forall_mem_nil _

private theorem round (h : s.Valid t q) (hround : t.Round s s') : s'.Valid t q := by
  rcases hround.inversion with ⟨hseen, hfound, hmet⟩ | ⟨n, hn, hnew, hseen, hfound, hmet⟩
  · refine ⟨by rw [hfound, hseen, h.found_eq], hseen ▸ h.nodup, fun b hb => ?_,
      (hmet q).mpr h.start_mem, fun m hm b hb => ?_⟩
    · exact h.reaches b ((hmet b).mp hb)
    · exact (hmet b).mpr (h.closed m (hseen ▸ hm) b hb)
  · refine ⟨?_, hseen ▸ List.nodup_cons.mpr ⟨hnew, h.nodup⟩, fun b hb => ?_,
      (hmet q).mpr (.inl h.start_mem), fun m hm b hb => ?_⟩
    · rw [hfound, hseen, h.found_eq, List.reverse_cons, List.filterMap_append]
      cases hinfo : t.get? n <;> simp [hinfo]
    · rcases (hmet b).mp hb with hb | hb
      · exact h.reaches b hb
      · exact (h.reaches n hn).tail hb
    · rw [hseen] at hm
      rcases List.mem_cons.mp hm with rfl | hm
      · exact (hmet b).mpr (.inr hb)
      · exact (hmet b).mpr (.inl (h.closed m hm b hb))

private theorem run (h : s.Valid t q) (hrun : Relation.ReflTransGen t.Round s s') :
    s'.Valid t q := by
  induction hrun with
  | refl => exact h
  | tail _ hround ih => exact ih.round hround

/-- When the worklist is empty the names seen are those that can be reached. -/
theorem mem_seen_iff (h : s.Valid t q) (hend : s.work = []) : n ∈ s.seen ↔ t.Reaches q n := by
  have hmet : s.met = s.seen := by rw [met, hend, List.append_nil]
  constructor
  · exact fun hn => h.reaches n (hmet ▸ hn)
  · intro hn
    induction hn with
    | refl => exact hmet ▸ h.start_mem
    | tail _ hb ih => exact hmet ▸ h.closed _ ih _ hb

end Search.Valid

/-- The ancestors of a name are the known classes among the names that it reaches, in an order of
these names. -/
theorem exists_seen (t : ClassTable) (q : String) :
    ∃ seen : List String, seen.Nodup ∧ (∀ n, n ∈ seen ↔ t.Reaches q n) ∧
      t.ancestors q = seen.filterMap t.get? := by
  obtain ⟨found, seen, h⟩ := t.exists_depthFirst [] [q]
  obtain rfl := h.eq_ancestors
  have hvalid := (Search.Valid.start t q).run (h.run [] [])
  refine ⟨seen.reverse, List.nodup_reverse.mpr hvalid.nodup, fun n => ?_, hvalid.found_eq⟩
  rw [List.mem_reverse, hvalid.mem_seen_iff rfl]

/-- The ancestors are the known classes that can be reached. -/
theorem mem_ancestors_iff : info ∈ t.ancestors q ↔ ∃ n, t.Reaches q n ∧ t.get? n = some info := by
  obtain ⟨seen, -, hseen, hfound⟩ := t.exists_seen q
  simp only [hfound, List.mem_filterMap, hseen]

/-- The base names are the names that can be reached, known or not. -/
theorem mem_baseNames_iff : n ∈ t.baseNames q ↔ t.Reaches q n := by
  rw [baseNames, List.mem_cons, List.mem_flatMap]
  constructor
  · rintro (rfl | ⟨info, hinfo, hn⟩)
    · exact .refl
    · obtain ⟨c, hc, hget⟩ := mem_ancestors_iff.mp hinfo
      exact hc.tail ⟨info, hget, hn⟩
  · intro h
    rcases h.cases_tail with rfl | ⟨c, hc, info, hget, hn⟩
    · exact .inl rfl
    · exact .inr ⟨info, mem_ancestors_iff.mpr ⟨c, hc, hget⟩, hn⟩

/-- The methods of a name are those of the known classes that it reaches. -/
theorem mem_methodSet_iff {m : String} :
    m ∈ t.methodSet q ↔ ∃ n info, t.Reaches q n ∧ t.get? n = some info ∧ m ∈ info.methods := by
  simp only [methodSet, List.mem_flatMap, mem_ancestors_iff]
  constructor
  · rintro ⟨info, ⟨n, hn, hget⟩, hm⟩
    exact ⟨n, info, hn, hget, hm⟩
  · rintro ⟨n, info, hn, hget, hm⟩
    exact ⟨info, ⟨n, hn, hget⟩, hm⟩

end ClassTable

/-- The loop over the worklist ends, whatever the bases are and wherever it starts. When the loop
from a name cannot go on, the worklist is empty and the ancestors have been found. They are what the
recursive search yields, which ends as well: the classes of the known names that can be reached,
each once. The base names are the name and the bases of these classes, and so the names that can be
reached; the methods are the methods of these classes. -/
theorem ancestors_by_depth_first_search (t : ClassTable) (q : String) :
    (WellFounded fun s' s => t.Round s s') ∧
    (∀ s, Relation.ReflTransGen t.Round (.start q) s → (∀ s', ¬ t.Round s s') →
      s.work = [] ∧ s.found = t.ancestors q) ∧
    (∀ found, (∃ seen, t.DepthFirst [] [q] found seen) ↔ found = t.ancestors q) ∧
    (∃ names : List String, names.Nodup ∧
      (∀ n, n ∈ names ↔ t.Reaches q n ∧ (t.get? n).isSome = true) ∧
      names.map t.get? = (t.ancestors q).map some) ∧
    (∀ n, (n ∈ t.baseNames q ↔ n = q ∨ ∃ info ∈ t.ancestors q, n ∈ info.bases) ∧
      (n ∈ t.baseNames q ↔ t.Reaches q n)) ∧
    (∀ m, m ∈ t.methodSet q ↔ ∃ info ∈ t.ancestors q, m ∈ info.methods) := by
  refine ⟨t.round_wellFounded, fun s hrun hstuck => ?_, fun found => ⟨?_, ?_⟩, ?_,
    fun n => ⟨?_, ClassTable.mem_baseNames_iff⟩, fun m => List.mem_flatMap⟩
  · have hend : s.work = [] := by
      by_contra hwork
      obtain ⟨s', hround⟩ := ClassTable.exists_round (t := t) hwork
      exact hstuck s' hround
    exact ⟨hend, ClassTable.found_eq_ancestors hrun hend⟩
  · rintro ⟨seen, h⟩
    exact h.eq_ancestors
  · rintro rfl
    obtain ⟨found, seen, h⟩ := t.exists_depthFirst [] [q]
    exact ⟨seen, h.eq_ancestors ▸ h⟩
  · obtain ⟨seen, hnodup, hseen, hfound⟩ := t.exists_seen q
    refine ⟨seen.filter fun n => (t.get? n).isSome, hnodup.filter _, fun n => ?_, ?_⟩
    · rw [List.mem_filter, hseen]
    · rw [hfound, List.map_filterMap_some_eq_filter_map_isSome, List.filter_map]
      rfl
  · rw [ClassTable.baseNames, List.mem_cons, List.mem_flatMap]

end ContextLint.Typing
