import ContextLint.Fluent.Chain
import ContextLint.Proofs.Source.Nodes

/-!
# Chains on a common rest

A chain is cut at any of its receivers: what stands before the cut is its base, what stands
behind it are links, each a method call without its receiver. The links go on from any other base in
the same way.
-/

namespace ContextLint.Source

/-- A method call without its receiver. -/
structure Link where
  /-- Where the call stands. -/
  site : Site
  /-- Where the method stands. -/
  methodSite : Site
  method : String
  /-- The positional arguments. -/
  args : List Expr
  /-- The keyword arguments. -/
  keywords : List Expr

/-- The method call on a receiver. -/
def Link.on (l : Link) (receiver : Expr) : Expr :=
  .call l.site (.attr l.methodSite receiver l.method) l.args l.keywords

namespace Link

variable (l : Link)

/-- The first argument does not depend on the receiver. -/
theorem firstArgument?_on (e e' : Expr) : (l.on e).firstArgument? = (l.on e').firstArgument? := by
  unfold Link.on
  cases l.args with
  | nil => cases l.keywords <;> rfl
  | cons arg rest => rfl

variable {l}

/-- The first argument of a link is one of its parts. -/
theorem mem_of_firstArgument? {e arg : Expr} (h : (l.on e).firstArgument? = some arg) :
    arg ∈ l.args ++ l.keywords := by
  obtain ⟨site, methodSite, method, args, keywords⟩ := l
  cases args with
  | nil =>
    cases keywords with
    | nil => cases h
    | cons k rest =>
      obtain rfl := Option.some.inj h
      exact List.mem_cons_self
  | cons first rest =>
    obtain rfl := Option.some.inj h
    exact List.mem_cons_self

end Link

namespace Expr

/-- The chain of links on a base, the innermost link first. -/
def linked (base : Expr) (links : List Link) : Expr := links.foldl (fun e l => l.on e) base

@[simp] private theorem linked_nil (base : Expr) : base.linked [] = base := rfl

@[simp] theorem linked_cons (base : Expr) (l : Link) (links : List Link) :
    base.linked (l :: links) = (l.on base).linked links := rfl

theorem linked_concat (base : Expr) (links : List Link) (l : Link) :
    base.linked (links ++ [l]) = l.on (base.linked links) := List.foldl_concat ..

/-- A chain starts where its base starts. -/
theorem rootName?_linked (base : Expr) (links : List Link) :
    (base.linked links).rootName? = base.rootName? := by
  induction links generalizing base with
  | nil => rfl
  | cons l links ih => rw [linked_cons, ih]; rfl

/-- The methods of a chain are those of its links and those of its base. -/
theorem chainMethods_linked (base : Expr) (links : List Link) :
    (base.linked links).chainMethods = (links.map Link.method).reverse ++ base.chainMethods := by
  induction links generalizing base with
  | nil => rfl
  | cons l links ih =>
    have hon : (l.on base).chainMethods = l.method :: base.chainMethods := rfl
    rw [linked_cons, ih, hon, List.map_cons, List.reverse_cons, List.append_assoc]
    rfl

/-- The base stands in the chain. -/
theorem nodes_linked (base : Expr) (links : List Link) :
    base.nodes ⊆ (base.linked links).nodes := by
  induction links generalizing base with
  | nil => exact List.Subset.refl _
  | cons l links ih =>
    intro n hn
    refine ih (l.on base) ?_
    simp [Link.on, nodes, hn]

/-- A link stands in the chain on some receiver. -/
theorem exists_on_mem_nodes (base : Expr) {links : List Link} {l : Link} (hl : l ∈ links) :
    ∃ e, l.on e ∈ (base.linked links).nodes := by
  induction links generalizing base with
  | nil => cases hl
  | cons l' links ih =>
    rcases List.mem_cons.mp hl with rfl | hl
    · exact ⟨base, nodes_linked _ links (mem_nodes_self _)⟩
    · exact ih (l'.on base) hl

/-- The arguments of a link stand in the chain. -/
theorem nodes_argument {base : Expr} {links : List Link} {l : Link} (hl : l ∈ links) {e : Expr}
    (he : e ∈ l.args ++ l.keywords) : e.nodes ⊆ (base.linked links).nodes := by
  induction links generalizing base with
  | nil => cases hl
  | cons l' links ih =>
    rcases List.mem_cons.mp hl with rfl | hl
    · intro n hn
      refine nodes_linked _ links (mem_nodes_of_child ?_ hn)
      simpa [Link.on, children] using Or.inr (List.mem_append.mp he)
    · exact ih hl

end Expr

end ContextLint.Source
