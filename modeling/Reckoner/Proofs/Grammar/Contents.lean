import Reckoner.Proofs.Grammar.Inventory
import Reckoner.Proofs.Grammar.Soundness

/-!
# Contents of parsed trees

A tree that was parsed is put together by the constructors of nodes, and what its nodes carry comes
from the tokens: numbers, texts and names. So what is known of the contents of all tokens is known of
the tree (`Node.FormedOf`), whatever the tokens were read from.

## Results

* `Derives.formedOf`     — a derived tree carries the contents of its tokens.
* `parseWithin_formedOf` — so does a tree that is parsed.
* `FormedOf.node`        — so do the parts of a tree.
* `FormedOf.refine`      — what is known of the numbers in a tree may be added.
-/

namespace Reckoner

/-- A tree whose nodes have the children of their kinds and carry contents in `P`. -/
inductive Node.FormedOf (P : Content → Prop) : Node → Prop where
  | number {v : Payload} (p : Place) (hv : P (.number v)) : FormedOf P (.number v p)
  | string {x : String} (p : Place) (hx : P (.string x)) : FormedOf P (.string x p)
  | unit (p : Place) : FormedOf P (.unit p)
  | ident {x : String} (p : Place) (hx : P (.ident x)) : FormedOf P (.ident x p)
  | named {k : Kind} {x : String} {n : Node} (hk : k ∈ [.member, .function, .assignment]) (p : Place)
      (hx : P (.ident x)) (h : FormedOf P n) : FormedOf P (.named k (.text x) n p)
  | wrap {k : Kind} {n : Node} (hk : k ∈ [.parens, .negation, .positive, .reciprocal, .factorial])
      (p : Place) (h : FormedOf P n) : FormedOf P (.wrap k n p)
  | pair {k : Kind} {n m : Node} (hk : k ∈ [.apply, .call, .product, .conversion, .statements])
      (h : FormedOf P n) (h' : FormedOf P m) : FormedOf P (.pair k n m)
  | binary (op : Operator) {n m : Node} (h : FormedOf P n) (h' : FormedOf P m) :
      FormedOf P (.binary op n m)

namespace Grammar

variable {P : Content → Prop} {units : List String} {s : Stratum} {used : List Token} {n : Node}

/-- What is known of all tokens is known of those that belong to a part. -/
theorem contents_within {used used' : List Token} (hP : ∀ t ∈ used, P t.content)
    (hUsed : ∀ t ∈ used', t ∈ used := by simp +contextual) : ∀ t ∈ used', P t.content :=
  fun t ht => hP t (hUsed t ht)

/-- **A derived tree carries the contents of its tokens.** -/
theorem Derives.formedOf (h : Derives units s used n) (hP : ∀ t ∈ used, P t.content) :
    n.FormedOf P := by
  induction h with
  | widen _ _ ih => exact ih hP
  | number v p => exact .number p (hP _ List.mem_cons_self)
  | string x p => exact .string p (hP _ List.mem_cons_self)
  | ident x p => exact .ident p (hP _ List.mem_cons_self)
  | unit p _ => exact .unit p
  | member x p _ _ ih =>
    exact .named (by decide) p (hP _ List.mem_cons_self) (ih (contents_within hP))
  | parens p _ _ ih => exact .wrap (by decide) p (ih (contents_within hP))
  | unclosed p _ ih => exact .wrap (by decide) p (ih (contents_within hP))
  | lambda x p q _ _ ih =>
    exact .named (by decide) p (hP ⟨.ident x, q⟩ (by simp)) (ih (contents_within hP))
  | factorial _ _ ih => exact .wrap (by decide) _ (ih (contents_within hP))
  | pow _ _ _ ih ih' =>
    exact .binary _ (ih (contents_within hP)) (ih' (contents_within hP))
  | prefixed p hy _ ih =>
    have hChild := ih (contents_within hP)
    rcases prefixes_kind hy with rfl | rfl | rfl
    · exact .wrap (by decide) p hChild
    · exact .wrap (by decide) p hChild
    · exact .wrap (by decide) p hChild
  | mixedPlus v w u p q r t =>
    exact .binary _ (.number p (hP ⟨.number v, p⟩ (by simp)))
      (.binary _ (.number q (hP ⟨.number w, q⟩ (by simp))) (.number t (hP ⟨.number u, t⟩ (by simp))))
  | mixedMinus v w u o p q r t =>
    exact .binary _ (.wrap (by decide) o (.number p (hP ⟨.number v, p⟩ (by simp))))
      (.binary _ (.number q (hP ⟨.number w, q⟩ (by simp))) (.number t (hP ⟨.number u, t⟩ (by simp))))
  | product _ _ _ _ ih ih' =>
    exact .binary _ (ih (contents_within hP)) (ih' (contents_within hP))
  | timesMixed _ _ _ ih ih' =>
    exact .binary _ (ih (contents_within hP)) (ih' (contents_within hP))
  | juxtaposed _ _ hk ih ih' =>
    have hLeft := ih (contents_within hP)
    have hRight := ih' (contents_within hP)
    rcases juxtapositionKind_mem hk with rfl | rfl | rfl
    · exact .pair (by decide) hLeft hRight
    · exact .pair (by decide) hLeft hRight
    · exact .pair (by decide) hLeft hRight
  | compound _ _ _ _ ih ih' =>
    exact .binary _ (ih (contents_within hP)) (ih' (contents_within hP))
  | sum _ hy _ _ ih ih' =>
    have hLeft := ih (contents_within hP)
    have hRight := ih' (contents_within hP)
    rcases sumOperators_cases hy with ⟨-, rfl⟩ | ⟨-, rfl⟩ | ⟨-, rfl⟩
    · exact .binary _ hLeft hRight
    · exact .binary _ hLeft hRight
    · exact .pair (by decide) hLeft hRight
  | arrow x p _ _ ih =>
    exact .named (by decide) p (hP _ List.mem_cons_self) (ih (contents_within hP))
  | assignment x p _ _ ih =>
    exact .named (by decide) p (hP _ List.mem_cons_self) (ih (contents_within hP))
  | leading _ _ ih => exact ih (contents_within hP)
  | trailing _ _ ih => exact ih (contents_within hP)
  | sequence _ _ _ ih ih' =>
    exact .pair (by decide) (ih (contents_within hP)) (ih' (contents_within hP))
  | nothing _ => exact .unit _

/-- **A tree that is parsed carries the contents of the tokens.** -/
theorem parseWithin_formedOf {tokens : List Token} {d : Nat}
    (h : (parseWithin d units tokens).result = .ok n) (hP : ∀ t ∈ tokens, P t.content) :
    n.FormedOf P :=
  (parseWithin_derives h).formedOf fun t ht =>
    hP t (List.mem_filter.mp (List.mem_filter.mp ht).1).1

end Grammar

/-- The parts of a tree carry what the tree carries. -/
theorem Node.FormedOf.node {P : Content → Prop} {n m : Node} (h : n.FormedOf P) (hm : m ∈ n.nodes) :
    m.FormedOf P := by
  induction h with
  | number p hv => exact List.mem_singleton.mp hm ▸ .number p hv
  | string p hx => exact List.mem_singleton.mp hm ▸ .string p hx
  | unit p => exact List.mem_singleton.mp hm ▸ .unit p
  | ident p hx => exact List.mem_singleton.mp hm ▸ .ident p hx
  | named hk p hx h ih =>
    rw [Node.nodes_named] at hm
    rcases List.mem_cons.mp hm with rfl | hm
    · exact .named hk p hx h
    · exact ih hm
  | wrap hk p h ih =>
    rw [Node.nodes_wrap] at hm
    rcases List.mem_cons.mp hm with rfl | hm
    · exact .wrap hk p h
    · exact ih hm
  | pair hk h h' ih ih' =>
    rw [Node.nodes_pair] at hm
    rcases List.mem_cons.mp hm with rfl | hm
    · exact .pair hk h h'
    · exact (List.mem_append.mp hm).elim ih ih'
  | binary op h h' ih ih' =>
    rw [Node.nodes_binary] at hm
    rcases List.mem_cons.mp hm with rfl | hm
    · exact .binary op h h'
    · exact (List.mem_append.mp hm).elim ih ih'

/-- What is known of the numbers in a tree may be added to what is known of its contents. -/
theorem Node.FormedOf.refine {P Q : Content → Prop} {n : Node} (h : n.FormedOf P)
    (hNumber : ∀ v p, Node.number v p ∈ n.nodes → P (.number v) → Q (.number v))
    (hOther : ∀ c, (∀ v, c ≠ .number v) → P c → Q c) : n.FormedOf Q := by
  induction h with
  | @number v p hv => exact .number p (hNumber v p (by simp) hv)
  | string p hx => exact .string p (hOther _ (by simp) hx)
  | unit p => exact .unit p
  | ident p hx => exact .ident p (hOther _ (by simp) hx)
  | named hk p hx _ ih =>
    exact .named hk p (hOther _ (by simp) hx) (ih fun v q hv => hNumber v q (by simp [hv]))
  | wrap hk p _ ih => exact .wrap hk p (ih fun v q hv => hNumber v q (by simp [hv]))
  | pair hk _ _ ih ih' =>
    exact .pair hk (ih fun v q hv => hNumber v q (by simp [hv]))
      (ih' fun v q hv => hNumber v q (by simp [hv]))
  | binary op _ _ ih ih' =>
    exact .binary op (ih fun v q hv => hNumber v q (by simp [hv]))
      (ih' fun v q hv => hNumber v q (by simp [hv]))

end Reckoner
