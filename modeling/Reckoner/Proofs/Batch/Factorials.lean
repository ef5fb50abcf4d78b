import Reckoner.Proofs.Batch.AllOrNothing
import Reckoner.Proofs.Grammar.Precedence
import Reckoner.Proofs.Session.Endurance

/-!
# Factorials of nothing

The lines `()`, `()!`, `()!!` and so on need little room to be read, all of them the same, because the
rule for factorials goes round and not down (`Chain.nesting_le_of_flat`). But each `!` makes the tree
higher by one. So for every bound on the height there is one of them that is shown under it and not
under the next smaller one.

## Results

* `Grammar.height_withBangs` — each `!` makes a tree higher by one.
* `showLine_factorials`      — a line of `n` factorials is shown where a height above `n` is allowed.
-/

namespace Reckoner

open Grammar (bangTokens withBangs Chain)
open Lexer (ReadsOver)

-- ---------------------------------------------------------------------------
-- Tokens and heights
-- ---------------------------------------------------------------------------

/-- A symbol that ends itself is read in front of a stretch. -/
theorem Lexer.ReadsOver.symbol {y : Symbol} (hy : y ∈ selfEnding) {p : Place} {rest front : List Char}
    {tokens : List Token}
    (hMore : ReadsOver defaultPrefixUnits rest (p.advance y.display.toList) front tokens) :
    ReadsOver defaultPrefixUnits rest p (y.display.toList ++ front) (⟨.symbol y, p⟩ :: tokens) := by
  have hArrow : y ≠ .arrow := by
    rintro rfl
    exact absurd hy (by decide)
  exact .token (read_symbol hArrow (absurd hy)) (fun _ => Content.noConfusion) hMore

/-- Some `!` are read one by one. -/
theorem Lexer.readsOver_bangs (n : Nat) (p : Place) : ∃ bangs : List Place, bangs.length = n ∧
    ReadsOver defaultPrefixUnits [] p (List.replicate n '!') (bangTokens bangs) := by
  induction n generalizing p with
  | zero => exact ⟨[], rfl, .done p⟩
  | succ n ih =>
    obtain ⟨bangs, hLength, hMore⟩ := ih (p.advance ['!'])
    exact ⟨p :: bangs, congrArg (· + 1) hLength, .symbol (y := .factorial) (by decide) hMore⟩

/-- Each `!` makes a tree higher by one. -/
theorem Grammar.height_withBangs (bangs : List Place) (n : Node) :
    (withBangs bangs n).height = n.height + bangs.length := by
  induction bangs generalizing n with
  | nil => rfl
  | cons p bangs ih =>
    have hHeight : (Node.wrap .factorial n .unknown).height = n.height + 1 := by
      show max n.height 0 + 1 = _
      rw [Nat.max_zero]
    rw [withBangs, List.foldl_cons, List.length_cons]
    exact (ih _).trans (by omega)

-- ---------------------------------------------------------------------------
-- Lines
-- ---------------------------------------------------------------------------

namespace Batch

/-- `()` with some `!` behind it. -/
def factorials (n : Nat) : String :=
  String.ofList ('(' :: ')' :: List.replicate n '!')

theorem mem_factorials {n : Nat} {c : Char} (h : c ∈ '(' :: ')' :: List.replicate n '!') :
    c ∈ ['(', ')', '!'] := by
  simp only [List.mem_cons, List.mem_replicate] at h ⊢
  tauto

/-- The same as a chain, wherever its tokens stand. -/
def factorialChain (p q : Place) (bangs : List Place) : Chain :=
  .last (.mk [] (.unit p q) bangs)

variable (p q : Place) (bangs : List Place)

theorem tokens_factorialChain : (factorialChain p q bangs).tokens =
    ⟨.symbol .openParens, p⟩ :: ⟨.symbol .closeParens, q⟩ :: bangTokens bangs := by
  rw [factorialChain, Chain.tokens, Chain.row, Grammar.Row.tokens, Grammar.Operand.part,
    Grammar.Atom.phrase]
  exact List.append_nil _

theorem height_factorialChain : (factorialChain p q bangs).tree.height = bangs.length + 1 := by
  have hTree : (factorialChain p q bangs).tree = withBangs bangs (.unit p) := by
    rw [factorialChain, Chain.tree, Chain.row, Grammar.Operand.part, Grammar.Atom.phrase]
    rfl
  rw [hTree, Grammar.height_withBangs]
  exact Nat.add_comm 1 _

/-- Its nesting does not depend on its length. -/
theorem nesting_factorialChain : (factorialChain p q bangs).nesting ≤ 12 := by
  refine Chain.nesting_le_of_flat (k := 4) ⟨?_, ?_⟩
  · rw [factorialChain, Chain.row, Grammar.Operand.part, Grammar.Atom.phrase]
    show 0 + (2 + 1 + 1) ≤ 4
    decide
  · rw [factorialChain, Chain.row]
    exact List.forall_mem_nil _

theorem tokens_factorials (n : Nat) : ∃ p q bangs, bangs.length = n ∧
    Aliases.canonical.tokens (factorials n) = .ok (factorialChain p q bangs).tokens := by
  let p := Place.start
  let q := p.advance ['(']
  obtain ⟨bangs, hLength, hBangs⟩ := Lexer.readsOver_bangs n (q.advance [')'])
  refine ⟨p, q, bangs, hLength, ?_⟩
  have hReads : ReadsOver defaultPrefixUnits [] p ('(' :: ')' :: List.replicate n '!')
      (factorialChain p q bangs).tokens := by
    rw [tokens_factorialChain]
    exact .symbol (y := .openParens) (by decide) (.symbol (y := .closeParens) (by decide) hBangs)
  have hSame : Aliases.canonical.apply (factorialChain p q bangs).tokens =
      (factorialChain p q bangs).tokens := by
    rw [tokens_factorialChain, Aliases.apply, List.map_cons, List.map_cons, bangTokens, List.map_map]
    rfl
  rw [Aliases.tokens, Lexer.tokenize_eq_tokensAt, factorials, String.toList_ofList]
  exact (congrArg (Except.map _) (Lexer.tokensAt_eq_ok_iff.mpr hReads)).trans (congrArg _ hSame)

/-- No number is among the tokens. -/
theorem isShort_factorialChain : ∀ t ∈ (factorialChain p q bangs).tokens, IsShort t.content := by
  rw [tokens_factorialChain]
  refine List.forall_mem_cons.mpr ⟨nofun, List.forall_mem_cons.mpr ⟨nofun, fun t ht => ?_⟩⟩
  obtain ⟨p, -, rfl⟩ := List.mem_map.mp ht
  exact nofun

/-- **They are read with little room**, but each of them needs as much to be written. -/
theorem showLine_factorials {b : Bounds} (hNesting : 12 ≤ b.nesting) (format : Format) (n : Nat) :
    (∃ shown, showLine b .canonical format (factorials n) = .ok shown) ↔ n < b.height format := by
  obtain ⟨p, q, bangs, rfl, hTokens⟩ := tokens_factorials n
  have hParsed : (b.parse defaultPrefixUnits (factorialChain p q bangs).tokens).result =
      .ok (factorialChain p q bangs).tree :=
    (((factorialChain p q bangs).isExpression defaultPrefixUnits).parseWithin b.nesting).1
      ((nesting_factorialChain p q bangs).trans hNesting)
  have hTree : treeOf b .canonical (factorials bangs.length) = .ok (factorialChain p q bangs).tree := by
    rw [treeOf, hTokens]
    exact mapError_eq_ok.mpr hParsed
  have hFormed := Grammar.parseWithin_formedOf hParsed (isShort_factorialChain p q bangs)
  have hStops := format.writeWithin_stops (b.height format) (hasFraction_of_isShort hFormed)
  rw [showLine_of_tree hTree]
  simp only [mapError_eq_ok]
  rw [hStops.isWritten_iff, height_factorialChain, not_lt, Nat.succ_le_iff]
  exact and_iff_left (format.not_carries hFormed)

end Batch

end Reckoner
