import Reckoner.Lexer.Stream
import Reckoner.Proofs.Lexer.Lexemes

/-!
# Prefix units

The units that do not begin like a word are matched character by character, from a list that is sorted
by length alone and holds them in whatever order and as often as they were given. The first unit in such
a list with which a text starts is the longest, and there is only one longest: two units of one length
with which the same text starts are equal. So the match is told by the set of the units
(`matchUnit?_eq_some_iff`), and with it everything that is read.

## Results

* `longestFirst_symbolUnits` — the units are listed longest first.
* `matchUnit?_eq_some_iff`   — the unit that is matched is the longest one ahead.
* `tokensFrom_congr`         — what matches the same units reads the same tokens.
* `units_form_set`           — neither order nor repetition of the units matters, nor units like words.
-/

namespace Reckoner

namespace Lexer

-- ---------------------------------------------------------------------------
-- The order of the units
-- ---------------------------------------------------------------------------

/-- Longer units come first. -/
def LongestFirst (units : List String) : Prop :=
  units.Pairwise fun u v => v.length ≤ u.length

theorem LongestFirst.insertUnit {units : List String} (h : LongestFirst units) (unit : String) :
    LongestFirst (insertUnit unit units) := by
  induction units with
  | nil => exact List.pairwise_singleton _ _
  | cons u us ih =>
    obtain ⟨hFirst, hRest⟩ := List.pairwise_cons.mp h
    unfold Lexer.insertUnit
    split
    · rename_i hLe
      refine List.pairwise_cons.mpr ⟨fun v hv => ?_, h⟩
      rcases List.mem_cons.mp hv with rfl | hv
      · exact hLe
      · exact (hFirst v hv).trans hLe
    · rename_i hLess
      refine List.pairwise_cons.mpr ⟨fun v hv => ?_, ih hRest⟩
      rcases mem_insertUnit.mp hv with rfl | hv
      · exact (Nat.lt_of_not_le hLess).le
      · exact hFirst v hv

/-- **The units are listed longest first.** -/
theorem longestFirst_symbolUnits (units : List String) : LongestFirst (symbolUnits units) := by
  unfold symbolUnits
  induction units.filter isSymbolUnit with
  | nil => exact .nil
  | cons u us ih => exact ih.insertUnit u

-- ---------------------------------------------------------------------------
-- The longest unit ahead
-- ---------------------------------------------------------------------------

/-- A unit that does not begin like a word, and with which a text starts. -/
structure UnitAhead (units : List String) (cs : List Char) (u : String) : Prop where
  listed : u ∈ units
  nonempty : u ≠ ""
  sign : ∀ c ∈ u.toList.head?, isWordStart c = false
  ahead : u.toList <+: cs

/-- The longest of these units. -/
structure IsLongestUnit (units : List String) (cs : List Char) (u : String) : Prop
    extends UnitAhead units cs u where
  longest : ∀ v, UnitAhead units cs v → v.length ≤ u.length

theorem isSymbolUnit_iff {u : String} :
    isSymbolUnit u = true ↔ u ≠ "" ∧ ∀ c ∈ u.toList.head?, isWordStart c = false := by
  unfold isSymbolUnit
  cases hu : u.toList with
  | nil => simp [String.toList_eq_nil_iff.mp hu]
  | cons c cs =>
    have hSome : u ≠ "" := by
      rintro rfl
      cases hu
    simp [hSome]

theorem unitAhead_iff {units : List String} {cs : List Char} {u : String} :
    UnitAhead units cs u ↔ u ∈ symbolUnits units ∧ u.toList.isPrefixOf cs = true := by
  rw [mem_symbolUnits, isSymbolUnit_iff, List.isPrefixOf_iff_prefix]
  exact ⟨fun h => ⟨⟨h.listed, h.nonempty, h.sign⟩, h.ahead⟩, fun h => ⟨h.1.1, h.1.2.1, h.1.2.2, h.2⟩⟩

/-- Two units of one length with which a text starts are equal. -/
theorem UnitAhead.eq_of_length_eq {units others : List String} {cs : List Char} {u v : String}
    (hu : UnitAhead units cs u) (hv : UnitAhead others cs v) (h : u.length = v.length) : u = v := by
  have hPrefix := List.prefix_of_prefix_length_le hu.ahead hv.ahead h.le
  exact String.toList_inj.mp (hPrefix.eq_of_length h)

theorem IsLongestUnit.unique {units : List String} {cs : List Char} {u v : String}
    (hu : IsLongestUnit units cs u) (hv : IsLongestUnit units cs v) : u = v :=
  hu.eq_of_length_eq hv.toUnitAhead
    (Nat.le_antisymm (hv.longest u hu.toUnitAhead) (hu.longest v hv.toUnitAhead))

variable {units others : List String} {cs rest : List Char} {unit : String}

/-- In a list with the longer units first, the first one ahead is the longest. -/
theorem isLongestUnit_of_find?
    (h : (symbolUnits units).find? (fun u => u.toList.isPrefixOf cs) = some unit) :
    IsLongestUnit units cs unit := by
  obtain ⟨hAhead, earlier, later, hUnits, hEarlier⟩ := List.find?_eq_some_iff_append.mp h
  have hSorted := longestFirst_symbolUnits units
  rw [hUnits] at hSorted
  obtain ⟨hLater, -⟩ := List.pairwise_cons.mp (List.pairwise_append.mp hSorted).2.1
  have hMem : unit ∈ symbolUnits units := by
    rw [hUnits]
    exact List.mem_append_right _ List.mem_cons_self
  refine ⟨unitAhead_iff.mpr ⟨hMem, hAhead⟩, fun v hv => ?_⟩
  obtain ⟨hListed, hPrefix⟩ := unitAhead_iff.mp hv
  rw [hUnits] at hListed
  rcases List.mem_append.mp hListed with hListed | hListed
  · -- no unit before it is ahead
    have hNot := hEarlier v hListed
    rw [hPrefix] at hNot
    cases hNot
  · rcases List.mem_cons.mp hListed with rfl | hListed
    · exact Nat.le_refl _
    · exact hLater v hListed

/-- **The unit that is matched is the longest one ahead.** -/
theorem matchUnit?_eq_some_iff :
    matchUnit? (symbolUnits units) cs = some (unit, rest) ↔
      IsLongestUnit units cs unit ∧ cs = unit.toList ++ rest := by
  constructor
  · intro h
    obtain ⟨-, hText⟩ := matchUnit?_some h
    obtain ⟨u, hFind, hu⟩ := Option.map_eq_some_iff.mp h
    obtain ⟨rfl, -⟩ := Prod.mk.inj hu
    exact ⟨isLongestUnit_of_find? hFind, hText⟩
  · rintro ⟨hUnit, rfl⟩
    unfold matchUnit?
    cases hFind : (symbolUnits units).find? fun u => u.toList.isPrefixOf (unit.toList ++ rest) with
    | none =>
      obtain ⟨hListed, hAhead⟩ := unitAhead_iff.mp hUnit.toUnitAhead
      exact absurd hAhead (List.find?_eq_none.mp hFind unit hListed)
    | some u =>
      obtain rfl := (isLongestUnit_of_find? hFind).unique hUnit
      rw [Option.map_some, List.drop_left]

theorem matchUnit?_eq_none_iff :
    matchUnit? (symbolUnits units) cs = none ↔ ∀ u, ¬ UnitAhead units cs u := by
  unfold matchUnit?
  rw [Option.map_eq_none_iff, List.find?_eq_none]
  exact ⟨fun h u hu => h u (unitAhead_iff.mp hu).1 (unitAhead_iff.mp hu).2,
    fun h u hu hAhead => h u (unitAhead_iff.mpr ⟨hu, hAhead⟩)⟩

-- ---------------------------------------------------------------------------
-- Units that match alike
-- ---------------------------------------------------------------------------

/-- Two collections with the same units that do not begin like a word. -/
def SameSigns (units others : List String) : Prop :=
  ∀ u, u ≠ "" → (∀ c ∈ u.toList.head?, isWordStart c = false) → (u ∈ units ↔ u ∈ others)

theorem SameSigns.unitAhead (h : SameSigns units others) {u : String} :
    UnitAhead units cs u ↔ UnitAhead others cs u :=
  ⟨fun hu => ⟨(h u hu.nonempty hu.sign).mp hu.listed, hu.nonempty, hu.sign, hu.ahead⟩,
    fun hu => ⟨(h u hu.nonempty hu.sign).mpr hu.listed, hu.nonempty, hu.sign, hu.ahead⟩⟩

/-- The same units are matched. -/
theorem SameSigns.matchUnit? (h : SameSigns units others) (cs : List Char) :
    matchUnit? (symbolUnits units) cs = matchUnit? (symbolUnits others) cs := by
  cases hOthers : Lexer.matchUnit? (symbolUnits others) cs with
  | none => exact matchUnit?_eq_none_iff.mpr fun u hu =>
      matchUnit?_eq_none_iff.mp hOthers u (h.unitAhead.mp hu)
  | some found =>
    obtain ⟨unit, rest⟩ := found
    obtain ⟨hUnit, hText⟩ := matchUnit?_eq_some_iff.mp hOthers
    exact matchUnit?_eq_some_iff.mpr ⟨⟨h.unitAhead.mpr hUnit.toUnitAhead,
      fun v hv => hUnit.longest v (h.unitAhead.mp hv)⟩, hText⟩

/-- Reading a token sees of the units only which one is matched. -/
theorem read_congr {us vs : List String} (h : ∀ cs, matchUnit? us cs = matchUnit? vs cs)
    (cs : List Char) : read us cs = read vs cs := by
  cases cs with
  | nil => rfl
  | cons c cs => rw [read, read, h]

/-- **What matches the same units reads the same tokens.** -/
theorem tokensFrom_congr {us vs : List String} (h : ∀ cs, matchUnit? us cs = matchUnit? vs cs)
    (fuel : Nat) (place : Place) (cs : List Char) :
    tokensFrom us fuel place cs = tokensFrom vs fuel place cs := by
  induction fuel generalizing place cs with
  | zero => rfl
  | succ fuel ih => simp only [tokensFrom, read_congr h cs, ih]

theorem SameSigns.tokenize (h : SameSigns units others) (source : String) :
    tokenize units source = tokenize others source :=
  tokensFrom_congr h.matchUnit? _ _ _

end Lexer

open Lexer (UnitAhead IsLongestUnit isWordStart)

/-- **The prefix units form a set.** Collections with the same members give the same tokens or the same
error for every text. At every position of a stream the longest of the units ahead that do not begin like
a word is matched and taken, and nothing is matched or taken exactly where there is none. Units that are
empty or begin like a word add nothing. -/
theorem units_form_set (units : List String) :
    (∀ others : List String, (∀ u, u ∈ others ↔ u ∈ units) →
      ∀ source, tokenize others source = tokenize units source) ∧
    (∀ s : Stream,
      (∃ u, IsLongestUnit units s.ahead u ∧ s.matchUnit (Lexer.symbolUnits units) =
        (.ok (some ⟨.ident u, s.place⟩), s.advance u.toList)) ∨
      ((∀ u, ¬ UnitAhead units s.ahead u) ∧
        s.matchUnit (Lexer.symbolUnits units) = (.ok none, s))) ∧
    (∀ added : List String, (∀ u ∈ added, u = "" ∨ ∃ c ∈ u.toList.head?, isWordStart c = true) →
      ∀ others : List String, (∀ u, u ∈ others ↔ u ∈ units ∨ u ∈ added) →
        ∀ source, tokenize others source = tokenize units source) := by
  refine ⟨fun others hSame => ?_, fun s => ?_, fun added hAdded others hSame => ?_⟩
  · exact Lexer.SameSigns.tokenize fun u _ _ => hSame u
  · unfold Stream.matchUnit
    cases hMatch : Lexer.matchUnit? (Lexer.symbolUnits units) s.ahead with
    | none => exact Or.inr ⟨Lexer.matchUnit?_eq_none_iff.mp hMatch, rfl⟩
    | some found =>
      obtain ⟨u, rest⟩ := found
      obtain ⟨hUnit, hText⟩ := Lexer.matchUnit?_eq_some_iff.mp hMatch
      refine Or.inl ⟨u, hUnit, ?_⟩
      dsimp only
      rw [hText, Lexer.before_append]
  · refine Lexer.SameSigns.tokenize fun u hSome hSign => (hSame u).trans ⟨fun hu => ?_, Or.inl⟩
    refine hu.resolve_right fun hu => ?_
    rcases hAdded u hu with rfl | ⟨c, hc, hStart⟩
    · exact hSome rfl
    · rw [hSign c hc] at hStart
      cases hStart

/-- Dollars in another order, some of them twice, and with an empty unit and one that is a word: `$$$ 5`
starts with two units, of which the longer one is taken. -/
theorem dollars_form_set :
    let units := ["$", "$$", "€"]
    let others := ["$$", "€", "$", "$$"]
    let s : Stream := ⟨['$', '$', '$', ' ', '5'], 0, .start⟩
    (∀ u, u ∈ others ↔ u ∈ units) ∧
      (∀ u ∈ ["", "CHF"], u = "" ∨ ∃ c ∈ u.toList.head?, isWordStart c = true) ∧
      tokenize others "$$$ 5" = tokenize units "$$$ 5" ∧
      tokenize (units ++ ["", "CHF"]) "$$$ 5" = tokenize units "$$$ 5" ∧
      IsLongestUnit units s.ahead "$$" ∧
      s.matchUnit (Lexer.symbolUnits units) =
        (.ok (some ⟨.ident "$$", .start⟩), ⟨s.source, 2, ⟨1, 3⟩⟩) := by
  intro units others s
  have hSame : ∀ u, u ∈ others ↔ u ∈ units := by
    intro u
    simp only [others, units, List.mem_cons, List.not_mem_nil, or_false]
    tauto
  have hAdded : ∀ u ∈ ["", "CHF"], u = "" ∨ ∃ c ∈ u.toList.head?, isWordStart c = true := by
    simp only [List.forall_mem_cons]
    exact ⟨.inl trivial, .inr ⟨'C', rfl, by decide +kernel⟩, nofun⟩
  have hStep : s.matchUnit (Lexer.symbolUnits units) =
      (.ok (some ⟨.ident "$$", .start⟩), ⟨s.source, 2, ⟨1, 3⟩⟩) := by
    have hUnits : Lexer.symbolUnits units = ["$$", "$", "€"] := by decide +kernel
    rw [hUnits]
    rfl
  obtain ⟨hAgree, hMatch, hMore⟩ := units_form_set units
  refine ⟨hSame, hAdded, hAgree others hSame _,
    hMore _ hAdded _ (fun u => List.mem_append) _, ?_, hStep⟩
  rcases hMatch s with ⟨u, hUnit, hTaken⟩ | ⟨-, hTaken⟩
  · rw [hStep] at hTaken
    obtain rfl : "$$" = u := by
      have hToken := Option.some.inj (Except.ok.inj (Prod.mk.inj hTaken).1)
      exact Content.ident.inj (Token.mk.inj hToken).1
    exact hUnit
  · rw [hStep] at hTaken
    cases hTaken

end Reckoner
