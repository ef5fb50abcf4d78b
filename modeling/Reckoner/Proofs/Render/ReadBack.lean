import Reckoner.Proofs.Grammar.Inventory
import Reckoner.Proofs.Grammar.Language
import Reckoner.Proofs.Render.Reparsed

/-!
# Parenthesised text is read back

A tree that was read from a text, and whose literals are written without loss, is written in
parenthesised form and read again. The tree that is read then has the same essence.

The literals have to be restricted. A text may hold no control character that a string has no escape
for, an integer may not be too long, and a number that ends too far behind the point is rounded when
it is written.

## Results

* `prints_of_derives`      — a tree that was read from a text is printed.
* `parenthesised_readBack` — its parenthesised text is read back.
* `parseSource_decimal`    — the text of a decimal is read as its value.
-/

namespace Reckoner

open Grammar (Derives Phrase Stratum inclusions parseWithin productOperators sumOperators)

namespace Render

open Lexer (IsReadable IsWritableText Piece)

-- ---------------------------------------------------------------------------
-- Literals
-- ---------------------------------------------------------------------------

/-- A node that is no literal, or a literal that is written without loss. -/
structure IsFaithful (n : Node) : Prop where
  string : ∀ s p, n = .string s p → IsWritableText s
  number : ∀ q p, n = .number (.fraction q) p → IsWritable q

theorem isFaithful_of_kind_ne {n : Node} (h : n.kind ≠ .literal) : IsFaithful n := by
  constructor
  · rintro s p rfl
    exact absurd rfl h
  · rintro q p rfl
    exact absurd rfl h

theorem isFaithful_number {q : ℚ} (p : Place) (h : IsWritable q) :
    IsFaithful (.number (.fraction q) p) := by
  constructor
  · intro s p' hn
    simp [Node.number, Node.string] at hn
  · intro q' p' hn
    obtain rfl : q = q' := Payload.fraction.inj (congrArg Node.value hn)
    exact h

theorem isFaithful_string {s : String} (p : Place) (h : IsWritableText s) :
    IsFaithful (.string s p) := by
  constructor
  · intro s' p' hn
    obtain rfl : s = s' := Json.string.inj (Payload.datum.inj (congrArg Node.value hn))
    exact h
  · intro q p' hn
    simp [Node.number, Node.string] at hn

/-- The form in which the trees of a stratum are printed. -/
def formOf : Stratum → Form
  | .primary | .factorial | .plainPower | .power | .mixedFraction => .closed
  | .multiplicative | .implicitSum | .additive | .function | .assignment => .opened
  | .sequence | .statements => .listed

theorem formOf_inclusion : ∀ e ∈ inclusions, formOf e.1 = formOf e.2 ∨
    (formOf e.1 = .closed ∧ formOf e.2 = .opened) ∨
      (formOf e.1 = .opened ∧ formOf e.2 = .listed) := by
  decide

variable {n : Node} {pieces : List Piece}

theorem Prints.widen {s s' : Stratum} (hs : (s, s') ∈ inclusions) (h : Prints (formOf s) n pieces) :
    Prints (formOf s') n pieces := by
  rcases formOf_inclusion _ hs with hSame | ⟨hForm, hForm'⟩ | ⟨hForm, hForm'⟩
  · rwa [← hSame]
  · rw [hForm] at h
    rw [hForm']
    exact .opened h
  · rw [hForm] at h
    rw [hForm']
    exact .listed h

theorem prints_number {v : Payload} {p : Place} (hv : IsReadable (.number v))
    (hn : IsFaithful (.number v p)) : ∃ pieces, Prints .closed (.number v p) pieces := by
  obtain ⟨q, hq, rfl⟩ := hv
  obtain ⟨num, hNum⟩ := (hn.number q p rfl).writes hq
  exact ⟨_, .number p hNum⟩

/-- The tokens and the literals of a tree have a spelling. -/
structure IsSpelled (used : List Token) (n : Node) : Prop where
  tokens : ∀ t ∈ used, IsReadable t.content
  nodes : ∀ m ∈ n.nodes, IsFaithful m

/-- The parts of a tree are spelled too, with the tokens that belong to them. -/
theorem IsSpelled.part {used used' : List Token} {m : Node} (h : IsSpelled used n)
    (hUsed : ∀ t ∈ used', t ∈ used := by simp +contextual)
    (hNodes : ∀ k ∈ m.nodes, k ∈ n.nodes := by simp +contextual) : IsSpelled used' m :=
  ⟨fun t ht => h.tokens t (hUsed t ht), fun k hk => h.nodes k (hNodes k hk)⟩

theorem IsSpelled.number {v : Payload} {p q : Place} {used : List Token} (h : IsSpelled used n)
    (hUsed : ⟨.number v, q⟩ ∈ used) (hNode : Node.number v p ∈ n.nodes) :
    ∃ pieces, Prints .closed (.number v p) pieces :=
  prints_number (h.tokens _ hUsed) (h.nodes _ hNode)

theorem prints_fraction {a b : Node} {top bottom : List Piece} (ha : Prints .closed a top)
    (hb : Prints .closed b bottom) : Prints .opened (.binary .div a b) (between .div top bottom) := by
  have hy : (Symbol.div, Operator.div) ∈ productOperators := by decide
  exact .opened (.product hy (.opened ha) hb)

theorem prints_juxtaposed {units : List String} {l r : Node} {k : Kind} {left right : List Piece}
    (hk : Grammar.juxtapositionKind units l r = .ok (some k)) (hl : Prints .opened l left)
    (hr : Prints .closed r right) : ∃ pieces, Prints .opened (.pair k l r) pieces := by
  cases Grammar.Juxtaposes.of_kind hk with
  | product _ hr' _ => exact ⟨_, .opened (.adjoined .product (Or.inr hr') hl hr)⟩
  | call hNumber _ _ _ _ => exact ⟨_, .call hNumber hl hr⟩
  | prefixUnit hUnit _ =>
    have hKind : l.kind = .identifier := by
      unfold Grammar.isPrefixUnit at hUnit
      simp only [Bool.and_eq_true, decide_eq_true_eq] at hUnit
      exact hUnit.1
    have hNumber : l.isNumber = false := Node.isNumber_of_kind_ne (by simp [hKind])
    exact ⟨_, .opened (.adjoined .apply (Or.inl hNumber) hl hr)⟩
  | apply hNumber _ _ _ => exact ⟨_, .opened (.adjoined .apply (Or.inl hNumber) hl hr)⟩

/-- What may stand on the right of a compound quantity is no call. -/
theorem kind_ne_of_tail {m : Node} (hm : Grammar.IsQuantityTail m) : m.kind ≠ .call := by
  intro hk
  rcases hm with hProduct | hNumber | hBinary
  · simp [hProduct] at hk
  · simp [Node.kind_of_isNumber hNumber] at hk
  · simp [Node.isBinary, hk] at hBinary

/-- **A tree that was read from a text is printed**, if its literals are faithful. -/
theorem prints_of_derives {s : Stratum} {used : List Token} {n : Node}
    (h : Derives defaultPrefixUnits s used n) (hSpelled : IsSpelled used n) :
    ∃ pieces, Prints (formOf s) n pieces := by
  induction h with
  | widen hs _ ih =>
    obtain ⟨pieces, h⟩ := ih hSpelled
    exact ⟨pieces, h.widen hs⟩
  | number v p => exact hSpelled.number List.mem_cons_self (by simp)
  | string x p => exact ⟨_, .string p ((hSpelled.nodes _ (by simp)).string x p rfl)⟩
  | ident x p => exact ⟨_, .ident p (hSpelled.tokens _ List.mem_cons_self)⟩
  | unit p q => exact ⟨_, .unit p⟩
  | member x p q _ ih =>
    obtain ⟨pieces, h⟩ := ih hSpelled.part
    exact ⟨_, .member p (hSpelled.tokens _ List.mem_cons_self) h⟩
  | parens p q _ ih =>
    obtain ⟨pieces, h⟩ := ih hSpelled.part
    exact ⟨_, .parens p h⟩
  | unclosed p _ ih =>
    obtain ⟨pieces, h⟩ := ih hSpelled.part
    exact ⟨_, .parens p h⟩
  | lambda x p q r _ ih =>
    obtain ⟨pieces, h⟩ := ih hSpelled.part
    exact ⟨_, .function p (hSpelled.tokens ⟨.ident x, q⟩ (by simp)) h⟩
  | factorial p _ ih =>
    obtain ⟨pieces, h⟩ := ih hSpelled.part
    exact ⟨_, .factorial .unknown h⟩
  | pow p _ _ ih ih' =>
    obtain ⟨left, hl⟩ := ih hSpelled.part
    obtain ⟨right, hr⟩ := ih' hSpelled.part
    exact ⟨_, .pow hl hr⟩
  | prefixed p hy _ ih =>
    obtain ⟨pieces, h⟩ := ih hSpelled.part
    exact ⟨_, .prefixed p hy h⟩
  | mixedPlus v w u p q r t =>
    have hy : (Symbol.add, Node.binary .plus) ∈ sumOperators := by simp [sumOperators]
    obtain ⟨whole, hWhole⟩ := hSpelled.number (v := v) (p := p) (q := p) (by simp) (by simp)
    obtain ⟨top, hTop⟩ := hSpelled.number (v := w) (p := q) (q := q) (by simp) (by simp)
    obtain ⟨bottom, hBottom⟩ := hSpelled.number (v := u) (p := t) (q := t) (by simp) (by simp)
    exact ⟨_, .sum hy (.opened hWhole) (prints_fraction hTop hBottom)⟩
  | mixedMinus v w u o p q r t =>
    have hy : (Symbol.sub, Node.binary .minus) ∈ sumOperators := by simp [sumOperators]
    have hk : (Symbol.sub, Kind.negation) ∈ Grammar.prefixes := by decide
    obtain ⟨whole, hWhole⟩ := hSpelled.number (v := v) (p := p) (q := p) (by simp) (by simp)
    obtain ⟨top, hTop⟩ := hSpelled.number (v := w) (p := q) (q := q) (by simp) (by simp)
    obtain ⟨bottom, hBottom⟩ := hSpelled.number (v := u) (p := t) (q := t) (by simp) (by simp)
    exact ⟨_, .sum hy (.opened (.prefixed o hk hWhole)) (prints_fraction hTop hBottom)⟩
  | product p hy _ _ ih ih' =>
    obtain ⟨left, hl⟩ := ih hSpelled.part
    obtain ⟨right, hr⟩ := ih' hSpelled.part
    exact ⟨_, .opened (.product hy hl hr)⟩
  | timesMixed p _ _ ih ih' =>
    have hy : (Symbol.mul, Operator.mul) ∈ productOperators := by decide
    obtain ⟨left, hl⟩ := ih hSpelled.part
    obtain ⟨right, hr⟩ := ih' hSpelled.part
    exact ⟨_, .opened (.product hy hl hr)⟩
  | juxtaposed _ _ hk ih ih' =>
    obtain ⟨left, hl⟩ := ih hSpelled.part
    obtain ⟨right, hr⟩ := ih' hSpelled.part
    exact prints_juxtaposed hk hl hr
  | compound _ hn _ hm ih ih' =>
    obtain ⟨left, hl⟩ := ih hSpelled.part
    obtain ⟨right, hr⟩ := ih' hSpelled.part
    have hNumber := Node.isNumber_of_kind_ne (by rw [hn]; decide)
    have hClosed := hr.closed_of_kind_ne (kind_ne_of_tail hm)
    exact ⟨_, .opened (.adjoined .compound (Or.inl hNumber) hl hClosed)⟩
  | @sum _ _ l r _ build p hy _ _ ih ih' =>
    have hLeft : ∀ k ∈ l.nodes, k ∈ (build l r).nodes := by simp +contextual [Grammar.nodes_sum hy]
    have hRight : ∀ k ∈ r.nodes, k ∈ (build l r).nodes := by simp +contextual [Grammar.nodes_sum hy]
    obtain ⟨left, hl⟩ := ih (hSpelled.part (by simp +contextual) hLeft)
    obtain ⟨right, hr⟩ := ih' (hSpelled.part (by simp +contextual) hRight)
    exact ⟨_, .opened (.sum hy hl hr)⟩
  | arrow x p q _ ih =>
    obtain ⟨pieces, h⟩ := ih hSpelled.part
    exact ⟨_, .opened (.function p (hSpelled.tokens _ List.mem_cons_self) h)⟩
  | assignment x p q _ ih =>
    obtain ⟨pieces, h⟩ := ih hSpelled.part
    exact ⟨_, .opened (.assignment p (hSpelled.tokens _ List.mem_cons_self) h)⟩
  | leading p _ ih => exact ih hSpelled.part
  | trailing p _ ih => exact ih hSpelled.part
  | sequence p _ _ ih ih' =>
    obtain ⟨left, hl⟩ := ih hSpelled.part
    obtain ⟨right, hr⟩ := ih' hSpelled.part
    exact ⟨_, .sequence hl hr⟩
  | nothing ps => exact ⟨_, .listed (.opened (.unit .unknown))⟩

-- ---------------------------------------------------------------------------
-- Reading texts
-- ---------------------------------------------------------------------------

/-- The tree of a source text with the prefix units that there are without any configuration. -/
def readWithin (depth : Nat) (source : String) : Except ReadError Node :=
  parseSourceWithin depth defaultPrefixUnits source

/-- Under its own bound the program reads texts in this way. -/
theorem readWithin_maxNesting (source : String) :
    readWithin maxNesting source = parseSource defaultPrefixUnits source := rfl

/-- The tree of a text. It is read under every bound that allows the nesting, and a smaller bound can
do no more than to be exhausted. -/
def HasTree (text : String) (n : Node) (nesting : Nat) : Prop :=
  ∀ depth, (nesting ≤ depth → readWithin depth text = .ok n) ∧
    (readWithin depth text = .ok n ∨ readWithin depth text = .error (.parsing (.error .tooDeep)))

theorem squeeze_of_plain {ts : List Token} (h : Grammar.Plain ts) (behind : Bool) :
    Grammar.squeeze behind ts = ts := by
  induction ts generalizing behind with
  | nil => rfl
  | cons t ts ih =>
    obtain ⟨⟨hBlank, -⟩, hRest⟩ := Grammar.plain_cons.mp h
    rw [Grammar.squeeze, hBlank, if_neg (by simp), ih hRest]

theorem significant_of_not_isFinish {ts : List Token} (h : ∀ t ∈ ts, t.isFinish = false) :
    Grammar.significant ts = ts := by
  unfold Grammar.significant
  rw [List.filter_eq_self]
  intro t ht
  simp [h t ht]

/-- Blanks that are squeezed out do not count. -/
theorem Squeezes.parseWithin_eq {units : List String} {used all : List Token}
    (h : Squeezes used all) (hPlain : Grammar.Plain used) (depth : Nat) :
    (parseWithin depth units all).result = (parseWithin depth units used).result := by
  refine Grammar.parseWithin_of_squeeze_eq depth units ?_
  have hSqueezed := h.squeeze []
  rw [List.append_nil, Grammar.squeeze, List.append_nil] at hSqueezed
  rw [significant_of_not_isFinish h.significant,
    significant_of_not_isFinish fun t ht => (hPlain t ht).2, hSqueezed, squeeze_of_plain hPlain]

theorem HasTree.mono {text : String} {nesting nesting' : Nat} (h : HasTree text n nesting)
    (hNesting : nesting ≤ nesting') : HasTree text n nesting' := by
  intro depth
  obtain ⟨hWithin, hAlways⟩ := h depth
  exact ⟨fun hDepth => hWithin (hNesting.trans hDepth), hAlways⟩

/-- Statements are read from every text that has their tokens, blanks aside. -/
theorem hasTree_of_tokens {source : String} {tokens : List Token} {ph : Phrase}
    (hTokens : tokenize defaultPrefixUnits source = .ok tokens) (hUsed : Squeezes ph.used tokens)
    (hPhrase : ph.IsStatements defaultPrefixUnits) : HasTree source ph.node (ph.nesting + 2) := by
  intro depth
  obtain ⟨hWithin, hAlways⟩ := hPhrase.isExpression.parseWithin depth
  have hSame : (parseWithin depth defaultPrefixUnits tokens).result =
      (parseWithin depth defaultPrefixUnits ph.used).result :=
    hUsed.parseWithin_eq hPhrase.plain depth
  have hReading : readWithin depth source =
      (parseWithin depth defaultPrefixUnits ph.used).result.mapError .parsing := by
    unfold readWithin parseSourceWithin
    rw [hTokens, ← hSame]
    rfl
  rw [hReading]
  refine ⟨fun hDepth => congrArg _ (hWithin hDepth), ?_⟩
  rcases hAlways with hTree | hDeep
  · exact Or.inl (congrArg _ hTree)
  · exact Or.inr (congrArg _ hDeep)

/-- **What is printed is read**, as a tree with the same essence. -/
theorem Prints.hasTree {source : String} (h : Prints .listed n pieces)
    (hSource : source.toList = Lexer.spelled pieces) :
    ∃ m, HasTree source m (21 * n.height + 10) ∧ m.essence = n.essence := by
  have hRead := h.spells.reads [] (fun c hc => by cases hc)
  obtain ⟨tokens, hTokens, hContents⟩ := Lexer.tokenize_pieces hSource hRead
  obtain ⟨ph, hPhrase⟩ := h.areReadBack defaultPrefixUnits tokens hContents
  have hNesting : ph.nesting ≤ 21 * n.height + 8 := hPhrase.nesting
  have hTree := hasTree_of_tokens hTokens hPhrase.tokens hPhrase.phrase
  exact ⟨ph.node, hTree.mono (by omega), hPhrase.essence⟩

/-- **Parenthesised text is read back.** A tree that was read from a text, and whose literals are
faithful, is written under every bound that allows its height, and what is written is read as a tree
with the same essence under every bound that allows a nesting linear in the height. -/
theorem parenthesised_readBack {depth : Nat} {source : String} {t : Node}
    (hSource : readWithin depth source = .ok t) (hFaithful : ∀ m ∈ t.nodes, IsFaithful m) :
    ∃ text n, HasText t text ∧ HasTree text n (21 * t.height + 10) ∧ n.essence = t.essence := by
  obtain ⟨tokens, hTokens, hParse⟩ := bind_eq_ok.mp hSource
  have hTokens := mapError_eq_ok.mp hTokens
  have hParse := mapError_eq_ok.mp hParse
  -- the tokens that are derived are some of those that were read
  have hReadable : ∀ u ∈ Cursor.solid (Grammar.significant tokens), IsReadable u.content := by
    intro u hu
    exact Lexer.tokenize_readable hTokens u (List.mem_of_mem_filter (List.mem_of_mem_filter hu))
  obtain ⟨pieces, hPrints⟩ :=
    prints_of_derives (Grammar.parseWithin_derives hParse) ⟨hReadable, hFaithful⟩
  obtain ⟨text, hText, hSpelled⟩ := hPrints.hasText
  obtain ⟨n, hTree, hEssence⟩ := hPrints.hasTree hSpelled
  exact ⟨text, n, hText, hTree, hEssence⟩

/-- The tree of `size = 6 feet 1 inch; say "yes"`. -/
def sizeSaid : Node :=
  .pair .statements
    (.named .assignment (.text "size")
      (.binary .implicitPlus
        (.pair .product (.number (.fraction 6) ⟨1, 8⟩) (.ident "feet" ⟨1, 10⟩))
        (.pair .product (.number (.fraction 1) ⟨1, 15⟩) (.ident "inch" ⟨1, 17⟩))) ⟨1, 1⟩)
    (.pair .apply (.ident "say" ⟨1, 23⟩) (.string "yes" ⟨1, 27⟩))

set_option maxRecDepth 4000 in
theorem sizeSaid_readBack :
    readWithin maxNesting "size = 6 feet 1 inch; say \"yes\"" = .ok sizeSaid ∧
      (∀ m ∈ sizeSaid.nodes, IsFaithful m) ∧
      ∃ n, HasText sizeSaid "(size = ((6 feet) (1 inch))); (say \"yes\")" ∧
        HasTree "(size = ((6 feet) (1 inch))); (say \"yes\")" n (21 * sizeSaid.height + 10) ∧
        n.essence = sizeSaid.essence := by
  have hSource : readWithin maxNesting "size = 6 feet 1 inch; say \"yes\"" = .ok sizeSaid := rfl
  have hFaithful : ∀ m ∈ sizeSaid.nodes, IsFaithful m := by
    have hSix : IsWritable 6 := Or.inl ⟨rfl, by decide +kernel⟩
    have hOne : IsWritable 1 := Or.inl ⟨rfl, by decide +kernel⟩
    have hYes : IsWritableText "yes" := List.all_iff_forall_prop.mp (by decide)
    unfold sizeSaid
    simp (disch := decide) [isFaithful_of_kind_ne, isFaithful_number _ hSix,
      isFaithful_number _ hOne, isFaithful_string _ hYes]
  obtain ⟨text, n, hText, hTree, hEssence⟩ := parenthesised_readBack hSource hFaithful
  have hWritten : parenthesised 5 sizeSaid =
      .ok "(size = ((6 feet) (1 inch))); (say \"yes\")" := by decide +kernel
  obtain rfl := Except.ok.inj (((hText 5).1 (by decide)).symm.trans hWritten)
  exact ⟨hSource, hFaithful, n, hText, hTree, hEssence⟩

-- ---------------------------------------------------------------------------
-- Numbers that are not read back
-- ---------------------------------------------------------------------------

/-- The text of a decimal on its own is read as its value. -/
theorem parseSource_decimal {d : Decimal} (hSign : d.negative = false)
    (hDigits : d.digits < tenTo Decimal.precision) (hExponent : d.exponent.natAbs < tenTo 7) :
    ∃ p, parseSource defaultPrefixUnits d.text = .ok (.number (.fraction d.magnitude) p) := by
  have hValue := Decimal.numeral_value hDigits hExponent
  have hSpelled : d.text.toList = Lexer.spelled [Piece.number d.numeral d.magnitude] := by
    rw [Decimal.text_eq hSign]
    exact (List.append_nil _).symm
  have hRead : Lexer.AllRead [Piece.number d.numeral d.magnitude] [] :=
    ⟨Piece.reads_number d.numeral_regular hValue (fun c hc => by cases hc), trivial⟩
  obtain ⟨tokens, hTokens, hContents⟩ := Lexer.tokenize_pieces hSpelled hRead
  obtain ⟨p, none, rfl, hNone⟩ := StandFor.cons hContents
  obtain rfl := hNone.nil
  have hNumber : (Phrase.number (.fraction d.magnitude) p).IsPrimary defaultPrefixUnits :=
    Phrase.isPrimary_number _ _
  have hStatements := hNumber.isProduct.single.assignment.isStatements
  have hTree := hasTree_of_tokens hTokens (squeezes_token rfl rfl rfl) hStatements
  exact ⟨p, (hTree maxNesting).1 (by decide : 12 ≤ 970)⟩

/-- A large power of ten is not written. -/
theorem formatNumber_large {places : Nat} (h : maxDigits ≤ places) :
    formatNumber (.fraction ((10 : ℚ) ^ (places : Int))) = .error .writing := by
  have hPower : (10 : ℚ) ^ (places : Int) = (tenTo places : ℚ) := by
    rw [cast_tenTo, zpow_natCast]
  have hMany : tooManyDigits (tenTo places) = true := by
    unfold tooManyDigits
    rw [Int.natAbs_natCast]
    exact decide_eq_true (tenTo_mono h)
  rw [hPower]
  unfold formatNumber writeInt
  dsimp only
  rw [Rat.den_natCast, if_pos rfl, Rat.num_natCast, hMany, if_pos rfl]

/-- A small power of ten is written as a zero. -/
theorem formatNumber_tiny {places : Nat} (h : -Decimal.leastExponent < places) :
    formatNumber (.fraction ((10 : ℚ) ^ (-(places : Int)))) = .ok "0E-1000062" := by
  have hDen : ((10 : ℚ) ^ (-(places : Int))).den ≠ 1 := by
    have hNegative : Decimal.leastExponent ≤ 0 := by decide
    have hMono : tenTo 1 ≤ tenTo places := tenTo_mono (by omega)
    have hTen : tenTo 1 = 10 := rfl
    rw [ten_zpow_neg, Rat.inv_natCast_den_of_pos (tenTo_pos places)]
    omega
  unfold formatNumber
  dsimp only
  rw [if_neg hDen, Decimal.ofRat_tiny h]
  rfl

/-- One significant digit is not enough to be written without loss. An integer is written in full,
so `1E+5000` has no text; and `1E-1000063` is rounded to a zero when it is written. -/
theorem powers_of_ten_not_readBack :
    (∃ p, parseSource defaultPrefixUnits "1E+5000" =
        .ok (.number (.fraction ((10 : ℚ) ^ (5000 : Int))) p) ∧
      ∀ depth, parenthesised (depth + 1) (.number (.fraction ((10 : ℚ) ^ (5000 : Int))) p) =
        .error (.digits .writing)) ∧
    ∃ p n, parseSource defaultPrefixUnits "1E-1000063" =
        .ok (.number (.fraction ((10 : ℚ) ^ (-1000063 : Int))) p) ∧
      HasText (.number (.fraction ((10 : ℚ) ^ (-1000063 : Int))) p) "0E-1000062" ∧
      parseSource defaultPrefixUnits "0E-1000062" = .ok n ∧
      n.essence ≠ (Node.number (.fraction ((10 : ℚ) ^ (-1000063 : Int))) p).essence := by
  constructor
  · obtain ⟨p, hParse⟩ := parseSource_decimal (d := ⟨false, 1, 5000⟩) rfl (by decide) (by decide)
    rw [Decimal.magnitude_one] at hParse
    have hLarge : formatNumber (.fraction ((10 : ℚ) ^ (5000 : Int))) = .error .writing :=
      @formatNumber_large 5000 (by decide)
    generalize (10 : ℚ) ^ (5000 : Int) = q at hParse hLarge
    refine ⟨p, hParse, fun depth => ?_⟩
    show literal (.number (.fraction q) p) = _
    rw [literal_number, hLarge]
    rfl
  · obtain ⟨p, hParse⟩ := parseSource_decimal (d := ⟨false, 1, -1000063⟩) rfl (by decide) (by decide)
    obtain ⟨p', hParse'⟩ := parseSource_decimal (d := ⟨false, 0, -1000062⟩) rfl (by decide) (by decide)
    rw [Decimal.magnitude_one] at hParse
    have hPositive := ten_zpow_pos (-1000063)
    have hTiny : formatNumber (.fraction ((10 : ℚ) ^ (-1000063 : Int))) = .ok "0E-1000062" :=
      @formatNumber_tiny 1000063 (by decide)
    generalize (10 : ℚ) ^ (-1000063 : Int) = q at hParse hPositive hTiny
    rw [Decimal.magnitude_zero] at hParse'
    refine ⟨p, _, hParse, hasText_number p hTiny, hParse', fun hSame => ?_⟩
    have hZero : 0 = q := Payload.fraction.inj (congrArg Node.value hSame)
    exact absurd hZero hPositive.ne

end Render

end Reckoner
