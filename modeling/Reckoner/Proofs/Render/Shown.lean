import Reckoner.Proofs.Render.Documents

/-!
# Trees that are parsed are shown

A tree that is put together by the constructors of nodes lacks nothing that a format asks for: no kind
goes without a text, no operator without a sign, and no child is missing. So only two things stop the
writing of a parsed tree: it is too deep, or a number in it is too long. Which numbers are too long is
up to the format. Documents write numerators and denominators, the other formats write integers only in
full.

Each of the two always stops a writing. If a tree is too deep and has too long a number as well, the
order in which a format writes decides which of them is reported. So what is carried through trees is
what there is to stop a writing (`StopsFor`), and not how the writing ends.

## Results

* `Format.writeWithin_stops` — what stops the writing of a parsed tree.
* `Format.shows`             — a tree whose numbers are not too long is written, or it is too deep.
* `Format.shows_read`        — the tree of a source text is shown in every format, unless it is too
  deep or has too long a number.
* `Format.not_carries`       — short numbers are not too long for any format.
-/

namespace Reckoner

namespace Render

-- ---------------------------------------------------------------------------
-- What stops a writing
-- ---------------------------------------------------------------------------

/-- A writing comes to its end where there is neither too deep a tree nor too long a number, and it stops
for one of them otherwise. -/
inductive StopsFor (deep long : Prop) {α : Type} : Except Fault α → Prop
  | written (a : α) (shallow : ¬ deep) (short : ¬ long) : StopsFor deep long (.ok a)
  | tooDeep (h : deep) : StopsFor deep long (.error .tooDeep)
  | tooLong (h : long) : StopsFor deep long (.error (.digits .writing))

namespace StopsFor

variable {α β : Type} {deep deep' long long' : Prop} {x : Except Fault α}

/-- Nothing stops a text that is known. -/
theorem ok (a : α) : StopsFor False False (.ok a : Except Fault α) :=
  .written a not_false not_false

theorem congr (h : StopsFor deep long x) (hDeep : deep ↔ deep') (hLong : long ↔ long') :
    StopsFor deep' long' x :=
  propext hDeep ▸ propext hLong ▸ h

/-- A writing in two steps stops for what either of them stops for. -/
theorem bind {f : α → Except Fault β} (hx : StopsFor deep long x)
    (hf : ∀ a, StopsFor deep' long' (f a)) : StopsFor (deep ∨ deep') (long ∨ long') (x >>= f) := by
  cases hx with
  | tooDeep h => exact .tooDeep (Or.inl h)
  | tooLong h => exact .tooLong (Or.inl h)
  | written a hShallow hShort =>
    rw [ok_bind]
    exact (hf a).congr (or_iff_right hShallow).symm (or_iff_right hShort).symm

/-- What is made of a text that is written stops nothing. -/
theorem map (h : StopsFor deep long x) (f : α → β) :
    StopsFor deep long (x >>= fun a => Except.ok (f a)) :=
  (h.bind fun a => ok (f a)).congr (by simp) (by simp)

/-- A list is written item by item and stops for what one of them stops for. -/
theorem mapM {f : α → Except Fault β} {tooDeep tooLong : α → Prop} {as : List α}
    (h : ∀ a ∈ as, StopsFor (tooDeep a) (tooLong a) (f a)) :
    StopsFor (∃ a ∈ as, tooDeep a) (∃ a ∈ as, tooLong a) (as.mapM f) := by
  induction as with
  | nil => exact (ok []).congr (by simp) (by simp)
  | cons a as ih =>
    obtain ⟨hFirst, hRest⟩ := List.forall_mem_cons.mp h
    rw [List.mapM_cons]
    exact (hFirst.bind fun b => (ih hRest).map _).congr (by simp) (by simp)

/-- A writing ends just where there is neither too deep a tree nor too long a number. -/
theorem isWritten_iff (h : StopsFor deep long x) : (∃ a, x = .ok a) ↔ ¬ deep ∧ ¬ long := by
  cases h with
  | written a hShallow hShort => exact iff_of_true ⟨a, rfl⟩ ⟨hShallow, hShort⟩
  | tooDeep hDeep => exact iff_of_false (fun ⟨_, h⟩ => nomatch h) fun h => h.1 hDeep
  | tooLong hLong => exact iff_of_false (fun ⟨_, h⟩ => nomatch h) fun h => h.2 hLong

/-- Nothing else stops a writing. -/
theorem fault {e : Fault} (h : StopsFor deep long (.error e : Except Fault α)) :
    e = .tooDeep ∧ deep ∨ e = .digits .writing ∧ long := by
  cases h with
  | tooDeep hDeep => exact Or.inl ⟨rfl, hDeep⟩
  | tooLong hLong => exact Or.inr ⟨rfl, hLong⟩

end StopsFor

-- ---------------------------------------------------------------------------
-- Numbers
-- ---------------------------------------------------------------------------

/-- An integer of too many digits. -/
def IsLongInteger (q : ℚ) : Prop :=
  q.den = 1 ∧ tooManyDigits q.num = true

/-- A number of which the numerator or the denominator has too many digits. -/
def IsLongFraction (q : ℚ) : Prop :=
  tooManyDigits q.num = true ∨ tooManyDigits q.den = true

theorem writeInt_stops (n : Int) :
    StopsFor False (tooManyDigits n = true) (ofDigits (writeInt n)) := by
  unfold writeInt
  split
  · exact .tooLong ‹_›
  · exact .written _ not_false ‹_›

theorem formatNumber_stops (q : ℚ) :
    StopsFor False (IsLongInteger q) (ofDigits (formatNumber (.fraction q))) := by
  rw [formatNumber]
  by_cases hInteger : q.den = 1
  · rw [if_pos hInteger]
    exact (writeInt_stops q.num).congr Iff.rfl (and_iff_right hInteger).symm
  · rw [if_neg hInteger]
    exact .written _ not_false fun hLong => hInteger hLong.1

theorem ofDigits_bind (x : Except DigitLimit String) (f : String → Except DigitLimit String) :
    ofDigits (x >>= f) = ofDigits x >>= fun text => ofDigits (f text) := by
  cases x <;> rfl

theorem tooManyDigits_one : tooManyDigits 1 = false := by
  have hTen : tenTo 1 ≤ tenTo maxDigits := tenTo_mono (by decide)
  rw [tooManyDigits, decide_eq_false_iff_not]
  exact fun h => absurd (hTen.trans h) (by decide)

theorem fractionText_stops (q : ℚ) :
    StopsFor False (IsLongFraction q) (ofDigits (Payload.fractionText q)) := by
  unfold Payload.fractionText
  split
  · rename_i hInteger
    have hDen : tooManyDigits q.den = false := hInteger ▸ tooManyDigits_one
    exact (writeInt_stops q.num).congr Iff.rfl (by simp [IsLongFraction, hDen])
  · rw [ofDigits_bind]
    have hDen : StopsFor False (tooManyDigits q.den = true) (ofDigits (writeInt q.den)) :=
      writeInt_stops q.den
    refine ((writeInt_stops q.num).bind fun num => ?_).congr or_self_iff Iff.rfl
    rw [ofDigits_bind]
    exact hDen.map _

/-- A payload is a number as `Q` says. -/
def IsNumberOf (Q : ℚ → Prop) (v : Payload) : Prop :=
  ∃ q, v = .fraction q ∧ Q q

@[simp] theorem isNumberOf_fraction {Q : ℚ → Prop} {q : ℚ} : IsNumberOf Q (.fraction q) ↔ Q q := by
  simp [IsNumberOf]

@[simp] theorem not_isNumberOf_text {Q : ℚ → Prop} (x : String) : ¬ IsNumberOf Q (.text x) :=
  fun ⟨_, h, _⟩ => nomatch h

@[simp] theorem not_isNumberOf_absent {Q : ℚ → Prop} : ¬ IsNumberOf Q .absent :=
  fun ⟨_, h, _⟩ => nomatch h

/-- A number in the tree is as `Q` says. -/
def Carries (Q : ℚ → Prop) (n : Node) : Prop :=
  ∃ m ∈ n.nodes, ∃ q, m.value = .fraction q ∧ Q q

/-- The numbers in a tree are its own payload and those in its children. -/
theorem carries_iff {Q : ℚ → Prop} {n : Node} :
    Carries Q n ↔ IsNumberOf Q n.value ∨ ∃ c ∈ n.children, Carries Q c := by
  constructor
  · rintro ⟨m, hm, hQ⟩
    rcases Node.mem_nodes.mp hm with rfl | ⟨c, hc, hm⟩
    · exact Or.inl hQ
    · exact Or.inr ⟨c, hc, m, hm, hQ⟩
  · rintro (hQ | ⟨c, hc, m, hm, hQ⟩)
    · exact ⟨n, n.self_mem_nodes, hQ⟩
    · exact ⟨m, Node.mem_nodes_of_child hc hm, hQ⟩

-- ---------------------------------------------------------------------------
-- Nodes
-- ---------------------------------------------------------------------------

section Nodes

variable {deep long : Prop} {tooDeep tooLong : Node → Prop} {text : Node → Writing} {n m l r : Node}

theorem aroundChild_stops (hChildren : n.children = [m]) (h : StopsFor deep long (text m))
    (put : String → String) : StopsFor deep long (aroundChild text n put) := by
  have hChild : child n 0 = .ok m := by
    unfold child Node.child
    rw [hChildren]
    rfl
  unfold aroundChild
  rw [hChild]
  exact h.map put

theorem nameAndChild_stops {x : String} (hValue : n.value = .text x) (hChildren : n.children = [m])
    (h : StopsFor deep long (text m)) (join : String → String → String) :
    StopsFor deep long (nameAndChild text n join) := by
  unfold nameAndChild payload
  rw [hValue]
  exact aroundChild_stops hChildren h _

theorem joinChildren_stops {deep' long' : Prop} (hChildren : n.children = [l, r])
    (hl : StopsFor deep long (text l)) (hr : StopsFor deep' long' (text r))
    (join : String → String → String) :
    StopsFor (deep ∨ deep') (long ∨ long') (joinChildren text n join) := by
  have hTwo : twoChildren n = .ok (l, r) := by
    unfold twoChildren Node.twoChildren
    rw [hChildren]
    rfl
  unfold joinChildren
  rw [hTwo]
  exact hl.bind fun left => hr.map (join left)

/-- Parenthesised text stops for children and for long integers. -/
theorem parenthesisedNode_stops (h : n.FormedOf HasFraction)
    (hText : ∀ c ∈ n.children, StopsFor (tooDeep c) (tooLong c) (text c)) :
    StopsFor (∃ c ∈ n.children, tooDeep c)
      (IsNumberOf IsLongInteger n.value ∨ ∃ c ∈ n.children, tooLong c) (parenthesisedNode text n) := by
  cases h with
  | number p hv =>
    obtain ⟨q, rfl⟩ := hv _ rfl
    exact (formatNumber_stops q).congr (by simp) (by simp)
  | string p _ => exact (StopsFor.ok _).congr (by simp) (by simp)
  | unit p => exact (StopsFor.ok _).congr (by simp) (by simp)
  | ident p _ => exact (StopsFor.ok _).congr (by simp) (by simp)
  | @named k x m hk p _ _ =>
    have hInner := hText m (by simp)
    have hNode : StopsFor (tooDeep m) (tooLong m)
        (parenthesisedNode text (.named k (.text x) m p)) := by
      simp only [List.mem_cons, List.not_mem_nil, or_false] at hk
      rcases hk with rfl | rfl | rfl <;> exact nameAndChild_stops rfl rfl hInner _
    exact hNode.congr (by simp) (by simp)
  | @wrap k m hk p _ =>
    have hInner := hText m (by simp)
    have hNode : StopsFor (tooDeep m) (tooLong m) (parenthesisedNode text (.wrap k m p)) := by
      simp only [List.mem_cons, List.not_mem_nil, or_false] at hk
      rcases hk with rfl | rfl | rfl | rfl | rfl <;> exact aroundChild_stops rfl hInner _
    exact hNode.congr (by simp) (by simp)
  | @pair k l r hk _ _ =>
    have hLeft := hText l (by simp)
    have hRight := hText r (by simp)
    have hNode : StopsFor (tooDeep l ∨ tooDeep r) (tooLong l ∨ tooLong r)
        (parenthesisedNode text (.pair k l r)) := by
      simp only [List.mem_cons, List.not_mem_nil, or_false] at hk
      rcases hk with rfl | rfl | rfl | rfl | rfl <;> exact joinChildren_stops rfl hLeft hRight _
    exact hNode.congr (by simp) (by simp)
  | @binary op l r _ _ =>
    have hLeft := hText l (by simp)
    have hRight := hText r (by simp)
    have hSign (left right : String) : StopsFor False False (parenthesisedBinary op.name left right) := by
      rw [parenthesisedBinary, Operator.ofName?_name]
      exact .ok _
    exact (hLeft.bind fun left => hRight.bind fun right => hSign left right).congr (by simp) (by simp)

/-- Tagged text stops for children and for long integers. -/
theorem taggedNode_stops (h : n.FormedOf HasFraction)
    (hText : ∀ c ∈ n.children, StopsFor (tooDeep c) (tooLong c) (text c)) :
    StopsFor (∃ c ∈ n.children, tooDeep c)
      (IsNumberOf IsLongInteger n.value ∨ ∃ c ∈ n.children, tooLong c) (taggedNode text n) := by
  have hChildren := StopsFor.mapM hText
  cases h with
  | number p hv =>
    obtain ⟨q, rfl⟩ := hv _ rfl
    exact (formatNumber_stops q).congr (by simp) (by simp)
  | string p _ => exact (StopsFor.ok _).congr (by simp) (by simp)
  | unit p => exact (StopsFor.ok _).congr (by simp) (by simp)
  | ident p _ => exact (StopsFor.ok _).congr (by simp) (by simp)
  | @named k x m hk p _ _ =>
    refine StopsFor.congr ?_ Iff.rfl (or_iff_right (not_isNumberOf_text x)).symm
    simp only [List.mem_cons, List.not_mem_nil, or_false] at hk
    rcases hk with rfl | rfl | rfl <;> exact hChildren.map _
  | @wrap k m hk p _ =>
    refine StopsFor.congr ?_ Iff.rfl (or_iff_right not_isNumberOf_absent).symm
    simp only [List.mem_cons, List.not_mem_nil, or_false] at hk
    rcases hk with rfl | rfl | rfl | rfl | rfl <;> exact hChildren.map _
  | @pair k l r hk _ _ =>
    refine StopsFor.congr ?_ Iff.rfl (or_iff_right not_isNumberOf_absent).symm
    simp only [List.mem_cons, List.not_mem_nil, or_false] at hk
    rcases hk with rfl | rfl | rfl | rfl | rfl <;> exact hChildren.map _
  | @binary op l r _ _ =>
    have hLeft := hText l (by simp)
    have hRight := hText r (by simp)
    exact (hLeft.bind fun left => hRight.map _).congr (by simp) (by simp)

/-- Documents stop for children and for long fractions. -/
theorem documentNode_stops {document : Node → Except Fault Json} (h : n.FormedOf HasFraction)
    (hText : ∀ c ∈ n.children, StopsFor (tooDeep c) (tooLong c) (document c)) :
    StopsFor (∃ c ∈ n.children, tooDeep c)
      (IsNumberOf IsLongFraction n.value ∨ ∃ c ∈ n.children, tooLong c)
      (documentNode document n) := by
  have hOwn : StopsFor False (IsNumberOf IsLongFraction n.value) (documentValue n) := by
    unfold documentValue
    rcases value_of_formedOf h with ⟨hNumber, q, hValue⟩ | ⟨hOther, hValue | ⟨s, hValue⟩⟩
    · rw [if_pos hNumber, payload, hValue, isNumberOf_fraction]
      exact (fractionText_stops q).map _
    · rw [hOther, hValue]
      exact (StopsFor.ok _).congr Iff.rfl (by simp)
    · rw [hOther, hValue]
      exact (StopsFor.ok _).congr Iff.rfl (by simp)
  exact (hOwn.bind fun value => (StopsFor.mapM hText).map _).congr (by simp) Iff.rfl

end Nodes

-- ---------------------------------------------------------------------------
-- Trees
-- ---------------------------------------------------------------------------

/-- What stops a node just for its children and its own number stops a tree under every bound just for
its height and its numbers. -/
theorem stops_within {α : Type} {Q : ℚ → Prop} {node : (Node → Except Fault α) → Node → Except Fault α}
    {within : Nat → Node → Except Fault α} (hZero : ∀ n, within 0 n = .error .tooDeep)
    (hSucc : ∀ depth n, within (depth + 1) n = node (within depth) n)
    (hNode : ∀ {tooDeep tooLong : Node → Prop} {text n}, n.FormedOf HasFraction →
      (∀ c ∈ n.children, StopsFor (tooDeep c) (tooLong c) (text c)) →
      StopsFor (∃ c ∈ n.children, tooDeep c)
        (IsNumberOf Q n.value ∨ ∃ c ∈ n.children, tooLong c) (node text n))
    (depth : Nat) {n : Node} (h : n.FormedOf HasFraction) :
    StopsFor (depth < n.height) (Carries Q n) (within depth n) := by
  induction depth generalizing n with
  | zero =>
    rw [hZero]
    exact .tooDeep n.height_pos
  | succ depth ih =>
    rw [hSucc]
    have hChildren : ∀ c ∈ n.children, StopsFor (depth < c.height) (Carries Q c) (within depth c) :=
      fun c hc => ih (h.node (Node.mem_nodes_of_child hc c.self_mem_nodes))
    exact (hNode h hChildren).congr Node.succ_lt_height.symm carries_iff.symm

end Render

namespace Format

open Render (Carries HasFraction IsLongFraction IsLongInteger StopsFor)

/-- The numbers that are too long for a format. -/
def IsTooLong : Format → ℚ → Prop
  | document => IsLongFraction
  | _ => IsLongInteger

/-- **What stops the writing of a parsed tree** is its depth, or a number that is too long for the
format. -/
theorem writeWithin_stops (format : Format) (height : Nat) {n : Node} (h : n.FormedOf HasFraction) :
    StopsFor (height < n.height) (Carries format.IsTooLong n) (format.writeWithin height n) := by
  cases format with
  | parenthesised =>
    have hText : StopsFor (height < n.height) (Carries IsLongInteger n)
        (Render.parenthesised height n) :=
      Render.stops_within (fun _ => rfl) (fun _ _ => rfl) Render.parenthesisedNode_stops _ h
    exact hText
  | tagged =>
    have hText : StopsFor (height < n.height) (Carries IsLongInteger n) (Render.tagged height n) :=
      Render.stops_within (fun _ => rfl) (fun _ _ => rfl) Render.taggedNode_stops _ h
    exact hText
  | document =>
    have hDocument : StopsFor (height < n.height) (Carries IsLongFraction n)
        (Render.document height n) :=
      Render.stops_within (fun _ => rfl) (fun _ _ => rfl) Render.documentNode_stops _ h
    exact hDocument.map _

/-- A single tree is shown as its text. -/
theorem renderWithin_stops (format : Format) (height : Nat) {n : Node} (h : n.FormedOf HasFraction) :
    StopsFor (height < n.height) (Carries format.IsTooLong n) (format.renderWithin height [n]) := by
  have hTexts : StopsFor (∃ m ∈ [n], height < m.height) (∃ m ∈ [n], Carries format.IsTooLong m)
      ([n].mapM (format.writeWithin height)) := by
    refine StopsFor.mapM fun m hm => ?_
    rw [List.mem_singleton.mp hm]
    exact format.writeWithin_stops height h
  exact (hTexts.map _).congr (by simp) (by simp)

/-- **A parsed tree is shown** if none of its numbers is too long for the format, or it is too deep. -/
theorem shows (format : Format) (height : Nat) {n : Node} (h : n.FormedOf HasFraction)
    (hShort : ¬ Carries format.IsTooLong n) :
    (∃ text, format.renderWithin height [n] = .ok text) ∨
      format.renderWithin height [n] = .error .tooDeep := by
  have hStops := format.renderWithin_stops height h
  cases hRender : format.renderWithin height [n] with
  | ok text => exact Or.inl ⟨text, rfl⟩
  | error e =>
    rw [hRender] at hStops
    rcases hStops.fault with ⟨rfl, -⟩ | ⟨-, hLong⟩
    · exact Or.inr rfl
    · exact absurd hLong hShort

theorem ofName_name (format : Format) : ofName format.name = .ok format := by
  cases format <;> decide

/-- A format is found by its name among the settings. -/
theorem ofSetting_name (format : Format) : ofSetting (some format.name) = .ok format := by
  cases format <;> decide +kernel

/-- **What is read can be shown.** Each format is found by its name, and the tree of a source text,
whatever the nesting that it was read with, is written in a format just where it is no higher than
allowed and none of its numbers is too long. Nothing else can stop the writing: no node lacks a text, a
sign, a tag or a child. -/
theorem shows_read {depth : Nat} {units : List String} {source : String} {t : Node}
    (h : parseSourceWithin depth units source = .ok t) (format : Format) (height : Nat) :
    ofName format.name = .ok format ∧
      ((∃ text, format.renderWithin height [t] = .ok text) ↔
        t.height ≤ height ∧ ¬ Carries format.IsTooLong t) ∧
      ∀ fault, format.renderWithin height [t] = .error fault →
        fault = .tooDeep ∧ height < t.height ∨
          fault = .digits .writing ∧ Carries format.IsTooLong t := by
  obtain ⟨tokens, hTokens, hTree⟩ := bind_eq_ok.mp h
  have hFractions : ∀ u ∈ tokens, HasFraction u.content :=
    Lexer.forall_content_of_tokenize Render.hasFraction_of_isLexeme (mapError_eq_ok.mp hTokens)
  have hFormed : t.FormedOf HasFraction :=
    Grammar.parseWithin_formedOf (mapError_eq_ok.mp hTree) hFractions
  have hStops := format.renderWithin_stops height hFormed
  refine ⟨format.ofName_name, ?_, fun fault hFault => StopsFor.fault (hFault ▸ hStops)⟩
  rw [hStops.isWritten_iff, not_lt]

/-- The tree of `-x % 2.5 to m!`. -/
def remainderAsked : Node :=
  .pair .conversion
    (.binary .mod (.wrap .negation (.ident "x" ⟨1, 2⟩) ⟨1, 1⟩) (.number (.fraction (mkRat 5 2)) ⟨1, 6⟩))
    (.wrap .factorial (.ident "m" ⟨1, 13⟩) ⟨1, 13⟩)

/-- A tree that is low and has short numbers is shown in each format. -/
theorem remainderAsked_shown :
    parseSource [] "-x % 2.5 to m!" = .ok remainderAsked ∧
      ∀ format : Format, ofName format.name = .ok format ∧
        ∃ text, format.render [remainderAsked] = .ok text := by
  have hRead : parseSource [] "-x % 2.5 to m!" = .ok remainderAsked := rfl
  refine ⟨hRead, fun format => ?_⟩
  obtain ⟨hName, hShown, -⟩ := shows_read hRead format maxTreeDepth
  have hShort : ¬ format.IsTooLong (mkRat 5 2) := by
    cases format with
    | document => exact not_or.mpr (by decide +kernel)
    | _ => exact fun h => absurd h.1 (by decide)
  refine ⟨hName, hShown.mpr ⟨by decide, ?_⟩⟩
  rintro ⟨m, hm, q, hValue, hLong⟩
  simp only [remainderAsked, Node.nodes_pair, Node.nodes_binary, Node.nodes_wrap, Node.nodes_ident,
    Node.nodes_number, List.mem_cons, List.mem_append, List.not_mem_nil, or_false] at hm
  rcases hm with rfl | (rfl | (rfl | rfl) | rfl) | (rfl | rfl) <;> cases hValue
  exact hShort hLong

end Format

-- ---------------------------------------------------------------------------
-- Short numbers
-- ---------------------------------------------------------------------------

section Short

open Render (Carries HasFraction IsLongFraction)

/-- A number that is not too long, or a token of another type. -/
def IsShort (c : Content) : Prop :=
  ∀ v, c = .number v → ∃ q : ℚ, v = .fraction q ∧ ¬ IsLongFraction q

theorem IsShort.hasFraction {c : Content} (h : IsShort c) : HasFraction c := fun v hv =>
  let ⟨q, hq, _⟩ := h v hv
  ⟨q, hq⟩

/-- A token that is no long number can be traced. -/
theorem traced_ok {t : Token} (h : IsShort t.content) : ∃ text, t.traced = .ok text := by
  have hQuoted : ∃ text, t.content.quoted = .ok text := by
    cases hContent : t.content with
    | number v =>
      obtain ⟨q, rfl, hShort⟩ := h v hContent
      obtain ⟨hNum, hDen⟩ := not_or.mp hShort
      rw [Content.quoted, Payload.quoted, writeInt_ok (Bool.eq_false_of_not_eq_true hNum),
        writeInt_ok (Bool.eq_false_of_not_eq_true hDen)]
      exact ⟨_, rfl⟩
    | _ => exact ⟨_, rfl⟩
  obtain ⟨text, hText⟩ := hQuoted
  rw [Token.traced, hText]
  exact ⟨_, rfl⟩

theorem tracedList_ok {tokens : List Token} (h : ∀ t ∈ tokens, IsShort t.content) :
    ∃ text, Token.tracedList tokens = .ok text := by
  obtain ⟨texts, hTexts⟩ := exists_forall₂ fun t ht => traced_ok (h t ht)
  rw [Token.tracedList, mapM_eq_ok.mpr hTexts]
  exact ⟨_, rfl⟩

/-- A tree of short numbers has none that is too long for a format. -/
theorem Format.not_carries (format : Format) {n : Node} (h : n.FormedOf IsShort) :
    ¬ Carries format.IsTooLong n := by
  rintro ⟨m, hm, q, hValue, hLong⟩
  have hLong : IsLongFraction q := by
    cases format with
    | document => exact hLong
    | _ => exact Or.inl hLong.2
  cases h.node hm with
  | number p hv =>
    obtain ⟨r, rfl, hShort⟩ := hv _ rfl
    obtain rfl := Payload.fraction.inj hValue
    exact hShort hLong
  | _ => cases hValue

theorem hasFraction_of_isShort {n : Node} (h : n.FormedOf IsShort) : n.FormedOf HasFraction :=
  h.refine (fun _ _ _ hv => hv.hasFraction) fun _ _ hc => hc.hasFraction

end Short

end Reckoner
