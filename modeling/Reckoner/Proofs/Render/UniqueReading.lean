import Reckoner.Node.Views
import Reckoner.Proofs.Grammar.Contents
import Reckoner.Proofs.Json.ReadBack
import Reckoner.Proofs.Render.ReadBack
import Reckoner.Render.Tagged

/-!
# Tagged text is uniquely readable

The tagged text of a tree that was read from a source says everything about it but the places. A list
starts with a parenthesis, its tag tells the kind and the operator, and what follows is a name or the
text of a child; a text starts with a quote, a number with a digit, and a name with neither. So one
decoder takes the text of a tree back to the tree without its places, and two trees with one text are
equal but for their places.

Numbers have to be restricted again: a number that ends too far behind the point is rounded when it is
written, so its text does not tell it from its neighbours. An integer of any length may be in the trees.

## Results

* `tagged_decodes`        — a tree is decoded from its tagged text.
* `exists_hasTagged`      — a tree whose integers are not too long is written.
* `tagged_forgets_places` — two trees with one tagged text are equal but for their places.
-/

namespace Reckoner

open Json (Decoder)

namespace Render

open Lexer (IsName IsReadable)

-- ---------------------------------------------------------------------------
-- Decoding
-- ---------------------------------------------------------------------------

/-- A character of a tag or a name. -/
def isTagChar (c : Char) : Bool :=
  c ≠ ' ' && c ≠ ')'

/-- A text, a number or a name, without its place. -/
def decodeLeaf : Decoder Node
  | [] => none
  | c :: cs =>
    if c = '"' then do
      let (text, rest) ← (Json.readString cs).toOption
      return (.string text .unknown, rest)
    else if c.isDigit then do
      let (numeral, rest) ← (Numeral.read (c :: cs)).toOption
      return (.number (.fraction (← numeral.value.toOption)) .unknown, rest)
    else
      let name := String.ofList ((c :: cs).takeWhile isTagChar)
      some (.ident name .unknown, (c :: cs).dropWhile isTagChar)

/-- The items of a list up to the parenthesis that closes it, each behind a blank. -/
def decodeItems (item : Decoder Node) : Nat → Decoder (List Node)
  | _, ')' :: rest => some ([], rest)
  | steps + 1, ' ' :: cs => do
    let (n, rest) ← item cs
    let (ns, rest) ← decodeItems item steps rest
    return (n :: ns, rest)
  | _, _ => none

/-- The kind that a tag stands for. -/
def kindOfTag? (tag : String) : Option Kind :=
  Kind.all.find? fun kind => tag? kind = some tag

/-- The kinds that have a name. -/
def namedKinds : List Kind := [.member, .function, .assignment]

/-- The node of a list. A tag that is none is the name of an operator, and the first item of a kind
that has a name is that name. -/
def ofItems? (tag : String) (items : List Node) : Option Node :=
  match kindOfTag? tag with
  | some kind =>
    if kind ∈ namedKinds then
      match items with
      | name :: children => some (.mk kind name.value none .unknown children)
      | [] => none
    else some (.mk kind .absent none .unknown items)
  | none =>
    (Operator.ofName? tag).map fun op => .mk .binary (.text op.name) none .unknown items

/-- A tree without its places, of lists that are nested no deeper than the given depth. -/
def decodeNode : Nat → Decoder Node
  | _, '(' :: ')' :: rest => some (.unit .unknown, rest)
  | depth + 1, '(' :: cs => do
    let rest := cs.dropWhile isTagChar
    let (items, rest) ← decodeItems (decodeNode depth) rest.length rest
    return (← ofItems? (String.ofList (cs.takeWhile isTagChar)) items, rest)
  | _, cs => decodeLeaf cs

-- ---------------------------------------------------------------------------
-- Leaves
-- ---------------------------------------------------------------------------

/-- What may follow an item of a list. -/
def EndsItem (rest : List Char) : Prop :=
  ∀ c ∈ rest.head?, c = ' ' ∨ c = ')'

theorem EndsItem.follows {rest : List Char} (h : EndsItem rest) : Follows rest := by
  intro c hc
  rcases h c hc with rfl | rfl <;> decide

theorem EndsItem.not_isTagChar {rest : List Char} (h : EndsItem rest) :
    ∀ c ∈ rest.head?, isTagChar c = false := by
  intro c hc
  rcases h c hc with rfl | rfl <;> rfl

/-- A text is decoded to a node, whatever ends it, at every depth that is not less than a bound. -/
def Decodes (bound : Nat) (text : String) (n : Node) : Prop :=
  ∀ depth, bound ≤ depth → ∀ rest, EndsItem rest →
    decodeNode depth (text.toList ++ rest) = some (n, rest)

/-- The text of a tree, on one line, that can be decoded. -/
structure IsReadAs (bound : Nat) (text : String) (n : Node) : Prop where
  decoded : Decodes bound text n
  oneLine : '\n' ∉ text.toList

theorem decodeNode_leaf {c : Char} (hc : c ≠ '(') (depth : Nat) (cs : List Char) :
    decodeNode depth (c :: cs) = decodeLeaf (c :: cs) := by
  cases depth <;> simp [decodeNode, hc]

theorem decodeNode_list {c : Char} (hc : c ≠ ')') (depth : Nat) (cs : List Char) :
    decodeNode (depth + 1) ('(' :: c :: cs) = (do
      let rest := (c :: cs).dropWhile isTagChar
      let (items, rest) ← decodeItems (decodeNode depth) rest.length rest
      return (← ofItems? (String.ofList ((c :: cs).takeWhile isTagChar)) items, rest)) := by
  rw [decodeNode]
  rintro rest hCons
  exact hc (List.cons.inj hCons).1

/-- The characters of a name. -/
theorem name_chars {x : String} (h : IsName x) :
    ∃ c cs, x.toList = c :: cs ∧ (c ≠ '(' ∧ c ≠ '"' ∧ c.isDigit = false) ∧
      ∀ d ∈ c :: cs, isTagChar d = true ∧ d ≠ '\n' := by
  have hNot : ∀ d ∈ [' ', ')', '\n'], Lexer.isWordChar d = false :=
    List.all_iff_forall_prop.mp (by decide +kernel)
  have hWordChar : ∀ d, Lexer.isWordChar d = true → isTagChar d = true ∧ d ≠ '\n' := by
    intro d hd
    have hNe : ∀ e ∈ [' ', ')', '\n'], d ≠ e := by
      rintro e he rfl
      rw [hNot d he] at hd
      cases hd
    simp [isTagChar, hNe]
  cases h with
  | @word c cs hStart hWord _ =>
    have hNotStart : ∀ d ∈ ['(', '"'], Lexer.isWordStart d = false :=
      List.all_iff_forall_prop.mp (by decide +kernel)
    have hNe : ∀ e ∈ ['(', '"'], c ≠ e := by
      rintro e he rfl
      rw [hNotStart c he] at hStart
      cases hStart
    refine ⟨c, cs, String.toList_ofList, ⟨hNe _ (by simp), hNe _ (by simp), ?_⟩, ?_⟩
    · rw [← Bool.not_eq_true]
      intro hDigit
      rw [(Lexer.isDecimalDigit_start (isDecimalDigit_of_isDigit hDigit)).2] at hStart
      cases hStart
    · exact List.forall_mem_cons.mpr ⟨hWordChar c (Lexer.isWordChar_of_isWordStart hStart),
        fun d hd => hWordChar d (hWord d hd)⟩
  | @unit c hc =>
    have hAll : ∀ d ∈ Lexer.unitChars, (d ≠ '(' ∧ d ≠ '"' ∧ d.isDigit = false) ∧
        isTagChar d = true ∧ d ≠ '\n' := List.all_iff_forall_prop.mp (by decide)
    exact ⟨c, [], String.toList_ofList, (hAll c hc).1, fun d hd =>
      List.mem_singleton.mp hd ▸ (hAll c hc).2⟩

theorem isReadAs_ident {x : String} (h : IsName x) (bound : Nat) (p : Place) :
    IsReadAs bound x (Node.ident x p).withoutPlaces := by
  obtain ⟨c, cs, hText, ⟨hParens, hQuote, hDigit⟩, hChars⟩ := name_chars h
  refine ⟨fun depth _ rest hRest => ?_, fun hMem => (hChars _ (hText ▸ hMem)).2 rfl⟩
  obtain ⟨hTake, hDrop⟩ := takeWhile_run (fun d hd => (hChars d hd).1) hRest.not_isTagChar
  rw [hText, List.cons_append, decodeNode_leaf hParens, decodeLeaf, if_neg hQuote, hDigit,
    if_neg (by simp), ← List.cons_append, hTake, hDrop, ← hText, String.ofList_toList]
  rfl

theorem isReadAs_string (s : String) (bound : Nat) (p : Place) :
    IsReadAs bound (Json.writeString s) (Node.string s p).withoutPlaces := by
  refine ⟨fun depth _ rest _ => ?_, Json.newline_not_mem_writeString s⟩
  rw [Json.toList_writeString, List.cons_append, List.append_assoc, List.singleton_append,
    decodeNode_leaf (by decide), decodeLeaf, if_pos rfl, Json.readString_written]
  rfl

/-- The characters of a numeral that is written. -/
theorem numeral_oneLine {n : Numeral} (h : n.Regular) : '\n' ∉ n.text := by
  have hDigits : ∀ {ds : List Char}, AreDigits ds → '\n' ∉ ds := fun hds hMem =>
    absurd (hds _ hMem) (by decide)
  obtain ⟨whole, fraction, exponent⟩ := n
  obtain ⟨-, hWhole, hFraction, hExponent⟩ := h
  have hBehindPoint : '\n' ∉ fraction.elim [] ('.' :: ·) := by
    cases fraction with
    | none => exact List.not_mem_nil
    | some ds => simp [hDigits (hFraction ds rfl).2]
  have hPower : '\n' ∉ exponent.elim [] Exponent.text := by
    cases exponent with
    | none => exact List.not_mem_nil
    | some e =>
      obtain ⟨hMark, hSign, -, hPowerDigits⟩ := hExponent e rfl
      rcases hSign with hSign | hSign <;>
        simp [Exponent.text, hMark, hSign, hDigits hPowerDigits]
  simp [Numeral.text, hDigits hWhole, hBehindPoint, hPower]

theorem isReadAs_number {q : ℚ} {n : Numeral} {text : String} (h : n.Writes q)
    (hText : text.toList = n.text) (bound : Nat) (p : Place) :
    IsReadAs bound text (Node.number (.fraction q) p).withoutPlaces := by
  obtain ⟨d, ds, hWhole⟩ := List.exists_cons_of_ne_nil h.regular.nonempty
  have hDigit : d.isDigit = true := h.regular.whole d (by rw [hWhole]; exact List.mem_cons_self)
  have hNe : d ≠ '(' ∧ d ≠ '"' := by
    constructor <;> (rintro rfl; exact absurd hDigit (by decide))
  obtain ⟨tail, hTail⟩ : ∃ tail, n.text = d :: tail := by
    unfold Numeral.text
    rw [hWhole]
    exact ⟨_, rfl⟩
  refine ⟨fun depth _ rest hRest => ?_, hText ▸ numeral_oneLine h.regular⟩
  have hRead := Numeral.read_text h.regular hRest.follows.endsNumeral
  rw [hText]
  rw [hTail, List.cons_append] at hRead ⊢
  rw [decodeNode_leaf hNe.1, decodeLeaf, if_neg hNe.2, if_pos hDigit, hRead]
  show (do return (Node.number (.fraction (← n.value.toOption)) .unknown, rest)) = _
  rw [h.value]
  rfl

theorem isReadAs_unit (bound : Nat) (p : Place) : IsReadAs bound "()" (Node.unit p).withoutPlaces := by
  refine ⟨fun depth _ rest _ => ?_, by decide⟩
  cases depth <;> rfl

-- ---------------------------------------------------------------------------
-- Lists
-- ---------------------------------------------------------------------------

/-- A list of a tag and items. -/
def bracketed (tag : String) (items : List String) : String :=
  "(" ++ " ".intercalate (tag :: items) ++ ")"

/-- The characters of items, each behind a blank. -/
def itemChars (items : List String) : List Char :=
  items.flatMap fun item => ' ' :: item.toList

theorem toList_bracketed (tag : String) (items : List String) :
    (bracketed tag items).toList = '(' :: (tag.toList ++ (itemChars items ++ [')'])) := by
  have hItems : (" ".intercalate (tag :: items)).toList = tag.toList ++ itemChars items := by
    induction items generalizing tag with
    | nil => rw [String.intercalate_singleton]; exact (List.append_nil _).symm
    | cons item items ih =>
      rw [String.intercalate_cons_cons, String.toList_append, String.toList_append, ih,
        List.append_assoc]
      rfl
  rw [bracketed, String.toList_append, String.toList_append, hItems, List.append_assoc,
    List.append_assoc]
  rfl

/-- What the first character behind a tag or an item may be. -/
theorem endsItem_itemChars (items : List String) (rest : List Char) :
    EndsItem (itemChars items ++ ')' :: rest) := by
  intro c hc
  cases items with
  | nil => exact Or.inr (Option.some.inj hc).symm
  | cons item items => exact Or.inl (Option.some.inj hc).symm

theorem length_le_itemChars (items : List String) : items.length ≤ (itemChars items).length := by
  induction items with
  | nil => exact Nat.le_refl _
  | cons item items ih =>
    have hChars : itemChars (item :: items) = ' ' :: (item.toList ++ itemChars items) := rfl
    rw [hChars, List.length_cons, List.length_cons, List.length_append]
    omega

/-- Items are decoded one by one. -/
theorem decodeItems_written (item : Decoder Node) {nodes : List Node} {texts : List String}
    (h : List.Forall₂ (fun n text => ∀ rest, EndsItem rest →
      item (text.toList ++ rest) = some (n, rest)) nodes texts)
    {steps : Nat} (hSteps : texts.length ≤ steps) (rest : List Char) :
    decodeItems item steps (itemChars texts ++ ')' :: rest) = some (nodes, rest) := by
  induction h generalizing steps with
  | nil => cases steps <;> rfl
  | @cons n text nodes texts hItem _ ih =>
    rw [List.length_cons] at hSteps
    obtain ⟨steps, rfl⟩ : ∃ k, steps = k + 1 := ⟨steps - 1, by omega⟩
    have hChars : itemChars (text :: texts) ++ ')' :: rest =
        ' ' :: (text.toList ++ (itemChars texts ++ ')' :: rest)) := by
      rw [itemChars, List.flatMap_cons, List.cons_append, List.cons_append, List.append_assoc]
      rfl
    rw [hChars, decodeItems, hItem _ (endsItem_itemChars texts rest)]
    show (do let (ns, rest) ← decodeItems item steps (itemChars texts ++ ')' :: rest)
             return (n :: ns, rest)) = _
    rw [ih (by omega)]
    rfl

/-- A tag has characters, and no blank, closing parenthesis or newline is one of them. -/
def IsTag (tag : String) : Prop :=
  tag.toList ≠ [] ∧ ∀ c ∈ tag.toList, isTagChar c = true ∧ c ≠ '\n'

theorem isTag_tag {k : Kind} {tag : String} (h : tag? k = some tag) : IsTag tag := by
  cases k <;> cases h <;> exact ⟨by decide, List.all_iff_forall_prop.mp (by decide)⟩

theorem isTag_operator (op : Operator) : IsTag op.name := by
  cases op <;> exact ⟨by decide, List.all_iff_forall_prop.mp (by decide)⟩

theorem bracketed_oneLine {tag : String} {texts : List String} (hTag : IsTag tag)
    (hTexts : ∀ text ∈ texts, '\n' ∉ text.toList) : '\n' ∉ (bracketed tag texts).toList := by
  rw [toList_bracketed]
  simp only [List.mem_cons, List.mem_append, List.not_mem_nil, or_false, itemChars, List.mem_flatMap]
  rintro (hOpen | hMem | ⟨text, hText, hBlank | hMem⟩ | hClose)
  · exact absurd hOpen (by decide)
  · exact (hTag.2 _ hMem).2 rfl
  · exact absurd hBlank (by decide)
  · exact hTexts text hText hMem
  · exact absurd hClose (by decide)

/-- A list is decoded with its items. -/
theorem isReadAs_bracketed {bound : Nat} {tag : String} {nodes : List Node} {texts : List String}
    {n : Node} (hTag : IsTag tag) (hItems : List.Forall₂ (fun n text => IsReadAs bound text n) nodes texts)
    (hNode : ofItems? tag nodes = some n) : IsReadAs (bound + 1) (bracketed tag texts) n := by
  refine ⟨fun depth hDepth rest _ => ?_,
    bracketed_oneLine hTag (forall_of_forall₂ hItems fun _ _ h => h.oneLine)⟩
  obtain ⟨depth, rfl⟩ : ∃ k, depth = k + 1 := ⟨depth - 1, by omega⟩
  obtain ⟨hSome, hChars⟩ := hTag
  obtain ⟨c, cs, hTag⟩ := List.exists_cons_of_ne_nil hSome
  have hNotClosed : c ≠ ')' := by
    rintro rfl
    exact absurd (hChars ')' (hTag ▸ List.mem_cons_self)).1 (by decide)
  -- the tag ends where the first item or the closing parenthesis stands
  obtain ⟨hTake, hDrop⟩ := takeWhile_run (fun d hd => (hChars d hd).1)
    (endsItem_itemChars texts rest).not_isTagChar
  have hSteps : texts.length ≤ (itemChars texts ++ ')' :: rest).length := by
    have hLength := length_le_itemChars texts
    rw [List.length_append]
    omega
  have hRead := decodeItems_written (decodeNode depth)
    (hItems.imp fun n text h => h.decoded depth (by omega)) hSteps rest
  rw [toList_bracketed, List.cons_append, List.append_assoc, List.append_assoc,
    List.singleton_append]
  rw [hTag] at hTake hDrop ⊢
  rw [List.cons_append] at hTake hDrop ⊢
  rw [decodeNode_list hNotClosed, hTake, hDrop, ← hTag, String.ofList_toList]
  dsimp only
  rw [hRead]
  show (do return (← ofItems? tag nodes, rest)) = _
  rw [hNode]
  rfl

-- ---------------------------------------------------------------------------
-- Trees
-- ---------------------------------------------------------------------------

/-- The numbers that are written without loss, if they are written at all: integers, and numbers with a
decimal expansion of at most 64 significant digits that ends at most 1000062 places behind the point. -/
def IsWrittenExactly (q : ℚ) : Prop :=
  q.den = 1 ∨
    ∃ digits places : Nat, digits < 10 ^ Decimal.precision ∧
      (places : Int) ≤ -Decimal.leastExponent ∧ q = digits / 10 ^ places

/-- A number that is written exactly and that has a text is writable. -/
theorem IsWrittenExactly.isWritable {q : ℚ} {text : String} (h : IsWrittenExactly q)
    (hText : formatNumber (.fraction q) = .ok text) : IsWritable q := by
  rcases h with hInteger | hDecimal
  · refine Or.inl ⟨hInteger, ?_⟩
    rw [formatNumber, if_pos hInteger, writeInt] at hText
    by_contra hMany
    rw [if_pos (Bool.eq_true_of_not_eq_false hMany)] at hText
    cases hText
  · exact Or.inr hDecimal

/-- A number has a text, unless it is too long an integer. -/
theorem exists_formatNumber {q : ℚ} (h : q.den = 1 → tooManyDigits q.num = false) :
    ∃ text, formatNumber (.fraction q) = .ok text := by
  rw [formatNumber]
  by_cases hInteger : q.den = 1
  · exact ⟨_, (if_pos hInteger).trans (writeInt_ok (h hInteger))⟩
  · exact ⟨_, if_neg hInteger⟩

/-- Names of identifiers, and numbers that are written exactly. -/
def IsTaggable : Content → Prop
  | .ident x => IsName x
  | .number v => ∃ q : ℚ, 0 ≤ q ∧ v = .fraction q ∧ IsWrittenExactly q
  | _ => True

/-- A node that is written as a list: its tag, its names, and its children. -/
structure IsList (n : Node) (tag : String) (names : List String) : Prop where
  isTag : IsTag tag
  areNames : ∀ x ∈ names, IsName x
  written : ∀ write, taggedNode write n =
    (do return bracketed tag (names ++ (← n.children.mapM write)))
  decoded : ofItems? tag (names.map (Node.ident · .unknown) ++ n.children.map Node.withoutPlaces) =
    some n.withoutPlaces

/-- A node whose integer, if it has one, is not too long to be written. -/
def HasShortInteger (n : Node) : Prop :=
  ∀ q, n.value = .fraction q → q.den = 1 → tooManyDigits q.num = false

/-- A node that is written in one piece, and how it is read. -/
structure IsLeaf (n : Node) : Prop where
  written : ∀ write, taggedNode write n = leaf n
  text : HasShortInteger n → ∃ text, leaf n = .ok text
  decoded : ∀ {text}, leaf n = .ok text → ∀ bound, IsReadAs bound text n.withoutPlaces

variable {n m : Node} {x : String} {v : Payload} {k : Kind} {p : Place}

theorem isLeaf_number (h : IsTaggable (.number v)) (p : Place) : IsLeaf (.number v p) := by
  obtain ⟨q, hSign, rfl, hExactly⟩ := h
  refine ⟨fun _ => rfl, fun hShort => ?_, fun {text} hText bound => ?_⟩
  · obtain ⟨text, hText⟩ := exists_formatNumber (hShort q rfl)
    exact ⟨text, mapError_eq_ok.mpr hText⟩
  have hFormat : formatNumber (.fraction q) = .ok text := mapError_eq_ok.mp hText
  obtain ⟨num, hNum⟩ := (hExactly.isWritable hFormat).writes hSign
  obtain ⟨text', hText', hChars⟩ := hNum.text
  obtain rfl := Except.ok.inj (hFormat.symm.trans hText')
  exact isReadAs_number hNum hChars bound p

theorem isLeaf_string (x : String) (p : Place) : IsLeaf (.string x p) := by
  refine ⟨fun _ => rfl, fun _ => ⟨_, rfl⟩, fun {text} hText bound => ?_⟩
  obtain rfl : Json.writeString x = text := Except.ok.inj hText
  exact isReadAs_string x bound p

theorem isLeaf_unit (p : Place) : IsLeaf (.unit p) := by
  refine ⟨fun _ => rfl, fun _ => ⟨_, rfl⟩, fun {text} hText bound => ?_⟩
  obtain rfl : "()" = text := Except.ok.inj hText
  exact isReadAs_unit bound p

theorem isLeaf_ident (h : IsName x) (p : Place) : IsLeaf (.ident x p) := by
  refine ⟨fun _ => rfl, fun _ => ⟨_, rfl⟩, fun {text} hText bound => ?_⟩
  obtain rfl : x = text := Except.ok.inj hText
  exact isReadAs_ident h bound p

theorem isList_named (hk : k ∈ namedKinds) (hx : IsName x) (n : Node) (p : Place) :
    ∃ tag, IsList (.named k (.text x) n p) tag [x] := by
  have hName : ∀ y ∈ [x], IsName y := fun y hy => List.mem_singleton.mp hy ▸ hx
  simp only [namedKinds, List.mem_cons, List.not_mem_nil, or_false] at hk
  rcases hk with rfl | rfl | rfl
  · exact ⟨"Of", isTag_tag (k := .member) rfl, hName, fun _ => rfl, rfl⟩
  · exact ⟨"Fn", isTag_tag (k := .function) rfl, hName, fun _ => rfl, rfl⟩
  · exact ⟨"Assign", isTag_tag (k := .assignment) rfl, hName, fun _ => rfl, rfl⟩

theorem isList_wrap (hk : k ∈ [.parens, .negation, .positive, .reciprocal, .factorial]) (n : Node)
    (p : Place) : ∃ tag, IsList (.wrap k n p) tag [] := by
  simp only [List.mem_cons, List.not_mem_nil, or_false] at hk
  rcases hk with rfl | rfl | rfl | rfl | rfl
  · exact ⟨"Parens", isTag_tag (k := .parens) rfl, by simp, fun _ => rfl, rfl⟩
  · exact ⟨"UnaryMinus", isTag_tag (k := .negation) rfl, by simp, fun _ => rfl, rfl⟩
  · exact ⟨"UnaryPlus", isTag_tag (k := .positive) rfl, by simp, fun _ => rfl, rfl⟩
  · exact ⟨"UnaryDiv", isTag_tag (k := .reciprocal) rfl, by simp, fun _ => rfl, rfl⟩
  · exact ⟨"Factorial", isTag_tag (k := .factorial) rfl, by simp, fun _ => rfl, rfl⟩

theorem isList_pair (hk : k ∈ [.apply, .call, .product, .conversion, .statements]) (n m : Node) :
    ∃ tag, IsList (.pair k n m) tag [] := by
  simp only [List.mem_cons, List.not_mem_nil, or_false] at hk
  rcases hk with rfl | rfl | rfl | rfl | rfl
  · exact ⟨"Apply", isTag_tag (k := .apply) rfl, by simp, fun _ => rfl, rfl⟩
  · exact ⟨"ApplyFunctionCall", isTag_tag (k := .call) rfl, by simp, fun _ => rfl, rfl⟩
  · exact ⟨"ApplyMul", isTag_tag (k := .product) rfl, by simp, fun _ => rfl, rfl⟩
  · exact ⟨"As", isTag_tag (k := .conversion) rfl, by simp, fun _ => rfl, rfl⟩
  · exact ⟨"Statements", isTag_tag (k := .statements) rfl, by simp, fun _ => rfl, rfl⟩

theorem isList_binary (op : Operator) (n m : Node) : IsList (.binary op n m) op.name [] := by
  refine ⟨isTag_operator op, by simp, fun write => ?_, ?_⟩
  · show (do return bracketed op.name [← write n, ← write m]) =
      (do return bracketed op.name (← [n, m].mapM write))
    rw [List.mapM_cons, List.mapM_cons, List.mapM_nil]
    cases write n with
    | error e => rfl
    | ok a => cases write m <;> rfl
  · cases op <;> rfl

/-- A tree is written in one piece or as a list. -/
theorem isLeaf_or_isList (h : n.FormedOf IsTaggable) :
    IsLeaf n ∨ ∃ tag names, IsList n tag names := by
  cases h with
  | number p hv => exact Or.inl (isLeaf_number hv p)
  | string p _ => exact Or.inl (isLeaf_string _ p)
  | unit p => exact Or.inl (isLeaf_unit p)
  | ident p hx => exact Or.inl (isLeaf_ident hx p)
  | named hk p hx _ =>
    obtain ⟨tag, hList⟩ := isList_named hk hx _ p
    exact Or.inr ⟨tag, _, hList⟩
  | wrap hk p _ =>
    obtain ⟨tag, hList⟩ := isList_wrap hk _ p
    exact Or.inr ⟨tag, _, hList⟩
  | pair hk _ _ =>
    obtain ⟨tag, hList⟩ := isList_pair hk _ _
    exact Or.inr ⟨tag, _, hList⟩
  | binary op _ _ => exact Or.inr ⟨_, _, isList_binary op _ _⟩

/-- The names of a list and its children are read one by one. -/
theorem IsList.items {tag : String} {names : List String} (h : IsList n tag names) {bound : Nat}
    {texts : List String}
    (hTexts : List.Forall₂ (fun c text => IsReadAs bound text c.withoutPlaces) n.children texts) :
    List.Forall₂ (fun m text => IsReadAs bound text m)
      (names.map (Node.ident · .unknown) ++ n.children.map Node.withoutPlaces) (names ++ texts) := by
  refine List.rel_append ?_ (List.forall₂_map_left_iff.mpr hTexts)
  refine List.forall₂_map_left_iff.mpr (List.forall₂_same.mpr fun x hx => ?_)
  exact isReadAs_ident (h.areNames x hx) bound .unknown

/-- **A tree is decoded from its tagged text.** -/
theorem tagged_decodes {depth : Nat} {text : String} (h : tagged depth n = .ok text)
    (hFormed : n.FormedOf IsTaggable) : IsReadAs depth text n.withoutPlaces := by
  induction depth generalizing n text with
  | zero => cases h
  | succ depth ih =>
    rw [tagged] at h
    rcases isLeaf_or_isList hFormed with hLeaf | ⟨tag, names, hList⟩
    · rw [hLeaf.written] at h
      exact hLeaf.decoded h _
    · rw [hList.written] at h
      obtain ⟨texts, hTexts, hText⟩ := bind_eq_ok.mp h
      obtain rfl := Except.ok.inj hText
      have hChildren := (List.forall₂_and_left _ _).mpr ⟨fun _ hc => hc, mapM_eq_ok.mp hTexts⟩
      refine isReadAs_bracketed hList.isTag (hList.items ?_) hList.decoded
      exact hChildren.imp fun c _ ⟨hc, hWritten⟩ =>
        ih hWritten (hFormed.node (Node.mem_nodes_of_child hc c.self_mem_nodes))

-- ---------------------------------------------------------------------------
-- Texts exist
-- ---------------------------------------------------------------------------

/-- The tagged text of a tree. It is written under every bound that allows the height of the tree, and a
smaller bound can do no more than to be exhausted. -/
def HasTagged (n : Node) (text : String) : Prop :=
  ∀ depth, (n.height ≤ depth → tagged depth n = .ok text) ∧
    (tagged depth n = .ok text ∨ tagged depth n = .error .tooDeep)

/-- The texts of children that are written under the same bound. -/
theorem children_tagged {ns : List Node} {texts : List String} (h : List.Forall₂ HasTagged ns texts)
    (depth : Nat) : (Node.maxHeight ns ≤ depth → ns.mapM (tagged depth) = .ok texts) ∧
      (ns.mapM (tagged depth) = .ok texts ∨ ns.mapM (tagged depth) = .error .tooDeep) := by
  induction h with
  | nil => exact ⟨fun _ => rfl, Or.inl rfl⟩
  | cons hFirst _ ih =>
    obtain ⟨hWithin, hAlways⟩ := hFirst depth
    obtain ⟨hRestWithin, hRestAlways⟩ := ih
    rw [List.mapM_cons]
    refine ⟨fun hHeight => ?_, ?_⟩
    · rw [Node.maxHeight] at hHeight
      rw [hWithin (by omega), hRestWithin (by omega)]
      rfl
    · rcases hAlways with hText | hDeep
      · rcases hRestAlways with hTexts | hDeep
        · exact Or.inl (by rw [hText, hTexts]; rfl)
        · exact Or.inr (by rw [hText, hDeep]; rfl)
      · exact Or.inr (by rw [hDeep]; rfl)

theorem hasTagged_leaf {text : String} (h : ∀ write, taggedNode write n = leaf n)
    (hText : leaf n = .ok text) : HasTagged n text := by
  intro depth
  cases depth with
  | zero => exact ⟨fun hn => absurd hn (by have := n.height_pos; omega), Or.inr rfl⟩
  | succ depth =>
    rw [tagged, h]
    exact ⟨fun _ => hText, Or.inl hText⟩

theorem hasTagged_number {text : String} (p : Place) (h : formatNumber v = .ok text) :
    HasTagged (.number v p) text :=
  hasTagged_leaf (fun _ => rfl) (mapError_eq_ok.mpr h)

theorem IsList.hasTagged {tag : String} {names texts : List String} (h : IsList n tag names)
    (hTexts : List.Forall₂ HasTagged n.children texts) :
    HasTagged n (bracketed tag (names ++ texts)) := by
  intro depth
  cases depth with
  | zero => exact ⟨fun hn => absurd hn (by have := n.height_pos; omega), Or.inr rfl⟩
  | succ depth =>
    obtain ⟨hWithin, hAlways⟩ := children_tagged hTexts depth
    rw [tagged, h.written]
    refine ⟨fun hHeight => ?_, ?_⟩
    · rw [Node.height_eq] at hHeight
      rw [hWithin (by omega)]
      rfl
    · rcases hAlways with hTexts | hDeep
      · exact Or.inl (by rw [hTexts]; rfl)
      · exact Or.inr (by rw [hDeep]; rfl)

/-- **A tree has a tagged text**, unless an integer in it is too long. -/
theorem exists_hasTagged (hFormed : n.FormedOf IsTaggable) (hShort : ∀ m ∈ n.nodes, HasShortInteger m) :
    ∃ text, HasTagged n text := by
  obtain ⟨bound, hBound⟩ : ∃ bound, n.height ≤ bound := ⟨_, Nat.le_refl _⟩
  induction bound generalizing n with
  | zero => exact absurd hBound (by have := n.height_pos; omega)
  | succ bound ih =>
    rcases isLeaf_or_isList hFormed with hLeaf | ⟨tag, names, hList⟩
    · obtain ⟨text, hText⟩ := hLeaf.text (hShort n n.self_mem_nodes)
      exact ⟨text, hasTagged_leaf hLeaf.written hText⟩
    · obtain ⟨texts, hTexts⟩ := exists_forall₂ fun c hc =>
        ih (hFormed.node (Node.mem_nodes_of_child hc c.self_mem_nodes))
          (fun m hm => hShort m (Node.mem_nodes_of_child hc hm))
          (Nat.le_of_lt_succ ((Node.height_lt_of_child hc).trans_le hBound))
      exact ⟨_, hList.hasTagged hTexts⟩

-- ---------------------------------------------------------------------------
-- Trees that were read
-- ---------------------------------------------------------------------------

/-- The numbers in a tree are written exactly. -/
def HasExactNumbers (t : Node) : Prop :=
  ∀ m ∈ t.nodes, ∀ q, m.value = .fraction q → IsWrittenExactly q

theorem formedOf_of_readWithin {depth : Nat} {source : String} {t : Node}
    (h : readWithin depth source = .ok t) (hExact : HasExactNumbers t) : t.FormedOf IsTaggable := by
  obtain ⟨tokens, hTokens, hParse⟩ := bind_eq_ok.mp h
  have hFormed : t.FormedOf IsReadable :=
    Grammar.parseWithin_formedOf (mapError_eq_ok.mp hParse)
      (Lexer.tokenize_readable (mapError_eq_ok.mp hTokens))
  refine hFormed.refine ?_ ?_
  · rintro v p hv ⟨q, hSign, rfl⟩
    exact ⟨q, hSign, rfl, hExact _ hv q rfl⟩
  · intro c hNumber hc
    cases c with
    | number v => exact absurd rfl (hNumber v)
    | ident x => exact hc
    | _ => trivial

/-- **Tagged text forgets the places and nothing else.** Two trees were read from texts, and their
numbers are written exactly. A tree whose integers are not too long has a tagged text; no text has a
newline; and if the texts of both are the same, the trees are the same without their places. -/
theorem tagged_forgets_places {depth depth' : Nat} {source source' : String} {t t' : Node}
    (h : readWithin depth source = .ok t) (h' : readWithin depth' source' = .ok t')
    (hExact : HasExactNumbers t) (hExact' : HasExactNumbers t') :
    ((∀ m ∈ t.nodes, HasShortInteger m) → ∃ text, HasTagged t text) ∧
    ((∀ m ∈ t'.nodes, HasShortInteger m) → ∃ text, HasTagged t' text) ∧
    ∀ bound bound' text text', tagged bound t = .ok text → tagged bound' t' = .ok text' →
      ('\n' ∉ text.toList ∧ '\n' ∉ text'.toList) ∧
        (text = text' → t.withoutPlaces = t'.withoutPlaces) := by
  have hFormed := formedOf_of_readWithin h hExact
  have hFormed' := formedOf_of_readWithin h' hExact'
  refine ⟨exists_hasTagged hFormed, exists_hasTagged hFormed', ?_⟩
  intro bound bound' text text' hText hText'
  have hRead := tagged_decodes hText hFormed
  have hRead' := tagged_decodes hText' hFormed'
  refine ⟨⟨hRead.oneLine, hRead'.oneLine⟩, ?_⟩
  rintro rfl
  -- one decoder reads the text of both
  have hEnd : EndsItem [] := fun c hc => by cases hc
  have hTree := hRead.decoded (max bound bound') (le_max_left _ _) [] hEnd
  have hTree' := hRead'.decoded (max bound bound') (le_max_right _ _) [] hEnd
  exact congrArg Prod.fst (Option.some.inj (hTree.symm.trans hTree'))

/-- The tree of `say "a\nb"; 2.5 x`, whose parts stand at some places. -/
def saidAndScaled (text number name : Place) : Node :=
  .pair .statements (.pair .apply (.ident "say" .start) (.string "a\nb" text))
    (.pair .product (.number (.fraction (mkRat 5 2)) number) (.ident "x" name))

theorem value_saidAndScaled {text number name : Place} {q : ℚ}
    (hm : m ∈ (saidAndScaled text number name).nodes) (hq : m.value = .fraction q) : q = mkRat 5 2 := by
  rw [saidAndScaled, Node.nodes_pair, Node.nodes_pair, Node.nodes_pair] at hm
  simp only [Node.nodes_ident, Node.nodes_string, Node.nodes_number, List.mem_cons, List.mem_append,
    List.not_mem_nil, or_false] at hm
  rcases hm with rfl | (rfl | rfl | rfl) | rfl | rfl | rfl <;> cases hq
  rfl

set_option maxRecDepth 4000 in
/-- Blanks, a comment, a newline and a zero make no difference to the text. -/
theorem saidAndScaled_share_tagged :
    let t := saidAndScaled ⟨1, 5⟩ ⟨1, 13⟩ ⟨1, 17⟩
    let t' := saidAndScaled ⟨1, 6⟩ ⟨2, 1⟩ ⟨2, 6⟩
    let text := "(Statements (Apply say \"a\\nb\") (ApplyMul 2.5 x))"
    readWithin maxNesting "say \"a\\nb\"; 2.5 x" = .ok t ∧
      readWithin maxNesting "say  \"a\\nb\" ; # twice\n2.50 x" = .ok t' ∧
      HasExactNumbers t ∧ HasExactNumbers t' ∧ tagged 3 t = .ok text ∧ tagged 4 t' = .ok text ∧
      '\n' ∉ text.toList ∧ t.withoutPlaces = t'.withoutPlaces := by
  intro t t' text
  have hSource : readWithin maxNesting "say \"a\\nb\"; 2.5 x" = .ok t := rfl
  have hSource' : readWithin maxNesting "say  \"a\\nb\" ; # twice\n2.50 x" = .ok t' := rfl
  have hHalf : IsWrittenExactly (mkRat 5 2) := by
    refine Or.inr ⟨25, 1, by decide, by decide, ?_⟩
    norm_num [Rat.mkRat_eq_div]
  have hExact : HasExactNumbers t := fun m hm q hq => value_saidAndScaled hm hq ▸ hHalf
  have hExact' : HasExactNumbers t' := fun m hm q hq => value_saidAndScaled hm hq ▸ hHalf
  have hText : tagged 3 t = .ok text := by decide +kernel
  have hText' : tagged 4 t' = .ok text := by decide +kernel
  obtain ⟨-, -, hRead⟩ := tagged_forgets_places hSource hSource' hExact hExact'
  obtain ⟨⟨hOneLine, -⟩, hSame⟩ := hRead 3 4 text text hText hText'
  exact ⟨hSource, hSource', hExact, hExact', hText, hText', hOneLine, hSame rfl⟩

-- ---------------------------------------------------------------------------
-- Numbers that share a text
-- ---------------------------------------------------------------------------

/-- A power of ten is read from its text. -/
theorem parseSource_power {e : Int} (h : e.natAbs < tenTo 7) :
    ∃ p, parseSource defaultPrefixUnits (Decimal.text ⟨false, 1, e⟩) =
      .ok (.number (.fraction ((10 : ℚ) ^ e)) p) := by
  obtain ⟨p, hParse⟩ := parseSource_decimal (d := ⟨false, 1, e⟩) rfl
    (by decide : 1 < tenTo Decimal.precision) h
  rw [Decimal.magnitude_one] at hParse
  exact ⟨p, hParse⟩

/-- The powers of ten show what is left out. An integer is written in full, so `1E+5000` has no text;
and `1E-1000063` and `1E-1000064` are both rounded to one zero when they are written. -/
theorem powers_of_ten_share_tagged :
    (∃ p, parseSource defaultPrefixUnits "1E+5000" =
        .ok (.number (.fraction ((10 : ℚ) ^ (5000 : Int))) p) ∧
      ∀ depth, tagged (depth + 1) (.number (.fraction ((10 : ℚ) ^ (5000 : Int))) p) =
        .error (.digits .writing)) ∧
    ∃ p p', parseSource defaultPrefixUnits "1E-1000063" =
        .ok (.number (.fraction ((10 : ℚ) ^ (-1000063 : Int))) p) ∧
      parseSource defaultPrefixUnits "1E-1000064" =
        .ok (.number (.fraction ((10 : ℚ) ^ (-1000064 : Int))) p') ∧
      HasTagged (.number (.fraction ((10 : ℚ) ^ (-1000063 : Int))) p) "0E-1000062" ∧
      HasTagged (.number (.fraction ((10 : ℚ) ^ (-1000064 : Int))) p') "0E-1000062" ∧
      (Node.number (.fraction ((10 : ℚ) ^ (-1000063 : Int))) p).withoutPlaces ≠
        (Node.number (.fraction ((10 : ℚ) ^ (-1000064 : Int))) p').withoutPlaces := by
  constructor
  · obtain ⟨p, hParse⟩ := @parseSource_power 5000 (by decide)
    have hLarge : formatNumber (.fraction ((10 : ℚ) ^ (5000 : Int))) = .error .writing :=
      @formatNumber_large 5000 (by decide)
    generalize (10 : ℚ) ^ (5000 : Int) = q at hParse hLarge
    refine ⟨p, hParse, fun depth => ?_⟩
    show literal (.number (.fraction q) p) = _
    rw [literal_number, hLarge]
    rfl
  · obtain ⟨p, hParse⟩ := @parseSource_power (-1000063) (by decide)
    obtain ⟨p', hParse'⟩ := @parseSource_power (-1000064) (by decide)
    have hDiffer : (10 : ℚ) ^ (-1000063 : Int) ≠ (10 : ℚ) ^ (-1000064 : Int) := fun hSame =>
      absurd (zpow_right_injective₀ (by norm_num) (by norm_num) hSame) (by decide)
    have hTiny : formatNumber (.fraction ((10 : ℚ) ^ (-1000063 : Int))) = .ok "0E-1000062" :=
      @formatNumber_tiny 1000063 (by decide)
    have hTiny' : formatNumber (.fraction ((10 : ℚ) ^ (-1000064 : Int))) = .ok "0E-1000062" :=
      @formatNumber_tiny 1000064 (by decide)
    generalize (10 : ℚ) ^ (-1000063 : Int) = q at hParse hDiffer hTiny
    generalize (10 : ℚ) ^ (-1000064 : Int) = q' at hParse' hDiffer hTiny'
    refine ⟨p, p', hParse, hParse', hasTagged_number p hTiny, hasTagged_number p' hTiny', ?_⟩
    exact fun hSame => hDiffer (Payload.fraction.inj (congrArg Node.value hSame))

end Render

end Reckoner
