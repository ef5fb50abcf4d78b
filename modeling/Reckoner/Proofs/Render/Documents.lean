import Reckoner.Alias.Table
import Reckoner.Grammar.Parse
import Reckoner.Proofs.Grammar.Contents
import Reckoner.Proofs.Json.ReadBack
import Reckoner.Proofs.Lexer.Partition
import Reckoner.Proofs.Render.Printed
import Reckoner.Render.Format
import Reckoner.Text.Lines

/-!
# Documents of trees are read back

The document of a tree says everything about it: the kinds, values and places of its nodes are fields of
their own, a number is written exactly, and the type of a literal tells a number from a text. Each
document is one line, so a list of trees is read back line by line.

## Results

* `document_readBack`  — a tree is rebuilt from its document.
* `documents_readBack` — a list of parsed trees is rebuilt from the text that is written for it.
-/

namespace Reckoner

open Json (decodeInteger decodeNatural)

namespace Render

-- ---------------------------------------------------------------------------
-- Rebuilding trees
-- ---------------------------------------------------------------------------

/-- The fraction that a text `n` or `n/d` writes. -/
def fractionOf? (cs : List Char) : Option ℚ := do
  let (num, rest) ← decodeInteger cs
  match rest with
  | [] => return num
  | '/' :: rest =>
    let (den, rest) ← decodeNatural rest
    if rest.isEmpty then return mkRat num den else none
  | _ => none

/-- The text in a field. -/
def textAt? (fields : List (String × Json)) (key : String) : Option String :=
  match fields.lookup key with
  | some (.string text) => some text
  | _ => none

/-- The integer in a field. -/
def integerAt? (fields : List (String × Json)) (key : String) : Option Int :=
  match fields.lookup key with
  | some (.int n) => some n
  | _ => none

/-- The items in a field. -/
def itemsAt? (fields : List (String × Json)) (key : String) : Option (List Json) :=
  match fields.lookup key with
  | some (.array items) => some items
  | _ => none

/-- The payload of a node: a fraction, or a text unless there is none. -/
def payloadOf? (fields : List (String × Json)) (isNumber : Bool) : Option Payload :=
  if isNumber then do return .fraction (← fractionOf? (← textAt? fields "value").toList)
  else return (textAt? fields "value").elim .absent .text

/-- The tree of a document, at most of the given depth. -/
def ofDocument? : Nat → Json → Option Node
  | depth + 1, .object fields => do
    let kind ← Kind.ofName? (← textAt? fields "kind")
    let type := textAt? fields "type"
    let value ← payloadOf? fields (kind = .literal && type = some "number")
    let place : Place := ⟨← integerAt? fields "line", ← integerAt? fields "col"⟩
    let children ← (← itemsAt? fields "children").mapM (ofDocument? depth)
    return .mk kind value type place children
  | _, _ => none

/-- A fraction is read back from its text. -/
theorem fractionOf?_written {q : ℚ} (hNum : tooManyDigits q.num = false)
    (hDen : tooManyDigits q.den = false) :
    ∃ text, Payload.fractionText q = .ok text ∧ fractionOf? text.toList = some q := by
  unfold Payload.fractionText
  rw [writeInt_ok hNum, writeInt_ok hDen]
  by_cases hOne : q.den = 1
  · have hRead := Json.decodeInteger_written q.num [] (by simp [Json.EndsNatural])
    rw [List.append_nil] at hRead
    refine ⟨toString q.num, if_pos hOne, ?_⟩
    rw [fractionOf?, hRead]
    exact congrArg some ((Rat.den_eq_one_iff q).mp hOne)
  · have hText : (toString q.num ++ "/" ++ toString (q.den : Int)).toList =
        (toString q.num).toList ++ '/' :: Nat.toDigits 10 q.den := by
      have hDigits : (toString (q.den : Int)).toList = Nat.toDigits 10 q.den :=
        Decimal.toList_toString q.den
      rw [String.toList_append, String.toList_append, hDigits, List.append_assoc]
      rfl
    have hRead := Json.decodeInteger_written q.num ('/' :: Nat.toDigits 10 q.den)
      (by simp [Json.EndsNatural])
    have hReadDen := Json.decodeNatural_digits q.den [] (by simp [Json.EndsNatural])
    rw [List.append_nil] at hReadDen
    refine ⟨toString q.num ++ "/" ++ toString (q.den : Int), if_neg hOne, ?_⟩
    rw [hText, fractionOf?, hRead]
    show (do
      let (den, rest) ← decodeNatural (Nat.toDigits 10 q.den)
      if rest.isEmpty then return mkRat q.num den else none) = some q
    rw [hReadDen]
    exact congrArg some (Rat.mkRat_self q)

/-- A node that is written without loss: a number literal with a fraction that is not too long, or
another node with a text or nothing. -/
inductive IsExact (n : Node) : Prop
  | number {q : ℚ} (number : n.isNumber = true) (value : n.value = .fraction q)
      (num : tooManyDigits q.num = false) (den : tooManyDigits q.den = false) : IsExact n
  | text {s : String} (other : n.isNumber = false) (value : n.value = .text s) : IsExact n
  | absent (other : n.isNumber = false) (value : n.value = .absent) : IsExact n

/-- The value of a node in its document, and how it is read. -/
theorem documentValue_readBack {n : Node} (h : IsExact n) :
    ∃ v, documentValue n = .ok v ∧ v.IsPlain ∧
      ∀ fields : List (String × Json), fields.lookup "value" = some v →
        payloadOf? fields n.isNumber = some n.value := by
  cases h with
  | @number q hNumber hValue hNum hDen =>
    obtain ⟨text, hText, hRead⟩ := fractionOf?_written hNum hDen
    refine ⟨.string text, ?_, trivial, fun fields hField => ?_⟩
    · have hPayload : payload n = .ok text := by
        rw [payload, hValue, Payload.display, hText]
        rfl
      rw [documentValue, if_pos hNumber, hPayload]
      rfl
    · have hAt : textAt? fields "value" = some text := by rw [textAt?, hField]
      rw [payloadOf?, if_pos hNumber, hAt, hValue]
      show (do return Payload.fraction (← fractionOf? text.toList)) = _
      rw [hRead]
      rfl
  | @text s hOther hValue =>
    refine ⟨.string s, ?_, trivial, fun fields hField => ?_⟩
    · rw [documentValue, hOther, hValue]
      rfl
    · have hAt : textAt? fields "value" = some s := by rw [textAt?, hField]
      rw [payloadOf?, hOther, hAt, hValue]
      rfl
  | absent hOther hValue =>
    refine ⟨.null, ?_, trivial, fun fields hField => ?_⟩
    · rw [documentValue, hOther, hValue]
      rfl
    · have hAt : textAt? fields "value" = none := by rw [textAt?, hField]
      rw [payloadOf?, hOther, hAt, hValue]
      rfl

/-- The fields of the document of a node, with the value and the children written. -/
def fieldsOf (n : Node) (value : Json) (children : List Json) : List (String × Json) :=
  [("kind", .string n.kind.name), ("value", value), ("type", n.type.elim .null .string),
    ("line", .int n.place.line), ("col", .int n.place.col), ("children", .array children)]

section Fields

variable {n : Node} {value : Json} {children : List Json}

theorem documentNode_ok {document : Node → Except Fault Json} (hValue : documentValue n = .ok value)
    (hChildren : n.children.mapM document = .ok children) :
    documentNode document n = .ok (.object (fieldsOf n value children)) := by
  rw [documentNode, hValue, ok_bind, hChildren]
  rfl

theorem arePlainFields_fieldsOf (hValue : value.IsPlain) (hChildren : Json.ArePlainItems children) :
    Json.ArePlainFields (fieldsOf n value children) := by
  refine ⟨trivial, hValue, ?_, trivial, trivial, hChildren, trivial⟩
  cases n.type <;> trivial

theorem typeAt?_fieldsOf : textAt? (fieldsOf n value children) "type" = n.type := by
  have hField : (fieldsOf n value children).lookup "type" = some (n.type.elim .null .string) := rfl
  rw [textAt?, hField]
  cases n.type <;> rfl

/-- A node is rebuilt from its fields. -/
theorem ofDocument?_fieldsOf {depth : Nat}
    (hValue : payloadOf? (fieldsOf n value children) n.isNumber = some n.value)
    (hChildren : children.mapM (ofDocument? depth) = some n.children) :
    ofDocument? (depth + 1) (.object (fieldsOf n value children)) = some n := by
  have hKind : textAt? (fieldsOf n value children) "kind" = some n.kind.name := rfl
  have hLine : integerAt? (fieldsOf n value children) "line" = some n.place.line := rfl
  have hCol : integerAt? (fieldsOf n value children) "col" = some n.place.col := rfl
  have hItems : itemsAt? (fieldsOf n value children) "children" = some children := rfl
  rw [Node.isNumber] at hValue
  simp only [ofDocument?, hKind, hLine, hCol, hItems, typeAt?_fieldsOf, Option.bind_eq_bind,
    Option.bind_some, Kind.ofName?_name, hValue, hChildren]
  cases n
  rfl

/-- A document is longer than the documents of the children in it. -/
theorem length_write_child {v : Json} (h : v ∈ children) :
    v.write.toList.length < (Json.object (fieldsOf n value children)).write.toList.length := by
  have hItem := Json.length_le_intercalate (Json.write_mem_writeItems h)
  have hField : Json.fieldText ("children", (Json.array children).write) ∈
      (Json.writeFields (fieldsOf n value children)).map Json.fieldText := by
    simp [fieldsOf, Json.writeFields]
  have hField := Json.length_le_intercalate hField
  rw [Json.toList_fieldText, Json.write, Json.toList_writeArray] at hField
  rw [Json.write, Json.toList_writeObject]
  simp only [List.length_append, List.length_cons] at hField ⊢
  omega

end Fields

/-- The document of a tree, from which the tree can be rebuilt. A tree is no higher than its document is
long. -/
structure IsDocument (depth : Nat) (n : Node) (v : Json) : Prop where
  written : document depth n = .ok v
  plain : v.IsPlain
  read : ∀ steps, n.height ≤ steps → ofDocument? steps v = some n
  height_le : n.height ≤ v.write.toList.length

/-- Trees are no higher than their documents may be long. -/
theorem maxHeight_le {depth bound : Nat} {trees : List Node} {documents : List Json}
    (h : List.Forall₂ (IsDocument depth) trees documents)
    (hBound : ∀ v ∈ documents, v.write.toList.length ≤ bound) : Node.maxHeight trees ≤ bound := by
  induction h with
  | nil => exact Nat.zero_le _
  | cons hFirst hMore ih =>
    obtain ⟨hBoundFirst, hBoundMore⟩ := List.forall_mem_cons.mp hBound
    exact max_le (hFirst.height_le.trans hBoundFirst) (ih hBoundMore)

/-- **A tree is rebuilt from its document.** -/
theorem document_readBack {depth : Nat} {n : Node} (hHeight : n.height ≤ depth)
    (hExact : ∀ m ∈ n.nodes, IsExact m) : ∃ v, IsDocument depth n v := by
  induction depth generalizing n with
  | zero => exact absurd hHeight (by have := n.height_pos; omega)
  | succ depth ih =>
    obtain ⟨v, hValue, hPlain, hRead⟩ := documentValue_readBack (hExact n n.self_mem_nodes)
    obtain ⟨vs, hBelow⟩ := exists_forall₂ fun c hc =>
      (ih (Nat.le_of_lt_succ ((Node.height_lt_of_child hc).trans_le hHeight))
        fun m hm => hExact m (Node.mem_nodes_of_child hc hm)).imp
        fun v hv => And.intro (Node.height_lt_of_child hc) hv
    have hChildren := hBelow.imp fun _ _ h => h.2
    have hWritten := mapM_eq_ok.mpr (hChildren.imp fun _ _ h => h.written)
    have hAllPlain := Json.arePlainItems_of_forall (forall_of_forall₂ hChildren fun _ _ h => h.plain)
    have hObject : (Json.object (fieldsOf n v vs)).IsPlain := arePlainFields_fieldsOf hPlain hAllPlain
    refine ⟨_, documentNode_ok hValue hWritten, hObject, fun steps hSteps => ?_, ?_⟩
    · obtain ⟨steps, rfl⟩ := Nat.exists_eq_add_of_le' (n.height_pos.trans_le hSteps)
      have hAllRead := mapM_eq_some (hBelow.imp fun _ _ h =>
        h.2.read steps (Nat.le_of_lt_succ (h.1.trans_le hSteps)))
      exact ofDocument?_fieldsOf (hRead _ rfl) hAllRead
    · obtain ⟨c, cs, hText, -⟩ := Json.write_cons hObject
      have hSome : 0 < (Json.object (fieldsOf n v vs)).write.toList.length := by
        rw [hText]
        exact Nat.succ_pos _
      rw [Node.height_eq]
      exact Nat.lt_of_le_pred hSome
        (maxHeight_le hChildren fun _ hv => Nat.le_pred_of_lt (length_write_child hv))

-- ---------------------------------------------------------------------------
-- Lines
-- ---------------------------------------------------------------------------

theorem toList_joined_cons (line next : String) (lines : List String) :
    ("\n".intercalate (line :: next :: lines)).toList =
      line.toList ++ '\n' :: ("\n".intercalate (next :: lines)).toList := by
  simp

/-- Lines that are joined are split again. -/
theorem splitAt_joined {lines : List String} (hSome : lines ≠ [])
    (h : ∀ line ∈ lines, '\n' ∉ line.toList) :
    Text.splitAt '\n' ("\n".intercalate lines).toList = lines.map String.toList := by
  induction lines with
  | nil => exact absurd rfl hSome
  | cons line lines ih =>
    obtain ⟨hLine, hLines⟩ := List.forall_mem_cons.mp h
    cases lines with
    | nil => rw [String.intercalate_singleton, Text.splitAt_of_not_mem hLine]; rfl
    | cons next lines =>
      rw [toList_joined_cons, Text.splitAt_append hLine, ih (by simp) hLines]
      rfl

/-- Lines that are joined have one newline between each two. -/
theorem count_newline_joined {lines : List String} (h : ∀ line ∈ lines, '\n' ∉ line.toList) :
    ("\n".intercalate lines).toList.count '\n' = lines.length - 1 := by
  induction lines with
  | nil => rfl
  | cons line lines ih =>
    obtain ⟨hLine, hLines⟩ := List.forall_mem_cons.mp h
    cases lines with
    | nil => rw [String.intercalate_singleton, List.count_eq_zero_of_not_mem hLine]; rfl
    | cons next lines =>
      have hCount := ih hLines
      rw [toList_joined_cons, List.count_append, List.count_eq_zero_of_not_mem hLine,
        List.count_cons_self, hCount]
      simp

/-- The trees of a text with the document of one tree on each line. No tree is higher than its line is
long. -/
def readTrees (text : String) : Option (List Node) :=
  if text.toList = [] then some []
  else (Text.splitAt '\n' text.toList).mapM fun line => do
    ofDocument? line.length (← Json.decode line)

/-- The document of a tree on a line, from which it can be read. -/
structure IsLineOf (height : Nat) (t : Node) (line : String) : Prop where
  written : Format.document.writeWithin height t = .ok line
  read : (do ofDocument? line.toList.length (← Json.decode line.toList)) = some t
  oneLine : '\n' ∉ line.toList
  nonempty : line.toList ≠ []

theorem exists_isLineOf {height : Nat} {t : Node} (hHeight : t.height ≤ height)
    (hExact : ∀ m ∈ t.nodes, IsExact m) : ∃ line, IsLineOf height t line := by
  obtain ⟨v, hWritten, hPlain, hRead, hLength⟩ := document_readBack hHeight hExact
  refine ⟨v.write, ?_, ?_, Json.newline_not_mem_write v hPlain, ?_⟩
  · rw [Format.writeWithin, hWritten]
    rfl
  · rw [Json.decode_write hPlain]
    exact hRead _ hLength
  · obtain ⟨c, cs, hText, -⟩ := Json.write_cons hPlain
    rw [hText]
    exact List.cons_ne_nil c cs

/-- Trees are read from their joined lines. -/
theorem readTrees_joined {height : Nat} {trees : List Node} {lines : List String}
    (h : List.Forall₂ (IsLineOf height) trees lines) :
    readTrees ("\n".intercalate lines) = some trees := by
  cases h with
  | nil => rfl
  | @cons t line trees lines hLine hLines =>
    have hOneLine := forall_of_forall₂ (.cons hLine hLines) fun _ _ h => IsLineOf.oneLine h
    have hSplit := splitAt_joined (by simp) hOneLine
    have hNonempty : ("\n".intercalate (line :: lines)).toList ≠ [] := by
      intro hEmpty
      rw [hEmpty] at hSplit
      exact hLine.nonempty (List.cons.inj hSplit).1.symm
    rw [readTrees, if_neg hNonempty, hSplit]
    refine mapM_eq_some (List.forall₂_map_right_iff.mpr ?_)
    exact List.Forall₂.imp (fun _ _ h => h.read) (.cons hLine hLines)

-- ---------------------------------------------------------------------------
-- Parsed trees
-- ---------------------------------------------------------------------------

/-- A number token that carries a fraction, or a token of another type. -/
def HasFraction (c : Content) : Prop :=
  ∀ v, c = .number v → ∃ q : ℚ, v = .fraction q

theorem hasFraction_of_isLexeme {units : List String} {after slice : List Char} {c : Content}
    (h : Lexer.IsLexeme units after c slice) : HasFraction c := by
  rintro v rfl
  cases h with
  | @number n q _ _ _ => exact ⟨q, rfl⟩

/-- Source texts have numbers that are fractions, whatever words are replaced in them. -/
theorem tokens_hasFraction {aliases : Aliases} {source : String} {tokens : List Token}
    (h : aliases.tokens source = .ok tokens) : ∀ t ∈ tokens, HasFraction t.content := by
  unfold Aliases.tokens at h
  cases hTokens : tokenize aliases.prefixUnits source with
  | error e => rw [hTokens] at h; cases h
  | ok lexed =>
    rw [hTokens] at h
    obtain rfl := Except.ok.inj h
    intro t ht
    obtain ⟨u, hu, rfl⟩ := List.mem_map.mp ht
    have hLexed := Lexer.forall_content_of_tokenize hasFraction_of_isLexeme hTokens u hu
    unfold Aliases.applyTo
    split
    · rename_i name hName
      cases hToken : aliases.token? name u.place with
      | none => exact hLexed
      | some found =>
        obtain ⟨s, -, rfl⟩ := Option.map_eq_some_iff.mp hToken
        intro v hv
        cases hv
    · exact hLexed

/-- A tree that was parsed from a source text, with any words replaced, any prefix units and any bound
on the nesting of rules. -/
def IsParsed (t : Node) : Prop :=
  ∃ (aliases : Aliases) (units : List String) (source : String) (tokens : List Token) (depth : Nat),
    aliases.tokens source = .ok tokens ∧ (Grammar.parseWithin depth units tokens).result = .ok t

/-- The numbers in a tree have no more digits than an integer may be written with. -/
def HasShortNumbers (t : Node) : Prop :=
  ∀ m ∈ t.nodes, ∀ q, m.value = .fraction q →
    tooManyDigits q.num = false ∧ tooManyDigits q.den = false

/-- A number literal carries a fraction, and any other node a text or nothing. -/
theorem value_of_formedOf {n : Node} (h : n.FormedOf HasFraction) :
    (n.isNumber = true ∧ ∃ q : ℚ, n.value = .fraction q) ∨
      n.isNumber = false ∧ (n.value = .absent ∨ ∃ s, n.value = .text s) := by
  cases h with
  | number p hv =>
    obtain ⟨q, rfl⟩ := hv _ rfl
    exact Or.inl ⟨rfl, q, rfl⟩
  | string p _ => exact Or.inr ⟨rfl, Or.inr ⟨_, rfl⟩⟩
  | unit p => exact Or.inr ⟨rfl, Or.inl rfl⟩
  | ident p _ => exact Or.inr ⟨rfl, Or.inr ⟨_, rfl⟩⟩
  | named hk p _ _ =>
    refine Or.inr ⟨Node.isNumber_of_kind_ne ?_, Or.inr ⟨_, rfl⟩⟩
    rintro rfl
    exact absurd hk (by decide)
  | wrap hk p _ =>
    refine Or.inr ⟨Node.isNumber_of_kind_ne ?_, Or.inl rfl⟩
    rintro rfl
    exact absurd hk (by decide)
  | pair hk _ _ =>
    refine Or.inr ⟨Node.isNumber_of_kind_ne ?_, Or.inl rfl⟩
    rintro rfl
    exact absurd hk (by decide)
  | binary op _ _ => exact Or.inr ⟨rfl, Or.inr ⟨_, rfl⟩⟩

theorem isExact_of_formedOf {n : Node} (h : n.FormedOf HasFraction)
    (hShort : ∀ q, n.value = .fraction q → tooManyDigits q.num = false ∧ tooManyDigits q.den = false) :
    IsExact n := by
  rcases value_of_formedOf h with ⟨hNumber, q, hValue⟩ | ⟨hOther, hValue | ⟨s, hValue⟩⟩
  · obtain ⟨hNum, hDen⟩ := hShort q hValue
    exact .number hNumber hValue hNum hDen
  · exact .absent hOther hValue
  · exact .text hOther hValue

/-- A parsed tree is written without loss. -/
theorem IsParsed.isExact {t : Node} (h : IsParsed t) (hShort : HasShortNumbers t) :
    ∀ m ∈ t.nodes, IsExact m := by
  obtain ⟨aliases, units, source, tokens, depth, hTokens, hParse⟩ := h
  have hFormed := Grammar.parseWithin_formedOf hParse (tokens_hasFraction hTokens)
  exact fun m hm => isExact_of_formedOf (hFormed.node hm) (hShort m hm)

/-- **Documents lose nothing and keep to their lines.** A list of trees that were parsed, whose numbers
are not too long and whose heights are allowed, is written as one line for each tree, and all of the
trees, with their places, are read from the text. -/
theorem documents_readBack {height : Nat} {trees : List Node} (hParsed : ∀ t ∈ trees, IsParsed t)
    (hShort : ∀ t ∈ trees, HasShortNumbers t) (hHeight : ∀ t ∈ trees, t.height ≤ height) :
    ∃ lines, trees.mapM (Format.document.writeWithin height) = .ok lines ∧
      Format.document.renderWithin height trees = .ok ("\n".intercalate lines) ∧
      (∀ line ∈ lines, '\n' ∉ line.toList) ∧
      ("\n".intercalate lines).toList.count '\n' = trees.length - 1 ∧
      readTrees ("\n".intercalate lines) = some trees := by
  obtain ⟨lines, hLines⟩ := exists_forall₂ fun t ht =>
    exists_isLineOf (hHeight t ht) ((hParsed t ht).isExact (hShort t ht))
  have hWritten : trees.mapM (Format.document.writeWithin height) = .ok lines :=
    mapM_eq_ok.mpr (hLines.imp fun _ _ hLine => hLine.written)
  have hOneLine := forall_of_forall₂ hLines fun _ _ hLine => hLine.oneLine
  refine ⟨lines, hWritten, ?_, hOneLine, ?_, readTrees_joined hLines⟩
  · rw [Format.renderWithin, hWritten]
    rfl
  · rw [count_newline_joined hOneLine, hLines.length_eq]

/-- The trees of `x = 2.5` and of `say "a\n\"b"`. -/
def twoParsed : List Node :=
  [.named .assignment (.text "x") (.number (.fraction (mkRat 5 2)) ⟨1, 5⟩) ⟨1, 1⟩,
    .pair .apply (.ident "say" ⟨1, 1⟩) (.string "a\n\"b" ⟨1, 5⟩)]

set_option maxRecDepth 8000 in
/-- The document of a fraction and that of a text with a newline stand on two lines. -/
theorem twoParsed_readBack :
    let first := "\x7b\"kind\": \"assign\", \"value\": \"x\", \"type\": null, \"line\": 1, \"col\": 1, " ++
      "\"children\": [\x7b\"kind\": \"literal\", \"value\": \"5/2\", \"type\": \"number\", " ++
      "\"line\": 1, \"col\": 5, \"children\": []\x7d]\x7d"
    let second := "\x7b\"kind\": \"apply\", \"value\": null, \"type\": null, \"line\": 1, \"col\": 1, " ++
      "\"children\": [\x7b\"kind\": \"identifier\", \"value\": \"say\", \"type\": null, " ++
      "\"line\": 1, \"col\": 1, \"children\": []\x7d, \x7b\"kind\": \"literal\", " ++
      "\"value\": \"a\\n\\\"b\", \"type\": \"string\", \"line\": 1, \"col\": 5, \"children\": []\x7d]\x7d"
    (∀ t ∈ twoParsed, IsParsed t) ∧ (∀ t ∈ twoParsed, HasShortNumbers t) ∧
      (∀ t ∈ twoParsed, t.height ≤ maxTreeDepth) ∧
      Format.document.render twoParsed = .ok (first ++ "\n" ++ second) ∧
      readTrees (first ++ "\n" ++ second) = some twoParsed := by
  intro first second
  have hParsed : ∀ t ∈ twoParsed, IsParsed t := by
    refine List.forall_mem_cons.mpr ⟨?_, List.forall_mem_cons.mpr ⟨?_, by simp⟩⟩
    · exact ⟨.canonical, defaultPrefixUnits, "x = 2.5", _, maxNesting, rfl, rfl⟩
    · exact ⟨.canonical, defaultPrefixUnits, "say \"a\\n\\\"b\"", _, maxNesting, rfl, rfl⟩
  have hShort : ∀ t ∈ twoParsed, HasShortNumbers t := by
    have hNum : tooManyDigits (mkRat 5 2).num = false := by decide +kernel
    have hDen : tooManyDigits (mkRat 5 2).den = false := by decide +kernel
    refine List.forall_mem_cons.mpr ⟨?_, List.forall_mem_cons.mpr ⟨?_, by simp⟩⟩
    · intro m hm q hq
      rw [Node.nodes_named, Node.nodes_number] at hm
      rcases List.mem_cons.mp hm with rfl | hm
      · cases hq
      · obtain rfl := List.mem_singleton.mp hm
        obtain rfl := Payload.fraction.inj hq
        exact ⟨hNum, hDen⟩
    · intro m hm q hq
      rw [Node.nodes_pair, Node.nodes_ident, Node.nodes_string] at hm
      simp only [List.mem_cons, List.mem_append, List.not_mem_nil, or_false] at hm
      rcases hm with rfl | rfl | rfl <;> cases hq
  have hHeight : ∀ t ∈ twoParsed, t.height ≤ maxTreeDepth := by decide
  obtain ⟨lines, hLines, hText, -, -, hRead⟩ := documents_readBack hParsed hShort hHeight
  have hWritten : twoParsed.mapM (Format.document.writeWithin maxTreeDepth) = .ok [first, second] := by
    decide +kernel
  obtain rfl := Except.ok.inj (hLines.symm.trans hWritten)
  exact ⟨hParsed, hShort, hHeight, hText, hRead⟩

end Render

end Reckoner
