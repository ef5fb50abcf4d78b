import Reckoner.Batch
import Reckoner.Proofs.Outcome
import Reckoner.Storage.Files

/-!
# Batch runs are all or nothing

A batch run reads all its lines before it writes a tree, and writes all trees before it delivers a text.
So it fails at the first line that is no expression or, when all of them are expressions, at the first
tree that cannot be written (`Fails`), and up to there it has printed nothing and touched no file. What
it delivers is put together from what each line comes to on its own (`showLine`), because neither the
aliases nor the writing of a tree depend on the lines before it.

The run is taken apart by its stages: `writeLines_result` says what the lines come to, apart from the
remarks, and `run_prepared` what the run makes of that on files in memory.

## Results

* `writeLines_result`   — the text of lines is that of their trees, which are read one by one.
* `writeLines_eq_ok`    — lines have a text if each is shown, and it is put together from theirs.
* `exists_fails`        — lines that have no text fail at the first line or tree that does.
* `run_all_or_nothing`  — a run delivers what all its lines come to, or nothing.
-/

namespace Reckoner

/-- One tree is written on its own. -/
theorem Format.renderWithin_singleton (format : Format) (height : Nat) (tree : Node) :
    format.renderWithin height [tree] = format.writeWithin height tree := by
  rw [renderWithin, List.mapM_cons, List.mapM_nil]
  cases format.writeWithin height tree <;> rfl

namespace Batch

variable {files : Files} {request : Request} {format : Format} {text : String} {a : Aliases}
  {b : Bounds} {lines : List String} {failure : Failure}

-- ---------------------------------------------------------------------------
-- Lines on their own
-- ---------------------------------------------------------------------------

/-- The tree of a line, read on its own. -/
def treeOf (b : Bounds) (a : Aliases) (line : String) : Except ReadError Node := do
  let tokens ← (a.tokens line).mapError .lexing
  (b.parse a.prefixUnits tokens).result.mapError .parsing

/-- What a line comes to on its own: the text of its tree, or why it has none. -/
def showLine (b : Bounds) (a : Aliases) (format : Format) (line : String) : Except Failure String := do
  let tree ← (treeOf b a line).mapError .reading
  (b.render format [tree]).mapError .rendering

/-- A line whose tree is known is shown as the tree is. -/
theorem showLine_of_tree {line : String} {tree : Node} (h : treeOf b a line = .ok tree) :
    showLine b a format line = (format.writeWithin (b.height format) tree).mapError .rendering := by
  rw [← Format.renderWithin_singleton, showLine, h]
  rfl

theorem exists_tree_of_shown {line shown : String} (h : showLine b a format line = .ok shown) :
    ∃ tree, treeOf b a line = .ok tree := by
  obtain ⟨tree, hTree, -⟩ := bind_eq_ok.mp h
  exact ⟨tree, mapError_eq_ok.mp hTree⟩

-- ---------------------------------------------------------------------------
-- The stages of a run
-- ---------------------------------------------------------------------------

/-- The number of a line matters for remarks only. -/
theorem readLine_result (b : Bounds) (a : Aliases) (number : Nat) (line : String) :
    (readLine b a number line).2 = treeOf b a line := by
  unfold readLine treeOf
  cases a.tokens line <;> rfl

theorem readLines_result (b : Bounds) (a : Aliases) (numbered : List (Nat × String)) :
    (readLines b a numbered).2 = (numbered.map (·.2)).mapM (treeOf b a) := by
  induction numbered with
  | nil => rfl
  | cons first rest ih =>
    obtain ⟨number, line⟩ := first
    rw [List.map_cons, List.mapM_cons, ← readLine_result b a number line, ← ih, readLines]
    cases readLine b a number line with
    | mk remarks tree =>
      cases tree with
      | error e => rfl
      | ok tree =>
        dsimp only
        rw [ok_bind]
        cases (readLines b a rest).2 <;> rfl

theorem expressions_lines (number : Nat) (lines : List String) :
    (expressions number lines).map (·.2) = lines.filter isExpression := by
  induction lines generalizing number with
  | nil => rfl
  | cons line lines ih =>
    rw [expressions, List.filter_cons]
    split
    · rw [List.map_cons, ih]
    · exact ih _

/-- **The text of lines is that of the trees of their expressions**, which are read one by one. -/
theorem writeLines_result (b : Bounds) (a : Aliases) (format : Format) (lines : List String) :
    (writeLines b a (some format) lines).2 =
      (((lines.filter isExpression).mapM (treeOf b a)).mapError .reading >>= fun trees =>
        (b.render format trees).mapError .rendering) := by
  rw [← expressions_lines 1 lines, ← readLines_result]
  rfl

/-- Where all lines are expressions, their trees are written as the lines are shown, one by one. -/
theorem render_trees {trees : List Node} (h : lines.mapM (treeOf b a) = .ok trees) :
    (b.render format trees).mapError Failure.rendering =
      (lines.mapM (showLine b a format)).map "\n".intercalate := by
  have hTexts : (trees.mapM (format.writeWithin (b.height format))).mapError Failure.rendering =
      lines.mapM (showLine b a format) := by
    induction mapM_eq_ok.mp h with
    | nil => rfl
    | @cons line tree lines trees hTree hMore ih =>
      rw [List.mapM_cons, List.mapM_cons, showLine_of_tree hTree, ← ih (mapM_eq_ok.mpr hMore)]
      cases format.writeWithin (b.height format) tree with
      | error fault => rfl
      | ok shown =>
        rw [ok_bind]
        cases trees.mapM (format.writeWithin (b.height format)) <;> rfl
  rw [← hTexts, Bounds.render, Format.renderWithin]
  cases trees.mapM (format.writeWithin (b.height format)) <;> rfl

/-- **Lines have a text if each of their expressions is shown**, and it is put together from what is
shown. -/
theorem writeLines_eq_ok :
    (writeLines b a (some format) lines).2 = .ok text ↔
      ∃ texts, List.Forall₂ (fun line shown => showLine b a format line = .ok shown)
        (lines.filter isExpression) texts ∧ "\n".intercalate texts = text := by
  rw [writeLines_result]
  cases hTrees : (lines.filter isExpression).mapM (treeOf b a) with
  | ok trees =>
    show (b.render format trees).mapError Failure.rendering = _ ↔ _
    rw [render_trees hTrees]
    constructor
    · intro h
      cases hTexts : (lines.filter isExpression).mapM (showLine b a format) with
      | error e => rw [hTexts] at h; cases h
      | ok texts =>
        rw [hTexts] at h
        exact ⟨texts, mapM_eq_ok.mp hTexts, Except.ok.inj h⟩
    · rintro ⟨texts, hTexts, hText⟩
      rw [mapM_eq_ok.mpr hTexts]
      exact congrArg Except.ok hText
  | error e =>
    constructor
    · intro h
      cases h
    · rintro ⟨texts, hTexts, -⟩
      -- lines that are shown are expressions
      obtain ⟨before, line, after, hSplit, -, hUnread⟩ := mapM_eq_error hTrees
      have hLine : line ∈ lines.filter isExpression :=
        hSplit ▸ List.mem_append_right _ List.mem_cons_self
      obtain ⟨shown, hShown⟩ := exists_of_forall₂ hTexts line hLine
      obtain ⟨tree, hTree⟩ := exists_tree_of_shown hShown
      rw [hUnread] at hTree
      cases hTree

-- ---------------------------------------------------------------------------
-- The first failure
-- ---------------------------------------------------------------------------

/-- Why lines have no text: one of them is no expression, and those before it are; or all of them are
expressions, the tree of one of them cannot be written, and those before it are shown. -/
inductive Fails (b : Bounds) (a : Aliases) (format : Format) (lines : List String) : Failure → Prop
  | reading {before after : List String} {line : String} {e : ReadError}
      (split : lines = before ++ line :: after)
      (first : ∀ other ∈ before, ∃ tree, treeOf b a other = .ok tree)
      (unread : treeOf b a line = .error e) : Fails b a format lines (.reading e)
  | rendering {before after : List String} {line : String} {tree : Node} {fault : Render.Fault}
      (split : lines = before ++ line :: after)
      (read : ∀ other ∈ lines, ∃ tree, treeOf b a other = .ok tree)
      (first : ∀ other ∈ before, ∃ shown, showLine b a format other = .ok shown)
      (tree_eq : treeOf b a line = .ok tree)
      (unwritten : b.render format [tree] = .error fault) : Fails b a format lines (.rendering fault)

/-- **Lines that have no text fail at the first line that is no expression**, or else at the first tree
that cannot be written. -/
theorem exists_fails (h : (writeLines b a (some format) lines).2 = .error failure) :
    Fails b a format (lines.filter isExpression) failure := by
  rw [writeLines_result] at h
  cases hTrees : (lines.filter isExpression).mapM (treeOf b a) with
  | error e =>
    rw [hTrees] at h
    obtain rfl : .reading e = failure := Except.error.inj h
    obtain ⟨before, line, after, hSplit, hFirst, hUnread⟩ := mapM_eq_error hTrees
    exact .reading hSplit hFirst hUnread
  | ok trees =>
    rw [hTrees] at h
    have hRead : ∀ line ∈ lines.filter isExpression, ∃ tree, treeOf b a line = .ok tree :=
      exists_of_forall₂ (mapM_eq_ok.mp hTrees)
    have hTexts : (lines.filter isExpression).mapM (showLine b a format) = .error failure := by
      have hText := (render_trees hTrees).symm.trans h
      cases hTexts : (lines.filter isExpression).mapM (showLine b a format) with
      | ok texts => rw [hTexts] at hText; cases hText
      | error e => rw [hTexts] at hText; exact congrArg Except.error (Except.error.inj hText)
    obtain ⟨before, line, after, hSplit, hFirst, hFails⟩ := mapM_eq_error hTexts
    obtain ⟨tree, hTree⟩ := hRead line (hSplit ▸ List.mem_append_right _ List.mem_cons_self)
    cases hWrite : format.writeWithin (b.height format) tree with
    | ok shown => rw [showLine_of_tree hTree, hWrite] at hFails; cases hFails
    | error fault =>
      rw [showLine_of_tree hTree, hWrite] at hFails
      obtain rfl : .rendering fault = failure := Except.error.inj hFails
      exact .rendering hSplit hRead hFirst hTree
        ((format.renderWithin_singleton (b.height format) tree).trans hWrite)

-- ---------------------------------------------------------------------------
-- Runs
-- ---------------------------------------------------------------------------

/-- Reading the aliases prints nothing and changes no file. -/
theorem readAliases_run (files : Files) (request : Request) :
    ∃ result, (readAliases Files.disk request).run files = (result, files) ∧
      ∀ a loaded, result = .ok (a, loaded) → loaded.printed = [] := by
  unfold readAliases
  cases given request.config with
  | none =>
    refine ⟨_, rfl, ?_⟩
    rintro a loaded h
    cases h
    rfl
  | some path =>
    refine ⟨_, rfl, ?_⟩
    rintro a loaded h
    obtain ⟨⟨b, remark⟩, -, hLoaded⟩ := bind_eq_ok.mp (mapError_eq_ok.mp h)
    cases hLoaded
    rfl

/-- A run in which nothing but the lines can fail: its source is a text file whose name ends as it
should, it has a format, its aliases can be loaded, and the file that it is to write, if there is one,
can be written. -/
structure Prepared (files : Files) (request : Request) (format : Format) (text : String)
    (a : Aliases) : Prop where
  byFile : request.isText = false
  named : fileSuffix.toList.isSuffixOf request.source.toList = true
  source : (files.read request.source).bind Disk.textOf = .ok text
  format_eq : request.format = some format
  loads : ∃ loaded, ((readAliases Files.disk request).run files).1 = .ok (a, loaded)
  writable : ∀ path, given request.out = some path →
    ∀ octets, ∃ after, files.write path octets = .ok after

/-- A text between banners that name its format. -/
def banner (format : Format) (text : String) : List String :=
  let rule := "===================="
  [rule, "Parse trees (" ++ format.name ++ ")", rule, text, rule, ""]

/-- What is printed for a text: the text alone, or nothing when it is written to a file; or a banner,
and where the text was written. -/
def printedFor (format : Format) (pretty : Bool) (out : Option String) (text : String) : List String :=
  match pretty, out with
  | false, none => [text]
  | false, some _ => []
  | true, none => banner format text
  | true, some path => banner format text ++ ["(wrote to " ++ path ++ ")"]

/-- A run delivers a text: it is printed, and written to the file that is asked for, as the request
says, and no other file is changed. -/
structure Delivers (files : Files) (request : Request) (format : Format) (text : String)
    (result : (Output × Except Failure Unit) × Files) : Prop where
  succeeds : result.1.2 = .ok ()
  printed : result.1.1.printed = printedFor format request.pretty (given request.out) text
  files_eq : match given request.out with
    | some path => files.write path (Utf8.encode (text ++ "\n")) = .ok result.2
    | none => result.2 = files

/-- A run delivers nothing: nothing is printed, and all files are as they were. -/
structure Withholds (files : Files) (failure : Failure)
    (result : (Output × Except Failure Unit) × Files) : Prop where
  fails : result.1.2 = .error failure
  printed : result.1.1.printed = []
  files_eq : result.2 = files

/-- What is said before a text is written, and after that, is what is printed for it. -/
theorem printed_deliver (hFormat : request.format = some format) (written : String) :
    (announce request written).printed ++
        (given request.out).elim [] (fun path => (confirm request path).printed) =
      printedFor format request.pretty (given request.out) written := by
  unfold announce confirm printedFor
  rw [hFormat]
  cases request.pretty <;> cases given request.out <;> rfl

/-- The text that a run hands over is delivered, when the file for it can be written. -/
theorem deliver_run (h : Prepared files request format text a) (written : String) :
    Delivers files request format written ((deliver Files.disk request written).run files) := by
  have hPrinted := printed_deliver h.format_eq written
  unfold deliver
  cases hOut : given request.out with
  | none =>
    rw [hOut] at hPrinted
    refine ⟨rfl, ?_, ?_⟩
    · rw [hOut, ← hPrinted]
      exact (List.append_nil _).symm
    · rw [hOut]
      rfl
  | some path =>
    obtain ⟨after, hWrite⟩ := h.writable path hOut (Utf8.encode (written ++ "\n"))
    have hRun : (Files.disk.writeText path (written ++ "\n")).run files = (.ok (), after) := by
      show Files.updated (·.write path _) files = _
      rw [Files.updated, hWrite]
    rw [hOut] at hPrinted
    dsimp only
    rw [StateT.run_bind, hRun]
    refine ⟨rfl, ?_, ?_⟩
    · rw [hOut, ← hPrinted]
      rfl
    · rw [hOut]
      exact hWrite

/-- What a run makes of its source and its aliases. -/
theorem run_eq {loaded : Output}
    (hSource : (readSource Files.disk request).run files = (.ok text, files))
    (hAliases : (readAliases Files.disk request).run files = (.ok (a, loaded), files)) :
    (run Files.disk request).run files =
      match writeLines request.bounds a request.format (linesOf request.isText text) with
      | (remarks, .error failure) => ((loaded ++ .ofRemarks remarks, .error failure), files)
      | (remarks, .ok written) =>
        let ((output, outcome), after) := (deliver Files.disk request written).run files
        ((loaded ++ .ofRemarks remarks ++ output, outcome), after) := by
  have hRead (f) : ((readSource Files.disk request >>= f : StateM Files _).run files :
      (Output × Except Failure Unit) × Files) = (f (.ok text)).run files := by
    rw [StateT.run_bind, hSource]
    rfl
  have hLoad (f) : ((readAliases Files.disk request >>= f : StateM Files _).run files :
      (Output × Except Failure Unit) × Files) = (f (.ok (a, loaded))).run files := by
    rw [StateT.run_bind, hAliases]
    rfl
  unfold run
  rw [hRead]
  dsimp only
  rw [hLoad]
  dsimp only
  cases writeLines request.bounds a request.format (linesOf request.isText text) with
  | mk remarks result => cases result <;> rfl

/-- **A run delivers the text of its lines**, or nothing when they have none. -/
theorem run_prepared (h : Prepared files request format text a) :
    match (writeLines request.bounds a (some format) (Text.splitLines text)).2 with
    | .ok written => Delivers files request format written ((run Files.disk request).run files)
    | .error failure => Withholds files failure ((run Files.disk request).run files) := by
  obtain ⟨result, hAliases, hPrinted⟩ := readAliases_run files request
  obtain ⟨loaded, hLoads⟩ := h.loads
  rw [hAliases] at hLoads
  obtain rfl : result = .ok (a, loaded) := hLoads
  have hQuiet (remarks : List Remark) : (loaded ++ .ofRemarks remarks).printed = [] := by
    show loaded.printed ++ [] = []
    rw [hPrinted a loaded rfl, List.append_nil]
  have hSource : (readSource Files.disk request).run files = (.ok text, files) := by
    unfold readSource
    rw [h.byFile, if_neg Bool.false_ne_true, if_pos h.named]
    show (((files.read request.source).bind Disk.textOf).mapError Failure.file, files) = _
    rw [h.source]
    rfl
  rw [run_eq hSource hAliases, h.byFile, h.format_eq, linesOf, if_neg Bool.false_ne_true]
  cases writeLines request.bounds a (some format) (Text.splitLines text) with
  | mk remarks result =>
    cases result with
    | error failure => exact ⟨rfl, hQuiet remarks, rfl⟩
    | ok written =>
      have hDelivered := deliver_run h written
      refine ⟨hDelivered.succeeds, ?_, hDelivered.files_eq⟩
      show (loaded ++ .ofRemarks remarks).printed ++ _ = _
      rw [hQuiet]
      exact hDelivered.printed

/-- **A run is all or nothing.** A run over a file, in which nothing but the lines can fail, succeeds if
and only if each line that is neither blank nor a comment is shown on its own. It delivers then what
they come to, line by line. Otherwise it fails as the first line that is no expression does, or as the
first tree does that cannot be written; and then it has printed nothing and changed no file. -/
theorem run_all_or_nothing (h : Prepared files request format text a) :
    let lines := (Text.splitLines text).filter isExpression
    let result := (run Files.disk request).run files
    (result.1.2 = .ok () ↔ ∀ line ∈ lines, ∃ shown, showLine request.bounds a format line = .ok shown) ∧
      (∀ texts,
        List.Forall₂ (fun line shown => showLine request.bounds a format line = .ok shown) lines texts →
        Delivers files request format ("\n".intercalate texts) result) ∧
      ∀ failure, result.1.2 = .error failure →
        Fails request.bounds a format lines failure ∧ Withholds files failure result := by
  intro lines result
  have hRun := run_prepared h
  have hDelivers (texts) (hTexts :
      List.Forall₂ (fun line shown => showLine request.bounds a format line = .ok shown) lines texts) :
      Delivers files request format ("\n".intercalate texts) result := by
    rw [writeLines_eq_ok.mpr ⟨texts, hTexts, rfl⟩] at hRun
    exact hRun
  refine ⟨⟨fun hOk => ?_, fun hAll => ?_⟩, hDelivers, fun failure hFailure => ?_⟩
  · cases hText : (writeLines request.bounds a (some format) (Text.splitLines text)).2 with
    | ok written =>
      obtain ⟨texts, hTexts, -⟩ := writeLines_eq_ok.mp hText
      exact exists_of_forall₂ hTexts
    | error failure =>
      rw [hText] at hRun
      cases hOk.symm.trans hRun.fails
  · obtain ⟨texts, hTexts⟩ := exists_forall₂ hAll
    exact (hDelivers texts hTexts).succeeds
  · cases hText : (writeLines request.bounds a (some format) (Text.splitLines text)).2 with
    | ok written =>
      rw [hText] at hRun
      cases hFailure.symm.trans hRun.succeeds
    | error failure' =>
      rw [hText] at hRun
      obtain rfl : failure' = failure := Except.error.inj (hRun.fails.symm.trans hFailure)
      exact ⟨exists_fails hText, hRun⟩

/-- A run from one file of the working directory, to another one or to none, is prepared. -/
theorem prepared_in_work {octets : List UInt8} (hText : Disk.textOf octets = .ok text) (pretty : Bool)
    {out : Option String} (hOut : ∀ path ∈ out, path = "b") :
    Prepared ⟨["work"], [(["work"], .directory), (["work", "a.tally"], .file octets)]⟩
      { source := "a.tally", isText := false, format := some format, out, pretty, config := none }
      format text .canonical := by
  have hSource : Files.segmentsOf "a.tally" = .ok ["a.tally"] := by decide +kernel
  have hSegments : Files.segmentsOf "b" = .ok ["b"] := by decide +kernel
  have hNamed : fileSuffix.toList.isSuffixOf "a.tally".toList = true := by decide
  refine ⟨rfl, hNamed, ?_, rfl, ⟨.nothing, rfl⟩, ?_⟩
  · rw [Files.read, Files.locate, hSource]
    exact hText
  · intro path hPath written
    obtain rfl := hOut path (Option.filter_eq_some_iff.mp hPath).1
    generalize hFiles : Files.mk _ _ = files
    have hTarget : files.target "b" = .ok ⟨["work"], "b", false⟩ := by
      rw [Files.target, hSegments, ← hFiles]
      rfl
    refine ⟨files.put ["work", "b"] (.file written), ?_⟩
    rw [Files.write, hTarget, ok_bind]
    dsimp only
    subst hFiles
    have hVacant : ¬ (none : Option Entry) = some .directory := nofun
    rw [if_neg (by decide), if_neg (by decide +kernel)]
    exact if_neg hVacant

/-- A file with two expressions and a comment between them, written in tagged form to another file. -/
theorem factorial_and_name_all_or_nothing :
    let files : Files := ⟨["work"], [(["work"], .directory),
      (["work", "a.tally"], .file [0x78, 0x21, 0x0A, 0x23, 0x0A, 0x79])]⟩
    let request : Request :=
      { source := "a.tally", isText := false, format := some .tagged, out := some "b", pretty := true,
        config := none }
    let text := "x!\n#\ny"
    Prepared files request .tagged text .canonical ∧
      let lines := (Text.splitLines text).filter isExpression
      let result := (run Files.disk request).run files
      let showOne := showLine request.bounds .canonical .tagged
      (result.1.2 = .ok () ↔ ∀ line ∈ lines, ∃ shown, showOne line = .ok shown) ∧
        (∀ texts, List.Forall₂ (fun line shown => showOne line = .ok shown) lines texts →
          Delivers files request .tagged ("\n".intercalate texts) result) ∧
        ∀ failure, result.1.2 = .error failure →
          Fails request.bounds .canonical .tagged lines failure ∧ Withholds files failure result := by
  have hText : Disk.textOf [0x78, 0x21, 0x0A, 0x23, 0x0A, 0x79] = .ok "x!\n#\ny" := by decide +kernel
  intro files request text
  have hPrepared : Prepared files request .tagged text .canonical :=
    prepared_in_work hText true (by simp)
  exact ⟨hPrepared, run_all_or_nothing hPrepared⟩

end Batch

end Reckoner
