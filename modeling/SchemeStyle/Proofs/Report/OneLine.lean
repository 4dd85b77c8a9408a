import SchemeStyle.File.Tree
import SchemeStyle.Proofs.Lint
import SchemeStyle.Proofs.Report.Rendering
import SchemeStyle.Proofs.Scan.Checks
import SchemeStyle.Run

/-!
# Messages of one line

Messages quote what is linted: delimiters, and the ids and names of imports, some of which come from
lines further up. A report meant for people is read line by line, so none of this may hold a
newline.

It does not, although the newline of a line is scanned as any other of its characters. What a scan
collects in a line is `Unbroken` as long as the newline is not reached (`Move.unbroken_advance`), at
the newline it is quoted or put into the state of the file without it (`unbroken_step`,
`Move.unbroken_imports`), and the next line starts to collect anew. So whatever lines there are, all
that is found on them is unbroken, and so is what is remembered of them (`unbroken_lintLine`).
-/

namespace SchemeStyle

variable {style : Style} {cur : Cursor} {c : Char} {st : State} {found : List Finding}

/-! ### What messages quote -/

/-- The text that the report of a violation quotes. -/
def Violation.quotation : Violation → List Char
  | expectedSpaceBefore c | unexpectedSpaceBefore c | wrapperCloser c => [c]
  | idOrder last current | nameOrder last current => last.toList ++ current.toList
  | _ => []

theorem newline_notMem_repr (n : Nat) : '\n' ∉ n.repr.toList :=
  newline_notMem_repr_int n

theorem newline_notMem_append {a b : String} (ha : '\n' ∉ a.toList) (hb : '\n' ∉ b.toList) :
    '\n' ∉ (a ++ b).toList := by
  rw [String.toList_append]
  exact List.not_mem_append ha hb

/-- A message is one line if what it quotes is. -/
theorem Violation.newline_notMem_message {violation : Violation}
    (h : '\n' ∉ violation.quotation) : '\n' ∉ violation.message.toList := by
  cases violation with
  | tooLong length limit =>
    show '\n' ∉ ("line too long: " ++ length.repr ++ " > " ++ limit.repr).toList
    refine newline_notMem_append (newline_notMem_append (newline_notMem_append ?_ ?_) ?_) ?_
    · decide
    · exact newline_notMem_repr length
    · decide
    · exact newline_notMem_repr limit
  | expectedSpaceBefore c | unexpectedSpaceBefore c | wrapperCloser c =>
    have hc : '\n' ∉ (String.singleton c).toList := by simpa [quotation] using h
    exact newline_notMem_append (newline_notMem_append (by decide) hc) (by decide)
  | idOrder last current | nameOrder last current =>
    obtain ⟨hlast, hcurrent⟩ := not_or.1 (List.mem_append.not.1 h)
    refine newline_notMem_append (newline_notMem_append ?_ (by decide)) hcurrent
    exact newline_notMem_append (by decide) hlast
  | _ => decide

theorem NestingError.newline_notMem_message (e : NestingError) : '\n' ∉ e.message.toList := by
  cases e with
  | tooDeep limit =>
    show '\n' ∉ ("nesting too deep: more than " ++ (limit - 1).repr ++ " open parens").toList
    refine newline_notMem_append (newline_notMem_append ?_ ?_) ?_
    · decide
    · exact newline_notMem_repr (limit - 1)
    · decide
  | unmatched => decide

/-- No report of the findings quotes a newline. -/
def Unbroken (found : List Finding) : Prop :=
  ∀ finding ∈ found, '\n' ∉ finding.violation.quotation

theorem unbroken_nil : Unbroken [] := List.forall_mem_nil _

theorem Unbroken.append {a b : List Finding} (ha : Unbroken a) (hb : Unbroken b) :
    Unbroken (a ++ b) :=
  List.forall_mem_append.2 ⟨ha, hb⟩

theorem unbroken_findingIf {violation : Violation} (h : '\n' ∉ violation.quotation)
    (condition : Bool) (index : Nat) : Unbroken (findingIf condition index violation) := by
  rintro finding hmem
  obtain ⟨-, rfl⟩ := mem_findingIf.1 hmem
  exact h

/-- The checks whose reports quote something. -/
def quotingChecks : List Check := [.neighbours, .wrappers, .ids, .names]

/-- What other checks find quotes nothing. -/
theorem FoundBy.unbroken {checks : List Check} (h : FoundBy checks found)
    (hchecks : ∀ check ∈ checks, check ∉ quotingChecks) : Unbroken found := by
  rintro finding hmem
  have hcheck := hchecks _ (h finding hmem)
  rcases finding with ⟨index, violation⟩
  cases violation with
  | expectedSpaceBefore | unexpectedSpaceBefore | wrapperCloser | idOrder | nameOrder =>
    exact absurd (by simp [quotingChecks, Violation.check]) hcheck
  | _ => exact List.not_mem_nil

/-! ### What is collected and remembered -/

/-- What the cursor collects holds no newline. -/
structure Cursor.Unbroken (cur : Cursor) : Prop where
  word : '\n' ∉ cur.word.chars
  operator : ∀ token, cur.mode = .operator token → '\n' ∉ token.chars

/-- What is remembered of imports holds no newline. -/
structure ImportContext.Unbroken (ctx : ImportContext) : Prop where
  id : '\n' ∉ ctx.lastId.toList
  name : '\n' ∉ ctx.lastName.toList

theorem Token.newline_notMem_text {token : Token} (h : '\n' ∉ token.chars) :
    '\n' ∉ token.text.toList := by
  simpa [text] using h

theorem Cursor.unbroken_start (inString : Bool) : (Cursor.start inString).Unbroken where
  word := List.not_mem_nil
  operator token htoken := by cases inString <;> cases htoken

namespace ImportContext

variable {ctx : ImportContext}

theorem unbroken_of_eq_empty (hid : ctx.lastId = "") (hname : ctx.lastName = "") :
    ctx.Unbroken where
  id := by simp [hid]
  name := by simp [hname]

namespace Unbroken

theorem enter (h : ctx.Unbroken) (depth : Nat) : (ctx.enter depth).Unbroken := by
  cases ctx with
  | outside | inSection => exact unbroken_of_eq_empty rfl rfl
  | inImports => exact ⟨h.id, List.not_mem_nil⟩
  | inDeclaration => exact h

theorem leave (h : ctx.Unbroken) (depth : Nat) : (ctx.leave depth).2.Unbroken := by
  rw [ImportContext.leave]
  split_ifs
  · cases ctx with
    | outside | inSection | inImports => exact unbroken_of_eq_empty rfl rfl
    | inDeclaration => exact ⟨h.id, List.not_mem_nil⟩
  · exact h

theorem setLastId (h : ctx.Unbroken) {id : String} (hid : '\n' ∉ id.toList) :
    (ctx.setLastId id).Unbroken := by
  cases ctx with
  | inImports | inDeclaration => exact ⟨hid, h.name⟩
  | _ => exact h

theorem setLastName (h : ctx.Unbroken) {name : String} (hname : '\n' ∉ name.toList) :
    (ctx.setLastName name).Unbroken := by
  cases ctx with
  | inDeclaration => exact ⟨h.id, hname⟩
  | _ => exact h

end Unbroken

end ImportContext

/-! ### One character -/

theorem unbroken_finishOperator {token : Token} (htoken : '\n' ∉ token.chars)
    (h : st.imports.Unbroken) (style : Style) (index : Nat) (followed : Bool) :
    Unbroken (finishOperator style token index followed st).1 ∧
      (finishOperator style token index followed st).2.imports.Unbroken := by
  have htext := Token.newline_notMem_text htoken
  rw [finishOperator_eq]
  dsimp only
  generalize st.imports = imports at h ⊢
  cases imports with
  | outside | inSection =>
    rw [ImportContext.operate]
    split_ifs
    · exact ⟨unbroken_nil, h.enter _⟩
    · exact ⟨unbroken_nil, h⟩
  | inImports =>
    refine ⟨unbroken_findingIf ?_ _ _, (h.enter _).setLastId htext⟩
    exact List.not_mem_append h.id htext
  | inDeclaration => exact ⟨unbroken_nil, h⟩

theorem unbroken_nameFindings (hcur : cur.Unbroken) (h : st.imports.Unbroken) :
    Unbroken (nameFindings cur st) := by
  rw [nameFindings]
  split
  · next himports =>
    have hlast := h.name
    rw [himports] at hlast
    refine unbroken_findingIf ?_ _ _
    exact List.not_mem_append hlast (Token.newline_notMem_text hcur.word)
  · exact unbroken_nil

theorem unbroken_openForm (hc : c = '(' ∨ c = '[') (style : Style) (cur : Cursor) (st : State) :
    Unbroken (openForm style cur c st).findings := by
  unfold openForm
  split
  · exact unbroken_nil
  · refine unbroken_findingIf ?_ _ _
    rcases hc with rfl | rfl <;> decide

theorem unbroken_closeForm (hcur : cur.Unbroken) (h : st.imports.Unbroken)
    (hc : c = ')' ∨ c = ']') : Unbroken (closeForm cur c st).findings := by
  have hwrapper : '\n' ∉ (Violation.wrapperCloser c).quotation := by
    rcases hc with rfl | rfl <;> decide
  have hspace : '\n' ∉ (Violation.unexpectedSpaceBefore c).quotation := by
    rcases hc with rfl | rfl <;> decide
  unfold closeForm
  split <;> exact ((unbroken_findingIf hwrapper _ _).append (unbroken_findingIf hspace _ _)).append
    (unbroken_nameFindings hcur h)

theorem unbroken_codeChar (hcur : cur.Unbroken) (h : st.imports.Unbroken) (style : Style)
    (c : Char) : Unbroken (codeChar style cur cur.mode.operator? c st).findings := by
  have hoperator {token : Token} (htoken : cur.mode.operator? = some token) (followed : Bool) :
      Unbroken (finishOperator style token cur.index followed st).1 := by
    refine (unbroken_finishOperator (hcur.operator token ?_) h style cur.index followed).1
    rcases hmode : cur.mode with - | - | token' | - <;> rw [hmode] at htoken <;> cases htoken
    rfl
  have hsemicolon : Unbroken
      (findingIf (cur.prev != some ' ') cur.index .expectedSpaceBeforeSemicolon) :=
    unbroken_findingIf List.not_mem_nil _ _
  unfold codeChar
  split_ifs with _ _ hopener hcloser
  · exact unbroken_nil
  · rcases htoken : cur.mode.operator? with - | token
    · exact hsemicolon
    · exact (hoperator htoken false).append hsemicolon
  · exact unbroken_openForm hopener style cur st
  · exact unbroken_closeForm hcur h hcloser
  · rcases htoken : cur.mode.operator? with - | token
    · exact unbroken_nameFindings hcur h
    · exact hoperator htoken (c == ' ')
  · rcases cur.mode.operator? with - | token <;> exact unbroken_nil

/-- **What a character is found for is unbroken** if what was collected before it is. -/
theorem unbroken_step (hcur : cur.Unbroken) (h : st.imports.Unbroken) (style : Style)
    (aligned : Bool) (c : Char) : Unbroken (step style aligned cur c st).findings := by
  have htab : Unbroken (findingIf (c == '\t') cur.index .tab) :=
    unbroken_findingIf List.not_mem_nil _ _
  by_cases hstring : cur.mode = .string
  · simp only [step, hstring, Step.after]
    split_ifs <;> exact htab.append unbroken_nil
  by_cases hspace : cur.mode = .indent ∧ c = ' '
  · simp only [step, hspace.1, if_pos hspace.2, Step.after]
    exact htab.append unbroken_nil
  rw [step_of_code hstring fun hmode hc ↦ hspace ⟨hmode, hc⟩]
  have hlead : Unbroken (leadFindings aligned cur c st) :=
    (foundBy_leadFindings aligned cur c st).unbroken (by cases aligned <;> decide)
  refine hlead.append (unbroken_codeChar hcur ?_ style c)
  rwa [imports_entered]

/-- What is remembered stays unbroken. -/
theorem Move.unbroken_imports {st' : State} {next : Next} (hcur : cur.Unbroken)
    (h : st.imports.Unbroken) (hmove : Move style cur c st st' next) : st'.imports.Unbroken := by
  cases hmove with
  | operatorComment token hmode =>
    exact (unbroken_finishOperator (hcur.operator token hmode) h style cur.index false).2
  | endOperator token hmode =>
    exact (unbroken_finishOperator (hcur.operator token hmode) h style cur.index (c == ' ')).2
  | close => exact h.leave _
  | endWord =>
    rw [rememberName_eq]
    dsimp only
    split_ifs
    · exact h
    · exact h.setLastName (Token.newline_notMem_text hcur.word)
  | _ => exact h

/-- What is collected stays unbroken up to the newline. -/
theorem Move.unbroken_advance {st' : State} {mode : Mode} (hcur : cur.Unbroken) (hc : c ≠ '\n')
    (hmove : Move style cur c st st' (.go mode)) : (cur.advance mode c).Unbroken where
  word := by
    rw [Cursor.advance]
    dsimp only
    split_ifs
    · simpa using Ne.symm hc
    · simpa [Token.push] using ⟨Ne.symm hc, hcur.word⟩
  operator token htoken := by
    have htoken : mode = .operator token := htoken
    subst htoken
    cases hmove with
    | «open» => exact List.not_mem_nil
    | operator token' hmode =>
      simpa [Token.push] using ⟨Ne.symm hc, hcur.operator token' hmode⟩

/-! ### Lines -/

/-- **What is found of a line is unbroken, and so is what it leaves**, up to its newline. -/
theorem unbroken_scan (hcur : cur.Unbroken) (h : st.imports.Unbroken) {text : List Char}
    (htext : '\n' ∉ text) (style : Style) (aligned : Bool) :
    let o := scan style aligned cur st (text ++ ['\n'])
    Unbroken o.findings ∧ o.state.imports.Unbroken := by
  -- The newline itself is scanned as the last character, so what it finds has to be unbroken too,
  -- and nothing is asked of what would be collected behind it.
  induction text generalizing cur st with
  | nil =>
    have hfound := unbroken_step hcur h style aligned '\n'
    have himports := (move_of_step style aligned cur '\n' st).unbroken_imports hcur (by simpa)
    rw [List.nil_append, scan]
    rcases (step style aligned cur '\n' st).next with mode | - | e
    · exact ⟨hfound.append unbroken_nil, himports⟩
    · exact ⟨hfound.append unbroken_nil, himports⟩
    · exact ⟨hfound, himports⟩
  | cons c text ih =>
    obtain ⟨hc, htext⟩ := not_or.1 (List.mem_cons.not.1 htext)
    have hfound := unbroken_step hcur h style aligned c
    have hmove := move_of_step style aligned cur c st
    have himports := hmove.unbroken_imports hcur (by simpa)
    rw [List.cons_append, scan]
    rcases hnext : (step style aligned cur c st).next with mode | - | e
    · rw [hnext] at hmove
      obtain ⟨hrest, hlast⟩ := ih (hmove.unbroken_advance hcur (Ne.symm hc)) himports htext
      exact ⟨hfound.append hrest, hlast⟩
    · have hcomment : Unbroken (commentFindings (cur.index + 1) (text ++ ['\n'])) :=
        (foundBy_commentFindings _ _).unbroken (by decide)
      exact ⟨hfound.append hcomment, himports⟩
    · exact ⟨hfound, himports⟩

theorem unbroken_lintLine (h : st.imports.Unbroken) {content : List Char}
    (hcontent : '\n' ∉ content) (style : Style) :
    let o := lintLine style st content
    Unbroken o.findings ∧ o.state.imports.Unbroken := by
  rw [lintLine]
  split_ifs
  · exact ⟨unbroken_findingIf List.not_mem_nil _ _, h⟩
  have hextent : Unbroken (extentFindings style content) :=
    (foundBy_extentFindings style content).unbroken (by decide)
  rw [lintTextLine]
  split_ifs
  · have htabs : Unbroken (tabFindings 0 content) :=
      (foundBy_tabFindings 0 content).unbroken (by decide)
    have hcomment : Unbroken (commentLineFindings st.line content) :=
      (foundBy_commentLineFindings st.line content).unbroken (by decide)
    exact ⟨hextent.append (htabs.append hcomment), h⟩
  · have hst : ({ st with blanks := 0 } : State).imports.Unbroken := h
    have hscan :=
      unbroken_scan (Cursor.unbroken_start st.inString) hst hcontent style (style.aligns content)
    exact ⟨hextent.append hscan.1, hscan.2⟩

theorem unbroken_lintLines (h : st.imports.Unbroken) {lines : List (List Char)}
    (hlines : ∀ line ∈ lines, '\n' ∉ line) (style : Style) :
    let report := lintLines style st lines
    Unbroken (report.findings.map Prod.snd) ∧
      ∀ f, report.failure? = some f → Unbroken f.findings := by
  induction lines generalizing st with
  | nil =>
    refine ⟨unbroken_nil, fun f hf ↦ ?_⟩
    cases hf
  | cons content rest ih =>
    obtain ⟨hcontent, hrest⟩ := List.forall_mem_cons.1 hlines
    obtain ⟨hfound, himports⟩ := unbroken_lintLine h hcontent style
    rcases herror : (lintLine style st content).error? with - | ⟨index, e⟩
    · obtain ⟨hfindings, hfailure⟩ := ih himports hrest
      rw [lintLines_cons_of_ok herror]
      refine ⟨?_, hfailure⟩
      rw [List.map_append, List.map_map]
      refine Unbroken.append ?_ hfindings
      have hid : Prod.snd ∘ (fun finding : Finding ↦ (st.line, finding)) = id := rfl
      rwa [hid, List.map_id]
    · rw [lintLines_cons_of_error herror]
      refine ⟨unbroken_nil, fun f hf ↦ ?_⟩
      cases hf
      exact hfound

/-! ### Files -/

theorem newline_notMem_of_mem_completeLines {cs line : List Char} (h : line ∈ completeLines cs) :
    '\n' ∉ line := by
  rw [completeLines] at h
  split_ifs at h
  · exact newline_notMem_of_mem_splitLines h
  · exact newline_notMem_of_mem_splitLines ((List.dropLast_sublist _).subset h)

/-- What is read from a file is read in lines. -/
theorem newline_notMem_of_mem_readLines {bytes : List UInt8} {line : List Char}
    (h : line ∈ (readLines bytes).lines) : '\n' ∉ line := by
  rw [readLines] at h
  split at h
  · exact newline_notMem_of_mem_splitLines h
  · exact newline_notMem_of_mem_completeLines h

/-- A diagnostic of a file whose message is one line. -/
structure Diagnostic.IsOneLine (file : String) (d : Diagnostic) : Prop where
  file : d.file = file
  message : '\n' ∉ d.message.toList

theorem isOneLine_of_mem_lintReading {path : String} {reading : Reading}
    (hlines : ∀ line ∈ reading.lines, '\n' ∉ line) (style : Style) :
    ∀ d ∈ (lintReading style path reading).diagnostics, d.IsOneLine path := by
  have hstart : ({} : State).imports.Unbroken := ImportContext.unbroken_of_eq_empty rfl rfl
  obtain ⟨hfindings, hfailure⟩ := unbroken_lintLines hstart hlines style
  have hreport : ∀ d ∈ (lintLines style {} reading.lines).diagnostics path, d.IsOneLine path := by
    rintro d hd
    obtain ⟨⟨line, finding⟩, hmem, rfl⟩ := List.mem_map.1 hd
    exact ⟨rfl, Violation.newline_notMem_message
      (hfindings finding (List.mem_map.2 ⟨_, hmem, rfl⟩))⟩
  rw [lintReading]
  split
  · next f hf =>
    refine List.forall_mem_append.2 ⟨List.forall_mem_append.2 ⟨hreport, ?_⟩, ?_⟩
    · rintro d hd
      obtain ⟨finding, hmem, rfl⟩ := List.mem_map.1 hd
      exact ⟨rfl, Violation.newline_notMem_message (hfailure f hf finding hmem)⟩
    · exact List.forall_mem_singleton.2 ⟨rfl, f.error.newline_notMem_message⟩
  · exact hreport

/-- **All that is reported of a file has one line for its message**, whatever is in the file. -/
theorem isOneLine_of_mem_lintFile (style : Style) (files : FileView) (path : String) :
    ∀ d ∈ (lintFile style files path).diagnostics, d.IsOneLine path := by
  rw [lintFile]
  split
  · exact List.forall_mem_nil _
  · exact isOneLine_of_mem_lintReading (fun line ↦ newline_notMem_of_mem_readLines) style

/-- **A report about a file has one line for each diagnostic, which can be read back.** If there is
no newline in the name of the file, the lines of the report are those of the diagnostics in their
order, none if there are none, and who knows the file reads each of them as its diagnostic. -/
theorem read_renderLines {path : String} (hpath : '\n' ∉ path.toList) (style : Style)
    (files : FileView) :
    let ds := (lintFile style files path).diagnostics
    (∀ d ∈ ds, '\n' ∉ d.message.toList) ∧
      outputLines (renderLines ds) = ds.map Diagnostic.toLine ∧
      (outputLines (renderLines ds)).map (Diagnostic.ofLine? path) = ds.map some := by
  intro ds
  have hds := isOneLine_of_mem_lintFile style files path
  have hlines : outputLines (renderLines ds) = ds.map Diagnostic.toLine := by
    refine outputLines_intercalate ?_ ?_ <;> intro line hline <;>
      obtain ⟨d, hd, rfl⟩ := List.mem_map.1 hline
    · exact d.toLine_ne_empty
    · refine d.newline_notMem_toLine ?_ (hds d hd).message
      rwa [(hds d hd).file]
  refine ⟨fun d hd ↦ (hds d hd).message, hlines, ?_⟩
  rw [hlines, List.map_map]
  refine List.map_congr_left fun d hd ↦ ?_
  show Diagnostic.ofLine? path d.toLine = some d
  rw [← (hds d hd).file, Diagnostic.ofLine?_toLine]

/-- A file with colons in its name and an id that is quoted from the line before. -/
theorem read_renderLines_quoted :
    let path := "b:1:2.ss"
    let text := "(Section\n  (use (:1.2 cube)\n       (:1.1 sum))))\n"
    let files := (({} : FileTree).writeFile path text.toUTF8.data.toList).view
    let ds := (lintFile .standard files path).diagnostics
    '\n' ∉ path.toList ∧
      renderLines ds = "b:1:2.ss:3:9: incorrect import id ordering: :1.2 > :1.1\n" ++
        "b:1:2.ss:3:20: unmatched ')'" ∧
      (outputLines (renderLines ds)).map (Diagnostic.ofLine? path) =
        [some ⟨path, 3, 9, "incorrect import id ordering: :1.2 > :1.1"⟩,
          some ⟨path, 3, 20, "unmatched ')'"⟩] := by
  intro path text files ds
  have hpath : '\n' ∉ path.toList := by decide
  have hds : ds = [⟨path, 3, 9, "incorrect import id ordering: :1.2 > :1.1"⟩,
      ⟨path, 3, 20, "unmatched ')'"⟩] := by
    decide +kernel
  refine ⟨hpath, by rw [hds]; decide +kernel, ?_⟩
  rw [(read_renderLines hpath .standard files).2.2]
  exact congrArg (List.map some) hds

end SchemeStyle
