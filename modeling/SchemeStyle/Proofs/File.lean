import SchemeStyle.File.Tree
import SchemeStyle.Proofs.Lint
import SchemeStyle.Proofs.Text.LineEndings
import SchemeStyle.Proofs.Text.Lines
import SchemeStyle.Proofs.Text.Utf8
import SchemeStyle.Run

/-!
# Files and their texts

A text may be linted as such, or as the contents of a file. The two differ in how they come by the
lines, and in what becomes of a line whose nesting leaves its bounds: linting a text then fails, and
what was found on the lines before is lost, while the result of a file keeps it and ends in the
failure itself. Where the text of a file can be read, its result is what linting that text gives,
or, if that fails, what linting the lines before gives and what the failure says
(`lintFile_eq_lintText`).

The result depends on the text through its lines, so how those are ended makes no difference.
-/

namespace SchemeStyle

variable {style : Style} {files : FileView} {path text : String}

/-- The text of a file, its line endings turned into newlines. -/
def sourceText (text : String) : String :=
  String.ofList (normalizeNewlines text.toList)

/-- The lines of a file are those of its text. -/
theorem readLines_toUTF8 (text : String) :
    readLines text.toUTF8.data.toList =
      { lines := splitLines (sourceText text).toList } := by
  rw [readLines, readStream_toUTF8, sourceText, String.toList_ofList]

/-- A file whose text can be read is linted as the lines of that text are. -/
theorem lintFile_of_read (h : files.read path = .ok text.toUTF8.data.toList) (style : Style) :
    lintFile style files path =
      match (lintText style (sourceText text)).failure? with
      | some f =>
        { path := path
          diagnostics := (lintText style (sourceText text)).diagnostics path ++
            f.diagnostics path ++ [f.toDiagnostic path]
          stopped? := some f.error }
      | none =>
        { path := path, diagnostics := (lintText style (sourceText text)).diagnostics path } := by
  rw [lintFile, h]
  dsimp only
  rw [readLines_toUTF8, lintReading, lintText]
  cases (lintLines style {} (splitLines (sourceText text).toList)).failure? <;> rfl

/-- The result of a file depends on its text through the lines of that text. -/
theorem lintFile_congr {files' : FileView} {text' : String} {lines : List (List Char)}
    (h : files.read path = .ok text.toUTF8.data.toList)
    (h' : files'.read path = .ok text'.toUTF8.data.toList) (htext : HasLines lines text.toList)
    (htext' : HasLines lines text'.toList) :
    lintFile style files' path = lintFile style files path := by
  have hreport : lintText style (sourceText text') = lintText style (sourceText text) := by
    rw [lintText, lintText, sourceText, sourceText, String.toList_ofList, String.toList_ofList,
      hasLines_iff.1 htext, hasLines_iff.1 htext']
  rw [lintFile_of_read h, lintFile_of_read h', hreport]

/-- Where linting a text fails, linting the lines before does not, and finds as much. -/
theorem lintText_of_failure {f : Failure} (h : (lintText style text).failure? = some f) :
    let before := lintText style
      (String.ofList (joinLines ((splitLines text.toList).take (f.line - 1))))
    before.failure? = none ∧ (lintText style text).findings = before.findings := by
  obtain ⟨before, content, rest, hlines, hline, hends, hfindings, -⟩ := exists_append_of_failure h
  have htake : (splitLines text.toList).take (f.line - 1) = before := by
    rw [hline, hlines]
    exact List.take_left' (Nat.add_sub_cancel_left 1 before.length).symm
  have hsplit : splitLines (joinLines before) = before :=
    splitLines_joinLines fun line hl ↦
      newline_notMem_of_mem_splitLines (hlines ▸ List.mem_append_left (content :: rest) hl)
  dsimp only
  rw [htake, lintText, lintText, String.toList_ofList, hsplit]
  exact ⟨hends, hfindings⟩

/-- **A file is linted as its text is.** A file that can be read has the diagnostics of its text. If
linting the text fails, it has those of the lines before, those that were found on the failing line,
and the failure itself at the end. It fails exactly if it has a diagnostic, and has the same result
as any file of the same lines. -/
theorem lintFile_eq_lintText (h : files.read path = .ok text.toUTF8.data.toList) (style : Style) :
    let report := lintText style (sourceText text)
    let result := lintFile style files path
    result.error? = none ∧
      (report.failure? = none → result.diagnostics = report.diagnostics path) ∧
      (∀ f, report.failure? = some f →
        let before := lintText style
          (String.ofList (joinLines ((splitLines (sourceText text).toList).take (f.line - 1))))
        before.failure? = none ∧
          result.diagnostics = before.diagnostics path ++ f.diagnostics path ++
            [⟨path, f.line, f.index + 1, f.error.message⟩]) ∧
      (result.failed = true ↔ result.diagnostics ≠ []) ∧
      ∀ (files' : FileView) (text' : String) (lines : List (List Char)),
        files'.read path = .ok text'.toUTF8.data.toList →
        HasLines lines text.toList → HasLines lines text'.toList →
        lintFile style files' path = result := by
  have hresult := lintFile_of_read h style
  refine ⟨?_, fun hends ↦ ?_, fun f hfails ↦ ?_, ?_, fun files' text' lines h' htext htext' ↦
    lintFile_congr h h' htext htext'⟩
  · rw [hresult]
    split <;> rfl
  · rw [hresult, hends]
  · obtain ⟨hends, hfindings⟩ := lintText_of_failure hfails
    refine ⟨hends, ?_⟩
    rw [hresult, hfails, Report.diagnostics, hfindings]
    rfl
  · rw [hresult]
    split <;> simp [FileResult.failed]

/-- Two files of the same lines, of which the third closes a form too many: one mixes its line
endings and does not end its last line. -/
theorem lintFile_eq_lintText_endings :
    let text := "(a \r\n   b)\rx)\n(c"
    let text' := "(a \n   b)\nx)\n(c\n"
    let lines := ["(a ".toList, "   b)".toList, "x)".toList, "(c".toList]
    let files := (({} : FileTree).writeFile "f.ss" text.toUTF8.data.toList).view
    let files' := (({} : FileTree).writeFile "f.ss" text'.toUTF8.data.toList).view
    (files.read "f.ss" = .ok text.toUTF8.data.toList ∧
        files'.read "f.ss" = .ok text'.toUTF8.data.toList ∧ HasLines lines text.toList ∧
        HasLines lines text'.toList) ∧
      sourceText text = "(a \n   b)\nx)\n(c" ∧
      (lintText .standard "(a \n   b)\n").diagnostics "f.ss" =
        [⟨"f.ss", 1, 3, "trailing whitespace"⟩] ∧
      (lintFile .standard files "f.ss").diagnostics =
        [⟨"f.ss", 1, 3, "trailing whitespace"⟩, ⟨"f.ss", 3, 2, "unmatched ')'"⟩] ∧
      (lintFile .standard files "f.ss").error? = none ∧
      (lintFile .standard files "f.ss").failed = true ∧
      lintFile .standard files' "f.ss" = lintFile .standard files "f.ss" := by
  intro text text' lines files files'
  have hread : files.read "f.ss" = .ok text.toUTF8.data.toList := rfl
  have hread' : files'.read "f.ss" = .ok text'.toUTF8.data.toList := rfl
  have htext : HasLines lines text.toList := hasLines_iff.2 (by decide +kernel)
  have htext' : HasLines lines text'.toList := hasLines_iff.2 (by decide +kernel)
  have hfailure :
      (lintText .standard (sourceText text)).failure? = some ⟨3, 1, .unmatched, []⟩ := by
    decide +kernel
  obtain ⟨herror, -, hfails, hfailed, hsame⟩ := lintFile_eq_lintText hread .standard
  have hfound : (lintFile .standard files "f.ss").diagnostics =
      [⟨"f.ss", 1, 3, "trailing whitespace"⟩, ⟨"f.ss", 3, 2, "unmatched ')'"⟩] := by
    rw [(hfails _ hfailure).2]
    decide +kernel
  have hfailed : (lintFile .standard files "f.ss").failed = true := by
    refine hfailed.2 ?_
    rw [hfound]
    exact List.cons_ne_nil _ _
  have hsource : sourceText text = "(a \n   b)\nx)\n(c" := by decide +kernel
  have hbefore : (lintText .standard "(a \n   b)\n").diagnostics "f.ss" =
      [⟨"f.ss", 1, 3, "trailing whitespace"⟩] := by decide +kernel
  exact ⟨⟨hread, hread', htext, htext'⟩, hsource, hbefore, hfound, herror, hfailed,
    hsame files' text' lines hread' htext htext'⟩

end SchemeStyle
