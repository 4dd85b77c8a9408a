import SchemeStyle.Proofs.Imports.Reading
import SchemeStyle.Proofs.Nesting.Agreement

/-!
# The scan and the reading of the imports

The scan of a line follows the reading of it (`Follows`), and the lines in a row are read from
newline to newline (`StartsImports`). So a text that is linted to its end is reported for its ids
where the reading of it meets an id that is out of order, and nowhere else (`idReports_lintText`).
-/

namespace SchemeStyle

open Imports (Position)

/-- What the scan of a line knows of an operator after a character. -/
def Next.operator? : Next → Option Token
  | .go mode => mode.operator?
  | _ => none

/-- The reading knows the import forms of the state, and the operator being read. -/
structure KnowsImports (r : ImportReading) (operator? : Option Token) (st : State) : Prop where
  imports : r.imports = st.imports.setLastName ""
  operator? : r.operator? = operator?

section

variable {style : Style} {file : String} {aligned : Bool} {r : ImportReading} {cur : Cursor}
  {c : Char} {st st' : State} {next : Next} {mode : Mode} {body : List Char}

theorem KnowsImports.finish {token : Token} (h : KnowsImports r (some token) st)
    (hdepth : r.nesting.depth = st.depth) (index : Nat) (followed : Bool) :
    KnowsImports (r.finish style) none (finishOperator style token index followed st).2 := by
  refine ⟨?_, rfl⟩
  rw [finishOperator_eq]
  dsimp only
  rw [ImportContext.setLastName_operate, ← h.imports]
  show r.operator?.elim _ _ = _
  rw [h.operator?, hdepth]
  rfl

/-- Where no operator is being read none ends. -/
theorem KnowsImports.finish_none (h : KnowsImports r none st) :
    KnowsImports (r.finish style) none st := by
  refine ⟨?_, rfl⟩
  show r.operator?.elim _ _ = _
  rw [h.operator?]
  exact h.imports

/-- A character that means nothing goes on with the operator. -/
theorem KnowsImports.push {operator? : Option Token} (h : KnowsImports r operator? st)
    (hc : IsPlain c) : KnowsImports (r.code style c) (operator?.map (Token.push · c)) st := by
  rw [ImportReading.code_of_plain hc]
  exact ⟨h.imports, congrArg (Option.map (Token.push · c)) h.operator?⟩

/-- **A character of code does the same to what is read of the imports as to the imports.** -/
theorem KnowsImports.code (h : KnowsImports r cur.mode.operator? st)
    (hdepth : r.nesting.depth = st.depth) (hcolumn : r.position.column = cur.index)
    (hmode : cur.mode ≠ .string) (hstop : ∀ e, next ≠ .stop e)
    (hmove : Move style cur c st st' next) : KnowsImports (r.code style c) next.operator? st' := by
  cases hmove with
  | indent mode space =>
    rw [mode] at h
    rw [space]
    exact h.finish_none
  | string mode | closeString mode => exact absurd mode hmode
  | openString _ quote =>
    rw [quote]
    exact ⟨h.imports, rfl⟩
  | comment mode _ semicolon =>
    rw [mode] at h
    rw [semicolon]
    exact h.finish_none
  | operatorComment token mode semicolon =>
    rw [mode] at h
    rw [semicolon]
    exact h.finish hdepth cur.index false
  | tooDeep | unmatched => exact absurd rfl (hstop _)
  | «open» _ opener =>
    rw [ImportReading.code_of_opener opener, hcolumn]
    exact ⟨h.imports, rfl⟩
  | close _ closer =>
    rw [ImportReading.code_of_closer closer]
    refine ⟨?_, rfl⟩
    show (r.imports.leave r.nesting.depth.toNat).2 = _
    rw [ImportContext.setLastName_leave, h.imports, hdepth]
    rfl
  | endOperator token mode blank =>
    rw [mode] at h
    rw [ImportReading.code_of_ends (endsOperator_iff.2 (.inr blank))]
    exact h.finish hdepth cur.index (c == ' ')
  | endWord mode _ blank =>
    rw [mode] at h
    rw [ImportReading.code_of_ends (endsOperator_iff.2 (.inr blank))]
    refine ⟨h.finish_none.imports.trans ?_, rfl⟩
    rw [rememberName_eq]
    dsimp only
    split_ifs
    · rfl
    · exact (ImportContext.setLastName_setLastName _ _ _).symm
  | operator token mode plain =>
    rw [mode] at h
    exact h.push plain
  | code mode _ plain =>
    rw [mode] at h
    exact h.push plain

/-- The reading stands where the scan of a line does. -/
structure Follows (r : ImportReading) (cur : Cursor) (st : State) : Prop where
  tracks : Tracks r.nesting cur st
  position : r.position = ⟨st.line, cur.index⟩
  knows : KnowsImports r cur.mode.operator? st

/-- The reading stands at the start of a line. -/
structure StartsImports (r : ImportReading) (st : State) : Prop where
  nesting : StartsLine r.nesting st
  position : r.position = ⟨st.line, 0⟩
  knows : KnowsImports r none st

namespace Follows

theorem entered (h : Follows r cur st) : Follows r cur (entered aligned cur c st) := by
  have hline : (SchemeStyle.entered aligned cur c st).line = st.line :=
    congrArg Prod.fst (tally_entered aligned cur c st)
  refine ⟨h.tracks.entered, by rw [hline, h.position], ?_, h.knows.operator?⟩
  rw [imports_entered, h.knows.imports]

/-- A character does the same to what is read of the imports as to the imports, if it is read as
code or in a string. -/
theorem knows_step (h : Follows r cur st) (hstop : ∀ e, next ≠ .stop e)
    (hmove : Move style cur c st st' next) :
    KnowsImports (r.step style c) next.operator? st' := by
  by_cases hmode : cur.mode = .string
  · have hregion : r.nesting.region ≠ .code := by
      rw [h.tracks.region_string hmode]
      simp
    have hstep : KnowsImports (r.step style c) none st := by
      rw [ImportReading.step, if_neg hregion]
      refine ⟨h.knows.imports, h.knows.operator?.trans ?_⟩
      rw [hmode]
      rfl
    cases hmove with
    | string => exact hstep
    | closeString => exact ⟨hstep.imports, hstep.operator?⟩
    | indent mode | operatorComment _ mode | endOperator _ mode | operator _ mode =>
      rw [hmode] at mode
      cases mode
    | openString mode | comment _ mode | tooDeep mode | «open» mode | unmatched mode | close mode
      | endWord _ mode | code _ mode => exact absurd hmode mode
  · have hcode := h.knows.code h.tracks.depth (by rw [h.position]) hmode hstop hmove
    rw [ImportReading.step, if_pos (h.tracks.region_code hmode)]
    exact ⟨hcode.imports, hcode.operator?⟩

/-- A character on the line leads on. -/
theorem step (h : Follows r cur st) (hin : r.nesting.InBounds style.maxDepth) (hc : c ≠ '\n')
    (hmove : Move style cur c st st' (.go mode)) :
    Follows (r.step style c) (cur.advance mode c) st' := by
  have hline : st'.line = st.line := congrArg Prod.fst hmove.tally_eq
  refine ⟨(h.tracks.go hin hmove).1, ?_, h.knows_step (by simp) hmove⟩
  show r.position.after [c] = _
  rw [h.position, hline]
  simp [Position.after, columnAfter_cons, hc, Cursor.advance]

/-- The newline at the end of the line leads to the next one. -/
theorem newline (h : Follows r cur st) (hin : r.nesting.InBounds style.maxDepth)
    (hmove : Move style cur '\n' st st' (.go mode)) :
    StartsImports (r.step style '\n') { st' with line := st'.line + 1 } := by
  have hline : st'.line = st.line := congrArg Prod.fst hmove.tally_eq
  have hknows := h.knows_step (by simp) hmove
  have hoperator : mode.operator? = none := by
    generalize hc : '\n' = c at hmove
    cases hmove with
    | «open» _ opener => rcases opener with rfl | rfl <;> cases hc
    | operator _ _ plain => exact absurd hc.symm (ne_newline_of_plain plain)
    | _ => rfl
  refine ⟨(h.tracks.go hin hmove).1.startsLine.congr rfl rfl, ?_, hknows.imports,
    hknows.operator?.trans hoperator⟩
  show r.position.after ['\n'] = _
  rw [h.position, hline]
  rfl

/-- **What is found about ids at a character of the line is what the reading finds there.** -/
theorem idReports_step (h : Follows r cur st) (style : Style) (aligned : Bool) (c : Char)
    (file : String) :
    idReports file st.line (SchemeStyle.step style aligned cur c st).findings =
      r.found file c := by
  have htab : idReports file st.line (findingIf (c == '\t') cur.index .tab) = [] :=
    idReports_of_importReports (importReports_findingIf rfl)
  by_cases hstring : cur.mode = .string
  · have hregion : r.nesting.region ≠ .code := by
      rw [h.tracks.region_string hstring]
      simp
    rw [ImportReading.found, if_neg fun hr ↦ hregion hr.1]
    simp only [SchemeStyle.step, hstring]
    split_ifs <;> simp [Step.after, htab]
  by_cases hspace : cur.mode = .indent ∧ c = ' '
  · have hnone : r.operator? = none := by
      rw [h.knows.operator?, hspace.1]
      rfl
    rw [ImportReading.found, hnone]
    simp only [SchemeStyle.step, hspace.1, if_pos hspace.2]
    simp [Step.after, htab]
  · rw [step_of_code hstring fun hindent hc ↦ hspace ⟨hindent, hc⟩, Step.after, idReports_append,
      idReports_of_importReports (importReports_leadFindings ..), idReports_codeChar,
      imports_entered, ImportReading.found, h.tracks.region_code hstring, h.knows.operator?,
      h.knows.imports, h.position, List.nil_append]
    simp only [true_and]
    rcases cur.mode.operator? with - | token
    · rfl
    · simp only [Option.elim_some, ImportContext.disorder_setLastName]

end Follows

/-! ### One line -/

/-- **The scan of a line is the reading of it**, as far as ids go. -/
theorem Follows.scan (h : Follows r cur st) (hin : r.nesting.InBounds style.maxDepth)
    (hbody : '\n' ∉ body)
    (hends : (scan style aligned cur st (body ++ ['\n'])).error? = none) (file : String) :
    let o := SchemeStyle.scan style aligned cur st (body ++ ['\n'])
    StartsImports (r.run style (body ++ ['\n'])) { o.state with line := o.state.line + 1 } ∧
      idReports file st.line o.findings = r.reports style file (body ++ ['\n']) := by
  induction body generalizing r cur st with
  | nil =>
    have hmove := move_of_step style aligned cur '\n' st
    have hfound := h.idReports_step style aligned '\n' file
    rw [List.nil_append, SchemeStyle.scan] at hends ⊢
    rcases hnext : (SchemeStyle.step style aligned cur '\n' st).next with mode | - | e <;>
      rw [hnext] at hmove hends
    · refine ⟨h.entered.newline hin hmove, ?_⟩
      rw [ImportReading.reports_cons, ← hfound]
      exact idReports_append _ []
    · exact absurd hmove.eq_semicolon (by decide)
    · cases hends
  | cons c body ih =>
    obtain ⟨hc, hbody⟩ := not_or.1 (fun hm ↦ hbody (List.mem_cons.2 hm))
    have hmove := move_of_step style aligned cur c st
    have hfound := h.idReports_step style aligned c file
    rw [List.cons_append, SchemeStyle.scan] at hends ⊢
    rw [ImportReading.run_cons, ImportReading.reports_cons, ← hfound]
    rcases hnext : (SchemeStyle.step style aligned cur c st).next with mode | - | e <;>
      rw [hnext] at hmove hends
    · have hline : (SchemeStyle.step style aligned cur c st).state.line = st.line :=
        congrArg Prod.fst (tally_step style aligned cur c st)
      obtain ⟨hstarts, hreports⟩ := ih (h.entered.step hin (Ne.symm hc) hmove)
        (h.entered.tracks.go hin hmove).2 hbody hends
      rw [hline] at hreports
      exact ⟨hstarts, by rw [← hreports]; exact idReports_append _ _⟩
    · -- The rest of the line is a comment.
      obtain ⟨hstep, hdepth, hstring⟩ := h.entered.tracks.comment hmove
      have hknows := h.entered.knows_step (by simp) hmove
      have hregion : (r.step style c).nesting.region = .comment := congrArg Nesting.region hstep
      obtain ⟨hrun, hreports⟩ := ImportReading.run_commentBody hregion hbody style file
      rw [hrun, hreports]
      have hline : (SchemeStyle.step style aligned cur c st).state.line = st.line :=
        congrArg Prod.fst (tally_step style aligned cur c st)
      refine ⟨⟨⟨?_, ?_⟩, ?_, hknows.imports, hknows.operator?⟩, ?_⟩
      · show (r.nesting.step c).depth = _
        rw [hstep]
        exact h.entered.tracks.depth.trans (congrArg Int.ofNat hdepth.symm)
      · show Region.code = _
        rw [hstring]
        rfl
      · rw [Position.after_line hbody, hline]
        show Position.mk (r.position.line + [c].count '\n' + 1) 0 = _
        rw [h.position, List.count_eq_zero_of_not_mem (by simpa using hc)]
      · rw [idReports_append, idReports_of_importReports (importReports_commentFindings _ _)]
    · cases hends

namespace StartsImports

variable {content : List Char} {lines : List (List Char)}

/-- What is counted from line to line has no part in it, save for the lines. -/
theorem recount (h : StartsImports r st) (blanks : Nat) (flagged : Bool) :
    StartsImports r { st with blanks := blanks, flagged := flagged } :=
  ⟨h.nesting.congr rfl rfl, h.position, h.knows.imports, h.knows.operator?⟩

theorem region (h : StartsImports r st) :
    r.nesting.region = .code ∨ r.nesting.region = .string false := by
  rw [h.nesting.region]
  split_ifs
  · exact .inr rfl
  · exact .inl rfl

theorem follows (h : StartsImports r st) : Follows r (.start st.inString) st := by
  refine ⟨h.nesting.tracks, h.position, h.knows.imports, h.knows.operator?.trans ?_⟩
  cases st.inString <;> rfl

/-- A blank line means nothing. -/
theorem lintBlankLine (h : StartsImports r st) (hblank : isBlankLine content = true)
    (hcontent : '\n' ∉ content) (style : Style) (file : String) :
    StartsImports (r.run style (content ++ ['\n'])) { st with line := st.line + 1 } ∧
      r.reports style file (content ++ ['\n']) = [] := by
  have hblanks : ∀ c ∈ content ++ ['\n'], c = ' ' ∨ c = '\n' := by
    rw [List.forall_mem_append]
    exact ⟨fun c hc ↦ .inl (by simpa using List.all_eq_true.1 hblank c hc), by simp⟩
  obtain ⟨hrun, hreports⟩ :=
    ImportReading.run_of_blank hblanks h.knows.operator? h.region style file
  rw [hrun, Position.after_line hcontent, h.position]
  exact ⟨⟨h.nesting.congr rfl rfl, rfl, h.knows.imports, h.knows.operator?⟩, hreports⟩

/-- A line that starts with a semicolon in code is a comment. -/
theorem commentLine {rest : List Char} (h : StartsImports r st) (hstring : st.inString = false)
    (hrest : '\n' ∉ rest) (style : Style) (file : String) :
    StartsImports (r.run style (';' :: rest ++ ['\n'])) { st with line := st.line + 1 } ∧
      r.reports style file (';' :: rest ++ ['\n']) = [] := by
  have hregion : r.nesting.region = .code := by
    rw [h.nesting.region, hstring]
    rfl
  obtain ⟨hfinish, hnothing⟩ := ImportReading.finish_of_none h.knows.operator? style file
  obtain ⟨hrun, hreports⟩ := ImportReading.run_comment hregion hrest style file
  have hbody : '\n' ∉ ';' :: rest := by simpa using hrest
  rw [hrun, hreports, hnothing, hfinish, Position.after_line hbody, h.position]
  exact ⟨⟨h.nesting.congr rfl rfl, rfl, h.knows.imports, h.knows.operator?⟩, rfl⟩

/-- **A line that is linted to its end is reported for its ids as it is read.** -/
theorem lintLine (h : StartsImports r st) (hin : r.nesting.InBounds style.maxDepth)
    (hcontent : '\n' ∉ content) (hends : (lintLine style st content).error? = none)
    (file : String) :
    StartsImports (r.run style (content ++ ['\n'])) (SchemeStyle.lintLine style st content).state ∧
      idReports file st.line (SchemeStyle.lintLine style st content).findings =
        r.reports style file (content ++ ['\n']) := by
  have hextent : idReports file st.line (extentFindings style content) = [] :=
    idReports_of_importReports (importReports_extentFindings style content)
  by_cases hblank : isBlankLine content = true
  · obtain ⟨hstarts, hreports⟩ := h.lintBlankLine hblank hcontent style file
    rw [SchemeStyle.lintLine, if_pos hblank, hreports]
    exact ⟨hstarts.recount _ _, idReports_of_importReports (importReports_findingIf rfl)⟩
  by_cases hcomment : content.head? = some ';' ∧ ¬st.inString = true
  · obtain ⟨hhead, hstring⟩ := hcomment
    obtain ⟨rest, rfl⟩ := List.head?_eq_some_iff.1 hhead
    have hrest : '\n' ∉ rest := fun hm ↦ hcontent (List.mem_cons_of_mem _ hm)
    obtain ⟨hstarts, hreports⟩ :=
      h.commentLine (by simpa using hstring) hrest style file
    rw [SchemeStyle.lintLine, if_neg hblank, lintTextLine, if_pos ⟨hhead, hstring⟩, hreports]
    refine ⟨hstarts.recount _ _, ?_⟩
    show idReports file st.line (_ ++ (_ ++ _)) = _
    rw [idReports_append, idReports_append, hextent,
      idReports_of_importReports (importReports_tabFindings 0 _),
      idReports_of_importReports (importReports_commentLineFindings _ _)]
    rfl
  · rw [SchemeStyle.lintLine, if_neg hblank, lintTextLine, if_neg hcomment] at hends ⊢
    obtain ⟨hstarts, hreports⟩ :=
      (h.recount 0 st.flagged).follows.scan hin hcontent hends file
    refine ⟨hstarts.recount _ _, ?_⟩
    rw [← hreports]
    show idReports file st.line (_ ++ _) = _
    rw [idReports_append, hextent]
    rfl

/-! ### Lines in a row -/

/-- **The diagnostics about ids of lines that are linted to their end are what the reading of their
text finds.** -/
theorem lintLines (h : StartsImports r st) (hin : r.nesting.InBounds style.maxDepth)
    (hlines : ∀ line ∈ lines, '\n' ∉ line)
    (hends : (lintLines style st lines).failure? = none) (file : String) :
    StartsImports (r.run style (joinLines lines)) (SchemeStyle.lintLines style st lines).state ∧
      ((SchemeStyle.lintLines style st lines).diagnostics file).filter Diagnostic.isIdOrder =
        r.reports style file (joinLines lines) := by
  induction lines generalizing r st with
  | nil => exact ⟨h, rfl⟩
  | cons content rest ih =>
    have hcontent := hlines content List.mem_cons_self
    have herror := error_eq_none_of_lintLines hends
    obtain ⟨hstarts, hreports⟩ := h.lintLine hin hcontent herror file
    have hin' : (r.run style (content ++ ['\n'])).nesting.InBounds style.maxDepth := by
      rw [ImportReading.nesting_run]
      cases agrees_lintLine hcontent h.nesting hin with
      | ends _ within => exact within.inBounds_run
      | fault before c first error => rw [error] at herror; cases herror
    rw [lintLines_cons_of_ok herror] at hends ⊢
    obtain ⟨hfinal, hrest⟩ :=
      ih hstarts hin' (fun line hl ↦ hlines line (List.mem_cons_of_mem _ hl)) hends
    rw [joinLines_cons, List.append_cons, ImportReading.run_append, ImportReading.reports_append,
      ← hreports, ← hrest, idReports_eq_filter]
    exact ⟨hfinal, by simp [Report.diagnostics, Function.comp_def]⟩

end StartsImports

end

/-! ### Texts -/

/-- A text starts outside of all import forms. -/
theorem startsImports_start : StartsImports {} {} :=
  ⟨startsLine_start, rfl, rfl, rfl⟩

/-- **The diagnostics about ids of a text that is linted to its end are what the reading of it
finds**, once its last line is ended too. -/
theorem idReports_lintText {style : Style} {text : List Char}
    (h : (lintText style (String.ofList text)).failure? = none) (file : String) :
    ∃ ends, (ends = [] ∨ ends = ['\n']) ∧
      StartsImports (ImportReading.run style {} (text ++ ends))
        (lintText style (String.ofList text)).state ∧
      ((lintText style (String.ofList text)).diagnostics file).filter Diagnostic.isIdOrder =
        ImportReading.reports style file {} (text ++ ends) := by
  rw [lintText, String.toList_ofList] at h ⊢
  have hlines := startsImports_start.lintLines (inBounds_start style)
    (fun _ hl ↦ newline_notMem_of_mem_splitLines hl) h file
  rcases joinLines_splitLines text with heq | heq <;> rw [heq] at hlines
  · exact ⟨[], .inl rfl, by rwa [List.append_nil]⟩
  · exact ⟨['\n'], .inr rfl, hlines⟩

end SchemeStyle