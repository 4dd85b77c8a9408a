import SchemeStyle.Proofs.Lint
import SchemeStyle.Proofs.Nesting.Lexer
import SchemeStyle.Proofs.Text.Lines

/-!
# Linting keeps track of the nesting

The linter never sees a text as a whole. It scans a line at a time in modes of its own, passes over
blank lines and comment lines, forgets at every newline whether a backslash came before it, and
carries nothing from line to line but the depth and whether a string is open. That is enough: it
reports a fault exactly where `Nesting` has its first one, and otherwise ends every line with the
depth and in the string that `Nesting` gives it (`lintText_nesting`).

The scan of one line simulates the reading of the whole text character by character (`Tracks`), the
lines in a row do so from newline to newline (`StartsLine`).
-/

namespace SchemeStyle

/-! ### One character -/

/-- The scan of a line stands where the text read so far has led to. -/
structure Tracks (n : Nesting) (cur : Cursor) (st : State) : Prop where
  depth : n.depth = st.depth
  region : n.region = if cur.mode = .string then .string cur.escaped else .code
  inString : st.inString = decide (cur.mode = .string)

/-- What means nothing in code means nothing to the nesting. -/
theorem IsPlain.idle {c : Char} (h : IsPlain c) : c ∉ ['"', ';', '(', '[', ')', ']'] :=
  fun hc ↦ h (List.mem_append_left [' ', '\n'] hc)

namespace Tracks

variable {style : Style} {n : Nesting} {cur : Cursor} {c : Char} {st st' : State}

theorem region_code (h : Tracks n cur st) (hmode : cur.mode ≠ .string) : n.region = .code := by
  rw [h.region, if_neg hmode]

theorem region_string (h : Tracks n cur st) (hmode : cur.mode = .string) :
    n.region = .string cur.escaped := by
  rw [h.region, if_pos hmode]

theorem inString_code (h : Tracks n cur st) (hmode : cur.mode ≠ .string) :
    st.inString = false := by
  rw [h.inString, decide_eq_false hmode]

/-- Checking the start of a line does not lead off the track. -/
theorem entered {aligned : Bool} (h : Tracks n cur st) :
    Tracks n cur (entered aligned cur c st) where
  depth := by rw [depth_entered, h.depth]
  region := h.region
  inString := by rw [inString_entered, h.inString]

/-- To be on track in code is to agree on the depth and to be in no string. -/
theorem of_code {mode : Mode} (hmode : mode ≠ .string) (hregion : (n.step c).region = .code)
    (hdepth : (n.step c).depth = st'.depth) (hstring : st'.inString = false) :
    Tracks (n.step c) (cur.advance mode c) st' where
  depth := hdepth
  region := by rw [hregion, Cursor.advance, if_neg hmode]
  inString := by rw [hstring, Cursor.advance, decide_eq_false hmode]

/-- A character that means nothing to the nesting keeps the scan on track. -/
theorem of_idle (mode : Mode) (h : Tracks n cur st) (hcode : cur.mode ≠ .string)
    (hmode : mode ≠ .string) (hc : c ∉ ['"', ';', '(', '[', ')', ']'])
    (hdepth : st'.depth = st.depth) (hstring : st'.inString = st.inString) :
    Tracks (n.step c) (cur.advance mode c) st' ∧ n.step c = n := by
  have hregion := h.region_code hcode
  have hstep := Nesting.step_eq_self hregion hc
  refine ⟨of_code hmode ?_ ?_ ?_, hstep⟩
  · rw [hstep, hregion]
  · rw [hstep, h.depth, hdepth]
  · rw [hstring, h.inString_code hcode]

/-- A character that the scan goes on after keeps it on track and within the bounds. -/
theorem go {mode : Mode} (h : Tracks n cur st) (hin : n.InBounds style.maxDepth)
    (hmove : Move style cur c st st' (.go mode)) :
    Tracks (n.step c) (cur.advance mode c) st' ∧ (n.step c).InBounds style.maxDepth := by
  -- A character that moves the depth is a delimiter; for all others the bounds are those before.
  cases hmove with
  | indent mode space =>
    have hcode : cur.mode ≠ .string := by simp [mode]
    have hc : c ∉ ['"', ';', '(', '[', ')', ']'] := by rw [space]; decide
    obtain ⟨htracks, hstep⟩ := of_idle .indent h hcode (by simp) hc rfl rfl
    exact ⟨htracks, by rwa [hstep]⟩
  | string mode inside =>
    have hregion := h.region_string mode
    have hstep : n.step c = { n with region := .string (c == '\\' && !cur.escaped) } := by
      obtain ⟨region, depth⟩ := n
      cases hregion
      rcases hescaped : cur.escaped with - | -
      · have hc : c ≠ '"' := fun hc ↦ by simp [inside hc] at hescaped
        by_cases hb : c = '\\' <;> simp [Nesting.step, hc, hb]
      · simp [Nesting.step]
    rw [hstep]
    exact ⟨⟨h.depth, rfl, by rw [h.inString, mode]; rfl⟩, hin⟩
  | closeString mode quote ends =>
    have hregion := h.region_string mode
    have hstep : n.step c = { n with region := .code } := by
      simp [Nesting.step, hregion, ends, quote]
    exact ⟨of_code (by simp) (by rw [hstep]) (by rw [hstep]; exact h.depth) rfl,
      by rw [hstep]; exact hin⟩
  | openString mode quote =>
    have hstep : n.step c = { n with region := .string false } := by
      simp [Nesting.step, h.region_code mode, quote]
    rw [hstep]
    exact ⟨⟨h.depth, by simp [Cursor.advance, quote], rfl⟩, hin⟩
  | «open» mode opener room align =>
    have hstep : n.step c = { n with depth := n.depth + 1 } := by
      rcases opener with rfl | rfl <;> simp [Nesting.step, h.region_code mode]
    have hdepth := h.depth
    have hdepth' : (n.step c).depth = (st.depth + 1 : Nat) := by rw [hstep]; simp [hdepth]
    refine ⟨of_code (by simp) ?_ hdepth' (h.inString_code mode), ?_⟩
    · rw [hstep]; exact h.region_code mode
    · exact ⟨by omega, by omega⟩
  | close mode closer frame outer frames =>
    have hstep : n.step c = { n with depth := n.depth - 1 } := by
      rcases closer with rfl | rfl <;> simp [Nesting.step, h.region_code mode]
    have hdepth : n.depth = (outer.length + 1 : Nat) := by
      rw [h.depth, State.depth, frames, List.length_cons]
    have hdepth' : (n.step c).depth = outer.length := by rw [hstep]; simp [hdepth]
    have hbound := hin.2
    refine ⟨of_code (by simp) ?_ hdepth' (h.inString_code mode), ?_⟩
    · rw [hstep]; exact h.region_code mode
    · exact ⟨by omega, by omega⟩
  | endOperator token mode blank =>
    have hcode : cur.mode ≠ .string := by simp [mode]
    have hc : c ∉ ['"', ';', '(', '[', ')', ']'] := by rcases blank with rfl | rfl <;> decide
    obtain ⟨htracks, hstep⟩ := of_idle .code h hcode (by simp) hc
      (depth_finishOperator style token cur.index (c == ' ') st)
      (inString_finishOperator style token cur.index (c == ' ') st)
    exact ⟨htracks, by rwa [hstep]⟩
  | endWord mode code blank =>
    have hc : c ∉ ['"', ';', '(', '[', ')', ']'] := by rcases blank with rfl | rfl <;> decide
    obtain ⟨htracks, hstep⟩ := of_idle .code h code (by simp) hc
      (depth_rememberName cur st) (inString_rememberName cur st)
    exact ⟨htracks, by rwa [hstep]⟩
  | operator token mode plain =>
    have hcode : cur.mode ≠ .string := by simp [mode]
    obtain ⟨htracks, hstep⟩ :=
      of_idle (.operator (token.push c)) h hcode (by simp) plain.idle rfl rfl
    exact ⟨htracks, by rwa [hstep]⟩
  | code mode code plain =>
    obtain ⟨htracks, hstep⟩ := of_idle .code h code (by simp) plain.idle rfl rfl
    exact ⟨htracks, by rwa [hstep]⟩

/-- A semicolon in code starts a comment. -/
theorem comment (h : Tracks n cur st) (hmove : Move style cur c st st' .comment) :
    n.step c = { n with region := .comment } ∧ st'.depth = st.depth ∧ st'.inString = false := by
  cases hmove with
  | comment mode code semicolon =>
    refine ⟨?_, rfl, h.inString_code code⟩
    simp [Nesting.step, h.region_code code, semicolon]
  | operatorComment token mode semicolon =>
    have hcode : cur.mode ≠ .string := by simp [mode]
    refine ⟨?_, depth_finishOperator .., ?_⟩
    · simp [Nesting.step, h.region_code hcode, semicolon]
    · rw [inString_finishOperator, h.inString_code hcode]

/-- A delimiter at which the scan stops leaves the bounds. -/
theorem stop {e : NestingError} (h : Tracks n cur st)
    (hmove : Move style cur c st st' (.stop e)) :
    ¬(n.step c).InBounds style.maxDepth ∧ e = (n.step c).fault style.maxDepth := by
  cases hmove with
  | tooDeep mode opener full =>
    have hstep : (n.step c).depth = n.depth + 1 := by
      rcases opener with rfl | rfl <;> simp [Nesting.step, h.region_code mode]
    have hdepth := h.depth
    refine ⟨fun hin ↦ ?_, ?_⟩
    · have := hin.2
      omega
    · rw [Nesting.fault, if_neg (by omega)]
  | unmatched mode closer empty =>
    have hstep : (n.step c).depth = n.depth - 1 := by
      rcases closer with rfl | rfl <;> simp [Nesting.step, h.region_code mode]
    have hdepth : n.depth = 0 := by rw [h.depth, State.depth, empty]; rfl
    refine ⟨fun hin ↦ ?_, ?_⟩
    · have := hin.1
      omega
    · rw [Nesting.fault, if_pos (by omega)]

end Tracks

/-! ### One line -/

/-- A line starts where the text before it has led to. -/
structure StartsLine (n : Nesting) (st : State) : Prop where
  depth : n.depth = st.depth
  region : n.region = if st.inString then .string false else .code

namespace StartsLine

variable {style : Style} {n : Nesting} {st : State}

/-- A scan starts on track. -/
theorem tracks (h : StartsLine n st) : Tracks n (.start st.inString) st where
  depth := h.depth
  region := by rw [h.region]; cases st.inString <;> rfl
  inString := by cases st.inString <;> rfl

/-- Only the depth and the open string count. -/
theorem congr {st' : State} (h : StartsLine n st) (hdepth : st'.depth = st.depth)
    (hstring : st'.inString = st.inString) : StartsLine n st' where
  depth := by rw [hdepth, h.depth]
  region := by rw [hstring, h.region]

theorem inString_eq (h : StartsLine n st) : st.inString = n.inString := by
  rw [Nesting.inString, h.region]
  cases st.inString <;> rfl

theorem region_ne (h : StartsLine n st) : n.region ≠ .string true := by
  rw [h.region]
  split_ifs <;> simp

end StartsLine

/-- What reading a text from a nesting yields in the eyes of the linter: it is read to its end, or
up to its first fault. The index of the fault counts from `start`. -/
inductive Agrees (limit : Nat) (n : Nesting) (text : List Char) (start : Nat) (o : Outcome) :
    Prop where
  | ends (error : o.error? = none) (within : n.Within limit text)
      (state : StartsLine (n.run text) o.state)
  | fault (before : List Char) (c : Char) (first : n.FirstFault limit text before c)
      (error : o.error? =
        some (start + before.length, (n.run (before ++ [c])).fault limit))

namespace Agrees

variable {limit : Nat} {n : Nesting} {text : List Char} {start : Nat} {o o' : Outcome}

/-- Findings do not count. -/
theorem congr (h : Agrees limit n text start o) (herror : o'.error? = o.error?)
    (hdepth : o'.state.depth = o.state.depth) (hstring : o'.state.inString = o.state.inString) :
    Agrees limit n text start o' := by
  cases h with
  | ends error within state => exact .ends (herror.trans error) within (state.congr hdepth hstring)
  | fault before c first error => exact .fault before c first (herror.trans error)

/-- One more character in front, which is no fault itself. -/
theorem cons {c : Char} (hin : n.InBounds limit) (h : Agrees limit (n.step c) text (start + 1) o) :
    Agrees limit n (c :: text) start o := by
  cases h with
  | ends error within state => exact .ends error (Nesting.within_cons_iff.2 ⟨hin, within⟩) state
  | fault before d first error =>
    refine .fault (c :: before) d (first.cons hin) ?_
    rw [error, List.length_cons, List.cons_append, Nesting.run_cons, Nat.add_right_comm,
      Nat.add_assoc]

/-- The rest of a line that is a comment. -/
theorem of_comment {body : List Char} (hregion : n.region = .comment) (hin : n.InBounds limit)
    (hbody : '\n' ∉ body) (herror : o.error? = none) (hdepth : n.depth = o.state.depth)
    (hstring : o.state.inString = false) : Agrees limit n (body ++ ['\n']) start o := by
  refine .ends herror (Nesting.within_comment_newline hin hregion hbody) ?_
  rw [Nesting.run_comment_newline hregion hbody]
  exact ⟨hdepth, by rw [hstring]; rfl⟩

end Agrees

/-- A newline in code or in a string leads to the start of a line. -/
theorem Tracks.startsLine {n : Nesting} {cur : Cursor} {st : State} {mode : Mode}
    (h : Tracks n (cur.advance mode '\n') st) : StartsLine n st where
  depth := h.depth
  region := by
    rw [h.region, h.inString]
    by_cases hmode : mode = .string <;> simp [Cursor.advance, hmode]

/-- **A scan agrees with the nesting of its line**, from wherever in the line it is on track. -/
theorem agrees_scan {style : Style} {aligned : Bool} {body : List Char} (hbody : '\n' ∉ body) :
    ∀ {n : Nesting} {cur : Cursor} {st : State}, Tracks n cur st → n.InBounds style.maxDepth →
      Agrees style.maxDepth n (body ++ ['\n']) cur.index
        (scan style aligned cur st (body ++ ['\n'])) := by
  induction body with
  | nil =>
    intro n cur st h hin
    have hmove := move_of_step style aligned cur '\n' st
    rw [List.nil_append, scan]
    rcases hnext : (step style aligned cur '\n' st).next with mode | - | e <;> rw [hnext] at hmove
    · obtain ⟨htracks, hin'⟩ := h.entered.go hin hmove
      exact .ends rfl (Nesting.within_cons_iff.2 ⟨hin, Nesting.within_nil_iff.2 hin'⟩)
        (htracks.startsLine.congr rfl rfl)
    · exact absurd hmove.eq_semicolon (by decide)
    · obtain ⟨hout, rfl⟩ := h.entered.stop hmove
      exact .fault [] '\n' (Nesting.firstFault_here hin hout) rfl
  | cons c body ih =>
    intro n cur st h hin
    obtain ⟨-, hbody⟩ := not_or.1 (fun hm ↦ hbody (List.mem_cons.2 hm))
    have hmove := move_of_step style aligned cur c st
    rw [List.cons_append, scan]
    rcases hnext : (step style aligned cur c st).next with mode | - | e <;> rw [hnext] at hmove
    · obtain ⟨htracks, hin'⟩ := h.entered.go hin hmove
      exact .cons hin ((ih hbody htracks hin').congr rfl rfl rfl)
    · obtain ⟨hstep, hdepth, hstring⟩ := h.entered.comment hmove
      refine .cons hin (.of_comment ?_ ?_ hbody rfl ?_ hstring)
      · rw [hstep]
      · rw [hstep]; exact hin
      · rw [hstep, hdepth]; exact h.entered.depth
    · obtain ⟨hout, rfl⟩ := h.entered.stop hmove
      exact .fault [] c (Nesting.firstFault_here hin hout) rfl

/-- A blank line agrees: spaces mean nothing, in code or in a string. -/
theorem agrees_lintBlankLine {limit : Nat} {content : List Char} (hblank : isBlankLine content)
    {n : Nesting} {st : State} (h : StartsLine n st) (hin : n.InBounds limit) :
    Agrees limit n (content ++ ['\n']) 0 (lintBlankLine st) := by
  have hcontent : content = List.replicate content.length ' ' :=
    List.eq_replicate_of_mem fun c hc ↦ by simpa using List.all_eq_true.1 hblank c hc
  have hnewline : n.step '\n' = n := by
    obtain ⟨region, depth⟩ := n
    have hregion : region = if st.inString then .string false else .code := h.region
    cases hstring : st.inString <;> simp [hregion, hstring, Nesting.step]
  have hrun : n.run (content ++ ['\n']) = n := by
    rw [hcontent, Nesting.run_append, Nesting.run_spaces h.region_ne, Nesting.run_cons, hnewline,
      Nesting.run_nil]
  refine .ends rfl ?_ ?_
  · rw [hcontent, Nesting.within_append_iff, Nesting.run_spaces h.region_ne,
      Nesting.within_cons_iff, hnewline, Nesting.within_nil_iff]
    exact ⟨Nesting.within_spaces hin h.region_ne _, hin, hin⟩
  · rw [hrun]
    exact h.congr rfl rfl

/-- **Linting a line agrees with the nesting of the line.** -/
theorem agrees_lintLine {style : Style} {content : List Char} (hcontent : '\n' ∉ content)
    {n : Nesting} {st : State} (h : StartsLine n st) (hin : n.InBounds style.maxDepth) :
    Agrees style.maxDepth n (content ++ ['\n']) 0 (lintLine style st content) := by
  rw [lintLine]
  split_ifs with hblank
  · exact (agrees_lintBlankLine hblank h hin).congr rfl rfl rfl
  · have h' : StartsLine n { st with blanks := 0 } := h.congr rfl rfl
    rw [lintTextLine]
    split_ifs with hcomment
    · obtain ⟨hhead, hstring⟩ := hcomment
      obtain ⟨rest, rfl⟩ := List.head?_eq_some_iff.1 hhead
      have hstring : st.inString = false := by simpa using hstring
      have hregion : n.region = .code := by rw [h.region, hstring]; rfl
      have hstep : n.step ';' = { n with region := .comment } := by
        rw [Nesting.step, hregion]
        rfl
      have hrest : '\n' ∉ rest := fun hm ↦ hcontent (List.mem_cons_of_mem _ hm)
      refine .cons hin (.of_comment ?_ ?_ hrest rfl ?_ hstring)
      · rw [hstep]
      · rw [hstep]; exact hin
      · rw [hstep]; exact h.depth
    · exact (agrees_scan hcontent h'.tracks hin).congr rfl rfl rfl

/-! ### Lines in a row -/

variable {style : Style} {lines : List (List Char)} {n : Nesting} {st : State}

/-- **Lines that are linted to their end keep the bounds**, and end where the nesting of their text
leads to. -/
theorem within_of_lintLines (hlines : ∀ line ∈ lines, '\n' ∉ line) (h : StartsLine n st)
    (hin : n.InBounds style.maxDepth) (hends : (lintLines style st lines).failure? = none) :
    n.Within style.maxDepth (joinLines lines) ∧
      StartsLine (n.run (joinLines lines)) (lintLines style st lines).state := by
  induction lines generalizing n st with
  | nil => exact ⟨Nesting.within_nil_iff.2 hin, h⟩
  | cons content rest ih =>
    have herror := error_eq_none_of_lintLines hends
    rw [lintLines_cons_of_ok herror] at hends
    rw [lintLines_cons_of_ok herror, joinLines_cons, List.append_cons]
    cases agrees_lintLine (hlines content List.mem_cons_self) h hin with
    | ends _ within state =>
      obtain ⟨hwithin, hstarts⟩ := ih (fun line hl ↦ hlines line (List.mem_cons_of_mem _ hl))
        state within.inBounds_run hends
      rw [Nesting.run_append]
      exact ⟨Nesting.within_append_iff.2 ⟨within, hwithin⟩, hstarts⟩
    | fault before c first error =>
      rw [herror] at error
      cases error

/-- **Lines that are not linted to their end stop at the first fault of their text.** -/
theorem firstFault_of_lintLines (hlines : ∀ line ∈ lines, '\n' ∉ line) (h : StartsLine n st)
    (hin : n.InBounds style.maxDepth) {f : Failure}
    (hfails : (lintLines style st lines).failure? = some f) :
    ∃ before c, n.FirstFault style.maxDepth (joinLines lines) before c ∧
      f.line = st.line + before.count '\n' ∧ f.index = columnAfter 0 before ∧
      f.error = (n.run (before ++ [c])).fault style.maxDepth := by
  induction lines generalizing n st with
  | nil => cases hfails
  | cons content rest ih =>
    have hcontent := hlines content List.mem_cons_self
    rw [joinLines_cons, List.append_cons]
    cases agrees_lintLine hcontent h hin with
    | ends error within state =>
      rw [lintLines_cons_of_ok error] at hfails
      obtain ⟨before, c, first, hline, hindex, herror⟩ :=
        ih (fun line hl ↦ hlines line (List.mem_cons_of_mem _ hl)) state within.inBounds_run hfails
      refine ⟨content ++ ['\n'] ++ before, c, first.append_left within, ?_, ?_, ?_⟩
      · have hcount : (content ++ ['\n']).count '\n' = 1 := by
          rw [List.count_append, List.count_eq_zero_of_not_mem hcontent]
          rfl
        rw [hline, line_lintLine, List.count_append, hcount, Nat.add_assoc]
      · rw [hindex, List.append_assoc, columnAfter_append, List.singleton_append,
          columnAfter_newline]
      · rw [herror, ← Nesting.run_append, List.append_assoc _ before]
    | fault before c first error =>
      rw [lintLines_cons_of_error error] at hfails
      obtain rfl := Option.some.inj hfails
      -- The fault is no newline, so it and all before it stand in the line itself.
      have hbefore : '\n' ∉ before := by
        rcases List.prefix_concat_iff.1 first.1 with heq | hle
        · exact absurd (List.append_inj_right' heq rfl) (by simpa using first.ne_newline)
        · exact fun hm ↦ hcontent (hle.subset (List.mem_append_left _ hm))
      refine ⟨before, c, first.mono (List.prefix_append _ _), ?_, ?_, rfl⟩
      · rw [List.count_eq_zero_of_not_mem hbefore, Nat.add_zero]
      · rw [columnAfter_of_notMem hbefore]

/-- **Lines whose text keeps the bounds are linted to their end.** -/
theorem failure_eq_none_of_within (hlines : ∀ line ∈ lines, '\n' ∉ line) (h : StartsLine n st)
    (hwithin : n.Within style.maxDepth (joinLines lines)) :
    (lintLines style st lines).failure? = none := by
  rcases hfailure : (lintLines style st lines).failure? with - | f
  · rfl
  · obtain ⟨before, c, first, -⟩ := firstFault_of_lintLines hlines h hwithin.inBounds hfailure
    exact absurd hwithin (Nesting.not_within_of_firstFault first)

/-! ### Texts -/

/-- The first fault of a text, as a diagnostic of a file: its place counts lines and columns from
one. -/
def Nesting.faultDiagnostic (file : String) (limit : Nat) (before : List Char) (c : Char) :
    Diagnostic where
  file := file
  line := before.count '\n' + 1
  column := columnAfter 0 before + 1
  message := ((Nesting.run {} (before ++ [c])).fault limit).message

/-- A text starts outside of everything. -/
theorem startsLine_start : StartsLine {} {} := ⟨rfl, rfl⟩

theorem inBounds_start (style : Style) : Nesting.InBounds style.maxDepth {} :=
  ⟨Int.le_refl 0, Int.natCast_pos.2 (Nat.lt_of_lt_of_le Nat.two_pos style.two_le_maxDepth)⟩

/-- A text whose linting fails has a fault, at the place of the failure. -/
theorem exists_firstFault_of_lintText (style : Style) (file : String) {text : String} {f : Failure}
    (h : (lintText style text).failure? = some f) :
    ∃ before c, Nesting.FirstFault style.maxDepth {} text.toList before c ∧
      f.toDiagnostic file = Nesting.faultDiagnostic file style.maxDepth before c := by
  obtain ⟨before, c, first, hline, hindex, herror⟩ := firstFault_of_lintLines
    (fun _ hl ↦ newline_notMem_of_mem_splitLines hl) startsLine_start (inBounds_start style) h
  refine ⟨before, c, ?_, ?_⟩
  · rcases joinLines_splitLines text.toList with heq | heq <;> rw [heq] at first
    · exact first
    · exact first.of_append_newline
  · rw [Failure.toDiagnostic, Nesting.faultDiagnostic, hline, hindex, herror]
    simp [Nat.add_comm]

/-- A text that is linted to its end has no fault. -/
theorem within_of_lintText {style : Style} {text : String}
    (h : (lintText style text).failure? = none) :
    Nesting.Within style.maxDepth {} text.toList := by
  have hwithin := (within_of_lintLines (fun _ hl ↦ newline_notMem_of_mem_splitLines hl)
    startsLine_start (inBounds_start style) h).1
  rcases joinLines_splitLines text.toList with heq | heq <;> rw [heq] at hwithin
  · exact hwithin
  · exact (Nesting.within_append_iff.1 hwithin).1

/-- **Linting keeps track of the nesting of the whole text.** A text is linted up to its first fault
of nesting, and reported to fail there; without a fault it is linted to its end, and after every
line the depth and whether a string is open are those of the text so far, while import forms nest at
most three deep. No line reaches the linter unended. -/
theorem lintText_nesting (style : Style) (file text : String) :
    (∀ d, (lintText style text).failure?.map (Failure.toDiagnostic file) = some d ↔
      ∃ before c, Nesting.FirstFault style.maxDepth {} text.toList before c ∧
        d = Nesting.faultDiagnostic file style.maxDepth before c) ∧
    ((lintText style text).failure? = none → ∀ lines, lines <+: splitLines text.toList →
      (lintLines style {} lines).failure? = none ∧
        (lintLines style {} lines).state.inString =
          (Nesting.run {} (joinLines lines)).inString ∧
        (lintLines style {} lines).state.depth = (Nesting.run {} (joinLines lines)).depth ∧
        (lintLines style {} lines).state.imports.depths.length ≤ 3) ∧
    ∀ line ∈ splitLines text.toList, ∀ st : State,
      lintTerminated style st (String.ofList (line ++ ['\n'])) = .ok (lintLine style st line) := by
  refine ⟨fun d ↦ ⟨fun h ↦ ?_, ?_⟩, fun hends lines hlines ↦ ?_, fun line _ st ↦ ?_⟩
  · obtain ⟨f, hf, rfl⟩ := Option.map_eq_some_iff.1 h
    exact exists_firstFault_of_lintText style file hf
  · rintro ⟨before, c, first, rfl⟩
    rcases hf : (lintText style text).failure? with - | f
    · exact absurd (within_of_lintText hf) (Nesting.not_within_of_firstFault first)
    · obtain ⟨before', c', first', hd⟩ := exists_firstFault_of_lintText style file hf
      obtain ⟨rfl, hc⟩ := List.append_inj' (first.unique first') rfl
      obtain rfl := List.singleton_inj.1 hc
      exact congrArg some hd
  · obtain ⟨rest, hrest⟩ := hlines
    rw [lintText, ← hrest] at hends
    have hpart := failure_eq_none_of_append hends
    have hstarts := (within_of_lintLines (fun l hl ↦ newline_notMem_of_mem_splitLines
      (hrest ▸ List.mem_append_left rest hl)) startsLine_start (inBounds_start style) hpart).2
    exact ⟨hpart, hstarts.inString_eq, hstarts.depth.symm, ImportContext.length_depths_le _⟩
  · simp [lintTerminated, lineContent?]

end SchemeStyle
