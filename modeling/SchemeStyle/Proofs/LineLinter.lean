import SchemeStyle.LineLinter
import SchemeStyle.Proofs.Lockstep

/-!
# What a linter remembers between lines

A `LineLinter` keeps its registers from line to line, and does not reset all of them. None of that
is to be seen from outside: two linters with the same state do the same on every line, whatever
their registers hold, and so a linter may be replaced by a new one at the end of any line, even of
one in the midst of which it was stopped (`lintLines_of_state_eq`).

This holds because a register is read on a line only behind the place where that line has written
it. The cursor that a scan makes afresh for every line is the witness: from the start of the scan on
the registers show it (`Registers.Shows`), the start of the operator as long as there is one to
read, and every character keeps them so (`Registers.Shows.advance`). A call then comes out as the
checks of its line do, which know of no registers (`LineLinter.outcome_lintLine`). The two differ in
when they flag the state, the linter with each finding and the checks with the end of the line, but
nothing asks for the flag in between (`step_withFlag`).
-/

namespace SchemeStyle

variable {style : Style} {aligned : Bool} {r : Registers} {cur : Cursor} {c : Char} {st st' : State}
  {cs : List Char}

/-! ### Registers that show a cursor -/

namespace Registers

/-- What is cut out of a line grows with it. -/
theorem cut_succ {start index : Nat} (hrest : r.line.drop index = c :: cs) (hle : start ≤ index) :
    r.cut start (index + 1) = (r.cut start index).push c := by
  have hc : r.line[index]? = some c := by
    rw [← List.head?_drop, hrest]
    rfl
  have hlength : start ≤ (r.line.take index).length := by
    have hlt := (List.getElem?_eq_some_iff.1 hc).1
    rw [List.length_take]
    omega
  rw [cut, List.take_add_one, hc, Option.toList_some, List.drop_append_of_le_length hlength,
    List.reverse_append]
  rfl

theorem cut_self (r : Registers) (index : Nat) : r.cut index index = ⟨index, []⟩ := by
  rw [cut, List.drop_eq_nil_of_le (List.length_take_le index r.line)]
  rfl

/-- The registers show the cursor of a scan that has `rest` of the line to read. -/
structure Shows (r : Registers) (cur : Cursor) (rest : List Char) : Prop where
  rest : r.line.drop cur.index = rest
  cursor : r.cursor cur.index cur.escaped cur.gap = cur
  phase : r.phase = cur.mode.phase
  wordStart : r.wordStart ≤ cur.index
  operatorStart : r.phase = .operator → r.operatorStart ≤ cur.index

theorem shows_reset (r : Registers) (inString : Bool) :
    (r.reset inString).Shows (.start inString) r.line where
  rest := rfl
  cursor := by cases inString <;> rfl
  phase := by cases inString <;> rfl
  wordStart := Nat.le_refl 0
  operatorStart hphase := by cases inString <;> cases hphase

namespace Shows

/-- What was found does not matter. -/
theorem withFound (h : r.Shows cur cs) (found : List Finding) :
    Shows { r with found := found } cur cs :=
  ⟨h.rest, h.cursor, h.phase, h.wordStart, h.operatorStart⟩

theorem prev_eq (h : r.Shows cur cs) : r.prev = cur.prev :=
  congrArg Cursor.prev h.cursor

theorem mode_eq (h : r.Shows cur cs) : r.mode cur.index = cur.mode :=
  congrArg Cursor.mode h.cursor

theorem word_eq (h : r.Shows cur cs) : r.cut r.wordStart cur.index = cur.word :=
  congrArg Cursor.word h.cursor

/-- An operator is where the registers say. -/
theorem operator_eq (h : r.Shows cur cs) {token : Token} (hmode : cur.mode = .operator token) :
    r.cut r.operatorStart cur.index = token ∧ r.operatorStart ≤ cur.index := by
  have hphase : r.phase = .operator := by rw [h.phase, hmode]; rfl
  have hcut := h.mode_eq
  rw [Registers.mode, hphase, hmode] at hcut
  exact ⟨Mode.operator.inj hcut, h.operatorStart hphase⟩

/-- The operator that a character leads to is where the registers say from there on. -/
theorem operator_advance (h : r.Shows cur (c :: cs)) {token : Token}
    (hmove : Move style cur c st st' (.go (.operator token))) :
    r.cut token.start (cur.index + 1) = token ∧ token.start ≤ cur.index + 1 := by
  cases hmove with
  | «open» => exact ⟨r.cut_self _, Nat.le_refl _⟩
  | operator token hmode =>
    obtain ⟨hcut, hle⟩ := h.operator_eq hmode
    have hstart : token.start = r.operatorStart := (congrArg Token.start hcut).symm
    refine ⟨?_, ?_⟩
    · show r.cut token.start (cur.index + 1) = token.push c
      rw [hstart, cut_succ h.rest hle, hcut]
    · show token.start ≤ cur.index + 1
      omega

/-- **The registers show the cursor that a character leads to.** -/
theorem advance (h : r.Shows cur (c :: cs)) {mode : Mode}
    (hmove : Move style cur c st st' (.go mode)) :
    (r.advance cur.index mode c).Shows (cur.advance mode c) cs := by
  have hle := h.wordStart
  have hoperator : ∀ token, mode = .operator token →
      r.cut token.start (cur.index + 1) = token ∧ token.start ≤ cur.index + 1 := by
    rintro token rfl
    exact h.operator_advance hmove
  have hmode : (r.advance cur.index mode c).mode (cur.index + 1) = mode := by
    rcases mode with - | - | token | -
    · rfl
    · rfl
    · exact congrArg Mode.operator (hoperator token rfl).1
    · rfl
  have hword : r.cut (r.advance cur.index mode c).wordStart (cur.index + 1) =
      (cur.advance mode c).word := by
    show r.cut (if mode = .code ∧ r.prev = some ' ' ∧ c ≠ ' ' then cur.index else r.wordStart)
      (cur.index + 1) = if _ then _ else _
    rw [h.prev_eq]
    split_ifs
    · rw [cut_succ h.rest (Nat.le_refl _), cut_self]
      rfl
    · rw [cut_succ h.rest hle, h.word_eq]
  refine ⟨?_, ?_, rfl, ?_, fun hphase ↦ ?_⟩
  · show r.line.drop (cur.index + 1) = cs
    rw [← List.drop_drop, h.rest]
    rfl
  · show Cursor.mk (cur.index + 1) ((r.advance cur.index mode c).mode (cur.index + 1)) (some c)
      (cur.advance mode c).escaped (cur.advance mode c).gap
      (r.cut (r.advance cur.index mode c).wordStart (cur.index + 1)) = _
    rw [hmode, hword]
    rfl
  · show (if mode = .code ∧ r.prev = some ' ' ∧ c ≠ ' ' then cur.index else r.wordStart) ≤
      cur.index + 1
    split_ifs <;> omega
  · rcases mode with - | - | token | -
    · cases hphase
    · cases hphase
    · exact (hoperator token rfl).2
    · cases hphase

end Shows

end Registers

/-! ### One character -/

/-- Whether the state is flagged decides nothing. -/
theorem step_withFlag (style : Style) (aligned : Bool) (cur : Cursor) (c : Char) (st : State)
    (flagged : Bool) :
    step style aligned cur c { st with flagged := flagged } =
      { step style aligned cur c st with
        state := { (step style aligned cur c st).state with flagged := flagged } } := by
  have hR : Recounted st { st with flagged := flagged } := ⟨st.line, flagged, rfl⟩
  have halike : (step style aligned cur c st).Alike Recounted
      (step style aligned cur c { st with flagged := flagged }) :=
    lineLockstep_recounted.step_alike hR (fun _ _ ↦ lineLockstep_recounted.start) (.inl rfl)
  have htally := tally_step style aligned cur c st
  have htally' := tally_step style aligned cur c { st with flagged := flagged }
  generalize step style aligned cur c st = s at halike htally
  generalize step style aligned cur c { st with flagged := flagged } = s' at halike htally'
  obtain ⟨found, state, next⟩ := s
  obtain ⟨found', state', next'⟩ := s'
  obtain ⟨rfl, rfl, line, flagged', rfl⟩ := halike
  simp only [State.tally, Prod.mk.injEq] at htally htally'
  simp [← htally.1, htally'.1, htally'.2.2]

/-! ### The scan -/

/-- What a linter sees of an outcome, on whose line something was found before, and whose state is
flagged or not so far. -/
def Outcome.since (found : List Finding) (flagged : Bool) (o : Outcome) : Outcome where
  state := { o.state with flagged := flagged || !o.findings.isEmpty }
  findings := found ++ o.findings
  error? := o.error?

theorem Outcome.since_after (found a : List Finding) (flagged : Bool) (o : Outcome) :
    (o.after a).since found flagged = o.since (found ++ a) (flagged || !a.isEmpty) := by
  cases a <;> simp [since, after]

namespace LineLinter

/-- Reporting ends a call. -/
theorem outcome_report (l : LineLinter) (found : List Finding) :
    Call.outcome { linter := l.report found } =
      Outcome.since l.registers.found l.state.flagged { state := l.state, findings := found } :=
  rfl

/-- A comment behind code is read as its checks say, whatever the other registers hold. -/
theorem outcome_scanFrom_comment (style : Style) (aligned : Bool) (index : Nat)
    (escaped gap : Bool) {l : LineLinter} (hphase : l.registers.phase = .comment)
    (hlast : cs.getLast? ≠ some ';') :
    (scanFrom style aligned index escaped gap l cs).outcome =
      Outcome.since l.registers.found l.state.flagged
        { state := l.state, findings := commentFindings index cs } := by
  rcases cs with - | ⟨c, cs⟩
  · simp [scanFrom, Call.outcome, Outcome.since, commentFindings]
  by_cases hc : c = ';'
  · subst hc
    rcases cs with - | ⟨c, cs⟩
    · exact absurd rfl hlast
    · rw [scanFrom, if_pos ⟨hphase, rfl⟩, scanFrom, if_neg (by simp), if_pos (.inr rfl)]
      exact outcome_report ..
  · have hfindings : commentFindings index (c :: cs) = commentFindings.afterMarker index c cs := by
      simp [commentFindings, hc]
    rw [scanFrom, if_neg fun h ↦ hc h.2, if_pos (.inl hphase), hfindings]
    exact outcome_report ..

/-- **A linter scans a line as the checks of the line say**, from wherever its registers show a
cursor. -/
theorem outcome_scanFrom (style : Style) (aligned : Bool) (cur : Cursor) (st : State)
    (l : LineLinter) (h : l.registers.Shows cur cs)
    (hstate : l.state = { st with flagged := l.state.flagged }) (hlast : cs.getLast? ≠ some ';') :
    (scanFrom style aligned cur.index cur.escaped cur.gap l cs).outcome =
      (scan style aligned cur st cs).since l.registers.found l.state.flagged := by
  induction cs generalizing cur st l with
  | nil =>
    rw [scanFrom, scan]
    simpa [Call.outcome, Outcome.since] using hstate
  | cons c cs ih =>
    have hlast' : cs.getLast? ≠ some ';' := by
      intro hend
      rw [List.getLast?_cons, hend] at hlast
      exact hlast rfl
    have hcode : l.registers.phase ≠ .comment ∧ l.registers.phase ≠ .marker := by
      rw [h.phase]
      cases cur.mode <;> simp [Mode.phase]
    have hstep := step_withFlag style aligned cur c st l.state.flagged
    rw [← hstate] at hstep
    have hmove := move_of_step style aligned cur c st
    rw [scanFrom, if_neg fun h ↦ hcode.1 h.1, if_neg (not_or.2 hcode), scan]
    dsimp only
    rw [h.cursor, hstep]
    generalize step style aligned cur c st = s at hmove ⊢
    obtain ⟨found, state, next⟩ := s
    have hshows := h.withFound (l.registers.found ++ found)
    rcases next with mode | - | e
    · refine Eq.trans ?_ (Outcome.since_after ..).symm
      exact ih (cur.advance mode c) state
        ⟨{ state with flagged := l.state.flagged || !found.isEmpty }, _⟩ (hshows.advance hmove) rfl
        hlast'
    · refine Eq.trans ?_ (Outcome.since_after l.registers.found found l.state.flagged
        { state := state, findings := commentFindings (cur.index + 1) cs }).symm
      exact outcome_scanFrom_comment style aligned (cur.index + 1) false (cur.gapAfter c) rfl hlast'
    · rfl

/-! ### Calls -/

theorem outcome_readLine (style : Style) (st : State) (l : LineLinter) {content : List Char}
    (hstate : l.state = { st with flagged := l.state.flagged })
    (hline : l.registers.line = content ++ ['\n']) :
    (l.readLine style content).outcome =
      Outcome.since l.registers.found l.state.flagged
        (if content.head? = some ';' ∧ ¬st.inString then
          { state := st, findings := tabFindings 0 content ++ commentLineFindings st.line content }
        else
          scan style (style.aligns content) (.start st.inString) st (content ++ ['\n'])) := by
  have hstring : l.state.inString = st.inString := by rw [hstate]
  have hnumber : l.state.line = st.line := by rw [hstate]
  rw [readLine, hstring, hnumber]
  split_ifs
  · rw [outcome_report, hstate]
    rfl
  · have hshows := l.registers.shows_reset st.inString
    rw [hline] at hshows ⊢
    exact outcome_scanFrom style (style.aligns content) (.start st.inString) st _ hshows hstate
      (by simp)

theorem outcome_checkLine (style : Style) (l : LineLinter) {content : List Char}
    (hline : l.registers.line = content ++ ['\n']) :
    (l.checkLine style content).outcome =
      Outcome.since l.registers.found l.state.flagged
        (if isBlankLine content then lintBlankLine l.state
          else lintTextLine style l.state content) := by
  rw [checkLine]
  split_ifs
  · rfl
  · rw [lintTextLine, Outcome.since_after]
    exact outcome_readLine style { l.state with blanks := 0 } _ rfl hline

/-- **A call does what the checks of its line say**, whatever the registers hold. -/
theorem outcome_lintLine (style : Style) (l : LineLinter) (content : List Char) :
    (l.lintLine style content).outcome = SchemeStyle.lintLine style l.state content := by
  have hflagged : (if isBlankLine content then lintBlankLine l.state
      else lintTextLine style l.state content).state.flagged = l.state.flagged := by
    split_ifs
    · rfl
    · exact congrArg (·.2.2) (tally_lintTextLine style l.state content)
  have hchecked := outcome_checkLine style
    ⟨l.state, { l.registers with found := [], line := content ++ ['\n'] }⟩ rfl
  rw [SchemeStyle.lintLine, hflagged]
  exact congrArg (fun o : Outcome ↦ { o with state := { o.state with line := o.state.line + 1 } })
    hchecked

/-- What the caller sees of some lines hangs on the state of the linter only. -/
theorem lintLines_congr {l l' : LineLinter} (h : l.state = l'.state) (lines : List (List Char)) :
    (l.lintLines style lines).1 = (l'.lintLines style lines).1 ∧
      (l.lintLines style lines).2.state = (l'.lintLines style lines).2.state := by
  induction lines generalizing l l' with
  | nil => exact ⟨rfl, h⟩
  | cons content rest ih =>
    have hcall : (l.lintLine style content).outcome = (l'.lintLine style content).outcome := by
      rw [outcome_lintLine, outcome_lintLine, h]
    obtain ⟨hrest, hlast⟩ := ih (congrArg Outcome.state hcall)
    exact ⟨List.cons_eq_cons.2 ⟨hcall, hrest⟩, hlast⟩

theorem lintLines_append (l : LineLinter) (a b : List (List Char)) :
    l.lintLines style (a ++ b) =
      ((l.lintLines style a).1 ++ ((l.lintLines style a).2.lintLines style b).1,
        ((l.lintLines style a).2.lintLines style b).2) := by
  induction a generalizing l with
  | nil => rfl
  | cons content a ih =>
    rw [List.cons_append, lintLines, ih]
    rfl

/-- **All that a line can tell a later one is in the state.** Two linters with the same state are
seen to do the same on any line, whatever their registers hold. A linter may therefore be replaced
by a new one with its state between any two lines, also behind one whose nesting left its bounds. -/
theorem lintLines_of_state_eq (style : Style) (st : State) (r r' : Registers) :
    (∀ content : List Char,
        (lintLine style ⟨st, r⟩ content).outcome = (lintLine style ⟨st, r'⟩ content).outcome) ∧
      ∀ a b : List (List Char),
        let whole := lintLines style ⟨st, r⟩ (a ++ b)
        let first := lintLines style ⟨st, r⟩ a
        let second := lintLines style { state := first.2.state } b
        whole.1 = first.1 ++ second.1 ∧ whole.2.state = second.2.state := by
  refine ⟨fun content ↦ ?_, fun a b ↦ ?_⟩
  · rw [outcome_lintLine, outcome_lintLine]
  · intro whole first second
    have hwhole : whole =
        (first.1 ++ (lintLines style first.2 b).1, (lintLines style first.2 b).2) :=
      lintLines_append ⟨st, r⟩ a b
    have hfresh : first.2.state = LineLinter.state { state := first.2.state } := rfl
    obtain ⟨houtcomes, hstate⟩ := lintLines_congr hfresh b
    rw [hwhole]
    exact ⟨congrArg (first.1 ++ ·) houtcomes, hstate⟩

/-- A linter that was stopped in the midst of a line still stands there at the next one. -/
example :
    (lintLines .standard {} ["(a) b)".toList, "".toList]).2.registers =
      { line := ['\n'], phase := .code, prev := some 'b', wordStart := 4, operatorStart := 1 } := by
  decide +kernel

end LineLinter

end SchemeStyle
