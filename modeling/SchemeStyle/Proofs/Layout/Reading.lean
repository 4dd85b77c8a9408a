import SchemeStyle.Proofs.Lint
import SchemeStyle.Proofs.Text.Lines

/-!
# Reading without a finding

`Reads` is a scan in which no check objects, whether or not the starts of lines are checked. Unlike
a scan it goes on with the next line after a newline, so it speaks of a text of many lines, and a
text that is read in two pieces is read as a whole (`Reads.append`). It stops short of strings over
several lines, of quoted forms, of wrappers and of imports: at every newline the state is `Calm`, so
there is one column only at which the next line may start.

`Passes` says the same of lines, among which there may be empty ones. Lines that pass are linted
without a finding (`Passes.lintLines_eq`), and the lines of a text that is read pass
(`passes_of_reads`).
-/

namespace SchemeStyle

/-! ### Calm states -/

namespace State

/-- Nothing is open but forms that are neither wrappers nor quoted nor imports. -/
structure Calm (st : State) : Prop where
  base : st.base = 0
  quotedAlign : st.quotedAlign = none
  inString : st.inString = false
  imports : st.imports = .outside
  wrapper : ∀ frame ∈ st.frames, frame.wrapper = false

/-- The same state on another line. -/
def atLine (line : Nat) (st : State) : State :=
  { st with line := line }

/-- The state in which a line leaves the next one. -/
def nextLine (st : State) : State :=
  st.atLine (st.line + 1)

/-- The state in a form, no wrapper, whose further lines are expected at the column. -/
def inside (column : Int) (st : State) : State :=
  { st with frames := ⟨column, false⟩ :: st.frames }

namespace Calm

variable {st : State}

theorem start : Calm {} := ⟨rfl, rfl, rfl, rfl, by simp⟩

/-- What is counted does not matter. -/
theorem recount (h : st.Calm) (line blanks : Nat) (flagged : Bool) :
    Calm { st with line := line, blanks := blanks, flagged := flagged } :=
  ⟨h.base, h.quotedAlign, h.inString, h.imports, h.wrapper⟩

theorem atLine (h : st.Calm) (line : Nat) : (st.atLine line).Calm :=
  h.recount line st.blanks st.flagged

theorem inside (h : st.Calm) (column : Int) : (st.inside column).Calm where
  base := h.base
  quotedAlign := h.quotedAlign
  inString := h.inString
  imports := h.imports
  wrapper := List.forall_mem_cons.2 ⟨rfl, h.wrapper⟩

/-- Outside of all forms a line starts at column zero, and only there all open forms are
wrappers. -/
theorem expected_of_allWrappers (h : st.Calm) (hall : st.allWrappers) : st.expected = 0 := by
  rcases hframes : st.frames with - | ⟨frame, outer⟩
  · rw [expected, hframes]
    exact h.base
  · have hwrapper : frame.wrapper = false := h.wrapper frame (by simp [hframes])
    simp [allWrappers, hframes, hwrapper] at hall

/-- Neither of the two other columns is open to a line. -/
theorem alignLine_of_ne (h : st.Calm) {index : Nat} (hne : (index : Int) ≠ st.expected) :
    alignLine index st = ([⟨index, .indentation⟩], st) := by
  have hzero : ¬(index = 0 ∧ st.allWrappers) := by
    rintro ⟨rfl, hall⟩
    exact hne (h.expected_of_allWrappers hall).symm
  rw [alignLine, if_neg hne, if_neg hzero, h.quotedAlign]
  rfl

end Calm

end State

theorem alignLine_of_eq {index : Nat} {st : State} (h : (index : Int) = st.expected) :
    alignLine index st = ([], st) := by
  rw [alignLine, if_pos h]

/-- A scan that goes on after a character does so from the cursor that the character leads to. -/
theorem scan_cons_of_go {style : Style} {aligned : Bool} {cur : Cursor} {c : Char} {st : State}
    {cs : List Char} {mode : Mode} (h : (step style aligned cur c st).next = .go mode) :
    scan style aligned cur st (c :: cs) =
      (scan style aligned (cur.advance mode c) (step style aligned cur c st).state cs).after
        (step style aligned cur c st).findings := by
  rw [scan]
  simp only [h]

/-- A scan goes on after a semicolon in strings only. -/
theorem mode_of_semicolon {style : Style} {aligned : Bool} {cur : Cursor} {st : State} {mode : Mode}
    (h : (step style aligned cur ';' st).next = .go mode) : cur.mode = .string := by
  rcases hmode : cur.mode with - | - | token | -
  · simp [step, hmode, codeChar, Step.after] at h
  · simp [step, hmode, codeChar, Step.after] at h
  · simp [step, hmode, codeChar, Step.after] at h
  · rfl

/-! ### Reading a text -/

/-- The text is read from a cursor and a state to another without a finding. No line of it ends in a
space or in a string. -/
inductive Reads (style : Style) : Cursor → State → List Char → Cursor → State → Prop where
  | nil (cur : Cursor) (st : State) : Reads style cur st [] cur st
  | char {cur last : Cursor} {st st' final : State} {c : Char} {text : List Char} {mode : Mode}
      (ne : c ≠ '\n')
      (quiet : ∀ aligned, step style aligned cur c st = { state := st', next := .go mode })
      (rest : Reads style (cur.advance mode c) st' text last final) :
      Reads style cur st (c :: text) last final
  | newline {cur last : Cursor} {st st' final : State} {text : List Char} {p : Char}
      (prev : cur.prev = some p) (ne : p ≠ ' ')
      (quiet : ∀ aligned, step style aligned cur '\n' st = { state := st', next := .go .code })
      (calm : st'.Calm) (rest : Reads style (.start false) st'.nextLine text last final) :
      Reads style cur st ('\n' :: text) last final

namespace Reads

variable {style : Style} {cur mid last : Cursor} {st st' final : State} {c : Char}
  {a b text content : List Char}

theorem append (h : Reads style cur st a mid st') (h' : Reads style mid st' b last final) :
    Reads style cur st (a ++ b) last final := by
  induction h with
  | nil => exact h'
  | char ne quiet _ ih => exact .char ne quiet (ih h')
  | newline prev ne quiet calm _ ih => exact .newline prev ne quiet calm (ih h')

theorem of_append (h : Reads style cur st (a ++ b) last final) :
    ∃ mid st', Reads style cur st a mid st' ∧ Reads style mid st' b last final := by
  induction a generalizing cur st with
  | nil => exact ⟨cur, st, .nil cur st, h⟩
  | cons c a ih =>
    cases h with
    | char ne quiet rest =>
      obtain ⟨mid, st', ha, hb⟩ := ih rest
      exact ⟨mid, st', .char ne quiet ha, hb⟩
    | newline prev ne quiet calm rest =>
      obtain ⟨mid, st', ha, hb⟩ := ih rest
      exact ⟨mid, st', .newline prev ne quiet calm ha, hb⟩

/-- A text is read in one way only. -/
theorem unique {mid' : Cursor} {st'' : State} (h : Reads style cur st a mid st')
    (h' : Reads style cur st a mid' st'') : mid = mid' ∧ st' = st'' := by
  induction h with
  | nil =>
    cases h'
    exact ⟨rfl, rfl⟩
  | char ne quiet _ ih =>
    cases h' with
    | char _ quiet' rest' =>
      obtain ⟨-, rfl, hnext⟩ := Step.mk.inj ((quiet true).symm.trans (quiet' true))
      obtain rfl := Next.go.inj hnext
      exact ih rest'
    | newline => exact absurd rfl ne
  | newline prev _ quiet calm _ ih =>
    cases h' with
    | char ne => exact absurd rfl ne
    | newline _ _ quiet' _ rest' =>
      obtain ⟨-, rfl, -⟩ := Step.mk.inj ((quiet true).symm.trans (quiet' true))
      exact ih rest'

/-- The cursor keeps count of the column. -/
theorem index_eq (h : Reads style cur st text last final) :
    last.index = columnAfter cur.index text := by
  induction h with
  | nil => rfl
  | char ne _ _ ih => rw [ih, columnAfter_cons, if_neg ne]; rfl
  | newline _ _ _ _ _ ih => rw [ih, columnAfter_newline]; rfl

theorem blanks_of_quiet {next : Next}
    (quiet : ∀ aligned, step style aligned cur c st = { state := st', next := next }) :
    st'.blanks = st.blanks := by
  have htally := tally_step style true cur c st
  rw [quiet true] at htally
  exact congrArg (fun tally ↦ tally.2.1) htally

theorem blanks_eq (h : Reads style cur st text last final) : final.blanks = st.blanks := by
  induction h with
  | nil => rfl
  | char _ quiet _ ih => exact ih.trans (blanks_of_quiet quiet)
  | newline _ _ quiet _ _ ih =>
    have hblanks := blanks_of_quiet quiet
    exact ih.trans hblanks

/-- Outside of strings no semicolon is read: what follows it would be a comment. -/
theorem ne_semicolon (h : Reads style cur st (c :: text) last final) (hmode : cur.mode ≠ .string) :
    c ≠ ';' := by
  rintro rfl
  cases h with
  | char ne quiet rest => exact hmode (mode_of_semicolon (congrArg Step.next (quiet true)))

/-- Within a line the cursor remembers the last character. -/
theorem prev_eq (h : Reads style cur st text last final) (htext : '\n' ∉ text) :
    last.prev = text.getLast?.or cur.prev := by
  induction h with
  | nil => rfl
  | @char cur last st st' final c text mode ne quiet rest ih =>
    rw [ih fun hm ↦ htext (List.mem_cons_of_mem _ hm), List.getLast?_cons]
    rcases text.getLast? with - | d <;> rfl
  | newline => exact absurd List.mem_cons_self htext

/-- What is read up to a cursor that has a character before it ends in that character, if only it
starts without one. -/
theorem getLast?_eq (h : Reads style cur st text last final) {p : Char} (hp : last.prev = some p) :
    (text.getLast? = some p ∧ p ≠ '\n') ∨ (text = [] ∧ cur.prev = some p) := by
  induction h with
  | nil => exact .inr ⟨rfl, hp⟩
  | @char cur last st st' final c text mode ne quiet rest ih =>
    rcases ih hp with ⟨hlast, hne⟩ | ⟨rfl, hc⟩
    · exact .inl ⟨by rw [List.getLast?_cons, hlast]; rfl, hne⟩
    · obtain rfl := Option.some.inj hc
      exact .inl ⟨rfl, ne⟩
  | newline _ _ _ _ _ ih =>
    rcases ih hp with ⟨hlast, hne⟩ | ⟨-, hstart⟩
    · exact .inl ⟨by rw [List.getLast?_cons, hlast]; rfl, hne⟩
    · cases hstart

/-- What is read to the end of a line ends in a character that is no space. -/
theorem getLast?_of_newline (h : Reads style cur st (content ++ ['\n']) last final)
    (hcontent : '\n' ∉ content) : ∃ p, p ≠ ' ' ∧ content.getLast?.or cur.prev = some p := by
  obtain ⟨mid, st', hread, hend⟩ := h.of_append
  rw [← hread.prev_eq hcontent]
  cases hend with
  | char ne => exact absurd rfl ne
  | newline prev ne => exact ⟨_, ne, prev⟩

/-- A scan passes over what is read within its line. -/
theorem scan_append (h : Reads style cur st a mid st') (ha : '\n' ∉ a) (aligned : Bool) :
    scan style aligned cur st (a ++ b) = scan style aligned mid st' b := by
  induction h with
  | nil => rfl
  | char ne quiet _ ih =>
    have hnext := congrArg Step.next (quiet aligned)
    rw [List.cons_append, scan_cons_of_go hnext, quiet aligned]
    exact ih fun hm ↦ ha (List.mem_cons_of_mem _ hm)
  | newline => exact absurd List.mem_cons_self ha

/-- **What is read to the end of a line is scanned without a finding**, and the next line starts in
the state that the scan ends in. -/
theorem scan_eq (h : Reads style cur st (content ++ ['\n']) last final)
    (hcontent : '\n' ∉ content) (aligned : Bool) :
    ∃ ended : State, scan style aligned cur st (content ++ ['\n']) = { state := ended } ∧
      ended.Calm ∧ last = .start false ∧ final = ended.nextLine := by
  obtain ⟨mid, st', hread, hend⟩ := h.of_append
  rw [hread.scan_append hcontent]
  cases hend with
  | char ne => exact absurd rfl ne
  | newline prev ne quiet calm rest =>
    cases rest
    refine ⟨_, ?_, calm, rfl, rfl⟩
    rw [scan, quiet aligned]
    rfl

end Reads

/-! ### Lines that pass -/

/-- The lines lead from a state to another without a finding: each is read from its start to its
end, or it is empty and the only one in a row. -/
inductive Passes (style : Style) : State → List (List Char) → State → Prop where
  | nil (st : State) : Passes style st [] st
  | empty {st final : State} {lines : List (List Char)} (calm : st.Calm) (blanks : st.blanks = 0)
      (rest : Passes style { st.nextLine with blanks := 1 } lines final) :
      Passes style st ([] :: lines) final
  | text {st next final : State} {content : List Char} {lines : List (List Char)} {last : Cursor}
      (calm : st.Calm) (newline : '\n' ∉ content) (short : content.length ≤ style.maxColumns)
      (read : Reads style (.start false) { st with blanks := 0 } (content ++ ['\n']) last next)
      (rest : Passes style next lines final) :
      Passes style st (content :: lines) final

namespace Passes

variable {style : Style} {st mid final : State} {a b lines : List (List Char)}

theorem append (h : Passes style st a mid) (h' : Passes style mid b final) :
    Passes style st (a ++ b) final := by
  induction h with
  | nil => exact h'
  | empty calm blanks _ ih => exact .empty calm blanks (ih h')
  | text calm newline short read _ ih => exact .text calm newline short read (ih h')

theorem of_append (h : Passes style st (a ++ b) final) :
    ∃ mid, Passes style st a mid ∧ Passes style mid b final := by
  induction a generalizing st with
  | nil => exact ⟨st, .nil st, h⟩
  | cons content a ih =>
    cases h with
    | empty calm blanks rest =>
      obtain ⟨mid, ha, hb⟩ := ih rest
      exact ⟨mid, .empty calm blanks ha, hb⟩
    | text calm newline short read rest =>
      obtain ⟨mid, ha, hb⟩ := ih rest
      exact ⟨mid, .text calm newline short read ha, hb⟩

theorem newline_notMem (h : Passes style st lines final) : ∀ line ∈ lines, '\n' ∉ line := by
  induction h with
  | nil => simp
  | empty _ _ _ ih => exact List.forall_mem_cons.2 ⟨List.not_mem_nil, ih⟩
  | text _ newline _ _ _ ih => exact List.forall_mem_cons.2 ⟨newline, ih⟩

end Passes

/-- A line that ends in a character other than a space is not blank. -/
theorem isBlankLine_eq_false {content : List Char} {p : Char} (hlast : content.getLast? = some p)
    (hp : p ≠ ' ') : isBlankLine content = false := by
  rw [isBlankLine, List.all_eq_false]
  exact ⟨p, List.mem_of_getLast? hlast, by simpa using hp⟩

/-- A line of code, no comment line, is scanned after the checks of its extent. -/
theorem lintTextLine_of_code {st : State} {content : List Char} (hstring : st.inString = false)
    (hhead : content.head? ≠ some ';') (style : Style) :
    lintTextLine style st content =
      (scan style (style.aligns content) (.start false) { st with blanks := 0 }
        (content ++ ['\n'])).after (extentFindings style content) := by
  rw [lintTextLine, if_neg fun h ↦ hhead h.1]
  show (scan style _ (.start st.inString) _ _).after _ = _
  rw [hstring]

/-- A line that is read from its start to its end is linted without a finding. -/
theorem lintLine_eq_of_reads {style : Style} {st next : State} {content : List Char}
    {last : Cursor} (calm : st.Calm) (newline : '\n' ∉ content)
    (short : content.length ≤ style.maxColumns)
    (read : Reads style (.start false) { st with blanks := 0 } (content ++ ['\n']) last next) :
    lintLine style st content = { state := next } ∧ next.Calm := by
  obtain ⟨p, hp, hlast⟩ := read.getLast?_of_newline newline
  have hlast : content.getLast? = some p := by simpa [Cursor.start] using hlast
  obtain ⟨ended, hscan, hcalm, -, rfl⟩ := read.scan_eq newline (style.aligns content)
  have hextent : extentFindings style content = [] := by
    simp [extentFindings, findingIf, hlast, hp, Nat.not_lt.2 short]
  have hhead : content.head? ≠ some ';' := by
    rintro hhead
    obtain ⟨rest, rfl⟩ := List.head?_eq_some_iff.1 hhead
    exact read.ne_semicolon (by simp [Cursor.start]) rfl
  have htext : lintTextLine style st content = { state := ended } := by
    rw [lintTextLine_of_code calm.inString hhead, hscan, hextent]
    rfl
  refine ⟨?_, hcalm.atLine _⟩
  rw [lintLine, isBlankLine_eq_false hlast hp, htext]
  simp [State.nextLine, State.atLine]

/-- An empty line after one that is not is linted without a finding. -/
theorem lintLine_nil {st : State} (blanks : st.blanks = 0) (style : Style) :
    lintLine style st [] = { state := { st.nextLine with blanks := 1 } } := by
  simp [lintLine, isBlankLine, lintBlankLine, findingIf, blanks, State.nextLine, State.atLine]

/-- **Lines that pass are linted without a finding**, to the end. -/
theorem Passes.lintLines_eq {style : Style} {st final : State} {lines : List (List Char)}
    (h : Passes style st lines final) : lintLines style st lines = { state := final } := by
  induction h with
  | nil => rfl
  | empty _ blanks _ ih =>
    have hline := lintLine_nil blanks style
    rw [lintLines_cons_of_ok (by rw [hline]), hline, ih]
    rfl
  | text calm newline short read _ ih =>
    obtain ⟨hline, -⟩ := lintLine_eq_of_reads calm newline short read
    rw [lintLines_cons_of_ok (by rw [hline]), hline, ih]
    rfl

/-- **The lines of a text that is read pass.** -/
theorem passes_of_reads {style : Style} {st final : State} {last : Cursor}
    {lines : List (List Char)} (hne : lines ≠ []) (newline : ∀ line ∈ lines, '\n' ∉ line)
    (short : ∀ line ∈ lines, line.length ≤ style.maxColumns) (calm : st.Calm)
    (h : Reads style (.start false) { st with blanks := 0 } (joinLines lines) last final) :
    Passes style st lines final := by
  induction lines generalizing st with
  | nil => exact absurd rfl hne
  | cons line rest ih =>
    rw [joinLines_cons, List.append_cons] at h
    obtain ⟨mid, next, hline, hrest⟩ := h.of_append
    have hcontent := newline line List.mem_cons_self
    obtain ⟨ended, -, hended, rfl, rfl⟩ := hline.scan_eq hcontent true
    refine .text calm hcontent (short line List.mem_cons_self) hline ?_
    -- No blank line was counted since the start, so the next line may be taken to start the text.
    rcases rest with - | ⟨second, rest⟩
    · cases hrest
      exact .nil _
    · have hblanks : ended.blanks = 0 := hline.blanks_eq
      have hnext : { ended.nextLine with blanks := 0 } = ended.nextLine := by
        simp [State.nextLine, State.atLine, hblanks]
      exact ih (List.cons_ne_nil second rest) (fun l hl ↦ newline l (List.mem_cons_of_mem _ hl))
        (fun l hl ↦ short l (List.mem_cons_of_mem _ hl)) (hended.atLine _)
        (hnext ▸ hrest)

end SchemeStyle
