import SchemeStyle.Proofs.Layout.Elements

/-!
# Conforming code is silent

The linter never sees a tree, only characters, but after every form it is in the state it had before
the form, save for the number of the line, and after every element of a list the innermost frame
holds the column that the convention asks for. So a tree that is rendered by the convention is read
without a finding, whatever its breaks are (`reads_form`, `reads_tail`), and a page of such trees is
linted without one (`lintText_of_conforms`).
-/

namespace SchemeStyle.Layout

variable {style : Style} {cur : Cursor} {st : State}

/-! ### Trees -/

/-- The mode after a tree: an atom right after an opening delimiter is read as an operator. -/
def Form.modeAfter (mode : Mode) : Form → Mode
  | .atom a => a.chars.foldl Mode.read mode
  | _ => .code

theorem foldl_read_code (chars : List Char) : chars.foldl Mode.read .code = .code := by
  induction chars with
  | nil => rfl
  | cons c chars ih => exact ih

theorem foldl_read_operator (chars : List Char) (token : Token) :
    chars.foldl Mode.read (.operator token) =
      .operator ⟨token.start, chars.reverse ++ token.chars⟩ := by
  induction chars generalizing token with
  | nil => rfl
  | cons c chars ih =>
    rw [List.foldl_cons, Mode.read, ih, Token.push, List.reverse_cons, List.append_assoc]
    rfl

/-- No operator is read but right after an opening delimiter. -/
theorem Form.modeAfter_of_operator?_eq_none {mode : Mode} (h : mode.operator? = none) (f : Form) :
    f.modeAfter mode = .code := by
  cases f with
  | atom a =>
    obtain ⟨c, chars, hchars⟩ := List.exists_cons_of_ne_nil a.ne_nil
    have hread : mode.read c = .code := by
      cases mode with
      | operator token => cases h
      | _ => rfl
    rw [modeAfter, hchars, List.foldl_cons, hread, foldl_read_code]
  | _ => rfl

theorem newline_notMem_atom (a : Atom) : '\n' ∉ a.chars :=
  fun h ↦ a.plain _ h (by decide)

/-- The lines of a list that follow its first are indented. -/
theorem bodyColumn_pos (style : Style) (column : Nat) (head : Form) (tail : Tail) :
    0 < bodyColumn style column head tail := by
  unfold bodyColumn
  split
  · dsimp only
    split_ifs <;> omega
  · split_ifs <;> omega
  · omega

/-- Inside a list nothing starts at column zero but where a line does. -/
theorem columnAfter_break_pos {body : Nat} (hbody : 0 < body) (column : Nat) (gap : Break) :
    0 < columnAfter column (gap.render body) := by
  cases gap with
  | space => exact Nat.succ_pos column
  | newline =>
    rw [Break.render, columnAfter_newline, columnAfter_of_notMem (by simp)]
    simpa using hbody

/-- The first break of a list sets the column that the convention asks for. -/
theorem leads_first {bracket : Bracket} {head : Form} {column : Nat} {tail : Tail}
    (ordinary : column = 0 → Form.IsOrdinary style (.list bracket head tail))
    (h : Settled (head.modeAfter (.operator ⟨column + 1, []⟩)) cur)
    (hindex : cur.index = columnAfter (column + 1) (head.render style (column + 1)))
    (calm : st.Calm) (gap : Break) (item : Form) (rest : Tail) :
    Leads style cur (st.inside (column + 1 : Nat)) gap
      (bodyColumn style column head (.cons gap item rest)) := by
  cases head with
  | atom a =>
    rw [Form.modeAfter, foldl_read_operator, List.append_nil] at h
    rw [Form.render, columnAfter_of_notMem (newline_notMem_atom a)] at hindex
    exact leads_of_operator (ordinary_operator ordinary) h hindex calm gap item rest
  | _ => cases gap <;> exact leads_of_code h calm _

mutual

/-- **A tree that is rendered is read**, from wherever an element may start. -/
theorem reads_form (f : Form) {column : Nat} {cur : Cursor} {st : State}
    (h : Ready column cur st) (calm : st.Calm) (room : st.depth + f.height < style.maxDepth)
    (ordinary : column = 0 → f.IsOrdinary style) :
    ∃ last line, Reads style cur st (f.render style column) last (st.atLine line) ∧
      Settled (f.modeAfter cur.mode) last := by
  match f with
  | .atom a =>
    obtain ⟨last, hread, hlast⟩ := reads_atom a h.quiet
    exact ⟨last, st.line, hread, hlast⟩
  | .literal l =>
    obtain ⟨last, hread, hlast⟩ := reads_literal l h.quiet calm
    exact ⟨last, st.line, hread, hlast⟩
  | .empty bracket =>
    have hroom : st.depth + 1 < style.maxDepth := room
    obtain ⟨mid, hopen, -, hmid⟩ := reads_opening bracket h calm hroom
    obtain ⟨last, hclose, hlast⟩ := reads_closing bracket hmid calm
    exact ⟨last, st.line, hopen.append hclose, hlast⟩
  | .list bracket head tail =>
    have hheight : st.depth + (max head.height tail.height + 1) < style.maxDepth := room
    have hroom : st.depth + 1 < style.maxDepth := by omega
    have hroom' : st.depth + 1 + head.height < style.maxDepth := by omega
    have hroom'' : st.depth + 1 + tail.height < style.maxDepth := by omega
    obtain ⟨first, hopen, hfirst, hmode⟩ := reads_opening bracket h calm hroom
    obtain ⟨mid, line, hhead, hmid⟩ := reads_form head hfirst (calm.inside _) hroom'
      fun hzero ↦ absurd hzero (Nat.succ_ne_zero column)
    rw [hmode.mode] at hmid
    have hindex : mid.index = columnAfter (column + 1) (head.render style (column + 1)) := by
      rw [hhead.index_eq, hfirst.index]
    have hstart := hopen.append hhead
    have hcolumn := hstart.index_eq
    rw [h.index] at hcolumn
    -- The first break applies the operator, if the head is one; no other break of the list does.
    have lead : ∀ gap item rest, tail = .cons gap item rest →
        Leads style mid ((st.atLine line).inside (column + 1 : Nat)) gap
          (bodyColumn style column head tail) := by
      rintro gap item rest rfl
      exact leads_first ordinary hmid hindex (calm.atLine line) gap item rest
    obtain ⟨mid', line', mode', expected', htail, hmid'⟩ := reads_tail tail hmid hcolumn
      (calm.atLine line) (bodyColumn_pos style column head tail) lead hroom''
    obtain ⟨last, hclose, hlast⟩ := reads_closing bracket hmid' (calm.atLine line')
    exact ⟨last, line', (hstart.append htail).append hclose, hlast⟩

/-- **The elements of a list that follow its first are read**, if the first break leads to the
column they are rendered for. -/
theorem reads_tail (tail : Tail) {column body : Nat} {mode : Mode} {expected : Int} {cur : Cursor}
    {st : State} (h : Settled mode cur) (hindex : cur.index = column) (calm : st.Calm)
    (hbody : 0 < body)
    (lead : ∀ gap item rest, tail = .cons gap item rest →
      Leads style cur (st.inside expected) gap body)
    (room : st.depth + 1 + tail.height < style.maxDepth) :
    ∃ last line mode' expected', Reads style cur (st.inside expected)
        (tail.render style body column) last ((st.atLine line).inside expected') ∧
      Settled mode' last := by
  match tail with
  | .nil => exact ⟨cur, st.line, mode, expected, .nil cur _, h⟩
  | .cons gap item rest =>
    have hheight : st.depth + 1 + max item.height rest.height < style.maxDepth := room
    have hroom : st.depth + 1 + item.height < style.maxDepth := by omega
    have hroom' : st.depth + 1 + rest.height < style.maxDepth := by omega
    obtain ⟨mid, line, hbreak, hmid, hmode⟩ := reads_break h hindex calm (lead gap item rest rfl)
    have hpos := columnAfter_break_pos hbody column gap
    have calm' := (calm.atLine line).inside body
    obtain ⟨next, line', hitem, hnext⟩ := reads_form item hmid calm' hroom
      fun hzero ↦ absurd hzero (Nat.ne_of_gt hpos)
    rw [Form.modeAfter_of_operator?_eq_none hmode] at hnext
    have hstart := hbreak.append hitem
    have hcolumn := hstart.index_eq
    rw [hindex] at hcolumn
    obtain ⟨last, line'', mode', expected', hrest, hlast⟩ := reads_tail rest hnext hcolumn
      (calm.atLine line') hbody (fun gap _ _ _ ↦ leads_of_code hnext (calm.atLine line') gap) hroom'
    exact ⟨last, line'', mode', expected', hstart.append hrest, hlast⟩

end

/-! ### Pages -/

/-- The state between two paragraphs. -/
structure Between (st : State) : Prop where
  calm : st.Calm
  frames : st.frames = []
  blanks : st.blanks = 0

/-- A tree on lines of its own is read to the end of its last line. -/
theorem reads_line {f : Form} (h : Between st) (height : f.height < style.maxDepth)
    (ordinary : f.IsOrdinary style) :
    ∃ next, Reads style (.start false) st (f.render style 0 ++ ['\n']) (.start false) next ∧
      Between next ∧ joinLines (splitLines (f.render style 0)) = f.render style 0 ++ ['\n'] := by
  have hready : Ready 0 (.start false) st := by
    refine ⟨⟨rfl, by simp [Cursor.start], fun _ ↦ ?_⟩, rfl, by simp [Cursor.start]⟩
    rw [State.expected, h.frames]
    exact h.calm.base
  have hroom : st.depth + f.height < style.maxDepth := by
    rwa [State.depth, h.frames, List.length_nil, Nat.zero_add]
  obtain ⟨last, line, hread, hlast⟩ := reads_form f hready h.calm hroom fun _ ↦ ordinary
  obtain ⟨p, hprev, hp⟩ := hlast.prev
  rw [Form.modeAfter_of_operator?_eq_none rfl] at hlast
  have calm := h.calm.atLine line
  have hnewline : ∀ aligned, step style aligned last '\n' (st.atLine line) =
      { state := st.atLine line, next := .go .code } := by
    intro aligned
    rw [hlast.quiet.step_eq (fun _ ↦ by decide) (by decide),
      codeChar_of_break (by rw [hlast.mode]; rfl) calm.imports (.inr rfl)]
  refine ⟨(st.atLine line).nextLine, hread.append (.newline hprev hp hnewline calm (.nil _ _)),
    ⟨calm.atLine _, h.frames, h.blanks⟩, ?_⟩
  rcases hread.getLast?_eq hprev with ⟨hend, hne⟩ | ⟨-, hstart⟩
  · refine joinLines_splitLines_of_unended (fun hnil ↦ ?_) (by simp [hend, hne])
    rw [hnil] at hend
    cases hend
  · cases hstart

/-- The lines of a paragraph pass. -/
theorem passes_paragraph {p : Paragraph} (h : Between st) (height : p.form.height < style.maxDepth)
    (ordinary : p.form.IsOrdinary style)
    (short : ∀ line ∈ p.lines style, line.length ≤ style.maxColumns) :
    ∃ next, Passes style st (p.lines style) next ∧ Between next := by
  have hform : ∀ {s : State}, s.Calm → Between { s with blanks := 0 } →
      ∃ next, Passes style s (splitLines (p.form.render style 0)) next ∧ Between next := by
    intro s hs hbetween
    obtain ⟨next, hread, hnext, hjoin⟩ := reads_line hbetween height ordinary
    rw [← hjoin] at hread
    refine ⟨next, passes_of_reads ?_ (fun _ hl ↦ newline_notMem_of_mem_splitLines hl) ?_ hs hread,
      hnext⟩
    · intro hnil
      rw [hnil] at hjoin
      simp at hjoin
    · exact fun line hl ↦ short line (List.mem_append_right _ hl)
  rw [Paragraph.lines]
  split_ifs
  · obtain ⟨next, hpass, hnext⟩ := @hform { st.nextLine with blanks := 1 }
      (h.calm.recount _ _ _) ⟨h.calm.recount _ _ _, h.frames, rfl⟩
    exact ⟨next, .empty h.calm h.blanks hpass, hnext⟩
  · obtain ⟨next, hpass, hnext⟩ := hform h.calm ⟨h.calm.recount _ _ _, h.frames, rfl⟩
    exact ⟨next, hpass, hnext⟩

theorem passes_page {page : List Paragraph} (h : Between st)
    (height : ∀ p ∈ page, p.form.height < style.maxDepth)
    (ordinary : ∀ p ∈ page, p.form.IsOrdinary style)
    (short : ∀ line ∈ pageLines style page, line.length ≤ style.maxColumns) :
    ∃ final, Passes style st (pageLines style page) final := by
  induction page generalizing st with
  | nil => exact ⟨st, .nil st⟩
  | cons p page ih =>
    rw [pageLines, List.flatMap_cons] at short
    obtain ⟨hp, hpage⟩ := List.forall_mem_append.1 short
    obtain ⟨next, hpass, hnext⟩ := passes_paragraph h (height p List.mem_cons_self)
      (ordinary p List.mem_cons_self) hp
    obtain ⟨final, hrest⟩ := ih hnext (fun q hq ↦ height q (List.mem_cons_of_mem _ hq))
      (fun q hq ↦ ordinary q (List.mem_cons_of_mem _ hq)) hpage
    exact ⟨final, hpass.append hrest⟩

/-- The lines of a page that conforms pass, from the start of a file on. -/
theorem Conforms.passes {page : List Paragraph} (h : Conforms style page) :
    ∃ final, Passes style {} (pageLines style page) final :=
  passes_page ⟨.start, rfl, rfl⟩ h.height_lt h.ordinary h.length_le

/-- **Code that follows the convention is not flagged.** A text whose lines are those of a page that
conforms is linted to its end, and nothing is found in it. -/
theorem lintText_of_conforms {page : List Paragraph} (h : Conforms style page) {text : String}
    (htext : splitLines text.toList = pageLines style page) :
    (lintText style text).failure? = none ∧
      ∀ file, (lintText style text).diagnostics file = [] := by
  obtain ⟨final, hpass⟩ := h.passes
  rw [lintText, htext, hpass.lintLines_eq]
  exact ⟨rfl, fun _ ↦ rfl⟩

/-- A definition whose body is a list in square brackets, and after an empty line a name. -/
def samplePage : List Paragraph :=
  [⟨.list .round (.atom ⟨['d', 'e', 'f', 'i', 'n', 'e'], by simp, by simp⟩)
      (.cons .space (.atom ⟨['x'], by simp, by simp⟩)
        (.cons .newline
          (.list .square (.atom ⟨['l', 'i', 's', 't'], by simp, by simp⟩)
            (.cons .space (.literal ⟨[.plain ';' (by simp), .escaped '"' (by simp)]⟩)
              (.cons .newline (.empty .round) .nil)))
          .nil)), false⟩,
    ⟨.atom ⟨['y'], by simp, by simp⟩, true⟩]

theorem lintText_samplePage :
    Conforms .standard samplePage ∧
      (lintText .standard "(define x\n  [list \";\\\"\"\n        ()])\n\ny").failure? = none ∧
      ∀ file, (lintText .standard "(define x\n  [list \";\\\"\"\n        ()])\n\ny").diagnostics
        file = [] := by
  have h : Conforms .standard samplePage :=
    ⟨by decide +kernel, by decide +kernel, by decide +kernel⟩
  exact ⟨h, lintText_of_conforms h (by decide +kernel)⟩

end SchemeStyle.Layout
