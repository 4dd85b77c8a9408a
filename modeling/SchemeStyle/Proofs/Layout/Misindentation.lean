import SchemeStyle.Proofs.Layout.Silence
import SchemeStyle.Proofs.Nesting.Agreement

/-!
# Misindented lines are caught

A line of a page that conforms has one right column, the one expected where it starts: the two
exceptions that the check of a line's start makes are for wrappers and for quoted forms, and neither
is open there (`State.Calm`). Moved to any other column, the line is reported, and nothing is before
it (`lintText_of_misindented`). Two further facts are needed for the report to get that far. No line
of the page ends in the mark that turns the check off, because the semicolon of the mark could stand
in a string only, which its quote would have to close (`aligns_of_reads`). And spaces at the start
of a line do not change the nesting of the text (`failure_eq_none_of_respaced`).
-/

namespace SchemeStyle

variable {style : Style} {cur last : Cursor} {st final : State} {c : Char}

/-! ### The mark that turns the check off -/

/-- Nothing but a quote leads out of a string. -/
theorem next_of_string (style : Style) (st : State) (hmode : cur.mode = .string) (hc : c ≠ '"')
    (aligned : Bool) : (step style aligned cur c st).next = .go .string := by
  simp [step, hmode, hc, Step.after]

namespace Reads

/-- A string that is open is closed before the line ends. -/
theorem quote_mem_of_string {rest : List Char}
    (h : Reads style cur st (rest ++ ['\n']) last final) (hmode : cur.mode = .string)
    (hrest : '\n' ∉ rest) : '"' ∈ rest := by
  induction rest generalizing cur st with
  | nil =>
    cases h with
    | char ne => exact absurd rfl ne
    | newline _ _ quiet =>
      have hnext := next_of_string style st hmode (show '\n' ≠ '"' by decide) true
      rw [quiet true] at hnext
      cases hnext
  | cons c rest ih =>
    by_cases hc : c = '"'
    · exact hc ▸ List.mem_cons_self
    · cases h with
      | char ne quiet hread =>
        have hnext := next_of_string style st hmode hc true
        rw [quiet true] at hnext
        obtain rfl := Next.go.inj hnext
        exact List.mem_cons_of_mem c (ih hread rfl fun hm ↦ hrest (List.mem_cons_of_mem c hm))
      | newline => exact absurd List.mem_cons_self hrest

/-- A semicolon is read in strings only, so a quote follows it on its line. -/
theorem quote_mem_of_semicolon {rest : List Char}
    (h : Reads style cur st (';' :: rest ++ ['\n']) last final) (hrest : '\n' ∉ rest) :
    '"' ∈ rest := by
  cases h with
  | char _ quiet hread =>
    have hmode := mode_of_semicolon (congrArg Step.next (quiet true))
    have hnext := next_of_string style st hmode (show ';' ≠ '"' by decide) true
    rw [quiet true] at hnext
    obtain rfl := Next.go.inj hnext
    exact hread.quote_mem_of_string rfl hrest

end Reads

/-- **A line that is read does not end in the mark of the standard**, whatever spaces are put in
front of it. -/
theorem aligns_of_reads {body : List Char} (hmark : style.noAlignMark = Style.standard.noAlignMark)
    (h : Reads style cur st (body ++ ['\n']) last final) (k : Nat) :
    style.aligns (List.replicate k ' ' ++ body) = true := by
  rw [Style.aligns, hmark, Bool.not_eq_true', Bool.eq_false_iff]
  intro hsuffix
  have htext : Style.standard.noAlignMark.toList = ';' :: " NOALIGN".toList := by decide +kernel
  rw [List.isSuffixOf_iff_suffix, htext] at hsuffix
  -- The semicolon is none of the spaces, so the whole mark would stand in what is read.
  obtain ⟨before, hbefore⟩ := hsuffix
  have hbody : ∃ lead, body = lead ++ ';' :: " NOALIGN".toList := by
    rcases List.append_eq_append_iff.1 hbefore with ⟨lead, hspaces, hmark⟩ | ⟨lead, -, hbody⟩
    · rcases lead with - | ⟨d, lead⟩
      · exact ⟨[], hmark.symm⟩
      · obtain rfl := (List.cons.inj hmark).1
        have hmem : ';' ∈ List.replicate k ' ' := by rw [hspaces]; simp
        exact absurd (List.eq_of_mem_replicate hmem) (by decide)
    · exact ⟨lead, hbody⟩
  obtain ⟨lead, rfl⟩ := hbody
  rw [List.append_assoc] at h
  obtain ⟨mid, st', -, hread⟩ := h.of_append
  exact absurd (hread.quote_mem_of_semicolon (by decide)) (by decide)

/-! ### The start of a line -/

/-- What the check of a line's start finds is found. -/
theorem mem_step_of_mem_alignLine {finding : Finding} (hmode : cur.mode = .indent) (hc : c ≠ ' ')
    (h : finding ∈ (alignLine cur.index st).1) :
    finding ∈ (step style true cur c st).findings := by
  rw [step, hmode]
  simp [hc, Step.after, h]

/-- What is found at a character is found by the scan. -/
theorem mem_scan_of_mem_step {finding : Finding} {aligned : Bool} {cs : List Char}
    (h : finding ∈ (step style aligned cur c st).findings) :
    finding ∈ (scan style aligned cur st (c :: cs)).findings := by
  rw [scan]
  rcases (step style aligned cur c st).next with mode | - | e
  · exact List.mem_append_left _ h
  · exact List.mem_append_left _ h
  · exact h

theorem Reads.of_spaces {k : Nat} {text : List Char}
    (h : Reads style (.start false) st (List.replicate k ' ' ++ text) last final) :
    ∃ mid, mid.mode = .indent ∧ mid.index = k ∧ Reads style mid st text last final := by
  obtain ⟨mid, st', hread, htext⟩ := h.of_append
  obtain ⟨mid', hspaces, hmode, -, hindex⟩ := reads_spaces style st k
  obtain ⟨rfl, rfl⟩ := hread.unique hspaces
  exact ⟨mid, hmode, hindex, htext⟩

/-- A line that is read starts at the column that is expected. -/
theorem eq_expected_of_reads {text : List Char} (calm : st.Calm) (hmode : cur.mode = .indent)
    (hspace : c ≠ ' ') (hnewline : c ≠ '\n') (h : Reads style cur st (c :: text) last final) :
    (cur.index : Int) = st.expected := by
  rcases Decidable.em ((cur.index : Int) = st.expected) with heq | hne
  · exact heq
  · have halign : ⟨cur.index, .indentation⟩ ∈ (alignLine cur.index st).1 := by
      rw [calm.alignLine_of_ne hne]
      exact List.mem_singleton_self _
    have hfound : ⟨cur.index, .indentation⟩ ∈ (step style true cur c st).findings :=
      mem_step_of_mem_alignLine hmode hspace halign
    cases h with
    | char _ quiet =>
      rw [quiet true] at hfound
      cases hfound
    | newline => exact absurd rfl hnewline

/-- **A line that is read is reported once it starts at another column.** -/
theorem mem_lintLine_of_misindented {indent k : Nat} {body : List Char} {next : State}
    (hmark : style.noAlignMark = Style.standard.noAlignMark) (calm : st.Calm) (hspace : c ≠ ' ')
    (hnewline : c ≠ '\n')
    (h : Reads style (.start false) { st with blanks := 0 }
      (List.replicate indent ' ' ++ (c :: body ++ ['\n'])) last next)
    (hk : k ≠ indent) :
    ⟨k, .indentation⟩ ∈ (lintLine style st (List.replicate k ' ' ++ c :: body)).findings := by
  -- The line was read from its own column, so that one is expected, and the other is not.
  have calm' := calm.recount st.line 0 st.flagged
  obtain ⟨mid, hmode, hindex, hread⟩ := h.of_spaces
  have hexpected := eq_expected_of_reads calm' hmode hspace hnewline hread
  obtain ⟨start, hspaces, hstart, -, hcolumn⟩ := reads_spaces style { st with blanks := 0 } k
  have hne : (start.index : Int) ≠ State.expected { st with blanks := 0 } := by
    rw [← hexpected, hindex, hcolumn]
    exact fun heq ↦ hk (Int.ofNat.inj heq)
  have hstep : ⟨k, .indentation⟩ ∈ (step style true start c { st with blanks := 0 }).findings := by
    refine mem_step_of_mem_alignLine hstart hspace ?_
    rw [calm'.alignLine_of_ne hne, hcolumn]
    exact List.mem_singleton_self _
  have hblank : isBlankLine (List.replicate k ' ' ++ c :: body) = false := by
    rw [isBlankLine, List.all_eq_false]
    exact ⟨c, by simp, by simpa using hspace⟩
  have hhead : (List.replicate k ' ' ++ c :: body).head? ≠ some ';' := by
    rcases k with - | k
    · have hne := hread.ne_semicolon (by simp [hmode])
      simpa using hne
    · simp [List.replicate_succ]
  rw [lintLine, hblank, if_neg (by simp), lintTextLine_of_code calm.inString hhead,
    aligns_of_reads hmark hread, List.append_assoc, hspaces.scan_append (by simp)]
  exact List.mem_append_right _ (mem_scan_of_mem_step hstep)

/-- Of lines that pass, one that is not blank is reported once it starts at another column. -/
theorem mem_lintLine_of_passes {indent k : Nat} {body : List Char} {post : List (List Char)}
    (hmark : style.noAlignMark = Style.standard.noAlignMark) (hspace : c ≠ ' ')
    (hnewline : c ≠ '\n')
    (h : Passes style st ((List.replicate indent ' ' ++ c :: body) :: post) final)
    (hk : k ≠ indent) :
    ⟨k, .indentation⟩ ∈ (lintLine style st (List.replicate k ' ' ++ c :: body)).findings := by
  generalize hline : List.replicate indent ' ' ++ c :: body = line at h
  cases h with
  | empty => simp at hline
  | text calm _ _ hread _ =>
    rw [← hline, List.append_assoc] at hread
    exact mem_lintLine_of_misindented hmark calm hspace hnewline hread hk

/-! ### The text -/

/-- Lines are linted to their end whatever the number of spaces that one of them starts with. -/
theorem failure_eq_none_of_respaced {pre post : List (List Char)} {body : List Char}
    {indent : Nat}
    (hlines : ∀ line ∈ pre ++ (List.replicate indent ' ' ++ body) :: post, '\n' ∉ line)
    (h : (lintLines style {} (pre ++ (List.replicate indent ' ' ++ body) :: post)).failure? = none)
    (k : Nat) :
    (lintLines style {} (pre ++ (List.replicate k ' ' ++ body) :: post)).failure? = none := by
  have hjoin : ∀ k, joinLines (pre ++ (List.replicate k ' ' ++ body) :: post) =
      joinLines pre ++ (List.replicate k ' ' ++ (body ++ '\n' :: joinLines post)) := by
    intro k
    rw [joinLines_append, joinLines_cons, List.append_assoc]
  have hpreLines : ∀ line ∈ pre, '\n' ∉ line := fun l hl ↦ hlines l (List.mem_append_left _ hl)
  have hwithin := (within_of_lintLines hlines startsLine_start (inBounds_start style) h).1
  rw [hjoin, Nesting.within_append_iff] at hwithin
  obtain ⟨hpre, hline⟩ := hwithin
  -- The nesting at the start of the line escapes nothing, so it passes over any number of spaces.
  have hregion := (within_of_lintLines hpreLines startsLine_start (inBounds_start style)
    (failure_eq_none_of_append h)).2.region_ne
  rw [Nesting.within_append_iff, Nesting.run_spaces hregion] at hline
  refine failure_eq_none_of_within ?_ startsLine_start ?_
  · intro line hl
    rcases List.mem_append.1 hl with hl | hl
    · exact hpreLines line hl
    · rcases List.mem_cons.1 hl with rfl | hl
      · have horiginal := hlines _ (List.mem_append_right pre List.mem_cons_self)
        simpa using horiginal
      · exact hlines line (List.mem_append_right _ (List.mem_cons_of_mem _ hl))
  · rw [hjoin, Nesting.within_append_iff, Nesting.within_append_iff, Nesting.run_spaces hregion]
    exact ⟨hpre, Nesting.within_spaces hpre.inBounds_run hregion k, hline.2⟩

namespace Layout

/-- **A misindented line is caught.** Let the lines of a text be those of a page that conforms, but
for the number of spaces that one of them, which is not blank, starts with. Then the text is linted
to its end, the line is reported for its indentation at its first character that is no space, and
nothing is found before it. -/
theorem lintText_of_misindented {page : List Paragraph} (h : Conforms style page)
    (hmark : style.noAlignMark = Style.standard.noAlignMark) {pre post : List (List Char)}
    {indent k : Nat} {body : List Char}
    (hpage : pageLines style page = pre ++ (List.replicate indent ' ' ++ c :: body) :: post)
    (hspace : c ≠ ' ') (hk : k ≠ indent) {text : String}
    (htext : splitLines text.toList = pre ++ (List.replicate k ' ' ++ c :: body) :: post) :
    (lintText style text).failure? = none ∧ ∀ file,
      ⟨file, pre.length + 1, k + 1, "incorrect indentation"⟩ ∈
        (lintText style text).diagnostics file ∧
      ∀ d ∈ (lintText style text).diagnostics file, pre.length + 1 ≤ d.line := by
  obtain ⟨final, hpass⟩ := h.passes
  rw [hpage] at hpass
  have horiginal : (lintLines style {} (pre ++ (List.replicate indent ' ' ++ c :: body) ::
      post)).failure? = none := by
    rw [hpass.lintLines_eq]
  have hends := failure_eq_none_of_respaced hpass.newline_notMem horiginal k
  have hnewline : c ≠ '\n' := by
    rintro rfl
    exact hpass.newline_notMem _ (List.mem_append_right pre List.mem_cons_self) (by simp)
  obtain ⟨mid, hpre, hline⟩ := hpass.of_append
  have hfound := mem_lintLine_of_passes hmark hspace hnewline hline hk
  -- The lines before are silent, so what is found is found from the line on.
  have hsilent := hpre.lintLines_eq
  have hcount : (lintLines style {} pre).state.line = 1 + pre.length :=
    line_lintLines (by rw [hsilent])
  have hmid : mid.line = pre.length + 1 := by
    rw [hsilent] at hcount
    exact hcount.trans (Nat.add_comm 1 _)
  have hreport := lintLines_append (b := (List.replicate k ' ' ++ c :: body) :: post)
    (by rw [hsilent] : (lintLines style {} pre).failure? = none)
  rw [hsilent, List.nil_append] at hreport
  rw [hreport] at hends
  rw [lintText, htext]
  refine ⟨by rw [hreport]; exact hends, fun file ↦ ⟨?_, fun d hd ↦ ?_⟩⟩
  · refine List.mem_map.2 ⟨(mid.line, ⟨k, .indentation⟩), ?_, ?_⟩
    · rw [hreport, lintLines_cons_of_ok (error_eq_none_of_lintLines hends)]
      exact List.mem_append_left _ (List.mem_map_of_mem hfound)
    · rw [hmid]
      rfl
  · obtain ⟨found, hmem, rfl⟩ := List.mem_map.1 hd
    rw [hreport] at hmem
    have hle := line_le_of_mem_lintLines hmem
    rw [hmid] at hle
    exact Int.ofNat_le.2 hle

/-- Moved to column zero the third line is reported. -/
theorem lintText_samplePage_moved :
    Conforms .standard samplePage ∧
      (lintText .standard "(define x\n  [list \";\\\"\"\n()])\n\ny").failure? = none ∧ ∀ file,
      ⟨file, 3, 1, "incorrect indentation"⟩ ∈
        (lintText .standard "(define x\n  [list \";\\\"\"\n()])\n\ny").diagnostics file ∧
      ∀ d ∈ (lintText .standard "(define x\n  [list \";\\\"\"\n()])\n\ny").diagnostics file,
        3 ≤ d.line := by
  have h : Conforms .standard samplePage :=
    ⟨by decide +kernel, by decide +kernel, by decide +kernel⟩
  have hpage : pageLines .standard samplePage = ["(define x".toList, "  [list \";\\\"\"".toList] ++
      (List.replicate 8 ' ' ++ '(' :: [')', ']', ')']) :: [[], ['y']] := by decide +kernel
  have htext : splitLines "(define x\n  [list \";\\\"\"\n()])\n\ny".toList =
      ["(define x".toList, "  [list \";\\\"\"".toList] ++
        (List.replicate 0 ' ' ++ '(' :: [')', ']', ')']) :: [[], ['y']] := by decide +kernel
  exact ⟨h, lintText_of_misindented h rfl hpage (by decide) (by decide) htext⟩

end Layout

end SchemeStyle
