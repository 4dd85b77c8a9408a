import SchemeStyle.Proofs.Lockstep
import SchemeStyle.Proofs.Scan.Checks

/-!
# What a line decides by its characters alone

Some rules of the style guide are about characters next to each other: tabs, spaces, semicolons, the
length of a line. Others are about the form that a line is part of. The linter checks both in one
pass, with one mode and one memory of the character before, and the checks of the second kind keep
changing the state between those of the first. Still the first kind (`Violation.isLexical`) does not
hang on it: two scans of a line find the same of it, whatever is open around the line in either of
them (`lexical_lintLine_eq`). All that counts is whether the line starts in a string, and whether it
is the first of its file.

So the relation that two such scans keep is a weak one, and weaker than a `Lockstep`, in which they
would find all the same: the two states agree on whether a string is open, and stay as far apart in
depth as they were (`Alongside`). What it asks for in return is that neither scan leaves its bounds.
-/

namespace SchemeStyle

variable {style : Style} {aligned : Bool} {s t s' t' : State} {cur : Cursor} {c : Char}
  {d d' : Nat} {cs content : List Char}

/-! ### Lexical findings -/

/-- Whether the rule is about the characters of a line, and not about the form around it nor about
other lines. -/
def Violation.isLexical : Violation → Bool
  | tooLong .. | trailingSpace | tab | semicolons | banner | missingSpaceAfterSemicolon
  | expectedSpaceAfterSemicolon | expectedSpaceBeforeSemicolon | twoSpaces | expectedSpaceBefore _
  | unexpectedSpaceBefore _ => true
  | blankLines | indentation | wrapperCloser _ | idOrder .. | nameOrder .. => false

/-- The findings that are about the characters of the line, in order. -/
def lexical (found : List Finding) : List Finding :=
  found.filter fun finding ↦ finding.violation.isLexical

@[simp] theorem lexical_append (a b : List Finding) :
    lexical (a ++ b) = lexical a ++ lexical b :=
  List.filter_append a b

/-- The kinds of checks that are about the characters of a line. -/
def lexicalChecks : List Check := [.extent, .tabs, .commentLine, .comment, .gaps, .neighbours]

theorem Violation.isLexical_iff {violation : Violation} :
    violation.isLexical = true ↔ violation.check ∈ lexicalChecks := by
  cases violation <;> simp [isLexical, check, lexicalChecks]

/-- What no lexical check has found has nothing lexical in it. -/
theorem FoundBy.lexical_eq_nil {checks : List Check} {found : List Finding}
    (h : FoundBy checks found) (hchecks : ∀ check ∈ lexicalChecks, check ∉ checks) :
    lexical found = [] :=
  List.filter_eq_nil_iff.2 fun finding hmem hlexical ↦
    hchecks _ (Violation.isLexical_iff.1 hlexical) (h finding hmem)

theorem lexical_finishOperator (style : Style) (token : Token) (index : Nat) (followed : Bool)
    (st : State) : lexical (finishOperator style token index followed st).1 = [] :=
  (foundBy_finishOperator style token index followed st).lexical_eq_nil (by decide)

theorem lexical_nameFindings (cur : Cursor) (st : State) : lexical (nameFindings cur st) = [] :=
  (foundBy_nameFindings cur st).lexical_eq_nil (by decide)

/-! ### States alongside each other -/

/-- Both states are in a string or neither is, and the first is as much deeper than `d` as the
second is than `d'`. -/
structure Alongside (d d' : Nat) (s t : State) : Prop where
  inString : s.inString = t.inString
  depth : s.depth + d' = t.depth + d

/-- Only the depth and the open string count. -/
theorem Alongside.congr (h : Alongside d d' s t) (hs : s'.depth = s.depth)
    (ht : t'.depth = t.depth) (hstring : s'.inString = s.inString)
    (hstring' : t'.inString = t.inString) : Alongside d d' s' t' where
  inString := by rw [hstring, hstring', h.inString]
  depth := by rw [hs, ht, h.depth]

/-- Two steps with the same lexical findings, which go on in the same way to states alongside each
other. -/
structure Step.AlikeLexically (d d' : Nat) (a b : Step) : Prop where
  findings : lexical a.findings = lexical b.findings
  next : a.next = b.next
  state : Alongside d d' a.state b.state

theorem Step.AlikeLexically.after {a b : Step} (h : a.AlikeLexically d d' b)
    {found found' : List Finding} (hfound : lexical found = lexical found') :
    (a.after found).AlikeLexically d d' (b.after found') where
  findings := by
    show lexical (found ++ a.findings) = lexical (found' ++ b.findings)
    rw [lexical_append, lexical_append, hfound, h.findings]
  next := h.next
  state := h.state

/-- Two outcomes with the same lexical findings, which leave states alongside each other. -/
structure Outcome.AlikeLexically (d d' : Nat) (o o' : Outcome) : Prop where
  findings : lexical o.findings = lexical o'.findings
  state : Alongside d d' o.state o'.state

theorem Outcome.AlikeLexically.after {o o' : Outcome} (h : o.AlikeLexically d d' o')
    {found found' : List Finding} (hfound : lexical found = lexical found') :
    (o.after found).AlikeLexically d d' (o'.after found') where
  findings := by
    show lexical (found ++ o.findings) = lexical (found' ++ o'.findings)
    rw [lexical_append, lexical_append, hfound, h.findings]
  state := h.state

/-! ### One character -/

namespace Alongside

theorem finishOperator (h : Alongside d d' s t) (style : Style) (token : Token) (index : Nat)
    (followed : Bool) :
    Alongside d d' (finishOperator style token index followed s).2
      (finishOperator style token index followed t).2 :=
  h.congr (depth_finishOperator ..) (depth_finishOperator ..) (inString_finishOperator ..)
    (inString_finishOperator ..)

theorem rememberName (h : Alongside d d' s t) (cur : Cursor) :
    Alongside d d' (rememberName cur s) (rememberName cur t) :=
  h.congr (depth_rememberName ..) (depth_rememberName ..) (inString_rememberName ..)
    (inString_rememberName ..)

theorem openForm_alike (h : Alongside d d' s t) (hs : (openForm style cur c s).InBounds)
    (ht : (openForm style cur c t).InBounds) :
    (openForm style cur c s).AlikeLexically d d' (openForm style cur c t) := by
  unfold openForm at hs ht ⊢
  rcases hpush : s.push style.maxDepth (cur.index + 1) with e | s'
  · rw [hpush] at hs
    exact absurd rfl (hs e)
  rcases hpush' : t.push style.maxDepth (cur.index + 1) with e | t'
  · rw [hpush'] at ht
    exact absurd rfl (ht e)
  obtain ⟨-, rfl⟩ := State.push_eq_ok_iff.1 hpush
  obtain ⟨-, rfl⟩ := State.push_eq_ok_iff.1 hpush'
  have hdepth : s.frames.length + d' = t.frames.length + d := h.depth
  refine ⟨rfl, rfl, h.inString, ?_⟩
  simp only [State.depth, List.length_cons]
  omega

theorem closeForm_alike (h : Alongside d d' s t) (hs : (closeForm cur c s).InBounds)
    (ht : (closeForm cur c t).InBounds) :
    (closeForm cur c s).AlikeLexically d d' (closeForm cur c t) := by
  unfold closeForm at hs ht ⊢
  rcases hframes : s.frames with - | ⟨frame, outer⟩
  · simp only [State.pop, hframes] at hs
    exact absurd rfl (hs .unmatched)
  rcases hframes' : t.frames with - | ⟨frame', outer'⟩
  · simp only [State.pop, hframes'] at ht
    exact absurd rfl (ht .unmatched)
  have hdepth : outer.length + 1 + d' = outer'.length + 1 + d := by
    have := h.depth
    simpa [State.depth, hframes, hframes'] using this
  simp only [State.pop, hframes, hframes']
  refine ⟨?_, rfl, h.inString, ?_⟩
  · have hcloser (condition : Bool) :
        FoundBy [.wrappers] (findingIf condition cur.index (.wrapperCloser c)) :=
      foundBy_findingIf (List.mem_singleton.2 rfl) condition cur.index
    simp only [lexical_append, lexical_nameFindings, (hcloser _).lexical_eq_nil (by decide)]
  · show outer.length + d' = outer'.length + d
    omega

/-- **A character of code is lexically the same** alongside. -/
theorem codeChar_alike (h : Alongside d d' s t) {operator? : Option Token}
    (hs : (codeChar style cur operator? c s).InBounds)
    (ht : (codeChar style cur operator? c t).InBounds) :
    (codeChar style cur operator? c s).AlikeLexically d d' (codeChar style cur operator? c t) := by
  unfold codeChar at hs ht ⊢
  split_ifs at hs ht ⊢
  · exact ⟨rfl, rfl, rfl, h.depth⟩
  · rcases operator? with - | token
    · exact ⟨rfl, rfl, h⟩
    · refine ⟨?_, rfl, h.finishOperator style token cur.index false⟩
      simp only [lexical_append, lexical_finishOperator]
  · exact h.openForm_alike hs ht
  · exact h.closeForm_alike hs ht
  · rcases operator? with - | token
    · refine ⟨?_, rfl, h.rememberName cur⟩
      simp only [lexical_nameFindings]
    · refine ⟨?_, rfl, h.finishOperator style token cur.index (c == ' ')⟩
      simp only [lexical_finishOperator]
  · rcases operator? with - | token <;> exact ⟨rfl, rfl, h⟩

/-- The character that starts a line is checked for where it stands, which is no lexical check. -/
theorem lexical_leadFindings (aligned : Bool) (cur : Cursor) (c : Char) (s t : State) :
    lexical (leadFindings aligned cur c s) = lexical (leadFindings aligned cur c t) := by
  rw [leadFindings, leadFindings, lexical_append, lexical_append]
  split_ifs
  · rw [(foundBy_alignLine cur.index s).lexical_eq_nil (by decide),
      (foundBy_alignLine cur.index t).lexical_eq_nil (by decide)]
  · rfl
  · rfl

/-- **A character is lexically the same alongside**, if it takes neither state out of its bounds. -/
theorem step_alike (h : Alongside d d' s t) (hs : (step style aligned cur c s).InBounds)
    (ht : (step style aligned cur c t).InBounds) :
    (step style aligned cur c s).AlikeLexically d d' (step style aligned cur c t) := by
  by_cases hstring : cur.mode = .string
  · simp only [step, hstring]
    refine Step.AlikeLexically.after ?_ rfl
    split_ifs
    · exact ⟨rfl, rfl, rfl, h.depth⟩
    · exact ⟨rfl, rfl, h⟩
  by_cases hspace : cur.mode = .indent ∧ c = ' '
  · simp only [step, hspace.1, if_pos hspace.2]
    refine Step.AlikeLexically.after ?_ rfl
    exact ⟨rfl, rfl, h⟩
  have hcode : cur.mode = .indent → c ≠ ' ' := fun hmode hc ↦ hspace ⟨hmode, hc⟩
  rw [step_of_code hstring hcode] at hs ht ⊢
  rw [step_of_code hstring hcode]
  have hentered : Alongside d d' (entered aligned cur c s) (entered aligned cur c t) :=
    h.congr (depth_entered ..) (depth_entered ..) (inString_entered ..) (inString_entered ..)
  exact (hentered.codeChar_alike hs ht).after (lexical_leadFindings aligned cur c s t)

/-! ### One line -/

/-- **Two scans of a line find the same of its characters**, if neither leaves its bounds. -/
theorem scan_alike (h : Alongside d d' s t) (hs : (scan style aligned cur s cs).error? = none)
    (ht : (scan style aligned cur t cs).error? = none) :
    (scan style aligned cur s cs).AlikeLexically d d' (scan style aligned cur t cs) := by
  induction cs generalizing cur s t with
  | nil => exact ⟨rfl, h⟩
  | cons c cs ih =>
    rw [scan_cons] at hs ht ⊢
    rw [scan_cons]
    have halike := h.step_alike (Step.inBounds_of_outcome hs) (Step.inBounds_of_outcome ht)
    unfold Step.outcome at hs ht ⊢
    rw [← halike.next] at ht ⊢
    rcases hnext : (step style aligned cur c s).next with mode | - | e
    · rw [hnext] at hs ht
      exact (ih halike.state hs ht).after halike.findings
    · refine ⟨?_, halike.state⟩
      dsimp only
      rw [lexical_append, lexical_append, halike.findings]
    · rw [hnext] at hs
      cases hs

theorem lintTextLine_alike (h : Alongside d d' s t) (hline : s.line = 1 ↔ t.line = 1)
    (hs : (lintTextLine style s content).error? = none)
    (ht : (lintTextLine style t content).error? = none) :
    (lintTextLine style s content).AlikeLexically d d' (lintTextLine style t content) := by
  have h' : Alongside d d' { s with blanks := 0 } { t with blanks := 0 } := ⟨h.inString, h.depth⟩
  unfold lintTextLine at hs ht ⊢
  refine Outcome.AlikeLexically.after ?_ rfl
  by_cases hcomment : content.head? = some ';' ∧ ¬s.inString
  · have hcomment' : content.head? = some ';' ∧ ¬t.inString := h.inString ▸ hcomment
    simp only [if_pos hcomment, if_pos hcomment']
    exact ⟨by rw [commentLineFindings_eq (.inl hline)], h'⟩
  · have hcomment' : ¬(content.head? = some ';' ∧ ¬t.inString) := h.inString ▸ hcomment
    simp only [if_neg hcomment, if_neg hcomment'] at hs ht ⊢
    rw [← congrArg Cursor.start h.inString] at ht ⊢
    exact h'.scan_alike hs ht

end Alongside

/-- **What is found of the characters of a line hangs on nothing but whether it starts in a
string**, and whether it is the first of its file, as long as the nesting keeps its bounds. The same
is true of whether it ends in a string, and of how much deeper it ends than it starts. -/
theorem lexical_lintLine_eq (hblank : isBlankLine content = false)
    (hstring : s.inString = t.inString) (hline : s.line = 1 ↔ t.line = 1)
    (hs : (lintLine style s content).error? = none)
    (ht : (lintLine style t content).error? = none) :
    let o := lintLine style s content
    let o' := lintLine style t content
    lexical o.findings = lexical o'.findings ∧ o.state.inString = o'.state.inString ∧
      o.state.blanks = o'.state.blanks ∧
      (o.state.depth : Int) - s.depth = o'.state.depth - t.depth := by
  have hblanks : (lintLine style s content).state.blanks =
      (lintLine style t content).state.blanks :=
    (blanks_lintLine hblank).trans (blanks_lintLine hblank).symm
  have hlines : ∀ st, lintLine style st content = (lintTextLine style st content).count := by
    intro st
    rw [lintLine, if_neg (Bool.eq_false_iff.1 hblank)]
    rfl
  dsimp only
  rw [hlines] at hs hblanks ⊢
  rw [hlines] at ht hblanks ⊢
  obtain ⟨hfindings, hinString, hdepth⟩ :=
    Alongside.lintTextLine_alike ⟨hstring, Nat.add_comm s.depth t.depth⟩ hline hs ht
  refine ⟨hfindings, hinString, hblanks, ?_⟩
  show ((lintTextLine style s content).state.depth : Int) - s.depth =
    (lintTextLine style t content).state.depth - t.depth
  omega

/-- A line amid the names of an import declaration, and the same line in a wrapper after blank
lines. Seven of its findings are lexical; those about its indentation and about a name differ. -/
theorem lexical_lintLine_eq_of_declaration :
    let s := (lintLines .standard {} ["(Chapter 1".toList, "  (use (:1 '(b".toList]).state
    let t := (lintLines .standard {} ["(library".toList, "".toList, "".toList]).state
    let content := "a(\"(\"  [b ) \t'c;d ".toList
    let o := lintLine .standard s content
    let o' := lintLine .standard t content
    ((Reachable .standard s ∧ Reachable .standard t) ∧ isBlankLine content = false ∧
        s.inString = t.inString ∧ (s.line = 1 ↔ t.line = 1) ∧ o.error? = none ∧
        o'.error? = none) ∧
      (lexical o.findings).length = 7 ∧ o.findings ≠ o'.findings ∧
      lexical o.findings = lexical o'.findings ∧ o.state.inString = o'.state.inString ∧
      o.state.blanks = o'.state.blanks ∧
      (o.state.depth : Int) - s.depth = o'.state.depth - t.depth := by
  intro s t content o o'
  have hblank : isBlankLine content = false := by decide
  have hstring : s.inString = t.inString := by decide +kernel
  have hline : s.line = 1 ↔ t.line = 1 := by decide +kernel
  have hs : o.error? = none := by decide +kernel
  have ht : o'.error? = none := by decide +kernel
  exact ⟨⟨⟨Reachable.start.lintLines _, Reachable.start.lintLines _⟩, hblank, hstring, hline, hs,
    ht⟩, by decide +kernel, by decide +kernel, lexical_lintLine_eq hblank hstring hline hs ht⟩

end SchemeStyle
