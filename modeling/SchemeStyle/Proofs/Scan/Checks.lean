import SchemeStyle.Proofs.Scan.Progress

/-!
# Which check finds what

A rule is checked in one place of the linter, save that tabs are looked for wherever characters are
read. So a violation tells the kind of check that has found it (`Violation.check`), and what is to
be said of the findings of a piece of the linter, such as that none of them is about the imports,
can be said of its kinds of checks. Those are collected here once for each piece (`FoundBy`), from
the effects of a character up to a scan.
-/

namespace SchemeStyle

/-! ### Kinds of checks -/

/-- The kinds of checks. -/
inductive Check where
  /-- Of blank lines in a row. -/
  | blanks
  /-- Of the length of a line and of its end. -/
  | extent
  | tabs
  /-- Of the semicolons of a comment line. -/
  | commentLine
  /-- Of the semicolons of a comment behind spaces or code. -/
  | comment
  | indentation
  /-- Of spaces in a row. -/
  | gaps
  /-- Of what is next to a delimiter or a comment. -/
  | neighbours
  /-- Of where wrappers are closed. -/
  | wrappers
  | ids
  | names
  deriving DecidableEq

/-- The kind of check that finds the violation. -/
def Violation.check : Violation → Check
  | blankLines => .blanks
  | tooLong .. | trailingSpace => .extent
  | tab => .tabs
  | semicolons | banner | missingSpaceAfterSemicolon => .commentLine
  | expectedSpaceAfterSemicolon => .comment
  | indentation => .indentation
  | twoSpaces => .gaps
  | expectedSpaceBeforeSemicolon | expectedSpaceBefore _ | unexpectedSpaceBefore _ => .neighbours
  | wrapperCloser _ => .wrappers
  | idOrder .. => .ids
  | nameOrder .. => .names

variable {violation : Violation} {checks checks' : List Check} {found : List Finding}

/-- The findings are those of checks of some kinds. -/
def FoundBy (checks : List Check) (found : List Finding) : Prop :=
  ∀ finding ∈ found, finding.violation.check ∈ checks

namespace FoundBy

theorem append {a b : List Finding} (ha : FoundBy checks a) (hb : FoundBy checks b) :
    FoundBy checks (a ++ b) :=
  List.forall_mem_append.2 ⟨ha, hb⟩

theorem mono (h : FoundBy checks found) (hchecks : checks ⊆ checks') : FoundBy checks' found :=
  fun finding hmem ↦ hchecks (h finding hmem)

/-- What no check looks for is not found. -/
theorem ne (h : FoundBy checks found) (hcheck : violation.check ∉ checks) :
    ∀ finding ∈ found, finding.violation ≠ violation := by
  rintro finding hmem rfl
  exact hcheck (h finding hmem)

theorem not_mem (h : FoundBy checks found) (hcheck : violation.check ∉ checks) (index : Nat) :
    ⟨index, violation⟩ ∉ found :=
  fun hmem ↦ h.ne hcheck _ hmem rfl

end FoundBy

theorem foundBy_nil : FoundBy checks [] := List.forall_mem_nil _

theorem mem_findingIf {condition : Bool} {index : Nat} {violation : Violation}
    {finding : Finding} :
    finding ∈ findingIf condition index violation ↔
      condition = true ∧ finding = ⟨index, violation⟩ := by
  cases condition <;> simp [findingIf]

theorem foundBy_findingIf (h : violation.check ∈ checks) (condition : Bool) (index : Nat) :
    FoundBy checks (findingIf condition index violation) := by
  rintro finding hmem
  obtain ⟨-, rfl⟩ := mem_findingIf.1 hmem
  exact h

/-! ### Lines as a whole, and comments -/

theorem foundBy_extentFindings (style : Style) (content : List Char) :
    FoundBy [.extent] (extentFindings style content) :=
  (foundBy_findingIf (List.mem_singleton.2 rfl) _ _).append
    (foundBy_findingIf (List.mem_singleton.2 rfl) _ _)

theorem foundBy_tabFindings (index : Nat) (text : List Char) :
    FoundBy [.tabs] (tabFindings index text) := by
  induction text generalizing index with
  | nil => exact foundBy_nil
  | cons c text ih => exact (foundBy_findingIf (by decide) _ index).append (ih (index + 1))

theorem foundBy_afterMarker (index : Nat) (c : Char) (text : List Char) :
    FoundBy [.tabs, .comment] (commentFindings.afterMarker index c text) :=
  ((foundBy_findingIf (by decide) _ index).append (foundBy_findingIf (by decide) _ index)).append
    ((foundBy_tabFindings (index + 1) text).mono (by decide))

theorem foundBy_commentFindings (index : Nat) (text : List Char) :
    FoundBy [.tabs, .comment] (commentFindings index text) := by
  rw [commentFindings.eq_def]
  split
  · exact foundBy_afterMarker _ _ _
  · exact foundBy_afterMarker _ _ _
  · exact foundBy_nil

theorem foundBy_commentLineFindings (line : Nat) (content : List Char) :
    FoundBy [.commentLine] (commentLineFindings line content) := by
  rw [commentLineFindings]
  refine FoundBy.append ?_ ?_
  · split_ifs
    · exact List.forall_mem_singleton.2 (by decide)
    · exact List.forall_mem_singleton.2 (by decide)
    · exact foundBy_nil
  · split
    · exact foundBy_nil
    · exact foundBy_findingIf (by decide) _ _

/-! ### One character -/

theorem foundBy_alignLine (index : Nat) (st : State) :
    FoundBy [.indentation] (alignLine index st).1 := by
  rw [alignLine]
  split_ifs
  · exact foundBy_nil
  · exact foundBy_nil
  · exact foundBy_nil
  · exact List.forall_mem_singleton.2 (List.mem_singleton.2 rfl)

/-- What is found at an operator is about ids. -/
theorem foundBy_finishOperator (style : Style) (token : Token) (index : Nat) (followed : Bool)
    (st : State) : FoundBy [.ids] (finishOperator style token index followed st).1 := by
  rw [finishOperator_eq]
  cases st.imports with
  | inImports => exact foundBy_findingIf (List.mem_singleton.2 rfl) _ _
  | outside | inSection | inDeclaration => exact foundBy_nil

theorem foundBy_nameFindings (cur : Cursor) (st : State) :
    FoundBy [.names] (nameFindings cur st) := by
  rw [nameFindings]
  split
  · exact foundBy_findingIf (List.mem_singleton.2 rfl) _ _
  · exact foundBy_nil

theorem foundBy_openForm (style : Style) (cur : Cursor) (c : Char) (st : State) :
    FoundBy [.neighbours] (openForm style cur c st).findings := by
  unfold openForm
  split
  · exact foundBy_nil
  · exact foundBy_findingIf (List.mem_singleton.2 rfl) _ _

theorem foundBy_closeForm (cur : Cursor) (c : Char) (st : State) :
    FoundBy [.neighbours, .wrappers, .names] (closeForm cur c st).findings := by
  have hfound : FoundBy [.neighbours, .wrappers, .names]
      (findingIf (cur.index != 0 && !st.frames.isEmpty && st.allWrappers) cur.index
          (.wrapperCloser c) ++
        findingIf (cur.prev == some ' ') cur.index (.unexpectedSpaceBefore c) ++
        nameFindings cur st) :=
    ((foundBy_findingIf (by simp [Violation.check]) _ _).append
      (foundBy_findingIf (by simp [Violation.check]) _ _)).append
      ((foundBy_nameFindings cur st).mono (by decide))
  unfold closeForm
  split <;> exact hfound

/-- What a character of code may be found for. -/
def codeChecks : List Check := [.neighbours, .wrappers, .ids, .names]

theorem foundBy_codeChar (style : Style) (cur : Cursor) (operator? : Option Token) (c : Char)
    (st : State) : FoundBy codeChecks (codeChar style cur operator? c st).findings := by
  have hoperator (token : Token) (followed : Bool) :
      FoundBy codeChecks (finishOperator style token cur.index followed st).1 :=
    (foundBy_finishOperator style token cur.index followed st).mono (by decide)
  unfold codeChar
  split_ifs
  · exact foundBy_nil
  · rcases operator? with - | token
    · exact foundBy_findingIf (by decide) _ _
    · exact (hoperator token false).append (foundBy_findingIf (by decide) _ _)
  · exact (foundBy_openForm style cur c st).mono (by decide)
  · exact (foundBy_closeForm cur c st).mono (by decide)
  · rcases operator? with - | token
    · exact (foundBy_nameFindings cur st).mono (by decide)
    · exact hoperator token (c == ' ')
  · rcases operator? with - | token <;> exact foundBy_nil

/-- What is looked for at a character before it is looked at as code. -/
def leadChecks (aligned : Bool) : List Check :=
  if aligned then [.tabs, .gaps, .indentation] else [.tabs, .gaps]

theorem foundBy_leadFindings (aligned : Bool) (cur : Cursor) (c : Char) (st : State) :
    FoundBy (leadChecks aligned) (leadFindings aligned cur c st) := by
  rw [leadFindings]
  refine FoundBy.append (foundBy_findingIf (by cases aligned <;> decide) _ _) ?_
  split_ifs with hindent haligned
  · rw [haligned]
    exact (foundBy_alignLine cur.index st).mono (by decide)
  · exact foundBy_nil
  · exact foundBy_findingIf (by cases aligned <;> decide) _ _

theorem foundBy_step (style : Style) (aligned : Bool) (cur : Cursor) (c : Char) (st : State) :
    FoundBy (leadChecks aligned ++ codeChecks) (step style aligned cur c st).findings := by
  have htab : FoundBy (leadChecks aligned ++ codeChecks) (findingIf (c == '\t') cur.index .tab) :=
    foundBy_findingIf (by cases aligned <;> decide) _ _
  by_cases hstring : cur.mode = .string
  · simp only [step, hstring, Step.after]
    split_ifs <;> exact htab.append foundBy_nil
  by_cases hspace : cur.mode = .indent ∧ c = ' '
  · simp only [step, hspace.1, if_pos hspace.2, Step.after]
    exact htab.append foundBy_nil
  rw [step_of_code hstring fun hmode hc ↦ hspace ⟨hmode, hc⟩]
  exact ((foundBy_leadFindings aligned cur c st).mono (List.subset_append_left _ _)).append
    ((foundBy_codeChar _ _ _ _ _).mono (List.subset_append_right _ _))

/-! ### Scans -/

/-- What a scan looks for, in code and in the comment behind it. -/
def scanChecks (aligned : Bool) : List Check :=
  .comment :: (leadChecks aligned ++ codeChecks)

/-- **A scan looks for nothing but what its kinds of checks do.** -/
theorem foundBy_scan (style : Style) (aligned : Bool) (cur : Cursor) (st : State)
    (text : List Char) :
    FoundBy (scanChecks aligned) (scan style aligned cur st text).findings := by
  induction text generalizing cur st with
  | nil => exact foundBy_nil
  | cons c text ih =>
    have hstep : FoundBy (scanChecks aligned) (step style aligned cur c st).findings :=
      (foundBy_step style aligned cur c st).mono (List.subset_cons_self _ _)
    rw [scan]
    rcases (step style aligned cur c st).next with mode | - | e
    · exact hstep.append (ih _ _)
    · exact hstep.append ((foundBy_commentFindings _ text).mono (by cases aligned <;> decide))
    · exact hstep

end SchemeStyle
