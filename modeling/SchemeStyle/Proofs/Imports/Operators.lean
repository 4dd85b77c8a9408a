import SchemeStyle.Proofs.Imports.Block
import SchemeStyle.Proofs.Imports.Elements
import SchemeStyle.Proofs.Imports.Reports
import SchemeStyle.Proofs.Scan.Lockstep

/-!
# What operators do to the imports

Which import forms are open, and which id is the last one, is decided where operators end and where
forms are closed. `ImportContext.operate` says what an operator does to the import forms, and
`ImportContext.disorder` what is reported of it; a character that ends no operator is not reported
for any id (`idReports_codeChar`). Names have no part in this.
-/

namespace SchemeStyle

open Imports (Position idDisorder)

/-! ### Diagnostics about ids -/

/-- Whether a diagnostic is about the order of ids: those that are start with the same words. -/
def Diagnostic.isIdOrder (d : Diagnostic) : Bool :=
  "incorrect import id ordering: ".toList.isPrefixOf d.message.toList

/-- Whether a violation is one of the order of ids. -/
def Violation.isIdOrder : Violation → Bool
  | idOrder .. => true
  | _ => false

theorem Violation.check_of_isIdOrder {violation : Violation} (h : violation.isIdOrder = true) :
    violation.check = .ids := by
  cases violation with
  | idOrder => rfl
  | _ => cases h

/-- No other message starts with the words of those about ids. -/
@[simp] theorem Diagnostic.isIdOrder_ofFinding (file : String) (line : Nat) (finding : Finding) :
    (ofFinding file line finding).isIdOrder = finding.violation.isIdOrder := by
  show "incorrect import id ordering: ".toList.isPrefixOf finding.violation.message.toList = _
  cases finding.violation with
  | tooLong | expectedSpaceBefore | unexpectedSpaceBefore | wrapperCloser | idOrder | nameOrder =>
    delta Violation.message
    simp only [String.toList_append]
    rfl
  | _ => rfl

/-- The diagnostics about ids among those of a line. -/
def idReports (file : String) (line : Nat) (findings : List Finding) : List Diagnostic :=
  (importReports file line findings).filter Diagnostic.isIdOrder

section

variable {file : String} {line : Nat}

@[simp] theorem idReports_append (a b : List Finding) :
    idReports file line (a ++ b) = idReports file line a ++ idReports file line b := by
  rw [idReports, importReports_append, List.filter_append]
  rfl

theorem idReports_of_importReports {findings : List Finding}
    (h : importReports file line findings = []) : idReports file line findings = [] := by
  rw [idReports, h]
  rfl

theorem idReports_eq_filter (findings : List Finding) :
    idReports file line findings =
      (findings.map (.ofFinding file line)).filter Diagnostic.isIdOrder := by
  rw [idReports, importReports, List.filter_filter]
  refine List.filter_congr fun d hd ↦ ?_
  obtain ⟨finding, -, rfl⟩ := List.mem_map.1 hd
  rw [Diagnostic.isImportOrder_ofFinding, Diagnostic.isIdOrder_ofFinding]
  cases finding.violation <;> rfl

theorem idReports_findingIf (condition : Bool) (index : Nat) {violation : Violation}
    (h : violation.isIdOrder = true) :
    idReports file line (findingIf condition index violation) =
      if condition then [⟨file, line, index + 1, violation.message⟩] else [] := by
  rw [idReports_eq_filter]
  cases condition
  · rfl
  · have hreport : (Diagnostic.ofFinding file line ⟨index, violation⟩).isIdOrder = true := by
      rwa [Diagnostic.isIdOrder_ofFinding]
    exact List.filter_cons_of_pos hreport

theorem FoundBy.idReports_eq_nil {checks : List Check} {findings : List Finding}
    (h : FoundBy checks findings) (hchecks : .ids ∉ checks) :
    idReports file line findings = [] := by
  rw [idReports_eq_filter, List.filter_eq_nil_iff]
  intro d hd hreport
  obtain ⟨finding, hmem, rfl⟩ := List.mem_map.1 hd
  rw [Diagnostic.isIdOrder_ofFinding] at hreport
  have hcheck := h finding hmem
  rw [Violation.check_of_isIdOrder hreport] at hcheck
  exact hchecks hcheck

end

/-! ### What operators do to the imports -/

/-- What is reported of an operator on a line. -/
def ImportContext.disorder (file : String) (line : Nat) (token : Token) :
    ImportContext → List Diagnostic
  | inImports _ _ last => idDisorder file last ⟨token.text, ⟨line, token.start⟩⟩
  | _ => []

theorem ImportContext.idReports_idFindings (token : Token) (ctx : ImportContext) (file : String)
    (line : Nat) : idReports file line (ctx.idFindings token) = ctx.disorder file line token := by
  rcases ctx with - | s | ⟨s, u, last⟩ | ⟨s, u, d, last, name⟩
  · rfl
  · rfl
  · rw [idFindings, disorder, idDisorder, idReports_findingIf _ _ rfl]
    cases idsInOrder last token.text
    · rfl
    · rfl
  · rfl

theorem idReports_finishOperator (style : Style) (token : Token) (index : Nat) (followed : Bool)
    (st : State) (file : String) (line : Nat) :
    idReports file line (finishOperator style token index followed st).1 =
      st.imports.disorder file line token := by
  rw [finishOperator_eq]
  exact st.imports.idReports_idFindings token file line

/-- Whether a character of code ends an operator that counts. -/
def endsOperator (c : Char) : Bool :=
  c == ';' || c == ' ' || c == '\n'

theorem endsOperator_iff {c : Char} : endsOperator c = true ↔ c = ';' ∨ c = ' ' ∨ c = '\n' := by
  simp [endsOperator, or_assoc]

/-- What is found about ids at a character of code is about the operator that ends there. -/
theorem idReports_codeChar (style : Style) (cur : Cursor) (operator? : Option Token) (c : Char)
    (st : State) (file : String) (line : Nat) :
    idReports file line (codeChar style cur operator? c st).findings =
      if endsOperator c then operator?.elim [] (st.imports.disorder file line) else [] := by
  unfold codeChar
  by_cases quote : c = '"'
  · rw [if_pos quote, quote]
    rfl
  by_cases semicolon : c = ';'
  · rw [if_neg quote, if_pos semicolon, if_pos (endsOperator_iff.2 (.inl semicolon))]
    rcases operator? with - | token
    · exact idReports_of_importReports (importReports_findingIf rfl)
    · show idReports file line ((finishOperator style token cur.index false st).1 ++ _) = _
      rw [idReports_append, idReports_finishOperator,
        idReports_of_importReports (importReports_findingIf rfl), List.append_nil]
      rfl
  by_cases opener : c = '(' ∨ c = '['
  · rw [if_neg quote, if_neg semicolon, if_pos opener,
      (foundBy_openForm style cur c st).idReports_eq_nil (by decide), if_neg]
    rcases opener with rfl | rfl <;> decide
  by_cases closer : c = ')' ∨ c = ']'
  · rw [if_neg quote, if_neg semicolon, if_neg opener, if_pos closer,
      (foundBy_closeForm cur c st).idReports_eq_nil (by decide), if_neg]
    rcases closer with rfl | rfl <;> decide
  rw [if_neg quote, if_neg semicolon, if_neg opener, if_neg closer]
  by_cases blank : c = ' ' ∨ c = '\n'
  · rw [if_pos blank, if_pos (endsOperator_iff.2 (.inr blank))]
    rcases operator? with - | token
    · exact (foundBy_nameFindings cur st).idReports_eq_nil (by decide)
    · exact idReports_finishOperator style token cur.index (c == ' ') st file line
  · rw [if_neg blank, if_neg fun hends ↦ not_or.2 ⟨semicolon, blank⟩ (endsOperator_iff.1 hends)]
    rcases operator? with - | token <;> rfl

/-! ### What names have no part in -/

namespace ImportContext

variable {ctx : ImportContext}

theorem setLastName_setLastName (name name' : String) (ctx : ImportContext) :
    (ctx.setLastName name).setLastName name' = ctx.setLastName name' := by
  cases ctx <;> rfl

theorem setLastName_operate (style : Style) (token : Token) (depth : Nat) (ctx : ImportContext) :
    (ctx.operate style token depth).setLastName "" =
      (ctx.setLastName "").operate style token depth := by
  rcases ctx with - | s | ⟨s, u, last⟩ | ⟨s, u, d, last, name⟩
  · simp only [operate, setLastName]
    split_ifs <;> rfl
  · simp only [operate, setLastName]
    split_ifs <;> rfl
  · rfl
  · rfl

theorem setLastName_leave (depth : Nat) (ctx : ImportContext) :
    (ctx.leave depth).2.setLastName "" = ((ctx.setLastName "").leave depth).2 := by
  rw [leave, leave, depths_setLastName]
  split_ifs
  · cases ctx <;> rfl
  · rfl

theorem disorder_setLastName (file : String) (line : Nat) (token : Token) (ctx : ImportContext) :
    (ctx.setLastName "").disorder file line token = ctx.disorder file line token := by
  cases ctx <;> rfl

end ImportContext

end SchemeStyle
