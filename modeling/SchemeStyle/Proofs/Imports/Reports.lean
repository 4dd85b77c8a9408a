import SchemeStyle.Proofs.Layout.Reading
import SchemeStyle.Proofs.Scan.Checks

/-!
# Reports about imports

The order of imports is checked by what a scan remembers of the nesting and of the imports, and by
nothing else: where lines are expected to start, which forms are wrappers and what was found so far
do not matter. A `View` is that part of a state. `Makes` says what a character does to it, and what
is reported about imports on the way, in whatever state looks like this.

`Reports` follows a text character by character, and goes on with the next line after a newline, so
that a text in two pieces is reported as the pieces are (`Reports.append`). The diagnostics about
imports of a text that is followed to its end are those reports (`importReports_lintLines`).
-/

namespace SchemeStyle

/-! ### Diagnostics about imports -/

/-- Whether a diagnostic is about the order of imports: those that are start with the same words. -/
def Diagnostic.isImportOrder (d : Diagnostic) : Bool :=
  "incorrect import ".toList.isPrefixOf d.message.toList

/-- Whether a violation is one of the order of imports. -/
def Violation.isImportOrder : Violation → Bool
  | idOrder .. | nameOrder .. => true
  | _ => false

theorem Violation.check_of_isImportOrder {violation : Violation}
    (h : violation.isImportOrder = true) : violation.check = .ids ∨ violation.check = .names := by
  cases violation with
  | idOrder => exact .inl rfl
  | nameOrder => exact .inr rfl
  | _ => cases h

/-- No other message starts with the words of those about imports. -/
@[simp] theorem Diagnostic.isImportOrder_ofFinding (file : String) (line : Nat)
    (finding : Finding) :
    (ofFinding file line finding).isImportOrder = finding.violation.isImportOrder := by
  show "incorrect import ".toList.isPrefixOf finding.violation.message.toList = _
  cases finding.violation with
  | tooLong | expectedSpaceBefore | unexpectedSpaceBefore | wrapperCloser | idOrder | nameOrder =>
    delta Violation.message
    simp only [String.toList_append]
    rfl
  | _ => rfl

/-- The diagnostics about imports among those of a line. -/
def importReports (file : String) (line : Nat) (findings : List Finding) : List Diagnostic :=
  (findings.map (.ofFinding file line)).filter Diagnostic.isImportOrder

section

variable {file : String} {line : Nat}

@[simp] theorem importReports_append (a b : List Finding) :
    importReports file line (a ++ b) = importReports file line a ++ importReports file line b := by
  simp [importReports]

theorem importReports_eq_nil {findings : List Finding}
    (h : ∀ finding ∈ findings, finding.violation.isImportOrder = false) :
    importReports file line findings = [] := by
  rw [importReports, List.filter_eq_nil_iff]
  intro d hd
  obtain ⟨finding, hmem, rfl⟩ := List.mem_map.1 hd
  simp [h finding hmem]

theorem importReports_findingIf {condition : Bool} {index : Nat} {violation : Violation}
    (h : violation.isImportOrder = false) :
    importReports file line (findingIf condition index violation) = [] := by
  refine importReports_eq_nil fun finding hmem ↦ ?_
  cases condition
  · cases hmem
  · obtain rfl := List.mem_singleton.1 hmem
    exact h

theorem importReports_findingIf_of_import (condition : Bool) (index : Nat) {violation : Violation}
    (h : violation.isImportOrder = true) :
    importReports file line (findingIf condition index violation) =
      if condition then [⟨file, line, index + 1, violation.message⟩] else [] := by
  cases condition
  · rfl
  · have hreport : (Diagnostic.ofFinding file line ⟨index, violation⟩).isImportOrder = true := by
      rwa [Diagnostic.isImportOrder_ofFinding]
    exact List.filter_cons_of_pos hreport

theorem FoundBy.importReports_eq_nil {checks : List Check} {findings : List Finding}
    (h : FoundBy checks findings) (hids : .ids ∉ checks) (hnames : .names ∉ checks) :
    importReports file line findings = [] := by
  refine SchemeStyle.importReports_eq_nil fun finding hmem ↦ Bool.eq_false_iff.2 fun himport ↦ ?_
  have hcheck := h finding hmem
  rcases Violation.check_of_isImportOrder himport with hkind | hkind <;> rw [hkind] at hcheck
  · exact hids hcheck
  · exact hnames hcheck

theorem importReports_tabFindings (index : Nat) (text : List Char) :
    importReports file line (tabFindings index text) = [] :=
  (foundBy_tabFindings index text).importReports_eq_nil (by decide) (by decide)

theorem importReports_commentFindings (index : Nat) (text : List Char) :
    importReports file line (commentFindings index text) = [] :=
  (foundBy_commentFindings index text).importReports_eq_nil (by decide) (by decide)

theorem importReports_commentLineFindings (number : Nat) (content : List Char) :
    importReports file line (commentLineFindings number content) = [] :=
  (foundBy_commentLineFindings number content).importReports_eq_nil (by decide) (by decide)

theorem importReports_extentFindings (style : Style) (content : List Char) :
    importReports file line (extentFindings style content) = [] :=
  (foundBy_extentFindings style content).importReports_eq_nil (by decide) (by decide)

theorem importReports_leadFindings (aligned : Bool) (cur : Cursor) (c : Char) (st : State) :
    importReports file line (leadFindings aligned cur c st) = [] :=
  (foundBy_leadFindings aligned cur c st).importReports_eq_nil (by cases aligned <;> decide)
    (by cases aligned <;> decide)

end

/-! ### What imports depend on -/

/-- What the checks of imports know of a state. -/
structure View where
  line : Nat
  depth : Nat
  inString : Bool
  imports : ImportContext
  deriving DecidableEq, Repr

def State.view (st : State) : View := ⟨st.line, st.depth, st.inString, st.imports⟩

/-- What is known on the next line. -/
def View.nextLine (v : View) : View := { v with line := v.line + 1 }

@[simp] theorem view_entered (aligned : Bool) (cur : Cursor) (c : Char) (st : State) :
    (entered aligned cur c st).view = st.view := by
  have hline : (entered aligned cur c st).line = st.line :=
    congrArg Prod.fst (tally_entered aligned cur c st)
  simp [State.view, hline]

/-- The step goes on in the mode, in a state that looks like `v`, and reports these diagnostics
about imports on a line. -/
structure Step.Makes (file : String) (line : Nat) (reports : List Diagnostic) (mode : Mode)
    (v : View) (s : Step) : Prop where
  next : s.next = .go mode
  view : s.state.view = v
  reports : importReports file line s.findings = reports

/-- What the character makes of every state that looks like `v`. -/
def Makes (style : Style) (file : String) (cur : Cursor) (v : View) (c : Char)
    (reports : List Diagnostic) (mode : Mode) (v' : View) : Prop :=
  ∀ (st : State) (aligned : Bool), st.view = v →
    (step style aligned cur c st).Makes file v.line reports mode v'

section

variable {style : Style} {file : String} {cur : Cursor} {v v' : View} {c : Char}
  {reports : List Diagnostic} {mode : Mode}

/-- In code, what is checked before a character is read has no part in the imports. -/
theorem makes_of_codeChar (hmode : cur.mode ≠ .string) (hspace : cur.mode = .indent → c ≠ ' ')
    (h : ∀ st : State, st.view = v →
      (codeChar style cur cur.mode.operator? c st).Makes file v.line reports mode v') :
    Makes style file cur v c reports mode v' := by
  intro st aligned hview
  obtain ⟨hnext, hv, hreports⟩ := h (entered aligned cur c st) (by rw [view_entered, hview])
  rw [step_of_code hmode hspace]
  refine ⟨hnext, hv, ?_⟩
  rw [Step.after, importReports_append, importReports_leadFindings, hreports, List.nil_append]

/-- Lines are not counted within a line. -/
theorem Makes.line_eq (h : Makes style file cur v c reports mode v') {st : State}
    (hview : st.view = v) : v'.line = v.line := by
  obtain ⟨-, hv, -⟩ := h st true hview
  rw [← hv, ← hview]
  exact congrArg Prod.fst (tally_step style true cur c st)

end

/-! ### Following a text -/

/-- The text leads from a cursor and a view of the state to another, with these diagnostics about
imports. No line of it ends in a space or in a string. -/
inductive Reports (style : Style) (file : String) :
    Cursor → View → List Char → List Diagnostic → Cursor → View → Prop where
  | nil (cur : Cursor) (v : View) : Reports style file cur v [] [] cur v
  | char {cur last : Cursor} {v v' final : View} {c : Char} {text : List Char}
      {here found : List Diagnostic} {mode : Mode} (ne : c ≠ '\n')
      (makes : Makes style file cur v c here mode v')
      (rest : Reports style file (cur.advance mode c) v' text found last final) :
      Reports style file cur v (c :: text) (here ++ found) last final
  | newline {cur last : Cursor} {v v' final : View} {text : List Char}
      {here found : List Diagnostic} {p : Char} (prev : cur.prev = some p) (ne : p ≠ ' ')
      (makes : Makes style file cur v '\n' here .code v') (code : v'.inString = false)
      (rest : Reports style file (.start false) v'.nextLine text found last final) :
      Reports style file cur v ('\n' :: text) (here ++ found) last final

namespace Reports

variable {style : Style} {file : String} {cur mid last : Cursor} {v v' final : View}
  {a b text content : List Char} {found found' : List Diagnostic} {st : State}

theorem append (h : Reports style file cur v a found mid v')
    (h' : Reports style file mid v' b found' last final) :
    Reports style file cur v (a ++ b) (found ++ found') last final := by
  induction h with
  | nil => exact h'
  | char ne makes _ ih =>
    rw [List.append_assoc]
    exact .char ne makes (ih h')
  | newline prev ne makes code _ ih =>
    rw [List.append_assoc]
    exact .newline prev ne makes code (ih h')

theorem of_append (h : Reports style file cur v (a ++ b) found last final) :
    ∃ mid v' here rest, found = here ++ rest ∧ Reports style file cur v a here mid v' ∧
      Reports style file mid v' b rest last final := by
  induction a generalizing cur v found with
  | nil => exact ⟨cur, v, [], found, rfl, .nil cur v, h⟩
  | cons c a ih =>
    cases h with
    | char ne makes rest =>
      obtain ⟨mid, v', here, found', rfl, ha, hb⟩ := ih rest
      exact ⟨mid, v', _, found', by rw [List.append_assoc], .char ne makes ha, hb⟩
    | newline prev ne makes code rest =>
      obtain ⟨mid, v', here, found', rfl, ha, hb⟩ := ih rest
      exact ⟨mid, v', _, found', by rw [List.append_assoc], .newline prev ne makes code ha, hb⟩

/-- The cursor keeps count of the column. -/
theorem index_eq (h : Reports style file cur v text found last final) :
    last.index = columnAfter cur.index text := by
  induction h with
  | nil => rfl
  | char ne _ _ ih => rw [ih, columnAfter_cons, if_neg ne]; rfl
  | newline _ _ _ _ _ ih => rw [ih, columnAfter_newline]; rfl

/-- Within a line the cursor remembers the last character. -/
theorem prev_eq (h : Reports style file cur v text found last final) (htext : '\n' ∉ text) :
    last.prev = text.getLast?.or cur.prev := by
  induction h with
  | nil => rfl
  | @char cur last v v' final c text here found mode ne makes rest ih =>
    rw [ih fun hm ↦ htext (List.mem_cons_of_mem _ hm), List.getLast?_cons]
    rcases text.getLast? with - | d <;> rfl
  | newline => exact absurd List.mem_cons_self htext

/-- What is followed to the end of a line ends in a character that is no space. -/
theorem getLast?_of_newline (h : Reports style file cur v (content ++ ['\n']) found last final)
    (hcontent : '\n' ∉ content) : ∃ p, p ≠ ' ' ∧ content.getLast?.or cur.prev = some p := by
  obtain ⟨mid, v', here, found', -, hread, hend⟩ := h.of_append
  rw [← hread.prev_eq hcontent]
  cases hend with
  | char ne => exact absurd rfl ne
  | newline prev ne => exact ⟨_, ne, prev⟩

/-- The scan of a line that is followed to its end. -/
theorem scan_eq (h : Reports style file cur v (content ++ ['\n']) found last final)
    (hcontent : '\n' ∉ content) (hview : st.view = v) (aligned : Bool) :
    (scan style aligned cur st (content ++ ['\n'])).error? = none ∧
      (scan style aligned cur st (content ++ ['\n'])).state.view.nextLine = final ∧
      importReports file v.line (scan style aligned cur st (content ++ ['\n'])).findings = found ∧
      last = .start false ∧ final.inString = false := by
  induction content generalizing cur v st found with
  | nil =>
    cases h with
    | char ne => exact absurd rfl ne
    | newline prev ne makes code rest =>
      obtain ⟨hnext, hv, hreports⟩ := makes st aligned hview
      cases rest
      rw [List.nil_append, scan, hnext]
      exact ⟨rfl, congrArg View.nextLine hv, by simpa [scan, Outcome.after] using hreports, rfl,
        code⟩
  | cons c content ih =>
    obtain ⟨hc, hcontent⟩ := not_or.1 (fun hm ↦ hcontent (List.mem_cons.2 hm))
    cases h with
    | newline => exact absurd rfl hc
    | char ne makes rest =>
      obtain ⟨hnext, hv, hreports⟩ := makes st aligned hview
      obtain ⟨herror, hfinal, hrest, hlast⟩ := ih rest hcontent hv
      rw [makes.line_eq hview] at hrest
      rw [List.cons_append, scan, hnext]
      refine ⟨herror, hfinal, ?_, hlast⟩
      show importReports file v.line (_ ++ _) = _
      rw [importReports_append, hreports, hrest]

/-- A line that is followed from its start to its end. -/
theorem lintLine_eq (h : Reports style file (.start false) v (content ++ ['\n']) found last final)
    (hcontent : '\n' ∉ content) (hview : st.view = v) (code : v.inString = false) :
    (lintLine style st content).error? = none ∧ (lintLine style st content).state.view = final ∧
      importReports file v.line (lintLine style st content).findings = found ∧
      last = .start false ∧ final.inString = false := by
  obtain ⟨p, hp, hlast⟩ := h.getLast?_of_newline hcontent
  have hlast : content.getLast? = some p := by simpa [Cursor.start] using hlast
  -- No scan goes on after a semicolon in code, so the line is no comment line.
  have hhead : content.head? ≠ some ';' := by
    intro hhead
    obtain ⟨rest, rfl⟩ := List.head?_eq_some_iff.1 hhead
    cases h with
    | char ne makes =>
      have hmode := mode_of_semicolon (makes st true hview).next
      cases hmode
  have hstring : st.inString = false := by
    rw [← code, ← hview]
    rfl
  have hview' : State.view { st with blanks := 0 } = v := hview
  obtain ⟨herror, hfinal, hreports, hends⟩ := h.scan_eq hcontent hview' (style.aligns content)
  rw [lintLine, isBlankLine_eq_false hlast hp, if_neg Bool.false_ne_true,
    lintTextLine_of_code hstring hhead]
  refine ⟨herror, hfinal, ?_, hends⟩
  show importReports file v.line (_ ++ _) = _
  rw [importReports_append, importReports_extentFindings, hreports, List.nil_append]

end Reports

/-- **The diagnostics about imports of a text that is followed to its end are the reports on
it.** -/
theorem importReports_lintLines {style : Style} {file : String} {st : State} {v final : View}
    {last : Cursor} {lines : List (List Char)} {found : List Diagnostic}
    (h : Reports style file (.start false) v (joinLines lines) found last final)
    (hlines : ∀ line ∈ lines, '\n' ∉ line) (hview : st.view = v) (code : v.inString = false) :
    (lintLines style st lines).failure? = none ∧
      ((lintLines style st lines).diagnostics file).filter Diagnostic.isImportOrder = found := by
  induction lines generalizing st v found with
  | nil =>
    cases h
    exact ⟨rfl, rfl⟩
  | cons line rest ih =>
    rw [joinLines_cons, List.append_cons] at h
    obtain ⟨mid, v', here, found', rfl, hline, hrest⟩ := h.of_append
    -- Whatever else the line leaves behind, the next one is met by a state with the right view.
    obtain ⟨herror, hview', hhere, rfl, code'⟩ :=
      hline.lintLine_eq (hlines line List.mem_cons_self) hview code
    obtain ⟨hends, hfound⟩ :=
      ih hrest (fun l hl ↦ hlines l (List.mem_cons_of_mem _ hl)) hview' code'
    have hstLine : st.line = v.line := congrArg View.line hview
    rw [lintLines_cons_of_ok herror]
    refine ⟨hends, ?_⟩
    rw [← hhere, ← hfound, importReports, ← hstLine]
    simp [Report.diagnostics, Function.comp_def]

end SchemeStyle
