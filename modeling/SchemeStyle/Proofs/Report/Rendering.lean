import Mathlib.Algebra.Ring.Nat
import Mathlib.Data.List.Basic
import Mathlib.Data.List.Forall2
import SchemeStyle.Proofs.Report.Json

/-!
# Reading a report

A report has one line for each diagnostic, and a reader who takes it apart at its newlines
(`outputLines`) has to get those lines and no others. For JSON that is so whatever the diagnostics
hold, since a newline is never written as itself; each line is then read on its own
(`read_renderJson`).

The lines meant for people hold their texts as they are. Their numbers are found all the same by a
reader who knows the file (`Diagnostic.ofLine?`): what stands behind the file and a colon are two
numerals, which have no colon of their own, so it does not matter which colons the file and the
message have (`Diagnostic.ofLine?_toLine`). That none of these texts holds a newline is another
matter, and depends on what is reported.
-/

namespace SchemeStyle

/-! ### Lines of an output -/

theorem intercalate_ne_empty {first : String} (h : first ≠ "") (sep : String)
    (rest : List String) : sep.intercalate (first :: rest) ≠ "" := by
  cases rest with
  | nil => simpa using h
  | cons next rest => simp [String.intercalate_cons_cons, String.append_eq_empty_iff, h]

/-- The lines of an output: the parts between its newlines. An empty output has none. -/
def outputLines (output : String) : List String :=
  if output = "" then [] else (output.toList.splitOn '\n').map String.ofList

/-- Lines that have been put together are taken apart again, if there is something in each of them
but no newline. -/
theorem outputLines_intercalate {lines : List String} (hne : ∀ line ∈ lines, line ≠ "")
    (hnewline : ∀ line ∈ lines, '\n' ∉ line.toList) :
    outputLines ("\n".intercalate lines) = lines := by
  rcases lines with - | ⟨line, lines⟩
  · rfl
  have hempty : "\n".intercalate (line :: lines) ≠ "" :=
    intercalate_ne_empty (hne line List.mem_cons_self) "\n" lines
  have hsplit : ("\n".intercalate (line :: lines)).toList.splitOn '\n' =
      (line :: lines).map String.toList := by
    rw [String.toList_intercalate]
    refine List.splitOn_intercalate '\n' ?_ (by simp)
    rintro cs hcs
    obtain ⟨l, hl, rfl⟩ := List.mem_map.1 hcs
    exact hnewline l hl
  have hid : String.ofList ∘ String.toList = id := funext fun _ ↦ String.ofList_toList
  rw [outputLines, if_neg hempty, hsplit, List.map_map, hid, List.map_id]

/-! ### Reports meant for programs -/

theorem mapM_ite {ε α β : Type} {p : α → Prop} [DecidablePred p] {f : α → β} {e : ε}
    (items : List α) :
    (items.mapM fun a ↦ if p a then Except.ok (f a) else .error e) =
      if ∀ a ∈ items, p a then .ok (items.map f) else .error e := by
  induction items with
  | nil => rfl
  | cons a items ih =>
    rw [List.mapM_cons, ih]
    by_cases ha : p a
    · by_cases hitems : ∀ a ∈ items, p a
      · rw [if_pos ha, if_pos hitems, if_pos (List.forall_mem_cons.2 ⟨ha, hitems⟩)]
        rfl
      · rw [if_pos ha, if_neg hitems, if_neg fun h ↦ hitems (List.forall_mem_cons.1 h).2]
        rfl
    · rw [if_neg ha, if_neg fun h ↦ ha (List.forall_mem_cons.1 h).1]
      rfl

/-- A report in JSON is written if all its numbers can be. -/
theorem renderJson_eq (limit? : Option Nat) (ds : List Diagnostic) :
    renderJson limit? ds =
      if ∀ d ∈ ds, d.IsWritable limit? then
        .ok ("\n".intercalate (ds.map Diagnostic.objectText))
      else .error (.tooManyDigits (limit?.getD 0)) := by
  have hobjects : Diagnostic.toJson limit? = fun d ↦
      if d.IsWritable limit? then .ok d.objectText
      else .error (.tooManyDigits (limit?.getD 0)) := funext fun d ↦ d.toJson_eq limit?
  rw [renderJson, hobjects, mapM_ite]
  split_ifs <;> rfl

theorem outputLines_objectTexts (ds : List Diagnostic) :
    outputLines ("\n".intercalate (ds.map Diagnostic.objectText)) =
      ds.map Diagnostic.objectText := by
  refine outputLines_intercalate ?_ ?_ <;> intro line hline <;>
    obtain ⟨d, -, rfl⟩ := List.mem_map.1 hline
  · exact d.objectText_ne_empty
  · exact d.newline_notMem_objectText

theorem renderJson_eq_ok_iff {limit? : Option Nat} {ds : List Diagnostic} {report : String} :
    renderJson limit? ds = .ok report ↔ (∀ d ∈ ds, d.IsWritable limit?) ∧
      report = "\n".intercalate (ds.map Diagnostic.objectText) := by
  rw [renderJson_eq]
  split_ifs with h
  · rw [Except.ok.injEq, eq_comm]
    exact (and_iff_right h).symm
  · exact iff_of_false (fun heq ↦ by cases heq) fun hok ↦ h hok.1

theorem map_readObject?_of_renderJson {limit? : Option Nat} {ds : List Diagnostic}
    {report : String} (h : renderJson limit? ds = .ok report) :
    (outputLines report).map Json.readObject? = ds.map (some ·.members) := by
  obtain ⟨-, rfl⟩ := renderJson_eq_ok_iff.1 h
  rw [outputLines_objectTexts, List.map_map]
  exact List.map_congr_left fun d _ ↦ d.readObject?_objectText

/-- The integer up to the next colon, and what follows the colon. -/
def readNumber? (cs : List Char) : Option (Int × List Char) :=
  match cs.dropWhile (· != ':') with
  | [] => none
  | _ :: rest => (integerOfText? (cs.takeWhile (· != ':'))).map (·, rest)

/-- The diagnostic of a file that a line of a report stands for. -/
def Diagnostic.ofLine? (file line : String) : Option Diagnostic := do
  let (number, rest) ← readNumber? (← line.toList.dropPrefix? (file.toList ++ [':']))
  let (column, rest) ← readNumber? rest
  match rest with
  | ' ' :: message =>
    some { file := file, line := number, column := column, message := String.ofList message }
  | _ => none

theorem Diagnostic.toLine_ne_empty (d : Diagnostic) : d.toLine ≠ "" := by
  simp [toLine, String.append_eq_empty_iff, toString]

/-- The line of a diagnostic is one line if its texts are. -/
theorem Diagnostic.newline_notMem_toLine {d : Diagnostic} (hfile : '\n' ∉ d.file.toList)
    (hmessage : '\n' ∉ d.message.toList) : '\n' ∉ d.toLine.toList := by
  simp [toLine, toString, hfile, hmessage, newline_notMem_repr_int]

theorem readNumber?_toString (n : Int) (rest : List Char) :
    readNumber? ((toString n).toList ++ ':' :: rest) = some (n, rest) := by
  have hnumeral : ∀ c ∈ (toString n).toList, (c != ':') = true := by
    rintro c hc
    rw [bne_iff_ne]
    rintro rfl
    exact notMem_toString_int (by decide) rfl n hc
  rw [readNumber?, List.dropWhile_append_of_pos hnumeral, List.takeWhile_append_of_pos hnumeral,
    List.dropWhile_cons_of_neg (by simp), List.takeWhile_cons_of_neg (by simp), List.append_nil]
  dsimp only
  rw [integerOfText?_toString, Option.map_some]

/-- **The line of a diagnostic is read back** by who knows its file. -/
theorem Diagnostic.ofLine?_toLine (d : Diagnostic) : ofLine? d.file d.toLine = some d := by
  have hline : d.toLine.toList = (d.file.toList ++ [':']) ++ ((toString d.line).toList ++
      ':' :: ((toString d.column).toList ++ ':' :: ' ' :: d.message.toList)) := by
    simp [toLine, toString]
  -- Knowing the file settles where the numbers start, whatever colons its name has.
  rw [ofLine?, hline, List.dropPrefix?_append_of_beq _ (beq_self_eq_true _)]
  show (readNumber? _ >>= fun (number, rest) ↦ _) = _
  rw [readNumber?_toString]
  show (readNumber? _ >>= fun (column, rest) ↦ _) = _
  rw [readNumber?_toString]
  show some _ = _
  rw [String.ofList_toList]

/-! ### Either form -/

/-- The text of a report whose numbers can be written. -/
def reportText (json : Bool) (ds : List Diagnostic) : String :=
  "\n".intercalate (ds.map (if json then Diagnostic.objectText else Diagnostic.toLine))

/-- There is a report, in either form, if its numbers can be written. -/
theorem render_eq (limit? : Option Nat) (json : Bool) (ds : List Diagnostic) :
    render limit? json ds =
      if ∀ d ∈ ds, d.IsWritable limit? then .ok (reportText json ds)
      else .error (.tooManyDigits (limit?.getD 0)) := by
  cases json with
  | true => exact renderJson_eq limit? ds
  | false =>
    have hforM : (ds.forM fun d ↦ discard (d.writeNumbers limit?)) =
        if ∀ d ∈ ds, d.IsWritable limit? then .ok ()
        else .error (.tooManyDigits (limit?.getD 0)) := by
      induction ds with
      | nil => rfl
      | cons d ds ih =>
        show (discard (d.writeNumbers limit?) >>= fun _ ↦ ds.forM _) = _
        rw [ih, Diagnostic.writeNumbers_eq]
        by_cases hd : d.IsWritable limit?
        · simp only [List.forall_mem_cons, hd, true_and]
          rfl
        · have hall : ¬∀ other ∈ d :: ds, other.IsWritable limit? :=
            fun h ↦ hd (h d List.mem_cons_self)
          rw [if_neg hd, if_neg hall]
          rfl
    show ((ds.forM fun d ↦ discard (d.writeNumbers limit?)) >>= fun _ ↦ .ok (renderLines ds)) = _
    rw [hforM]
    split_ifs <;> rfl

/-- A report is empty exactly if there is nothing to report. -/
theorem reportText_eq_empty_iff (json : Bool) (ds : List Diagnostic) :
    reportText json ds = "" ↔ ds = [] := by
  cases ds with
  | nil => exact iff_of_true rfl rfl
  | cons d ds =>
    refine iff_of_false (intercalate_ne_empty ?_ "\n" _) (List.cons_ne_nil d ds)
    cases json
    · exact d.toLine_ne_empty
    · exact d.objectText_ne_empty

end SchemeStyle
