import Mathlib.Algebra.Ring.Nat
import SchemeStyle.Proofs.Places
import SchemeStyle.Proofs.Report.Json
import SchemeStyle.Run

/-!
# How long the numbers of a report are

A report is written only if its numbers are short enough. They always are, unless a file has an
enormous number of bytes: every diagnostic points into a line of its file
(`exists_pointsInto_of_mem_lintReading`), a file has no more lines than bytes, and no line has more
characters than that (`length_le_of_readLines`).
-/

namespace SchemeStyle

variable {style : Style}

/-! ### Lines of a file -/

/-- Every character takes a byte at least. -/
theorem Utf8.length_decodeFrom_le (position : Nat) (pending? : Option Pending)
    (bytes : List UInt8) :
    (decodeFrom position pending? bytes).chars.length ≤ bytes.length := by
  fun_induction decodeFrom position pending? bytes <;>
    simp_all only [Decoded.cons, List.length_cons, List.length_nil] <;> omega

theorem length_normalizeNewlines_le (cs : List Char) :
    (normalizeNewlines cs).length ≤ cs.length := by
  fun_induction normalizeNewlines cs <;> simp only [List.length_cons, List.length_nil] <;> omega

theorem length_readStream_le (bytes : List UInt8) :
    (readStream bytes).chars.length ≤ bytes.length := by
  have hdecode (bytes : List UInt8) : (Utf8.decode bytes).chars.length ≤ bytes.length :=
    Utf8.length_decodeFrom_le 0 none bytes
  rw [readStream]
  split
  case h_1 => exact Nat.le_trans (length_normalizeNewlines_le _) (hdecode bytes)
  case h_2 e _ =>
    have hbefore := hdecode (bytes.take (settledCount bytes e))
    rw [List.length_take] at hbefore
    refine Nat.le_trans (length_normalizeNewlines_le _) ?_
    split_ifs
    · rw [List.length_dropLast]
      omega
    · omega

/-- Lines take no more characters than their text has, but for a newline at its end. -/
theorem length_splitLines_le (cs : List Char) :
    (splitLines cs).length ≤ cs.length + 1 ∧
      ∀ line ∈ splitLines cs, line.length ≤ cs.length := by
  have hjoin : (joinLines (splitLines cs)).length ≤ cs.length + 1 := by
    rcases joinLines_splitLines cs with h | h <;> simp [h]
  have hlength (lines : List (List Char)) : lines.length ≤ (joinLines lines).length ∧
      ∀ line ∈ lines, line.length + 1 ≤ (joinLines lines).length := by
    induction lines with
    | nil => simp
    | cons first lines ih =>
      rw [joinLines_cons, List.length_append, List.length_cons, List.length_cons,
        List.forall_mem_cons]
      exact ⟨by omega, by omega, fun line hline ↦ by have := ih.2 line hline; omega⟩
  obtain ⟨hcount, hlines⟩ := hlength (splitLines cs)
  exact ⟨by omega, fun line hline ↦ by have := hlines line hline; omega⟩

/-- **A file has hardly more lines than bytes**, and no longer ones. -/
theorem length_readLines_le (bytes : List UInt8) :
    (readLines bytes).lines.length ≤ bytes.length + 1 ∧
      ∀ line ∈ (readLines bytes).lines, line.length ≤ bytes.length := by
  have hstream := length_readStream_le bytes
  have hsub : (readLines bytes).lines.Sublist (splitLines (readStream bytes).chars) := by
    rw [readLines]
    split
    · exact List.Sublist.refl _
    · dsimp only
      rw [completeLines]
      split_ifs
      · exact List.Sublist.refl _
      · exact List.dropLast_sublist _
  obtain ⟨hcount, hlines⟩ := length_splitLines_le (readStream bytes).chars
  have hle := hsub.length_le
  exact ⟨by omega, fun line hline ↦ by have := hlines line (hsub.subset hline); omega⟩

/-! ### Diagnostics of a file -/

/-- **What is said of a file points into one of its lines.** -/
theorem exists_pointsInto_of_mem_lintReading {path : String} {reading : Reading} {d : Diagnostic}
    (h : d ∈ (lintReading style path reading).diagnostics) :
    ∃ before content after, reading.lines = before ++ content :: after ∧
      d.PointsInto path (before.length + 1) (content ++ ['\n']) := by
  have hfound : ∀ d ∈ (lintLines style {} reading.lines).diagnostics path,
      ∃ before content after, reading.lines = before ++ content :: after ∧
        d.PointsInto path (before.length + 1) (content ++ ['\n']) := by
    rintro d hd
    obtain ⟨⟨line, finding⟩, hmem, rfl⟩ := List.mem_map.1 hd
    obtain ⟨before, content, after, hlines, rfl, hmem⟩ := exists_append_of_mem_lintLines hmem
    refine ⟨before, content, after, hlines, ?_⟩
    rw [Nat.add_comm before.length 1]
    exact pointsInto_of_mem_reports (List.mem_append_left _ (List.mem_map.2 ⟨finding, hmem, rfl⟩))
  rw [lintReading] at h
  split at h
  case h_2 => exact hfound d h
  case h_1 f hf =>
    obtain ⟨before, content, after, hlines, hline, -, -, herror, hfindings⟩ :=
      exists_append_of_failure hf
    have hreports : ∀ d ∈ f.diagnostics path ++ [f.toDiagnostic path],
        d ∈ (lintLine style (lintLines style {} before).state content).reports path f.line := by
      rw [Outcome.reports, herror, Outcome.diagnostics, hfindings]
      exact fun d hd ↦ hd
    rw [List.append_assoc] at h
    rcases List.mem_append.1 h with h | h
    · exact hfound d h
    · refine ⟨before, content, after, hlines, ?_⟩
      have hinto := pointsInto_of_mem_reports (hreports d h)
      rwa [hline, Nat.add_comm] at hinto

/-- **The numbers of a report can be written** unless a file has an enormous number of bytes. -/
theorem isWritable_of_mem_lintFile {files : FileView} {path : String} {limit : Nat} {d : Diagnostic}
    (hbytes : ∀ bytes, files.read path = .ok bytes → bytes.length + 1 < 10 ^ limit)
    (h : d ∈ (lintFile style files path).diagnostics) : d.IsWritable (some limit) := by
  rw [lintFile] at h
  split at h
  case h_1 => cases h
  case h_2 bytes hread =>
    have hlimit := hbytes bytes hread
    obtain ⟨hcount, hlines⟩ := length_readLines_le bytes
    obtain ⟨before, content, after, hsplit, hinto⟩ := exists_pointsInto_of_mem_lintReading h
    have hcontent := hlines content (by rw [hsplit]; simp)
    rw [hsplit, List.length_append, List.length_cons] at hcount
    have hline := hinto.line
    have hpos := hinto.column_pos
    have hcolumn := hinto.column_le
    rw [List.length_append, List.length_singleton] at hcolumn
    have hwritable {n : Int} (hlow : 0 ≤ n) (hhigh : n ≤ bytes.length + 1) :
        isWritable (some limit) n = true := by
      refine decide_eq_true ?_
      show n.natAbs < 10 ^ limit
      omega
    exact ⟨hwritable (by omega) (by omega), hwritable (by omega) (by omega)⟩

end SchemeStyle
