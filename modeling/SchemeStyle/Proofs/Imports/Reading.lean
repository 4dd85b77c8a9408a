import SchemeStyle.Proofs.Imports.Operators
import SchemeStyle.Proofs.Nesting.Lexer

/-!
# Reading the import forms of a text

`ImportReading` follows a text as a whole, character by character, and knows of it no more than how
it nests, where it is, which import forms are open, and the operator being read. Nothing is read in
strings and comments but where they end (`ImportReading.run_of_ne_code`), and blanks mean nothing
where no operator is being read (`ImportReading.run_of_blank`).
-/

namespace SchemeStyle

open Imports (Position)

/-! ### Reading a text -/

theorem Imports.Position.after_cons (p : Position) (c : Char) (text : List Char) :
    p.after (c :: text) = (p.after [c]).after text :=
  p.after_append [c] text

/-- The position behind a line is the start of the next one. -/
theorem Imports.Position.after_line {body : List Char} (hbody : '\n' ∉ body) (p : Position) :
    p.after (body ++ ['\n']) = ⟨p.line + 1, 0⟩ := by
  simp [Position.after, List.count_eq_zero_of_not_mem hbody]

/-- What a text read so far tells about its imports. -/
structure ImportReading where
  nesting : Nesting := {}
  position : Position := {}
  imports : ImportContext := .outside
  /-- The operator being read. -/
  operator? : Option Token := none

namespace ImportReading

/-- The operator being read, if there is one, is that of its form. -/
def finish (style : Style) (r : ImportReading) : ImportReading :=
  { r with
    imports := r.operator?.elim r.imports fun token ↦
      r.imports.operate style token r.nesting.depth.toNat
    operator? := none }

/-- What a character of code does to the imports. -/
def code (style : Style) (r : ImportReading) (c : Char) : ImportReading :=
  if c = '"' then { r with operator? := none }
  else if endsOperator c then r.finish style
  else if isOpener c then { r with operator? := some ⟨r.position.column + 1, []⟩ }
  else if c = ')' ∨ c = ']' then
    { r with imports := (r.imports.leave r.nesting.depth.toNat).2, operator? := none }
  else { r with operator? := r.operator?.map (Token.push · c) }

/-- Reads one character. -/
def step (style : Style) (r : ImportReading) (c : Char) : ImportReading :=
  { if r.nesting.region = .code then r.code style c else r with
    nesting := r.nesting.step c
    position := r.position.after [c] }

/-- What is reported about ids at a character. -/
def found (file : String) (r : ImportReading) (c : Char) : List Diagnostic :=
  if r.nesting.region = .code ∧ endsOperator c then
    r.operator?.elim [] (r.imports.disorder file r.position.line)
  else []

/-- Reads a text. -/
def run (style : Style) (r : ImportReading) (text : List Char) : ImportReading :=
  text.foldl (step style) r

/-- What is reported about the ids of a text. -/
def reports (style : Style) (file : String) : ImportReading → List Char → List Diagnostic
  | _, [] => []
  | r, c :: text => r.found file c ++ reports style file (r.step style c) text

variable {style : Style} {file : String} {r : ImportReading} {c : Char} {body : List Char}

@[simp] theorem run_nil (style : Style) (r : ImportReading) : r.run style [] = r := rfl

@[simp] theorem run_cons (style : Style) (r : ImportReading) (c : Char) (text : List Char) :
    r.run style (c :: text) = (r.step style c).run style text := rfl

@[simp] theorem run_append (style : Style) (r : ImportReading) (a b : List Char) :
    r.run style (a ++ b) = (r.run style a).run style b :=
  List.foldl_append

@[simp] theorem reports_nil (style : Style) (file : String) (r : ImportReading) :
    r.reports style file [] = [] := rfl

theorem reports_cons (style : Style) (file : String) (r : ImportReading) (c : Char)
    (text : List Char) :
    r.reports style file (c :: text) =
      r.found file c ++ (r.step style c).reports style file text := rfl

theorem reports_append (style : Style) (file : String) (r : ImportReading) (a b : List Char) :
    r.reports style file (a ++ b) =
      r.reports style file a ++ (r.run style a).reports style file b := by
  induction a generalizing r with
  | nil => rfl
  | cons c a ih =>
    rw [List.cons_append, reports_cons, reports_cons, ih, List.append_assoc, run_cons]

theorem nesting_run (style : Style) (r : ImportReading) (text : List Char) :
    (r.run style text).nesting = r.nesting.run text := by
  induction text generalizing r with
  | nil => rfl
  | cons c text ih => rw [run_cons, ih]; rfl

theorem position_run (style : Style) (r : ImportReading) (text : List Char) :
    (r.run style text).position = r.position.after text := by
  induction text generalizing r with
  | nil => rfl
  | cons c text ih =>
    rw [run_cons, ih, Position.after_cons]
    rfl

/-- What ends an operator finishes it. -/
theorem code_of_ends (hc : endsOperator c = true) (style : Style) (r : ImportReading) :
    r.code style c = r.finish style := by
  have hquote : c ≠ '"' := by
    rintro rfl
    cases hc
  rw [code, if_neg hquote, if_pos hc]

theorem code_of_opener (hc : c = '(' ∨ c = '[') (style : Style) (r : ImportReading) :
    r.code style c = { r with operator? := some ⟨r.position.column + 1, []⟩ } := by
  rcases hc with rfl | rfl <;> rfl

theorem code_of_closer (hc : c = ')' ∨ c = ']') (style : Style) (r : ImportReading) :
    r.code style c =
      { r with imports := (r.imports.leave r.nesting.depth.toNat).2, operator? := none } := by
  rcases hc with rfl | rfl <;> rfl

theorem code_of_plain (hc : IsPlain c) (style : Style) (r : ImportReading) :
    r.code style c = { r with operator? := r.operator?.map (Token.push · c) } := by
  simp only [IsPlain, List.mem_cons, List.not_mem_nil, or_false, not_or] at hc
  obtain ⟨quote, semicolon, round, square, round', square', space, newline⟩ := hc
  rw [code, if_neg quote, if_neg (by simp [endsOperator, *]), if_neg (by simp [isOpener, *]),
    if_neg (by simp [*])]

/-! ### What means nothing -/

/-- Outside of code no operator is read, and nothing is found. -/
theorem run_of_ne_code {text : List Char}
    (h : ∀ front c, front ++ [c] <+: text → (r.nesting.run front).region ≠ .code) (style : Style)
    (file : String) :
    r.run style text =
        { r with nesting := r.nesting.run text, position := r.position.after text } ∧
      r.reports style file text = [] := by
  induction text generalizing r with
  | nil => exact ⟨rfl, rfl⟩
  | cons c text ih =>
    have hcode : r.nesting.region ≠ .code := h [] c (List.cons_prefix_cons.2 ⟨rfl, List.nil_prefix⟩)
    have hstep : r.step style c =
        { r with nesting := r.nesting.step c, position := r.position.after [c] } := by
      rw [step, if_neg hcode]
    have hrest : ∀ front d, front ++ [d] <+: text →
        ((r.step style c).nesting.run front).region ≠ .code :=
      fun front d hfront ↦ h (c :: front) d (List.cons_prefix_cons.2 ⟨rfl, hfront⟩)
    obtain ⟨hrun, hreports⟩ := ih hrest
    rw [run_cons, reports_cons, found, if_neg fun hr ↦ hcode hr.1, hrun, hreports, hstep,
      Position.after_cons _ c text]
    exact ⟨rfl, rfl⟩

/-- A comment is read up to the newline that ends it. -/
theorem run_commentBody (h : r.nesting.region = .comment) (hbody : '\n' ∉ body) (style : Style)
    (file : String) :
    r.run style (body ++ ['\n']) =
        { r with
          nesting := { r.nesting with region := .code }
          position := r.position.after (body ++ ['\n']) } ∧
      r.reports style file (body ++ ['\n']) = [] := by
  have hinside : ∀ front c, front ++ [c] <+: body ++ ['\n'] →
      (r.nesting.run front).region ≠ .code := by
    intro front c hfront
    have hbody' : '\n' ∉ front := fun hm ↦ by
      rcases List.prefix_concat_iff.1 hfront with heq | hle
      · exact hbody (List.append_inj_left' heq rfl ▸ hm)
      · exact hbody (hle.subset (List.mem_append_left _ hm))
    simp [Nesting.run_comment h hbody', h]
  rw [← Nesting.run_comment_newline h hbody]
  exact run_of_ne_code hinside style file

/-- A comment ends the operator. -/
theorem run_comment (hcode : r.nesting.region = .code) (hbody : '\n' ∉ body) (style : Style)
    (file : String) :
    r.run style (';' :: body ++ ['\n']) =
        { r.finish style with position := r.position.after (';' :: body ++ ['\n']) } ∧
      r.reports style file (';' :: body ++ ['\n']) =
        r.operator?.elim [] (r.imports.disorder file r.position.line) := by
  have hstep : r.step style ';' =
      { r.finish style with
        nesting := { r.nesting with region := .comment }
        position := r.position.after [';'] } := by
    rw [step, if_pos hcode, Nesting.step, hcode]
    rfl
  have hregion : (r.step style ';').nesting.region = .comment := by rw [hstep]
  obtain ⟨hrun, hreports⟩ := run_commentBody hregion hbody style file
  have hfound : r.found file ';' = r.operator?.elim [] (r.imports.disorder file r.position.line) :=
    if_pos ⟨hcode, rfl⟩
  rw [List.cons_append, run_cons, reports_cons, hfound, hrun, hreports, hstep,
    Position.after_cons _ ';' (body ++ ['\n']), List.append_nil, ← hcode]
  exact ⟨rfl, rfl⟩

/-- Where no operator is being read none ends. -/
theorem finish_of_none (hoperator : r.operator? = none) (style : Style) (file : String) :
    r.finish style = r ∧ r.operator?.elim [] (r.imports.disorder file r.position.line) = [] := by
  rcases r with ⟨_, _, _, _⟩
  obtain rfl := hoperator
  exact ⟨rfl, rfl⟩

/-- Spaces and newlines mean nothing where no operator is being read, in code or in a string. -/
theorem step_of_idle (hc : c = ' ' ∨ c = '\n') (hoperator : r.operator? = none)
    (hregion : r.nesting.region = .code ∨ r.nesting.region = .string false) (style : Style)
    (file : String) :
    r.step style c = { r with position := r.position.after [c] } ∧ r.found file c = [] := by
  have hnesting : r.nesting.step c = r.nesting := by
    rw [Nesting.step]
    rcases hregion with hregion | hregion <;> rw [hregion] <;> rcases hc with rfl | rfl <;> rfl
  have hfound : r.found file c = [] := by
    rw [found, hoperator]
    exact ite_self _
  refine ⟨?_, hfound⟩
  rw [step, hnesting]
  split_ifs
  · rw [code_of_ends (endsOperator_iff.2 (.inr hc)), (finish_of_none hoperator style file).1]
  · rfl

theorem run_of_blank (hbody : ∀ c ∈ body, c = ' ' ∨ c = '\n') (hoperator : r.operator? = none)
    (hregion : r.nesting.region = .code ∨ r.nesting.region = .string false) (style : Style)
    (file : String) :
    r.run style body = { r with position := r.position.after body } ∧
      r.reports style file body = [] := by
  induction body generalizing r with
  | nil => exact ⟨rfl, rfl⟩
  | cons c body ih =>
    obtain ⟨hc, hbody⟩ := List.forall_mem_cons.1 hbody
    obtain ⟨hstep, hfound⟩ := step_of_idle hc hoperator hregion style file
    obtain ⟨hrun, hreports⟩ :=
      ih (r := { r with position := r.position.after [c] }) hbody hoperator hregion
    rw [run_cons, reports_cons, hstep, hfound, hrun, hreports, Position.after_cons _ c body]
    exact ⟨rfl, rfl⟩

end ImportReading

end SchemeStyle
