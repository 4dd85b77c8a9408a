import SchemeStyle.Proofs.Imports.Block
import SchemeStyle.Proofs.Nesting.Agreement
import SchemeStyle.Proofs.Scan.Progress

/-!
# What a form of imports holds

Anything may stand inside of a form of imports, not only declarations: `Content` is any text of
code in which all forms, strings and comments are closed (`Content.exists_render`). Inside of the
imports every operator is taken for an id, unless a form around it has been taken for a declaration
already. An operator counts only where a space, the end of the line or a comment ends it; one that
a quote or a delimiter breaks off is forgotten, and so is one that its own form is closed right
behind. So the ids of a content are the operators of its outermost forms, and where a form has none
that counts, those of the forms inside of it (`Content.heads`).
-/

namespace SchemeStyle.Imports

/-! ### Contents -/

/-- The inside of a string: nothing in it closes the string, and its end is not escaped. -/
structure IsStringBody (body : List Char) : Prop where
  inside : ∀ front, front <+: body → (Region.string false).after front ≠ .code
  ends : (Region.string false).after body = .string false

/-- A text of code that closes all its forms, strings and comments, taken apart. -/
inductive Content where
  | nil
  /-- A character that means nothing but itself. -/
  | char (c : Char) (plain : IsPlain c) (rest : Content)
  | blank (newline : Bool) (rest : Content)
  | string (body : List Char) (inside : IsStringBody body) (rest : Content)
  /-- A comment goes to the end of its line. -/
  | comment (body : List Char) (line : '\n' ∉ body) (rest : Content)
  | form (opener closer : Char) (opens : opener = '(' ∨ opener = '[')
      (closes : closer = ')' ∨ closer = ']') (inner rest : Content)

namespace Content

/-- The character of a blank. -/
def blankChar (newline : Bool) : Char :=
  if newline then '\n' else ' '

/-- The text of a content. -/
def render : Content → List Char
  | nil => []
  | char c _ rest => c :: rest.render
  | blank newline rest => blankChar newline :: rest.render
  | string body _ rest => '"' :: body ++ '"' :: rest.render
  | comment body _ rest => ';' :: body ++ '\n' :: rest.render
  | form opener closer _ _ inner rest => opener :: inner.render ++ closer :: rest.render

theorem render_string (body : List Char) (inside : IsStringBody body) (rest : Content) :
    (string body inside rest).render = ('"' :: body ++ ['"']) ++ rest.render := by
  simp [render]

theorem render_comment (body : List Char) (line : '\n' ∉ body) (rest : Content) :
    (comment body line rest).render = (';' :: body ++ ['\n']) ++ rest.render := by
  simp [render]

theorem render_form (opener closer : Char) (opens : opener = '(' ∨ opener = '[')
    (closes : closer = ')' ∨ closer = ']') (inner rest : Content) :
    (form opener closer opens closes inner rest).render =
      (opener :: inner.render ++ [closer]) ++ rest.render := by
  simp [render]

/-- The operator of a form with that content, if a space, the end of the line or a comment ends
it. -/
def operator? : Content → Option (List Char)
  | char c _ rest => rest.operator?.map (c :: ·)
  | blank .. | comment .. => some []
  | nil | string .. | form .. => none

/-- The ids of a content that starts at the position. -/
def heads (p : Position) : Content → List Located
  | nil => []
  | char c _ rest => rest.heads (p.after [c])
  | blank newline rest => rest.heads (p.after [blankChar newline])
  | string body _ rest => rest.heads (p.after ('"' :: body ++ ['"']))
  | comment body _ rest => rest.heads (p.after (';' :: body ++ ['\n']))
  | form opener closer _ _ inner rest =>
    (match inner.operator? with
      | some id => [⟨String.ofList id, p.after [opener]⟩]
      | none => inner.heads (p.after [opener])) ++
      rest.heads (p.after (opener :: inner.render ++ [closer]))

end Content

/-- The last of some ids, or the one before them. -/
def lastOf (last : String) : List Located → String
  | [] => last
  | id :: ids => lastOf id.text ids

/-- The reports of some ids, each compared with the one before. -/
def idDisorders (file last : String) : List Located → List Diagnostic
  | [] => []
  | id :: ids => idDisorder file last id ++ idDisorders file id.text ids

theorem lastOf_append (last : String) (a b : List Located) :
    lastOf last (a ++ b) = lastOf (lastOf last a) b := by
  induction a generalizing last with
  | nil => rfl
  | cons id a ih => exact ih id.text

theorem idDisorders_append (file last : String) (a b : List Located) :
    idDisorders file last (a ++ b) =
      idDisorders file last a ++ idDisorders file (lastOf last a) b := by
  induction a generalizing last with
  | nil => rfl
  | cons id a ih => rw [List.cons_append, idDisorders, ih, idDisorders, List.append_assoc, lastOf]

/-! ### Nesting -/

theorem nesting_step_string {n : Nesting} {escaped : Bool} (h : n.region = .string escaped)
    (c : Char) : n.step c = { n with region := n.region.read c } := by
  rcases n with ⟨region, depth⟩
  obtain rfl : region = .string escaped := h
  cases escaped
  · simp only [Nesting.step, Region.read]
    split_ifs <;> rfl
  · rfl

theorem nesting_run_string {n : Nesting} {body : List Char}
    (h : ∀ front, front <+: body → n.region.after front ≠ .code)
    (hcomment : n.region ≠ .comment) :
    n.run body = { n with region := n.region.after body } := by
  induction body generalizing n with
  | nil => rfl
  | cons c body ih =>
    obtain ⟨escaped, hregion⟩ : ∃ escaped, n.region = .string escaped := by
      rcases hregion : n.region with - | - | escaped
      · exact absurd hregion (h [] List.nil_prefix)
      · exact absurd hregion hcomment
      · exact ⟨escaped, rfl⟩
    have hstep := nesting_step_string hregion c
    rw [Nesting.run_cons, ih, hstep]
    · rfl
    · intro front hfront
      rw [hstep]
      exact h (c :: front) (List.cons_prefix_cons.2 ⟨rfl, hfront⟩)
    · rw [hstep, hregion]
      cases escaped
      · simp only [Region.read]
        split_ifs <;> simp
      · simp [Region.read]

namespace Content

/-- A content leaves the nesting as it is. -/
theorem run_nesting (content : Content) {n : Nesting} (h : n.region = .code) :
    n.run content.render = n := by
  rcases n with ⟨region, depth⟩
  obtain rfl : region = .code := h
  induction content generalizing depth with
  | nil => rfl
  | char c plain rest ih =>
    rw [render, Nesting.run_cons, Nesting.step_eq_self rfl plain.idle, ih]
  | blank newline rest ih =>
    have hstep : Nesting.step ⟨.code, depth⟩ (blankChar newline) = ⟨.code, depth⟩ := by
      cases newline <;> rfl
    rw [render, Nesting.run_cons, hstep, ih]
  | string body inside rest ih =>
    have hbody : Nesting.run ⟨.string false, depth⟩ body = ⟨.string false, depth⟩ := by
      rw [nesting_run_string inside.inside (by simp), inside.ends]
    show Nesting.run ⟨.string false, depth⟩ (body ++ '"' :: rest.render) = _
    rw [Nesting.run_append, hbody]
    exact ih depth
  | comment body line rest ih =>
    show Nesting.run ⟨.comment, depth⟩ (body ++ '\n' :: rest.render) = _
    rw [Nesting.run_append, Nesting.run_comment rfl line]
    exact ih depth
  | form opener closer opens closes inner rest ihInner ihRest =>
    have hopen : Nesting.step ⟨.code, depth⟩ opener = ⟨.code, depth + 1⟩ := by
      rcases opens with rfl | rfl <;> rfl
    have hclose : Nesting.step ⟨.code, depth + 1⟩ closer = ⟨.code, depth⟩ := by
      have hdepth : depth + 1 - 1 = depth := Int.add_sub_cancel depth 1
      rcases closes with rfl | rfl <;> exact congrArg (Nesting.mk .code) hdepth
    rw [render, List.cons_append, Nesting.run_cons, hopen, Nesting.run_append, ihInner,
      Nesting.run_cons, hclose, ihRest]

end Content

/-! ### Balanced texts are contents -/

/-- A text of code that closes its forms, strings and comments, and no others. -/
structure IsBalanced (text : List Char) : Prop where
  ends : Nesting.run {} text = {}
  depth : ∀ front, front <+: text → 0 ≤ (Nesting.run {} front).depth

/-- A string that is left has a body. -/
theorem exists_stringBody {text : List Char} {escaped : Bool} {depth : Int}
    (h : (Nesting.run ⟨.string escaped, depth⟩ text).region = .code) :
    ∃ body rest, text = body ++ '"' :: rest ∧
      (∀ front, front <+: body → (Region.string escaped).after front ≠ .code) ∧
      (Region.string escaped).after body = .string false := by
  induction text generalizing escaped with
  | nil => cases h
  | cons c text ih =>
    by_cases hcloses : escaped = false ∧ c = '"'
    · obtain ⟨rfl, rfl⟩ := hcloses
      exact ⟨[], text, rfl, by simp, rfl⟩
    · obtain ⟨escaped', hread⟩ : ∃ escaped', (Region.string escaped).read c = .string escaped' := by
        cases escaped
        · simp only [Region.read]
          split_ifs with hbackslash hquote
          · exact ⟨true, rfl⟩
          · exact absurd ⟨rfl, hquote⟩ hcloses
          · exact ⟨false, rfl⟩
        · exact ⟨false, rfl⟩
      rw [Nesting.run_cons, nesting_step_string rfl, hread] at h
      obtain ⟨body, rest, rfl, hinside, hends⟩ := ih h
      refine ⟨c :: body, rest, rfl, fun front hfront ↦ ?_, ?_⟩
      · rcases List.prefix_cons_iff.1 hfront with rfl | ⟨front, rfl, hbody⟩
        · simp
        · rw [Region.after_cons, hread]
          exact hinside front hbody
      · rw [Region.after_cons, hread]
        exact hends

/-- How the forms at the start of a text of code end: at the end of the text, at a delimiter that
closes more than they open, or not at all. -/
inductive Parses (depth : Int) (text : List Char) : Prop where
  | ends (content : Content) (eq : text = content.render)
  | closes (content : Content) (closer : Char) (rest : List Char)
      (eq : text = content.render ++ closer :: rest) (closer_eq : closer = ')' ∨ closer = ']')
  | unclosed (deeper : depth < (Nesting.run ⟨.code, depth⟩ text).depth)

namespace Content

section

variable {depth : Int} {front text : List Char} {part : Content → Content}

/-- What a content may start with leaves the nesting as it is. -/
theorem run_part (hpart : ∀ content, (part content).render = front ++ content.render)
    (depth : Int) (text : List Char) :
    Nesting.run ⟨.code, depth⟩ (front ++ text) = Nesting.run ⟨.code, depth⟩ text := by
  have hfront : Nesting.run ⟨.code, depth⟩ (part nil).render = ⟨.code, depth⟩ :=
    (part nil).run_nesting rfl
  rw [hpart, render, List.append_nil] at hfront
  rw [Nesting.run_append, hfront]

theorem parses_prepend (hpart : ∀ content, (part content).render = front ++ content.render)
    (h : Parses depth text) : Parses depth (front ++ text) := by
  cases h with
  | ends content eq => exact .ends (part content) (by rw [hpart, eq])
  | closes content closer rest eq closer_eq =>
    exact .closes (part content) closer rest (by rw [hpart, eq, List.append_assoc]) closer_eq
  | unclosed deeper => exact .unclosed (by rwa [run_part hpart])

end

theorem parses (depth : Int) (text : List Char)
    (h : (Nesting.run ⟨.code, depth⟩ text).region = .code) : Parses depth text := by
  induction hlength : text.length using Nat.strong_induction_on generalizing depth text with
  | h length ih =>
  subst hlength
  rcases text with - | ⟨c, text⟩
  · exact .ends .nil rfl
  have hprepend : ∀ (part : Content → Content) (front rest : List Char),
      (∀ content, (part content).render = front ++ content.render) → c :: text = front ++ rest →
      front ≠ [] → Parses depth (c :: text) := by
    intro part front rest hpart heq hne
    have hlength : rest.length < (c :: text).length := by
      rw [heq, List.length_append]
      exact Nat.lt_add_of_pos_left (List.length_pos_iff.2 hne)
    rw [heq] at h ⊢
    rw [run_part hpart] at h
    exact parses_prepend hpart (ih rest.length hlength depth rest h rfl)
  by_cases quote : c = '"'
  · subst quote
    obtain ⟨body, rest, rfl, hinside, hends⟩ := exists_stringBody h
    exact hprepend _ _ rest (render_string body ⟨hinside, hends⟩) (by simp) (by simp)
  by_cases semicolon : c = ';'
  · subst semicolon
    have h : (Nesting.run ⟨.comment, depth⟩ text).region = .code := h
    have hnewline : '\n' ∈ text := by
      by_contra hnewline
      rw [Nesting.run_comment rfl hnewline] at h
      cases h
    obtain ⟨body, rest, rfl, hbody⟩ := List.eq_append_cons_of_mem hnewline
    exact hprepend _ _ rest (render_comment body hbody) (by simp) (by simp)
  by_cases opener : c = '(' ∨ c = '['
  · have hopen : Nesting.run ⟨.code, depth⟩ (c :: text) = Nesting.run ⟨.code, depth + 1⟩ text := by
      rcases opener with rfl | rfl <;> rfl
    rw [hopen] at h
    cases ih text.length (Nat.lt_succ_self _) (depth + 1) text h rfl with
    | ends content eq =>
      refine .unclosed ?_
      rw [hopen, eq, content.run_nesting rfl]
      exact Int.lt_succ depth
    | closes content closer rest eq closer_eq =>
      exact hprepend _ _ rest (render_form c closer opener closer_eq content) (by simp [eq])
        (by simp)
    | unclosed deeper =>
      refine .unclosed ?_
      rw [hopen]
      exact Int.lt_trans (Int.lt_succ depth) deeper
  by_cases closer : c = ')' ∨ c = ']'
  · exact .closes nil c text rfl closer
  by_cases hblank : c = ' ' ∨ c = '\n'
  · obtain ⟨newline, rfl⟩ : ∃ newline, c = blankChar newline := by
      rcases hblank with rfl | rfl
      · exact ⟨false, rfl⟩
      · exact ⟨true, rfl⟩
    exact hprepend (blank newline) [blankChar newline] text (fun _ ↦ rfl) rfl (by simp)
  · have plain : IsPlain c := by
      simp only [not_or] at opener closer hblank
      simp [IsPlain, *]
    exact hprepend (char c plain) [c] text (fun _ ↦ rfl) rfl (by simp)

/-- **Every balanced text is a content.** -/
theorem exists_render {text : List Char} (h : IsBalanced text) :
    ∃ content : Content, content.render = text := by
  cases parses 0 text (congrArg Nesting.region h.ends) with
  | ends content eq => exact ⟨content, eq.symm⟩
  | closes content closer rest eq closer_eq =>
    have hdepth := h.depth (content.render ++ [closer]) ⟨rest, by simp [eq]⟩
    rw [Nesting.run_append, content.run_nesting rfl] at hdepth
    rcases closer_eq with rfl | rfl <;> exact absurd hdepth (by decide)
  | unclosed deeper =>
    have hends : Nesting.run ⟨.code, 0⟩ text = ⟨.code, 0⟩ := h.ends
    rw [hends] at deeper
    exact absurd deeper (Int.lt_irrefl 0)

end Content

end SchemeStyle.Imports
