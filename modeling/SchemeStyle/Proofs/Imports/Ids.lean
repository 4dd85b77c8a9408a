import Mathlib.Data.List.Infix
import SchemeStyle.Proofs.Imports.ContentReading
import SchemeStyle.Proofs.Imports.Following

/-!
# The ids of the imports

A list that opens inside of the imports of a text is compared with the last id before it where a
space, the end of the line or a comment ends its own id. Where the list is closed right behind its
id, neither is it compared, nor is the next one with it (`idOrder_lintText`).
-/

namespace SchemeStyle.Imports

/-! ### Places -/

/-- The second place is not in front of the first one. -/
def Position.Reaches (p q : Position) : Prop :=
  p.line < q.line ∨ p.line = q.line ∧ p.column ≤ q.column

namespace Position.Reaches

variable {p q : Position}

theorem refl (p : Position) : p.Reaches p :=
  .inr ⟨rfl, Nat.le_refl _⟩

theorem of_line_le {line : Nat} (h : p.Reaches q) (hline : q.line ≤ line) :
    p.Reaches ⟨line, q.column⟩ := by
  rcases h with h | ⟨h, hcolumn⟩
  · exact .inl (Nat.lt_of_lt_of_le h hline)
  · rcases Nat.lt_or_eq_of_le hline with hlt | rfl
    · exact .inl (h ▸ hlt)
    · exact .inr ⟨h, hcolumn⟩

theorem after (h : p.Reaches q) (c : Char) : p.Reaches (q.after [c]) := by
  by_cases hc : c = '\n'
  · subst hc
    exact .inl (Nat.lt_succ_of_le (h.elim Nat.le_of_lt fun h ↦ Nat.le_of_eq h.1))
  · have hafter : q.after [c] = ⟨q.line, q.column + 1⟩ := by
      simp [Position.after, columnAfter_cons, hc]
    rw [hafter]
    exact h.imp_right (And.imp_right Nat.le_succ_of_le)

end Position.Reaches

/-- What is reported is behind the position. -/
def IsBehind (p : Position) (d : Diagnostic) : Prop :=
  ∃ q, p.Reaches q ∧ d.line = q.line ∧ d.column = q.column + 1

section

variable {style : Style} {file : String} {r : ImportReading} {p : Position}

/-- The reading, and the operator that is being read, are not in front of the position. -/
structure ReadsBehind (p : Position) (r : ImportReading) : Prop where
  position : p.Reaches r.position
  operator : ∀ token, r.operator? = some token → p.Reaches ⟨r.position.line, token.start⟩

theorem operator_code (style : Style) (r : ImportReading) (c : Char) :
    (r.code style c).operator? = none ∨
      isOpener c = true ∧ (r.code style c).operator? = some ⟨r.position.column + 1, []⟩ ∨
      (r.code style c).operator? = r.operator?.map (Token.push · c) := by
  unfold ImportReading.code
  split_ifs with quote ends opener closer
  · exact .inl rfl
  · exact .inl rfl
  · exact .inr (.inl ⟨opener, rfl⟩)
  · exact .inl rfl
  · exact .inr (.inr rfl)

theorem ReadsBehind.step (h : ReadsBehind p r) (style : Style) (c : Char) :
    ReadsBehind p (r.step style c) := by
  have hline : r.position.line ≤ (r.position.after [c]).line := Nat.le_add_right _ _
  have hkeeps : ∀ token, r.operator? = some token →
      p.Reaches ⟨(r.position.after [c]).line, token.start⟩ :=
    fun token htoken ↦ (h.operator token htoken).of_line_le hline
  refine ⟨h.position.after c, ?_⟩
  show ∀ token, (if r.nesting.region = .code then r.code style c else r).operator? = some token →
    p.Reaches ⟨(r.position.after [c]).line, token.start⟩
  intro token htoken
  split_ifs at htoken with hcode
  · rcases operator_code style r c with hnone | ⟨opener, hfresh⟩ | hpushed
    · rw [hnone] at htoken
      cases htoken
    · obtain rfl := Option.some.inj (hfresh.symm.trans htoken)
      rcases isOpener_iff.1 opener with rfl | rfl <;> exact h.position.after '('
    · obtain ⟨token, hread, rfl⟩ := Option.map_eq_some_iff.1 (hpushed.symm.trans htoken)
      exact hkeeps token hread
  · exact hkeeps token htoken

theorem place_of_mem_disorder {ctx : ImportContext} {token : Token} {line : Nat} {d : Diagnostic}
    (h : d ∈ ctx.disorder file line token) : d.line = line ∧ d.column = token.start + 1 := by
  rcases ctx with - | s | ⟨s, u, last⟩ | ⟨s, u, k, id, name⟩
  · cases h
  · cases h
  · replace h : d ∈ idDisorder file last ⟨token.text, ⟨line, token.start⟩⟩ := h
    unfold idDisorder at h
    split_ifs at h
    · cases h
    · obtain rfl := List.mem_singleton.1 h
      exact ⟨rfl, rfl⟩
  · cases h

theorem ReadsBehind.found (h : ReadsBehind p r) (file : String) (c : Char) :
    ∀ d ∈ r.found file c, IsBehind p d := by
  intro d hd
  rw [ImportReading.found] at hd
  split_ifs at hd
  · rcases hoperator : r.operator? with - | token <;> rw [hoperator] at hd
    · cases hd
    · obtain ⟨hline, hcolumn⟩ := place_of_mem_disorder hd
      exact ⟨_, h.operator token hoperator, hline, hcolumn⟩
  · cases hd

/-- What is read from a place on is reported from there on. -/
theorem ReadsBehind.reports (h : ReadsBehind p r) (style : Style) (file : String)
    (text : List Char) : ∀ d ∈ r.reports style file text, IsBehind p d := by
  induction text generalizing r with
  | nil => simp
  | cons c text ih =>
    rw [ImportReading.reports_cons, List.forall_mem_append]
    exact ⟨h.found file c, ih (h.step style c)⟩

end

/-! ### Texts -/

section

variable {style : Style} {front body rest id : List Char} {last : String}

/-- Operators are read in code only. -/
theorem operator_run (text : List Char) {r : ImportReading}
    (h : r.operator? = none ∨ r.nesting.region = .code) (style : Style) :
    (r.run style text).operator? = none ∨ (r.run style text).nesting.region = .code := by
  induction text generalizing r with
  | nil => exact h
  | cons c text ih =>
    refine ih ?_
    by_cases hcode : r.nesting.region = .code
    · rw [ImportReading.step, if_pos hcode]
      by_cases hleaves : c = '"' ∨ c = ';'
      · left
        rcases hleaves with rfl | rfl <;> rfl
      · right
        obtain ⟨quote, semicolon⟩ := not_or.1 hleaves
        simp only [Nesting.step, hcode, if_neg quote, if_neg semicolon]
        split_ifs <;> first | rfl | exact hcode
    · left
      rw [ImportReading.step, if_neg hcode]
      exact h.resolve_right hcode

/-- Behind a blank no operator is being read. -/
theorem operator_of_blank {text : List Char}
    (h : text.getLast? = some ' ' ∨ text.getLast? = some '\n') (style : Style) :
    (ImportReading.run style {} text).operator? = none := by
  obtain ⟨c, hc, hlast⟩ : ∃ c, (c = ' ' ∨ c = '\n') ∧ text.getLast? = some c :=
    h.elim (fun h ↦ ⟨' ', .inl rfl, h⟩) fun h ↦ ⟨'\n', .inr rfl, h⟩
  obtain ⟨before, rfl⟩ := List.getLast?_eq_some_iff.1 hlast
  rw [ImportReading.run_append, ImportReading.run_cons, ImportReading.run_nil, ImportReading.step]
  by_cases hcode : (ImportReading.run style {} before).nesting.region = .code
  · rw [if_pos hcode]
    rcases hc with rfl | rfl <;> rfl
  · rw [if_neg hcode]
    exact (operator_run before (.inl rfl) style).resolve_right hcode

/-- A text that is linted to its end is so up to any place in code. -/
theorem failure_eq_none_of_front
    (h : (lintText style (String.ofList (front ++ rest))).failure? = none)
    (hcode : (Nesting.run {} front).region = .code) :
    (lintText style (String.ofList front)).failure? = none := by
  have hwithin := within_of_lintText h
  rw [String.toList_ofList, Nesting.within_append_iff] at hwithin
  have hnewline : Nesting.Within style.maxDepth {} (front ++ ['\n']) := by
    rw [Nesting.within_append_iff, Nesting.within_cons_iff, Nesting.within_nil_iff,
      Nesting.step_eq_self hcode (by decide)]
    exact ⟨hwithin.1, hwithin.1.inBounds_run, hwithin.1.inBounds_run⟩
  rw [lintText, String.toList_ofList]
  refine failure_eq_none_of_within (fun _ hl ↦ newline_notMem_of_mem_splitLines hl)
    startsLine_start ?_
  rcases joinLines_splitLines front with heq | heq <;> rw [heq]
  · exact hwithin.1
  · exact hnewline

/-- The text stops behind a blank inside of the imports, in no declaration, and with that last
id. -/
structure StopsInside (style : Style) (text : List Char) (last : String) : Prop where
  code : (Nesting.run {} text).region = .code
  blank : text.getLast? = some ' ' ∨ text.getLast? = some '\n'
  imports : ∃ s, (lintText style (String.ofList text)).state.imports =
    .inImports s (lintText style (String.ofList text)).state.depth last

/-- What has been read of a text that stops inside of the imports. -/
theorem StopsInside.between (h : StopsInside style front last)
    (hends : (lintText style (String.ofList front)).failure? = none) (file : String) :
    let r := ImportReading.run style {} front
    (∃ s d, Between r s d d last) ∧ r.operator? = none ∧
      ((lintText style (String.ofList front)).diagnostics file).filter Diagnostic.isIdOrder =
        ImportReading.reports style file {} front := by
  intro r
  have hcode : r.nesting.region = .code := by
    rw [ImportReading.nesting_run]
    exact h.code
  have hoperator : r.operator? = none := operator_of_blank h.blank style
  obtain ⟨s, himports⟩ := h.imports
  obtain ⟨ends, hblank, hstarts, hreports⟩ := idReports_lintText hends file
  have hblanks : ∀ c ∈ ends, c = ' ' ∨ c = '\n' := by rcases hblank with rfl | rfl <;> simp
  obtain ⟨hrun, hnothing⟩ :=
    ImportReading.run_of_blank hblanks hoperator (.inl hcode) style file
  rw [ImportReading.run_append, hrun] at hstarts
  refine ⟨⟨s, _, hcode, hstarts.nesting.depth, Nat.le_refl _, ?_⟩, hoperator, ?_⟩
  · rw [hstarts.knows.imports.trans (congrArg _ himports)]
    rfl
  · rw [hreports, ImportReading.reports_append, hnothing, List.append_nil]

/-- What has been read of it together with a content behind it. -/
theorem StopsInside.between_content (h : StopsInside style front last)
    (hends : (lintText style (String.ofList front)).failure? = none) (content : Content)
    (file : String) :
    let ids := content.heads (Position.after {} front)
    (∃ s d, Between (ImportReading.run style {} (front ++ content.render)) s d d
      (lastOf last ids)) ∧
      ImportReading.reports style file {} (front ++ content.render) =
        ((lintText style (String.ofList front)).diagnostics file).filter Diagnostic.isIdOrder ++
          idDisorders file last ids := by
  intro ids
  obtain ⟨⟨s, d, hbetween⟩, hoperator, hfront⟩ := h.between hends file
  have hposition : (ImportReading.run style {} front).position = Position.after {} front :=
    ImportReading.position_run style {} front
  obtain ⟨himports, hcontent⟩ := content.run_between hbetween (.inl hoperator) style file
  have hnesting : ((ImportReading.run style {} front).run style content.render).nesting =
      (ImportReading.run style {} front).nesting := by
    rw [ImportReading.nesting_run]
    exact content.run_nesting hbetween.code
  rw [hposition] at himports hcontent
  rw [ImportReading.run_append, ImportReading.reports_append, hfront, hcontent]
  refine ⟨⟨s, d, ?_, ?_, Nat.le_refl d, himports⟩, rfl⟩
  · rw [hnesting, hbetween.code]
  · rw [hnesting, hbetween.depth]

/-- A list behind a content is read by its id and what ends it, and then what follows. -/
theorem StopsInside.idReports_list (hfront : StopsInside style front last) (content : Content)
    {opener e : Char} (opens : opener = '(' ∨ opener = '[') (hid : ∀ c ∈ id, IsPlain c)
    (he : e ∈ [' ', '\n', ';', ')', ']'])
    (hends : (lintText style
      (String.ofList (front ++ content.render ++ (opener :: id ++ e :: rest)))).failure? = none)
    (file : String) :
    let ids := content.heads (Position.after {} front)
    let place := Position.after {} (front ++ content.render ++ [opener])
    ∃ later,
      ((lintText style
          (String.ofList (front ++ content.render ++ (opener :: id ++ e :: rest)))).diagnostics
            file).filter Diagnostic.isIdOrder =
        ((lintText style (String.ofList front)).diagnostics file).filter Diagnostic.isIdOrder ++
          idDisorders file last ids ++
          (if e = ')' ∨ e = ']' then []
          else idDisorder file (lastOf last ids) ⟨String.ofList id, place⟩) ++ later ∧
      ∀ d ∈ later,
        place.line < d.line ∨ place.line = d.line ∧ place.column + id.length < d.column := by
  intro ids place
  have htext : front ++ content.render ++ (opener :: id ++ e :: rest) =
      front ++ content.render ++ (opener :: id ++ [e]) ++ rest := by simp
  rw [htext] at hends ⊢
  have hfrontEnds : (lintText style (String.ofList front)).failure? = none := by
    rw [List.append_assoc, List.append_assoc] at hends
    exact failure_eq_none_of_front hends hfront.code
  obtain ⟨⟨s, d, hbetween⟩, hbefore⟩ := hfront.between_content hfrontEnds content file
  obtain ⟨hlist, hnone⟩ := reports_list hbetween opens hid he style file
  have hplace : (ImportReading.run style {} (front ++ content.render)).position.after [opener] =
      place := by
    rw [ImportReading.position_run, ← Position.after_append]
  -- What follows is read from behind the list's id on, where no operator is being read.
  have hbehind : ReadsBehind (place.after id)
      ((ImportReading.run style {} (front ++ content.render)).run style (opener :: id ++ [e])) := by
    refine ⟨?_, fun token htoken ↦ ?_⟩
    · rw [ImportReading.position_run, List.cons_append, Position.after_cons, hplace,
        Position.after_append]
      exact (Position.Reaches.refl _).after e
    · rw [hnone] at htoken
      cases htoken
  obtain ⟨ends, -, -, hreports⟩ := idReports_lintText hends file
  refine ⟨((ImportReading.run style {} (front ++ content.render)).run style
    (opener :: id ++ [e])).reports style file (rest ++ ends), ?_, fun report hreport ↦ ?_⟩
  · rw [hreports, List.append_assoc _ rest, ImportReading.reports_append,
      ImportReading.reports_append, hbefore, hlist, hplace, ImportReading.run_append]
  · obtain ⟨q, hreaches, hline, hcolumn⟩ := hbehind.reports style file _ report hreport
    rw [after_of_plain hid] at hreaches
    rw [hline, hcolumn]
    rcases hreaches with hlt | ⟨heq, hle⟩
    · exact .inl (Int.ofNat_lt.2 hlt)
    · exact .inr ⟨congrArg Int.ofNat heq, Int.lt_add_one_of_le (Int.ofNat_le.2 hle)⟩

/-- **The id of a list inside of the imports is compared with the last id before it, and reported
exactly if it is out of order, unless the list is closed right behind its id.** Whatever balanced
text stands between the start of the imports and the list, only its ids are compared, one by one,
and what follows is about later places. -/
theorem idOrder_lintText (hfront : StopsInside style front last) (hbody : IsBalanced body)
    {opener e : Char} (opens : opener = '(' ∨ opener = '[') (hid : ∀ c ∈ id, IsPlain c)
    (he : e ∈ [' ', '\n', ';', ')', ']'])
    (hends : (lintText style
      (String.ofList (front ++ body ++ (opener :: id ++ e :: rest)))).failure? = none)
    (file : String) :
    (∃ content : Content, content.render = body) ∧
    ∀ content : Content, content.render = body →
      let ids := content.heads (Position.after {} front)
      let place := Position.after {} (front ++ body ++ [opener])
      ∃ later,
        ((lintText style
            (String.ofList (front ++ body ++ (opener :: id ++ e :: rest)))).diagnostics
              file).filter Diagnostic.isIdOrder =
          ((lintText style (String.ofList front)).diagnostics file).filter Diagnostic.isIdOrder ++
            idDisorders file last ids ++
            (if e = ')' ∨ e = ']' then []
            else idDisorder file (lastOf last ids) ⟨String.ofList id, place⟩) ++ later ∧
        ∀ d ∈ later,
          place.line < d.line ∨ place.line = d.line ∧ place.column + id.length < d.column := by
  refine ⟨Content.exists_render hbody, ?_⟩
  rintro content rfl
  exact hfront.idReports_list content opens hid he hends file

/-- An id that a space ends is reported where it is smaller than the one before. -/
theorem idOrder_of_decreasing :
    let front := "(Chapter 1\n  (use ".toList
    let list := "(:1 b)))\n".toList
    let text := String.ofList (front ++ "(:2 a)\n       ".toList ++ list)
    (StopsInside .standard front "" ∧ IsBalanced "(:2 a)\n       ".toList ∧
        (lintText .standard text).failure? = none) ∧
      ⟨"t.ss", 3, 9, "incorrect import id ordering: :2 > :1"⟩ ∈
        (lintText .standard text).diagnostics "t.ss" := by
  intro front list text
  have hfront : StopsInside .standard front "" :=
    ⟨by decide +kernel, by decide +kernel, 1, by decide +kernel⟩
  let declaration : Content := .char ':' (by simp [IsPlain]) (.char '2' (by simp [IsPlain])
    (.blank false (.char 'a' (by simp [IsPlain]) .nil)))
  let content : Content := .form '(' ')' (.inl rfl) (.inl rfl) declaration
    (.blank true (.blank false (.blank false (.blank false (.blank false (.blank false
      (.blank false (.blank false .nil))))))))
  have hid : ∀ c ∈ ":1".toList, IsPlain c := by simp [IsPlain]
  have hcontent : content.render = "(:2 a)\n       ".toList := by decide +kernel
  have hbody : IsBalanced "(:2 a)\n       ".toList := by
    have hdepth : ∀ front ∈ "(:2 a)\n       ".toList.inits, 0 ≤ (Nesting.run {} front).depth := by
      decide +kernel
    exact ⟨by decide +kernel, fun front hprefix ↦ hdepth front ((List.mem_inits _ _).2 hprefix)⟩
  have htext : text = String.ofList (front ++ "(:2 a)\n       ".toList ++
      ('(' :: ":1".toList ++ ' ' :: "b)))\n".toList)) := by
    decide +kernel
  have hends : (lintText .standard text).failure? = none := by decide +kernel
  refine ⟨⟨hfront, hbody, hends⟩, ?_⟩
  rw [htext] at hends ⊢
  obtain ⟨later, hreports, -⟩ :=
    (idOrder_lintText hfront hbody (.inl rfl) hid (by simp) hends "t.ss").2 content hcontent
  refine (List.mem_filter.1 (hreports ▸ List.mem_append_left later
    (List.mem_append_right _ ?_))).1
  decide +kernel

/-- An id that its list is closed behind is not compared. -/
theorem unreported_of_closed :
    let text := "(Chapter 1\n  (use (:2 a)\n       (:1)))\n"
    (lintText .standard text).failure? = none ∧
      ((lintText .standard text).diagnostics "t.ss").filter Diagnostic.isIdOrder = [] ∧
      idsInOrder ":2" ":1" = false := by
  decide +kernel

end

end SchemeStyle.Imports
