import SchemeStyle.Proofs.Imports.Content
import SchemeStyle.Proofs.Imports.Exactness
import SchemeStyle.Proofs.Imports.Reading

/-!
# Reading what a form of imports holds

Whatever stands inside of the imports, its ids are compared one by one with the one before, and
nothing else is (`Content.run_between`): an operator that counts opens a declaration
(`Content.run_declaration`), in which nothing is about ids (`Content.run_inside`). A list that opens
there is compared with the last id before it, unless it is closed right behind its own
(`reports_list`).
-/

namespace SchemeStyle.Imports

/-! ### Reading a content -/

section

variable {style : Style} {file : String} {r : ImportReading} {s u d k : Nat} {id last : String}
  {c : Char}

/-- A character that means nothing goes on with the operator. -/
theorem step_plain (hcode : r.nesting.region = .code) (hc : IsPlain c) (style : Style)
    (file : String) :
    r.step style c =
        { r with
          position := r.position.after [c]
          operator? := r.operator?.map (Token.push · c) } ∧
      r.found file c = [] := by
  rw [ImportReading.step, if_pos hcode, ImportReading.code_of_plain hc,
    Nesting.step_eq_self hcode hc.idle, ImportReading.found, if_neg]
  · exact ⟨rfl, rfl⟩
  · rintro ⟨-, hends⟩
    rcases endsOperator_iff.1 hends with rfl | rfl | rfl <;> simp [IsPlain] at hc

/-- A blank ends the operator. -/
theorem step_blank (hcode : r.nesting.region = .code) (newline : Bool) (style : Style)
    (file : String) :
    r.step style (Content.blankChar newline) =
        { r.finish style with position := r.position.after [Content.blankChar newline] } ∧
      r.found file (Content.blankChar newline) =
        r.operator?.elim [] (r.imports.disorder file r.position.line) := by
  have hends : endsOperator (Content.blankChar newline) = true := by cases newline <;> rfl
  have hnesting : r.nesting.step (Content.blankChar newline) = r.nesting := by
    refine Nesting.step_eq_self hcode ?_
    cases newline <;> decide
  rw [ImportReading.step, if_pos hcode, ImportReading.code_of_ends hends, hnesting,
    ImportReading.found, if_pos ⟨hcode, hends⟩]
  exact ⟨rfl, rfl⟩

/-- A string is read up to the quote that closes it. -/
theorem run_stringBody {body : List Char} (h : r.nesting.region = .string false)
    (hbody : IsStringBody body) (style : Style) (file : String) :
    r.run style (body ++ ['"']) =
        { r with
          nesting := { r.nesting with region := .code }
          position := r.position.after (body ++ ['"']) } ∧
      r.reports style file (body ++ ['"']) = [] := by
  have hrun : ∀ front, front <+: body →
      r.nesting.run front = { r.nesting with region := (Region.string false).after front } := by
    intro front hfront
    rw [← h]
    refine nesting_run_string (fun front' hfront' ↦ ?_) (by simp [h])
    rw [h]
    exact hbody.inside front' (hfront'.trans hfront)
  have hends : r.nesting.run (body ++ ['"']) = { r.nesting with region := .code } := by
    rw [Nesting.run_append, hrun body (List.prefix_refl _), hbody.ends]
    rfl
  rw [← hends]
  refine ImportReading.run_of_ne_code (fun front c hfront ↦ ?_) style file
  have hle : front <+: body := by
    rcases List.prefix_concat_iff.1 hfront with heq | hle
    · exact (List.append_inj_left' heq rfl).symm ▸ List.prefix_refl body
    · exact (List.prefix_append front [c]).trans hle
  rw [hrun front hle]
  exact hbody.inside front hle

/-- A string breaks the operator off. -/
theorem run_string {body : List Char} (hcode : r.nesting.region = .code)
    (hbody : IsStringBody body) (style : Style) (file : String) :
    r.run style ('"' :: body ++ ['"']) =
        { r with
          position := r.position.after ('"' :: body ++ ['"'])
          operator? := none } ∧
      r.reports style file ('"' :: body ++ ['"']) = [] := by
  have hstep : r.step style '"' =
      { r with
        nesting := { r.nesting with region := .string false }
        position := r.position.after ['"']
        operator? := none } := by
    rw [ImportReading.step, if_pos hcode, Nesting.step, hcode]
    rfl
  have hregion : (r.step style '"').nesting.region = .string false := by rw [hstep]
  obtain ⟨hrun, hreports⟩ := run_stringBody hregion hbody style file
  have hfound : r.found file '"' = [] := if_neg fun hends ↦ by simp [endsOperator] at hends
  rw [List.cons_append, ImportReading.run_cons, ImportReading.reports_cons, hfound, hrun, hreports,
    hstep, Position.after_cons _ '"' (body ++ ['"']), ← hcode]
  exact ⟨rfl, rfl⟩

theorem Position.after_opener (hc : c = '(' ∨ c = '[') (p : Position) :
    p.after [c] = ⟨p.line, p.column + 1⟩ := by
  rcases hc with rfl | rfl <;> rfl

/-- Where the reading stands right behind the delimiter that opens a form. -/
def opened (r : ImportReading) (opener : Char) : ImportReading where
  nesting := ⟨.code, r.nesting.depth + 1⟩
  position := r.position.after [opener]
  imports := r.imports
  operator? := some ⟨r.position.column + 1, []⟩

/-- A form opens with its operator, and breaks off the one around it. -/
theorem step_opener (hcode : r.nesting.region = .code) (hc : c = '(' ∨ c = '[') (style : Style)
    (file : String) :
    r.step style c = opened r c ∧ r.found file c = [] := by
  have hfound : r.found file c = [] :=
    if_neg fun hends ↦ by rcases hc with rfl | rfl <;> cases hends.2
  rw [hfound, ImportReading.step, if_pos hcode, Nesting.step, hcode]
  rcases hc with rfl | rfl <;> exact ⟨rfl, rfl⟩

/-- Where a form is closed its operator is forgotten. -/
theorem step_closer (hcode : r.nesting.region = .code) (hc : c = ')' ∨ c = ']') (style : Style)
    (file : String) :
    r.step style c =
        { r with
          nesting := ⟨.code, r.nesting.depth - 1⟩
          position := r.position.after [c]
          imports := (r.imports.leave r.nesting.depth.toNat).2
          operator? := none } ∧
      r.found file c = [] := by
  have hfound : r.found file c = [] :=
    if_neg fun hends ↦ by rcases hc with rfl | rfl <;> cases hends.2
  rw [hfound, ImportReading.step, if_pos hcode, Nesting.step, hcode]
  rcases hc with rfl | rfl <;> exact ⟨rfl, rfl⟩

namespace Content

/-- A form is read as its inside is, and leaves the import form that began with it. -/
theorem run_form (inner : Content) {opener closer : Char} (hcode : r.nesting.region = .code)
    (opens : opener = '(' ∨ opener = '[') (closes : closer = ')' ∨ closer = ']') (style : Style)
    (file : String) :
    r.run style (opener :: inner.render ++ [closer]) =
        { r with
          position := r.position.after (opener :: inner.render ++ [closer])
          imports := (((opened r opener).run style inner.render).imports.leave
            (r.nesting.depth + 1).toNat).2
          operator? := none } ∧
      r.reports style file (opener :: inner.render ++ [closer]) =
        (opened r opener).reports style file inner.render := by
  obtain ⟨hopen, hfound⟩ := step_opener hcode opens style file
  have hnesting : ((opened r opener).run style inner.render).nesting =
      ⟨.code, r.nesting.depth + 1⟩ := by
    rw [ImportReading.nesting_run]
    exact inner.run_nesting rfl
  have hposition := ImportReading.position_run style (opened r opener) inner.render
  obtain ⟨hclose, hfound'⟩ :=
    step_closer (c := closer) (congrArg Nesting.region hnesting) closes style file
  have hdepth : r.nesting.depth + 1 - 1 = r.nesting.depth := Int.add_sub_cancel _ 1
  rw [List.cons_append, ImportReading.run_cons, ImportReading.reports_cons, hopen, hfound,
    ImportReading.run_append, ImportReading.reports_append, ImportReading.run_cons,
    ImportReading.reports_cons, hfound', hclose, hnesting, hposition, hdepth,
    Position.after_cons _ opener (inner.render ++ [closer]), Position.after_append, ← hcode]
  exact ⟨rfl, List.append_nil _⟩

/-- In a declaration nothing is about ids. -/
theorem run_inside (content : Content) (hcode : r.nesting.region = .code)
    (hdepth : r.nesting.depth = d) (hk : k ≤ d)
    (himports : r.imports = .inDeclaration s u k id "") (style : Style) (file : String) :
    (r.run style content.render).imports = .inDeclaration s u k id "" ∧
      r.reports style file content.render = [] := by
  have hnone : ∀ {r : ImportReading}, r.imports = .inDeclaration s u k id "" →
      (r.finish style).imports = .inDeclaration s u k id "" ∧
        r.operator?.elim [] (r.imports.disorder file r.position.line) = [] := by
    intro r himports
    rw [ImportReading.finish, himports]
    cases r.operator? <;> exact ⟨rfl, rfl⟩
  induction content generalizing r d with
  | nil => exact ⟨himports, rfl⟩
  | char c plain rest ih =>
    obtain ⟨hstep, hfound⟩ := step_plain hcode plain style file
    rw [render, ImportReading.run_cons, ImportReading.reports_cons, hfound, hstep]
    exact ih hcode hdepth hk himports
  | blank newline rest ih =>
    obtain ⟨hstep, hfound⟩ := step_blank hcode newline style file
    obtain ⟨himports', hreports⟩ := hnone himports
    rw [render, ImportReading.run_cons, ImportReading.reports_cons, hfound, hreports, hstep]
    exact ih hcode hdepth hk himports'
  | string body inside rest ih =>
    obtain ⟨hrun, hreports⟩ := run_string hcode inside style file
    rw [render_string, ImportReading.run_append, ImportReading.reports_append, hreports, hrun]
    exact ih hcode hdepth hk himports
  | comment body line rest ih =>
    obtain ⟨hrun, hreports⟩ := ImportReading.run_comment hcode line style file
    obtain ⟨himports', hnothing⟩ := hnone himports
    rw [render_comment, ImportReading.run_append, ImportReading.reports_append, hreports, hnothing,
      hrun]
    exact ih hcode hdepth hk himports'
  | form opener closer opens closes inner rest ihInner ihRest =>
    obtain ⟨hrun, hreports⟩ := run_form inner hcode opens closes style file
    have hdepth' : (opened r opener).nesting.depth = (d + 1 : Nat) := congrArg (· + 1) hdepth
    obtain ⟨himports', hnothing⟩ := ihInner rfl hdepth' (by omega) himports
    have hleave : ((ImportContext.inDeclaration s u k id "").leave (r.nesting.depth + 1).toNat).2 =
        .inDeclaration s u k id "" := by
      have hne : k ≠ d + 1 := Nat.ne_of_lt (Nat.lt_succ_of_le hk)
      have houtside : (r.nesting.depth + 1).toNat = d + 1 := by
        rw [hdepth]
        rfl
      simp [houtside, ImportContext.leave, ImportContext.depths, hne]
    rw [render_form, ImportReading.run_append, ImportReading.reports_append, hreports, hnothing,
      hrun, himports', hleave]
    exact ihRest hcode hdepth hk rfl

end Content

/-- The reading stands inside of the imports, and in no declaration. -/
structure Between (r : ImportReading) (s u d : Nat) (last : String) : Prop where
  code : r.nesting.region = .code
  depth : r.nesting.depth = d
  inside : u ≤ d
  imports : r.imports = .inImports s u last

namespace Between

/-- An operator that ends opens a declaration, and is compared with the id before. -/
theorem finish {token : Token} (h : Between r s u d last) (hop : r.operator? = some token)
    (style : Style) (file : String) :
    (r.finish style).imports = .inDeclaration s u d token.text "" ∧
      r.operator?.elim [] (r.imports.disorder file r.position.line) =
        idDisorder file last ⟨token.text, ⟨r.position.line, token.start⟩⟩ := by
  rw [ImportReading.finish, hop, h.imports, h.depth]
  exact ⟨rfl, rfl⟩

theorem opened (h : Between r s u d last) (opener : Char) :
    Between (opened r opener) s u (d + 1) last :=
  ⟨rfl, congrArg (· + 1) h.depth, Nat.le_succ_of_le h.inside, h.imports⟩

end Between

namespace Content

/-- **An operator that counts is compared with the id before it**, and opens a declaration. -/
theorem run_declaration (content : Content) {token : Token} {id : List Char}
    (h : Between r s u d last) (hop : r.operator? = some token)
    (hid : content.operator? = some id) (style : Style) (file : String) :
    let head := String.ofList (token.chars.reverse ++ id)
    (r.run style content.render).imports = .inDeclaration s u d head "" ∧
      r.reports style file content.render =
        idDisorder file last ⟨head, ⟨r.position.line, token.start⟩⟩ := by
  induction content generalizing r token id with
  | nil => cases hid
  | string => cases hid
  | form => cases hid
  | char c plain rest ih =>
    obtain ⟨id, hrest, rfl⟩ := Option.map_eq_some_iff.1 hid
    obtain ⟨hstep, hfound⟩ := step_plain h.code plain style file
    have hline : (r.position.after [c]).line = r.position.line :=
      line_after_of_plain (List.forall_mem_singleton.2 plain) r.position
    have hchars : (token.push c).chars.reverse ++ id = token.chars.reverse ++ c :: id := by
      simp [Token.push]
    have hpushed : (r.step style c).operator? = some (token.push c) := by rw [hstep, hop]; rfl
    have hbetween : Between (r.step style c) s u d last := by
      rw [hstep]
      exact ⟨h.code, h.depth, h.inside, h.imports⟩
    obtain ⟨himports, hreports⟩ := ih hbetween hpushed hrest
    rw [hchars] at himports hreports
    rw [render, ImportReading.run_cons, ImportReading.reports_cons, hfound]
    refine ⟨himports, hreports.trans ?_⟩
    rw [hstep]
    exact congrArg (fun line ↦ idDisorder file last ⟨_, ⟨line, token.start⟩⟩) hline
  | blank newline rest =>
    obtain rfl := Option.some.inj hid
    obtain ⟨hstep, hfound⟩ := step_blank h.code newline style file
    obtain ⟨himports, hdisorder⟩ := h.finish hop style file
    obtain ⟨hrest, hnothing⟩ := rest.run_inside
      (r := { r.finish style with position := r.position.after [blankChar newline] })
      h.code h.depth (Nat.le_refl d) himports style file
    rw [render, ImportReading.run_cons, ImportReading.reports_cons, hfound, hdisorder, hstep,
      hnothing, List.append_nil, List.append_nil]
    exact ⟨hrest, rfl⟩
  | comment body line rest =>
    obtain rfl := Option.some.inj hid
    obtain ⟨hrun, hreports⟩ := ImportReading.run_comment h.code line style file
    obtain ⟨himports, hdisorder⟩ := h.finish hop style file
    obtain ⟨hrest, hnothing⟩ := rest.run_inside
      (r := { r.finish style with position := r.position.after (';' :: body ++ ['\n']) })
      h.code h.depth (Nat.le_refl d) himports style file
    rw [render_comment, ImportReading.run_append, ImportReading.reports_append, hreports, hdisorder,
      hrun, hnothing, List.append_nil, List.append_nil]
    exact ⟨hrest, rfl⟩

/-- Where the form of a content is closed, its ids are those that were compared. -/
theorem run_inner {opener : Char} {inner : Content} (h : Between r s u d last)
    (opens : opener = '(' ∨ opener = '[')
    (hinner : inner.operator? = none →
      ((opened r opener).run style inner.render).imports =
          .inImports s u (lastOf last (inner.heads (r.position.after [opener]))) ∧
        (opened r opener).reports style file inner.render =
          idDisorders file last (inner.heads (r.position.after [opener]))) :
    let ids := match inner.operator? with
      | some id => [⟨String.ofList id, r.position.after [opener]⟩]
      | none => inner.heads (r.position.after [opener])
    (((opened r opener).run style inner.render).imports.leave (r.nesting.depth + 1).toNat).2 =
        .inImports s u (lastOf last ids) ∧
      (opened r opener).reports style file inner.render = idDisorders file last ids := by
  have hdepth : (r.nesting.depth + 1).toNat = d + 1 := by
    rw [h.depth]
    rfl
  have hposition := r.position.after_opener opens
  rw [hdepth]
  rcases hid : inner.operator? with - | id <;> intro ids
  · obtain ⟨himports, hreports⟩ := hinner hid
    have hleave : ((ImportContext.inImports s u (lastOf last ids)).leave (d + 1)).2 =
        .inImports s u (lastOf last ids) := by
      have hne : u ≠ d + 1 := Nat.ne_of_lt (Nat.lt_succ_of_le h.inside)
      simp [ImportContext.leave, ImportContext.depths, hne]
    rw [himports]
    exact ⟨hleave, hreports⟩
  · obtain ⟨himports, hreports⟩ := inner.run_declaration (h.opened opener) rfl hid style file
    rw [himports, leave_inDeclaration, hreports, idDisorders, idDisorders, List.append_nil,
      opened, hposition]
    exact ⟨rfl, rfl⟩

/-- **The ids of a content between declarations are compared one by one with the one before**, and
the last one is the one the next is compared with. -/
theorem run_between (content : Content) (h : Between r s u d last)
    (hoperator : r.operator? = none ∨ content.operator? = none) (style : Style) (file : String) :
    (r.run style content.render).imports =
        .inImports s u (lastOf last (content.heads r.position)) ∧
      r.reports style file content.render =
        idDisorders file last (content.heads r.position) := by
  induction content generalizing r d last with
  | nil => exact ⟨h.imports, rfl⟩
  | char c plain rest ih =>
    obtain ⟨hstep, hfound⟩ := step_plain h.code plain style file
    have hrest : (r.operator?.map (Token.push · c)) = none ∨ rest.operator? = none := by
      rcases hoperator with hoperator | hoperator
      · exact .inl (congrArg (Option.map (Token.push · c)) hoperator)
      · exact .inr (Option.map_eq_none_iff.1 hoperator)
    rw [render, ImportReading.run_cons, ImportReading.reports_cons, hfound, hstep]
    exact ih ⟨h.code, h.depth, h.inside, h.imports⟩ hrest
  | blank newline rest ih =>
    have hoperator : r.operator? = none := hoperator.resolve_right (by simp [operator?])
    obtain ⟨hstep, hfound⟩ := step_blank h.code newline style file
    obtain ⟨hfinish, hnothing⟩ := ImportReading.finish_of_none hoperator style file
    rw [render, ImportReading.run_cons, ImportReading.reports_cons, hfound, hnothing, hstep,
      hfinish]
    exact ih ⟨h.code, h.depth, h.inside, h.imports⟩ (.inl hoperator)
  | string body inside rest ih =>
    obtain ⟨hrun, hreports⟩ := run_string h.code inside style file
    rw [render_string, ImportReading.run_append, ImportReading.reports_append, hreports, hrun]
    exact ih ⟨h.code, h.depth, h.inside, h.imports⟩ (.inl rfl)
  | comment body line rest ih =>
    have hoperator : r.operator? = none := hoperator.resolve_right (by simp [operator?])
    obtain ⟨hrun, hreports⟩ := ImportReading.run_comment h.code line style file
    obtain ⟨hfinish, hnothing⟩ := ImportReading.finish_of_none hoperator style file
    rw [render_comment, ImportReading.run_append, ImportReading.reports_append, hreports, hnothing,
      hrun, hfinish]
    exact ih ⟨h.code, h.depth, h.inside, h.imports⟩ (.inl hoperator)
  | form opener closer opens closes inner rest ihInner ihRest =>
    obtain ⟨hrun, hreports⟩ := run_form inner h.code opens closes style file
    obtain ⟨hleave, hinner⟩ :=
      run_inner h opens fun hnone ↦ ihInner (h.opened opener) (.inr hnone)
    rw [render_form, ImportReading.run_append, ImportReading.reports_append, hreports, hrun, hleave,
      hinner, heads, lastOf_append, idDisorders_append]
    obtain ⟨himports, hrest⟩ := ihRest
      (r := { r with
        position := r.position.after (opener :: inner.render ++ [closer])
        imports := .inImports s u (lastOf last _)
        operator? := none })
      ⟨h.code, h.depth, h.inside, rfl⟩ (.inl rfl)
    exact ⟨himports, congrArg (_ ++ ·) hrest⟩

end Content

/-! ### Reading the id of a list -/

/-- The characters of an id are collected. -/
theorem run_plain {id : List Char} (hcode : r.nesting.region = .code) (hid : ∀ c ∈ id, IsPlain c)
    (style : Style) (file : String) :
    r.run style id =
        { r with
          position := r.position.after id
          operator? := r.operator?.map fun token ↦ ⟨token.start, id.reverse ++ token.chars⟩ } ∧
      r.reports style file id = [] := by
  induction id generalizing r with
  | nil =>
    rcases r with ⟨_, _, _, _ | _⟩ <;> exact ⟨rfl, rfl⟩
  | cons c id ih =>
    obtain ⟨hc, hid⟩ := List.forall_mem_cons.1 hid
    obtain ⟨hstep, hfound⟩ := step_plain hcode hc style file
    rw [ImportReading.run_cons, ImportReading.reports_cons, hfound, hstep,
      Position.after_cons _ c id]
    obtain ⟨hrun, hreports⟩ := ih
      (r := { r with
        position := r.position.after [c]
        operator? := r.operator?.map (Token.push · c) }) hcode hid
    rw [hrun, hreports]
    refine ⟨?_, rfl⟩
    rcases r.operator? with - | token
    · rfl
    · simp [Token.push]

/-- Where an operator ends it is compared with the id before. -/
theorem step_end {token : Token} (h : Between r s u d last) (hop : r.operator? = some token)
    (hc : endsOperator c = true) (style : Style) (file : String) :
    r.found file c = idDisorder file last ⟨token.text, ⟨r.position.line, token.start⟩⟩ ∧
      (r.step style c).operator? = none := by
  rw [ImportReading.found, if_pos ⟨h.code, hc⟩, (h.finish hop style file).2, ImportReading.step,
    if_pos h.code, ImportReading.code_of_ends hc]
  exact ⟨rfl, rfl⟩

/-- **The id of a list is compared with the last one before it, unless the list is closed right
behind it.** -/
theorem reports_list {opener e : Char} {id : List Char} (h : Between r s u d last)
    (opens : opener = '(' ∨ opener = '[') (hid : ∀ c ∈ id, IsPlain c)
    (he : e ∈ [' ', '\n', ';', ')', ']']) (style : Style) (file : String) :
    r.reports style file (opener :: id ++ [e]) =
        (if e = ')' ∨ e = ']' then []
        else idDisorder file last ⟨String.ofList id, r.position.after [opener]⟩) ∧
      (r.run style (opener :: id ++ [e])).operator? = none := by
  obtain ⟨hopen, hfound⟩ := step_opener h.code opens style file
  obtain ⟨hrun, hreports⟩ := run_plain (r := opened r opener) rfl hid style file
  have hposition := r.position.after_opener opens
  have hline : ((opened r opener).position.after id).line = r.position.line := by
    rw [line_after_of_plain hid, opened, hposition]
  have hbehind : Between ((opened r opener).run style id) s u (d + 1) last := by
    rw [hrun]
    exact ⟨rfl, congrArg (· + 1) h.depth, Nat.le_succ_of_le h.inside, h.imports⟩
  have hoperator : ((opened r opener).run style id).operator? =
      some ⟨r.position.column + 1, id.reverse⟩ := by
    rw [hrun]
    simp [opened]
  rw [List.cons_append, ImportReading.reports_cons, ImportReading.run_cons, hopen, hfound,
    ImportReading.reports_append, ImportReading.run_append, hreports, ImportReading.reports_cons,
    ImportReading.run_cons, ImportReading.reports_nil, ImportReading.run_nil, List.append_nil]
  by_cases closer : e = ')' ∨ e = ']'
  · obtain ⟨hclose, hnothing⟩ := step_closer hbehind.code closer style file
    rw [if_pos closer, hnothing, hclose]
    exact ⟨rfl, rfl⟩
  · have hends : endsOperator e = true := by
      rw [endsOperator_iff]
      simp only [List.mem_cons, List.not_mem_nil, or_false] at he
      tauto
    obtain ⟨hcompared, hnone⟩ := step_end hbehind hoperator hends style file
    rw [if_neg closer, hcompared, hnone, hrun, hposition]
    refine ⟨?_, rfl⟩
    simp [Token.text, hline]

end

end SchemeStyle.Imports
