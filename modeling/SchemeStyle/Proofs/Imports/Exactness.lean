import SchemeStyle.Proofs.Imports.Elements

/-!
# What is reported about imports is what is out of order

A block of imports is read part by part: a declaration from its delimiter to the one that closes it
(`reports_declaration`), further declarations behind a first one (`reports_declarations`), and the
forms around them. Each part reports what the description of the block says of it, so the
diagnostics about imports of the whole text are `disorders`, in the order of the text
(`lintText_useBlock`).
-/

namespace SchemeStyle.Imports

variable {style : Style} {file : String} {cur : Cursor} {p : Position} {s u d : Nat}
  {last : String}

/-! ### Declarations -/

/-- The import form that began at a depth is closed there. -/
theorem leave_inDeclaration (s u d : Nat) (id name : String) :
    ((ImportContext.inDeclaration s u d id name).leave d).2 = .inImports s u id := by
  simp [ImportContext.leave, ImportContext.depths, ImportContext.outer]

/-- What is known inside a declaration that began at the depth. -/
def declarationView (line s u depth : Nat) (id last : String) : View :=
  ⟨line, depth, false, .inDeclaration s u depth id last⟩

/-- What is known between declarations. -/
def importsView (line s u depth : Nat) (last : String) : View :=
  ⟨line, depth, false, .inImports s u last⟩

/-- The rest of a declaration, behind a name that is still to be compared with the one before. -/
theorem reports_names (style : Style) (file : String) (s u d : Nat) (id last : String)
    (names : List (Separator × Name)) {start : Nat} {chars : List Char}
    (h : BehindName p start chars cur) (visible : ∃ c ∈ chars, isBlank c = false) :
    ∃ final, Reports style file cur (declarationView p.line s u (d + 1) id last)
        (renderNames names ++ [')'])
        (nameDisorder file last ⟨String.ofList chars, ⟨p.line, start⟩⟩ ++
          nameDisorders file (String.ofList chars) (locateNames p names))
        final (importsView (p.after (renderNames names ++ [')'])).line s u d id) ∧
      Behind (p.after (renderNames names ++ [')'])) .code final := by
  -- The induction is on the names to come. The one just read becomes the last one where it ends.
  induction names generalizing cur p start chars last with
  | nil =>
    have hmakes : Makes style file cur (declarationView p.line s u (d + 1) id last) ')'
        (nameDisorder file last ⟨String.ofList chars, ⟨p.line, start⟩⟩) .code _ :=
      makes_closing (by simp [h.mode]) rfl fun st hview ↦
        importReports_nameFindings (congrArg View.imports hview) h.word visible
    rw [declarationView, leave_inDeclaration] at hmakes
    rw [locateNames, nameDisorders, List.append_nil]
    exact reports_closing h.toBehind hmakes
  | cons item rest ih =>
    obtain ⟨gap, name⟩ := item
    have hends : ∀ c, c = ' ' ∨ c = '\n' →
        Makes style file cur (declarationView p.line s u (d + 1) id last) c
          (nameDisorder file last ⟨String.ofList chars, ⟨p.line, start⟩⟩) .code
          (declarationView p.line s u (d + 1) id (String.ofList chars)) :=
      fun c hc ↦ makes_nameEnd h.mode hc rfl h.word visible
    obtain ⟨mid, hgap, hfresh⟩ := reports_separator gap h.toBehind hends rfl rfl
    obtain ⟨next, hname, hbehind⟩ := reports_name name hfresh
    obtain ⟨final, hrest, hlast⟩ := ih (String.ofList chars) hbehind name.visible
    have htext : renderNames ((gap, name) :: rest) ++ [')'] =
        gap.render ++ (name.chars ++ (renderNames rest ++ [')'])) := by
      simp [renderNames]
    rw [htext, Position.after_append, Position.after_append]
    rw [line_after_of_plain name.plain] at hrest
    exact ⟨final, hgap.append (hname.append hrest), hlast⟩

/-- The first name of a declaration follows no other. -/
theorem nameDisorder_empty {chars : List Char} (h : chars ≠ []) (position : Position) :
    nameDisorder file "" ⟨String.ofList chars, position⟩ = [] := by
  have hchars : (String.ofList chars).toList = chars := String.toList_ofList
  refine if_pos ?_
  show "".toList < (String.ofList chars).toList
  rw [hchars]
  obtain ⟨c, chars, rfl⟩ := List.exists_cons_of_ne_nil h
  exact List.nil_lt_cons c chars

/-- **A declaration is reported for its id, if that sorts before the one above, and for its
names.** -/
theorem reports_declaration (declaration : Declaration) (h : Fresh p cur)
    (room : d + 1 < style.maxDepth) :
    ∃ final, Reports style file cur (importsView p.line s u d last) declaration.render
        (idDisorder file last (declaration.entry p).id ++ (declaration.entry p).disorders file)
        final (importsView (p.after declaration.render).line s u d declaration.id.text) ∧
      Behind (p.after declaration.render) .code final := by
  obtain ⟨⟨gap, name⟩, rest, hnames⟩ := List.exists_cons_of_ne_nil declaration.ne_nil
  have hid := declaration.id.plain
  obtain ⟨operator, hopen, hoperator⟩ :
      ∃ operator, Reports style file cur (importsView p.line s u d last)
        ('(' :: declaration.id.chars) [] operator (importsView p.line s u (d + 1) last) ∧
      Behind (p.after ('(' :: declaration.id.chars))
        (.operator ⟨p.column + 1, declaration.id.chars.reverse⟩) operator :=
    reports_opening hid h room
  have hline := line_after_opening hid p
  -- The id is compared at the separator behind it, where the declaration opens.
  have hends : ∀ c, c = ' ' ∨ c = '\n' →
      Makes style file operator (importsView p.line s u (d + 1) last) c
        (idDisorder file last (declaration.entry p).id) .code
        (declarationView p.line s u (d + 1) declaration.id.text "") := by
    intro c hc
    have hmakes : Makes style file operator (importsView p.line s u (d + 1) last) c _ .code _ :=
      makes_declaration hoperator.mode hc rfl
    rw [Token.text, List.reverse_reverse] at hmakes
    exact hmakes
  obtain ⟨mid, hgap, hfresh⟩ := reports_separator gap hoperator hends hline.symm rfl
  obtain ⟨next, hname, hbehind⟩ := reports_name name hfresh
  obtain ⟨final, hrest, hlast⟩ :=
    reports_names style file s u d declaration.id.text "" rest hbehind name.visible
  have hdisorders : (declaration.entry p).disorders file =
      nameDisorders file name.text (locateNames
        (((p.after ('(' :: declaration.id.chars)).after gap.render).after name.chars) rest) := by
    rw [Entry.disorders, Declaration.entry, hnames]
    rfl
  have htext : declaration.render = '(' :: declaration.id.chars ++
      (gap.render ++ (name.chars ++ (renderNames rest ++ [')']))) := by
    simp [Declaration.render, hnames, renderNames]
  rw [htext, Position.after_append, Position.after_append, Position.after_append, hdisorders]
  rw [line_after_of_plain name.plain, nameDisorder_empty name.ne_nil, List.nil_append] at hrest
  exact ⟨final, hopen.append (hgap.append (hname.append hrest)), hlast⟩

/-- Each further declaration is compared with the one above. -/
theorem reports_declarations (declarations : List (Separator × Declaration))
    (h : Behind p .code cur) (room : d + 1 < style.maxDepth) :
    ∃ final id, Reports style file cur (importsView p.line s u d last)
        (renderDeclarations declarations)
        (disordersAfter file last (locateDeclarations p declarations)) final
        (importsView (p.after (renderDeclarations declarations)).line s u d id) ∧
      Behind (p.after (renderDeclarations declarations)) .code final := by
  induction declarations generalizing cur p last with
  | nil => exact ⟨cur, last, .nil _ _, h⟩
  | cons item rest ih =>
    obtain ⟨gap, declaration⟩ := item
    have hbetween : ∀ c, c = ' ' ∨ c = '\n' →
        Makes style file cur (importsView p.line s u d last) c [] .code
          (importsView p.line s u d last) :=
      fun c hc ↦ makes_separator h.mode hc (by simp [importsView, ImportContext.block])
    obtain ⟨mid, hgap, hfresh⟩ := reports_separator gap h hbetween rfl rfl
    obtain ⟨next, hread, hbehind⟩ := reports_declaration declaration hfresh room
    obtain ⟨final, id, hrest, hlast⟩ := ih hbehind
    have htext : renderDeclarations ((gap, declaration) :: rest) =
        gap.render ++ (declaration.render ++ renderDeclarations rest) := by
      simp [renderDeclarations]
    rw [htext, Position.after_append, Position.after_append, locateDeclarations, disordersAfter]
    exact ⟨final, id, hgap.append (hread.append hrest), hlast⟩

/-! ### Blocks -/

/-- The operators of sections mean nothing in code but themselves. -/
theorem isPlain_of_section {operator : String}
    (h : operator ∈ Style.standard.sectionOperators) : ∀ c ∈ operator.toList, IsPlain c := by
  simp only [Style.standard, List.mem_cons, List.not_mem_nil, or_false] at h
  rcases h with rfl | rfl | rfl <;> simp [IsPlain]

/-- The imports are known by their operator on the second line. -/
theorem after_header (b : UseBlock) : Position.after {} b.header = ⟨2, 6⟩ := by
  have hline : (Position.after {} ('(' :: b.operator.toList)).line = 1 :=
    line_after_opening (isPlain_of_section b.isSection) {}
  have htext : b.header = '(' :: b.operator.toList ++
      ((Separator.newline 2).render ++ "(use".toList) := rfl
  rw [htext, Position.after_append, Position.after_append, after_newline, hline]
  rfl

/-- The operator of a section on its line, and that of the imports in the place where they are known
by it. -/
theorem reports_header (b : UseBlock) (file : String) :
    ∃ last, Reports .standard file (.start false) (State.view {}) b.header [] last
        ⟨2, 2, false, .inSection 1⟩ ∧
      Behind ⟨2, 6⟩ (.operator ⟨3, "use".toList.reverse⟩) last := by
  have hplain := isPlain_of_section b.isSection
  have hstart : Fresh {} (.start false) := ⟨rfl, .inl rfl, .inr rfl⟩
  obtain ⟨operator, hopen, hoperator⟩ : ∃ operator, Reports .standard file (.start false)
        (State.view {}) ('(' :: b.operator.toList) [] operator ⟨1, 1, false, .outside⟩ ∧
      Behind (Position.after {} ('(' :: b.operator.toList))
        (.operator ⟨1, b.operator.toList.reverse⟩) operator :=
    reports_opening hplain hstart (by decide)
  have hline : (Position.after {} ('(' :: b.operator.toList)).line = 1 :=
    line_after_opening hplain {}
  have hsection : Style.standard.importBlock
      (Token.mk 1 b.operator.toList.reverse).text (1 : Nat) = .section := by
    rw [Token.text, List.reverse_reverse, String.ofList_toList]
    exact if_pos ⟨rfl, b.isSection⟩
  have hends : ∀ c, c = ' ' ∨ c = '\n' → Makes .standard file operator ⟨1, 1, false, .outside⟩ c []
      .code ⟨1, 1, false, .inSection 1⟩ :=
    fun c hc ↦ makes_enter hoperator.mode hc (.inl ⟨rfl, hsection⟩)
  obtain ⟨mid, hbreak, hfresh⟩ :=
    reports_separator (.newline 2) hoperator hends hline.symm rfl
  rw [after_newline, hline] at hbreak hfresh
  obtain ⟨last, huse, hlast⟩ : ∃ last, Reports .standard file mid ⟨2, 1, false, .inSection 1⟩
        ('(' :: "use".toList) [] last ⟨2, 2, false, .inSection 1⟩ ∧
      Behind (Position.after ⟨2, 2⟩ ('(' :: "use".toList))
        (.operator ⟨3, "use".toList.reverse⟩) last :=
    reports_opening (by simp [IsPlain]) hfresh (by decide)
  exact ⟨last, hopen.append (hbreak.append huse), hlast⟩

/-- Both forms around the declarations are closed, and the line ends. -/
theorem reports_footer {line : Nat} {id : String} (h : Behind p .code cur) :
    ∃ last final, Reports style file cur (importsView line 1 2 2 id) "))\n".toList [] last
      final := by
  have himports : Makes style file cur (importsView line 1 2 2 id) ')' [] .code
      ⟨line, 1, false, .inSection 1⟩ :=
    makes_closing_of_ne h.mode rfl (by simp [importsView, ImportContext.block])
  obtain ⟨mid, hfirst, hmid⟩ := reports_closing h himports
  have hsection : Makes style file mid ⟨line, 1, false, .inSection 1⟩ ')' [] .code
      ⟨line, 0, false, .outside⟩ :=
    makes_closing_of_ne hmid.mode rfl (by simp [ImportContext.block])
  obtain ⟨last, hsecond, hlast⟩ := reports_closing hmid hsection
  have hline : Makes style file last ⟨line, 0, false, .outside⟩ '\n' [] .code
      ⟨line, 0, false, .outside⟩ :=
    makes_separator hlast.mode (.inr rfl) (by simp [ImportContext.block])
  obtain ⟨q, hprev, hq⟩ := hlast.prev
  have hnewline := Reports.newline hprev hq hline rfl (.nil _ _)
  exact ⟨_, _, hfirst.append (hsecond.append hnewline)⟩

/-- **A block is reported for what is out of order in it.** -/
theorem reports_useBlock (b : UseBlock) (file : String) :
    ∃ last final, Reports .standard file (.start false) (State.view {}) b.render
      (disorders file b.entries) last final := by
  obtain ⟨⟨gap, declaration⟩, rest, hdeclarations⟩ := List.exists_cons_of_ne_nil b.ne_nil
  have room : 2 + 1 < Style.standard.maxDepth := by decide
  obtain ⟨operator, hheader, hoperator⟩ := reports_header b file
  have hends : ∀ c, c = ' ' ∨ c = '\n' → Makes .standard file operator
      ⟨2, 2, false, .inSection 1⟩ c [] .code (importsView 2 1 2 2 "") :=
    fun c hc ↦ makes_enter hoperator.mode hc (.inr ⟨1, rfl, rfl⟩)
  obtain ⟨mid, hgap, hfresh⟩ := reports_separator gap hoperator hends rfl rfl
  -- Any id may follow the empty one, so the first of the block is not reported.
  obtain ⟨first, hfirst, hbehind⟩ := reports_declaration declaration hfresh room
  obtain ⟨next, id, hrest, hnext⟩ := reports_declarations rest hbehind room
  obtain ⟨last, final, hfooter⟩ := reports_footer hnext
  have htext : b.render = b.header ++ (gap.render ++ (declaration.render ++
      (renderDeclarations rest ++ "))\n".toList))) := by
    simp [UseBlock.render, renderDeclarations, hdeclarations]
  have hdisorders : disorders file b.entries =
      (declaration.entry (Position.after ⟨2, 6⟩ gap.render)).disorders file ++
        disordersAfter file declaration.id.text (locateDeclarations
          ((Position.after ⟨2, 6⟩ gap.render).after declaration.render) rest) := by
    rw [UseBlock.entries, hdeclarations, after_header]
    rfl
  have h := hheader.append (hgap.append (hfirst.append (hrest.append hfooter)))
  rw [List.append_nil] at h
  rw [htext, hdisorders]
  exact ⟨last, final, h⟩

/-- **The order of imports is checked exactly.** The text of a block is linted to its end, and its
diagnostics about imports are those of the ids and the names that are out of order, one by one as
they stand in the text. There are none exactly if the ids are in order throughout, and the names of
each declaration increase. -/
theorem lintText_useBlock (b : UseBlock) (file : String) :
    let report := lintText .standard (String.ofList b.render)
    let reported := (report.diagnostics file).filter Diagnostic.isImportOrder
    report.failure? = none ∧ reported = disorders file b.entries ∧
      (reported = [] ↔
        ((b.declarations.map fun d ↦ d.2.id.text).Pairwise fun a b ↦ idsInOrder a b = true) ∧
          ∀ d ∈ b.declarations, (d.2.names.map fun name ↦ name.2.text).Pairwise (· < ·)) := by
  obtain ⟨last, final, h⟩ := reports_useBlock b file
  have hjoin : joinLines (splitLines b.render) = b.render := by
    have htext : b.render =
        b.header ++ renderDeclarations b.declarations ++ [')', ')'] ++ ['\n'] := by
      simp [UseBlock.render]
    rw [htext, joinLines_splitLines_concat]
  rw [← hjoin] at h
  obtain ⟨hends, hreported⟩ := importReports_lintLines h
    (fun _ hline ↦ newline_notMem_of_mem_splitLines hline) rfl rfl
  have htext : lintText .standard (String.ofList b.render) =
      lintLines .standard {} (splitLines b.render) := by
    rw [lintText, String.toList_ofList]
  dsimp only
  rw [htext, hreported]
  exact ⟨hends, rfl, UseBlock.disorders_eq_nil_iff⟩

end SchemeStyle.Imports
