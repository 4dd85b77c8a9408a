import SchemeStyle.Diagnostic
import SchemeStyle.Proofs.Imports.Order
import SchemeStyle.Proofs.Scan.Moves
import SchemeStyle.Proofs.Text.Lines
import SchemeStyle.Style

/-!
# Blocks of imports

A section with nothing in it but its imports: the operator of the section alone on the first line,
and from the second line on one form of declarations, each an id followed by names. Where the lines
are broken is free, and so is the indentation of a further line, so a block carries what separates
any two of its parts. `UseBlock.render` writes it.

What has to be reported is said without the linter. `UseBlock.entries` lists ids and names with
their positions, which are counted over the text before them; `disorders` goes through that list and
names what sorts before its predecessor. Nothing does exactly if ids and names are in order
throughout (`UseBlock.disorders_eq_nil_iff`).
-/

namespace SchemeStyle.Imports

/-! ### The parts of a block -/

/-- An id, or any other text that means nothing in code but itself. -/
structure Word where
  chars : List Char
  ne_nil : chars ≠ []
  plain : ∀ c ∈ chars, IsPlain c

def Word.text (w : Word) : String := String.ofList w.chars

/-- A word of which something can be seen. -/
structure Name extends Word where
  visible : ∃ c ∈ chars, isBlank c = false

/-- What stands between two parts: a space, or a newline and the indentation of the next line. -/
inductive Separator where
  | space
  | newline (indent : Nat)
  deriving DecidableEq, Repr

def Separator.render : Separator → List Char
  | space => [' ']
  | newline indent => '\n' :: List.replicate indent ' '

/-- Names, each with what separates it from the part before. -/
def renderNames (names : List (Separator × Name)) : List Char :=
  names.flatMap fun (gap, name) ↦ gap.render ++ name.chars

/-- An id and the names that are imported from there. -/
structure Declaration where
  id : Word
  names : List (Separator × Name)
  ne_nil : names ≠ []

def Declaration.render (d : Declaration) : List Char :=
  '(' :: d.id.chars ++ renderNames d.names ++ [')']

/-- Declarations, each with what separates it from the part before. -/
def renderDeclarations (declarations : List (Separator × Declaration)) : List Char :=
  declarations.flatMap fun (gap, d) ↦ gap.render ++ d.render

/-- A section of the style guide that holds its imports. -/
structure UseBlock where
  operator : String
  isSection : operator ∈ Style.standard.sectionOperators
  declarations : List (Separator × Declaration)
  ne_nil : declarations ≠ []

/-- What comes before the declarations. -/
def UseBlock.header (b : UseBlock) : List Char :=
  '(' :: b.operator.toList ++ "\n  (use".toList

/-- The text of a block, the newline of its last line included. -/
def UseBlock.render (b : UseBlock) : List Char :=
  b.header ++ renderDeclarations b.declarations ++ "))\n".toList

/-! ### Positions -/

/-- A place in a text. Lines are counted from one, columns from zero. -/
structure Position where
  line : Nat := 1
  column : Nat := 0
  deriving DecidableEq, Repr

/-- The position that a text leads to. -/
def Position.after (p : Position) (text : List Char) : Position where
  line := p.line + text.count '\n'
  column := columnAfter p.column text

@[simp] theorem Position.after_nil (p : Position) : p.after [] = p := rfl

@[simp] theorem Position.after_append (p : Position) (a b : List Char) :
    p.after (a ++ b) = (p.after a).after b := by
  simp [after, Nat.add_assoc]

/-- A text at the place where it starts. -/
structure Located where
  text : String
  position : Position
  deriving DecidableEq, Repr

/-- A declaration as far as the order of imports goes. -/
structure Entry where
  id : Located
  names : List Located
  deriving DecidableEq, Repr

/-- The names of a text that starts at the position. -/
def locateNames (p : Position) : List (Separator × Name) → List Located
  | [] => []
  | (gap, name) :: rest =>
    let start := p.after gap.render
    ⟨name.text, start⟩ :: locateNames (start.after name.chars) rest

/-- A declaration that starts at the position. -/
def Declaration.entry (p : Position) (d : Declaration) : Entry :=
  let start := p.after ['(']
  ⟨⟨d.id.text, start⟩, locateNames (start.after d.id.chars) d.names⟩

/-- The declarations of a text that starts at the position. -/
def locateDeclarations (p : Position) : List (Separator × Declaration) → List Entry
  | [] => []
  | (gap, d) :: rest =>
    let start := p.after gap.render
    d.entry start :: locateDeclarations (start.after d.render) rest

/-- The declarations of a block at their places in its text. -/
def UseBlock.entries (b : UseBlock) : List Entry :=
  locateDeclarations (Position.after {} b.header) b.declarations

/-! ### What is out of order -/

/-- The report of a name that does not sort after another. -/
def nameDisorder (file : String) (last : String) (name : Located) : List Diagnostic :=
  if last < name.text then []
  else
    [⟨file, name.position.line, name.position.column + 1,
      s!"incorrect import name ordering: {last} > {name.text}"⟩]

/-- The report of an id that sorts before another. -/
def idDisorder (file : String) (last : String) (id : Located) : List Diagnostic :=
  if idsInOrder last id.text then []
  else
    [⟨file, id.position.line, id.position.column + 1,
      s!"incorrect import id ordering: {last} > {id.text}"⟩]

/-- The reports of names that follow another in their declaration. -/
def nameDisorders (file : String) (last : String) : List Located → List Diagnostic
  | [] => []
  | name :: rest => nameDisorder file last name ++ nameDisorders file name.text rest

/-- The reports of the names of a declaration. The first may be anything. -/
def Entry.disorders (file : String) (e : Entry) : List Diagnostic :=
  match e.names with
  | [] => []
  | name :: rest => nameDisorders file name.text rest

/-- The reports of declarations that follow one with the given id. -/
def disordersAfter (file : String) (last : String) : List Entry → List Diagnostic
  | [] => []
  | e :: rest => idDisorder file last e.id ++ e.disorders file ++ disordersAfter file e.id.text rest

/-- The reports of some declarations. The id of the first may be anything. -/
def disorders (file : String) : List Entry → List Diagnostic
  | [] => []
  | e :: rest => e.disorders file ++ disordersAfter file e.id.text rest

/-! ### What is in order -/

@[simp] theorem text_locateNames (p : Position) (names : List (Separator × Name)) :
    (locateNames p names).map Located.text = names.map fun name ↦ name.2.text := by
  induction names generalizing p with
  | nil => rfl
  | cons name rest ih => simp [locateNames, ih]

/-- There is nothing to report exactly if all names are in order with their neighbours. -/
theorem nameDisorders_eq_nil_iff {file last : String} {names : List Located} :
    nameDisorders file last names = [] ↔
      (last :: names.map Located.text).IsChain (· < ·) := by
  induction names generalizing last with
  | nil => simp [nameDisorders]
  | cons name rest ih =>
    rw [nameDisorders, List.append_eq_nil_iff, ih, List.map_cons, List.isChain_cons_cons]
    simp [nameDisorder]

theorem Entry.disorders_eq_nil_iff {file : String} {e : Entry} :
    e.disorders file = [] ↔ (e.names.map Located.text).Pairwise (· < ·) := by
  rw [pairwise_lt_iff, Entry.disorders]
  split
  case h_1 h => simp [h]
  case h_2 name rest h => rw [nameDisorders_eq_nil_iff, h, List.map_cons]

theorem disordersAfter_eq_nil_iff {file last : String} {entries : List Entry} :
    disordersAfter file last entries = [] ↔
      ((last :: entries.map fun e ↦ e.id.text).IsChain fun a b ↦ idsInOrder a b = true) ∧
        ∀ e ∈ entries, (e.names.map Located.text).Pairwise (· < ·) := by
  induction entries generalizing last with
  | nil => simp [disordersAfter]
  | cons e rest ih =>
    rw [disordersAfter, List.append_eq_nil_iff, List.append_eq_nil_iff, ih,
      Entry.disorders_eq_nil_iff, List.map_cons, List.isChain_cons_cons, List.forall_mem_cons]
    simp only [idDisorder]
    split_ifs with h <;> simp [h, and_left_comm]

theorem disorders_eq_nil_iff {file : String} {entries : List Entry} :
    disorders file entries = [] ↔
      ((entries.map fun e ↦ e.id.text).Pairwise fun a b ↦ idsInOrder a b = true) ∧
        ∀ e ∈ entries, (e.names.map Located.text).Pairwise (· < ·) := by
  cases entries with
  | nil => simp [disorders]
  | cons e rest =>
    rw [disorders, List.append_eq_nil_iff, disordersAfter_eq_nil_iff, Entry.disorders_eq_nil_iff,
      pairwise_idsInOrder_iff, List.map_cons, List.forall_mem_cons, and_left_comm]

theorem ids_locateDeclarations (p : Position) (ds : List (Separator × Declaration)) :
    (locateDeclarations p ds).map (fun e ↦ e.id.text) = ds.map fun d ↦ d.2.id.text := by
  induction ds generalizing p with
  | nil => rfl
  | cons d rest ih => simp [locateDeclarations, Declaration.entry, ih]

theorem names_locateDeclarations (p : Position) (ds : List (Separator × Declaration)) :
    (locateDeclarations p ds).map (fun e ↦ e.names.map Located.text) =
      ds.map fun d ↦ d.2.names.map fun name ↦ name.2.text := by
  induction ds generalizing p with
  | nil => rfl
  | cons d rest ih => simp [locateDeclarations, Declaration.entry, ih]

/-- **Nothing is out of order exactly if the ids of the block are in order throughout, and so are
the names of each declaration.** -/
theorem UseBlock.disorders_eq_nil_iff {b : UseBlock} {file : String} :
    disorders file b.entries = [] ↔
      ((b.declarations.map fun d ↦ d.2.id.text).Pairwise fun a b ↦ idsInOrder a b = true) ∧
        ∀ d ∈ b.declarations, (d.2.names.map fun name ↦ name.2.text).Pairwise (· < ·) := by
  rw [Imports.disorders_eq_nil_iff, entries, ids_locateDeclarations]
  refine and_congr_right' ?_
  rw [← List.forall_mem_map (f := fun e : Entry ↦ e.names.map Located.text)
    (P := fun names ↦ names.Pairwise (· < ·)), names_locateDeclarations, List.forall_mem_map]

/-- Two declarations, of which the second should be the first, and its second name the first. -/
def sampleBlock : UseBlock where
  operator := "Section"
  isSection := by decide
  declarations :=
    [(.space, ⟨⟨[':', '1', '.', '2'], by simp, by simp [IsPlain]⟩,
        [(.space, ⟨⟨['c', 'u', 'b', 'e'], by simp, by simp [IsPlain]⟩, 'c', by simp, rfl⟩)],
        by simp⟩),
      (.newline 7, ⟨⟨[':', '1', '.', '1'], by simp, by simp [IsPlain]⟩,
        [(.space, ⟨⟨['s', 'u', 'm'], by simp, by simp [IsPlain]⟩, 's', by simp, rfl⟩),
          (.newline 0, ⟨⟨['i', 'n', 'c'], by simp, by simp [IsPlain]⟩, 'i', by simp, rfl⟩)],
        by simp⟩)]
  ne_nil := by simp

example : sampleBlock.render =
    "(Section\n  (use (:1.2 cube)\n       (:1.1 sum\ninc)))\n".toList := by
  decide +kernel

example : disorders "a.ss" sampleBlock.entries =
    [⟨"a.ss", 3, 9, "incorrect import id ordering: :1.2 > :1.1"⟩,
      ⟨"a.ss", 4, 1, "incorrect import name ordering: sum > inc"⟩] := by
  decide +kernel

end SchemeStyle.Imports
