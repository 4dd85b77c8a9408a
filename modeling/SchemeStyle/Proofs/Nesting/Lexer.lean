import SchemeStyle.State

/-!
# The nesting of a text

How deep a text nests does not depend on its lines: strings may run over many of them, and only a
comment ends with its line. `Nesting` reads a text as a whole, character by character, and counts
its delimiters without any bound. The bounds are put on from outside: `Within` says that they are
kept throughout a text, and `FirstFault` names the first delimiter that leaves them. A text has at
most one such delimiter (`FirstFault.unique`), and none exactly if it stays within
(`not_within_of_firstFault`).
-/

namespace SchemeStyle

/-! ### Reading a text -/

/-- What the next character of a text belongs to. -/
inductive Region where
  | code
  | comment
  /-- In a string; `escaped` if a backslash takes the next character's meaning. -/
  | string (escaped : Bool)
  deriving DecidableEq, Repr

/-- Where a text read so far has led to. -/
structure Nesting where
  region : Region := .code
  /-- Opening delimiters less closing ones. -/
  depth : Int := 0
  deriving DecidableEq, Repr

namespace Nesting

/-- Reads one character. -/
def step (n : Nesting) (c : Char) : Nesting :=
  match n.region with
  | .code =>
    if c = '"' then { n with region := .string false }
    else if c = ';' then { n with region := .comment }
    else if c = '(' ∨ c = '[' then { n with depth := n.depth + 1 }
    else if c = ')' ∨ c = ']' then { n with depth := n.depth - 1 }
    else n
  | .comment => if c = '\n' then { n with region := .code } else n
  | .string true => { n with region := .string false }
  | .string false =>
    if c = '\\' then { n with region := .string true }
    else if c = '"' then { n with region := .code }
    else n

/-- Reads a text. -/
def run (n : Nesting) (text : List Char) : Nesting :=
  text.foldl step n

/-- Whether the text stops inside a string. -/
def inString (n : Nesting) : Bool :=
  match n.region with
  | .string _ => true
  | _ => false

@[simp] theorem run_nil (n : Nesting) : n.run [] = n := rfl

@[simp] theorem run_cons (n : Nesting) (c : Char) (text : List Char) :
    n.run (c :: text) = (n.step c).run text := rfl

@[simp] theorem run_append (n : Nesting) (a b : List Char) : n.run (a ++ b) = (n.run a).run b :=
  List.foldl_append

/-- In code only quotes, semicolons and delimiters mean anything. -/
theorem step_eq_self {n : Nesting} (h : n.region = .code) {c : Char}
    (hc : c ∉ ['"', ';', '(', '[', ')', ']']) : n.step c = n := by
  simp only [List.mem_cons, List.not_mem_nil, not_or, or_false] at hc
  simp [step, h, hc]

/-- Spaces mean nothing, save that they may be escaped. -/
theorem run_spaces {n : Nesting} (h : n.region ≠ .string true) (k : Nat) :
    n.run (List.replicate k ' ') = n := by
  have hstep : n.step ' ' = n := by
    obtain ⟨_ | _ | _ | _, depth⟩ := n
    · rfl
    · rfl
    · rfl
    · exact absurd rfl h
  induction k with
  | zero => rfl
  | succ k ih => rw [List.replicate_succ, run_cons, hstep, ih]

/-- A comment means nothing up to the newline that ends it. -/
theorem run_comment {n : Nesting} (h : n.region = .comment) {body : List Char} (hb : '\n' ∉ body) :
    n.run body = n := by
  induction body with
  | nil => rfl
  | cons c body ih =>
    obtain ⟨hc, hbody⟩ := not_or.1 (fun hm ↦ hb (List.mem_cons.2 hm))
    have hstep : n.step c = n := by rw [step, h]; exact if_neg (Ne.symm hc)
    rw [run_cons, hstep, ih hbody]

/-- The newline leads from a comment back into code. -/
theorem run_comment_newline {n : Nesting} (h : n.region = .comment) {body : List Char}
    (hb : '\n' ∉ body) : n.run (body ++ ['\n']) = { n with region := .code } := by
  rw [run_append, run_comment h hb, run_cons, run_nil, step, h]
  rfl

/-! ### Bounds -/

/-- The depth of a text that is neither closed too often nor nested as deep as the limit. -/
def InBounds (limit : Nat) (n : Nesting) : Prop :=
  0 ≤ n.depth ∧ n.depth < limit

/-- The nesting keeps its bounds throughout a text. -/
def Within (limit : Nat) (n : Nesting) (text : List Char) : Prop :=
  ∀ read, read <+: text → (n.run read).InBounds limit

/-- The character `c` is the first of the text, `before` what precedes it, to take the nesting out
of its bounds. -/
def FirstFault (limit : Nat) (n : Nesting) (text before : List Char) (c : Char) : Prop :=
  before ++ [c] <+: text ∧ n.Within limit before ∧ ¬(n.run (before ++ [c])).InBounds limit

/-- How a nesting is out of bounds. -/
def fault (limit : Nat) (n : Nesting) : NestingError :=
  if n.depth < 0 then .unmatched else .tooDeep limit

variable {limit : Nat} {n : Nesting} {a b before : List Char} {c : Char}

theorem Within.inBounds (h : n.Within limit a) : n.InBounds limit :=
  h [] List.nil_prefix

theorem Within.inBounds_run (h : n.Within limit a) : (n.run a).InBounds limit :=
  h a List.prefix_rfl

theorem within_nil_iff : n.Within limit [] ↔ n.InBounds limit :=
  ⟨Within.inBounds, fun h read hread ↦ by rwa [List.prefix_nil.1 hread]⟩

theorem within_cons_iff :
    n.Within limit (c :: a) ↔ n.InBounds limit ∧ (n.step c).Within limit a := by
  constructor
  · intro h
    exact ⟨h.inBounds, fun read hread ↦ h (c :: read) (List.cons_prefix_cons.2 ⟨rfl, hread⟩)⟩
  · rintro ⟨hn, h⟩ (- | ⟨d, read⟩) hread
    · exact hn
    · obtain ⟨rfl, hrest⟩ := List.cons_prefix_cons.1 hread
      exact h read hrest

theorem within_append_iff :
    n.Within limit (a ++ b) ↔ n.Within limit a ∧ (n.run a).Within limit b := by
  induction a generalizing n with
  | nil => exact ⟨fun h ↦ ⟨within_nil_iff.2 h.inBounds, h⟩, And.right⟩
  | cons c a ih => rw [List.cons_append, within_cons_iff, within_cons_iff, ih, and_assoc, run_cons]

/-- A text through which the nesting never moves keeps the bounds it starts in. -/
theorem within_of_run_eq (h : n.InBounds limit) (hrun : ∀ read, read <+: a → n.run read = n) :
    n.Within limit a := fun read hread ↦ (hrun read hread).symm ▸ h

theorem within_spaces (h : n.InBounds limit) (hn : n.region ≠ .string true) (k : Nat) :
    n.Within limit (List.replicate k ' ') :=
  within_of_run_eq h fun read hread ↦ by
    rw [List.eq_replicate_of_mem fun x hx ↦ List.eq_of_mem_replicate (hread.subset hx)]
    exact run_spaces hn _

theorem within_comment_newline (h : n.InBounds limit) (hn : n.region = .comment)
    {body : List Char} (hb : '\n' ∉ body) : n.Within limit (body ++ ['\n']) := by
  intro read hread
  rcases List.prefix_concat_iff.1 hread with rfl | hread
  · rw [run_comment_newline hn hb]
    exact h
  · rw [run_comment hn fun hm ↦ hb (hread.subset hm)]
    exact h

/-! ### The first fault -/

theorem firstFault_here (h : n.InBounds limit) (hc : ¬(n.step c).InBounds limit) :
    n.FirstFault limit (c :: a) [] c :=
  ⟨List.cons_prefix_cons.2 ⟨rfl, List.nil_prefix⟩, within_nil_iff.2 h, hc⟩

/-- A fault stays the first one after a text that keeps the bounds. -/
theorem FirstFault.append_left (ha : n.Within limit a)
    (h : (n.run a).FirstFault limit b before c) :
    n.FirstFault limit (a ++ b) (a ++ before) c := by
  obtain ⟨hle, hwithin, hout⟩ := h
  refine ⟨?_, within_append_iff.2 ⟨ha, hwithin⟩, ?_⟩
  · rw [List.append_assoc]
    exact (List.prefix_append_right_inj a).2 hle
  · rwa [List.append_assoc, run_append]

theorem FirstFault.cons (hn : n.InBounds limit) {d : Char}
    (h : (n.step d).FirstFault limit b before c) :
    n.FirstFault limit (d :: b) (d :: before) c := by
  obtain ⟨hle, hwithin, hout⟩ := h
  exact ⟨List.cons_prefix_cons.2 ⟨rfl, hle⟩, within_cons_iff.2 ⟨hn, hwithin⟩, hout⟩

/-- What follows a fault does not matter. -/
theorem FirstFault.mono (h : n.FirstFault limit a before c) (hab : a <+: b) :
    n.FirstFault limit b before c :=
  ⟨h.1.trans hab, h.2⟩

theorem not_within_of_firstFault (h : n.FirstFault limit a before c) : ¬n.Within limit a :=
  fun hwithin ↦ h.2.2 (hwithin _ h.1)

/-- **A text has at most one first fault.** -/
theorem FirstFault.unique {before' : List Char} {c' : Char} (h : n.FirstFault limit a before c)
    (h' : n.FirstFault limit a before' c') : before ++ [c] = before' ++ [c'] := by
  -- Of two prefixes of one text one is a prefix of the other; were it a proper one, the fault at
  -- its end would lie inside a text that keeps the bounds.
  have aux : ∀ {p q : List Char} {x y : Char}, n.FirstFault limit a p x →
      n.FirstFault limit a q y → p ++ [x] <+: q ++ [y] → p ++ [x] = q ++ [y] := by
    intro p q x y hp hq hpq
    rcases List.prefix_concat_iff.1 hpq with heq | hlt
    · exact heq
    · exact absurd (hq.2.1 _ hlt) hp.2.2
  rcases List.prefix_or_prefix_of_prefix h.1 h'.1 with hle | hle
  · exact aux h h' hle
  · exact (aux h' h hle).symm

/-- The fault of a text is its first delimiter at fault, so a newline is none. -/
theorem FirstFault.ne_newline (h : n.FirstFault limit a before c) : c ≠ '\n' := by
  rintro rfl
  have hin := h.2.1.inBounds_run
  have hdepth : ((n.run before).step '\n').depth = (n.run before).depth := by
    obtain ⟨_ | _ | _ | _, depth⟩ := n.run before <;> rfl
  refine h.2.2 ?_
  rw [run_append, run_cons, run_nil]
  exact ⟨hdepth ▸ hin.1, hdepth ▸ hin.2⟩

/-- A newline at the end of a text is no fault of it. -/
theorem FirstFault.of_append_newline (h : n.FirstFault limit (a ++ ['\n']) before c) :
    n.FirstFault limit a before c := by
  refine ⟨?_, h.2⟩
  rcases List.prefix_concat_iff.1 h.1 with heq | hle
  · exact absurd (List.append_inj_right' heq rfl) (by simpa using h.ne_newline)
  · exact hle

end Nesting

end SchemeStyle
