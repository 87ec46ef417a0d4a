/-
# The order on the operator stack

Whatever row is read, the operator stack is layered (`PostOrder.Layered`): it holds opening brackets
and atoms that wait, and an atom that waits lies on a bracket or on one that binds more loosely.
Every atom keeps it so (`PostOrder.Moves.layered`), and nothing more can be said of it: the layered
stacks are those that some row leaves (`PostOrder.layered_iff`).

There are six strengths with which atoms wait, and so no more than six wait between two brackets
(`PostOrder.Layered.countP_waits_le`).  The brackets are the ones that are still open
(`PostOrder.opened_stackAfter`).  `stackAfter_ordered` puts this together: the stack is bounded by
the brackets that are open, however long the row is.
-/
import Mathlib.Data.List.Chain
import Reckoner.Proofs.Groups

namespace Reckoner

/-! ## 1. Precedences -/

namespace Atom

theorem precedence_of_isOpenBracket {a : Atom} (h : a.isOpenBracket = true) : a.precedence = 5 := by
  simp [precedence, kind_of_isOpenBracket h]

/-- What waits binds with one of six strengths.  The least is that of an operator without a meaning,
the greatest that of a function. -/
theorem precedence_of_waits {a : Atom} (h : a.waits = true) :
    -1 ≤ a.precedence ∧ a.precedence ≤ 4 := by
  cases hkind : a.kind with
  | operator =>
    simp only [precedence, hkind]
    split_ifs <;> decide
  | function | comma => simp [precedence, hkind]
  | value | var | result | bracket | error | blank => simp [waits, hkind] at h

end Atom

namespace PostOrder

/-! ## 2. Layered stacks -/

/-- An atom may lie on another: on an opening bracket, or on one that binds more loosely. -/
def LiesOn (upper lower : Atom) : Prop :=
  lower.isOpenBracket = true ∨ lower.precedence < upper.precedence

/-- The stack holds opening brackets and what waits, and each of them may lie where it does. -/
structure Layered (stack : List Atom) : Prop where
  opens_or_waits : ∀ a ∈ stack, a.isOpenBracket = true ∨ a.waits = true
  liesOn : stack.IsChain LiesOn

theorem Layered.nil : Layered [] := ⟨nofun, .nil⟩

theorem Layered.of_append_left {above below : List Atom} (h : Layered (above ++ below)) :
    Layered above where
  opens_or_waits := fun a ha => h.opens_or_waits a (List.mem_append_left _ ha)
  liesOn := h.liesOn.left_of_append

theorem Layered.of_append_right {above below : List Atom} (h : Layered (above ++ below)) :
    Layered below where
  opens_or_waits := fun a ha => h.opens_or_waits a (List.mem_append_right _ ha)
  liesOn := h.liesOn.right_of_append

theorem Layered.tail {below : List Atom} {a : Atom} (h : Layered (a :: below)) :
    Layered below := by
  have happend : Layered ([a] ++ below) := h
  exact happend.of_append_right

theorem Layered.cons {stack : List Atom} (h : Layered stack) {a : Atom}
    (ha : a.isOpenBracket = true ∨ a.waits = true) (hlies : ∀ b ∈ stack.head?, LiesOn a b) :
    Layered (a :: stack) where
  opens_or_waits := List.forall_mem_cons.mpr ⟨ha, h.opens_or_waits⟩
  liesOn := List.isChain_cons.mpr ⟨hlies, h.liesOn⟩

/-- **One atom keeps the stack layered.**  What yields is taken from the top, and the atom is put on
what does not yield, which binds more loosely or is a bracket. -/
theorem Moves.layered {stack out after : List Atom} {a : Atom} (h : Moves id stack a out after)
    (hstack : Layered stack) : Layered after := by
  cases h with
  | opens ha =>
    refine hstack.cons (Or.inl ha) ?_
    intro b hb
    -- a bracket binds more strongly than anything that waits
    rcases hstack.opens_or_waits b (List.mem_of_mem_head? hb) with hopen | hwaits
    · exact Or.inl hopen
    · have hupper : a.precedence = 5 := Atom.precedence_of_isOpenBracket ha
      have hlower := (Atom.precedence_of_waits hwaits).2
      exact Or.inr (by omega)
  | @closes _ _ _ o ha hpending ho =>
    rw [← List.singleton_append, ← List.append_assoc] at hstack
    exact hstack.of_append_right
  | drains ha hall => exact .nil
  | waits ha hpending hlast =>
    have hbelow := hstack.of_append_right
    refine hbelow.cons (Or.inr ha) ?_
    intro b hb
    rcases hbelow.opens_or_waits b (List.mem_of_mem_head? hb) with hopen | hwaits
    · exact Or.inl hopen
    · have hstays : b.yieldsTo a = false := hlast b hb
      simp only [Atom.yieldsTo, hwaits, Bool.true_and, decide_eq_false_iff_not,
        Int.not_le] at hstays
      exact Or.inr hstays
  | passes ha => exact hstack

/-! ## 3. The stack after a row -/

/-- The operator stack after the atoms of a row, the top first. -/
def stackAfter (row : List Atom) : List Atom := (advanceAll [] row).2

/-- **A row keeps the stack layered.** -/
theorem layered_advanceAll {stack : List Atom} (h : Layered stack) (row : List Atom) :
    Layered (advanceAll stack row).2 := by
  induction row generalizing stack with
  | nil => exact h
  | cons a rest ih =>
    obtain ⟨out, after, hmoves, hadvance⟩ := exists_advance stack a
    rw [advanceAll, hadvance]
    exact ih (hmoves.layered h)

theorem Layered.advance_eq {stack : List Atom} {a : Atom} (h : Layered (a :: stack)) :
    advance stack a = ([], a :: stack) := by
  obtain ⟨hlies, -⟩ := List.isChain_cons.mp h.liesOn
  rcases h.opens_or_waits a List.mem_cons_self with hopen | hwaits
  · exact advance_of_opens hopen stack
  · have hmoves : Moves id ([] ++ stack) a [] (a :: stack) := by
      refine .waits hwaits nofun ?_
      intro b hb
      rcases hlies b hb with hopen | hlt
      · simp [Atom.yieldsTo, not_waits_of_isOpenBracket hopen]
      · simp [Atom.yieldsTo, hlt]
    simpa using hmoves.advance_eq

/-- A layered stack is built by its own atoms, from the bottom to the top.  Read in that order, none
of them releases another. -/
theorem Layered.advanceAll_reverse {stack : List Atom} (h : Layered stack) :
    advanceAll [] stack.reverse = ([], stack) := by
  induction stack with
  | nil => rfl
  | cons a stack ih =>
    have hlast : advanceAll stack [a] = ([], a :: stack) := by
      rw [advanceAll, h.advance_eq]
      rfl
    rw [List.reverse_cons]
    exact advanceAll_append (ih h.tail) hlast

/-- **The stacks after rows are the layered ones.**  So no more can be said of the stack in general
than that it is layered: each such stack occurs, after its own atoms. -/
theorem layered_iff {stack : List Atom} : Layered stack ↔ ∃ row, stackAfter row = stack := by
  constructor
  · intro h
    exact ⟨stack.reverse, by rw [stackAfter, h.advanceAll_reverse]⟩
  · rintro ⟨row, rfl⟩
    exact layered_advanceAll .nil row

theorem opened_advanceAll (stack row : List Atom) :
    opened id (advanceAll stack row).2 = (pairUp id (opened id stack) row).1 := by
  induction row generalizing stack with
  | nil => rfl
  | cons a rest ih =>
    obtain ⟨out, after, hmoves, hadvance⟩ := exists_advance stack a
    rw [hmoves.unclosed_eq rest, advanceAll, hadvance]
    exact ih after

/-- **The brackets on the stack are the ones that the row leaves open.** -/
theorem opened_stackAfter (row : List Atom) :
    (stackAfter row).filter Atom.isOpenBracket = (pairUp id [] row).1 :=
  opened_advanceAll [] row

/-! ## 4. How high the stack is -/

/-- How many atoms can wait above the topmost bracket, told by the strength of the uppermost.  They
bind the more loosely the lower they lie, and there are only so many strengths below it. -/
def reach : List Atom → Int
  | [] => 0
  | top :: _ => if top.waits then top.precedence + 2 else 0

theorem Layered.reach_le {stack : List Atom} (h : Layered stack) : reach stack ≤ 6 := by
  cases stack with
  | nil => decide
  | cons top below =>
    rw [reach]
    split
    · rename_i hwaits
      have := (Atom.precedence_of_waits hwaits).2
      omega
    · decide

/-- What waits reaches higher than what it lies on. -/
theorem Layered.reach_lt {below : List Atom} {a : Atom} (h : Layered (a :: below))
    (ha : a.waits = true) : reach below < a.precedence + 2 := by
  have hleast := (Atom.precedence_of_waits ha).1
  obtain ⟨hlies, -⟩ := List.isChain_cons.mp h.liesOn
  cases below with
  | nil =>
    rw [reach]
    omega
  | cons b rest =>
    rw [reach]
    split
    · rename_i hb
      rcases hlies b rfl with hopen | hlt
      · rw [not_waits_of_isOpenBracket hopen] at hb
        cases hb
      · omega
    · omega

/-- **There is room for six between two brackets**, of which the topmost run may use less.  By
induction on the stack, with `reach` for what the atoms above the topmost bracket can still add. -/
theorem Layered.countP_waits_le {stack : List Atom} (h : Layered stack) :
    (stack.countP Atom.waits : Int) ≤ 6 * stack.countP Atom.isOpenBracket + reach stack := by
  -- what waits reaches one higher than what it lies on, and a bracket begins anew above six at most
  induction stack with
  | nil => decide
  | cons a below ih =>
    have hle := ih h.tail
    rcases h.opens_or_waits a List.mem_cons_self with hopen | hwaits
    · have hsix := h.tail.reach_le
      have hnot := not_waits_of_isOpenBracket hopen
      rw [List.countP_cons_of_neg (by simp [hnot]), List.countP_cons_of_pos hopen, reach,
        if_neg (by simp [hnot])]
      omega
    · have hhigher := h.reach_lt hwaits
      have hnot := not_isOpenBracket_of_waits hwaits
      rw [List.countP_cons_of_pos hwaits, List.countP_cons_of_neg (by simp [hnot]), reach,
        if_pos hwaits]
      omega

theorem Layered.waits_iff {stack : List Atom} (h : Layered stack) {a : Atom} (ha : a ∈ stack) :
    a.waits = true ↔ a.kind ≠ .bracket := by
  constructor
  · exact Atom.kind_ne_bracket_of_waits
  · intro hkind
    refine (h.opens_or_waits a ha).resolve_left ?_
    rw [Atom.not_isOpenBracket_of_kind hkind]
    exact Bool.false_ne_true

/-- **Between brackets the precedences increase**, so that there are six atoms at most. -/
theorem Layered.run_ordered {run : List Atom} (h : Layered run)
    (hrun : ∀ a ∈ run, a.kind ≠ .bracket) :
    run.Pairwise (fun upper lower => lower.precedence < upper.precedence) ∧ run.length ≤ 6 := by
  have hopen : ∀ a ∈ run, a.isOpenBracket = false := by
    intro a ha
    exact Atom.not_isOpenBracket_of_kind (hrun a ha)
  have hwaits : ∀ a ∈ run, a.waits = true := by
    intro a ha
    exact (h.waits_iff ha).mpr (hrun a ha)
  constructor
  · have hchain : (run.map Atom.precedence).IsChain (· > ·) := by
      refine (List.isChain_map _).mpr (h.liesOn.imp_of_mem_imp ?_)
      intro upper lower _ hlower hlies
      exact hlies.resolve_left (by simp [hopen lower hlower])
    exact List.pairwise_map.mp hchain.pairwise
  · have hle := h.countP_waits_le
    have hsix := h.reach_le
    rw [List.countP_eq_length.mpr hwaits, List.countP_eq_zero.mpr (by simpa using hopen)] at hle
    omega

end PostOrder

open PostOrder

/-- **The operator stack is ordered, and bounded by the brackets that are open.**  Whatever was read
of a row, the stack holds opening brackets, those that are not closed yet, and atoms that wait;
between brackets these bind the more strongly the higher they lie, and are no more than six. -/
theorem stackAfter_ordered (front back : List Atom) :
    postOrder (front ++ back) = (advanceAll [] front).1 ++ arrange (stackAfter front) back ∧
    (∀ a ∈ stackAfter front, a.isOpenBracket = true ∨ a.waits = true) ∧
    (∀ above run below, stackAfter front = above ++ run ++ below →
      (∀ a ∈ run, a.kind ≠ .bracket) →
      run.Pairwise (fun upper lower => lower.precedence < upper.precedence) ∧ run.length ≤ 6) ∧
    (stackAfter front).filter Atom.isOpenBracket = (pairUp id [] front).1 ∧
    (stackAfter front).countP (fun a => a.kind ≠ .bracket) ≤
      6 * ((pairUp id [] front).1.length + 1) := by
  have hlayered : Layered (stackAfter front) := layered_iff.mpr ⟨front, rfl⟩
  refine ⟨arrange_append front back [], hlayered.opens_or_waits, ?_, opened_stackAfter front, ?_⟩
  · intro above run below hstack hrun
    rw [hstack] at hlayered
    exact hlayered.of_append_left.of_append_right.run_ordered hrun
  · have hcount : (stackAfter front).countP (fun a => a.kind ≠ .bracket) =
        (stackAfter front).countP Atom.waits := by
      apply List.countP_congr
      intro a ha
      simpa using (hlayered.waits_iff ha).symm
    have hle := hlayered.countP_waits_le
    have hsix := hlayered.reach_le
    rw [hcount, ← opened_stackAfter, ← List.countP_eq_length_filter]
    omega

/-- A bracket that closes nothing, a group that is closed, and one that is not: as high as a stack
can be with one bracket open. -/
theorem stackAfter_ordered_full :
    let front : List Atom :=
      [.number "1" 1, .operator '*', .bracket ']', .operator '.', .comma, .operator '+',
       .operator '*', .operator '^', .function "F", .bracket '(', .number "2" 2, .bracket '(',
       .function "G", .operator '-', .bracket ')', .operator '.', .comma, .operator '-',
       .operator '/', .operator '^', .function "H"]
    let run : List Atom :=
      [.function "H", .operator '^', .operator '/', .operator '-', .comma, .operator '.']
    let below : List Atom :=
      [.bracket '(', .function "F", .operator '^', .operator '*', .operator '+', .comma,
       .operator '.']
    stackAfter front = [] ++ run ++ below ∧ (∀ a ∈ run, a.kind ≠ .bracket) ∧
    run.Pairwise (fun upper lower => lower.precedence < upper.precedence) ∧ run.length = 6 ∧
    (pairUp id [] front).1 = [.bracket '('] ∧
    (stackAfter front).countP (fun a => a.kind ≠ .bracket) = 6 * (1 + 1) := by
  intro front run below
  have hstack : stackAfter front = [] ++ run ++ below := by decide +kernel
  have hrun : ∀ a ∈ run, a.kind ≠ .bracket := by decide +kernel
  obtain ⟨-, -, hordered, -, -⟩ := stackAfter_ordered front [.bracket ')']
  exact ⟨hstack, hrun, (hordered [] run below hstack hrun).1, rfl, by decide +kernel,
    by decide +kernel⟩

end Reckoner
