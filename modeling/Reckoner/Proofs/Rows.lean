/-
# Rows of atoms without and with faults

A formula is gone through from left to right, keeping what may come next (`Due`) and how many
brackets are open.  A fault is a place where an operand is due and a connector, a closing bracket or
the end comes instead; `Row` counts them.

Operands and connectors alternate except at faults, so that the faults can be counted without
looking at the places: there are as many as operands are missing (`Row.surplus_add`).  A row without
faults is grouped (`Row.grouped`): what was gone through is a stack of unfinished rows, one for each
open bracket (`Frames`, `Pending`), and every atom extends the innermost one.
-/
import Reckoner.Proofs.Grouping

namespace Reckoner

/-! ## 1. Going through a row -/

/-- What is due at a place of a row.  Arguments are due after a function: there must be a bracket,
and behind it the row goes on as anywhere else. -/
inductive Due where
  | operand
  /-- The opening bracket of a function's arguments. -/
  | arguments
  | connector
  deriving DecidableEq

/-- The row can be gone through when `due` comes next and `depth` brackets are open.  All of them
are closed at the end, and operands are missing at `faults` places. -/
inductive Row : (due : Due) → (depth faults : Nat) → List Atom → Prop
  | done : Row .connector 0 0 []
  | operand {depth faults : Nat} {a : Atom} {rest : List Atom} (ha : a.isOperand = true)
      (h : Row .connector depth faults rest) : Row .operand depth faults (a :: rest)
  | function {depth faults : Nat} {f : Atom} {rest : List Atom} (hf : f.kind = .function)
      (h : Row .arguments depth faults rest) : Row .operand depth faults (f :: rest)
  | opening {due : Due} {depth faults : Nat} {rest : List Atom} (hdue : due ≠ .connector)
      (h : Row .operand (depth + 1) faults rest) : Row due depth faults (.bracket '(' :: rest)
  | connector {depth faults : Nat} {c : Atom} {rest : List Atom} (hc : c.isConnector = true)
      (h : Row .operand depth faults rest) : Row .connector depth faults (c :: rest)
  | closing {depth faults : Nat} {rest : List Atom} (h : Row .connector depth faults rest) :
      Row .connector (depth + 1) faults (.bracket ')' :: rest)
  | missingEnd : Row .operand 0 1 []
  | missingConnector {depth faults : Nat} {c : Atom} {rest : List Atom}
      (hc : c.isConnector = true) (h : Row .operand depth faults rest) :
      Row .operand depth (faults + 1) (c :: rest)
  | missingClosing {depth faults : Nat} {rest : List Atom} (h : Row .connector depth faults rest) :
      Row .operand (depth + 1) (faults + 1) (.bracket ')' :: rest)

theorem not_isOperand_of_isConnector {c : Atom} (hc : c.isConnector = true) :
    c.isOperand = false := by
  unfold Atom.isConnector at hc
  unfold Atom.isOperand
  split at hc <;> simp_all

theorem not_isConnector_of_isOperand {a : Atom} (ha : a.isOperand = true) :
    a.isConnector = false := by
  by_cases h : a.isConnector = true
  · rw [not_isOperand_of_isConnector h] at ha
    cases ha
  · exact Bool.eq_false_iff.mpr h

theorem ne_bracket_of_isOperand {a : Atom} (ha : a.isOperand = true) : a.kind ≠ .bracket := by
  intro h
  simp [Atom.isOperand, h] at ha

theorem ne_bracket_of_isConnector {c : Atom} (hc : c.isConnector = true) : c.kind ≠ .bracket := by
  intro h
  simp [Atom.isConnector, h] at hc

/-- How many more operands than connectors there are.  In a formula there is one more, however it is
nested. -/
def surplus (atoms : List Atom) : Int := atoms.countP Atom.isOperand - atoms.countP Atom.isConnector

@[simp] theorem surplus_append (u v : List Atom) : surplus (u ++ v) = surplus u + surplus v := by
  simp only [surplus, List.countP_append]
  omega

theorem surplus_operand {a : Atom} (ha : a.isOperand = true) (rest : List Atom) :
    surplus (a :: rest) = surplus rest + 1 := by
  simp only [surplus, List.countP_cons_of_pos ha,
    List.countP_cons_of_neg (Bool.eq_false_iff.mp (not_isConnector_of_isOperand ha))]
  omega

theorem surplus_connector {c : Atom} (hc : c.isConnector = true) (rest : List Atom) :
    surplus (c :: rest) = surplus rest - 1 := by
  simp only [surplus, List.countP_cons_of_pos hc,
    List.countP_cons_of_neg (Bool.eq_false_iff.mp (not_isOperand_of_isConnector hc))]
  omega

theorem surplus_other {a : Atom} (h : a.kind = .function ∨ a.kind = .bracket) (rest : List Atom) :
    surplus (a :: rest) = surplus rest := by
  have hoperand : ¬ a.isOperand = true := by rcases h with h | h <;> simp [Atom.isOperand, h]
  have hconnector : ¬ a.isConnector = true := by rcases h with h | h <;> simp [Atom.isConnector, h]
  simp only [surplus, List.countP_cons_of_neg hoperand, List.countP_cons_of_neg hconnector]

/-- **As many operands are missing as there are faults.**  Both are counted without any knowledge of
brackets, so the count survives being put into post-order. -/
theorem Row.surplus_add {due : Due} {depth faults : Nat} {atoms : List Atom}
    (h : Row due depth faults atoms) :
    surplus atoms + faults = if due = .connector then 0 else 1 := by
  induction h with
  | done => rfl
  | operand ha h ih =>
    rw [surplus_operand ha, if_neg (by simp)]
    rw [if_pos rfl] at ih
    omega
  | function hf h ih =>
    rwa [surplus_other (Or.inl hf)]
  | opening hdue h ih =>
    rwa [surplus_other (Or.inr rfl), if_neg hdue]
  | connector hc h ih =>
    rw [surplus_connector hc, if_pos rfl]
    rw [if_neg (by simp)] at ih
    omega
  | closing h ih =>
    rwa [surplus_other (Or.inr rfl)]
  | missingEnd => rfl
  | missingConnector hc h ih =>
    rw [surplus_connector hc, if_neg (by simp)]
    rw [if_neg (by simp)] at ih
    omega
  | missingClosing h ih =>
    rw [surplus_other (Or.inr rfl), if_neg (by simp)]
    rw [if_pos rfl] at ih
    omega

theorem Row.closesOpen {due : Due} {depth faults : Nat} {atoms : List Atom}
    (h : Row due depth faults atoms) : ClosesOpen depth atoms := by
  induction h with
  | done => exact .nil 0
  | operand ha h ih => exact ih.cons_other (ne_bracket_of_isOperand ha)
  | function hf h ih => exact ih.cons_other (by simp [hf])
  | opening hdue h ih => exact ih.cons_open
  | connector hc h ih => exact ih.cons_other (ne_bracket_of_isConnector hc)
  | closing h ih => exact ih.cons_close
  | missingEnd => exact .nil 0
  | missingConnector hc h ih => exact ih.cons_other (ne_bracket_of_isConnector hc)
  | missingClosing h ih => exact ih.cons_close

/-! ## 2. Rows without faults are grouped -/

/-- A row that can be grouped, with commas between its sums. -/
def IsGrouped (n : Nat) (written : List Atom) : Prop := ∃ ordered, Grouped n written ordered

theorem precedence_le_of_isConnector {c : Atom} (hc : c.isConnector = true) : c.precedence ≤ 3 := by
  unfold Atom.isConnector at hc
  unfold Atom.precedence
  split at hc
  · rename_i hkind
    simp only [hkind]
    split
    · omega
    · split
      · omega
      · split <;> omega
  · rename_i hkind
    simp only [hkind]
    omega
  · cases hc

/-- **A connector and what it joins extend a row**: they attach to the part of the row at its end
that binds at least as tightly as the connector. -/
theorem Grouped.snoc {n : Nat} {written ordered : List Atom} (h : Grouped n written ordered)
    {c : Atom} (hc : c.isConnector = true) {m : Nat} (hm : c.precedence = m) (hnm : n ≤ m)
    {last : List Atom} (hlast : IsGrouped 4 last) : IsGrouped n (written ++ c :: last) := by
  have hle := precedence_le_of_isConnector hc
  obtain ⟨lastOrdered, hlast⟩ := hlast
  -- as long as the row binds exactly as the connector does, it is the left operand as a whole
  have hwhole : ∀ {written ordered : List Atom}, Grouped m written ordered →
      IsGrouped m (written ++ c :: last) := by
    intro written ordered h
    exact ⟨_, .join hc hm h (hlast.loosen_le (by omega))⟩
  induction h with
  | operand ha => omega
  | group h ih => omega
  | call hf h ih => omega
  | @join n c' left leftOrdered right rightOrdered hc' hn' hl hr ihl ihr =>
    rcases Nat.lt_or_eq_of_le hnm with hlt | rfl
    · obtain ⟨rightOrdered', hright⟩ := ihr hlt
      exact ⟨_, by simpa using Grouped.join hc' hn' hl hright⟩
    · exact hwhole (.join hc' hn' hl hr)
  | @loosen n written ordered h ih =>
    rcases Nat.lt_or_eq_of_le hnm with hlt | rfl
    · obtain ⟨ordered', h'⟩ := ih hlt
      exact ⟨_, h'.loosen⟩
    · exact hwhole h.loosen

/-- The part of a row that was gone through since the innermost bracket was opened.  It ends with an
operand or where one is due, possibly after the name of a function. -/
inductive Pending : Due → List Atom → Prop
  | start : Pending .operand []
  | row {row : List Atom} (h : IsGrouped 0 row) : Pending .connector row
  | connector {row : List Atom} {c : Atom} (h : IsGrouped 0 row) (hc : c.isConnector = true)
      (hknown : 0 ≤ c.precedence) : Pending .operand (row ++ [c])
  | function {lead : List Atom} {f : Atom} (h : Pending .operand lead) (hf : f.kind = .function) :
      Pending .arguments (lead ++ [f])

/-- What was gone through before the innermost bracket was opened, and the bracket. -/
inductive Frames : Nat → List Atom → Prop
  | nil : Frames 0 []
  | opening {due : Due} {depth : Nat} {outer lead : List Atom} (hdue : due ≠ .connector)
      (h : Frames depth outer) (hlead : Pending due lead) :
      Frames (depth + 1) (outer ++ lead ++ [.bracket '('])

/-- An operand, a group or a call completes what was waiting for it. -/
theorem Pending.complete {lead last : List Atom} (h : Pending .operand lead)
    (hlast : IsGrouped 4 last) : Pending .connector (lead ++ last) := by
  cases h with
  | start =>
    obtain ⟨ordered, hlast⟩ := hlast
    exact .row ⟨ordered, hlast.loosen_le (by omega)⟩
  | @connector row c h hc hknown =>
    obtain ⟨ordered, h⟩ := h
    have hm : c.precedence = (c.precedence.toNat : Int) := by omega
    have hrow := h.snoc hc hm (Nat.zero_le _) hlast
    rw [List.append_assoc]
    exact .row hrow

/-- A bracket that closes completes the row outside. -/
theorem Pending.close {due : Due} {lead inner : List Atom} (hdue : due ≠ .connector)
    (hlead : Pending due lead) (hinner : IsGrouped 0 inner) :
    Pending .connector (lead ++ .bracket '(' :: (inner ++ [.bracket ')'])) := by
  obtain ⟨ordered, hinner⟩ := hinner
  cases hlead with
  | start => exact Pending.start.complete ⟨_, .group hinner⟩
  | row => exact absurd rfl hdue
  | connector h hc hknown => exact (Pending.connector h hc hknown).complete ⟨_, .group hinner⟩
  | @function lead f h hf =>
    rw [List.append_assoc]
    exact h.complete ⟨_, .call hf hinner⟩

/-- **A row without faults is grouped**, together with what was gone through before it.  By
induction on the row: each atom extends the pending part or closes it into the frame outside. -/
theorem Row.grouped {due : Due} {depth faults : Nat} {rest : List Atom}
    (h : Row due depth faults rest) (hfaults : faults = 0)
    (hknown : ∀ c ∈ rest, c.isConnector = true → 0 ≤ c.precedence) :
    ∀ {outer pending : List Atom}, Frames depth outer → Pending due pending →
      IsGrouped 0 (outer ++ pending ++ rest) := by
  induction h with
  | done =>
    intro outer pending houter hpending
    cases houter
    cases hpending with
    | row h => simpa using h
  | @operand depth faults a rest ha h ih =>
    intro outer pending houter hpending
    have hrest := (List.forall_mem_cons.mp hknown).2
    have hnext := ih hfaults hrest houter (hpending.complete ⟨_, .operand ha⟩)
    simpa using hnext
  | @function depth faults f rest hf h ih =>
    intro outer pending houter hpending
    have hrest := (List.forall_mem_cons.mp hknown).2
    have hnext := ih hfaults hrest houter (hpending.function hf)
    simpa using hnext
  | @opening due depth faults rest hdue h ih =>
    intro outer pending houter hpending
    have hrest := (List.forall_mem_cons.mp hknown).2
    have hnext := ih hfaults hrest (.opening hdue houter hpending) .start
    simpa using hnext
  | @connector depth faults c rest hc h ih =>
    intro outer pending houter hpending
    obtain ⟨hfirst, hrest⟩ := List.forall_mem_cons.mp hknown
    cases hpending with
    | row hrow =>
      have hnext := ih hfaults hrest houter (.connector hrow hc (hfirst hc))
      simpa using hnext
  | @closing depth faults rest h ih =>
    intro outer pending houter hpending
    have hrest := (List.forall_mem_cons.mp hknown).2
    cases hpending with
    | row hrow =>
      cases houter with
      | @opening due depth outer lead hdue houter hlead =>
        have hnext := ih hfaults hrest houter (hlead.close hdue hrow)
        simpa using hnext
  | missingEnd => cases hfaults
  | missingConnector => cases hfaults
  | missingClosing => cases hfaults

end Reckoner
