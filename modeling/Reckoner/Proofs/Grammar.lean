/-
# The grammar of formulas

The grammar of formulas over atoms (`Derives`).  It is the one of the derivation trees of
well-formed formulas, except that a list of arguments may have brackets of its own around it, which
no stage of an evaluation takes notice of.

Two things can be read off a derivation: nowhere is an operand missing (`Derives.row`), and commas
stand in calls only (`Derives.endsBeforeComma`).
-/
import Reckoner.Proofs.Formula
import Reckoner.Proofs.Rows

namespace Reckoner

/-! ## 1. Phrases -/

/-- What is derived: a formula that holds together with some strength, or a list of arguments.
Lists are apart from formulas because commas may stand in the one and not in the other. -/
inductive Phrase where
  | formula (strength : Nat)
  | arguments

/-- The row is derived from the grammar.  Formulas of strength 1 are sums, of strength 2 products,
of strength 3 powers and of strength 4 primaries; a list of arguments may have brackets around
it. -/
inductive Derives : Phrase → List Atom → Prop
  | operand {a : Atom} (ha : a.isOperand = true) : Derives (.formula 4) [a]
  | group {row : List Atom} (h : Derives (.formula 1) row) :
      Derives (.formula 4) (.bracket '(' :: (row ++ [.bracket ')']))
  | call {f : Atom} {row : List Atom} (hf : f.kind = .function) (h : Derives .arguments row) :
      Derives (.formula 4) (f :: .bracket '(' :: (row ++ [.bracket ')']))
  | binary {op : Op} {c : Atom} {left right : List Atom} (hc : c.kind = .operator)
      (hname : c.name = op.char.toString) (hl : Derives (.formula op.level) left)
      (hr : Derives (.formula (op.level + 1)) right) :
      Derives (.formula op.level) (left ++ c :: right)
  | raise {n : Nat} {row : List Atom} (h : Derives (.formula (n + 1)) row) :
      Derives (.formula n) row
  | one {row : List Atom} (h : Derives (.formula 1) row) : Derives .arguments row
  | more {earlier last : List Atom} {c : Atom} (hc : c.kind = .comma)
      (h : Derives .arguments earlier) (hlast : Derives (.formula 1) last) :
      Derives .arguments (earlier ++ c :: last)
  | bracketed {row : List Atom} (h : Derives .arguments row) :
      Derives .arguments (.bracket '(' :: (row ++ [.bracket ')']))

/-! ## 2. What is derived has no faults -/

namespace Derives

/-- **What is derived has no faults**: nowhere is an operand missing, and all brackets are closed.
By induction on the derivation, with an arbitrary row behind it where a connector is due. -/
theorem row {phrase : Phrase} {atoms : List Atom} (h : Derives phrase atoms) :
    ∀ {depth faults : Nat} {rest : List Atom}, Row .connector depth faults rest →
      Row .operand depth faults (atoms ++ rest) := by
  have hbracketed : ∀ {due : Due} {inner : List Atom}, due ≠ .connector →
      (∀ {depth faults : Nat} {rest : List Atom}, Row .connector depth faults rest →
        Row .operand depth faults (inner ++ rest)) →
      ∀ {depth faults : Nat} {rest : List Atom}, Row .connector depth faults rest →
        Row due depth faults (.bracket '(' :: (inner ++ [.bracket ')']) ++ rest) := by
    intro due inner hdue ih depth faults rest hrest
    simpa using Row.opening hdue (ih hrest.closing)
  induction h with
  | operand ha =>
    intro depth faults rest hrest
    exact .operand ha hrest
  | group h ih => exact hbracketed (by simp) ih
  | call hf h ih =>
    intro depth faults rest hrest
    exact .function hf (hbracketed (by simp) ih hrest)
  | @binary op c left right hc hname hl hr ihl ihr =>
    intro depth faults rest hrest
    have hconnector : c.isConnector = true := by simp [Atom.isConnector, hc]
    simpa using ihl (.connector hconnector (ihr hrest))
  | raise h ih => exact ih
  | one h ih => exact ih
  | @more earlier last c hc h hlast ih ihlast =>
    intro depth faults rest hrest
    have hconnector : c.isConnector = true := by simp [Atom.isConnector, hc]
    simpa using ih (.connector hconnector (ihlast hrest))
  | bracketed h ih => exact hbracketed (by simp) ih

theorem closesOpen {phrase : Phrase} {atoms : List Atom} (h : Derives phrase atoms) :
    ClosesOpen 0 atoms := by
  have hrow := h.row .done
  rw [List.append_nil] at hrow
  exact hrow.closesOpen

end Derives

/-! ## 3. Commas stand in calls -/

/-- The row ends between the brackets of a call. -/
def InCall (row : List Atom) : Prop :=
  ∃ (before : List Atom) (f : Atom) (inside : List Atom),
    row = before ++ f :: .bracket '(' :: inside ∧ f.kind = .function ∧ ClosesOpen 0 inside

theorem InCall.prepend {row : List Atom} (h : InCall row) (front : List Atom) :
    InCall (front ++ row) := by
  obtain ⟨before, f, inside, rfl, hf, hinside⟩ := h
  exact ⟨front ++ before, f, inside, by simp, hf, hinside⟩

theorem comma_in_brackets {inner u v : List Atom} {c : Atom} (hc : c.kind = .comma)
    (h : .bracket '(' :: (inner ++ [.bracket ')']) = u ++ c :: v) :
    ∃ front back, u = .bracket '(' :: front ∧ inner = front ++ c :: back := by
  cases u with
  | nil =>
    obtain ⟨rfl, -⟩ := List.cons.inj h
    cases hc
  | cons b front =>
    obtain ⟨rfl, hrest⟩ := List.cons.inj h
    rcases append_cons_eq hrest with ⟨back, rfl⟩ | ⟨-, rfl⟩ | ⟨w, -, hw⟩
    · exact ⟨front, back, rfl, rfl⟩
    · cases hc
    · simp at hw

/-- What can stand in front of a comma: in a formula the beginning of a call, and in a list of
arguments also the arguments before it. -/
def EndsBeforeComma : Phrase → List Atom → Prop
  | .formula _, front => InCall front
  | .arguments, front => InCall front ∨ ClosesOpen 0 front

/-- **Commas are derived only in calls**, and between the arguments of a list.  By induction on the
derivation: a comma of the whole is one of a part, and what stands before it there is carried
along. -/
theorem Derives.endsBeforeComma {phrase : Phrase} {atoms : List Atom} (h : Derives phrase atoms) :
    ∀ {u v : List Atom} {c : Atom}, c.kind = .comma → atoms = u ++ c :: v →
      EndsBeforeComma phrase u := by
  induction h with
  | @operand a ha =>
    intro u v c hc h
    have hmem : c ∈ [a] := h ▸ List.mem_append_right u List.mem_cons_self
    rw [List.mem_singleton.mp hmem] at hc
    simp [Atom.isOperand, hc] at ha
  | group h ih =>
    intro u v c hc h
    obtain ⟨front, back, rfl, rfl⟩ := comma_in_brackets hc h
    exact (ih hc rfl).prepend [.bracket '(']
  | @call f inner hf h ih =>
    intro u v c hc h
    cases u with
    | nil =>
      obtain ⟨rfl, -⟩ := List.cons.inj h
      rw [hf] at hc
      cases hc
    | cons b u =>
      obtain ⟨rfl, hrest⟩ := List.cons.inj h
      obtain ⟨front, back, rfl, rfl⟩ := comma_in_brackets hc hrest
      rcases ih hc rfl with hcall | hclosed
      · exact hcall.prepend [f, .bracket '(']
      · exact ⟨[], f, front, rfl, hf, hclosed⟩
  | @binary op o left right ho hname hl hr ihl ihr =>
    intro u v c hc h
    rcases append_cons_eq h with ⟨w, rfl⟩ | ⟨-, rfl⟩ | ⟨w, rfl, rfl⟩
    · exact ihl hc rfl
    · rw [ho] at hc
      cases hc
    · have hcall := (ihr hc rfl).prepend (left ++ [o])
      rwa [List.append_assoc] at hcall
  | raise h ih =>
    intro u v c hc h
    exact ih hc h
  | one h ih =>
    intro u v c hc h
    exact Or.inl (ih hc h)
  | @more earlier last d hd hearlier hlast ih ihlast =>
    intro u v c hc h
    rcases append_cons_eq h with ⟨w, rfl⟩ | ⟨rfl, rfl⟩ | ⟨w, rfl, rfl⟩
    · exact ih hc rfl
    · exact Or.inr hearlier.closesOpen
    · have hcall := (ihlast hc rfl).prepend (earlier ++ [d])
      rw [List.append_assoc] at hcall
      exact Or.inl hcall
  | bracketed h ih =>
    intro u v c hc h
    obtain ⟨front, back, rfl, rfl⟩ := comma_in_brackets hc h
    rcases ih hc rfl with hcall | hclosed
    · exact Or.inl (hcall.prepend [.bracket '('])
    · exact Or.inr (ClosesOpen.mono (Nat.le_succ 0) hclosed).cons_open

end Reckoner
