/-
# Bounded sequences of atoms

A sequence grows at its end and may have a capacity.  At capacity it keeps what it has, drops what
comes, and remembers that it did so until it is cleared: its content is the capacity-long beginning
of what was pushed.

`AtomSeq.offer` is all that happens when an atom is offered: the sequence afterwards, the answer
whether the atom was kept, and the warning, which comes once between two clears.  `AtomSeq.push` is
the first of the three.
-/
import Reckoner.Atom
import Reckoner.Record

namespace Reckoner

/-- Atoms in order, with an optional capacity.  A full sequence does not fail: it drops what comes
and remembers that it did, and whoever filled it can ask afterwards. -/
structure AtomSeq where
  atoms : Array Atom
  capacity : Option Nat
  /-- Whether an atom was dropped since the last clear. -/
  overflowed : Bool
  deriving DecidableEq

namespace AtomSeq

/-- An empty sequence that takes at most `capacity` atoms. -/
def bounded (capacity : Option Nat) : AtomSeq := ⟨#[], capacity, false⟩

def toList (s : AtomSeq) : List Atom := s.atoms.toList

def size (s : AtomSeq) : Nat := s.atoms.size

/-- Whether the next push is kept. -/
def accepts (s : AtomSeq) : Bool :=
  match s.capacity with
  | none => true
  | some n => s.size < n

/-- What comes of offering an atom to a sequence. -/
structure Offered where
  sequence : AtomSeq
  /-- Whether the atom is in it now. -/
  kept : Bool
  log : List Record

/-- Offers an atom.  A full sequence drops it and says so, unless it has dropped one before. -/
def offer (s : AtomSeq) (a : Atom) : Offered :=
  match s.capacity with
  | none => ⟨{ s with atoms := s.atoms.push a }, true, []⟩
  | some n =>
    if n ≤ s.size then
      ⟨{ s with overflowed := true }, false, if s.overflowed then [] else [.capacityReached n]⟩
    else ⟨{ s with atoms := s.atoms.push a }, true, []⟩

/-- The sequence after an atom was offered, for those who do not look at the report. -/
def push (s : AtomSeq) (a : Atom) : AtomSeq := (s.offer a).sequence

def pushAll (s : AtomSeq) (atoms : List Atom) : AtomSeq := atoms.foldl push s

/-- What is reported while atoms are offered in turn.  That is at most one record, since only the
first atom that is dropped is reported. -/
def reports (s : AtomSeq) : List Atom → List Record
  | [] => []
  | a :: rest => (s.offer a).log ++ (s.push a).reports rest

/-- Removes all atoms and forgets that some were dropped.  The capacity stays. -/
def clear (s : AtomSeq) : AtomSeq := bounded s.capacity

/-- Whether the next thing must be an operand: at the start, or after an atom that needs one. -/
def expectsOperand (s : AtomSeq) : Bool := s.atoms.back?.all Atom.expectsOperand

/-! ## Small lemmas -/

@[simp] theorem toList_bounded (n : Option Nat) : (bounded n).toList = [] := rfl

/-- An atom is kept if the sequence accepts one more. -/
theorem kept_offer (s : AtomSeq) (a : Atom) : (s.offer a).kept = s.accepts := by
  unfold offer accepts
  cases s.capacity with
  | none => rfl
  | some n =>
    rcases Nat.lt_or_ge s.size n with hroom | hfull
    · simp [hroom, Nat.not_le.mpr hroom]
    · simp [hfull, Nat.not_lt.mpr hfull]

/-- An atom that is kept stands at the end, and one that is dropped is remembered only. -/
theorem push_eq (s : AtomSeq) (a : Atom) :
    s.push a =
      if s.accepts then { s with atoms := s.atoms.push a } else { s with overflowed := true } := by
  rw [← s.kept_offer a, push]
  unfold offer
  split
  · rfl
  · split <;> rfl

@[simp] theorem capacity_push (s : AtomSeq) (a : Atom) : (s.push a).capacity = s.capacity := by
  rw [push_eq]; split <;> rfl

theorem toList_push (s : AtomSeq) (a : Atom) :
    (s.push a).toList = if s.accepts then s.toList ++ [a] else s.toList := by
  rw [push_eq]; split <;> simp [toList]

theorem overflowed_push (s : AtomSeq) (a : Atom) :
    (s.push a).overflowed = (s.overflowed || !s.accepts) := by
  rw [push_eq]; split <;> simp_all

end AtomSeq

end Reckoner
