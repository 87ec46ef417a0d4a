/-
# Grouping by precedence

`Grouped n written ordered` says how a row of atoms is grouped when every connector groups to the
left and binds as strongly as its precedence: `written` is the row, `ordered` its post-order, and
`n` how tightly it holds together.

| `n` | what                            |
|-----|---------------------------------|
| 0   | sums, separated by commas       |
| 1   | products, added and subtracted  |
| 2   | powers, multiplied and divided  |
| 3   | primaries, raised               |
| 4   | an operand, a group or a call   |

The argument separator is just the weakest connector.  `Grouped.postOrder_eq` says that the operator
stack finds this grouping.  What it holds back while a row is read is named in
`Grouped.advanceAll`: connectors of the row itself, which bind at least as tightly as the row and
come out as soon as anything looser follows.
-/
import Reckoner.Proofs.Conservation

namespace Reckoner

/-! ## 1. Reading several atoms -/

namespace PostOrder

/-- What several atoms release, and the stack after them.  Unlike `arrange` this does not empty the
stack at the end, so rows can be put together. -/
def advanceAll : List Atom → List Atom → List Atom × List Atom
  | stack, [] => ([], stack)
  | stack, a :: rest =>
    ((advance stack a).1 ++ (advanceAll (advance stack a).2 rest).1,
      (advanceAll (advance stack a).2 rest).2)

theorem arrange_append (u v stack : List Atom) :
    arrange stack (u ++ v) = (advanceAll stack u).1 ++ arrange (advanceAll stack u).2 v := by
  induction u generalizing stack with
  | nil => rfl
  | cons a rest ih => simp [arrange, advanceAll, ih]

/-- At the end everything comes off the stack. -/
theorem arrange_eq (atoms stack : List Atom) :
    arrange stack atoms = (advanceAll stack atoms).1 ++ (advanceAll stack atoms).2 := by
  have h := arrange_append atoms [] stack
  rwa [List.append_nil] at h

theorem advanceAll_append {u v stack middle last out more : List Atom}
    (hu : advanceAll stack u = (out, middle)) (hv : advanceAll middle v = (more, last)) :
    advanceAll stack (u ++ v) = (out ++ more, last) := by
  induction u generalizing stack out with
  | nil =>
    cases hu
    simpa using hv
  | cons a rest ih =>
    simp only [advanceAll, Prod.mk.injEq] at hu
    obtain ⟨rfl, hstack⟩ := hu
    simp [advanceAll, ih (Prod.ext rfl hstack)]

theorem advanceAll_cons {v stack middle last out more : List Atom} {a : Atom}
    (ha : advance stack a = (out, middle)) (hv : advanceAll middle v = (more, last)) :
    advanceAll stack (a :: v) = (out ++ more, last) := by
  simp [advanceAll, ha, hv]

end PostOrder

/-! ## 2. Rows -/

/-- Whether the atom stands between two operands: an operator or an argument separator. -/
def Atom.isConnector (a : Atom) : Bool :=
  match a.kind with
  | .operator | .comma => true
  | _ => false

/-- The row `written` is grouped, with the post-order `ordered`, and holds together with
strength `n`. -/
inductive Grouped : Nat → List Atom → List Atom → Prop
  | operand {a : Atom} (ha : a.isOperand = true) : Grouped 4 [a] [a]
  | group {written ordered : List Atom} (h : Grouped 0 written ordered) :
      Grouped 4 (.bracket '(' :: (written ++ [.bracket ')'])) ordered
  | call {f : Atom} {written ordered : List Atom} (hf : f.kind = .function)
      (h : Grouped 0 written ordered) :
      Grouped 4 (f :: .bracket '(' :: (written ++ [.bracket ')'])) (ordered ++ [f])
  | join {n : Nat} {c : Atom} {left leftOrdered right rightOrdered : List Atom}
      (hc : c.isConnector = true) (hn : c.precedence = n) (hl : Grouped n left leftOrdered)
      (hr : Grouped (n + 1) right rightOrdered) :
      Grouped n (left ++ c :: right) (leftOrdered ++ rightOrdered ++ [c])
  | loosen {n : Nat} {written ordered : List Atom} (h : Grouped (n + 1) written ordered) :
      Grouped n written ordered

theorem Grouped.loosen_le {m n : Nat} (hmn : m ≤ n) {written ordered : List Atom}
    (h : Grouped n written ordered) : Grouped m written ordered := by
  induction hmn with
  | refl => exact h
  | step _ ih => exact ih h.loosen

/-! ## 3. The operator stack finds the grouping -/

section Stack

open PostOrder

/-- Whatever waits on top of the stack binds more loosely than `n`. -/
def Below (n : Nat) (stack : List Atom) : Prop :=
  ∀ top ∈ stack.head?, top.waits = true → top.precedence < n

theorem Below.mono {m n : Nat} (hmn : m ≤ n) {stack : List Atom} (h : Below m stack) :
    Below n stack := by
  intro top htop hwaits
  have := h top htop hwaits
  omega

/-- A waiting atom releases what is pending on the stack, if that binds at least as strongly, and
nothing of what binds more loosely. -/
theorem advance_waits {a : Atom} (ha : a.waits = true) {pending stack : List Atom}
    (hpending : ∀ b ∈ pending, b.waits = true ∧ a.precedence ≤ b.precedence)
    (hstack : ∀ top ∈ stack.head?, top.waits = true → top.precedence < a.precedence) :
    advance (pending ++ stack) a = (pending, a :: stack) := by
  have hyield : ∀ b ∈ pending, b.yieldsTo a = true := by
    intro b hb
    simp [Atom.yieldsTo, hpending b hb]
  have hstay : ∀ top ∈ stack.head?, top.yieldsTo a = false := by
    intro top htop
    by_cases hw : top.waits = true
    · have hlt := hstack top htop hw
      simp [Atom.yieldsTo, hlt]
    · simp [Atom.yieldsTo, hw]
  obtain ⟨htake, hdrop⟩ := span_append (fun b : Atom => b.yieldsTo a) hyield hstay
  have hadvance : advance (pending ++ stack) a =
      ((pending ++ stack).takeWhile (·.yieldsTo a),
        a :: (pending ++ stack).dropWhile (·.yieldsTo a)) := by
    unfold Atom.waits at ha
    unfold advance
    split at ha <;> simp_all
  rw [hadvance, htake, hdrop]

theorem advance_close {pending stack : List Atom} (hpending : ∀ b ∈ pending, b.waits = true) :
    advance (pending ++ .bracket '(' :: stack) (.bracket ')') = (pending, stack) := by
  have hinside : ∀ b ∈ pending, (!b.isOpenBracket) = true := by
    intro b hb
    simp [not_isOpenBracket_of_waits (hpending b hb)]
  have hpartner : ∀ top ∈ (.bracket '(' :: stack).head?, (!top.isOpenBracket) = false := by
    intro top htop
    cases htop
    rfl
  obtain ⟨htake, hdrop⟩ := span_append (fun b : Atom => !b.isOpenBracket) hinside hpartner
  show ((pending ++ .bracket '(' :: stack).takeWhile (!·.isOpenBracket),
    ((pending ++ .bracket '(' :: stack).dropWhile (!·.isOpenBracket)).drop 1) = _
  rw [htake, hdrop]
  rfl

theorem waits_of_isConnector {c : Atom} (hc : c.isConnector = true) : c.waits = true := by
  unfold Atom.isConnector at hc
  unfold Atom.waits
  split at hc <;> simp_all

theorem advance_operand {a : Atom} (ha : a.isOperand = true) (stack : List Atom) :
    advance stack a = ([a], stack) := by
  unfold Atom.isOperand at ha
  unfold advance
  split at ha <;> simp_all

theorem advanceAll_bracketed {written ordered : List Atom}
    (h : ∀ stack, Below 0 stack → ∃ out pending,
      advanceAll stack written = (out, pending ++ stack) ∧
      out ++ pending = ordered ∧ ∀ a ∈ pending, a.waits = true ∧ (0 : Nat) ≤ a.precedence)
    (stack : List Atom) :
    advanceAll stack (.bracket '(' :: (written ++ [.bracket ')'])) = (ordered, stack) := by
  have hopen : advance stack (.bracket '(') = ([], .bracket '(' :: stack) := rfl
  have hbelow : Below 0 (.bracket '(' :: stack) := by
    intro top htop hwaits
    cases htop
    cases hwaits
  obtain ⟨out, pending, hrow, rfl, hpending⟩ := h _ hbelow
  have hwaits : ∀ b ∈ pending, b.waits = true := by
    intro b hb
    exact (hpending b hb).1
  have hclose :
      advanceAll (pending ++ .bracket '(' :: stack) [.bracket ')'] = (pending, stack) := by
    simp [advanceAll, advance_close hwaits]
  have hall := advanceAll_cons hopen (advanceAll_append hrow hclose)
  rwa [List.nil_append] at hall

/-- **What the stack does with a row.**  On a stack that binds more loosely than the row, the atoms
of the row come out in its post-order, except for a last part that is still pending; what is pending
binds at least as tightly as the row. -/
theorem Grouped.advanceAll {n : Nat} {written ordered : List Atom} (h : Grouped n written ordered) :
    ∀ stack, Below n stack → ∃ out pending, advanceAll stack written = (out, pending ++ stack) ∧
      out ++ pending = ordered ∧ ∀ a ∈ pending, a.waits = true ∧ (n : Int) ≤ a.precedence := by
  induction h with
  | @operand a ha =>
    intro stack _
    exact ⟨[a], [], by simp [PostOrder.advanceAll, advance_operand ha], rfl, by simp⟩
  | @group written ordered h ih =>
    intro stack _
    exact ⟨ordered, [], advanceAll_bracketed ih stack, by simp, by simp⟩
  | @call f written ordered hf h ih =>
    intro stack hstack
    have hwaits : f.waits = true := by simp [Atom.waits, hf]
    have hprec : f.precedence = 4 := by simp [Atom.precedence, hf]
    have hpush : advance ([] ++ stack) f = ([], f :: stack) :=
      advance_waits hwaits (by simp) (by rw [hprec]; exact hstack)
    refine ⟨ordered, [f], ?_, rfl, by simp [hwaits, hprec]⟩
    exact advanceAll_cons hpush (advanceAll_bracketed ih (f :: stack))
  | @join n c left leftOrdered right rightOrdered hc hn hl hr ihl ihr =>
    intro stack hstack
    have hwaits := waits_of_isConnector hc
    obtain ⟨out, pending, hleft, rfl, hpending⟩ := ihl stack hstack
    have hpush : advance (pending ++ stack) c = (pending, c :: stack) :=
      advance_waits hwaits (by rw [hn]; exact hpending) (by rw [hn]; exact hstack)
    have hbelow : Below (n + 1) (c :: stack) := by
      intro top htop _
      cases htop
      omega
    obtain ⟨out', pending', hright, rfl, hpending'⟩ := ihr _ hbelow
    refine ⟨out ++ (pending ++ out'), pending' ++ [c], ?_, by simp, ?_⟩
    · rw [List.append_assoc, List.singleton_append]
      exact advanceAll_append hleft (advanceAll_cons hpush hright)
    · intro a ha
      rcases List.mem_append.mp ha with ha | ha
      · have := hpending' a ha
        exact ⟨this.1, by omega⟩
      · rw [List.mem_singleton.mp ha]
        exact ⟨hwaits, by omega⟩
  | @loosen n written ordered h ih =>
    intro stack hstack
    obtain ⟨out, pending, hrow, hordered, hpending⟩ := ih stack (hstack.mono (Nat.le_succ n))
    refine ⟨out, pending, hrow, hordered, ?_⟩
    intro a ha
    have := hpending a ha
    exact ⟨this.1, by omega⟩

/-- **The operator stack finds the grouping**, whatever the strength of the row.  On the empty stack
nothing is below the row, and at the end what is still pending comes out too. -/
theorem Grouped.postOrder_eq {n : Nat} {written ordered : List Atom}
    (h : Grouped n written ordered) : postOrder written = ordered := by
  obtain ⟨out, pending, hrow, rfl, -⟩ := h.advanceAll [] (by simp [Below])
  rw [postOrder, arrange_eq, hrow, List.append_nil]

end Stack

end Reckoner
