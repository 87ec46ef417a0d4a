/-
# What an atom does to the operator stack

There are five things that an atom can do while a row is put into post-order (`PostOrder.Moves`): an
opening bracket goes onto the stack; a closing one releases what is pending since its partner, or
everything if it has none; an operator, a function or a comma releases what yields to it, and waits;
everything else comes out at once.  `PostOrder.exists_moves` says that one of them happens,
`PostOrder.Moves.advance_eq` what comes of it.

The stack may hold things that stand for atoms rather than atoms, such as atoms with their places.
So a whole row can be followed atom by atom, also if it has equal ones (`PostOrder.Arranges`).

Brackets are paired without regard to anything else (`pairUp`), and the opening brackets on the
stack are the ones that are not closed yet (`PostOrder.Moves.unclosed_eq`).
-/
import Reckoner.Proofs.Conservation

namespace Reckoner

/-! ## 1. Kinds of atoms -/

namespace Atom

/-- Whether the atom is a bracket that closes: any bracket but `(`.  The stack asks no more of it,
and whether it is a `)` is left to the scanner. -/
def closes (a : Atom) : Bool := a.kind = .bracket && !a.isOpenBracket

/-- Whether the atom comes out at once, where it stands. -/
def passes (a : Atom) : Bool :=
  match a.kind with
  | .value | .var | .result | .error | .blank => true
  | _ => false

theorem kind_of_closes {a : Atom} (h : a.closes = true) : a.kind = .bracket := by
  simp only [closes, Bool.and_eq_true, decide_eq_true_eq] at h
  exact h.1

theorem not_isOpenBracket_of_closes {a : Atom} (h : a.closes = true) : a.isOpenBracket = false := by
  simp only [closes, Bool.and_eq_true, Bool.not_eq_true'] at h
  exact h.2

theorem not_closes_of_kind {a : Atom} (h : a.kind ≠ .bracket) : a.closes = false := by
  simp [closes, h]

theorem not_isOpenBracket_of_kind {a : Atom} (h : a.kind ≠ .bracket) :
    a.isOpenBracket = false := by
  simp [isOpenBracket, h]

theorem kind_ne_bracket_of_waits {a : Atom} (h : a.waits = true) : a.kind ≠ .bracket := by
  intro hkind
  simp [waits, hkind] at h

theorem kind_ne_bracket_of_passes {a : Atom} (h : a.passes = true) : a.kind ≠ .bracket := by
  intro hkind
  simp [passes, hkind] at h

theorem not_passes_of_bracket {a : Atom} (h : a.kind = .bracket) : a.passes = false := by
  simp [passes, h]

theorem not_passes_of_waits {a : Atom} (h : a.waits = true) : a.passes = false := by
  unfold waits at h
  unfold passes
  split at h <;> simp_all

theorem not_isOpenBracket_of_yieldsTo {a b : Atom} (h : b.yieldsTo a = true) :
    b.isOpenBracket = false := by
  simp only [yieldsTo, Bool.and_eq_true] at h
  exact not_isOpenBracket_of_waits h.1

theorem isBracket_eq (a : Atom) : decide (a.kind = .bracket) = (a.isOpenBracket || a.closes) := by
  cases hopen : a.isOpenBracket with
  | true => simp [kind_of_isOpenBracket hopen]
  | false => simp [closes, hopen]

/-- Every atom opens, closes, waits or passes. -/
theorem opens_or_closes_or_waits_or_passes (a : Atom) :
    a.isOpenBracket = true ∨ a.closes = true ∨ a.waits = true ∨ a.passes = true := by
  cases hkind : a.kind with
  | bracket =>
    have hbracket := a.isBracket_eq
    rw [hkind, decide_eq_true rfl, eq_comm, Bool.or_eq_true] at hbracket
    exact hbracket.elim Or.inl fun hcloses => Or.inr (Or.inl hcloses)
  | operator | function | comma => simp [waits, hkind]
  | value | var | result | error | blank => simp [passes, hkind]

end Atom

/-! ## 2. Pairs of brackets -/

section Pairs

variable {α : Type} (atomOf : α → Atom)

/-- The brackets of a row that have no partner: the opening ones that are never closed, the nearest
first, and the closing ones that close nothing.  A closing bracket closes the nearest opening one
that is still open, of the row or of those that were open before. -/
def pairUp : List α → List α → List α × List α
  | opened, [] => (opened, [])
  | opened, a :: rest =>
    if (atomOf a).isOpenBracket then pairUp (a :: opened) rest
    else if (atomOf a).closes then
      match opened with
      | [] => ((pairUp [] rest).1, a :: (pairUp [] rest).2)
      | _ :: opened => pairUp opened rest
    else pairUp opened rest

variable {atomOf}

theorem pairUp_cons_open {a : α} (ha : (atomOf a).isOpenBracket = true) (opened rest : List α) :
    pairUp atomOf opened (a :: rest) = pairUp atomOf (a :: opened) rest := by
  simp [pairUp, ha]

theorem pairUp_cons_close {a : α} (ha : (atomOf a).closes = true) (o : α) (opened rest : List α) :
    pairUp atomOf (o :: opened) (a :: rest) = pairUp atomOf opened rest := by
  simp [pairUp, ha, Atom.not_isOpenBracket_of_closes ha]

theorem pairUp_cons_stray {a : α} (ha : (atomOf a).closes = true) (rest : List α) :
    pairUp atomOf [] (a :: rest) =
      ((pairUp atomOf [] rest).1, a :: (pairUp atomOf [] rest).2) := by
  simp [pairUp, ha, Atom.not_isOpenBracket_of_closes ha]

theorem pairUp_cons_other {a : α} (ha : (atomOf a).kind ≠ .bracket) (opened rest : List α) :
    pairUp atomOf opened (a :: rest) = pairUp atomOf opened rest := by
  simp [pairUp, Atom.not_isOpenBracket_of_kind ha, Atom.not_closes_of_kind ha]

end Pairs

/-- Every closing bracket of the row closes an opening one of it, and every opening one is
closed. -/
def Balanced (row : List Atom) : Prop := pairUp id [] row = ([], [])

instance (row : List Atom) : Decidable (Balanced row) :=
  inferInstanceAs (Decidable (pairUp id [] row = ([], [])))

namespace PostOrder

variable {α : Type} {atomOf : α → Atom}

/-! ## 3. One atom -/

/-- What an atom releases from a stack, and the stack after it.  The stack holds anything that
stands for atoms, such as atoms with their places, so that equal atoms can be told apart. -/
inductive Moves (atomOf : α → Atom) : List α → α → List α → List α → Prop
  | opens {stack : List α} {a : α} (ha : (atomOf a).isOpenBracket = true) :
      Moves atomOf stack a [] (a :: stack)
  | closes {pending stack : List α} {a o : α} (ha : (atomOf a).closes = true)
      (hpending : ∀ b ∈ pending, (atomOf b).isOpenBracket = false)
      (ho : (atomOf o).isOpenBracket = true) :
      Moves atomOf (pending ++ o :: stack) a pending stack
  | drains {stack : List α} {a : α} (ha : (atomOf a).closes = true)
      (hstack : ∀ b ∈ stack, (atomOf b).isOpenBracket = false) :
      Moves atomOf stack a stack []
  | waits {pending stack : List α} {a : α} (ha : (atomOf a).waits = true)
      (hpending : ∀ b ∈ pending, (atomOf b).yieldsTo (atomOf a) = true)
      (hstack : ∀ b ∈ stack.head?, (atomOf b).yieldsTo (atomOf a) = false) :
      Moves atomOf (pending ++ stack) a pending (a :: stack)
  | passes {stack : List α} {a : α} (ha : (atomOf a).passes = true) :
      Moves atomOf stack a [a] stack

theorem advance_of_opens {a : Atom} (ha : a.isOpenBracket = true) (stack : List Atom) :
    advance stack a = ([], a :: stack) := by
  simp only [advance, Atom.kind_of_isOpenBracket ha, ha, if_true]

theorem advance_of_closes {a : Atom} (ha : a.closes = true) (stack : List Atom) :
    advance stack a =
      (stack.takeWhile (!·.isOpenBracket), (stack.dropWhile (!·.isOpenBracket)).drop 1) := by
  simp only [advance, Atom.kind_of_closes ha, Atom.not_isOpenBracket_of_closes ha,
    Bool.false_eq_true, if_false]

theorem advance_of_waits {a : Atom} (ha : a.waits = true) (stack : List Atom) :
    advance stack a =
      (stack.takeWhile (·.yieldsTo a), a :: stack.dropWhile (·.yieldsTo a)) := by
  unfold Atom.waits at ha
  unfold advance
  split at ha <;> simp_all

theorem advance_of_passes {a : Atom} (ha : a.passes = true) (stack : List Atom) :
    advance stack a = ([a], stack) := by
  unfold Atom.passes at ha
  unfold advance
  split at ha <;> simp_all

/-- **The stack moves as the atoms on it say.**  The things on the stack are looked at through
`atomOf` only, so their atoms move as they do. -/
theorem Moves.advance_eq {stack out after : List α} {a : α} (h : Moves atomOf stack a out after) :
    advance (stack.map atomOf) (atomOf a) = (out.map atomOf, after.map atomOf) := by
  cases h with
  | opens ha => exact advance_of_opens ha _
  | @closes _ _ _ o ha hpending ho =>
    have hinside : ∀ b ∈ out.map atomOf, (!b.isOpenBracket) = true := by
      simpa using hpending
    have hpartner : ∀ b ∈ ((o :: after).map atomOf).head?, (!b.isOpenBracket) = false := by
      rintro b ⟨⟩
      simp [ho]
    obtain ⟨htake, hdrop⟩ := span_append (fun b : Atom => !b.isOpenBracket) hinside hpartner
    rw [advance_of_closes ha, List.map_append, htake, hdrop]
    rfl
  | drains ha hstack =>
    have hinside : ∀ b ∈ stack.map atomOf, (!b.isOpenBracket) = true := by
      simpa using hstack
    have hnothing : ∀ b ∈ ([] : List Atom).head?, (!b.isOpenBracket) = false := by simp
    obtain ⟨htake, hdrop⟩ := span_append (fun b : Atom => !b.isOpenBracket) hinside hnothing
    rw [List.append_nil] at htake hdrop
    rw [advance_of_closes ha, htake, hdrop]
    rfl
  | @waits _ stack _ ha hpending hstack =>
    have hyield : ∀ b ∈ out.map atomOf, b.yieldsTo (atomOf a) = true := by
      simpa using hpending
    have hstay : ∀ b ∈ (stack.map atomOf).head?, b.yieldsTo (atomOf a) = false := by
      simpa using hstack
    obtain ⟨htake, hdrop⟩ := span_append (fun b : Atom => b.yieldsTo (atomOf a)) hyield hstay
    rw [advance_of_waits ha, List.map_append, htake, hdrop]
    rfl
  | passes ha => exact advance_of_passes ha _

/-- **Every atom does one of the five things.**  A closing bracket may do either of two, by whether
an opening one lies on the stack. -/
theorem exists_moves (atomOf : α → Atom) (stack : List α) (a : α) :
    ∃ out after, Moves atomOf stack a out after := by
  have hsplit : ∀ p : α → Bool, stack.takeWhile p ++ stack.dropWhile p = stack := by
    intro p
    exact List.takeWhile_append_dropWhile
  have htaken : ∀ p : α → Bool, ∀ b ∈ stack.takeWhile p, p b = true := by
    intro p b hb
    exact List.all_eq_true.mp List.all_takeWhile b hb
  rcases (atomOf a).opens_or_closes_or_waits_or_passes with ha | ha | ha | ha
  · exact ⟨[], a :: stack, .opens ha⟩
  · have hpending : ∀ b ∈ stack.takeWhile (fun b => !(atomOf b).isOpenBracket),
        (atomOf b).isOpenBracket = false := by
      intro b hb
      simpa using htaken _ b hb
    have hall := hsplit fun b => !(atomOf b).isOpenBracket
    cases hrest : stack.dropWhile (fun b => !(atomOf b).isOpenBracket) with
    | nil =>
      rw [hrest, List.append_nil] at hall
      rw [hall] at hpending
      exact ⟨stack, [], .drains ha hpending⟩
    | cons o after =>
      have hfirst : o ∈ (stack.dropWhile fun b => !(atomOf b).isOpenBracket).head? := by
        rw [hrest]
        rfl
      have hpartner := head?_dropWhile _ stack o hfirst
      rw [hrest] at hall
      rw [← hall]
      exact ⟨_, after, .closes ha hpending (by simpa using hpartner)⟩
  · have hall := hsplit fun b => (atomOf b).yieldsTo (atomOf a)
    refine ⟨stack.takeWhile fun b => (atomOf b).yieldsTo (atomOf a),
      a :: stack.dropWhile fun b => (atomOf b).yieldsTo (atomOf a), ?_⟩
    have hmoves : Moves atomOf (stack.takeWhile (fun b => (atomOf b).yieldsTo (atomOf a)) ++
        stack.dropWhile fun b => (atomOf b).yieldsTo (atomOf a)) a _ _ :=
      .waits ha (htaken _) (head?_dropWhile _ stack)
    rwa [hall] at hmoves
  · exact ⟨[a], stack, .passes ha⟩

/-! ## 4. Brackets on the stack -/

def opened (atomOf : α → Atom) (stack : List α) : List α :=
  stack.filter fun b => (atomOf b).isOpenBracket

theorem opened_eq_nil {pending : List α}
    (h : ∀ b ∈ pending, (atomOf b).isOpenBracket = false) : opened atomOf pending = [] := by
  rw [opened, List.filter_eq_nil_iff]
  intro b hb
  simp [h b hb]

theorem opened_append (pending stack : List α) :
    opened atomOf (pending ++ stack) = opened atomOf pending ++ opened atomOf stack :=
  List.filter_append ..

theorem opened_cons_open {a : α} (ha : (atomOf a).isOpenBracket = true) (stack : List α) :
    opened atomOf (a :: stack) = a :: opened atomOf stack := List.filter_cons_of_pos ha

theorem opened_cons_other {a : α} (ha : (atomOf a).isOpenBracket = false) (stack : List α) :
    opened atomOf (a :: stack) = opened atomOf stack := List.filter_cons_of_neg (by simp [ha])

/-- A move that drains the stack finds no partner, and would take one that lay below it; every other
move pairs brackets as they are paired, and does not see what lies below another opening bracket. -/
theorem Moves.pairUp_cases {stack out after : List α} {a : α} (h : Moves atomOf stack a out after)
    (rest : List α) :
    (pairUp atomOf (opened atomOf stack) (a :: rest) = pairUp atomOf (opened atomOf after) rest ∧
      ∀ o frame, (atomOf o).isOpenBracket = true →
        Moves atomOf (stack ++ o :: frame) a out (after ++ o :: frame)) ∨
    (after = [] ∧ pairUp atomOf (opened atomOf stack) (a :: rest) =
        ((pairUp atomOf [] rest).1, a :: (pairUp atomOf [] rest).2) ∧
      ∀ o frame, (atomOf o).isOpenBracket = true →
        Moves atomOf (stack ++ o :: frame) a out frame) := by
  cases h with
  | opens ha =>
    left
    rw [pairUp_cons_open ha, opened_cons_open ha]
    exact ⟨rfl, fun o frame _ => .opens ha⟩
  | closes ha hpending ho =>
    left
    rw [opened_append, opened_eq_nil hpending, opened_cons_open ho, List.nil_append,
      pairUp_cons_close ha]
    refine ⟨rfl, ?_⟩
    intro o frame _
    rw [List.append_assoc]
    exact .closes ha hpending ho
  | drains ha hstack =>
    right
    rw [opened_eq_nil hstack, pairUp_cons_stray ha]
    exact ⟨rfl, rfl, fun o frame ho => .closes ha hstack ho⟩
  | @waits _ below _ ha hpending hstack =>
    left
    have hnone : ∀ b ∈ out, (atomOf b).isOpenBracket = false := by
      intro b hb
      exact Atom.not_isOpenBracket_of_yieldsTo (hpending b hb)
    rw [opened_append, opened_eq_nil hnone, opened_cons_other (not_isOpenBracket_of_waits ha),
      List.nil_append, pairUp_cons_other (Atom.kind_ne_bracket_of_waits ha)]
    refine ⟨rfl, ?_⟩
    intro o frame ho
    rw [List.append_assoc]
    apply Moves.waits ha hpending
    -- an opening bracket does not yield either
    cases below with
    | nil =>
      rintro b ⟨⟩
      simp [Atom.yieldsTo, not_waits_of_isOpenBracket ho]
    | cons top below => exact hstack
  | passes ha =>
    left
    rw [pairUp_cons_other (Atom.kind_ne_bracket_of_passes ha)]
    exact ⟨rfl, fun o frame _ => .passes ha⟩

/-- **The opening brackets on the stack are the ones that are not closed yet.** -/
theorem Moves.unclosed_eq {stack out after : List α} {a : α} (h : Moves atomOf stack a out after)
    (rest : List α) :
    (pairUp atomOf (opened atomOf stack) (a :: rest)).1 =
      (pairUp atomOf (opened atomOf after) rest).1 := by
  rcases h.pairUp_cases rest with ⟨hpairs, -⟩ | ⟨rfl, hpairs, -⟩
  · rw [hpairs]
  · rw [hpairs]
    rfl

/-! ## 5. Rows -/

/-- What comes out when a row meets a stack.  The last constructor empties the stack at the end of
the row, unclosed brackets included. -/
inductive Arranges (atomOf : α → Atom) : List α → List α → List α → Prop
  | done {stack : List α} : Arranges atomOf stack [] stack
  | move {stack out after rest more : List α} {a : α} (ha : Moves atomOf stack a out after)
      (h : Arranges atomOf after rest more) : Arranges atomOf stack (a :: rest) (out ++ more)

/-- **Any row of things that stand for atoms is rearranged as its atoms are.**  With numbered atoms
for the things, this tells where each atom of a post-order came from. -/
theorem exists_arranges (atomOf : α → Atom) (stack row : List α) :
    ∃ out, Arranges atomOf stack row out ∧
      out.map atomOf = arrange (stack.map atomOf) (row.map atomOf) := by
  induction row generalizing stack with
  | nil => exact ⟨stack, .done, rfl⟩
  | cons a rest ih =>
    obtain ⟨out, after, hmoves⟩ := exists_moves atomOf stack a
    obtain ⟨more, harranges, hmore⟩ := ih after
    refine ⟨out ++ more, .move hmoves harranges, ?_⟩
    rw [List.map_append, hmore, List.map_cons, arrange, hmoves.advance_eq]

end PostOrder

end Reckoner
