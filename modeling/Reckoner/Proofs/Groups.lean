/-
# Groups

A bracketed row that is balanced in itself is put into post-order by itself, whatever stands around
it: `postOrder_group` says that the whole comes out as if there had been a single operand, with the
post-order of the row in its place.  What surrounds the group need not make sense.

The reason is that the opening bracket of the group lies on the stack as long as the group lasts,
and that a balanced row never reaches through it (`PostOrder.advanceAll_frame`).
-/
import Mathlib.Data.List.Basic
import Reckoner.Proofs.Grouping
import Reckoner.Proofs.OperatorStack

namespace Reckoner

namespace PostOrder

/-! ## 1. Below an opening bracket -/

theorem exists_advance (stack : List Atom) (a : Atom) :
    ∃ out after, Moves id stack a out after ∧ advance stack a = (out, after) := by
  obtain ⟨out, after, hmoves⟩ := exists_moves id stack a
  refine ⟨out, after, hmoves, ?_⟩
  simpa using hmoves.advance_eq

/-- **A row whose closing brackets all have partners does not reach through an opening bracket**
below its stack, and what it leaves open lies on its stack. -/
theorem advanceAll_frame {o : Atom} (ho : o.isOpenBracket = true) (frame row : List Atom) :
    ∀ {stack : List Atom}, (pairUp id (opened id stack) row).2 = [] →
      advanceAll (stack ++ o :: frame) row =
        ((advanceAll stack row).1, (advanceAll stack row).2 ++ o :: frame) ∧
      opened id (advanceAll stack row).2 = (pairUp id (opened id stack) row).1 := by
  induction row with
  | nil =>
    intro stack _
    exact ⟨rfl, rfl⟩
  | cons a rest ih =>
    intro stack hpaired
    obtain ⟨out, after, hmoves, hadvance⟩ := exists_advance stack a
    rcases hmoves.pairUp_cases rest with ⟨hpairs, hframe⟩ | ⟨-, hpairs, -⟩
    · rw [hpairs] at hpaired
      obtain ⟨hrest, hopened⟩ := ih hpaired
      have hbelow : advance (stack ++ o :: frame) a = (out, after ++ o :: frame) := by
        simpa using (hframe o frame ho).advance_eq
      constructor
      · simp only [advanceAll, hbelow, hadvance, hrest]
      · simpa only [advanceAll, hadvance, hpairs] using hopened
    · rw [hpairs] at hpaired
      cases hpaired

/-! ## 2. Groups -/

/-- **A balanced row in brackets comes out as it does by itself**, and leaves the stack as it
was. -/
theorem advanceAll_group {opening closing : Atom} (ho : opening.isOpenBracket = true)
    (hc : closing.closes = true) {inner : List Atom} (h : Balanced inner) (stack : List Atom) :
    advanceAll stack (opening :: (inner ++ [closing])) = (postOrder inner, stack) := by
  have hpaired : pairUp id (opened id []) inner = ([], []) := h
  obtain ⟨hinner, hopened⟩ := advanceAll_frame ho stack inner (congrArg Prod.snd hpaired)
  rw [hpaired, opened, List.filter_eq_nil_iff] at hopened
  have hpending : ∀ b ∈ (advanceAll [] inner).2, b.isOpenBracket = false := by
    intro b hb
    simpa using hopened b hb
  -- the closing bracket takes what is pending since the opening one
  have hclose : advance ((advanceAll [] inner).2 ++ opening :: stack) closing =
      ((advanceAll [] inner).2, stack) := by
    have hmoves : Moves id ((advanceAll [] inner).2 ++ opening :: stack) closing _ stack :=
      .closes hc hpending ho
    simpa using hmoves.advance_eq
  have hgroup : advanceAll (opening :: stack) (inner ++ [closing]) =
      ((advanceAll [] inner).1 ++ (advanceAll [] inner).2, stack) := by
    refine advanceAll_append hinner ?_
    simp only [advanceAll, hclose, List.append_nil]
  rw [← arrange_eq] at hgroup
  exact advanceAll_cons (advance_of_opens ho stack) hgroup

end PostOrder

open PostOrder

/-- What comes out before a place and after it, whatever stands there: operands and groups do not
change the stack.  So one can take the place of the other, and this lemma compares both with what is
around them. -/
theorem postOrder_around {pre middle post out : List Atom}
    (h : advanceAll (advanceAll [] pre).2 middle = (out, (advanceAll [] pre).2)) :
    postOrder (pre ++ (middle ++ post)) =
      (advanceAll [] pre).1 ++ (out ++ arrange (advanceAll [] pre).2 post) := by
  rw [postOrder, arrange_append, arrange_append, h]

/-- **A balanced row in brackets takes the place of an operand.**  Its post-order comes out where
the operand would, and all around it stays the same. -/
theorem postOrder_group {pre inner post : List Atom} {v opening closing : Atom}
    (hinner : Balanced inner) (ho : opening.isOpenBracket = true) (hc : closing.closes = true)
    (hv : v.isOperand = true) (hpre : v ∉ pre) (hpost : v ∉ post) :
    postOrder (pre ++ [opening] ++ inner ++ [closing] ++ post) =
      (postOrder (pre ++ [v] ++ post)).flatMap fun a => if a = v then postOrder inner else [a] := by
  have hsingle : advanceAll (advanceAll [] pre).2 [v] = ([v], (advanceAll [] pre).2) := by
    simp [advanceAll, advance_operand hv]
  have hoperand : postOrder (pre ++ ([v] ++ post)) = _ := postOrder_around hsingle
  have hgroup : postOrder (pre ++ (opening :: (inner ++ [closing]) ++ post)) = _ :=
    postOrder_around (advanceAll_group ho hc hinner _)
  have hnone : postOrder (pre ++ ([] ++ post)) = _ := postOrder_around rfl
  -- the operand is found at its own place only
  have hother : ∀ a ∈ (advanceAll [] pre).1 ++ arrange (advanceAll [] pre).2 post,
      (if a = v then postOrder inner else [a]) = [a] := by
    intro a ha
    rw [List.nil_append, List.nil_append] at hnone
    have hmem := mem_of_mem_postOrder (hnone ▸ ha)
    apply if_neg
    rintro rfl
    exact (List.mem_append.mp hmem).elim hpre hpost
  obtain ⟨hfront, hback⟩ := List.forall_mem_append.mp hother
  have hkeep : ∀ {l : List Atom}, (∀ a ∈ l, (if a = v then postOrder inner else [a]) = [a]) →
      l.flatMap (fun a => if a = v then postOrder inner else [a]) = l := by
    intro l hl
    rw [List.flatMap_congr hl, List.flatMap_singleton']
  calc
    postOrder (pre ++ [opening] ++ inner ++ [closing] ++ post)
      = (advanceAll [] pre).1 ++ (postOrder inner ++ arrange (advanceAll [] pre).2 post) := by
        simpa using hgroup
    _ = ((advanceAll [] pre).1 ++ ([v] ++ arrange (advanceAll [] pre).2 post)).flatMap
          fun a => if a = v then postOrder inner else [a] := by
        simp only [List.flatMap_append, hkeep hfront, hkeep hback]
        simp
    _ = _ := by rw [List.append_assoc, hoperand]

/-- A group in a call that is never closed, after an operator without a meaning; brackets follow
that close nothing of it, and the group ends with an odd one. -/
theorem postOrder_group_odd :
    let pre : List Atom := [.function "F", .bracket '(', .number "1" 1, .operator '.']
    let inner : List Atom :=
      [.number "2" 2, .operator '+', .bracket '(', .number "3" 3, .comma, .bracket ']']
    let post : List Atom :=
      [.operator '*', .number "4" 4, .bracket ')', .bracket ')', .operator '^']
    let v : Atom := .number "V" 0
    let grouped := postOrder (pre ++ [.bracket '('] ++ inner ++ [.bracket ']'] ++ post)
    Balanced inner ∧ v ∉ pre ∧ v ∉ post ∧
    grouped = (postOrder (pre ++ [v] ++ post)).flatMap
      (fun a => if a = v then postOrder inner else [a]) ∧
    (postOrder (pre ++ [v] ++ post)).map Atom.name = ["1", "V", "4", "*", ".", "F", "^"] ∧
    grouped.map Atom.name = ["1", "2", "3", ";", "+", "4", "*", ".", "F", "^"] := by
  intro pre inner post v grouped
  have hinner : Balanced inner := by decide +kernel
  have hpre : v ∉ pre := by decide +kernel
  have hpost : v ∉ post := by decide +kernel
  exact ⟨hinner, hpre, hpost, postOrder_group hinner rfl rfl rfl hpre hpost,
    by decide +kernel, by decide +kernel⟩

end Reckoner
