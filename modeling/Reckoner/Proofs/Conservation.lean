/-
# What rearranging keeps

Putting atoms into post-order only moves them, except that closing brackets go, each with the
opening bracket that it finds (`PostOrder.dropped`).  So nothing is added, there is never more room
needed than for the formula, and whatever is not a bracket is there as often as before
(`postOrder_perm` and what follows from it).  If every closing bracket finds a partner, the brackets
that are left at the end are the opening ones that were never closed
(`PostOrder.countP_arrange_add`).
-/
import Mathlib.Data.List.TakeWhile
import Reckoner.PostOrder
import Reckoner.Proofs.ListLemmas

namespace Reckoner

theorem Atom.kind_of_isOpenBracket {a : Atom} (h : a.isOpenBracket = true) : a.kind = .bracket := by
  simp only [Atom.isOpenBracket, Bool.and_eq_true, decide_eq_true_eq] at h
  exact h.1

theorem not_waits_of_isOpenBracket {a : Atom} (h : a.isOpenBracket = true) : a.waits = false := by
  simp [Atom.waits, Atom.kind_of_isOpenBracket h]

theorem not_isOpenBracket_of_waits {a : Atom} (h : a.waits = true) : a.isOpenBracket = false := by
  by_cases hb : a.isOpenBracket = true
  · rw [not_waits_of_isOpenBracket hb] at h
    cases h
  · exact Bool.eq_false_iff.mpr hb

namespace PostOrder

/-! ## 1. One atom -/

/-- The brackets that go when an atom meets the stack: a closing one and the opening one that is
nearest. -/
def dropped (stack : List Atom) (a : Atom) : List Atom :=
  if a.kind = .bracket ∧ a.isOpenBracket = false then a :: (stack.find? Atom.isOpenBracket).toList
  else []

/-- **One atom is released or kept; only brackets go.**  What `advance` gives is cut from the stack
at one place, and the atom is put on top or left out, so this is a matter of rearranging three
lists. -/
theorem advance_perm (stack : List Atom) (a : Atom) :
    ((advance stack a).1 ++ (advance stack a).2 ++ dropped stack a).Perm (a :: stack) := by
  have hspan : ∀ p : Atom → Bool,
      (stack.takeWhile p ++ a :: stack.dropWhile p).Perm (a :: stack) := by
    intro p
    refine List.perm_middle.trans ?_
    rw [List.takeWhile_append_dropWhile]
  unfold advance
  split
  · rename_i hkind
    cases hopen : a.isOpenBracket with
    | true => simp [dropped, hopen]
    | false =>
      -- the closing bracket goes, and its partner if there is one
      have hfront := hspan (!·.isOpenBracket)
      have hpartner : stack.find? Atom.isOpenBracket =
          (stack.dropWhile (!·.isOpenBracket)).head? :=
        List.find?_eq_head?_dropWhile_not ..
      cases hrest : stack.dropWhile (!·.isOpenBracket) with
      | nil =>
        rw [hrest] at hfront hpartner
        simpa [dropped, hkind, hopen, hrest, hpartner] using hfront
      | cons b rest =>
        rw [hrest] at hfront hpartner
        refine List.Perm.trans ?_ hfront
        simp only [dropped, hkind, hopen, hpartner, and_self, if_true, List.drop_succ_cons,
          List.drop_zero, List.append_assoc, List.head?_cons, Option.toList_some]
        exact List.perm_append_comm.append_left _
  · rename_i hkind
    simpa [dropped, hkind] using hspan (·.yieldsTo a)
  · rename_i hkind
    simpa [dropped, hkind] using hspan (·.yieldsTo a)
  · rename_i hkind
    simpa [dropped, hkind] using hspan (·.yieldsTo a)
  · rename_i hbracket _ _ _
    have hdropped : dropped stack a = [] := by
      apply if_neg
      intro h
      exact hbracket h.1
    simp [hdropped]

theorem kind_of_mem_dropped {stack : List Atom} {a b : Atom} (h : b ∈ dropped stack a) :
    b.kind = .bracket := by
  unfold dropped at h
  split at h
  · rename_i ha
    rcases List.mem_cons.mp h with rfl | h
    · exact ha.1
    · rw [Option.mem_toList] at h
      exact Atom.kind_of_isOpenBracket (List.find?_some h)
  · cases h

/-- Opening brackets are never released. -/
theorem not_isOpenBracket_of_released {stack : List Atom} {a b : Atom}
    (h : b ∈ (advance stack a).1) : b.isOpenBracket = false := by
  have hyields : b ∈ stack.takeWhile (·.yieldsTo a) → b.isOpenBracket = false := by
    intro hb
    have hyield : b.yieldsTo a = true := List.all_eq_true.mp List.all_takeWhile b hb
    simp only [Atom.yieldsTo, Bool.and_eq_true] at hyield
    exact not_isOpenBracket_of_waits hyield.1
  unfold advance at h
  split at h
  · split at h
    · cases h
    · have hclosed : (!b.isOpenBracket) = true := List.all_eq_true.mp List.all_takeWhile b h
      simpa using hclosed
  · exact hyields h
  · exact hyields h
  · exact hyields h
  · rename_i hbracket _ _ _
    rw [List.mem_singleton.mp h]
    by_cases hopen : a.isOpenBracket = true
    · exact absurd (Atom.kind_of_isOpenBracket hopen) hbracket
    · exact Bool.eq_false_iff.mpr hopen

/-! ## 2. All atoms -/

theorem arrange_perm (atoms stack : List Atom) :
    ∃ removed, (arrange stack atoms ++ removed).Perm (stack ++ atoms) ∧
      ∀ b ∈ removed, b.kind = .bracket := by
  induction atoms generalizing stack with
  | nil => exact ⟨[], by simp [arrange], by simp⟩
  | cons a rest ih =>
    obtain ⟨removed, hrest, hkind⟩ := ih (advance stack a).2
    refine ⟨removed ++ dropped stack a, ?_, ?_⟩
    · -- the rest is rearranged with what the atom left on the stack
      calc
        _ = (advance stack a).1 ++ (arrange (advance stack a).2 rest ++ removed) ++
            dropped stack a := by simp [arrange]
        List.Perm _ ((advance stack a).1 ++ ((advance stack a).2 ++ rest) ++ dropped stack a) :=
          (hrest.append_left _).append_right _
        List.Perm _ ((advance stack a).1 ++ (advance stack a).2 ++ dropped stack a ++ rest) := by
          simp only [List.append_assoc]
          exact (List.perm_append_comm.append_left _).append_left _
        List.Perm _ (a :: stack ++ rest) := (advance_perm stack a).append_right _
        List.Perm _ (stack ++ a :: rest) := List.perm_middle.symm
    · intro b hb
      rcases List.mem_append.mp hb with hb | hb
      · exact hkind b hb
      · exact kind_of_mem_dropped hb

end PostOrder

/-- **Rearranging only moves atoms; brackets may go.** -/
theorem postOrder_perm (atoms : List Atom) :
    ∃ removed, (postOrder atoms ++ removed).Perm atoms ∧ ∀ b ∈ removed, b.kind = .bracket :=
  PostOrder.arrange_perm atoms []

/-- The post-order has no more atoms than the formula, so it finds room where the formula did. -/
theorem length_postOrder_le (atoms : List Atom) : (postOrder atoms).length ≤ atoms.length := by
  obtain ⟨removed, hperm, -⟩ := postOrder_perm atoms
  rw [← hperm.length_eq, List.length_append]
  omega

theorem mem_of_mem_postOrder {atoms : List Atom} {a : Atom} (h : a ∈ postOrder atoms) :
    a ∈ atoms := by
  obtain ⟨removed, hperm, -⟩ := postOrder_perm atoms
  exact hperm.subset (List.mem_append_left removed h)

theorem mem_postOrder {atoms : List Atom} {a : Atom} (h : a ∈ atoms) (ha : a.kind ≠ .bracket) :
    a ∈ postOrder atoms := by
  obtain ⟨removed, hperm, hkind⟩ := postOrder_perm atoms
  rcases List.mem_append.mp (hperm.symm.subset h) with hmem | hmem
  · exact hmem
  · exact absurd (hkind a hmem) ha

/-- What is not a bracket is there as often as before.  Counting says more than membership here: the
surplus of operands over operators is read off such counts. -/
theorem countP_postOrder {p : Atom → Bool} (hp : ∀ a, p a = true → a.kind ≠ .bracket)
    (atoms : List Atom) : (postOrder atoms).countP p = atoms.countP p := by
  obtain ⟨removed, hperm, hkind⟩ := postOrder_perm atoms
  have hnone : removed.countP p = 0 := by
    rw [List.countP_eq_zero]
    intro b hb h
    exact hp b h (hkind b hb)
  rw [← hperm.countP_eq, List.countP_append, hnone, Nat.add_zero]

/-! ## 3. Brackets -/

/-- Every closing bracket of the row closes an opening one before it, of the row or of `depth` that
are open already. -/
def ClosesOpen (depth : Nat) (atoms : List Atom) : Prop :=
  ∀ front, front <+: atoms →
    front.countP Atom.isCloseBracket ≤ depth + front.countP Atom.isOpenBracket

/-- An opening bracket is one more that can be closed. -/
theorem ClosesOpen.of_open {depth : Nat} {a : Atom} {rest : List Atom}
    (h : ClosesOpen depth (a :: rest)) (ha : a.isOpenBracket = true)
    (hclose : a.isCloseBracket = false) : ClosesOpen (depth + 1) rest := by
  intro front hfront
  have hcount := h (a :: front) ((List.prefix_cons_inj a).mpr hfront)
  simp only [List.countP_cons, ha, hclose, if_true, Bool.false_eq_true, if_false] at hcount
  omega

/-- A closing bracket needs one that is open, and is then one less. -/
theorem ClosesOpen.of_close {depth : Nat} {a : Atom} {rest : List Atom}
    (h : ClosesOpen depth (a :: rest)) (ha : a.isCloseBracket = true)
    (hopen : a.isOpenBracket = false) : ∃ d, depth = d + 1 ∧ ClosesOpen d rest := by
  have hfirst := h [a] (List.prefix_append [a] rest)
  simp only [List.countP_cons, List.countP_nil, ha, hopen, if_true, Bool.false_eq_true,
    if_false] at hfirst
  refine ⟨depth - 1, by omega, ?_⟩
  intro front hfront
  have hcount := h (a :: front) ((List.prefix_cons_inj a).mpr hfront)
  simp only [List.countP_cons, ha, hopen, if_true, Bool.false_eq_true, if_false] at hcount
  omega

theorem ClosesOpen.of_other {depth : Nat} {a : Atom} {rest : List Atom}
    (h : ClosesOpen depth (a :: rest)) (hopen : a.isOpenBracket = false)
    (hclose : a.isCloseBracket = false) : ClosesOpen depth rest := by
  intro front hfront
  have hcount := h (a :: front) ((List.prefix_cons_inj a).mpr hfront)
  simpa [List.countP_cons, hopen, hclose] using hcount

theorem ClosesOpen.nil (depth : Nat) : ClosesOpen depth [] := by
  intro front hfront
  rw [List.prefix_nil.mp hfront]
  simp

/-- A row can be extended at its front, if every part of it that begins there is fine. -/
theorem ClosesOpen.cons {depth : Nat} {a : Atom} {rest : List Atom}
    (h : ∀ front, front <+: rest → (a :: front).countP Atom.isCloseBracket ≤
      depth + (a :: front).countP Atom.isOpenBracket) : ClosesOpen depth (a :: rest) := by
  intro front hfront
  cases front with
  | nil => simp
  | cons b front =>
    obtain ⟨rfl, hrest⟩ := List.cons_prefix_cons.mp hfront
    exact h front hrest

theorem ClosesOpen.cons_open {depth : Nat} {rest : List Atom} (h : ClosesOpen (depth + 1) rest) :
    ClosesOpen depth (.bracket '(' :: rest) := by
  apply ClosesOpen.cons
  intro front hfront
  have hcount := h front hfront
  rw [List.countP_cons_of_neg (by decide), List.countP_cons_of_pos rfl]
  omega

theorem ClosesOpen.cons_close {depth : Nat} {rest : List Atom} (h : ClosesOpen depth rest) :
    ClosesOpen (depth + 1) (.bracket ')' :: rest) := by
  apply ClosesOpen.cons
  intro front hfront
  have hcount := h front hfront
  rw [List.countP_cons_of_pos rfl, List.countP_cons_of_neg (by decide)]
  omega

theorem ClosesOpen.cons_other {depth : Nat} {a : Atom} {rest : List Atom}
    (h : ClosesOpen depth rest) (ha : a.kind ≠ .bracket) : ClosesOpen depth (a :: rest) := by
  apply ClosesOpen.cons
  intro front hfront
  have hcount := h front hfront
  rw [List.countP_cons_of_neg (by simp [Atom.isCloseBracket, ha]),
    List.countP_cons_of_neg (by simp [Atom.isOpenBracket, ha])]
  exact hcount

theorem ClosesOpen.mono {m n : Nat} (hmn : m ≤ n) {atoms : List Atom} (h : ClosesOpen m atoms) :
    ClosesOpen n atoms := by
  intro front hfront
  have hcount := h front hfront
  omega

theorem Atom.not_isCloseBracket_of_isOpenBracket {a : Atom} (h : a.isOpenBracket = true) :
    a.isCloseBracket = false := by
  simp only [Atom.isOpenBracket, Bool.and_eq_true, decide_eq_true_eq] at h
  simp [Atom.isCloseBracket, h]

namespace PostOrder

theorem countP_released (stack : List Atom) (a : Atom) :
    (advance stack a).1.countP Atom.isOpenBracket = 0 := by
  rw [List.countP_eq_zero]
  intro b hb h
  rw [not_isOpenBracket_of_released hb] at h
  cases h

/-- What one atom does to the number of open brackets on the stack.  The equation is without
subtraction: what is there afterwards and what the atom closes, against what was there and what it
opens. -/
theorem countP_advance (stack : List Atom) (a : Atom) :
    (advance stack a).2.countP Atom.isOpenBracket +
        (dropped stack a).countP Atom.isOpenBracket =
      stack.countP Atom.isOpenBracket + (if a.isOpenBracket then 1 else 0) := by
  have hcount := (advance_perm stack a).countP_eq Atom.isOpenBracket
  rw [List.countP_append, List.countP_append, countP_released, Nat.zero_add] at hcount
  simpa [List.countP_cons] using hcount

theorem dropped_eq_nil {stack : List Atom} {a : Atom}
    (ha : a.kind = .bracket → a.isOpenBracket = true) : dropped stack a = [] := by
  apply if_neg
  intro h
  rw [ha h.1] at h
  cases h.2

theorem countP_open {a : Atom} (ha : a.isOpenBracket = true) (stack : List Atom) :
    (advance stack a).2.countP Atom.isOpenBracket = stack.countP Atom.isOpenBracket + 1 := by
  have hcount := countP_advance stack a
  rw [dropped_eq_nil fun _ => ha, ha] at hcount
  simpa using hcount

theorem countP_close {stack : List Atom} {a : Atom} (hkind : a.kind = .bracket)
    (hopen : a.isOpenBracket = false) {depth : Nat}
    (hstack : stack.countP Atom.isOpenBracket = depth + 1) :
    (advance stack a).2.countP Atom.isOpenBracket = depth := by
  have hcount := countP_advance stack a
  have hsome : 0 < stack.countP Atom.isOpenBracket := by omega
  obtain ⟨b, hb, hbopen⟩ := List.countP_pos_iff.mp hsome
  have hdropped : (dropped stack a).countP Atom.isOpenBracket = 1 := by
    cases hfind : stack.find? Atom.isOpenBracket with
    | none => exact absurd hbopen (List.find?_eq_none.mp hfind b hb)
    | some c =>
      have hc : c.isOpenBracket = true := List.find?_some hfind
      simp [dropped, hkind, hopen, hfind, hc]
  rw [hdropped, hopen, hstack] at hcount
  simpa using hcount

theorem countP_other {a : Atom} (ha : a.kind ≠ .bracket) (stack : List Atom) :
    (advance stack a).2.countP Atom.isOpenBracket = stack.countP Atom.isOpenBracket := by
  have hopen : a.isOpenBracket = false := by simp [Atom.isOpenBracket, ha]
  have hcount := countP_advance stack a
  rw [dropped_eq_nil fun h => absurd h ha, hopen] at hcount
  simpa using hcount

/-- The brackets that come out at the end are the ones that were never closed.  For each closing
bracket finds a partner on the stack, and the two go together. -/
theorem countP_arrange_add {atoms : List Atom}
    (hbrackets : ∀ a ∈ atoms, a.kind = .bracket →
      a.isOpenBracket = true ∨ a.isCloseBracket = true) :
    ∀ {stack : List Atom}, ClosesOpen (stack.countP Atom.isOpenBracket) atoms →
      (arrange stack atoms).countP Atom.isOpenBracket + atoms.countP Atom.isCloseBracket =
        stack.countP Atom.isOpenBracket + atoms.countP Atom.isOpenBracket := by
  induction atoms with
  | nil =>
    intro stack _
    simp [arrange]
  | cons a rest ih =>
    intro stack h
    have hrest : ClosesOpen ((advance stack a).2.countP Atom.isOpenBracket) rest → _ :=
      ih fun b hb => hbrackets b (List.mem_cons_of_mem a hb)
    simp only [arrange, List.countP_append, countP_released, List.countP_cons, Nat.zero_add]
    by_cases hkind : a.kind = .bracket
    · cases hopen : a.isOpenBracket with
      | true =>
        have hclose := Atom.not_isCloseBracket_of_isOpenBracket hopen
        rw [countP_open hopen] at hrest
        have hcount := hrest (h.of_open hopen hclose)
        simp only [hclose, Bool.false_eq_true, if_false, if_true]
        omega
      | false =>
        have hclose : a.isCloseBracket = true := by
          simpa [hopen] using hbrackets a List.mem_cons_self hkind
        obtain ⟨depth, hdepth, hclosed⟩ := h.of_close hclose hopen
        rw [countP_close hkind hopen hdepth] at hrest
        have hcount := hrest hclosed
        simp only [hclose, Bool.false_eq_true, if_false, if_true]
        omega
    · have hopen : a.isOpenBracket = false := by simp [Atom.isOpenBracket, hkind]
      have hclose : a.isCloseBracket = false := by simp [Atom.isCloseBracket, hkind]
      rw [countP_other hkind] at hrest
      have hcount := hrest (h.of_other hopen hclose)
      simp only [hopen, hclose, Bool.false_eq_true, if_false]
      omega

end PostOrder

/-- **If every closing bracket has a partner and no bracket comes out, the brackets match.**  Those
that were never closed would come out at the end, so there are none. -/
theorem countP_brackets {atoms : List Atom}
    (hbrackets : ∀ a ∈ atoms, a.kind = .bracket →
      a.isOpenBracket = true ∨ a.isCloseBracket = true)
    (h : ClosesOpen 0 atoms) (hnone : ∀ a ∈ postOrder atoms, a.kind ≠ .bracket) :
    atoms.countP Atom.isCloseBracket = atoms.countP Atom.isOpenBracket := by
  have hcount : (PostOrder.arrange [] atoms).countP _ + _ = ([] : List Atom).countP _ + _ :=
    PostOrder.countP_arrange_add hbrackets h
  have hout : (postOrder atoms).countP Atom.isOpenBracket = 0 := by
    rw [List.countP_eq_zero]
    intro a ha hopen
    exact hnone a ha (Atom.kind_of_isOpenBracket hopen)
  rw [← postOrder, hout] at hcount
  simpa using hcount

end Reckoner
