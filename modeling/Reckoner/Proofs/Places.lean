/-
# Where the atoms of a row come out

Numbering a row tells its atoms apart, also the equal ones, and so it can be said of each where it
comes out.  `postOrder_places` says what rearranging does to every row, however malformed: closing
brackets and the opening ones that they close are gone, everything else is there once; what does not
wait keeps its order; what waits comes out after everything before it that does not.  Brackets that
come out are the opening ones that are never closed, and a row with one of them has no value.
-/
import Mathlib.Data.List.Sigma
import Reckoner.Callable.Builtin
import Reckoner.Proofs.Machine
import Reckoner.Proofs.OperatorStack

namespace Reckoner

open scoped List

/-! ## 1. Unclosed brackets -/

section Unclosed

variable {α : Type} {atomOf : α → Atom}

/-- What is not closed was open before, or is an opening bracket of the row. -/
theorem unclosed_sublist (opened row : List α) :
    (pairUp atomOf opened row).1 <+
      (row.filter fun a => (atomOf a).isOpenBracket).reverse ++ opened := by
  fun_induction pairUp atomOf opened row with
  | case1 => exact List.Sublist.refl _
  | case2 opened a rest ha ih =>
    rw [List.filter_cons_of_pos (by simpa using ha), List.reverse_cons, List.append_assoc]
    exact ih
  | case3 a rest ha hc ih =>
    rw [List.filter_cons_of_neg (by simpa using ha)]
    exact ih
  | case4 a rest ha hc o opened ih =>
    rw [List.filter_cons_of_neg (by simpa using ha)]
    exact ih.trans ((List.sublist_cons_self o opened).append_left _)
  | case5 opened a rest ha hc ih =>
    rw [List.filter_cons_of_neg (by simpa using ha)]
    exact ih

end Unclosed

/-- The opening brackets of a row that are never closed, with their places. -/
def unclosed (atoms : List Atom) : List (Atom × Nat) := (pairUp Prod.fst [] atoms.zipIdx).1

theorem unclosed_sublist_reverse (atoms : List Atom) :
    unclosed atoms <+ (atoms.zipIdx.filter fun p => p.1.isOpenBracket).reverse := by
  have h : unclosed atoms <+ _ ++ [] := unclosed_sublist [] atoms.zipIdx
  rwa [List.append_nil] at h

theorem nodup_zipIdx (atoms : List Atom) : atoms.zipIdx.Nodup :=
  List.Nodup.of_map Prod.snd (List.nodup_zipIdx_map_snd atoms)

theorem nodup_unclosed (atoms : List Atom) : (unclosed atoms).Nodup :=
  (unclosed_sublist_reverse atoms).nodup
    (List.nodup_reverse.mpr ((nodup_zipIdx atoms).filter _))

theorem of_mem_unclosed {atoms : List Atom} {p : Atom × Nat} (h : p ∈ unclosed atoms) :
    p ∈ atoms.zipIdx ∧ p.1.isOpenBracket = true := by
  simpa using (unclosed_sublist_reverse atoms).subset h

namespace PostOrder

variable {α : Type} {atomOf : α → Atom}

/-! ## 2. What comes out -/

/-- **One atom is released or kept**, unless it is a bracket. -/
theorem Moves.perm {stack out after : List α} {a : α} (h : Moves atomOf stack a out after) :
    (out ++ after.filter fun b => !(atomOf b).isOpenBracket).Perm
      ((stack.filter fun b => !(atomOf b).isOpenBracket) ++
        [a].filter fun b => (atomOf b).kind ≠ .bracket) := by
  have hkeep : ∀ {l : List α}, (∀ b ∈ l, (atomOf b).isOpenBracket = false) →
      (l.filter fun b => !(atomOf b).isOpenBracket) = l := by
    intro l hl
    rw [List.filter_eq_self]
    intro b hb
    simp [hl b hb]
  cases h with
  | opens ha => simp [ha, Atom.kind_of_isOpenBracket ha]
  | closes ha hpending ho =>
    rw [List.filter_append, hkeep hpending]
    simp [ho, Atom.kind_of_closes ha]
  | drains ha hstack =>
    rw [hkeep hstack]
    simp [Atom.kind_of_closes ha]
  | waits ha hpending _ =>
    have hnone : ∀ b ∈ out, (atomOf b).isOpenBracket = false := by
      intro b hb
      exact Atom.not_isOpenBracket_of_yieldsTo (hpending b hb)
    rw [List.filter_append, hkeep hnone, List.append_assoc]
    simpa [not_isOpenBracket_of_waits ha, Atom.kind_ne_bracket_of_waits ha] using
      (List.perm_append_singleton a _).symm.append_left out
  | passes ha =>
    simpa [Atom.kind_ne_bracket_of_passes ha] using (List.perm_append_singleton a _).symm

/-- **What comes out** is what was on the stack and what is in the row, less the brackets, and the
opening brackets that are never closed.  Atoms are numbered where this is used, so nothing comes out
twice. -/
theorem Arranges.perm {stack row out : List α} (h : Arranges atomOf stack row out) :
    out.Perm ((stack.filter fun b => !(atomOf b).isOpenBracket) ++
      (row.filter fun b => (atomOf b).kind ≠ .bracket) ++
      (pairUp atomOf (opened atomOf stack) row).1) := by
  induction h with
  | @done stack =>
    rw [List.filter_nil, List.append_nil]
    exact ((List.filter_append_perm _ stack).symm).trans List.perm_append_comm
  | @move stack out after rest more a ha h ih =>
    rw [ha.unclosed_eq rest, ← List.singleton_append, List.filter_append]
    calc
      _ ~ out ++ ((after.filter fun b => !(atomOf b).isOpenBracket) ++
            (rest.filter fun b => (atomOf b).kind ≠ .bracket) ++
            (pairUp atomOf (opened atomOf after) rest).1) := ih.append_left out
      _ = (out ++ after.filter fun b => !(atomOf b).isOpenBracket) ++
            ((rest.filter fun b => (atomOf b).kind ≠ .bracket) ++
            (pairUp atomOf (opened atomOf after) rest).1) := by simp only [List.append_assoc]
      _ ~ _ := ha.perm.append_right _
      _ = _ := by simp only [List.append_assoc]

/-! ## 3. In which order -/

theorem Moves.filter_passes {stack out after : List α} {a : α} (h : Moves atomOf stack a out after)
    (hstack : ∀ b ∈ stack, (atomOf b).passes = false) :
    (out.filter fun b => (atomOf b).passes) = ([a].filter fun b => (atomOf b).passes) ∧
      ∀ b ∈ after, (atomOf b).passes = false := by
  have hnone : ∀ {l : List α}, (∀ b ∈ l, (atomOf b).passes = false) →
      (l.filter fun b => (atomOf b).passes) = [] := by
    intro l hl
    rw [List.filter_eq_nil_iff]
    intro b hb
    simp [hl b hb]
  cases h with
  | opens ha =>
    have hpass : (atomOf a).passes = false :=
      Atom.not_passes_of_bracket (Atom.kind_of_isOpenBracket ha)
    exact ⟨by simp [hpass], List.forall_mem_cons.mpr ⟨hpass, hstack⟩⟩
  | closes ha _ _ =>
    have hpass : (atomOf a).passes = false := Atom.not_passes_of_bracket (Atom.kind_of_closes ha)
    obtain ⟨hpending, hbelow⟩ := List.forall_mem_append.mp hstack
    exact ⟨by simp [hpass, hnone hpending], fun b hb => hbelow b (List.mem_cons_of_mem _ hb)⟩
  | drains ha _ =>
    have hpass : (atomOf a).passes = false := Atom.not_passes_of_bracket (Atom.kind_of_closes ha)
    exact ⟨by simp [hpass, hnone hstack], by simp⟩
  | waits ha _ _ =>
    have hpass : (atomOf a).passes = false := Atom.not_passes_of_waits ha
    obtain ⟨hpending, hbelow⟩ := List.forall_mem_append.mp hstack
    exact ⟨by simp [hpass, hnone hpending], List.forall_mem_cons.mpr ⟨hpass, hbelow⟩⟩
  | passes ha => exact ⟨rfl, hstack⟩

/-- **What does not wait keeps its order.**  It comes out at once, and nothing of its kind is ever
on the stack to come out later. -/
theorem Arranges.filter_passes {stack row out : List α} (h : Arranges atomOf stack row out)
    (hstack : ∀ b ∈ stack, (atomOf b).passes = false) :
    (out.filter fun b => (atomOf b).passes) = row.filter fun b => (atomOf b).passes := by
  induction h with
  | done =>
    rw [List.filter_nil, List.filter_eq_nil_iff]
    intro b hb
    simp [hstack b hb]
  | @move _ out _ rest _ a ha h ih =>
    obtain ⟨hout, hafter⟩ := ha.filter_passes hstack
    rw [← List.singleton_append, List.filter_append, List.filter_append, hout, ih hafter]

theorem Arranges.mem {stack row out : List α} (h : Arranges atomOf stack row out) {a : α}
    (ha : a ∈ row) (hkind : (atomOf a).kind ≠ .bracket) : a ∈ out := by
  apply h.perm.symm.subset
  apply List.mem_append_left
  exact List.mem_append_right _ (List.mem_filter.mpr ⟨ha, by simpa using hkind⟩)

/-- **What waits comes out after everything before it that does not.**  When it goes onto the stack,
all of that is out already. -/
theorem Arranges.after {stack row out : List α} (h : Arranges atomOf stack row out) {a b : α}
    (hrow : [a, b] <+ row) (ha : (atomOf a).passes = true) (hb : (atomOf b).waits = true)
    (hstack : ∀ c ∈ stack, (atomOf c).passes = false) : [a, b] <+ out := by
  induction h with
  | done => cases hrow
  | @move stack out after rest more c hc h ih =>
    obtain ⟨hout, hafter⟩ := hc.filter_passes hstack
    cases hrow with
    | cons _ hrest => exact (ih hrest hafter).trans (List.sublist_append_right out more)
    | cons_cons _ hrest =>
      -- what passes is out before the rest is looked at
      have hfirst : a ∈ out := by
        apply List.mem_of_mem_filter
        rw [hout]
        exact List.mem_filter.mpr ⟨List.mem_singleton_self a, ha⟩
      have hlater : b ∈ more :=
        h.mem (List.singleton_sublist.mp hrest) (Atom.kind_ne_bracket_of_waits hb)
      exact (List.singleton_sublist.mpr hfirst).append (List.singleton_sublist.mpr hlater)

end PostOrder

/-! ## 4. Rows and their values -/

/-- What happens to a row of numbered atoms when it is rearranged. -/
structure Reorders (atoms : List Atom) (out : List (Atom × Nat)) : Prop where
  /-- Every atom comes out once, except closing brackets and the opening ones that they close. -/
  kept : out.Perm
    (atoms.zipIdx.filter fun p => p.1.kind ≠ .bracket || decide (p ∈ unclosed atoms))
  /-- What does not wait keeps its order. -/
  inOrder : (out.filter fun p => p.1.passes) = atoms.zipIdx.filter fun p => p.1.passes
  /-- What waits comes out after everything before it that does not. -/
  after : ∀ p q, [p, q] <+ atoms.zipIdx → p.1.passes = true → q.1.waits = true → [p, q] <+ out

theorem filter_kept_perm (atoms : List Atom) :
    ((atoms.zipIdx.filter fun p => p.1.kind ≠ .bracket) ++ unclosed atoms).Perm
      (atoms.zipIdx.filter fun p => p.1.kind ≠ .bracket || decide (p ∈ unclosed atoms)) := by
  have hnodup := nodup_zipIdx atoms
  rw [List.perm_ext_iff_of_nodup _ (hnodup.filter _)]
  · intro p
    have hrow : p ∈ unclosed atoms → p ∈ atoms.zipIdx := fun h => (of_mem_unclosed h).1
    simp only [List.mem_append, List.mem_filter, Bool.or_eq_true, decide_eq_true_eq]
    tauto
  · rw [List.nodup_append]
    refine ⟨hnodup.filter _, nodup_unclosed atoms, ?_⟩
    rintro p hp q hq rfl
    have hkind : p.1.kind ≠ .bracket := by simpa using (List.mem_filter.mp hp).2
    exact hkind (Atom.kind_of_isOpenBracket (of_mem_unclosed hq).2)

/-- **The post-order of a row, atom by atom.**  The numbered row is rearranged as the row is, and
each part of `Reorders` is read off how that is done. -/
theorem exists_reorders (atoms : List Atom) :
    ∃ out : List (Atom × Nat), out.map Prod.fst = postOrder atoms ∧ Reorders atoms out := by
  obtain ⟨out, harranges, hout⟩ := PostOrder.exists_arranges Prod.fst [] atoms.zipIdx
  rw [List.zipIdx_map_fst, List.map_nil] at hout
  refine ⟨out, hout, ?_, harranges.filter_passes (by simp), ?_⟩
  · have hperm : out ~ [] ++ _ ++ unclosed atoms := harranges.perm
    rw [List.nil_append] at hperm
    exact hperm.trans (filter_kept_perm atoms)
  · intro p q hrow hp hq
    exact harranges.after hrow hp hq (by simp)

namespace Evaluation

variable {σ : Type} {registry : Registry σ}

/-- A row that can be run has no brackets.  A bracket fails wherever it is met, so one that was
never closed settles the outcome. -/
theorem kind_ne_bracket_of_finalStack {atoms : List Atom} :
    ∀ {stack after : List Atom} {source next : σ},
      finalStack registry atoms stack source = (.ok after, next) →
      ∀ a ∈ atoms, a.kind ≠ .bracket := by
  induction atoms with
  | nil =>
    intro _ _ _ _ _ a ha
    cases ha
  | cons b rest ih =>
    intro stack after source next h
    rw [finalStack_cons] at h
    obtain ⟨stack', source', hstep, hrest⟩ := andThen_eq_ok h
    refine List.forall_mem_cons.mpr ⟨?_, ih hrest⟩
    intro hkind
    simp [step, hkind] at hstep

end Evaluation

/-- **Nothing is lost, duplicated or reordered**, in any row.  The post-order is no longer than the
row; it has a bracket if and only if one is never closed, and then it has no value. -/
theorem postOrder_places (atoms : List Atom) :
    (∃ out : List (Atom × Nat), out.map Prod.fst = postOrder atoms ∧ Reorders atoms out) ∧
    (postOrder atoms).length ≤ atoms.length ∧
    ((∃ a ∈ postOrder atoms, a.kind = .bracket) ↔ unclosed atoms ≠ []) ∧
    (unclosed atoms ≠ [] → ∀ {σ : Type} (registry : Registry σ) (source : σ) (a : Atom),
      (evaluate registry (postOrder atoms) source).outcome ≠ .ok a) := by
  obtain ⟨out, hout, hreorders⟩ := exists_reorders atoms
  have hbracket : (∃ a ∈ postOrder atoms, a.kind = .bracket) ↔ unclosed atoms ≠ [] := by
    have hmem : ∀ p, p ∈ out ↔ p ∈ atoms.zipIdx ∧ (p.1.kind ≠ .bracket ∨ p ∈ unclosed atoms) := by
      intro p
      rw [hreorders.kept.mem_iff]
      simp
    constructor
    · rintro ⟨a, ha, hkind⟩
      rw [← hout, List.mem_map] at ha
      obtain ⟨p, hp, rfl⟩ := ha
      exact List.ne_nil_of_mem (((hmem p).mp hp).2.resolve_left (absurd hkind))
    · intro hne
      obtain ⟨p, hp⟩ := List.exists_mem_of_ne_nil _ hne
      obtain ⟨hrow, hopen⟩ := of_mem_unclosed hp
      rw [← hout]
      exact ⟨p.1, List.mem_map_of_mem ((hmem p).mpr ⟨hrow, Or.inr hp⟩),
        Atom.kind_of_isOpenBracket hopen⟩
  refine ⟨⟨out, hout, hreorders⟩, length_postOrder_le atoms, hbracket, ?_⟩
  intro hne σ registry source a hvalue
  obtain ⟨b, hb, hkind⟩ := hbracket.mpr hne
  obtain ⟨hfinal, -⟩ := Evaluation.evaluate_ok_iff.mp ⟨hvalue, rfl⟩
  exact Evaluation.kind_ne_bracket_of_finalStack hfinal b hb hkind

/-- A closing bracket without a partner, two opening brackets of which an odd one closes the later,
and two equal numbers. -/
theorem postOrder_places_unclosed :
    let row : List Atom :=
      [.operator '-', .bracket ')', .number "1" 1, .operator '+', .bracket '(', .bracket '(',
       .comma, .number "2" 2, .bracket ']', .function "F", .number "1" 1]
    unclosed row = [(.bracket '(', 4)] ∧
    (postOrder row).map Atom.name = ["-", "1", "2", ";", "1", "F", "(", "+"] ∧
    (evaluate Builtin.registry (postOrder row) (Chance.Cycle.ofList [])).outcome ≠
      .ok (.number "1" 1) := by
  intro row
  have hunclosed : unclosed row = [(.bracket '(', 4)] := by decide +kernel
  obtain ⟨-, -, -, hvalue⟩ := postOrder_places row
  refine ⟨hunclosed, by decide +kernel, hvalue ?_ _ _ _⟩
  rw [hunclosed]
  exact List.cons_ne_nil _ _

end Reckoner
