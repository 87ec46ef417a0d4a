/-
# Accepted formulas are well formed

No stage of an evaluation checks the grammar, but a formula of which every closing bracket closes
something, and in which no operand runs into another, has an answer only if it is derived from the
grammar (`Session.derives_of_ok`).

* A run that has an answer has run an expression.  There, operands and connectors are balanced
  (`Expr.surplus_postOrder`); so the row of the formula's atoms has no faults and is grouped.
* What a grouped row leaves on the stack tells what it is: one operand if it is a formula, a chain
  if it is a list of arguments, and otherwise two commas on top of each other, which nothing ever
  takes away (`Dead`, `Grouped.derives`).
-/
import Reckoner.Proofs.EndToEnd
import Reckoner.Proofs.Grammar
import Reckoner.Proofs.TextRows

namespace Reckoner

open Evaluation

/-! ## 1. Expressions are balanced -/

mutual

/-- **Operands and connectors are balanced**: there is one operand more.  An operator joins two
expressions, and arguments are chained by one comma less than there are of them. -/
theorem Expr.surplus_postOrder : ∀ {t : Expr}, t.Meaningful → surplus t.postOrder = 1
  | .operand a, _ => surplus_operand a.property []
  | .binary op left right, h => by
    have hop : op.val.isConnector = true := by simp [Atom.isConnector, op.property]
    rw [Expr.postOrder, surplus_append, surplus_append, Expr.surplus_postOrder h.2.1,
      Expr.surplus_postOrder h.2.2, surplus_connector hop]
    rfl
  | .call f arguments, h => by
    rw [Expr.postOrder, surplus_append, Arguments.surplus_postOrder h,
      surplus_other (Or.inl f.property)]
    rfl

theorem Arguments.surplus_postOrder : ∀ {arguments : Arguments}, arguments.Meaningful →
    surplus arguments.postOrder = 1
  | .one t, h => Expr.surplus_postOrder h
  | .more earlier comma last, h => by
    have hcomma : comma.val.isConnector = true := by simp [Atom.isConnector, comma.property]
    rw [Arguments.postOrder, surplus_append, surplus_append, Arguments.surplus_postOrder h.1,
      Expr.surplus_postOrder h.2, surplus_connector hcomma]
    rfl

end

def Atom.Known (a : Atom) : Prop :=
  a.kind ≠ .bracket ∧ (a.isConnector = true → 0 ≤ a.precedence)

theorem Atom.known_of_isOperand {a : Atom} (ha : a.isOperand = true) : a.Known := by
  constructor
  · exact ne_bracket_of_isOperand ha
  · intro h
    rw [not_isOperand_of_isConnector h] at ha
    cases ha

mutual

/-- In the post-order of a meaningful expression there are no brackets, and all operators are
known. -/
theorem Expr.known_of_mem : ∀ {t : Expr}, t.Meaningful → ∀ a ∈ t.postOrder, a.Known
  | .operand b, _, a, ha => by
    rw [Expr.postOrder, List.mem_singleton] at ha
    exact ha ▸ Atom.known_of_isOperand b.property
  | .binary op left right, h, a, ha => by
    obtain ⟨⟨o, hname⟩, hleft, hright⟩ := h
    simp only [Expr.postOrder, List.mem_append, List.mem_singleton] at ha
    rcases ha with (ha | ha) | rfl
    · exact Expr.known_of_mem hleft a ha
    · exact Expr.known_of_mem hright a ha
    · constructor
      · simp [op.property]
      · intro _
        rw [Op.precedence_eq op.property hname]
        omega
  | .call f arguments, h, a, ha => by
    simp only [Expr.postOrder, List.mem_append, List.mem_singleton] at ha
    rcases ha with ha | rfl
    · exact Arguments.known_of_mem h a ha
    · constructor
      · simp [f.property]
      · intro hc
        simp [Atom.isConnector, f.property] at hc

theorem Arguments.known_of_mem : ∀ {arguments : Arguments}, arguments.Meaningful →
    ∀ a ∈ arguments.postOrder, a.Known
  | .one t, h, a, ha => Expr.known_of_mem (t := t) h a ha
  | .more earlier comma last, h, a, ha => by
    simp only [Arguments.postOrder, List.mem_append, List.mem_singleton] at ha
    rcases ha with (ha | ha) | rfl
    · exact Arguments.known_of_mem h.1 a ha
    · exact Expr.known_of_mem h.2 a ha
    · constructor
      · simp [comma.property]
      · simp [Atom.precedence, comma.property]

end

theorem surplus_postOrder (atoms : List Atom) : surplus (postOrder atoms) = surplus atoms := by
  rw [surplus, surplus, countP_postOrder fun _ => ne_bracket_of_isOperand,
    countP_postOrder fun _ => ne_bracket_of_isConnector]

/-! ## 2. Two commas on top of each other -/

/-- Somewhere on the stack a comma lies directly on a comma.  Such a stack never becomes an answer,
and this settles rows like `(1;2);(3;4)` that are grouped like others. -/
inductive Dead : List Atom → Prop
  | here {c d : Atom} {below : List Atom} (hc : c.isComma = true) (hd : d.isComma = true) :
      Dead (c :: d :: below)
  | deeper {a : Atom} {below : List Atom} (h : Dead below) : Dead (a :: below)

theorem Dead.of_operand {a : Atom} {below : List Atom} (h : Dead (a :: below))
    (ha : a.isOperand = true) : Dead below := by
  cases h with
  | here hc hd =>
    rw [not_isComma_of_isOperand ha] at hc
    cases hc
  | deeper h => exact h

theorem Dead.of_comma {c a : Atom} {below : List Atom} (h : Dead (c :: a :: below))
    (ha : a.isOperand = true) : Dead below := by
  cases h with
  | here hc hd =>
    rw [not_isComma_of_isOperand ha] at hd
    cases hd
  | deeper h => exact h.of_operand ha

/-- A chain has no two commas on top of each other. -/
theorem Dead.of_chained {args segment : List Atom} (hchain : Chained args segment) :
    ∀ {below : List Atom}, Dead (segment ++ below) → Dead below := by
  induction hchain with
  | one ha =>
    intro below h
    exact h.of_operand ha
  | more hchain ha hc ih =>
    intro below h
    exact ih (h.of_comma ha)

theorem not_dead_singleton (a : Atom) : ¬ Dead [a] := by
  intro h
  cases h with
  | deeper h => cases h

section Runs

variable {σ : Type} {registry : Registry σ}

/-- **Nothing takes two commas off a stack.**  A chain that is taken has an argument on either side
of each comma, so it ends above the two of them. -/
theorem Dead.step {a : Atom} {stack after : List Atom} {source next : σ} (h : Dead stack)
    (hstep : Evaluation.step registry a stack source = (.ok after, next)) : Dead after := by
  rcases step_eq_ok hstep with ⟨-, rfl, -⟩ |
    ⟨-, left, right, below, x, hleft, hright, rfl, -, -, rfl⟩ |
    ⟨-, args, below, x, hpop, -, rfl⟩
  · exact .deeper h
  · exact .deeper ((h.of_operand hright).of_operand hleft)
  · rcases chained_of_popArguments hpop with ⟨rfl, -, -⟩ | ⟨segment, hchain, rfl⟩
    · cases h
    · exact .deeper (h.of_chained hchain)

/-! ## 3. What a grouped row leaves on the stack -/

/-- What lies on the stack after a grouped row: it is dead, or a chain of arguments was added, and
the row is a formula if that is a single one, and else a list of arguments. -/
inductive LeavesRow (n : Nat) (row stack : List Atom) : List Atom → Prop
  | dead {after : List Atom} (h : Dead after) : LeavesRow n row stack after
  | formula {a : Atom} (ha : a.isOperand = true) (h : Derives (.formula (max n 1)) row) :
      LeavesRow n row stack (a :: stack)
  | arguments {args segment : List Atom} {a c : Atom} (hchain : Chained args segment)
      (ha : a.isOperand = true) (hc : c.isComma = true) (h : Derives .arguments row) :
      LeavesRow n row stack (c :: a :: segment ++ stack)

/-- A single sum is a list of arguments too.  This is where the two readings of a grouped row meet
again. -/
theorem LeavesRow.chained {n : Nat} {row stack after : List Atom} (hn : n ≤ 1)
    (h : LeavesRow n row stack after) :
    Dead after ∨ ∃ args segment, Chained args segment ∧ after = segment ++ stack ∧
      Derives .arguments row := by
  cases h with
  | dead h => exact Or.inl h
  | @formula a ha h =>
    rw [Nat.max_eq_right hn] at h
    exact Or.inr ⟨[a], [a], .one ha, rfl, .one h⟩
  | @arguments args segment a c hchain ha hc h =>
    exact Or.inr ⟨args ++ [a], c :: a :: segment, hchain.more ha hc, rfl, h⟩

/-- An operator joins two formulas, and fails on lists of arguments. -/
theorem LeavesRow.operator {n : Nat} {c : Atom} {left right stack first second after : List Atom}
    {source next : σ} (hkind : c.kind = .operator) (hn : c.precedence = n)
    (hleft : LeavesRow n left stack first) (hright : LeavesRow (n + 1) right first second)
    (hstep : Evaluation.step registry c second source = (.ok after, next)) :
    LeavesRow n (left ++ c :: right) stack after := by
  obtain ⟨op, hname, rfl⟩ := Op.exists_of_precedence hkind hn
  have hlevel := op.level_le
  rcases step_eq_ok hstep with ⟨ha, -⟩ |
    ⟨-, l, r, below, x, hl, hr, hsecond, -, -, rfl⟩ | ⟨hf, -⟩
  · rw [isOperand_iff, isComma_iff, hkind] at ha
    simp at ha
  · cases hright with
    | dead h => exact .dead (h.step hstep)
    | @arguments args segment a c' hchain ha hc h =>
      rw [List.cons_append, List.cons.injEq] at hsecond
      rw [← hsecond.1, not_isOperand_of_isComma hc] at hr
      cases hr
    | @formula a ha hderives =>
      obtain ⟨rfl, rfl⟩ := List.cons.inj hsecond
      rw [Nat.max_eq_left (by omega)] at hderives
      cases hleft with
      | dead h => exact .dead (.deeper (h.of_operand hl))
      | @formula b hb hderives' =>
        rw [Nat.max_eq_left (by omega)] at hderives'
        refine .formula rfl ?_
        rw [Nat.max_eq_left (by omega)]
        exact .binary hkind hname hderives' hderives
      | arguments hchain ha hc h =>
        rw [not_isOperand_of_isComma hc] at hl
        cases hl
  · rw [hkind] at hf
    cases hf

/-- A comma puts a formula behind arguments, and lies on a comma if it is none. -/
theorem LeavesRow.comma {c : Atom} {left right stack first second : List Atom}
    (hkind : c.kind = .comma) (hleft : LeavesRow 0 left stack first)
    (hright : LeavesRow 1 right first second) :
    LeavesRow 0 (left ++ c :: right) stack (c :: second) := by
  have hc : c.isComma = true := isComma_iff.mpr hkind
  cases hright with
  | dead h => exact .dead (.deeper h)
  | arguments hchain ha hc' h => exact .dead (.here hc hc')
  | formula ha hderives =>
    rcases hleft.chained (by omega) with hdead | ⟨args, segment, hchain, rfl, hderives'⟩
    · exact .dead (.deeper (.deeper hdead))
    · exact .arguments hchain ha hc (.more hkind hderives' hderives)

/-- A function takes a whole list of arguments, and nothing else. -/
theorem LeavesRow.call {f : Atom} {row stack middle after : List Atom} {source next : σ}
    (hf : f.kind = .function) (hrow : LeavesRow 0 row stack middle)
    (hstep : Evaluation.step registry f middle source = (.ok after, next)) :
    LeavesRow 4 (f :: .bracket '(' :: (row ++ [.bracket ')'])) stack after := by
  rcases hrow.chained (by omega) with hdead | ⟨args, segment, hchain, rfl, hderives⟩
  · exact .dead (hdead.step hstep)
  · rw [step_function hf (popArguments_of_chained hchain stack)] at hstep
    obtain ⟨x, last, -, hresult⟩ := andThen_eq_ok hstep
    cases hresult
    exact .formula rfl (.call hf hderives)

/-- Where a row is seen as a looser one, it leaves the same. -/
theorem LeavesRow.loosen {n : Nat} {row stack after : List Atom}
    (h : LeavesRow (n + 1) row stack after) : LeavesRow n row stack after := by
  cases h with
  | dead h => exact .dead h
  | formula ha h =>
    refine .formula ha ?_
    rw [Nat.max_eq_left (by omega)] at h
    cases n with
    | zero => exact h
    | succ n =>
      rw [Nat.max_eq_left (by omega)]
      exact h.raise
  | arguments hchain ha hc h => exact .arguments hchain ha hc h

/-- **What a grouped row leaves on the stack tells what it is.**  By induction on the grouping: each
rule runs its parts one after the other, and their traces on the stack decide whether the whole is a
formula, a list of arguments, or fails. -/
theorem Grouped.derives {n : Nat} {row ordered : List Atom} (h : Grouped n row ordered) :
    ∀ {stack after : List Atom} {source next : σ},
      finalStack registry ordered stack source = (.ok after, next) →
      LeavesRow n row stack after := by
  induction h with
  | @operand a ha =>
    intro stack after source next hrun
    rw [finalStack_singleton, step_push (Or.inl ha)] at hrun
    cases hrun
    exact .formula ha (.operand ha)
  | @group row ordered h ih =>
    intro stack after source next hrun
    cases ih hrun with
    | dead h => exact .dead h
    | formula ha h => exact .formula ha (.group h)
    | arguments hchain ha hc h => exact .arguments hchain ha hc (.bracketed h)
  | @call f row ordered hf h ih =>
    intro stack after source next hrun
    rw [finalStack_append] at hrun
    obtain ⟨middle, source', hrow, hcall⟩ := andThen_eq_ok hrun
    rw [finalStack_singleton] at hcall
    exact .call hf (ih hrow) hcall
  | @join n c left leftOrdered right rightOrdered hc hn hl hr ihl ihr =>
    intro stack after source next hrun
    rw [finalStack_append, finalStack_append, andThen_assoc] at hrun
    obtain ⟨first, source', hleft, hrun⟩ := andThen_eq_ok hrun
    obtain ⟨second, source'', hright, hlast⟩ := andThen_eq_ok hrun
    rw [finalStack_singleton] at hlast
    cases hkind : c.kind with
    | operator => exact .operator hkind hn (ihl hleft) (ihr hright) hlast
    | comma =>
      have hzero : n = 0 := by
        simp only [Atom.precedence, hkind] at hn
        omega
      subst hzero
      rw [step_push (Or.inr (isComma_iff.mpr hkind))] at hlast
      cases hlast
      exact .comma hkind (ihl hleft) (ihr hright)
    | _ => simp [Atom.isConnector, hkind] at hc
  | loosen h ih =>
    intro stack after source next hrun
    exact (ih hrun).loosen

end Runs

/-! ## 4. Acceptance -/

theorem derives_of_run {σ : Type} {registry : Registry σ} {atoms : List Atom} {source next : σ}
    {a : Atom} (hgrouped : IsGrouped 0 atoms)
    (hrun : finalStack registry (postOrder atoms) [] source = (.ok [a], next)) :
    Derives (.formula 1) atoms := by
  obtain ⟨ordered, hgrouped⟩ := hgrouped
  rw [hgrouped.postOrder_eq] at hrun
  generalize hafter : [a] = after at hrun
  cases hgrouped.derives hrun with
  | dead h => exact absurd (hafter ▸ h) (not_dead_singleton a)
  | formula ha h => exact h
  | arguments hchain ha hc h => simp at hafter

/-- The atoms of a text that come out as an expression are a row without faults, and all connectors
in it are known: no bracket comes out of the stack, and the expression misses no operand. -/
theorem Lexicon.Reads.row {lexicon : Lexicon} (hsep : Separates lexicon.separator)
    {text : List Char} {atoms : List Atom} {t : Expr} (h : lexicon.Reads true text atoms)
    (halphabet : ∀ c ∈ text, inAlphabet lexicon.separator c = true)
    (ht : t.postOrder = postOrder atoms) (hmeaningful : t.Meaningful) (hclosed : ClosesOpen 0 atoms)
    (hfollows : ∀ a b, [a, b] <:+: atoms → Follows a b) :
    Row .operand 0 0 atoms ∧ ∀ c ∈ atoms, c.isConnector = true → 0 ≤ c.precedence := by
  have hsurplus := Expr.surplus_postOrder hmeaningful
  have hknown := Expr.known_of_mem hmeaningful
  rw [ht] at hsurplus hknown
  rw [surplus_postOrder] at hsurplus
  have hbrackets : ∀ a ∈ atoms, a.kind = .bracket →
      a.isOpenBracket = true ∨ a.isCloseBracket = true := by
    intro a ha hkind
    obtain ⟨k, rfl⟩ := h.exists_token hsep halphabet a ha
    exact Token.isOpenBracket_or_isCloseBracket hkind
  have hall := countP_brackets hbrackets hclosed fun a ha => (hknown a ha).1
  obtain ⟨faults, hrow⟩ : ∃ faults, Row .operand 0 faults atoms :=
    h.exists_row hsep halphabet hfollows trivial ⟨hclosed, by omega⟩
  have hfaults := hrow.surplus_add
  rw [hsurplus, if_neg (by simp)] at hfaults
  obtain rfl : faults = 0 := by omega
  constructor
  · exact hrow
  · intro c hc hconnector
    have hmem := mem_postOrder hc (ne_bracket_of_isConnector hconnector)
    exact (hknown c hmem).2 hconnector

theorem Session.Computes.row {σ : Type} [Chance.Source σ] {s : Session σ}
    (hsep : Separates s.config.separator) {formula : String} {x : Float} {atoms : List Atom}
    {t : Expr} (h : s.Computes formula x atoms t) (hclosed : ClosesOpen 0 atoms)
    (hfollows : ∀ a b, [a, b] <:+: atoms → Follows a b) :
    Row .operand 0 0 atoms ∧ ∀ c ∈ atoms, c.isConnector = true → 0 ≤ c.precedence :=
  h.accepts.reads.row hsep h.accepts.alphabet h.postOrder_eq h.meaningful hclosed hfollows

/-- **A formula that has an answer is well formed**, if every closing bracket closes something and
no two atoms meet that must not.  In particular no operand is missing anywhere, all brackets are
closed, all operators are known, and commas stand in calls. -/
theorem Session.derives_of_ok {σ : Type} [Chance.Source σ] {s : Session σ}
    (hcheck : s.config.check = .ok ()) {formula : String} {x : Float} {atoms : List Atom}
    (hwritten : (s.evaluate formula).session.written.toList = atoms)
    (hclosed : ClosesOpen 0 atoms) (hfollows : ∀ a b, [a, b] <:+: atoms → Follows a b)
    (houtcome : (s.evaluate formula).outcome = .ok x) :
    Derives (.formula 1) atoms ∧ Row .operand 0 0 atoms ∧
      (∀ c ∈ atoms, c.kind = .operator → ∃ op : Op, c.name = op.char.toString) ∧
      ∀ (u v : List Atom) (c : Atom), c.kind = .comma → atoms = u ++ c :: v → InCall u := by
  obtain ⟨read, t, hcomputes⟩ := Session.exists_computes houtcome
  obtain rfl : read = atoms := by rw [← hcomputes.accepts.leaves.written, hwritten]
  obtain ⟨hrow, hknown⟩ := hcomputes.row (Config.separates hcheck) hclosed hfollows
  have hgrouped := hrow.grouped rfl hknown .nil .start
  have hderives := derives_of_run hgrouped (Prod.ext hcomputes.run rfl)
  refine ⟨hderives, hrow, ?_, ?_⟩
  · intro c hc hkind
    have hprecedence := hknown c hc (by simp [Atom.isConnector, hkind])
    obtain ⟨op, hname, -⟩ := Op.exists_of_precedence hkind
      (Int.toNat_of_nonneg hprecedence).symm
    exact ⟨op, hname⟩
  · intro u v c hc h
    exact hderives.endsBeforeComma hc h

/-- A call with two arguments. -/
theorem Session.derives_of_ok_max :
    let s : Session Chance.Cycle := Session.fresh .standard (.ofList [])
    let atoms : List Atom :=
      [.function "MAX", .bracket '(', .number "2" 2, .comma, .number "3" 3, .bracket ')']
    s.config.check = .ok () ∧
    (s.evaluate "max(2;3)").session.written.toList = atoms ∧
    ClosesOpen 0 atoms ∧
    (∀ a b, [a, b] <:+: atoms → Follows a b) ∧
    (s.evaluate "max(2;3)").outcome = .ok 3 ∧
    Derives (.formula 1) atoms := by
  intro s atoms
  have hcheck : s.config.check = .ok () := rfl
  have hsep := Config.separates hcheck
  let two : Literal := ⟨false, ['2'], none, by decide, by decide, by decide⟩
  let three : Literal := ⟨false, ['3'], none, by decide, by decide, by decide⟩
  let e : Formula 4 := .call ⟨'M', ['A', 'X'], by decide, by decide⟩
    (.more (.one (Formula.literal two).raise.raise.raise) (Formula.literal three).raise.raise.raise)
  have hnormal : normalize s.config.separator "max(2;3)".toList = e.text s.config.separator := by
    decide
  have hatoms : e.atoms s.lexicon = atoms := by decide +kernel
  have hroom : ∀ most ∈ s.config.maxAtoms, (e.atoms s.lexicon).length ≤ most := by
    intro most hmost
    cases hmost
    decide
  have hwritten := (e.accepts hsep hnormal hroom).leaves.written
  rw [hatoms] at hwritten
  have houtcome : (s.evaluate "max(2;3)").outcome = .ok 3 := by
    have hlarger : Builtin.larger two.value three.value = 3 := by decide +kernel
    have hcall : (Builtin.registry.call "MAX" [two.value, three.value] s.source).1 = .ok 3 := by
      rw [← hlarger]
      rfl
    have heval : ∀ registry : Registry Chance.Cycle, (e.tree s.lexicon).eval registry s.source =
        registry.call "MAX" [two.value, three.value] s.source := fun _ => rfl
    rw [(e.leaves hsep hnormal hroom).2.2.1, heval, hcall]
  have hclosed : ClosesOpen 0 atoms :=
    .cons_other (.cons_open (.cons_other (.cons_other (.cons_other (.cons_close (.nil 0))
      (by decide)) (by decide)) (by decide))) (by decide)
  have hfollows : ∀ a b, [a, b] <:+: atoms → Follows a b := by
    intro a b h
    simp only [atoms, List.infix_cons_iff, List.cons_prefix_cons, List.prefix_nil,
      List.infix_nil, List.cons_ne_nil, and_false, or_false, List.nil_prefix, and_true] at h
    rcases h with ⟨rfl, rfl⟩ | ⟨rfl, rfl⟩ | ⟨rfl, rfl⟩ | ⟨rfl, rfl⟩ | ⟨rfl, rfl⟩ <;>
      exact ⟨by decide, by decide⟩
  exact ⟨hcheck, hwritten, hclosed, hfollows, houtcome,
    (derives_of_ok hcheck hwritten hclosed hfollows houtcome).1⟩

end Reckoner
