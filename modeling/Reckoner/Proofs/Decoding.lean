/-
# Runs and expressions

A run accepts exactly the post-orders of expressions, and then computes their value.

* From an expression to the run: its post-order, run on any stack, pushes the atom of its value
  (`Expr.finalStack_postOrder`), and a failure of the value is the failure of the run.
* From a run to an expression: what was run so far is a row of post-orders and commas, one for each
  entry of the stack (`Decoded`).  Every step keeps this (`Decoded.step`), so a whole run does
  (`Decoded.finalStack`), and a stack of one operand is the post-order of one expression.
-/
import Reckoner.Proofs.Machine

namespace Reckoner

open Evaluation

variable {σ : Type} {registry : Registry σ}

/-! ## 1. Names of results -/

theorem Arguments.toList_ne_nil : ∀ arguments : Arguments, arguments.toList ≠ []
  | .one _ => by simp [Arguments.toList]
  | .more .. => by simp [Arguments.toList]

theorem Arguments.render_eq : ∀ arguments : Arguments,
    arguments.render = ";".intercalate (arguments.toList.map Expr.render)
  | .one t => by simp [Arguments.render, Arguments.toList, String.intercalate_singleton]
  | .more earlier comma last => by
    have hne : earlier.toList.map Expr.render ≠ [] := by
      simpa using earlier.toList_ne_nil
    rw [Arguments.render, Arguments.toList, List.map_append,
      String.intercalate_append_of_ne_nil hne (by simp), earlier.render_eq]
    simp [String.intercalate_singleton]

theorem Arguments.values_atoms : ∀ {arguments : Arguments} {source next : σ} {values : List Float},
    arguments.eval registry source = (.ok values, next) →
      (arguments.atoms values).map Atom.value = values
  | .one t, source, next, values, h => by
    obtain ⟨x, s, hx, h⟩ := andThen_eq_ok (by simpa only [Arguments.eval] using h)
    cases h
    simp [Arguments.atoms, Arguments.toList, Expr.value_atom hx]
  | .more earlier _ last, source, next, values, h => by
    obtain ⟨xs, s, hxs, h⟩ := andThen_eq_ok (by simpa only [Arguments.eval] using h)
    obtain ⟨x, s', hx, h⟩ := andThen_eq_ok h
    cases h
    rw [Arguments.atoms_more (Arguments.length_eval hxs), List.map_append, values_atoms hxs]
    simp [Expr.value_atom hx]

theorem Arguments.callName_atoms {arguments : Arguments} {values : List Float} (f : String)
    (h : values.length = arguments.toList.length) :
    callName f ((arguments.atoms values).map Atom.name) =
      f ++ "(" ++ arguments.render ++ ")" := by
  have hnames : (arguments.atoms values).map Atom.name = arguments.toList.map Expr.render := by
    unfold Arguments.atoms
    generalize arguments.toList = trees at h ⊢
    induction trees generalizing values with
    | nil => simp
    | cons t trees ih =>
      cases values with
      | nil => simp at h
      | cons x values =>
        simp only [List.zipWith_cons_cons, List.map_cons, Expr.name_atom]
        rw [ih (by simpa using h)]
  rw [callName, hnames, arguments.render_eq]

theorem callName_nil (f : String) : callName f [] = f ++ "()" := by
  rw [callName, String.intercalate_nil, String.append_assoc, String.append_assoc]
  rfl

/-! ## 2. From an expression to the run -/

mutual

/-- **The post-order of an expression pushes the atom of its value**, whatever the stack holds; a
call without arguments needs the empty stack. -/
theorem Expr.finalStack_postOrder : ∀ (t : Expr) {first : Bool} {stack : List Atom} (source : σ),
    t.Placed first → (first = true → stack = []) →
      finalStack registry t.postOrder stack source =
        andThen (t.eval registry source) fun x source => (.ok (t.atom x :: stack), source)
  | .operand a, first, stack, source, _, _ => by
    rw [Expr.postOrder, finalStack_singleton, step_push (Or.inl a.property)]
    rfl
  | .binary op left right, first, stack, source, hplaced, hstack => by
    rw [Expr.postOrder, finalStack_append, finalStack_append,
      left.finalStack_postOrder source hplaced.1 hstack, Expr.eval, andThen_assoc, andThen_assoc,
      andThen_assoc]
    apply andThen_congr
    intro x source' hx
    rw [andThen_ok, right.finalStack_postOrder source' hplaced.2 (by simp), andThen_assoc,
      andThen_assoc]
    apply andThen_congr
    intro y source'' hy
    rw [andThen_ok, finalStack_singleton,
      step_operator op.property (left.isOperand_atom x) (right.isOperand_atom y),
      Expr.value_atom hx, Expr.value_atom hy, Expr.name_atom, Expr.name_atom]
    rfl
  | .nullary f, first, stack, source, hplaced, hstack => by
    cases hstack hplaced
    rw [Expr.postOrder, finalStack_singleton, step_function f.property rfl]
    simp only [List.map_nil, callName_nil]
    rfl
  | .call f arguments, first, stack, source, hplaced, hstack => by
    rw [Expr.postOrder, finalStack_append, Expr.eval]
    rcases arguments.finalStack_postOrder source hplaced hstack with
      ⟨e, next, hfail, hrun⟩ | ⟨xs, segment, next, hvalues, hchain, hrun⟩
    · rw [hrun, hfail]
      rfl
    · rw [hrun, hvalues, andThen_ok, andThen_ok, finalStack_singleton,
        step_function f.property (popArguments_of_chained hchain stack),
        Arguments.values_atoms hvalues,
        Arguments.callName_atoms f.val.name (Arguments.length_eval hvalues)]
      rfl

/-- The post-order of arguments pushes a chain of their atoms. -/
theorem Arguments.finalStack_postOrder : ∀ (arguments : Arguments) {first : Bool}
    {stack : List Atom} (source : σ), arguments.Placed first → (first = true → stack = []) →
      (∃ e next, arguments.eval registry source = (.error e, next) ∧
        finalStack registry arguments.postOrder stack source = (.error e, next)) ∨
      ∃ xs segment next, arguments.eval registry source = (.ok xs, next) ∧
        Chained (arguments.atoms xs) segment ∧
        finalStack registry arguments.postOrder stack source = (.ok (segment ++ stack), next)
  | .one t, first, stack, source, hplaced, hstack => by
    rw [Arguments.eval, Arguments.postOrder, t.finalStack_postOrder source hplaced hstack]
    rcases t.eval registry source with ⟨e | x, next⟩
    · exact Or.inl ⟨e, next, rfl, rfl⟩
    · exact Or.inr ⟨[x], [t.atom x], next, rfl, .one (t.isOperand_atom x), rfl⟩
  | .more earlier comma last, first, stack, source, hplaced, hstack => by
    rw [Arguments.eval, Arguments.postOrder, finalStack_append, finalStack_append]
    rcases earlier.finalStack_postOrder source hplaced.1 hstack with
      ⟨e, next, hfail, hrun⟩ | ⟨xs, segment, next, hvalues, hchain, hrun⟩
    · rw [hrun, hfail]
      exact Or.inl ⟨e, next, rfl, rfl⟩
    · rw [hrun, hvalues, andThen_ok, andThen_ok,
        last.finalStack_postOrder next hplaced.2 (by simp)]
      rcases last.eval registry next with ⟨e | x, next'⟩
      · exact Or.inl ⟨e, next', rfl, rfl⟩
      · have hcomma : comma.val.isComma = true := isComma_iff.mpr comma.property
        refine Or.inr ⟨xs ++ [x], comma.val :: last.atom x :: segment, next', rfl, ?_, ?_⟩
        · rw [Arguments.atoms_more (Arguments.length_eval hvalues)]
          exact hchain.more (last.isOperand_atom x) hcomma
        · rw [andThen_ok, andThen_ok, finalStack_singleton, step_push (Or.inr hcomma)]
          rfl

end

/-! ## 3. From the run to an expression -/

/-- **What a run has consumed, entry by entry of its stack.**  From `start`, the atoms consumed so
far are a row of post-orders and commas, one for each entry of the stack; running them brought the
random source to where it is.  The source is part of it because functions draw in the order of the
row. -/
inductive Decoded (registry : Registry σ) (start : σ) : List Atom → List Atom → σ → Prop
  | nil : Decoded registry start [] [] start
  | operand {consumed stack : List Atom} {source next : σ} {t : Expr} {x : Float}
      (h : Decoded registry start consumed stack source) (hplaced : t.Placed consumed.isEmpty)
      (hvalue : t.eval registry source = (.ok x, next)) :
      Decoded registry start (consumed ++ t.postOrder) (t.atom x :: stack) next
  | comma {consumed stack : List Atom} {source : σ} {c : Atom}
      (h : Decoded registry start consumed stack source) (hc : c.isComma = true) :
      Decoded registry start (consumed ++ [c]) (c :: stack) source

theorem Decoded.eq_nil {start source : σ} {consumed : List Atom}
    (h : Decoded registry start consumed [] source) : consumed = [] ∧ source = start := by
  cases h
  exact ⟨rfl, rfl⟩

/-- An operand on top is the value of an expression that was consumed last. -/
theorem Decoded.top {start next : σ} {consumed stack : List Atom} {a : Atom}
    (h : Decoded registry start consumed (a :: stack) next) (ha : a.isOperand = true) :
    ∃ (earlier : List Atom) (source : σ) (t : Expr) (x : Float),
      Decoded registry start earlier stack source ∧ t.Placed earlier.isEmpty ∧
      t.eval registry source = (.ok x, next) ∧ consumed = earlier ++ t.postOrder ∧
      a = t.atom x := by
  cases h with
  | operand h hplaced hvalue => exact ⟨_, _, _, _, h, hplaced, hvalue, rfl, rfl⟩
  | comma h hc =>
    rw [not_isOperand_of_isComma hc] at ha
    cases ha

theorem Decoded.top_comma {start next : σ} {consumed stack : List Atom} {c : Atom}
    (h : Decoded registry start consumed (c :: stack) next) (hc : c.isComma = true) :
    ∃ earlier, Decoded registry start earlier stack next ∧ consumed = earlier ++ [c] := by
  cases h with
  | operand h hplaced hvalue =>
    rw [not_isComma_of_isOperand (Expr.isOperand_atom _ _)] at hc
    cases hc
  | comma h hc => exact ⟨_, h, rfl⟩

/-- **A chain on top is the values of arguments that were consumed last.**  By induction on the
chain: its comma was consumed last, and below the comma lie the argument on its right and the rest
of the chain. -/
theorem Decoded.chained {start : σ} {args segment : List Atom} (hchain : Chained args segment) :
    ∀ {consumed stack : List Atom} {next : σ},
      Decoded registry start consumed (segment ++ stack) next →
      ∃ (earlier : List Atom) (source : σ) (arguments : Arguments) (values : List Float),
        Decoded registry start earlier stack source ∧ arguments.Placed earlier.isEmpty ∧
        arguments.eval registry source = (.ok values, next) ∧
        consumed = earlier ++ arguments.postOrder ∧ args = arguments.atoms values := by
  induction hchain with
  | one ha =>
    intro consumed stack next h
    obtain ⟨earlier, source, t, x, hearlier, hplaced, hvalue, rfl, rfl⟩ := h.top ha
    refine ⟨earlier, source, .one t, [x], hearlier, hplaced, ?_, rfl, rfl⟩
    rw [Arguments.eval, hvalue, andThen_ok]
  | @more args segment a c hchain ha hc ih =>
    intro consumed stack next h
    obtain ⟨consumed, hlast, rfl⟩ := h.top_comma hc
    obtain ⟨consumed, source, t, x, hrest, hplaced, hvalue, rfl, rfl⟩ := hlast.top ha
    obtain ⟨earlier, source', arguments, values, hearlier, hargs, hvalues, rfl, rfl⟩ := ih hrest
    have hfirst : (earlier ++ arguments.postOrder).isEmpty = false := by
      simp [arguments.postOrder_ne_nil]
    refine ⟨earlier, source', .more arguments ⟨c, isComma_iff.mp hc⟩ t, values ++ [x], hearlier,
      ⟨hargs, by rwa [hfirst] at hplaced⟩, ?_, by simp [Arguments.postOrder], ?_⟩
    · rw [Arguments.eval, hvalues, andThen_ok, hvalue, andThen_ok]
    · rw [Arguments.atoms_more (Arguments.length_eval hvalues)]

/-- **One step keeps the decoding.**  What the step takes off the stack is replaced by an expression
made of the expressions that it stands for. -/
theorem Decoded.step {start source next : σ} {consumed stack after : List Atom} {a : Atom}
    (h : Decoded registry start consumed stack source)
    (hstep : Evaluation.step registry a stack source = (.ok after, next)) :
    Decoded registry start (consumed ++ [a]) after next := by
  rcases step_eq_ok hstep with ⟨ha, rfl, rfl⟩ |
    ⟨hop, left, right, below, x, hleft, hright, rfl, rfl, hx, rfl⟩ |
    ⟨hf, args, below, x, hpop, hx, rfl⟩
  · rcases ha with ha | hc
    · exact h.operand (t := .operand ⟨a, ha⟩) trivial rfl
    · exact h.comma hc
  · obtain ⟨consumed, s, r, y, hrest, hrplaced, hr, rfl, rfl⟩ := h.top hright
    obtain ⟨earlier, s', l, z, hearlier, hlplaced, hl, rfl, rfl⟩ := hrest.top hleft
    have hfirst : (earlier ++ l.postOrder).isEmpty = false := by simp [l.postOrder_ne_nil]
    rw [hfirst] at hrplaced
    have hvalue : (Expr.binary ⟨a, hop⟩ l r).eval registry s' = (.ok x, next) := by
      rw [Expr.eval, hl, andThen_ok, hr, andThen_ok, ← Expr.value_atom hl, ← Expr.value_atom hr, hx]
    have htree := hearlier.operand (t := .binary ⟨a, hop⟩ l r) ⟨hlplaced, hrplaced⟩ hvalue
    rw [Expr.name_atom, Expr.name_atom, List.append_assoc, List.append_assoc,
      ← List.append_assoc l.postOrder]
    exact htree
  · rcases chained_of_popArguments hpop with ⟨rfl, rfl, rfl⟩ | ⟨segment, hchain, rfl⟩
    · obtain ⟨rfl, rfl⟩ := h.eq_nil
      have htree := Decoded.nil.operand (t := .nullary ⟨a, hf⟩) (x := x) rfl hx
      rw [List.map_nil, callName_nil]
      exact htree
    · obtain ⟨earlier, s, arguments, values, hearlier, hplaced, hvalues, rfl, rfl⟩ :=
        h.chained hchain
      rw [Arguments.values_atoms hvalues] at hx
      have hvalue : (Expr.call ⟨a, hf⟩ arguments).eval registry s = (.ok x, next) := by
        rw [Expr.eval, hvalues, andThen_ok, hx]
      have htree := hearlier.operand (t := .call ⟨a, hf⟩ arguments) hplaced hvalue
      rw [Arguments.callName_atoms a.name (Arguments.length_eval hvalues), List.append_assoc]
      exact htree

theorem Decoded.finalStack {start : σ} (atoms : List Atom) :
    ∀ {consumed stack after : List Atom} {source next : σ},
      Decoded registry start consumed stack source →
      finalStack registry atoms stack source = (.ok after, next) →
      Decoded registry start (consumed ++ atoms) after next := by
  induction atoms with
  | nil =>
    intro consumed stack after source next h hrun
    cases hrun
    simpa using h
  | cons a rest ih =>
    intro consumed stack after source next h hrun
    obtain ⟨stack', source', hstep, hrest⟩ := andThen_eq_ok hrun
    simpa using ih (h.step hstep) hrest

/-- **A run that leaves one operand has run the post-order of one expression.**  The decoding of a
stack with a single operand is a single expression, and nothing was consumed besides. -/
theorem exists_expr_of_finalStack {atoms : List Atom} {source next : σ} {a : Atom}
    (ha : a.isOperand = true) (h : finalStack registry atoms [] source = (.ok [a], next)) :
    ∃ (t : Expr) (x : Float), t.Placed true ∧ t.postOrder = atoms ∧
      t.eval registry source = (.ok x, next) ∧ a = t.atom x := by
  have hdecoded := Decoded.nil.finalStack atoms h
  obtain ⟨earlier, s, t, x, hearlier, hplaced, hvalue, hatoms, rfl⟩ := hdecoded.top ha
  obtain ⟨rfl, rfl⟩ := hearlier.eq_nil
  exact ⟨t, x, hplaced, by simpa using hatoms.symm, hvalue, rfl⟩

/-! ## 4. Both directions -/

theorem Expr.finalStack_eq {t : Expr} {atoms : List Atom} (hplaced : t.Placed true)
    (hatoms : t.postOrder = atoms) (source : σ) :
    finalStack registry atoms [] source =
      andThen (t.eval registry source) fun x source => (.ok [t.atom x], source) := by
  rw [← hatoms]
  exact t.finalStack_postOrder source hplaced (fun _ => rfl)

variable (registry) in
/-- The run of the post-order of an expression answers with the atom of its value, and fails as the
value does. -/
theorem Expr.evaluate_postOrder {t : Expr} {atoms : List Atom} (hplaced : t.Placed true)
    (hatoms : t.postOrder = atoms) (source : σ) :
    (evaluate registry atoms source).outcome = (t.eval registry source).1.map (t.atom ·) ∧
      (evaluate registry atoms source).source = (t.eval registry source).2 := by
  obtain ⟨houtcome, hsource⟩ := outcome_runFrom registry atoms [] source
  rw [evaluate, houtcome, hsource, Expr.finalStack_eq hplaced hatoms]
  rcases t.eval registry source with ⟨e | x, next⟩
  · exact ⟨rfl, rfl⟩
  · exact ⟨answer_singleton (t.isOperand_atom x), rfl⟩

/-- **A run accepts exactly the post-orders of expressions.**  It succeeds if and only if the atoms
are the post-order of an expression that has a value; it then answers with the atom of that value,
which is named by the written form, and the random source has advanced as in the value.  The failure
of an expression is the failure of the run of its post-order. -/
theorem evaluate_iff_postOrder (registry : Registry σ) (atoms : List Atom) (source : σ) :
    (∀ (a : Atom) (next : σ),
      ((evaluate registry atoms source).outcome = .ok a ∧
        (evaluate registry atoms source).source = next) ↔
      ∃ (t : Expr) (x : Float), t.Placed true ∧ t.postOrder = atoms ∧
        t.eval registry source = (.ok x, next) ∧ a = t.atom x) ∧
    (∀ t : Expr, t.Placed true → t.postOrder = atoms →
      (evaluate registry atoms source).outcome = (t.eval registry source).1.map (t.atom ·) ∧
        (evaluate registry atoms source).source = (t.eval registry source).2) ∧
    ∀ (t : Expr) (x : Float) (next : σ), t.eval registry source = (.ok x, next) →
      (t.atom x).value = x ∧ (t.atom x).name = t.render := by
  refine ⟨?_, ?_, ?_⟩
  · intro a next
    constructor
    · intro hrun
      obtain ⟨hrun, ha⟩ := evaluate_ok_iff.mp hrun
      exact exists_expr_of_finalStack ha hrun
    · rintro ⟨t, x, hplaced, hatoms, hvalue, rfl⟩
      obtain ⟨houtcome, hsource⟩ := Expr.evaluate_postOrder registry hplaced hatoms source
      rw [houtcome, hsource, hvalue]
      exact ⟨rfl, rfl⟩
  · intro t hplaced hatoms
    exact Expr.evaluate_postOrder registry hplaced hatoms source
  · intro t x next hvalue
    exact ⟨Expr.value_atom hvalue, t.name_atom x⟩

end Reckoner
