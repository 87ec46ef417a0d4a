/-
# Traces are formulas

The trace of an evaluation is the written form of the expression that was computed, with a pair of
brackets around every operation.  Whatever formula it came from, the trace is a formula of the
grammar and has the same expression (`Expr.exists_formula`): its leaves are tokens that were read
before, completed literals are literals, and a minus in front of a literal stands where an operand
is due.  So evaluating the trace computes the same expression again (`Session.evaluate_trace`).
-/
import Reckoner.Proofs.Builtins
import Reckoner.Proofs.EndToEnd

namespace Reckoner

/-! ## 1. Atoms of tokens -/

namespace Token

variable {lexicon : Lexicon}

theorem kind_name {w : Word} {kind : Kind} (h : ((name w).atom lexicon).kind = kind) :
    kind = .value ∨ kind = .var := by
  obtain ⟨x, hx | hx⟩ := lexicon.operand_cases w.name <;> rw [Token.atom, hx] at h
  · exact Or.inl h.symm
  · exact Or.inr h.symm

theorem eq_operator {t : Token} (h : (t.atom lexicon).kind = .operator) :
    ∃ c : Char, t.atom lexicon = .operator c := by
  cases t with
  | operator c => exact ⟨c, rfl⟩
  | name w => rcases kind_name h with h | h <;> cases h
  | _ => cases h

theorem eq_comma {t : Token} (h : (t.atom lexicon).kind = .comma) : t.atom lexicon = .comma := by
  cases t with
  | comma => rfl
  | name w => rcases kind_name h with h | h <;> cases h
  | _ => cases h

theorem eq_function {t : Token} (h : (t.atom lexicon).kind = .function) :
    ∃ w : Word, t.atom lexicon = .function w.name := by
  cases t with
  | function w => exact ⟨w, rfl⟩
  | name w => rcases kind_name h with h | h <;> cases h
  | _ => cases h

end Token

/-! ## 2. From the expression back to a formula -/

/-- A formula that holds together holds together more loosely. -/
theorem Formula.exists_raised {m n : Nat} (hmn : m ≤ n) (e : Formula n) :
    ∃ e' : Formula m, (∀ separator, e'.text separator = e.text separator) ∧
      ∀ lexicon, e'.tree lexicon = e.tree lexicon := by
  induction hmn with
  | refl => exact ⟨e, fun _ => rfl, fun _ => rfl⟩
  | step _ ih =>
    obtain ⟨e', htext, htree⟩ := ih e.raise
    exact ⟨e', htext, htree⟩

theorem Word.toList_name (w : Word) : w.name.toList = w.text := String.toList_ofList

theorem Op.toList_name (op : Op) : op.atom.val.name.toList = [op.char] := by
  simp [Op.atom, Atom.operator, Atom.named]

/-- An operator that was read and has a known name is the known one.  Operators in general could
carry a number besides their names; those that were read do not. -/
theorem Op.atom_eq {op : Op} {a : AtomOf .operator} {c : Char} (hc : a.val = .operator c)
    (hname : a.val.name = op.char.toString) : op.atom = a := by
  refine Subtype.ext ?_
  rw [hc] at hname ⊢
  have hchars : c.toString.toList = op.char.toString.toList := congrArg String.toList hname
  have hchar : c = op.char := by simpa using hchars
  rw [hchar]
  rfl

/-- The formula is a written form of the expression.  It has the expression as its tree, and is
spelled as the expression is rendered. -/
structure Formula.Writes (lexicon : Lexicon) {n : Nat} (e : Formula n) (t : Expr) : Prop where
  tree_eq : e.tree lexicon = t
  text_eq : e.text lexicon.separator = t.render.toList

structure FormulaArguments.Writes (lexicon : Lexicon) (e : FormulaArguments) (t : Arguments) :
    Prop where
  tree_eq : e.tree lexicon = t
  text_eq : e.text lexicon.separator = t.render.toList

theorem Formula.Writes.lower {lexicon : Lexicon} {m n : Nat} {e : Formula n} {t : Expr}
    (h : e.Writes lexicon t) (hmn : m ≤ n) : ∃ e' : Formula m, e'.Writes lexicon t := by
  obtain ⟨e', htext, htree⟩ := e.exists_raised hmn
  exact ⟨e', by rw [htree, h.tree_eq], by rw [htext, h.text_eq]⟩

section Rebuild

variable {lexicon : Lexicon}

/-- Every atom is one that the lexicon gives to a token.  The atoms of a formula are of this kind,
and so an expression that was computed from them can be written as a formula. -/
def AllTokens (lexicon : Lexicon) (atoms : List Atom) : Prop :=
  ∀ a ∈ atoms, ∃ k : Token, a = k.atom lexicon

theorem AllTokens.left {u v : List Atom} (h : AllTokens lexicon (u ++ v)) :
    AllTokens lexicon u := by
  intro a ha
  exact h a (List.mem_append_left v ha)

theorem AllTokens.right {u v : List Atom} (h : AllTokens lexicon (u ++ v)) :
    AllTokens lexicon v := by
  intro a ha
  exact h a (List.mem_append_right u ha)

theorem exists_formula_of_operand {a : OperandAtom} (h : ∃ k : Token, a.val = k.atom lexicon) :
    ∃ e : Formula 4, e.Writes lexicon (.operand a) := by
  obtain ⟨k, hk⟩ := h
  obtain ⟨a, ha⟩ := a
  subst hk
  cases k with
  | literal l =>
    refine ⟨.literal l.complete, ?_, ?_⟩
    · simp only [Formula.tree, l.name_complete, l.value_complete]
      rfl
    · rw [Formula.text, Expr.render]
      exact String.toList_ofList.symm
  | name w =>
    refine ⟨.name w, rfl, ?_⟩
    obtain ⟨x, hx | hx⟩ := lexicon.operand_cases w.name
    · simp only [Formula.text, Expr.render, Token.atom, hx]
      exact String.toList_ofList.symm
    · simp only [Formula.text, Expr.render, Token.atom, hx]
      exact String.toList_ofList.symm
  | _ => cases ha

mutual

/-- **A meaningful expression over tokens is that of a formula**, its written form.  By recursion on
the expression; every operation is put in brackets, so it is a formula of strength 4. -/
theorem Expr.exists_formula : ∀ {t : Expr}, t.Meaningful → AllTokens lexicon t.postOrder →
    ∃ e : Formula 4, e.Writes lexicon t
  | .operand a, _, htokens => exists_formula_of_operand (htokens a.val List.mem_cons_self)
  | .binary op left right, hmeaning, htokens => by
    obtain ⟨⟨o, hname⟩, hleft, hright⟩ := hmeaning
    obtain ⟨l, hl⟩ := Expr.exists_formula hleft htokens.left.left
    obtain ⟨r, hr⟩ := Expr.exists_formula hright htokens.left.right
    obtain ⟨k, hk⟩ := htokens.right op.val List.mem_cons_self
    obtain ⟨c, hc⟩ := Token.eq_operator (hk ▸ op.property)
    obtain ⟨l, hl⟩ := hl.lower (m := o.level) (by have := o.level_le; omega)
    obtain ⟨r, hr⟩ := hr.lower (m := o.level + 1) (by have := o.level_le; omega)
    have hop : o.atom = op := o.atom_eq (hk.trans hc) hname
    obtain ⟨e, htext, htree⟩ := (Formula.binary o l r).exists_raised (m := 1) o.level_le.1
    refine ⟨.group e, ?_, ?_⟩
    · rw [Formula.tree, htree, Formula.tree, hl.tree_eq, hr.tree_eq, hop]
    · rw [Formula.text, htext, Formula.text, hl.text_eq, hr.text_eq, Expr.render, ← hop]
      simp [String.toList_append, o.toList_name]
  | .call f arguments, hmeaning, htokens => by
    obtain ⟨e, he⟩ := Arguments.exists_formula hmeaning htokens.left
    obtain ⟨k, hk⟩ := htokens.right f.val List.mem_cons_self
    obtain ⟨w, hw⟩ := Token.eq_function (hk ▸ f.property)
    have hf : (⟨.function w.name, rfl⟩ : AtomOf .function) = f := Subtype.ext (by rw [hk, hw])
    refine ⟨.call w e, ?_, ?_⟩
    · rw [Formula.tree, he.tree_eq, hf]
    · rw [Formula.text, he.text_eq, Expr.render, ← hf, ← w.toList_name]
      simp [String.toList_append, Atom.function, Atom.named]

theorem Arguments.exists_formula : ∀ {arguments : Arguments}, arguments.Meaningful →
    AllTokens lexicon arguments.postOrder →
      ∃ e : FormulaArguments, e.Writes lexicon arguments
  | .one t, hmeaning, htokens => by
    obtain ⟨e, he⟩ := Expr.exists_formula hmeaning htokens
    obtain ⟨e, he⟩ := he.lower (m := 1) (by decide)
    exact ⟨.one e, by rw [FormulaArguments.tree, he.tree_eq], he.text_eq⟩
  | .more earlier comma last, hmeaning, htokens => by
    obtain ⟨u, hu⟩ := Arguments.exists_formula hmeaning.1 htokens.left.left
    obtain ⟨e, he⟩ := Expr.exists_formula hmeaning.2 htokens.left.right
    obtain ⟨e, he⟩ := he.lower (m := 1) (by decide)
    obtain ⟨k, hk⟩ := htokens.right comma.val List.mem_cons_self
    have hcomma : (⟨.comma, rfl⟩ : AtomOf .comma) = comma :=
      Subtype.ext (by rw [hk, Token.eq_comma (hk ▸ comma.property)])
    refine ⟨.more u e, ?_, ?_⟩
    · rw [FormulaArguments.tree, hu.tree_eq, he.tree_eq, hcomma]
    · rw [FormulaArguments.text, hu.text_eq, he.text_eq, Arguments.render]
      simp [String.toList_append]

end

end Rebuild

/-! ## 3. Evaluating a trace -/

section Evaluate

variable {σ : Type} [Chance.Source σ]

theorem Session.Computes.exists_formula {s : Session σ} (hsep : Separates s.config.separator)
    {formula : String} {x : Float} {atoms : List Atom} {t : Expr}
    (h : s.Computes formula x atoms t) : ∃ e : Formula 4, e.Writes s.lexicon t := by
  have htokens : AllTokens s.lexicon t.postOrder := by
    intro a ha
    rw [h.postOrder_eq] at ha
    exact h.accepts.reads.exists_token hsep h.accepts.alphabet a (mem_of_mem_postOrder ha)
  exact Expr.exists_formula h.meaningful htokens

/-- **A trace evaluates to what it was the trace of**, and is its own trace: without a limit on the
number of atoms, and with a separator that is its own upper case, the trace of a formula that has an
answer has the same answer from the same random source and the same variables. -/
theorem Session.evaluate_trace {s again : Session σ} (hcheck : s.config.check = .ok ())
    (hunbounded : s.config.maxAtoms = none)
    (hupper : Text.upperChar s.config.separator = [s.config.separator])
    (hconfig : again.config = s.config) (hbindings : again.bindings = s.bindings)
    (hsource : again.source = s.source) {formula trace : String} {x : Float}
    (houtcome : (s.evaluate formula).outcome = .ok x)
    (htrace : (s.evaluate formula).session.trace = some trace) :
    (again.evaluate trace).outcome = .ok x ∧
      (again.evaluate trace).session.trace = some trace := by
  have hsep := Config.separates hcheck
  have hlexicon : again.lexicon = s.lexicon := by rw [lexicon, lexicon, hconfig, hbindings]
  obtain ⟨atoms, t, hcomputes⟩ := Session.exists_computes houtcome
  obtain ⟨e, he⟩ := hcomputes.exists_formula hsep
  obtain ⟨hkind, hname⟩ := (trace_eq_some_iff hcomputes.ended.2.2 trace).mp htrace
  rw [Expr.name_atom] at hname
  have htext : trace.toList = e.text again.config.separator := by
    rw [hconfig, ← hname]
    exact he.text_eq.symm
  have hnormal : normalize again.config.separator trace.toList = e.text again.config.separator := by
    rw [htext]
    exact normalize_eq_self (by rwa [hconfig]) (by rwa [hconfig]) (e.inAlphabet_text _)
  have hroom : ∀ most ∈ again.config.maxAtoms, (e.atoms again.lexicon).length ≤ most := by
    rw [hconfig, hunbounded]
    simp
  obtain ⟨-, hagain, houtcome', -⟩ := e.leaves (by rwa [hconfig]) hnormal hroom
  rw [hlexicon, hsource, he.tree_eq, hcomputes.value] at hagain houtcome'
  constructor
  · exact houtcome'
  · exact (trace_eq_some_iff hagain.2.2 trace).mpr ⟨hkind, (t.name_atom x).trans hname⟩

/-- A literal that ends with the separator, less a negative one: both stand completed in the
trace. -/
theorem Session.evaluate_trace_difference :
    let s : Session Chance.Cycle :=
      Session.fresh { Config.standard with maxAtoms := none } (.ofList [])
    s.config.check = .ok () ∧ s.config.maxAtoms = none ∧
    Text.upperChar s.config.separator = [s.config.separator] ∧
    (s.evaluate "3.--2").outcome = .ok 5 ∧
    (s.evaluate "3.--2").session.trace = some "(3.0--2)" ∧
    (s.evaluate "(3.0--2)").outcome = .ok 5 ∧
    (s.evaluate "(3.0--2)").session.trace = some "(3.0--2)" := by
  intro s
  have hcheck : s.config.check = .ok () := rfl
  have hupper : Text.upperChar s.config.separator = [s.config.separator] := by decide
  let three : Literal := ⟨false, ['3'], some [], by decide, by decide, by decide⟩
  let two : Literal := ⟨true, ['2'], none, by decide, by decide, by decide⟩
  let e : Formula 1 :=
    .binary .minus (Formula.literal three).raise.raise.raise (Formula.literal two).raise.raise
  have hnormal : normalize s.config.separator "3.--2".toList = e.text s.config.separator := by
    decide
  obtain ⟨-, hended, houtcome, -⟩ := e.leaves (Config.separates hcheck) hnormal (by simp [s, fresh])
  have hdifference : three.value - two.value = 5 := by decide +kernel
  have hvalue : ((e.tree s.lexicon).eval Builtin.registry s.source).1 = .ok 5 :=
    congrArg Except.ok hdifference
  rw [hvalue] at hended houtcome
  have htrace : (s.evaluate "3.--2").session.trace = some "(3.0--2)" :=
    (trace_eq_some_iff hended.2.2 _).mpr ⟨rfl, rfl⟩
  exact ⟨hcheck, rfl, hupper, houtcome, htrace,
    evaluate_trace hcheck rfl hupper rfl rfl rfl houtcome htrace⟩

end Evaluate

end Reckoner
