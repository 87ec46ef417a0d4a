/-
# Formulas from text to answer

A formula that is derived in the grammar and spelled in any way is evaluated as its expression is:
what is left in post-order is the post-order of the expression, the outcome is the value of the
expression or its first failure, and the random source is drawn from in that order.

The text is read as the atoms of the derivation, the operator stack groups them as the derivation
does, and the run computes the value of what it is given; `Formula.accepts` and `Formula.leaves` put
these together.
-/
import Reckoner.Proofs.Decoding
import Reckoner.Proofs.Formula
import Reckoner.Proofs.Stages

namespace Reckoner

variable {σ : Type}

/-- A formula that fits is accepted, however it is written before it is normalised. -/
theorem Formula.accepts {s : Session σ} (hsep : Separates s.config.separator) {n : Nat}
    (e : Formula n) {formula : String}
    (htext : normalize s.config.separator formula.toList = e.text s.config.separator)
    (hroom : ∀ most ∈ s.config.maxAtoms, (e.atoms s.lexicon).length ≤ most) :
    s.Accepts formula (e.atoms s.lexicon) where
  alphabet := by
    rw [htext]
    exact e.inAlphabet_text s.config.separator
  reads := by
    have hreads : s.lexicon.Reads true (e.text s.config.separator ++ [])
        (e.atoms s.lexicon ++ []) := e.reads hsep (by simp [EndsFormula]) .done
    rw [List.append_nil, List.append_nil] at hreads
    rw [htext]
    exact hreads
  room := hroom

variable [Chance.Source σ]

theorem Formula.leaves {s : Session σ} (hsep : Separates s.config.separator) {n : Nat}
    (e : Formula n) {formula : String}
    (htext : normalize s.config.separator formula.toList = e.text s.config.separator)
    (hroom : ∀ most ∈ s.config.maxAtoms, (e.atoms s.lexicon).length ≤ most) :
    (s.evaluate formula).session.arranged.toList = (e.tree s.lexicon).postOrder ∧
    (s.evaluate formula).session.Ended
      (((e.tree s.lexicon).eval Builtin.registry s.source).1.map ((e.tree s.lexicon).atom ·)) ∧
    (s.evaluate formula).outcome = ((e.tree s.lexicon).eval Builtin.registry s.source).1 ∧
    (s.evaluate formula).session.source =
      ((e.tree s.lexicon).eval Builtin.registry s.source).2 := by
  have h := (e.accepts hsep htext hroom).leaves
  obtain ⟨houtcome, hsource⟩ := Expr.evaluate_postOrder Builtin.registry
    (e.placed s.lexicon true) (e.postOrder_atoms s.lexicon).symm s.source
  refine ⟨?_, ?_, ?_, ?_⟩
  · rw [h.arranged, e.postOrder_atoms]
  · exact houtcome ▸ h.ended
  · rw [h.outcome, houtcome]
    -- the number of the atom that is left is the value
    rcases hvalue : (e.tree s.lexicon).eval Builtin.registry s.source with ⟨e | x, next⟩
    · rfl
    · exact congrArg Except.ok (Expr.value_atom hvalue)
  · rw [h.source, hsource]

/-- **A formula is evaluated as its derivation says.**  Whatever was evaluated before and however
the formula is spelled, its post-order is that of its expression, and its outcome and its use of the
random source are those of the expression's value. -/
theorem Session.evaluate_eq_eval (s : Session σ) (hcheck : s.config.check = .ok ())
    (e : Formula 1) (formula : String)
    (hspells : Spells s.config.separator formula.toList (e.text s.config.separator))
    (hroom : ∀ most ∈ s.config.maxAtoms, (e.atoms s.lexicon).length ≤ most) :
    (s.evaluate formula).session.arranged.toList = (e.tree s.lexicon).postOrder ∧
    (s.evaluate formula).outcome = ((e.tree s.lexicon).eval Builtin.registry s.source).1 ∧
    (s.evaluate formula).session.source =
      ((e.tree s.lexicon).eval Builtin.registry s.source).2 := by
  have hsep := Config.separates hcheck
  have htext := normalize_of_spells hsep hspells (e.inAlphabet_text s.config.separator)
  obtain ⟨harranged, -, houtcome, hsource⟩ := e.leaves hsep htext hroom
  exact ⟨harranged, houtcome, hsource⟩

/-- `x` times a call of `MAX`, spelled with a comma, small letters and a space. -/
theorem Session.evaluate_eq_eval_max :
    let s : Session Chance.Cycle := (Session.fresh .standard (.ofList [0.5])).bind "x" 4
    let x : Formula 4 := .name ⟨'X', [], by decide, by decide⟩
    let low : Formula 4 := .literal ⟨true, ['1'], some ['5'], by decide, by decide, by decide⟩
    let max : Formula 4 := .call ⟨'M', ['A', 'X'], by decide, by decide⟩
      (.more (.one x.raise.raise.raise) low.raise.raise.raise)
    let e : Formula 1 := (Formula.binary .times x.raise.raise max.raise).raise
    s.config.check = .ok () ∧
    Spells s.config.separator "x*max(x; -1,5)".toList (e.text s.config.separator) ∧
    (e.atoms s.lexicon).length = 8 ∧
    ((e.tree s.lexicon).postOrder.map Atom.name) = ["X", "X", "-1.5", ";", "MAX", "*"] ∧
    (s.evaluate "x*max(x; -1,5)").session.arranged.toList = (e.tree s.lexicon).postOrder ∧
    (s.evaluate "x*max(x; -1,5)").outcome = ((e.tree s.lexicon).eval Builtin.registry s.source).1 ∧
    (s.evaluate "x*max(x; -1,5)").session.source =
      ((e.tree s.lexicon).eval Builtin.registry s.source).2 := by
  intro s x low max e
  have hcheck : s.config.check = .ok () := rfl
  have hspells : Spells s.config.separator "x*max(x; -1,5)".toList (e.text s.config.separator) :=
    .letter (by decide) rfl <| .letter (by decide) rfl <| .letter (by decide) rfl <|
    .letter (by decide) rfl <| .letter (by decide) rfl <| .letter (by decide) rfl <|
    .letter (by decide) rfl <| .letter (by decide) rfl <| .space <| .letter (by decide) rfl <|
    .letter (by decide) rfl <| .point (by decide) <| .letter (by decide) rfl <|
    .letter (by decide) rfl .done
  have hlength : (e.atoms s.lexicon).length = 8 := by decide
  have hroom : ∀ most ∈ s.config.maxAtoms, (e.atoms s.lexicon).length ≤ most := by
    intro most hmost
    cases hmost
    rw [hlength]
    decide
  exact ⟨hcheck, hspells, hlength, by decide,
    s.evaluate_eq_eval hcheck e "x*max(x; -1,5)" hspells hroom⟩

end Reckoner
