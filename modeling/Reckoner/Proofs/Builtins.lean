/-
# What can have a value

Every built-in function takes at least one argument (`Builtin.minArgs_pos`), so that a call without
arguments never succeeds, whatever it is named (`Builtin.needsArguments`).  An expression that has a
value therefore has arguments for all its calls, and only operators that exist
(`Expr.meaningful_of_eval`).

All functions but `RND` are computed from their arguments alone (`Builtin.eq_random_or_isComputed`),
and none fails once it is called (`Builtin.error_call`).
-/
import Reckoner.Callable.Builtin
import Reckoner.Proofs.Formula

namespace Reckoner

variable {σ : Type}

/-! ## 1. Calls without arguments -/

namespace Registry

/-- No call without arguments succeeds, and none draws. -/
def NeedsArguments (r : Registry σ) : Prop :=
  ∀ (name : String) (source : σ), ∃ e, r.call name [] source = (.error e, source)

/-- A registered name finds what was there before or one of the functions that were added, under
its own name. -/
theorem mem_of_get?_foldl {functions : List (Callable σ)} {name : String} {c : Callable σ} :
    ∀ {r : Registry σ}, (functions.foldl register r).get? name = some c →
      (c ∈ functions ∧ Text.uppercase c.name = Text.uppercase name) ∨ r.get? name = some c := by
  induction functions with
  | nil =>
    intro r h
    exact Or.inr h
  | cons f rest ih =>
    intro r h
    rcases ih h with ⟨hrest, hname⟩ | hfirst
    · exact Or.inl ⟨List.mem_cons_of_mem _ hrest, hname⟩
    · rw [register, NameTable.get?_insert] at hfirst
      split at hfirst
      · rename_i hname
        cases hfirst
        exact Or.inl ⟨List.mem_cons_self, hname.symm⟩
      · exact Or.inr hfirst

theorem mem_of_get?_ofList {functions : List (Callable σ)} {name : String} {c : Callable σ}
    (h : (ofList functions).get? name = some c) :
    c ∈ functions ∧ Text.uppercase c.name = Text.uppercase name := by
  rcases mem_of_get?_foldl h with h | h
  · exact h
  · cases h

end Registry

namespace Builtin

variable [Chance.Source σ]

/-- The built-in functions, in the order in which they are registered. -/
def functions : List (Callable σ) :=
  elementary ++ [random] ++ trigonometric ++ boundsAndPowers ++ conversions ++ signTests

theorem mem_of_get? {name : String} {c : Callable σ} (h : registry.get? name = some c) :
    c ∈ functions ∧ Text.uppercase c.name = Text.uppercase name := Registry.mem_of_get?_ofList h

/-- **Every built-in function takes at least one argument.**  This is why a call on the empty stack,
which has no arguments to take, never succeeds. -/
theorem minArgs_pos {name : String} {c : Callable σ} (h : registry.get? name = some c) :
    1 ≤ c.minArgs := by
  have hall : (functions : List (Callable σ)).all (fun c => decide (1 ≤ c.minArgs)) = true := rfl
  exact of_decide_eq_true (List.all_eq_true.mp hall c (mem_of_get? h).1)

/-- **A call of a built-in function needs arguments.** -/
theorem needsArguments : (registry (σ := σ)).NeedsArguments := by
  intro name source
  cases hget : (registry (σ := σ)).get? name with
  | none => exact ⟨.undefinedFunction name, by simp [Registry.call, hget]⟩
  | some c =>
    have hpos := minArgs_pos hget
    have hrefused : c.accepts ([] : List Float).length = false := by
      simp [Callable.accepts]
      omega
    exact ⟨.arityMismatch name, Registry.call_of_not_accepts hget hrefused⟩

end Builtin

/-! ## 2. What functions are computed from -/

/-- The function is computed from its arguments alone.  It takes any source, draws nothing and never
fails. -/
def Callable.IsComputed (c : Callable σ) : Prop :=
  ∃ f : List Float → Float, ∀ (args : List Float) (source : σ),
    c.run args source = (.ok (f args), source)

theorem Callable.isComputed_unary (name : String) (f : Float → Float) :
    (unary name f : Callable σ).IsComputed := ⟨_, fun _ _ => rfl⟩

theorem Callable.isComputed_binary (name : String) (f : Float → Float → Float) :
    (binary name f : Callable σ).IsComputed := ⟨_, fun _ _ => rfl⟩

namespace Builtin

theorem isComputed_logarithm :
    (⟨"LOG", 1, some 2, fun args source => (.ok (logarithm args), source), false⟩ :
      Callable σ).IsComputed := ⟨logarithm, fun _ _ => rfl⟩

variable [Chance.Source σ]

/-- **All functions but `RND` are computed from their arguments.**  They are made by few
constructions, and a lemma about each of these covers the whole list. -/
theorem eq_random_or_isComputed {c : Callable σ}
    (h : c ∈ functions) : c = random ∨ c.IsComputed := by
  simp only [functions, List.mem_append] at h
  rcases h with ((((h | h) | h) | h) | h) | h
  · have hall : ∀ c ∈ (elementary : List (Callable σ)), c.IsComputed := by
      simp [elementary, Callable.isComputed_unary, isComputed_logarithm]
    exact Or.inr (hall c h)
  · exact Or.inl (List.mem_singleton.mp h)
  · have hall : ∀ c ∈ (trigonometric : List (Callable σ)), c.IsComputed := by
      simp [trigonometric, Callable.isComputed_unary]
    exact Or.inr (hall c h)
  · have hall : ∀ c ∈ (boundsAndPowers : List (Callable σ)), c.IsComputed := by
      simp [boundsAndPowers, Callable.isComputed_binary]
    exact Or.inr (hall c h)
  · have hall : ∀ c ∈ (conversions : List (Callable σ)), c.IsComputed := by
      simp [conversions, Callable.isComputed_unary]
    exact Or.inr (hall c h)
  · have hall : ∀ c ∈ (signTests : List (Callable σ)), c.IsComputed := by
      simp [signTests, Callable.isComputed_unary]
    exact Or.inr (hall c h)

/-- A call fails only for want of the function, or for a wrong number of arguments.  No function
looks at its arguments and refuses them. -/
theorem error_call {name : String} {args : List Float} {source : σ} {e : FormulaError}
    (h : (registry.call name args source).1 = .error e) :
    ((registry (σ := σ)).get? name = none ∧ e = .undefinedFunction name) ∨
      ((registry (σ := σ)).get? name ≠ none ∧ e = .arityMismatch name) := by
  unfold Registry.call at h
  split at h
  · rename_i hget
    cases h
    exact Or.inl ⟨hget, rfl⟩
  · rename_i c hget
    split at h
    · rcases eq_random_or_isComputed (mem_of_get? hget).1 with rfl | ⟨f, hf⟩
      · cases h
      · rw [hf] at h
        cases h
    · cases h
      exact Or.inr ⟨by simp [hget], rfl⟩

end Builtin

/-! ## 3. Expressions that have a value -/

/-- An operator that has a value is one of the known ones. -/
theorem exists_op_of_applyOperator {op : String} {x y z : Float}
    (h : Evaluation.applyOperator op x y = .ok z) : ∃ o : Op, op = o.char.toString := by
  unfold Evaluation.applyOperator at h
  split at h
  · rename_i hop
    exact ⟨.power, hop⟩
  · split at h
    · rename_i hop
      exact ⟨.divide, hop⟩
    · split at h
      · rename_i hop
        exact ⟨.times, hop⟩
      · split at h
        · rename_i hop
          exact ⟨.modulo, hop⟩
        · split at h
          · rename_i hop
            exact ⟨.plus, hop⟩
          · split at h
            · rename_i hop
              exact ⟨.minus, hop⟩
            · cases h

mutual

/-- All operators are known, and all calls have arguments. -/
def Expr.Meaningful : Expr → Prop
  | .operand _ => True
  | .binary op left right =>
    (∃ o : Op, op.val.name = o.char.toString) ∧ left.Meaningful ∧ right.Meaningful
  | .nullary _ => False
  | .call _ arguments => arguments.Meaningful

def Arguments.Meaningful : Arguments → Prop
  | .one t => t.Meaningful
  | .more earlier _ last => earlier.Meaningful ∧ last.Meaningful

end

section Meaningful

variable {registry : Registry σ}

mutual

/-- **An expression that has a value is meaningful**, if no call without arguments succeeds.  An
operator without a meaning fails whatever its operands are, so none of them can be in it. -/
theorem Expr.meaningful_of_eval (hnil : registry.NeedsArguments) : ∀ {t : Expr} {source next : σ}
    {x : Float}, t.eval registry source = (.ok x, next) → t.Meaningful
  | .operand _, _, _, _, _ => trivial
  | .binary op left right, source, next, x, h => by
    obtain ⟨y, s, hleft, h⟩ := andThen_eq_ok (by simpa only [Expr.eval] using h)
    obtain ⟨z, s', hright, h⟩ := andThen_eq_ok h
    exact ⟨exists_op_of_applyOperator (Prod.mk.inj h).1,
      Expr.meaningful_of_eval hnil hleft, Expr.meaningful_of_eval hnil hright⟩
  | .nullary f, source, next, x, h => by
    obtain ⟨e, hfail⟩ := hnil f.val.name source
    rw [Expr.eval, hfail] at h
    cases h
  | .call f arguments, source, next, x, h => by
    obtain ⟨xs, s, harguments, h⟩ := andThen_eq_ok (by simpa only [Expr.eval] using h)
    exact Arguments.meaningful_of_eval hnil harguments

theorem Arguments.meaningful_of_eval (hnil : registry.NeedsArguments) : ∀ {arguments : Arguments}
    {source next : σ} {values : List Float},
      arguments.eval registry source = (.ok values, next) → arguments.Meaningful
  | .one t, source, next, values, h => by
    obtain ⟨x, s, hx, h⟩ := andThen_eq_ok (by simpa only [Arguments.eval] using h)
    exact Expr.meaningful_of_eval hnil hx
  | .more earlier _ last, source, next, values, h => by
    obtain ⟨xs, s, hxs, h⟩ := andThen_eq_ok (by simpa only [Arguments.eval] using h)
    obtain ⟨x, s', hx, h⟩ := andThen_eq_ok h
    exact ⟨Arguments.meaningful_of_eval hnil hxs, Expr.meaningful_of_eval hnil hx⟩

end

end Meaningful

end Reckoner
