/-
# Another separator in the names of atoms

The decimal separator stands in the names of numbers and of what is computed from them, and an
operator may be a separator by itself.  Here one separator is exchanged for another in the names of
all atoms.  Separators are none of the characters that the later stages look for, and so the
exchange commutes with the post-order (`postOrder_exchange`) and with a run
(`Evaluation.runFrom_exchange`): kinds and numbers stay, and the only failure that shows the
separator is that it has no meaning as an operator.
-/
import Reckoner.PostOrder
import Reckoner.Proofs.Builtins

namespace Reckoner

/-! ## 1. Names -/

/-- `new` in the place of `old`; other characters stay. -/
def exchangeChar (old new c : Char) : Char := if c = old then new else c

def exchangeName (old new : Char) (name : String) : String := name.map (exchangeChar old new)

def Atom.exchange (old new : Char) (a : Atom) : Atom :=
  { a with name := exchangeName old new a.name }

/-- The failure that the separator has no meaning as an operator is exchanged for the same failure
of the other separator. -/
def FormulaError.exchange (old new : Char) : FormulaError → FormulaError
  | .unknownOperator op => .unknownOperator (if op = old.toString then new.toString else op)
  | e => e

/-- An outcome with the separator exchanged in its failure, and `f` applied to what it gives. -/
def exchangeOutcome {α β : Type} (old new : Char) (f : α → β) :
    Except FormulaError α → Except FormulaError β
  | .ok a => .ok (f a)
  | .error e => .error (e.exchange old new)

section Names

variable {old new : Char}

theorem exchangeChar_eq_iff {c d : Char} (hold : d ≠ old) (hnew : d ≠ new) :
    exchangeChar old new c = d ↔ c = d := by
  unfold exchangeChar
  split
  · rename_i hc
    constructor
    · intro h
      exact absurd h.symm hnew
    · intro h
      exact absurd (h.symm.trans hc) hold
  · exact Iff.rfl

/-- A character of formulas that is neither a letter, a digit nor a separator comes from itself. -/
theorem exchangeChar_eq_mark (hold : Separates old) (hnew : Separates new) {c d : Char}
    (hd : d ∈ Config.marks) : exchangeChar old new c = d ↔ c = d := by
  apply exchangeChar_eq_iff
  · exact fun h => hold.not_mem_marks (h ▸ hd)
  · exact fun h => hnew.not_mem_marks (h ▸ hd)

theorem toList_exchangeName (name : String) :
    (exchangeName old new name).toList = name.toList.map (exchangeChar old new) :=
  String.toList_map

theorem exchangeName_eq_self {name : String} (h : old ∉ name.toList) :
    exchangeName old new name = name := by
  have hsame : ∀ c ∈ name.toList, exchangeChar old new c = id c := by
    intro c hc
    have hne : c ≠ old := by
      rintro rfl
      exact h hc
    exact if_neg hne
  rw [← String.toList_inj, toList_exchangeName, List.map_congr_left hsame, List.map_id]

/-- A name made of marks comes from itself. -/
theorem exchangeName_eq_mark (hold : Separates old) (hnew : Separates new) {name mark : String}
    (hmark : mark.toList.all Config.marks.contains = true) :
    exchangeName old new name = mark ↔ name = mark := by
  rw [← String.toList_inj, ← String.toList_inj, toList_exchangeName]
  revert hmark
  generalize name.toList = chars
  generalize mark.toList = marks
  intro hmark
  induction chars generalizing marks with
  | nil => rfl
  | cons c rest ih =>
    cases marks with
    | nil => simp
    | cons d marks =>
      rw [List.all_cons, Bool.and_eq_true, List.contains_iff_mem] at hmark
      rw [List.map_cons, List.cons.injEq, List.cons.injEq,
        exchangeChar_eq_mark hold hnew hmark.1, ih marks hmark.2]

theorem exchangeName_mark (hold : Separates old) (hnew : Separates new) {mark : String}
    (hmark : mark.toList.all Config.marks.contains = true) : exchangeName old new mark = mark :=
  (exchangeName_eq_mark hold hnew hmark).mpr rfl

theorem exchangeName_append (name rest : String) :
    exchangeName old new (name ++ rest) =
      exchangeName old new name ++ exchangeName old new rest := by
  simp [← String.toList_inj, toList_exchangeName]

theorem exchangeName_toString (c : Char) :
    exchangeName old new c.toString = (exchangeChar old new c).toString := by
  simp [← String.toList_inj, toList_exchangeName]

/-- What stands between names stays, if it is made of marks. -/
theorem exchangeName_intercalate (hold : Separates old) (hnew : Separates new) {mark : String}
    (hmark : mark.toList.all Config.marks.contains = true) (names : List String) :
    exchangeName old new (mark.intercalate names) =
      mark.intercalate (names.map (exchangeName old new)) := by
  induction names with
  | nil =>
    have hempty : exchangeName old new "" = "" := exchangeName_mark hold hnew (by decide)
    exact hempty
  | cons name rest ih =>
    cases rest with
    | nil => simp
    | cons next rest =>
      simp only [List.map_cons, String.intercalate_cons_cons] at ih ⊢
      rw [exchangeName_append, exchangeName_append, exchangeName_mark hold hnew hmark, ih]

end Names

/-! ## 2. Atoms -/

namespace Atom

variable {old new : Char}

@[simp] theorem kind_exchange (a : Atom) : (a.exchange old new).kind = a.kind := rfl

@[simp] theorem value_exchange (a : Atom) : (a.exchange old new).value = a.value := rfl

@[simp] theorem name_exchange (a : Atom) :
    (a.exchange old new).name = exchangeName old new a.name := rfl

@[simp] theorem isOperand_exchange (a : Atom) :
    (a.exchange old new).isOperand = a.isOperand := rfl

@[simp] theorem isComma_exchange (a : Atom) : (a.exchange old new).isComma = a.isComma := rfl

@[simp] theorem waits_exchange (a : Atom) : (a.exchange old new).waits = a.waits := rfl

theorem exchange_eq_self {a : Atom} (h : old ∉ a.name.toList) : a.exchange old new = a := by
  rw [exchange, exchangeName_eq_self h]

section Marks

variable (hold : Separates old) (hnew : Separates new)

include hold hnew

theorem isOpenBracket_exchange (a : Atom) :
    (a.exchange old new).isOpenBracket = a.isOpenBracket := by
  have hname : exchangeName old new a.name = "(" ↔ a.name = "(" :=
    exchangeName_eq_mark hold hnew (by decide)
  rw [isOpenBracket, isOpenBracket, kind_exchange, name_exchange, decide_eq_decide.mpr hname]

theorem expectsOperand_exchange (a : Atom) :
    (a.exchange old new).expectsOperand = a.expectsOperand := by
  rw [expectsOperand, expectsOperand, kind_exchange, isOpenBracket_exchange hold hnew]

/-- An operator binds as strongly after the exchange, since no separator binds anything. -/
theorem precedence_exchange (a : Atom) : (a.exchange old new).precedence = a.precedence := by
  have hname : ∀ mark : String, mark.toList.all Config.marks.contains = true →
      (exchangeName old new a.name = mark ↔ a.name = mark) :=
    fun mark hmark => exchangeName_eq_mark hold hnew hmark
  simp only [precedence, kind_exchange, name_exchange, hname "^" (by decide),
    hname "*" (by decide), hname "/" (by decide), hname "%" (by decide), hname "+" (by decide),
    hname "-" (by decide)]

theorem yieldsTo_exchange (top a : Atom) :
    (top.exchange old new).yieldsTo (a.exchange old new) = top.yieldsTo a := by
  simp only [yieldsTo, waits_exchange, precedence_exchange hold hnew]

end Marks

end Atom

/-! ## 3. Post-order -/

section PostOrder

variable {old new : Char} (hold : Separates old) (hnew : Separates new)

include hold hnew

theorem PostOrder.advance_exchange (stack : List Atom) (a : Atom) :
    advance (stack.map (Atom.exchange old new)) (a.exchange old new) =
      ((advance stack a).1.map (Atom.exchange old new),
        (advance stack a).2.map (Atom.exchange old new)) := by
  -- neither test that ends the beginning of the stack sees which of the two separators it is
  have hopen : (fun b : Atom => !b.isOpenBracket) ∘ Atom.exchange old new =
      fun b => !b.isOpenBracket := by
    funext b
    rw [Function.comp_apply, Atom.isOpenBracket_exchange hold hnew]
  have hyields : (fun b : Atom => b.yieldsTo (a.exchange old new)) ∘ Atom.exchange old new =
      fun b => b.yieldsTo a :=
    funext fun b => Atom.yieldsTo_exchange hold hnew b a
  unfold advance
  rw [Atom.kind_exchange]
  cases a.kind with
  | bracket =>
    simp only [Atom.isOpenBracket_exchange hold hnew]
    split
    · rfl
    · rw [List.takeWhile_map, List.dropWhile_map, hopen, List.map_drop]
  | operator => simp only [List.takeWhile_map, List.dropWhile_map, hyields, List.map_cons]
  | function => simp only [List.takeWhile_map, List.dropWhile_map, hyields, List.map_cons]
  | comma => simp only [List.takeWhile_map, List.dropWhile_map, hyields, List.map_cons]
  | _ => rfl

theorem PostOrder.arrange_exchange (stack atoms : List Atom) :
    arrange (stack.map (Atom.exchange old new)) (atoms.map (Atom.exchange old new)) =
      (arrange stack atoms).map (Atom.exchange old new) := by
  induction atoms generalizing stack with
  | nil => rfl
  | cons a rest ih =>
    simp only [List.map_cons, arrange, advance_exchange hold hnew, ih, List.map_append]

/-- **The post-order does not depend on the separator.**  It looks at the kind and the strength of
atoms, and no separator is the name of anything that binds. -/
theorem postOrder_exchange (atoms : List Atom) :
    postOrder (atoms.map (Atom.exchange old new)) =
      (postOrder atoms).map (Atom.exchange old new) :=
  PostOrder.arrange_exchange hold hnew [] atoms

end PostOrder

/-! ## 4. Runs -/

namespace Evaluation

variable {old new : Char}

theorem popOperand_exchange (stack : List Atom) :
    popOperand (stack.map (Atom.exchange old new)) =
      (popOperand stack).map fun p => (p.1.exchange old new, p.2.map (Atom.exchange old new)) := by
  cases stack with
  | nil => rfl
  | cons a rest =>
    by_cases ha : a.isOperand = true
    · simp [popOperand, ha]
    · simp [popOperand, ha]

theorem popChain_exchange (later stack : List Atom) :
    popChain (later.map (Atom.exchange old new)) (stack.map (Atom.exchange old new)) =
      (popChain later stack).map fun p =>
        (p.1.map (Atom.exchange old new), p.2.map (Atom.exchange old new)) := by
  fun_induction popChain later stack with
  | case1 => rfl
  | case2 => rfl
  | case3 later a next rest ha => simp [popChain, ha]
  | case4 later a next rest ha hcomma ih => simpa [popChain, ha, hcomma] using ih
  | case5 later a next rest ha hcomma hnext => simp [popChain, ha, hcomma, hnext]
  | case6 later a next rest ha hcomma hnext => simp [popChain, ha, hcomma, hnext]

theorem popArguments_exchange (stack : List Atom) :
    popArguments (stack.map (Atom.exchange old new)) =
      (popArguments stack).map fun p =>
        (p.1.map (Atom.exchange old new), p.2.map (Atom.exchange old new)) := by
  cases stack with
  | nil => rfl
  | cons top rest =>
    by_cases hcomma : top.isComma = true
    · simpa [popArguments, hcomma] using popChain_exchange [] rest
    · by_cases hoperand : top.isOperand = true
      · simp [popArguments, hcomma, hoperand]
      · simp [popArguments, hcomma, hoperand]

/-- An operator has the same value after the exchange, or none. -/
theorem applyOperator_exchange (hold : Separates old) (hnew : Separates new) (c : Char)
    (left right : Float) :
    applyOperator (exchangeName old new c.toString) left right =
      exchangeOutcome old new id (applyOperator c.toString left right) := by
  have hname : ∀ mark : String, mark.toList.all Config.marks.contains = true →
      (exchangeName old new c.toString = mark ↔ c.toString = mark) :=
    fun mark hmark => exchangeName_eq_mark hold hnew hmark
  have hchar : c.toString = old.toString ↔ c = old := by
    simp [← String.toList_inj]
  simp only [applyOperator, hname "^" (by decide), hname "*" (by decide), hname "/" (by decide),
    hname "%" (by decide), hname "+" (by decide), hname "-" (by decide)]
  split
  · rfl
  · split
    · split <;> rfl
    · split
      · rfl
      · split
        · rfl
        · split
          · rfl
          · split
            · rfl
            · simp only [exchangeOutcome, FormulaError.exchange, hchar,
                exchangeName_toString, exchangeChar]
              split <;> rfl

theorem operationName_exchange (hold : Separates old) (hnew : Separates new)
    (left op right : String) :
    exchangeName old new (operationName left op right) =
      operationName (exchangeName old new left) (exchangeName old new op)
        (exchangeName old new right) := by
  have hopen : exchangeName old new "(" = "(" := exchangeName_mark hold hnew (by decide)
  have hclose : exchangeName old new ")" = ")" := exchangeName_mark hold hnew (by decide)
  simp only [operationName, exchangeName_append, hopen, hclose]

theorem callName_exchange (hold : Separates old) (hnew : Separates new) (function : String)
    (arguments : List String) :
    exchangeName old new (callName function arguments) =
      callName (exchangeName old new function) (arguments.map (exchangeName old new)) := by
  have hopen : exchangeName old new "(" = "(" := exchangeName_mark hold hnew (by decide)
  have hclose : exchangeName old new ")" = ")" := exchangeName_mark hold hnew (by decide)
  have harguments : exchangeName old new (";".intercalate arguments) =
      ";".intercalate (arguments.map (exchangeName old new)) :=
    exchangeName_intercalate hold hnew (by decide) arguments
  simp only [callName, exchangeName_append, hopen, hclose, harguments]

theorem operate_exchange (hold : Separates old) (hnew : Separates new) (c : Char)
    (stack : List Atom) :
    operate (exchangeName old new c.toString) (stack.map (Atom.exchange old new)) =
      exchangeOutcome old new (List.map (Atom.exchange old new)) (operate c.toString stack) := by
  unfold operate
  rw [popOperand_exchange]
  rcases popOperand stack with _ | ⟨right, rest⟩
  · rfl
  · simp only [Option.map_some]
    rw [popOperand_exchange]
    rcases popOperand rest with _ | ⟨left, below⟩
    · rfl
    · simp only [Option.map_some, Atom.value_exchange, Atom.name_exchange,
        applyOperator_exchange hold hnew, ← operationName_exchange hold hnew]
      cases applyOperator c.toString left.value right.value <;> rfl

variable {σ : Type} [Chance.Source σ]

theorem call_exchange (hold : Separates old) (hnew : Separates new) {function : String}
    (hfunction : old ∉ function.toList) (stack : List Atom) (source : σ) :
    call Builtin.registry (exchangeName old new function) (stack.map (Atom.exchange old new))
        source =
      (exchangeOutcome old new (List.map (Atom.exchange old new))
        (call Builtin.registry function stack source).1,
        (call Builtin.registry function stack source).2) := by
  unfold call
  rw [popArguments_exchange]
  rcases popArguments stack with _ | ⟨arguments, rest⟩
  · rfl
  · have hsame : exchangeName old new function = function := exchangeName_eq_self hfunction
    have hname := callName_exchange hold hnew function (arguments.map Atom.name)
    rw [hsame] at hname
    have hvalues : (arguments.map (Atom.exchange old new)).map Atom.value =
        arguments.map Atom.value := by
      rw [List.map_map]
      rfl
    have hnames : (arguments.map (Atom.exchange old new)).map Atom.name =
        (arguments.map Atom.name).map (exchangeName old new) := by
      rw [List.map_map, List.map_map]
      rfl
    simp only [Option.map_some, hsame, hvalues, hnames, ← hname]
    rcases hcall : Builtin.registry.call function (arguments.map Atom.value) source with
      ⟨e | value, next⟩
    · have herror := Builtin.error_call (congrArg Prod.fst hcall)
      rcases herror with ⟨-, rfl⟩ | ⟨-, rfl⟩ <;> rfl
    · rfl

end Evaluation

/-- An operator is a character, and a function has no separator in its name.  The scanner makes no
other atoms, and names of results are not read again. -/
structure Atom.Plain (separator : Char) (a : Atom) : Prop where
  operator : a.kind = .operator → ∃ c : Char, a.name = c.toString
  function : a.kind = .function → separator ∉ a.name.toList

/-- A run with the separator exchanged in all names. -/
def Evaluation.Run.exchange {σ : Type} (old new : Char) (run : Run σ) : Run σ where
  outcome := exchangeOutcome old new (Atom.exchange old new) run.outcome
  source := run.source
  steps := run.steps.map fun step => (exchangeName old new step.1, step.2)

namespace Evaluation

section Runs

variable {σ : Type} [Chance.Source σ] {old new : Char}

/-- **A step does not depend on the separator.**  What it does is chosen by the kind and the name of
the atom, and names of operators and functions are not those of separators, but for an operator that
fails. -/
theorem step_exchange (hold : Separates old) (hnew : Separates new) {a : Atom} (ha : a.Plain old)
    (stack : List Atom) (source : σ) :
    step Builtin.registry (a.exchange old new) (stack.map (Atom.exchange old new)) source =
      (exchangeOutcome old new (List.map (Atom.exchange old new))
        (step Builtin.registry a stack source).1, (step Builtin.registry a stack source).2) := by
  cases hkind : a.kind with
  | operator =>
    obtain ⟨c, hc⟩ := ha.operator hkind
    simp only [step, Atom.kind_exchange, hkind, Atom.name_exchange, hc,
      operate_exchange hold hnew]
  | function =>
    simp only [step, Atom.kind_exchange, hkind, Atom.name_exchange,
      call_exchange hold hnew (ha.function hkind)]
  | _ =>
    simp only [step, Atom.kind_exchange, hkind]
    rfl

theorem answer_exchange (stack : List Atom) :
    answer (stack.map (Atom.exchange old new)) =
      exchangeOutcome old new (Atom.exchange old new) (answer stack) := by
  rcases stack with _ | ⟨a, _ | ⟨b, rest⟩⟩
  · rfl
  · by_cases ha : a.isOperand = true
    · simp [answer, ha, exchangeOutcome]
    · simp [answer, ha, exchangeOutcome, FormulaError.exchange]
  · rfl

/-- **A run does not depend on the separator.**  By induction on the atoms; names of results are
made of names of operands, in which the exchange goes on. -/
theorem runFrom_exchange (hold : Separates old) (hnew : Separates new) {atoms : List Atom}
    (hplain : ∀ a ∈ atoms, a.Plain old) (stack : List Atom) (source : σ) :
    runFrom Builtin.registry (atoms.map (Atom.exchange old new))
        (stack.map (Atom.exchange old new)) source =
      (runFrom Builtin.registry atoms stack source).exchange old new := by
  induction atoms generalizing stack source with
  | nil =>
    simp only [List.map_nil, runFrom, answer_exchange]
    rfl
  | cons a rest ih =>
    obtain ⟨ha, hrest⟩ := List.forall_mem_cons.mp hplain
    simp only [List.map_cons, runFrom, step_exchange hold hnew ha]
    rcases step Builtin.registry a stack source with ⟨e | stack', source'⟩
    · rfl
    · have hnext := ih hrest stack' source'
      simp only [exchangeOutcome, hnext, List.length_map]
      rfl

end Runs

end Evaluation

end Reckoner
