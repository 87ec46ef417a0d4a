/-
# Bindings that can be used

A binding on the command line has a name of letters, digits and underscores.  The session that is
opened gives each name the value of the last binding of it, in any letter case
(`CommandLine.LastBinding.get?_eq`), so that the name has this value as a formula if it is a word.
`CommandLine.evaluate_binding` says what else a name may be, and `CommandLine.binding_refused` that
it need not have its value.
-/
import Reckoner.Proofs.Batch
import Reckoner.Proofs.SingleNames

namespace Reckoner

variable {σ : Type}

namespace CommandLine

open Session

/-! ## 1. The last binding of a name -/

/-- The binding of this name and value is the last one of its name, in any letter case.  Bindings
that come later may be of other names. -/
def LastBinding (separator : Char) (bindings : List String) (name : String) (value : Float) :
    Prop :=
  ∃ earlier binding later, bindings = earlier ++ binding :: later ∧
    readBinding separator binding = .ok (name, value) ∧
    ∀ b ∈ later, ∀ other x, readBinding separator b = .ok (other, x) →
      Text.uppercase other ≠ Text.uppercase name

theorem isBindingName_iff {name : List Char} :
    isBindingName name = true ↔ name ≠ [] ∧ ∀ c ∈ name, Lexeme.isWordPart c = true := by
  rw [isBindingName, Bool.and_eq_true, Bool.not_eq_true', List.isEmpty_eq_false_iff,
    List.all_eq_true]
  rfl

/-- A binding that is read has a name of letters, digits and underscores.  Nothing is said about its
first character, and this is where names come from that no formula can mention. -/
theorem isWordPart_of_readBinding {separator : Char} {binding name : String} {value : Float}
    (h : readBinding separator binding = .ok (name, value)) :
    name.toList ≠ [] ∧ ∀ c ∈ name.toList, Lexeme.isWordPart c = true := by
  unfold readBinding at h
  split at h
  · cases h
  · dsimp only at h
    split at h
    · cases h
    · rename_i hvalid
      split at h
      · cases h
        rw [Bool.not_eq_true', Bool.not_eq_false] at hvalid
        rw [String.toList_ofList]
        exact isBindingName_iff.mp hvalid
      · cases h

section Bind

variable {s t : Session σ} {bindings : List String}

/-- **A name keeps its value through bindings of other names.**  Others are those with another upper
case; spelling alone makes no difference. -/
theorem get?_bindAll {name : String} (h : (bindAll s bindings).session = .ok t)
    (hother : ∀ b ∈ bindings, ∀ other x, readBinding s.config.separator b = .ok (other, x) →
      Text.uppercase other ≠ Text.uppercase name) :
    t.bindings.get? name = s.bindings.get? name := by
  induction bindings generalizing s with
  | nil =>
    cases h
    rfl
  | cons binding rest ih =>
    obtain ⟨written, value, hread, hrest⟩ := exists_of_bindAll_cons h
    obtain ⟨hfirst, hothers⟩ := List.forall_mem_cons.mp hother
    rw [ih hrest hothers, Session.bind, NameTable.get?_insert,
      if_neg (hfirst written value hread).symm]

/-- **The last binding of a name gives its value.** -/
theorem LastBinding.get?_eq {name : String} {value : Float}
    (h : (bindAll s bindings).session = .ok t)
    (hlast : LastBinding s.config.separator bindings name value) :
    t.bindings.get? name = some value := by
  obtain ⟨earlier, binding, later, rfl, hread, hlater⟩ := hlast
  -- the bindings before it are made first, whatever they bind
  induction earlier generalizing s with
  | nil =>
    obtain ⟨written, x, hwritten, hrest⟩ := exists_of_bindAll_cons h
    rw [hread] at hwritten
    cases hwritten
    rw [get?_bindAll hrest hlater, Session.bind, NameTable.get?_insert, if_pos rfl]
  | cons first rest ih =>
    obtain ⟨written, x, -, hrest⟩ := exists_of_bindAll_cons h
    exact ih hrest hread hlater

end Bind

/-! ## 2. Names as formulas -/

variable [Chance.Source σ]

/-- **A name that is bound on the command line has its value as a formula exactly if it does not
begin with a digit**, or is a number of this value.  Other numbers have their own value, and what
begins with a digit and is no number is malformed. -/
theorem evaluate_binding {surroundings : Surroundings} {source : σ} {options : Options}
    {s : Session σ} (hopen : (openSession surroundings source options).session = .ok s)
    {name : String}
    {value : Float} (hlast : LastBinding s.config.separator options.bindings name value)
    (hconstant : s.config.constants.get? name = none) :
    ((s.evaluate name).outcome = .ok value ↔
      (∀ c ∈ name.toList.head?, c.isDigit = false) ∨
        ((∀ c ∈ name.toList, c.isDigit = true) ∧ Number.readNumber name.toList = .ok value)) ∧
    ((∀ c ∈ name.toList, c.isDigit = true) → ∃ x, Number.readNumber name.toList = .ok x ∧
      (s.evaluate name).outcome = .ok x) ∧
    ((∃ c ∈ name.toList.head?, c.isDigit = true) → (∃ c ∈ name.toList, c.isDigit = false) →
      (s.evaluate name).outcome = .error .malformed) := by
  obtain ⟨config, hcheck, hbind⟩ := exists_of_openSession hopen
  have hconfig : s.config = config := config_bindAll hbind
  rw [← hconfig] at hcheck
  have hbound : s.bindings.get? name = some value := by
    rw [hconfig] at hlast
    exact hlast.get?_eq hbind
  obtain ⟨hne, hparts⟩ : name.toList ≠ [] ∧ ∀ c ∈ name.toList, Lexeme.isWordPart c = true := by
    obtain ⟨-, binding, -, -, hread, -⟩ := hlast
    exact isWordPart_of_readBinding hread
  have hword : (∀ c ∈ name.toList.head?, c.isDigit = false) →
      (s.evaluate name).outcome = .ok value := by
    intro hhead
    rw [evaluate_of_parts hcheck hparts hne hhead, hconstant, hbound]
    rfl
  have hnumber := evaluate_digits hcheck hne
  have hmalformed := evaluate_run_on hcheck hparts
  refine ⟨?_, hnumber, hmalformed⟩
  constructor
  · intro h
    by_cases hhead : ∀ c ∈ name.toList.head?, c.isDigit = false
    · exact Or.inl hhead
    · by_cases hdigits : ∀ c ∈ name.toList, c.isDigit = true
      · obtain ⟨x, hread, houtcome⟩ := hnumber hdigits
        rw [houtcome] at h
        cases h
        exact Or.inr ⟨hdigits, hread⟩
      · simp only [not_forall, Bool.not_eq_true, Bool.not_eq_false, exists_prop] at hhead hdigits
        rw [hmalformed hhead hdigits] at h
        cases h
  · rintro (hhead | ⟨hdigits, hread⟩)
    · exact hword hhead
    · obtain ⟨x, hx, houtcome⟩ := hnumber hdigits
      rw [hread] at hx
      cases hx
      exact houtcome

/-- Of two bindings of a name in different letter case, the last one counts. -/
theorem evaluate_binding_last :
    let surroundings : Surroundings := ⟨fun _ => .error .missing, ""⟩
    let options : Options := ⟨["rate_1=1", " Rate_1 = 2,5", "y=3"], some ',', none⟩
    let config : Config := { Config.standard with separator := ',' }
    let s : Session Chance.Cycle :=
      (((fresh config (.ofList [])).bind "rate_1" 1).bind "Rate_1" 2.5).bind "y" 3
    (openSession surroundings (.ofList []) options).session = .ok s ∧
    LastBinding s.config.separator options.bindings "Rate_1" 2.5 ∧
    s.config.constants.get? "Rate_1" = none ∧
    (s.evaluate "Rate_1").outcome = .ok 2.5 := by
  intro surroundings options config s
  have hearlier : readBinding ',' "rate_1=1" = .ok ("rate_1", 1) := rfl
  have hread : readBinding ',' " Rate_1 = 2,5" = .ok ("Rate_1", 2.5) := rfl
  have hlater : readBinding ',' "y=3" = .ok ("y", 3) := rfl
  have hload : loadConfig surroundings options = .ok config := rfl
  have hopen : (openSession surroundings (.ofList []) options).session = .ok s := by
    simp only [openSession, hload, options]
    exact (session_bindAll_cons hearlier _).trans
      ((session_bindAll_cons hread _).trans (session_bindAll_cons hlater []))
  have hlast : LastBinding s.config.separator options.bindings "Rate_1" 2.5 := by
    refine ⟨["rate_1=1"], _, ["y=3"], rfl, hread, ?_⟩
    intro b hb other x hother
    rw [List.mem_singleton.mp hb] at hother
    cases hlater.symm.trans hother
    decide +kernel
  have hconstant : s.config.constants.get? "Rate_1" = none := by decide +kernel
  have hhead : ∀ c ∈ "Rate_1".toList.head?, c.isDigit = false := by
    intro c hc
    cases hc
    rfl
  exact ⟨hopen, hlast, hconstant,
    (evaluate_binding hopen hlast hconstant).1.mpr (Or.inl hhead)⟩

/-- **A binding whose name begins with a digit cannot be used**: the name is malformed as a formula,
or a number that has another value. -/
theorem binding_refused :
    let surroundings : Surroundings := ⟨fun _ => .error .missing, ""⟩
    let options : Options := ⟨["2X=1", "1=5"], none, none⟩
    let s : Session Chance.Cycle := ((fresh .standard (.ofList [])).bind "2X" 1).bind "1" 5
    (openSession surroundings (.ofList []) options).session = .ok s ∧
    LastBinding s.config.separator options.bindings "2X" 1 ∧
    s.config.constants.get? "2X" = none ∧ (s.evaluate "2X").outcome.toOption = none ∧
    LastBinding s.config.separator options.bindings "1" 5 ∧
    s.config.constants.get? "1" = none ∧ (s.evaluate "1").outcome.toOption = some 1 := by
  intro surroundings options s
  have hmixed : readBinding '.' "2X=1" = .ok ("2X", 1) := rfl
  have hdigits : readBinding '.' "1=5" = .ok ("1", 5) := rfl
  have hload : loadConfig surroundings options = .ok .standard := rfl
  have hopen : (openSession surroundings (.ofList []) options).session = .ok s := by
    simp only [openSession, hload, options]
    exact (session_bindAll_cons hmixed _).trans (session_bindAll_cons hdigits [])
  have hfirst : LastBinding s.config.separator options.bindings "2X" 1 := by
    refine ⟨[], _, ["1=5"], rfl, hmixed, ?_⟩
    intro b hb other x hother
    rw [List.mem_singleton.mp hb] at hother
    cases hdigits.symm.trans hother
    decide +kernel
  have hsecond : LastBinding s.config.separator options.bindings "1" 5 := by
    refine ⟨["2X=1"], _, [], rfl, hdigits, ?_⟩
    intro b hb
    cases hb
  exact ⟨hopen, hfirst, by decide +kernel, by decide +kernel, hsecond, by decide +kernel,
    by decide +kernel⟩

end CommandLine

end Reckoner
