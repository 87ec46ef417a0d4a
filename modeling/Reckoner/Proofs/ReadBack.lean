/-
# Printed numbers can be read back

What a session prints a number as is read back as that number, under every separator that is
allowed: as the value of a binding on the command line (`CommandLine.readValue_render`), and, for
a finite number, as a formula of a single atom (`Session.leaves_literal`).  The two readers have
nothing in common but the literals that they accept, and a finite number is always printed as one.
Only a zero loses its sign.

`Session.reads_back` puts the two together.
-/
import Reckoner.CommandLine.Binding
import Reckoner.Proofs.EndToEnd
import Reckoner.Proofs.Printed

namespace Reckoner

/-! ## 1. Characters -/

theorem Text.not_isBlank {c : Char} (hlow : 0x20 < c.toNat) (hhigh : c.toNat < 0x7F) :
    isBlank c = false := by
  simp only [isBlank, inRanges, blankRanges, List.any_cons, List.any_nil, Bool.or_false,
    Bool.or_eq_false_iff, Bool.and_eq_false_iff, decide_eq_false_iff_not]
  omega

/-- There is no white space in the alphabet of formulas, if the separator is none. -/
theorem not_isBlank_of_inAlphabet {separator c : Char} (hblank : Text.isBlank separator = false)
    (hc : inAlphabet separator c = true) : Text.isBlank c = false := by
  simp only [inAlphabet, Bool.or_eq_true, beq_iff_eq, List.contains_iff_mem] at hc
  rcases hc with ((hc | hc) | rfl) | hc
  · simp only [Char.isDigit_iff_toNat, Char.reduceToNat] at hc
    exact Text.not_isBlank (by omega) (by omega)
  · rw [isUpper_iff] at hc
    exact Text.not_isBlank (by omega) (by omega)
  · exact hblank
  · have hmarks : ∀ d ∈ Config.marks, 0x20 < d.toNat ∧ d.toNat < 0x7F := by simp [Config.marks]
    obtain ⟨hlow, hhigh⟩ := hmarks c hc
    exact Text.not_isBlank hlow hhigh

theorem not_isBlank_of_separatorAllowed {c : Char} (h : Config.separatorAllowed c = true) :
    Text.isBlank c = false := by
  simp only [Config.separatorAllowed, Bool.not_eq_true', Bool.or_eq_false_iff] at h
  exact h.1.1.2

/-! ## 2. Bindings -/

namespace CommandLine

open Number

/-- The value of a binding is what stands after the first `=`. -/
theorem readBinding_of_readValue {separator : Char} {text : List Char} {x : Float}
    (h : readValue separator text = .ok x) :
    readBinding separator ("X=" ++ String.ofList text) = .ok ("X", x) := by
  have htext : ("X=" ++ String.ofList text).toList = 'X' :: '=' :: text := by simp
  have hname : Text.trimChars ['X'] = ['X'] := by decide
  have hvalid : isBindingName ['X'] = true := by decide
  simp [readBinding, htext, hname, hvalid, h]

theorem readValue_text {separator : Char} (hsep : Separates separator)
    (hblank : Text.isBlank separator = false) {l : Literal} (hl : l.places ≠ some []) :
    readValue separator (l.text separator) = .ok l.value := by
  have htrim : Text.trimChars (l.text separator) = l.text separator := by
    apply Text.trimChars_eq_self
    intro c hc
    exact not_isBlank_of_inAlphabet hblank (l.inAlphabet_text separator c hc)
  have hread := l.readNumber_text
  rw [Literal.complete_eq_self hl] at hread
  rw [readValue, htrim, l.map_text hsep, hread]

/-- A word of letters and minus signs is read as it is.  A separator that is allowed is none of
these, so no character of it becomes a point. -/
theorem readValue_word {separator : Char} (hallowed : Config.separatorAllowed separator = true)
    {word : List Char} (hword : ∀ c ∈ word, c.isAlpha = true ∨ c = '-') :
    readValue separator word = readNumber word := by
  have hsep := separates_of_separatorAllowed hallowed
  have habsent : separator ∉ word := by
    intro hmem
    rcases hword separator hmem with halpha | hminus
    · rw [hsep.not_isAlpha] at halpha
      cases halpha
    · exact hsep.ne_minus hminus
  have hblank : ∀ c ∈ word, Text.isBlank c = false := by
    intro c hc
    rcases hword c hc with halpha | rfl
    · rw [Char.isAlpha, Bool.or_eq_true, isUpper_iff, isLower_iff] at halpha
      exact Text.not_isBlank (by omega) (by omega)
    · rfl
  rw [readValue, Text.trimChars_eq_self hblank, map_replace_eq_self habsent]

/-- The words for what is not finite are read as what they stand for. -/
theorem readValue_words {separator : Char} (hallowed : Config.separatorAllowed separator = true) :
    readValue separator ['N', 'a', 'N'] = .ok notANumber ∧
    readValue separator ['i', 'n', 'f'] = .ok (ofSignBits false infinityBits) ∧
    readValue separator ['-', 'i', 'n', 'f'] = .ok (ofSignBits true infinityBits) := by
  refine ⟨?_, ?_, ?_⟩
  all_goals
    rw [readValue_word hallowed (by simp)]
    rfl

/-- **A number is read back from what it is printed as**, up to the sign of a zero.  What is finite
is printed as a literal, and the rest as a word that the reader knows. -/
theorem readValue_render {separator : Char} (hallowed : Config.separatorAllowed separator = true)
    (x : Float) :
    readValue separator ((shape x).render separator) = .ok (if x == 0 then 0 else x) := by
  have hsep := separates_of_separatorAllowed hallowed
  obtain ⟨hnan, hinf, hminus⟩ := readValue_words hallowed
  rcases shape_cases x with ⟨hshape, rfl⟩ | ⟨negative, hshape, rfl⟩ |
    ⟨negative, bits, hbits, hshape, hx⟩
  · have hzero : (notANumber == 0) = false := by decide +kernel
    rw [hshape, hzero]
    exact hnan
  · cases negative with
    | true =>
      have hzero : (ofSignBits true infinityBits == 0) = false := by decide +kernel
      rw [hshape, hzero]
      exact hminus
    | false =>
      have hzero : (ofSignBits false infinityBits == 0) = false := by decide +kernel
      rw [hshape, hzero]
      exact hinf
  · obtain ⟨l, hl, htext, hvalue⟩ := exists_literal_render hbits hshape hx separator
    rw [htext, readValue_text hsep (not_isBlank_of_separatorAllowed hallowed) hl, hvalue]

end CommandLine

/-! ## 3. Formulas -/

namespace Session

variable {σ : Type} [Chance.Source σ]

/-- **A formula that is normalised to a literal has its value**, and a single atom. -/
theorem leaves_of_literal {s : Session σ} (hcheck : s.config.check = .ok ()) (l : Literal)
    {formula : String}
    (htext : normalize s.config.separator formula.toList = l.text s.config.separator) :
    (s.evaluate formula).outcome = .ok l.value ∧
    (s.evaluate formula).session.written.toList =
      [.number (l.name s.config.separator) l.value] := by
  have hsep := Config.separates hcheck
  let e : Formula 4 := .literal l
  have hroom : ∀ most ∈ s.config.maxAtoms, (e.atoms s.lexicon).length ≤ most := by
    intro most hmost
    exact Config.one_le_of_mem_maxAtoms hcheck hmost
  obtain ⟨-, -, houtcome, -⟩ := e.leaves hsep htext hroom
  exact ⟨houtcome, (e.accepts hsep htext hroom).leaves.written⟩

theorem leaves_literal {s : Session σ} (hcheck : s.config.check = .ok ())
    (hupper : Text.upperChar s.config.separator = [s.config.separator]) (l : Literal) :
    (s.evaluate (String.ofList (l.text s.config.separator))).outcome = .ok l.value ∧
    (s.evaluate (String.ofList (l.text s.config.separator))).session.written.toList =
      [.number (l.name s.config.separator) l.value] := by
  apply leaves_of_literal hcheck
  rw [String.toList_ofList]
  exact normalize_eq_self (Config.separates hcheck) hupper (l.inAlphabet_text s.config.separator)

/-- **What is printed can be read back**, as a binding and as a formula.  What is read is the number
itself, except that minus zero is read as zero. -/
theorem reads_back {s : Session σ} (hcheck : s.config.check = .ok ()) (v : Float) :
    let x := if v == 0 then 0 else v
    ((x == v) = true ∨ (x.isNaN = true ∧ v.isNaN = true)) ∧
    CommandLine.readBinding s.config.separator ("X=" ++ s.format v) = .ok ("X", x) ∧
    (v.isFinite = true → Text.upperChar s.config.separator = [s.config.separator] →
      (s.evaluate (s.format v)).outcome = .ok x ∧
      ∃ a, (s.evaluate (s.format v)).session.written.toList = [a]) := by
  intro x
  refine ⟨?_, ?_, ?_⟩
  · by_cases hnan : v = Float.nan
    · have hzero : (Float.nan == 0) = false := Float.nan_beq_eq_false 0
      right
      simp [x, hnan, hzero]
    · left
      by_cases hzero : (v == 0) = true
      · simpa [x, hzero] using BEq.symm hzero
      · simpa [x, hzero] using hnan
  · exact CommandLine.readBinding_of_readValue
      (CommandLine.readValue_render (Config.separatorAllowed_of_check hcheck) v)
  · intro hfinite hupper
    obtain ⟨negative, bits, hbits, hshape, hv⟩ := Number.exists_finite hfinite
    obtain ⟨l, -, htext, hvalue⟩ :=
      Number.exists_literal_render hbits hshape hv s.config.separator
    have hprinted : s.format v = String.ofList (l.text s.config.separator) := by
      rw [format, Number.render, htext]
    obtain ⟨houtcome, hwritten⟩ := leaves_literal hcheck hupper l
    rw [hprinted, houtcome, hvalue]
    exact ⟨rfl, _, hwritten⟩

/-- With a raised dot, minus a tenth is printed as `-0·1`, and both readers get it back. -/
theorem reads_back_tenth :
    let s : Session Chance.Cycle :=
      .fresh { Config.standard with separator := '\u00B7' } (.ofList [])
    s.format (-0.1) = "-0\u00B71" ∧
    CommandLine.readBinding '\u00B7' ("X=" ++ s.format (-0.1)) = .ok ("X", -0.1) ∧
    (s.evaluate (s.format (-0.1))).outcome = .ok (-0.1) ∧
    ∃ a, (s.evaluate (s.format (-0.1))).session.written.toList = [a] := by
  intro s
  have hcheck : s.config.check = .ok () := rfl
  have hfinite : (-0.1 : Float).isFinite = true := by decide +kernel
  have hupper : Text.upperChar s.config.separator = [s.config.separator] := by decide +kernel
  have hzero : ((-0.1 : Float) == 0) = false := by decide +kernel
  obtain ⟨-, hbinding, hformula⟩ := reads_back hcheck (-0.1)
  obtain ⟨houtcome, hatom⟩ := hformula hfinite hupper
  rw [hzero] at hbinding houtcome
  exact ⟨by decide +kernel, hbinding, houtcome, hatom⟩

end Session

end Reckoner
