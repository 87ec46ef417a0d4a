/-
# Number literals and words

The two kinds of lexeme that have an inner structure.  A literal is an optional minus, digits, and
optionally a separator with further digits; it begins with a digit unless there is a minus, and is
not a minus alone (`Literal`).  A word is a letter or an underscore, then letters, digits and
underscores, all in upper case (`Word`).

`Literal.numberValue?_text` says that the text of a literal is read as the number that its digits
write, and `exists_literal` that nothing else is read as a number.  A literal that ends with the
separator is completed by a zero, and completing it changes nothing but the text
(`Literal.name_complete`, `Literal.value_complete`).
-/
import Reckoner.Lexeme
import Reckoner.Proofs.ListLemmas

namespace Reckoner

/-! ## 1. Characters -/

theorem isUpper_iff {c : Char} : c.isUpper = true ↔ 65 ≤ c.toNat ∧ c.toNat ≤ 90 := by
  have hbounds : c.isUpper = decide ('A'.val ≤ c.val ∧ c.val ≤ 'Z'.val) := rfl
  simp [hbounds, ← Char.toNat_val, UInt32.le_iff_toNat_le]

theorem isLower_iff {c : Char} : c.isLower = true ↔ 97 ≤ c.toNat ∧ c.toNat ≤ 122 := by
  have hbounds : c.isLower = (decide ('a'.val ≤ c.val) && decide (c.val ≤ 'z'.val)) := rfl
  simp [hbounds, ← Char.toNat_val, UInt32.le_iff_toNat_le]

theorem isAlpha_eq (c : Char) : c.isAlpha = (c.isUpper || c.isLower) := rfl

/-- A digit is neither a letter nor an underscore. -/
theorem not_isWordStart_of_isDigit {c : Char} (h : c.isDigit = true) :
    Lexeme.isWordStart c = false := by
  simp only [Char.isDigit_iff_toNat, Char.reduceToNat] at h
  have hupper : c.isUpper = false := by
    rw [Bool.eq_false_iff, Ne, isUpper_iff]
    omega
  have hlower : c.isLower = false := by
    rw [Bool.eq_false_iff, Ne, isLower_iff]
    omega
  have hunderscore : c ≠ '_' := by
    rintro rfl
    revert h
    decide
  simp [Lexeme.isWordStart, isAlpha_eq, hupper, hlower, hunderscore]

/-- What the check of a configuration says about the separator.  The proofs about texts ask for no
more than this, and not for the check. -/
structure Separates (separator : Char) : Prop where
  not_isDigit : separator.isDigit = false
  not_isAlpha : separator.isAlpha = false
  not_mem_marks : separator ∉ Config.marks
  ne_space : separator ≠ ' '

theorem separates_of_separatorAllowed {c : Char} (h : Config.separatorAllowed c = true) :
    Separates c := by
  simp only [Config.separatorAllowed, Bool.not_eq_true', Bool.or_eq_false_iff, Char.isAlphanum] at h
  obtain ⟨⟨⟨⟨halpha, hdigit⟩, hblank⟩, -⟩, hmarks⟩ := h
  refine ⟨hdigit, halpha, by simpa using hmarks, ?_⟩
  rintro rfl
  exact absurd hblank (by decide)

theorem Config.separatorAllowed_of_check {config : Config} (h : config.check = .ok ()) :
    Config.separatorAllowed config.separator = true := by
  unfold Config.check at h
  split at h
  · cases h
  · rename_i hallowed
    simpa using hallowed

theorem Config.separates {config : Config} (h : config.check = .ok ()) :
    Separates config.separator :=
  separates_of_separatorAllowed (Config.separatorAllowed_of_check h)

theorem Config.one_le_of_mem_maxAtoms {config : Config} (h : config.check = .ok ()) {most : Nat}
    (hmost : most ∈ config.maxAtoms) : 1 ≤ most := by
  rw [Nat.one_le_iff_ne_zero]
  rintro rfl
  unfold Config.check at h
  rw [if_pos (Option.mem_def.mp hmost)] at h
  split at h <;> cases h

theorem Separates.ne_minus {separator : Char} (h : Separates separator) : separator ≠ '-' := by
  rintro rfl
  exact h.not_mem_marks (by decide)

theorem Separates.ne_of_isDigit {separator c : Char} (h : Separates separator)
    (hc : c.isDigit = true) : c ≠ separator := by
  rintro rfl
  rw [h.not_isDigit] at hc
  cases hc

theorem Separates.not_isWordStart {separator : Char} (h : Separates separator) :
    Lexeme.isWordStart separator = false := by
  have hunderscore : separator ≠ '_' := by
    rintro rfl
    exact h.not_mem_marks (by decide)
  simp [Lexeme.isWordStart, h.not_isAlpha, hunderscore]

theorem Separates.not_isWordPart {separator : Char} (h : Separates separator) :
    Lexeme.isWordPart separator = false := by
  have hstart := h.not_isWordStart
  simp only [Lexeme.isWordStart, Bool.or_eq_false_iff] at hstart
  simp [Lexeme.isWordPart, Char.isAlphanum, h.not_isDigit, hstart]

/-! ## 2. Literals -/

/-- A number as it is written.  The digits before the separator may be missing behind a minus, as in
`-.5`, but then there is a separator, and something is written at all. -/
structure Literal where
  negative : Bool
  /-- The digits before the separator. -/
  whole : List Char
  /-- The digits after the separator, if there is one. -/
  places : Option (List Char)
  whole_digits : whole.all Char.isDigit = true := by decide
  places_digits : (places.getD []).all Char.isDigit = true := by decide
  /-- Without digits in front there are a minus and a separator. -/
  begins : (!whole.isEmpty || (negative && places.isSome)) = true := by decide

namespace Literal

def sign (l : Literal) : List Char := if l.negative then ['-'] else []

def text (separator : Char) (l : Literal) : List Char :=
  l.sign ++ (l.whole ++ l.places.elim [] (separator :: ·))

/-- The literal with a digit after its separator. -/
def complete (l : Literal) : Literal where
  negative := l.negative
  whole := l.whole
  places := l.places.map fun digits => if digits = [] then ['0'] else digits
  whole_digits := l.whole_digits
  places_digits := by
    have h := l.places_digits
    cases hp : l.places with
    | none => rfl
    | some digits =>
      rw [hp] at h
      by_cases hd : digits = []
      · simp [hd]
      · simpa [hd] using h
  begins := by simpa using l.begins

def name (separator : Char) (l : Literal) : String := String.ofList (l.complete.text separator)

/-- The number that the digits write: all of them, with as many places as stand after the
separator. -/
def value (l : Literal) : Float :=
  let places := l.complete.places.getD []
  (Number.Decimal.mk (Number.digitsValue (l.whole ++ places)) (0 - places.length)).toNumber
    l.negative

theorem complete_complete (l : Literal) : l.complete.complete = l.complete := by
  cases hp : l.places with
  | none => simp [complete, hp]
  | some digits => by_cases hd : digits = [] <;> simp [complete, hp, hd]

/-- A literal with a digit after its separator is complete. -/
theorem complete_eq_self {l : Literal} (h : l.places ≠ some []) : l.complete = l := by
  obtain ⟨negative, whole, places, _, _, _⟩ := l
  cases places with
  | none => rfl
  | some digits =>
    have hne : digits ≠ [] := by
      rintro rfl
      exact h rfl
    simp [complete, hne]

theorem name_complete (separator : Char) (l : Literal) :
    l.complete.name separator = l.name separator := by
  rw [name, complete_complete, name]

theorem value_complete (l : Literal) : l.complete.value = l.value := by
  simp only [value, complete_complete]
  rfl

theorem isDigit_of_mem_whole {l : Literal} {c : Char} (h : c ∈ l.whole) : c.isDigit = true :=
  List.all_eq_true.mp l.whole_digits c h

theorem isDigit_of_mem_places {l : Literal} {digits : List Char} (hp : l.places = some digits)
    {c : Char} (h : c ∈ digits) : c.isDigit = true := by
  have hall := l.places_digits
  rw [hp] at hall
  exact List.all_eq_true.mp hall c h

theorem whole_ne_nil {l : Literal} (h : l.places = none) : l.whole ≠ [] := by
  have hbegins := l.begins
  rw [h] at hbegins
  simpa using hbegins

/-! ## 3. Reading literals -/

theorem places_complete_ne_nil (l : Literal) : l.complete.places ≠ some [] := by
  cases hp : l.places with
  | none => simp [complete, hp]
  | some digits => by_cases hd : digits = [] <;> simp [complete, hp, hd]

theorem numberName_append_digits {separator : Char} (hsep : Separates separator)
    (front : List Char) {digits : List Char} (hne : digits ≠ [])
    (hdigits : ∀ c ∈ digits, c.isDigit = true) :
    Lexeme.numberName separator (front ++ digits) = front ++ digits := by
  have hlast : (front ++ digits).getLast? ≠ some separator := by
    rw [List.getLast?_append, List.getLast?_eq_some_getLast hne, Option.some_or]
    intro h
    exact hsep.ne_of_isDigit (hdigits _ (List.getLast_mem hne)) (Option.some.inj h)
  exact if_neg hlast

theorem numberName_text {separator : Char} (hsep : Separates separator) (l : Literal) :
    Lexeme.numberName separator (l.text separator) = l.complete.text separator := by
  cases hp : l.places with
  | none =>
    have hname := numberName_append_digits hsep l.sign (whole_ne_nil hp)
      (fun c hc => isDigit_of_mem_whole hc)
    simpa [text, complete, hp, sign] using hname
  | some digits =>
    cases digits with
    | nil =>
      have hlast : (l.text separator).getLast? = some separator := by simp [text, hp]
      rw [Lexeme.numberName, if_pos hlast]
      simp [text, complete, hp, sign]
    | cons d digits =>
      have hname := numberName_append_digits hsep (l.sign ++ (l.whole ++ [separator]))
        (List.cons_ne_nil d digits) (fun c hc => isDigit_of_mem_places hp hc)
      simpa [text, complete, hp, sign] using hname

theorem count_text {separator : Char} (hsep : Separates separator) (l : Literal) :
    (l.text separator).count separator ≤ 1 := by
  have hsign : l.sign.count separator = 0 := by
    unfold sign
    split
    · simp [hsep.ne_minus.symm]
    · rfl
  have hwhole : l.whole.count separator = 0 := by
    rw [List.count_eq_zero]
    intro h
    exact hsep.ne_of_isDigit (isDigit_of_mem_whole h) rfl
  cases hp : l.places with
  | none => simp [text, hp, hsign, hwhole]
  | some digits =>
    have hdigits : digits.count separator = 0 := by
      rw [List.count_eq_zero]
      intro h
      exact hsep.ne_of_isDigit (isDigit_of_mem_places hp h) rfl
    simp [text, hp, hsign, hwhole, hdigits]

/-- Another separator gives the text of the same literal with that separator.  In particular the
numeral with a point, which is what reads numbers, stands for the literal under any separator. -/
theorem map_text {old : Char} (hold : Separates old) (new : Char) (l : Literal) :
    (l.text old).map (fun c => if c = old then new else c) = l.text new := by
  have hdigits : ∀ {digits : List Char}, (∀ c ∈ digits, c.isDigit = true) →
      digits.map (fun c => if c = old then new else c) = digits := by
    intro digits hall
    apply map_replace_eq_self
    intro hmem
    exact hold.ne_of_isDigit (hall old hmem) rfl
  have hsign : l.sign.map (fun c => if c = old then new else c) = l.sign := by
    apply map_replace_eq_self
    unfold sign
    split
    · simpa using hold.ne_minus
    · simp
  have hwhole := hdigits fun c hc => isDigit_of_mem_whole (l := l) hc
  cases hp : l.places with
  | none => simp [text, hp, hsign, hwhole]
  | some digits =>
    have hplaces := hdigits fun c hc => isDigit_of_mem_places hp hc
    simp [text, hp, hsign, hwhole, hplaces]

theorem spanDigits_append {digits rest : List Char} (hdigits : ∀ c ∈ digits, c.isDigit = true)
    (hrest : ∀ c ∈ rest.head?, c.isDigit = false) :
    Number.spanDigits (digits ++ rest) = (digits, rest) := by
  obtain ⟨htake, hdrop⟩ := span_append Char.isDigit hdigits hrest
  rw [Number.spanDigits, htake, hdrop]

/-- A numeral without a sign is read digit by digit. -/
theorem readDecimal_text {l : Literal} (hplaces : l.places ≠ some []) :
    Number.readDecimal (l.whole ++ l.places.elim [] ('.' :: ·)) =
      some ⟨Number.digitsValue (l.whole ++ l.places.getD []),
        0 - (l.places.getD []).length⟩ := by
  have hwhole : ∀ c ∈ l.whole, c.isDigit = true := by
    intro c hc
    exact isDigit_of_mem_whole hc
  cases hp : l.places with
  | none =>
    have hspan : Number.spanDigits (l.whole ++ []) = (l.whole, []) :=
      spanDigits_append hwhole (by simp)
    rw [List.append_nil] at hspan
    simp [Number.readDecimal, hspan, Number.readFraction, Number.readExponent, whole_ne_nil hp]
  | some digits =>
    have hspan : Number.spanDigits (l.whole ++ '.' :: digits) = (l.whole, '.' :: digits) :=
      spanDigits_append hwhole (by simp)
    have hdigits : Number.spanDigits (digits ++ []) = (digits, []) :=
      spanDigits_append (fun c hc => isDigit_of_mem_places hp hc) (by simp)
    rw [List.append_nil] at hdigits
    have hne : digits ≠ [] := by
      rintro rfl
      exact hplaces hp
    simp [Number.readDecimal, hspan, hdigits, Number.readFraction, Number.readExponent, hne]

theorem readSign_text (l : Literal) :
    Number.readSign (l.text '.') = (l.negative, l.whole ++ l.places.elim [] ('.' :: ·)) := by
  cases hn : l.negative with
  | true => simp [text, sign, hn, Number.readSign]
  | false =>
    have hbegins := l.begins
    rw [hn] at hbegins
    cases hw : l.whole with
    | nil => simp [hw] at hbegins
    | cons c rest =>
      have hc : c.isDigit = true := isDigit_of_mem_whole (hw ▸ List.mem_cons_self)
      have hminus : c ≠ '-' := by
        rintro rfl
        cases hc
      have hplus : c ≠ '+' := by
        rintro rfl
        cases hc
      simp only [text, sign, hn, hw]
      unfold Number.readSign
      split <;> simp_all

theorem text_ne_nil (separator : Char) (l : Literal) : l.text separator ≠ [] := by
  intro h
  simp only [text, List.append_eq_nil_iff] at h
  cases hp : l.places with
  | none => exact whole_ne_nil hp h.2.1
  | some digits => simp [hp] at h

/-- A completed literal with a point for its separator is a numeral. -/
theorem readNumber_text (l : Literal) :
    Number.readNumber (l.complete.text '.') = .ok l.value := by
  have hne := l.complete.text_ne_nil '.'
  simp only [Number.readNumber, List.isEmpty_iff, hne, if_false, readSign_text,
    readDecimal_text l.places_complete_ne_nil]
  rfl

/-- **The text of a literal is read as the number that its digits write.**  The separator is
replaced by a point, a zero stands behind a point at the end, and what results is a numeral. -/
theorem numberValue?_text {separator : Char} (hsep : Separates separator) (l : Literal) :
    Lexeme.numberValue? separator (l.text separator) = some l.value := by
  have hcount := l.count_text hsep
  rw [Lexeme.numberValue?, if_neg (by simp [hsep.not_isDigit, hcount]), numberName_text hsep]
  simp only [map_text hsep, readNumber_text]
  rfl

/-! ## 4. Nothing else is read as a number -/

/-- Digits and at most one separator are digits, and perhaps a separator with digits after it.  Two
separators are what the scanner refuses before it looks for a value. -/
theorem exists_places {separator : Char} {body : List Char}
    (hbody : ∀ c ∈ body, Lexeme.isNumberPart separator c = true)
    (hcount : body.count separator ≤ 1) :
    ∃ (whole : List Char) (places : Option (List Char)), whole.all Char.isDigit = true ∧
      (places.getD []).all Char.isDigit = true ∧
      body = whole ++ places.elim [] (separator :: ·) := by
  have hsplit : body.takeWhile Char.isDigit ++ body.dropWhile Char.isDigit = body :=
    List.takeWhile_append_dropWhile
  have hwhole : (body.takeWhile Char.isDigit).all Char.isDigit = true := List.all_takeWhile
  cases hrest : body.dropWhile Char.isDigit with
  | nil =>
    rw [hrest] at hsplit
    exact ⟨_, none, hwhole, rfl, hsplit.symm⟩
  | cons c digits =>
    rw [hrest] at hsplit
    have hnot : c.isDigit = false := head?_dropWhile Char.isDigit body c (by rw [hrest]; rfl)
    have hpart : ∀ d ∈ c :: digits, d.isDigit = true ∨ d = separator := by
      intro d hd
      have h := hbody d (hsplit ▸ List.mem_append_right _ hd)
      simpa [Lexeme.isNumberPart] using h
    have hc : c = separator := by simpa [hnot] using hpart c List.mem_cons_self
    -- the separator is used up, so that only digits can follow
    have hnone : digits.count separator = 0 := by
      rw [← hsplit, List.count_append, hc, List.count_cons_self] at hcount
      omega
    have hdigits : digits.all Char.isDigit = true := by
      rw [List.all_eq_true]
      intro d hd
      rcases hpart d (List.mem_cons_of_mem c hd) with h | rfl
      · exact h
      · exact absurd hd (List.count_eq_zero.mp hnone)
    exact ⟨_, some digits, hwhole, hdigits, by rw [← hc]; exact hsplit.symm⟩

theorem numberValue?_minus {separator : Char} (hsep : Separates separator) :
    Lexeme.numberValue? separator ['-'] = none := by
  have hname : Lexeme.numberName separator ['-'] = ['-'] := by
    simp [Lexeme.numberName, hsep.ne_minus.symm]
  have hread : Number.readNumber ['-'] = .error .malformed := rfl
  simp [Lexeme.numberValue?, hsep.not_isDigit, hsep.ne_minus.symm, hname, hread, Except.toOption]

/-- **Only literals are read as numbers**: a text of digits and separators, after a digit or a
minus, that has a value is the text of a literal. -/
theorem exists_literal {separator c : Char} {rest : List Char} {x : Float}
    (hsep : Separates separator) (hc : c.isDigit = true ∨ c = '-')
    (hrest : ∀ d ∈ rest, Lexeme.isNumberPart separator d = true)
    (hvalue : Lexeme.numberValue? separator (c :: rest) = some x) :
    ∃ l : Literal, l.text separator = c :: rest ∧ l.value = x := by
  have hcount : (c :: rest).count separator ≤ 1 := by
    have h := hvalue
    rw [Lexeme.numberValue?] at h
    split at h
    · cases h
    · rename_i hfew
      simpa [hsep.not_isDigit] using hfew
  suffices hliteral : ∃ l : Literal, l.text separator = c :: rest by
    obtain ⟨l, hl⟩ := hliteral
    refine ⟨l, hl, ?_⟩
    rw [← hl, numberValue?_text hsep] at hvalue
    exact Option.some.inj hvalue
  rcases hc with hdigit | rfl
  · have hbody : ∀ d ∈ c :: rest, Lexeme.isNumberPart separator d = true := by
      intro d hd
      rcases List.mem_cons.mp hd with rfl | hd
      · simp [Lexeme.isNumberPart, hdigit]
      · exact hrest d hd
    obtain ⟨whole, places, hwhole, hplaces, htext⟩ := exists_places hbody hcount
    have hne : whole ≠ [] := by
      rintro rfl
      cases places with
      | none => cases htext
      | some digits => exact hsep.ne_of_isDigit hdigit (List.cons.inj htext).1
    exact ⟨⟨false, whole, places, hwhole, hplaces, by simp [hne]⟩, by simp [text, sign, htext]⟩
  · have hfew : rest.count separator ≤ 1 := Nat.le_trans List.count_le_count_cons hcount
    obtain ⟨whole, places, hwhole, hplaces, htext⟩ := exists_places hrest hfew
    have hbegins : (!whole.isEmpty || (true && places.isSome)) = true := by
      cases hw : whole with
      | cons => rfl
      | nil =>
        cases hp : places with
        | some => rfl
        | none =>
          rw [htext, hw, hp] at hvalue
          exact absurd (numberValue?_minus hsep) (by simp_all)
    exact ⟨⟨true, whole, places, hwhole, hplaces, hbegins⟩, by simp [text, sign, htext]⟩

end Literal

/-! ## 5. Words -/

/-- A name in upper case.  The empty name is none, and no digit begins one. -/
structure Word where
  first : Char
  rest : List Char
  first_valid : (first.isUpper || first == '_') = true := by decide
  rest_valid : rest.all (fun c => c.isUpper || c.isDigit || c == '_') = true := by decide

namespace Word

def text (w : Word) : List Char := w.first :: w.rest

def name (w : Word) : String := String.ofList w.text

end Word

end Reckoner
