/-
# Formulas that are a single name

A formula that is a single word has the value of the constant of that name, and else that of the
variable (`Session.evaluate_word`).  A name of letters, digits and underscores is a word unless it
begins with a digit (`Session.evaluate_of_parts`): then it is a number (`Session.evaluate_digits`),
or malformed (`Session.evaluate_run_on`).

The constants of a configuration file are kept under their names as they are written, but looked up
under the upper case.  `Session.evaluate_configured` says when a constant is found under its name,
and `Session.configured_lost` that it may be lost.
-/
import Reckoner.Config.Document
import Reckoner.Proofs.Entries
import Reckoner.Proofs.Mentions
import Reckoner.Proofs.ReadBack
import Reckoner.Proofs.UpperCase

namespace Reckoner

variable {σ : Type}

/-! ## 1. Names of letters, digits and underscores -/

/-- The upper case of a character that can go on a word.  Such characters are ASCII, where the upper
case is a single character. -/
structure UpperPart (c : Char) : Prop where
  ascii : c.toNat < 128
  valid : (c.toUpper.isUpper || c.toUpper.isDigit || c.toUpper == '_') = true
  isDigit_eq : c.toUpper.isDigit = c.isDigit
  eq_self : c.isDigit = true → c.toUpper = c

theorem upperPart_of_isWordPart {c : Char} (h : Lexeme.isWordPart c = true) : UpperPart c := by
  have hascii : c.toNat < 128 := by
    simp only [Lexeme.isWordPart, Char.isAlphanum, isAlpha_eq, Bool.or_eq_true, isUpper_iff,
      isLower_iff, Char.isDigit_iff_toNat, Char.reduceToNat, beq_iff_eq] at h
    rcases h with ((h | h) | h) | rfl
    · omega
    · omega
    · omega
    · decide
  have hall : ∀ n < 128, Lexeme.isWordPart (Char.ofNat n) = true →
      ((Char.ofNat n).toUpper.isUpper || (Char.ofNat n).toUpper.isDigit ||
        (Char.ofNat n).toUpper == '_') = true ∧
      (Char.ofNat n).toUpper.isDigit = (Char.ofNat n).isDigit ∧
      ((Char.ofNat n).isDigit = true → (Char.ofNat n).toUpper = Char.ofNat n) := by
    decide +kernel
  have hself := hall c.toNat hascii
  rw [Char.ofNat_toNat] at hself
  obtain ⟨hvalid, hdigit, hsame⟩ := hself h
  exact ⟨hascii, hvalid, hdigit, hsame⟩

section Parts

variable {name : List Char} (hparts : ∀ c ∈ name, Lexeme.isWordPart c = true)

include hparts

theorem inAlphabet_toUpper (separator : Char) :
    ∀ d ∈ name.map Char.toUpper, inAlphabet separator d = true := by
  intro d hd
  obtain ⟨c, hc, rfl⟩ := List.mem_map.mp hd
  have hupper := (upperPart_of_isWordPart (hparts c hc)).valid
  simp only [Bool.or_eq_true, beq_iff_eq] at hupper
  rcases hupper with (hupper | hupper) | hupper
  · simp [inAlphabet, hupper]
  · simp [inAlphabet, hupper]
  · rw [hupper]
    simp [inAlphabet, Config.marks]

theorem normalize_of_parts {separator : Char} (hsep : Separates separator) :
    normalize separator name = name.map Char.toUpper := by
  have hspells : Spells separator name (name.map Char.toUpper) := by
    induction name with
    | nil => exact .done
    | cons c rest ih =>
      obtain ⟨hc, hrest⟩ := List.forall_mem_cons.mp hparts
      exact .letter (upperPart_of_isWordPart hc).ascii rfl (ih hrest)
  exact normalize_of_spells hsep hspells (inAlphabet_toUpper hparts separator)

theorem uppercase_of_parts : name.flatMap Text.upperChar = name.map Char.toUpper := by
  induction name with
  | nil => rfl
  | cons c rest ih =>
    obtain ⟨hc, hrest⟩ := List.forall_mem_cons.mp hparts
    rw [List.flatMap_cons, Text.upperChar_ascii (upperPart_of_isWordPart hc).ascii, ih hrest,
      List.map_cons, List.singleton_append]

theorem isWordPart_toUpper : ∀ d ∈ name.map Char.toUpper, Lexeme.isWordPart d = true := by
  intro d hd
  obtain ⟨c, hc, rfl⟩ := List.mem_map.mp hd
  have hupper := (upperPart_of_isWordPart (hparts c hc)).valid
  simp only [Bool.or_eq_true] at hupper
  rcases hupper with (hupper | hupper) | hupper <;>
    simp [Lexeme.isWordPart, Char.isAlphanum, isAlpha_eq, hupper]

end Parts

/-- **A number that runs into a word ends the scan.**  The digits are split off as far as they go,
and the next character can go on a word and so begins one. -/
theorem Lexicon.scan_of_run_on {l : Lexicon} (hsep : Separates l.separator) {c : Char}
    {rest : List Char} (hc : c.isDigit = true) (hparts : ∀ d ∈ rest, Lexeme.isWordPart d = true)
    (hmixed : ∃ d ∈ rest, d.isDigit = false) (out : AtomSeq) :
    l.scan (c :: rest) out = (.error .malformed, out) := by
  -- what the number stops at goes on a word, but is no digit, so that it begins a word
  have hrun : (rest.dropWhile (Lexeme.isNumberPart l.separator)).head?.any
      Lexeme.isWordStart = true := by
    cases hback : rest.dropWhile (Lexeme.isNumberPart l.separator) with
    | nil =>
      obtain ⟨d, hd, hdigit⟩ := hmixed
      have hnumber := List.dropWhile_eq_nil_iff.mp hback d hd
      rw [Lexeme.isNumberPart, hdigit, Bool.false_or, beq_iff_eq] at hnumber
      have hpart := hparts d hd
      rw [hnumber, hsep.not_isWordPart] at hpart
      cases hpart
    | cons e back =>
      have hnumber := head?_dropWhile (Lexeme.isNumberPart l.separator) rest e (by rw [hback]; rfl)
      have hmem : e ∈ rest := by
        refine (List.dropWhile_sublist (Lexeme.isNumberPart l.separator)).subset ?_
        rw [hback]
        exact List.mem_cons_self
      have hpart := hparts e hmem
      rw [Lexeme.isNumberPart, Bool.or_eq_false_iff] at hnumber
      simpa [Lexeme.isWordPart, Char.isAlphanum, Lexeme.isWordStart, hnumber.1] using hpart
  have hsplit : Lexeme.split l.separator out.expectsOperand c rest =
      (.number (c :: rest.takeWhile (Lexeme.isNumberPart l.separator)),
        rest.dropWhile (Lexeme.isNumberPart l.separator)) := by
    rw [Lexeme.split, hc, Bool.true_or, if_pos rfl]
  apply scan_of_none hsplit
  simp only [atom?, if_pos hrun]

namespace Session

variable [Chance.Source σ] {s : Session σ} (hcheck : s.config.check = .ok ()) {name : String}

include hcheck

/-- **A name that does not begin with a digit is a word.** -/
theorem evaluate_of_parts (hparts : ∀ c ∈ name.toList, Lexeme.isWordPart c = true)
    (hne : name.toList ≠ []) (hhead : ∀ c ∈ name.toList.head?, c.isDigit = false) :
    (s.evaluate name).outcome =
      .ok ((s.config.constants.get? name).getD ((s.bindings.get? name).getD 0)) := by
  have hupper := uppercase_of_parts hparts
  obtain ⟨c, rest, htext⟩ := List.exists_cons_of_ne_nil hne
  rw [htext] at hparts hhead hupper
  obtain ⟨hc, hrest⟩ := List.forall_mem_cons.mp hparts
  have hfirst := (upperPart_of_isWordPart hc).valid
  rw [(upperPart_of_isWordPart hc).isDigit_eq, hhead c rfl, Bool.or_false] at hfirst
  have hothers : (rest.map Char.toUpper).all
      (fun c => c.isUpper || c.isDigit || c == '_') = true := by
    rw [List.all_eq_true]
    intro d hd
    obtain ⟨e, he, rfl⟩ := List.mem_map.mp hd
    exact (upperPart_of_isWordPart (hrest e he)).valid
  let w : Word := ⟨c.toUpper, rest.map Char.toUpper, hfirst, hothers⟩
  have hname : Text.uppercase name = w.name := by
    rw [Text.uppercase, htext, hupper]
    rfl
  exact evaluate_word hcheck hname

/-- **A name of digits is the number that they write.** -/
theorem evaluate_digits (hne : name.toList ≠ []) (hdigits : ∀ c ∈ name.toList, c.isDigit = true) :
    ∃ x, Number.readNumber name.toList = .ok x ∧ (s.evaluate name).outcome = .ok x := by
  have hbegins :
      (!name.toList.isEmpty || (false && (none : Option (List Char)).isSome)) = true := by
    simpa using hne
  let l : Literal := ⟨false, name.toList, none, List.all_eq_true.mpr hdigits, by decide, hbegins⟩
  have htext : ∀ separator, l.text separator = name.toList := by
    intro separator
    simp [l, Literal.text, Literal.sign]
  have hparts : ∀ c ∈ name.toList, Lexeme.isWordPart c = true := by
    intro c hc
    simp [Lexeme.isWordPart, Char.isAlphanum, hdigits c hc]
  have hself : ∀ c ∈ name.toList, c.toUpper = c := by
    intro c hc
    exact (upperPart_of_isWordPart (hparts c hc)).eq_self (hdigits c hc)
  -- a numeral has a point, but digits alone are read under every separator
  have hread := l.readNumber_text
  rw [Literal.complete_eq_self (by simp [l]), htext] at hread
  have hnormal : normalize s.config.separator name.toList = l.text s.config.separator := by
    rw [normalize_of_parts hparts (Config.separates hcheck), List.map_congr_left hself,
      List.map_id', htext]
  exact ⟨l.value, hread, (leaves_of_literal hcheck l hnormal).1⟩

/-- **A name that begins with a digit, but is no number, is malformed.**  Its digits run into the
first character that is none. -/
theorem evaluate_run_on (hparts : ∀ c ∈ name.toList, Lexeme.isWordPart c = true)
    (hhead : ∃ c ∈ name.toList.head?, c.isDigit = true)
    (hmixed : ∃ c ∈ name.toList, c.isDigit = false) :
    (s.evaluate name).outcome = .error .malformed := by
  have hsep : Separates s.lexicon.separator := Config.separates hcheck
  obtain ⟨c, hfirst, hc⟩ := hhead
  obtain ⟨rest, htext⟩ := List.head?_eq_some_iff.mp (Option.mem_def.mp hfirst)
  have hupper := inAlphabet_toUpper hparts s.lexicon.separator
  have hnormal := normalize_of_parts hparts hsep
  rw [htext] at hparts hmixed hupper hnormal
  obtain ⟨hpart, hrest⟩ := List.forall_mem_cons.mp hparts
  have hdigit : c.toUpper.isDigit = true := by
    rw [(upperPart_of_isWordPart hpart).isDigit_eq, hc]
  have hother : ∃ d ∈ rest.map Char.toUpper, d.isDigit = false := by
    obtain ⟨d, hd, hletter⟩ := hmixed
    have hmem : d ∈ rest := by
      rcases List.mem_cons.mp hd with rfl | hd
      · rw [hc] at hletter
        cases hletter
      · exact hd
    refine ⟨d.toUpper, List.mem_map_of_mem hmem, ?_⟩
    rw [(upperPart_of_isWordPart (hrest d hmem)).isDigit_eq, hletter]
  have hcut : s.cut name = (.error .malformed, .bounded s.config.maxAtoms) := by
    rw [cut, Lexicon.tokenize_eq_scan, htext, hnormal, if_pos (List.all_eq_true.mpr hupper)]
    exact Lexicon.scan_of_run_on hsep hdigit (isWordPart_toUpper hrest) hother _
  rw [evaluate_of_error hcut]
  rfl

end Session

/-! ## 2. Constants as they are written -/

/-- The text gives a configuration that can be used. -/
structure Config.Usable (text : String) (config : Config) : Prop where
  read : Config.ofText? text = some config
  check : config.check = .ok ()

/-- The first entry with the upper case of a name is found if it is stored under it, and else one of
the entries after it may be. -/
theorem NameTable.get?_of_first {α : Type} {t : NameTable α} {front back : List (String × α)}
    {name : String} {x : α} (hentries : t.entries = front ++ (name, x) :: back)
    (hfirst : ∀ e ∈ front, Text.uppercase e.1 ≠ Text.uppercase name) :
    t.get? name = if name = Text.uppercase name then some x else (NameTable.mk back).get? name := by
  have hfront : Text.uppercase name ∉ front.map Prod.fst := by
    rw [List.mem_map]
    rintro ⟨e, he, hkey⟩
    refine hfirst e he ?_
    rw [hkey, Text.uppercase_uppercase]
  rw [NameTable.get?_of_front hentries hfront]
  by_cases hupper : name = Text.uppercase name
  · rw [if_pos hupper, get?, lookup?, ← hupper]
    simp
  · rw [if_neg hupper, get?, get?, lookup?, lookup?]
    rw [List.find?_cons_of_neg (by simpa using hupper)]

namespace Session

variable [Chance.Source σ]

/-- **A constant of a configuration file is found under its name exactly if it is kept under the
upper case of the name**, or is equal to the first one that is.  The entry is the first with its
name in any letter case, and the name is a word; whatever is found is the value of the name in any
session, and else the variable is. -/
theorem evaluate_configured {text : String} {config : Config} (husable : Config.Usable text config)
    {front back : List (String × Float)} {name : String} {x : Float}
    (hentries : config.constants.entries = front ++ (name, x) :: back)
    (hfirst : ∀ e ∈ front, Text.uppercase e.1 ≠ Text.uppercase name) {w : Word}
    (hname : Text.uppercase name = w.name) :
    (config.constants.get? name =
      if name = Text.uppercase name then some x else (NameTable.mk back).get? name) ∧
    (∀ s : Session σ, s.config = config → ∀ other, Text.uppercase other = Text.uppercase name →
      (s.evaluate other).outcome =
        .ok ((config.constants.get? name).getD ((s.bindings.get? name).getD 0))) ∧
    (((∀ s : Session σ, s.config = config → (s.evaluate name).outcome = .ok x) ∧
        ∀ other, Text.uppercase other = Text.uppercase name →
          config.constants.get? other = some x) ↔
      name = Text.uppercase name ∨ (NameTable.mk back).get? name = some x) := by
  have hfound := NameTable.get?_of_first hentries hfirst
  have hvalue : ∀ s : Session σ, s.config = config → ∀ other,
      Text.uppercase other = Text.uppercase name → (s.evaluate other).outcome =
        .ok ((config.constants.get? name).getD ((s.bindings.get? name).getD 0)) := by
    rintro s rfl other hother
    rw [evaluate_word husable.check (hother.trans hname)]
    simp only [NameTable.get?, hother]
  refine ⟨hfound, hvalue, ?_⟩
  constructor
  · rintro ⟨-, hlookup⟩
    have hget := hlookup name rfl
    rw [hfound] at hget
    by_cases hupper : name = Text.uppercase name
    · exact Or.inl hupper
    · rw [if_neg hupper] at hget
      exact Or.inr hget
  · intro hkept
    have hget : config.constants.get? name = some x := by
      rw [hfound]
      split
      · rfl
      · rename_i hother
        exact hkept.resolve_left hother
    constructor
    · intro s hconfig
      rw [hvalue s hconfig name rfl, hget]
      rfl
    · intro other hother
      rw [← hget, NameTable.get?, NameTable.get?, hother]

/-- A constant in upper case is found in any letter case, before one in lower case. -/
theorem evaluate_configured_upper :
    let text := "\x7b\"constants\":\x7b\"entries\":[[\"TAU\",6.5],[\"tau\",1]]\x7d\x7d"
    let config : Config := ⟨'.', some 512, ⟨[("TAU", 6.5), ("tau", 1)]⟩⟩
    Config.Usable text config ∧
    (∀ s : Session Chance.Cycle, s.config = config → (s.evaluate "TAU").outcome = .ok 6.5) ∧
    config.constants.get? "Tau" = some 6.5 := by
  intro text config
  let tau : Word := ⟨'T', ['A', 'U'], by decide, by decide⟩
  have husable : Config.Usable text config := ⟨by decide +kernel, rfl⟩
  have hname : Text.uppercase "TAU" = tau.name := by decide +kernel
  have hentries : config.constants.entries = [] ++ ("TAU", 6.5) :: [("tau", 1)] := rfl
  obtain ⟨-, -, hkept⟩ := evaluate_configured (σ := Chance.Cycle) husable hentries nofun hname
  obtain ⟨hevaluated, hfound⟩ := hkept.mpr (Or.inl (by decide +kernel))
  exact ⟨husable, hevaluated, hfound "Tau" (by decide +kernel)⟩

/-- **A constant in lower case is lost**: it is found in no letter case, and its name is a variable
that is not bound. -/
theorem configured_lost :
    let text := "\x7b\"constants\":\x7b\"entries\":[[\"tau\",6.5]]\x7d\x7d"
    let config : Config := ⟨'.', some 512, ⟨[("tau", 6.5)]⟩⟩
    let s : Session Chance.Cycle := .fresh config (.ofList [])
    Config.Usable text config ∧ Text.uppercase "tau" = "TAU" ∧
    (s.evaluate "tau").outcome.toOption = some 0 ∧
    config.constants.get? "tau" = none ∧ config.constants.get? "TAU" = none := by
  intro text config s
  exact ⟨⟨by decide +kernel, rfl⟩, by decide +kernel, by decide +kernel, by decide +kernel,
    by decide +kernel⟩

end Session

end Reckoner
