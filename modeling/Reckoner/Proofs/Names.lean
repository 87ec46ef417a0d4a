/-
# The names of atoms spell the formula

What the scanner appends has names that spell what it has gone through, with a zero after each
number that ends with the separator (`Lexeme.name`), and nothing else is added or left out.

* For any separator at all, also a digit, a letter or a mark: if the scanner stops, it is in front
  of a number that cannot be read, and the names spell the text up to it
  (`Lexicon.tokenize_appends`).
* For a separator that passes the check and is its own upper case, the names put side by side are a
  formula again, and it is read as the same atoms (`Lexicon.tokenize_printed`).  No two names run
  into each other, since a name begins as its token does, and a literal that is completed ends where
  it did.
-/
import Reckoner.Proofs.Cuts
import Reckoner.Proofs.Stages

namespace Reckoner

/-! ## 1. Names of lexemes -/

/-- The name that a lexeme gives to its atom: its text, which for a number is completed. -/
def Lexeme.name (separator : Char) : Lexeme → List Char
  | number t => numberName separator t
  | word t => t
  | mark c => [c]

/-- The name of a lexeme adds nothing but a zero. -/
theorem Lexeme.mem_name {separator c : Char} {l : Lexeme} (h : c ∈ l.name separator) :
    c ∈ l.text ∨ c = '0' := by
  cases l with
  | number t =>
    rw [name, numberName] at h
    split at h
    · simpa [text] using h
    · exact Or.inl h
  | word t => exact Or.inl h
  | mark c => exact Or.inl h

/-- The atom is what the lexeme means before some character, and has the name of the lexeme.  The
character is left open, since the last lexeme before a malformed number has one that is not
shown. -/
structure Lexicon.Gives (lexicon : Lexicon) (l : Lexeme) (a : Atom) : Prop where
  means : ∃ following, lexicon.atom? l following = some a
  name_eq : a.name = String.ofList (l.name lexicon.separator)

section Gives

variable {lexicon : Lexicon} {following : Option Char} {l : Lexeme} {a : Atom}

theorem Lexicon.gives_of_atom? (h : lexicon.atom? l following = some a) : lexicon.Gives l a := by
  refine ⟨⟨following, h⟩, ?_⟩
  cases l with
  | number t =>
    rw [atom?] at h
    split at h
    · cases h
    · obtain ⟨x, -, rfl⟩ := Option.map_eq_some_iff.mp h
      rfl
  | word t =>
    simp only [atom?, Option.some.injEq] at h
    split at h
    · rw [← h]
      rfl
    · obtain ⟨x, hx | hx⟩ := lexicon.operand_cases (String.ofList t)
      · rw [← h, hx]
        rfl
      · rw [← h, hx]
        rfl
  | mark c =>
    simp only [atom?, Option.some.injEq] at h
    split at h
    · rw [← h]
      rfl
    · split at h
      · rename_i hcomma
        rw [← h, hcomma]
        rfl
      · rw [← h]
        rfl

theorem Lexicon.Means.name_eq (h : lexicon.Means following l a) :
    a.name = String.ofList (l.name lexicon.separator) := by
  cases h <;> rfl

theorem Lexicon.Emits.names_eq {lexemes : List Lexeme} {atoms : List Atom}
    (h : lexicon.Emits lexemes atoms) :
    atoms.flatMap (·.name.toList) = lexemes.flatMap (Lexeme.name lexicon.separator) := by
  induction h with
  | nil => rfl
  | cons hmeans h ih =>
    rw [List.flatMap_cons, List.flatMap_cons, ih, hmeans.name_eq, String.toList_ofList]

end Gives

/-! ## 2. Where a scan stops -/

/-- A number at the head of a text that cannot be read, and what follows it. -/
structure MalformedNumber (separator : Char) (operandDue : Bool) (number after : List Char) :
    Prop where
  /-- It begins with a digit, or with a minus where an operand is due, and goes on with digits and
  separators. -/
  begins : ∃ c digits, number = c :: digits ∧
    (c.isDigit = true ∨ c = '-' ∧ operandDue = true) ∧
    ∀ d ∈ digits, Lexeme.isNumberPart separator d = true
  /-- It is as long as it can be. -/
  longest : ∀ d ∈ after.head?, Lexeme.isNumberPart separator d = false
  /-- It runs into a word, or has no value. -/
  unreadable : (∃ d ∈ after.head?, Lexeme.isWordStart d = true) ∨
    Lexeme.numberValue? separator number = none

namespace Lexicon

variable {lexicon : Lexicon}

/-- **Only a number that cannot be read means nothing.**  A word is a name or a function, and any
other character is a mark, an operator if nothing else. -/
theorem malformed_of_atom?_eq_none {operandDue : Bool} {c : Char} {rest : List Char}
    (h : lexicon.atom? (Lexeme.split lexicon.separator operandDue c rest).1
      (Lexeme.split lexicon.separator operandDue c rest).2.head? = none) :
    ∃ number after, number ++ after = c :: rest ∧
      MalformedNumber lexicon.separator operandDue number after := by
  unfold Lexeme.split at h
  split at h
  · rename_i hbegins
    have htext : c :: rest.takeWhile (Lexeme.isNumberPart lexicon.separator) ++
        rest.dropWhile (Lexeme.isNumberPart lexicon.separator) = c :: rest := by
      rw [List.cons_append, List.takeWhile_append_dropWhile]
    refine ⟨_, _, htext, ⟨c, _, rfl, by simpa using hbegins,
      List.all_eq_true.mp List.all_takeWhile⟩, head?_dropWhile _ _, ?_⟩
    rw [atom?] at h
    split at h
    · rename_i hrun
      exact Or.inl ((Option.any_eq_true _ _).mp hrun)
    · exact Or.inr (Option.map_eq_none_iff.mp h)
  · split at h <;> simp [atom?] at h

/-- What is appended to an unbounded sequence, and where the scanner stops. -/
theorem scan_appends (text : List Char) {out : AtomSeq} (hout : out.capacity = none) :
    ∃ lexemes atoms, (lexicon.scan text out).2.toList = out.toList ++ atoms ∧
      List.Forall₂ lexicon.Gives lexemes atoms ∧
      ((lexicon.scan text out).1 = .error .malformed ∧
        (∃ number after, lexemes.flatMap Lexeme.text ++ (number ++ after) = text ∧
          MalformedNumber lexicon.separator (lexicon.scan text out).2.expectsOperand number
            after) ∨
      (lexicon.scan text out).1 = .ok () ∧ lexemes.flatMap Lexeme.text = text) := by
  induction text, out using lexicon.scan_induct with
  | done out =>
    rw [scan_nil]
    exact ⟨[], [], by simp, .nil, Or.inr ⟨rfl, rfl⟩⟩
  | stop c rest out cut hcut hatom =>
    rw [scan_of_none hcut hatom]
    rw [← hcut] at hatom
    obtain ⟨number, after, htext, hnumber⟩ := malformed_of_atom?_eq_none hatom
    exact ⟨[], [], by simp, .nil, Or.inl ⟨rfl, number, after, htext, hnumber⟩⟩
  | next c rest out cut a hcut hatom ih =>
    rw [scan_of_some hcut hatom]
    have haccepts : out.accepts = true := by rw [AtomSeq.accepts, hout]
    have htext := Lexeme.text_split lexicon.separator out.expectsOperand c rest
    rw [hcut] at htext
    obtain ⟨lexemes, atoms, hlist, hgives, hends⟩ := ih (by rw [AtomSeq.capacity_push, hout])
    refine ⟨cut.1 :: lexemes, a :: atoms, ?_, .cons (gives_of_atom? hatom) hgives, ?_⟩
    · rw [hlist, AtomSeq.toList_push, if_pos haccepts, List.append_assoc, List.singleton_append]
    · rw [List.flatMap_cons]
      rcases hends with ⟨herror, number, after, hrest, hnumber⟩ | ⟨hok, hrest⟩
      · refine Or.inl ⟨herror, number, after, ?_, hnumber⟩
        rw [List.append_assoc, hrest]
        exact htext
      · refine Or.inr ⟨hok, ?_⟩
        rw [hrest]
        exact htext

/-- **What a formula leaves in an unbounded sequence, also if it is refused.**  The atoms that were
there stay.  After a character beyond the alphabet none is added; else the names of the new atoms
spell the text up to a number that cannot be read, or all of it. -/
theorem tokenize_appends (lexicon : Lexicon) (formula : String) {out : AtomSeq}
    (hout : out.capacity = none) :
    let text := normalize lexicon.separator formula.toList
    let read := lexicon.tokenize formula out
    ∃ lexemes atoms, read.2.toList = out.toList ++ atoms ∧
      List.Forall₂ lexicon.Gives lexemes atoms ∧
      (read.1 = .error .invalidCharacter ∧ read.2 = out ∧ atoms = [] ∨
      read.1 = .error .malformed ∧
        (∃ number after, lexemes.flatMap Lexeme.text ++ (number ++ after) = text ∧
          MalformedNumber lexicon.separator read.2.expectsOperand number after) ∨
      read.1 = .ok () ∧ lexemes.flatMap Lexeme.text = text) := by
  intro text read
  by_cases halphabet : text.all (inAlphabet lexicon.separator) = true
  · have hread : read = lexicon.scan text out :=
      (lexicon.tokenize_eq_scan ..).trans (if_pos halphabet)
    obtain ⟨lexemes, atoms, hlist, hgives, hends⟩ := scan_appends text hout
    rw [hread]
    exact ⟨lexemes, atoms, hlist, hgives, Or.inr hends⟩
  · have hread : read = (.error .invalidCharacter, out) :=
      (lexicon.tokenize_eq_scan ..).trans (if_neg halphabet)
    rw [hread]
    exact ⟨[], [], by simp, .nil, Or.inl ⟨rfl, rfl, rfl⟩⟩

/-- With a digit for the separator, `15+2X` stops in front of `2`: after `15`, which is named `150`
because it ends with the separator, and a plus. -/
theorem tokenize_appends_digit :
    let lexicon : Lexicon := ⟨'5', .standard, .empty⟩
    let out := (AtomSeq.bounded none).push (.operator '*')
    out.capacity = none ∧
    ∃ (lexemes : List Lexeme) (atoms : List Atom) (number after : List Char),
      (lexicon.tokenize "15+2x" out).2.toList = .operator '*' :: atoms ∧
      atoms.map Atom.name = ["150", "+"] ∧
      lexemes.flatMap Lexeme.text ++ (number ++ after) = ['1', '5', '+', '2', 'X'] ∧
      MalformedNumber '5' true number after := by
  intro lexicon out
  have hread : (lexicon.tokenize "15+2x" out).2.toList.map Atom.name = ["*", "150", "+"] := by
    decide +kernel
  have hdue : (lexicon.tokenize "15+2x" out).2.expectsOperand = true := by decide +kernel
  have hout : out.capacity = none := rfl
  obtain ⟨lexemes, atoms, hlist, -, hends⟩ := tokenize_appends lexicon "15+2x" hout
  have hnames : atoms.map Atom.name = ["150", "+"] := by
    have hbefore : out.toList = [.operator '*'] := rfl
    rw [hlist, hbefore, List.singleton_append, List.map_cons] at hread
    exact (List.cons.inj hread).2
  have hrefused : (lexicon.tokenize "15+2x" out).1.toOption = none := by decide +kernel
  rcases hends with ⟨-, -, rfl⟩ | ⟨-, number, after, htext, hnumber⟩ | ⟨hok, -⟩
  · cases hnames
  · rw [hdue] at hnumber
    exact ⟨hout, lexemes, atoms, number, after, hlist, hnames, htext, hnumber⟩
  · rw [hok] at hrefused
    cases hrefused

end Lexicon

/-! ## 3. Names that are read again -/

section Complete

/-- The token that the name of a token's atom is read as: a literal is completed. -/
def Token.complete : Token → Token
  | literal l => literal l.complete
  | t => t

variable {lexicon : Lexicon}

/-- A token and its completion are read as the same atom. -/
theorem Token.atom_complete (t : Token) : t.complete.atom lexicon = t.atom lexicon := by
  cases t with
  | literal l => rw [complete, atom, atom, l.name_complete, l.value_complete]
  | _ => rfl

/-- The name of a token's atom is the text of its completion.  In this sense a name can be put back
into a formula. -/
theorem Token.text_complete (t : Token) :
    t.complete.text lexicon.separator = (t.atom lexicon).name.toList := by
  cases t with
  | literal l => exact String.toList_ofList.symm
  | name w =>
    obtain ⟨x, hx | hx⟩ := lexicon.operand_cases w.name
    · rw [atom, hx]
      exact String.toList_ofList.symm
    · rw [atom, hx]
      exact String.toList_ofList.symm
  | function w => exact String.toList_ofList.symm
  | comma => simp [complete, text, atom, Atom.comma, Atom.named]
  | _ => exact (String.toList_singleton _).symm

theorem Token.head?_text_complete (separator : Char) (t : Token) :
    (t.complete.text separator).head? = (t.text separator).head? := by
  cases t with
  | literal l =>
    cases hp : l.places with
    | none => simp [complete, text, Literal.text, Literal.sign, Literal.complete, hp]
    | some digits =>
      by_cases hd : digits = [] <;>
        simp [complete, text, Literal.text, Literal.sign, Literal.complete, hp, hd]
  | _ => rfl

theorem Token.Allowed.complete {separator : Char} {operandDue : Bool} {t : Token}
    (h : t.Allowed separator operandDue) : t.complete.Allowed separator operandDue := by
  cases t <;> exact h

theorem Token.EndsBefore.complete {separator : Char} {following : Option Char} {t : Token}
    (h : t.EndsBefore separator following) : t.complete.EndsBefore separator following := by
  cases t <;> exact h

namespace Lexicon

/-- **The names of the atoms of a text are read as these atoms**, and begin as the text does.  The
first character is carried through the induction because it decides where the token before ends. -/
theorem Reads.names (hsep : Separates lexicon.separator) {operandDue : Bool} {text : List Char}
    {atoms : List Atom} (h : lexicon.Reads operandDue text atoms)
    (halphabet : ∀ c ∈ text, inAlphabet lexicon.separator c = true) :
    lexicon.Reads operandDue (atoms.flatMap (·.name.toList)) atoms ∧
      (atoms.flatMap (·.name.toList)).head? = text.head? := by
  induction h with
  | done => exact ⟨.done, rfl⟩
  | @next operandDue c rest after lexeme a atoms hsplit hatom h ih =>
    obtain ⟨t, ht⟩ := Token.exists_of_split hsep halphabet hsplit hatom
    obtain ⟨hreads, hhead⟩ := ih fun d hd => halphabet d (ht.mem_text hd)
    have hname : a.name.toList = t.complete.text lexicon.separator := by
      rw [ht.atom_eq, t.text_complete]
    have hatom : a = t.complete.atom lexicon := by rw [ht.atom_eq, t.atom_complete]
    -- the next name begins as the next token does, so that this one ends before it
    have hends : t.complete.EndsBefore lexicon.separator
        (atoms.flatMap (·.name.toList)).head? := by
      rw [hhead]
      exact ht.ends.complete
    rw [List.flatMap_cons, hname]
    constructor
    · rw [hatom] at hreads ⊢
      exact hreads.token hsep ht.allowed.complete hends
    · have hfirst := t.head?_text_complete lexicon.separator
      obtain ⟨d, tail, htext, -⟩ := Token.split_text hsep ht.allowed ht.ends
      rw [htext] at hfirst
      rw [List.head?_append, hfirst, ← ht.text_eq, htext]
      rfl

theorem kept_of_unbounded_tokenize (lexicon : Lexicon) (formula : String) :
    (lexicon.tokenize formula (.bounded none)).2.overflowed = false := by
  simp only [tokenize_eq_scan]
  split
  · exact lexicon.kept_of_unbounded _
  · rfl

/-- **The names of the atoms of a formula are a formula**, which is read as the same atoms, and it
is the normalised formula with its numbers completed. -/
theorem tokenize_printed {config : Config} (hcheck : config.check = .ok ())
    (hupper : Text.upperChar config.separator = [config.separator]) (bindings : NameTable Float)
    (formula : String) :
    let lexicon : Lexicon := ⟨config.separator, config.constants, bindings⟩
    let text := normalize config.separator formula.toList
    let read := lexicon.tokenize formula (.bounded none)
    let printed := String.join (read.2.toList.map Atom.name)
    read.1 = .ok () →
      lexicon.tokenize printed (.bounded none) = read ∧
      ∃ lexemes, Cut config.separator true text lexemes ∧
        printed.toList = lexemes.flatMap (Lexeme.name config.separator) := by
  intro lexicon text read printed hok
  have hsep : Separates lexicon.separator := config.separates hcheck
  have hread : lexicon.tokenize formula (.bounded none) = (.ok (), read.2) := Prod.ext hok rfl
  obtain ⟨halphabet, atoms, hreads, hatoms⟩ :=
    reads_of_tokenize hread (lexicon.kept_of_unbounded_tokenize formula)
  have hlist : read.2.toList = atoms := by
    rw [hatoms, AtomSeq.toList_pushAll (fits_unbounded _)]
    rfl
  have hprinted : printed.toList = atoms.flatMap (·.name.toList) := by
    rw [String.toList_join, hlist, List.flatMap_map]
  obtain ⟨lexemes, hcut, hemits⟩ := hreads.exists_cut hsep halphabet
  obtain ⟨hagain, -⟩ := hreads.names hsep halphabet
  -- the names are spelled with the alphabet, so that they are normalised already
  have hnames : ∀ c ∈ printed.toList, inAlphabet lexicon.separator c = true := by
    intro c hc
    rw [hprinted, hemits.names_eq] at hc
    obtain ⟨l, hl, hc⟩ := List.mem_flatMap.mp hc
    rcases Lexeme.mem_name hc with hc | rfl
    · exact halphabet c (hcut.text_eq ▸ List.mem_flatMap.mpr ⟨l, hl, hc⟩)
    · rfl
  have hself := normalize_eq_self hsep hupper hnames
  rw [← hprinted, ← hself] at hagain
  constructor
  · rw [tokenize_of_reads (hself.symm ▸ hnames) hagain (fits_unbounded _)]
    exact Prod.ext hok.symm hatoms.symm
  · exact ⟨lexemes, hcut, by rw [hprinted, hemits.names_eq]⟩

/-- With a comma for the separator, signs, completed numbers, a constant and a call are read
again. -/
theorem tokenize_printed_call :
    let config : Config := ⟨',', none, .standard⟩
    let lexicon : Lexicon := ⟨',', .standard, .empty⟩
    let read := lexicon.tokenize "2*-3.+pi-max(-.5; x)" (.bounded none)
    config.check = .ok () ∧ Text.upperChar ',' = [','] ∧ read.1 = .ok () ∧
    String.join (read.2.toList.map Atom.name) = "2*-3,0+PI-MAX(-,5;X)" ∧
    lexicon.tokenize "2*-3,0+PI-MAX(-,5;X)" (.bounded none) = read := by
  intro config lexicon read
  have hok : read.1 = .ok () := by
    have hread : read.1.toOption = some () := by decide +kernel
    cases h : read.1 with
    | error e =>
      rw [h] at hread
      cases hread
    | ok => rfl
  have hprinted : String.join (read.2.toList.map Atom.name) = "2*-3,0+PI-MAX(-,5;X)" := by
    decide +kernel
  have hcheck : config.check = .ok () := rfl
  have hupper : Text.upperChar config.separator = [config.separator] := rfl
  have hagain := (tokenize_printed hcheck hupper .empty "2*-3.+pi-max(-.5; x)" hok).1
  refine ⟨hcheck, hupper, hok, hprinted, ?_⟩
  rw [← hprinted]
  exact hagain

end Lexicon

end Complete

end Reckoner
