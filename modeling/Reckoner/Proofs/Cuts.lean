/-
# Cuts

What the lexemes of a formula are can be said without a scanner (`Cut`): they are literals, words
and single marks that make up the text, literals and words run on into nothing that would continue
them, and a minus belongs to a number exactly where an operand is due.  At most one row of lexemes
is a cut (`Cut.unique`), and the scanner finds it if there is one: `Lexicon.tokenize_cut` says when
a formula is cut, and that its atoms are what the lexemes mean, one for each (`Lexicon.Emits`).
-/
import Mathlib.Data.List.Chain
import Reckoner.Proofs.Capacity

namespace Reckoner

/-! ## 1. Lexemes in their places -/

namespace Lexeme

/-- Whether the lexeme is a literal, a word, or a character that belongs to neither. -/
def WellFormed (separator : Char) : Lexeme → Prop
  | number t => ∃ l : Literal, l.text separator = t
  | word t => ∃ w : Word, w.text = t
  | mark c => c.isDigit = false ∧ isWordStart c = false

/-- Whether the lexeme is not continued by the character after it.  A number must not run into a
word either: `2X` is no number and a name, but nothing at all. -/
def EndsBefore (separator : Char) (following : Option Char) : Lexeme → Prop
  | number _ => ∀ c ∈ following, isNumberPart separator c = false ∧ isWordStart c = false
  | word _ => ∀ c ∈ following, isWordPart c = false
  | mark _ => True

/-- Whether a lexeme that begins with a minus is a number, as it must be where an operand is due,
and only there. -/
def Signed (operandDue : Bool) (l : Lexeme) : Prop :=
  l.text.head? = some '-' → ((∃ t, l = number t) ↔ operandDue = true)

/-- Whether an operand is due after the lexeme: after an operator, `;` or `(`. -/
def awaitsOperand : Lexeme → Bool
  | mark c => c ≠ ')'
  | _ => false

end Lexeme

/-- The text is cut into these lexemes, when an operand is due at its beginning or not.  Each
condition is about a lexeme and its neighbours, so the cut is described as a whole and not as it is
found. -/
structure Cut (separator : Char) (operandDue : Bool) (text : List Char) (lexemes : List Lexeme) :
    Prop where
  text_eq : lexemes.flatMap Lexeme.text = text
  wellFormed : ∀ l ∈ lexemes, l.WellFormed separator
  ends : lexemes.IsChain fun l next => l.EndsBefore separator next.text.head?
  first : ∀ l ∈ lexemes.head?, l.Signed operandDue
  signs : lexemes.IsChain fun previous l => l.Signed previous.awaitsOperand

/-- What a lexeme before the given character means. -/
inductive Lexicon.Means (lexicon : Lexicon) (following : Option Char) : Lexeme → Atom → Prop
  | number (l : Literal) {t : List Char} (ht : l.text lexicon.separator = t) :
      Means lexicon following (.number t)
        (.number (String.ofList (Lexeme.numberName lexicon.separator t)) l.value)
  | function (t : List Char) (hopen : following = some '(') :
      Means lexicon following (.word t) (.function (String.ofList t))
  | constant (t : List Char) {value : Float} (hopen : following ≠ some '(')
      (hvalue : lexicon.constants.get? (String.ofList t) = some value) :
      Means lexicon following (.word t) (.number (String.ofList t) value)
  | variable (t : List Char) (hopen : following ≠ some '(')
      (hnone : lexicon.constants.get? (String.ofList t) = none) :
      Means lexicon following (.word t)
        (.var (String.ofList t) ((lexicon.bindings.get? (String.ofList t)).getD 0))
  | bracket {c : Char} (hc : c = '(' ∨ c = ')') : Means lexicon following (.mark c) (.bracket c)
  | comma : Means lexicon following (.mark ';') .comma
  | operator {c : Char} (hbracket : ¬ (c = '(' ∨ c = ')')) (hcomma : c ≠ ';') :
      Means lexicon following (.mark c) (.operator c)

/-- What a row of lexemes means: an atom for each, in order.  What a lexeme means depends on the
character behind it, which is the first one of the next lexeme. -/
inductive Lexicon.Emits (lexicon : Lexicon) : List Lexeme → List Atom → Prop
  | nil : Emits lexicon [] []
  | cons {l : Lexeme} {lexemes : List Lexeme} {a : Atom} {atoms : List Atom}
      (hmeans : lexicon.Means (lexemes.flatMap Lexeme.text).head? l a)
      (h : Emits lexicon lexemes atoms) : Emits lexicon (l :: lexemes) (a :: atoms)

/-! ## 2. Cuts from left to right -/

theorem Lexeme.WellFormed.text_ne_nil {separator : Char} {l : Lexeme}
    (h : l.WellFormed separator) : l.text ≠ [] := by
  cases l with
  | number t =>
    obtain ⟨l, rfl⟩ := h
    exact l.text_ne_nil separator
  | word t =>
    obtain ⟨w, rfl⟩ := h
    exact List.cons_ne_nil w.first w.rest
  | mark c => exact List.cons_ne_nil c []

theorem head?_flatMap_text {separator : Char} {lexemes : List Lexeme}
    (h : ∀ l ∈ lexemes, l.WellFormed separator) :
    (lexemes.flatMap Lexeme.text).head? = lexemes.head?.bind (·.text.head?) := by
  cases lexemes with
  | nil => rfl
  | cons l rest =>
    rw [List.flatMap_cons, List.head?_append_of_ne_nil _ (h l List.mem_cons_self).text_ne_nil]
    rfl

theorem Lexeme.endsBefore_none (separator : Char) (l : Lexeme) : l.EndsBefore separator none := by
  cases l <;> simp [EndsBefore]

/-- **A cut is a lexeme in its place, and a cut of what is left.**  The conditions of `Cut` speak of
all lexemes at once; this takes them apart from left to right, as the scanner goes. -/
theorem cut_cons_iff {separator : Char} {operandDue : Bool} {text : List Char} {l : Lexeme}
    {lexemes : List Lexeme} :
    Cut separator operandDue text (l :: lexemes) ↔
      ∃ after, l.text ++ after = text ∧ l.WellFormed separator ∧ l.Signed operandDue ∧
        l.EndsBefore separator after.head? ∧ Cut separator l.awaitsOperand after lexemes := by
  constructor
  · intro ⟨htext, hwell, hends, hfirst, hsigns⟩
    obtain ⟨hl, hwell⟩ := List.forall_mem_cons.mp hwell
    obtain ⟨hend, hends⟩ := List.isChain_cons.mp hends
    obtain ⟨hsign, hsigns⟩ := List.isChain_cons.mp hsigns
    refine ⟨lexemes.flatMap Lexeme.text, htext, hl, hfirst l rfl, ?_, rfl, hwell, hends, hsign,
      hsigns⟩
    rw [head?_flatMap_text hwell]
    cases hnext : lexemes.head? with
    | none => exact l.endsBefore_none separator
    | some next => exact hend next hnext
  · rintro ⟨after, rfl, hl, hsigned, hend, rfl, hwell, hends, hfirst, hsigns⟩
    rw [head?_flatMap_text hwell] at hend
    refine ⟨rfl, List.forall_mem_cons.mpr ⟨hl, hwell⟩, List.isChain_cons.mpr ⟨?_, hends⟩, ?_,
      List.isChain_cons.mpr ⟨hfirst, hsigns⟩⟩
    · intro next hnext
      rw [Option.mem_def.mp hnext] at hend
      exact hend
    · rintro _ ⟨⟩
      exact hsigned

theorem cut_nil (separator : Char) (operandDue : Bool) : Cut separator operandDue [] [] :=
  ⟨rfl, by simp, .nil, by simp, .nil⟩

/-- **A lexeme in its place is what is split off there.**  It is not continued by what follows, so
the longest run of characters of its class is the lexeme and no more. -/
theorem Lexeme.WellFormed.split_text {separator : Char} {operandDue : Bool} {l : Lexeme}
    {after : List Char} (h : l.WellFormed separator) (hsigned : l.Signed operandDue)
    (hends : l.EndsBefore separator after.head?) :
    ∃ c tail, l.text = c :: tail ∧
      Lexeme.split separator operandDue c (tail ++ after) = (l, after) := by
  cases l with
  | number t =>
    obtain ⟨l, rfl⟩ := h
    have hdue : l.negative = true → operandDue = true := by
      intro hn
      exact (hsigned (by simp [Lexeme.text, Literal.text, Literal.sign, hn])).mp ⟨_, rfl⟩
    exact l.split_text hdue fun c hc => (hends c hc).1
  | word t =>
    obtain ⟨w, rfl⟩ := h
    exact ⟨w.first, w.rest, rfl, w.split_text separator operandDue hends⟩
  | mark c =>
    refine ⟨c, [], rfl, Lexeme.split_mark h.1 h.2 ?_ after⟩
    rintro rfl
    have hnumber : ¬ ∃ t, Lexeme.mark '-' = .number t := by simp
    simpa [hnumber] using hsigned rfl

/-- **A text has at most one cut.**  Both cuts begin with what is split off, and then both are cuts
of the same rest. -/
theorem Cut.unique {separator : Char} {operandDue : Bool} {text : List Char}
    {lexemes others : List Lexeme} (h : Cut separator operandDue text lexemes)
    (h' : Cut separator operandDue text others) : others = lexemes := by
  induction lexemes generalizing operandDue text others with
  | nil =>
    cases others with
    | nil => rfl
    | cons l others =>
      obtain ⟨after, htext, hl, -⟩ := cut_cons_iff.mp h'
      rw [← h.text_eq] at htext
      exact absurd (List.append_eq_nil_iff.mp htext).1 hl.text_ne_nil
  | cons l lexemes ih =>
    obtain ⟨after, htext, hl, hsigned, hend, hrest⟩ := cut_cons_iff.mp h
    obtain ⟨c, tail, hcons, hsplit⟩ := hl.split_text hsigned hend
    cases others with
    | nil =>
      rw [← h'.text_eq] at htext
      exact absurd (List.append_eq_nil_iff.mp htext).1 hl.text_ne_nil
    | cons l' others =>
      obtain ⟨after', htext', hl', hsigned', hend', hrest'⟩ := cut_cons_iff.mp h'
      obtain ⟨c', tail', hcons', hsplit'⟩ := hl'.split_text hsigned' hend'
      -- both are what is split off the same text
      rw [hcons, List.cons_append] at htext
      rw [hcons', List.cons_append, ← htext] at htext'
      obtain ⟨rfl, htail⟩ := List.cons.inj htext'
      rw [htail, hsplit] at hsplit'
      cases hsplit'
      rw [ih hrest hrest']

/-! ## 3. Cuts and readings -/

variable {lexicon : Lexicon}

theorem Lexicon.Means.expectsOperand_eq {following : Option Char} {l : Lexeme} {a : Atom}
    (h : lexicon.Means following l a) : a.expectsOperand = l.awaitsOperand := by
  cases h with
  | bracket hc => rcases hc with rfl | rfl <;> decide
  | operator hbracket hcomma =>
    rw [not_or] at hbracket
    simp [Lexeme.awaitsOperand, hbracket.2, Atom.operator, Atom.named, Atom.expectsOperand]
  | _ => rfl

theorem Lexicon.exists_means (hsep : Separates lexicon.separator) {following : Option Char}
    {l : Lexeme} (h : l.WellFormed lexicon.separator)
    (hends : l.EndsBefore lexicon.separator following) :
    ∃ a, lexicon.atom? l following = some a ∧ lexicon.Means following l a := by
  cases l with
  | number t =>
    obtain ⟨l, rfl⟩ := h
    refine ⟨_, atom?_literal hsep l fun c hc => (hends c hc).2, ?_⟩
    rw [Literal.name, ← l.numberName_text hsep]
    exact .number l rfl
  | word t =>
    by_cases hopen : following = some '('
    · refine ⟨.function (String.ofList t), ?_, .function t hopen⟩
      simp only [atom?, if_pos hopen]
    · refine ⟨lexicon.operand (String.ofList t), by simp only [atom?, if_neg hopen], ?_⟩
      unfold operand
      split
      · rename_i hvalue
        exact .constant t hopen hvalue
      · rename_i hnone
        exact .variable t hopen hnone
  | mark c =>
    by_cases hbracket : c = '(' ∨ c = ')'
    · exact ⟨.bracket c, by rw [atom?, if_pos hbracket], .bracket hbracket⟩
    · by_cases hcomma : c = ';'
      · refine ⟨.comma, by rw [atom?, if_neg hbracket, if_pos hcomma], ?_⟩
        rw [hcomma]
        exact .comma
      · exact ⟨.operator c, by rw [atom?, if_neg hbracket, if_neg hcomma],
          .operator hbracket hcomma⟩

/-- **A text that can be cut is read**, as what its lexemes mean.  Whether an operand is due is told
by the lexeme before, as it is by the atom that was read for it. -/
theorem Cut.exists_reads (hsep : Separates lexicon.separator) {operandDue : Bool}
    {text : List Char} {lexemes : List Lexeme}
    (h : Cut lexicon.separator operandDue text lexemes) :
    ∃ atoms, lexicon.Reads operandDue text atoms ∧ lexicon.Emits lexemes atoms := by
  induction lexemes generalizing operandDue text with
  | nil =>
    obtain rfl : [] = text := h.text_eq
    exact ⟨[], .done, .nil⟩
  | cons l lexemes ih =>
    obtain ⟨after, rfl, hl, hsigned, hend, hrest⟩ := cut_cons_iff.mp h
    obtain ⟨a, hatom, hmeans⟩ := Lexicon.exists_means hsep hl hend
    obtain ⟨atoms, hreads, hemits⟩ := ih hrest
    obtain ⟨c, tail, hcons, hsplit⟩ := hl.split_text hsigned hend
    rw [← hmeans.expectsOperand_eq] at hreads
    rw [← hrest.text_eq] at hmeans
    refine ⟨a :: atoms, ?_, .cons hmeans hemits⟩
    rw [hcons]
    exact .next hsplit hatom hreads

theorem Token.Begins.lexeme (hsep : Separates lexicon.separator) {operandDue : Bool}
    {text after : List Char} {a : Atom} {t : Token} (h : t.Begins lexicon operandDue text after a) :
    (t.lexeme lexicon.separator).WellFormed lexicon.separator ∧
    (t.lexeme lexicon.separator).Signed operandDue ∧
    (t.lexeme lexicon.separator).EndsBefore lexicon.separator after.head? := by
  have hallowed := h.allowed
  have hends := h.ends
  have hword : ∀ w : Word, (Lexeme.word w.text).Signed operandDue := by
    intro w hminus
    exact absurd (Option.some.inj hminus) w.isWordStart_first.2.1
  have hmark : ∀ c, Token.isMark lexicon.separator c = true → (c = '-' → operandDue = false) →
      (Lexeme.mark c).WellFormed lexicon.separator ∧ (Lexeme.mark c).Signed operandDue ∧
        (Lexeme.mark c).EndsBefore lexicon.separator after.head? := by
    intro c hc hminus
    refine ⟨hsep.of_isMark hc, ?_, trivial⟩
    intro hfirst
    simp [hminus (Option.some.inj hfirst)]
  cases t with
  | literal l =>
    refine ⟨⟨l, rfl⟩, ?_, hends⟩
    intro hminus
    obtain ⟨c, tail, htext, hc, -⟩ := l.text_eq_cons lexicon.separator
    obtain rfl : c = '-' := by
      rw [Token.lexeme, Lexeme.text, htext] at hminus
      exact Option.some.inj hminus
    rcases hc with hdigit | ⟨-, hn⟩
    · cases hdigit
    · simp [Token.lexeme, hallowed hn]
  | name w => exact ⟨⟨w, rfl⟩, hword w, fun c hc => (hends c hc).1⟩
  | function w =>
    refine ⟨⟨w, rfl⟩, hword w, ?_⟩
    intro c hc
    obtain rfl : '(' = c := Option.some.inj (hends.symm.trans hc)
    decide
  | opening => exact hmark '(' (by simp [Token.isMark]) (by simp)
  | closing => exact hmark ')' (by simp [Token.isMark]) (by simp)
  | comma => exact hmark ';' (by simp [Token.isMark]) (by simp)
  | operator c => exact hmark c (by simp [Token.isMark, hallowed.1]) hallowed.2

/-- **A text over the alphabet that is read can be cut**, and its atoms are what the lexemes
mean. -/
theorem Lexicon.Reads.exists_cut (hsep : Separates lexicon.separator) {operandDue : Bool}
    {text : List Char} {atoms : List Atom} (h : lexicon.Reads operandDue text atoms)
    (halphabet : ∀ c ∈ text, inAlphabet lexicon.separator c = true) :
    ∃ lexemes, Cut lexicon.separator operandDue text lexemes ∧ lexicon.Emits lexemes atoms := by
  induction h with
  | done => exact ⟨[], cut_nil .., .nil⟩
  | @next operandDue c rest after lexeme a atoms hsplit hatom h ih =>
    obtain ⟨t, ht⟩ := Token.exists_of_split hsep halphabet hsplit hatom
    obtain ⟨lexemes, hrest, hemits⟩ := ih fun d hd => halphabet d (ht.mem_text hd)
    obtain ⟨hwell, hsigned, hend⟩ := ht.lexeme hsep
    -- the token is the lexeme that was split off, so that both await the same
    obtain ⟨d, tail, htext, -, hmeant⟩ := Token.split_text hsep ht.allowed ht.ends
    obtain ⟨b, hb, hmeans⟩ := exists_means hsep hwell hend
    rw [hmeant, ← ht.atom_eq] at hb
    obtain rfl := Option.some.inj hb
    rw [hmeans.expectsOperand_eq] at hrest
    rw [← hrest.text_eq] at hmeans
    refine ⟨_, cut_cons_iff.mpr ⟨after, ?_, hwell, hsigned, hend, hrest⟩, .cons hmeans hemits⟩
    rw [← ht.text_eq]
    cases t <;> rfl

/-! ## 4. Formulas -/

namespace Lexicon

theorem kept_of_unbounded (lexicon : Lexicon) (text : List Char) :
    (lexicon.scan text (.bounded none)).2.overflowed = false := by
  suffices h : (lexicon.scan text (.bounded none)).2.capacity = none ∧
      (lexicon.scan text (.bounded none)).2.overflowed = false from h.2
  apply scan_preserves (P := fun s => s.capacity = none ∧ s.overflowed = false) _ ⟨rfl, rfl⟩
  intro s a ⟨hcapacity, hkept⟩
  rw [AtomSeq.capacity_push, AtomSeq.overflowed_push]
  simp [hcapacity, hkept, AtomSeq.accepts]

theorem fits_unbounded (count : Nat) : (AtomSeq.bounded none).Fits count := by
  simp [AtomSeq.Fits, AtomSeq.bounded]

/-- **The scanner succeeds exactly on the texts that can be cut.**  The sequence has no capacity
here, since an atom that is dropped would change what is due after it. -/
theorem scan_ok_iff_cut (hsep : Separates lexicon.separator) {text : List Char}
    (halphabet : ∀ c ∈ text, inAlphabet lexicon.separator c = true) :
    (lexicon.scan text (.bounded none)).1 = .ok () ↔
      ∃ lexemes, Cut lexicon.separator true text lexemes := by
  constructor
  · intro hok
    obtain ⟨atoms, hreads, -⟩ := reads_of_scan (Prod.ext hok rfl) (lexicon.kept_of_unbounded text)
    obtain ⟨lexemes, hcut, -⟩ := hreads.exists_cut hsep halphabet
    exact ⟨lexemes, hcut⟩
  · rintro ⟨lexemes, hcut⟩
    obtain ⟨atoms, hreads, -⟩ := hcut.exists_reads hsep
    rw [scan_of_reads hreads rfl (fits_unbounded _)]

theorem emits_of_cut (hsep : Separates lexicon.separator) {text : List Char}
    {lexemes : List Lexeme} (h : Cut lexicon.separator true text lexemes) :
    lexicon.Emits lexemes (lexicon.scan text (.bounded none)).2.toList := by
  obtain ⟨atoms, hreads, hemits⟩ := h.exists_reads hsep
  rw [scan_of_reads hreads rfl (fits_unbounded _), AtomSeq.toList_pushAll (fits_unbounded _)]
  exact hemits

/-- **A formula is cut exactly into the lexemes of its grammar.**  It is refused for a character
beyond the alphabet, or because it cannot be cut; else its cut is the only one, and its atoms are
what the lexemes mean. -/
theorem tokenize_cut {config : Config} (hcheck : config.check = .ok ())
    (bindings : NameTable Float) (formula : String) :
    let lexicon : Lexicon := ⟨config.separator, config.constants, bindings⟩
    let text := normalize config.separator formula.toList
    let read := lexicon.tokenize formula (.bounded none)
    (read.1 = .error .invalidCharacter ↔ ∃ c ∈ text, inAlphabet config.separator c = false) ∧
    ((∀ c ∈ text, inAlphabet config.separator c = true) →
      (read.1 = .ok () ↔ ∃ lexemes, Cut config.separator true text lexemes) ∧
      (read.1 = .ok () ∨ read.1 = .error .malformed) ∧
      ∀ lexemes, Cut config.separator true text lexemes →
        lexicon.Emits lexemes read.2.toList ∧
        ∀ others, Cut config.separator true text others → others = lexemes) := by
  intro lexicon text read
  have hsep : Separates lexicon.separator := config.separates hcheck
  by_cases halphabet : ∀ c ∈ text, inAlphabet config.separator c = true
  · have hread : read = lexicon.scan text (.bounded none) :=
      (lexicon.tokenize_eq_scan ..).trans (if_pos (List.all_eq_true.mpr halphabet))
    have hends := lexicon.scan_ok_or_malformed text (.bounded none)
    rw [hread]
    refine ⟨?_, fun _ => ⟨scan_ok_iff_cut hsep halphabet, hends, ?_⟩⟩
    · constructor
      · intro hinvalid
        rw [hinvalid] at hends
        rcases hends with hends | hends <;> cases hends
      · rintro ⟨c, hc, hnot⟩
        rw [halphabet c hc] at hnot
        cases hnot
    · intro lexemes hcut
      exact ⟨emits_of_cut hsep hcut, fun others hothers => hcut.unique hothers⟩
  · have hread : read = (.error .invalidCharacter, .bounded none) :=
      (lexicon.tokenize_eq_scan ..).trans (if_neg (by rwa [List.all_eq_true]))
    refine ⟨?_, fun h => absurd h halphabet⟩
    rw [hread]
    push Not at halphabet
    simpa using halphabet

/-- A sign and a separator are a number, and so are digits and a separator; a sign before another
sign is not, and there is nothing else that it could be. -/
theorem tokenize_cut_signs :
    let lexicon : Lexicon := ⟨Config.standard.separator, Config.standard.constants, .empty⟩
    Config.standard.check = .ok () ∧
    (∃ lexemes atoms, Cut '.' true (normalize '.' "-.-f(3.;-2)+e".toList) lexemes ∧
      lexicon.Emits lexemes atoms ∧
      atoms.map (fun a => (a.kind, a.name)) =
        [(.value, "-.0"), (.operator, "-"), (.function, "F"), (.bracket, "("), (.value, "3.0"),
          (.comma, ";"), (.value, "-2"), (.bracket, ")"), (.operator, "+"), (.value, "E")]) ∧
    ¬ ∃ lexemes, Cut '.' true (normalize '.' "--3".toList) lexemes := by
  intro lexicon
  have hcheck : Config.standard.check = .ok () := rfl
  have hcall := (tokenize_cut hcheck .empty "-.-f(3.;-2)+e").2
    (List.all_iff_forall_prop.mp (by decide +kernel))
  have hsigns := (tokenize_cut hcheck .empty "--3").2
    (List.all_iff_forall_prop.mp (by decide +kernel))
  have hread : (lexicon.tokenize "-.-f(3.;-2)+e" (.bounded none)).1.toOption = some () := by
    decide +kernel
  have hrefused : (lexicon.tokenize "--3" (.bounded none)).1.toOption = none := by decide +kernel
  refine ⟨hcheck, ?_, ?_⟩
  · have hok : (lexicon.tokenize "-.-f(3.;-2)+e" (.bounded none)).1 = .ok () := by
      rcases hcall.2.1 with hok | hmalformed
      · exact hok
      · rw [hmalformed] at hread
        cases hread
    obtain ⟨lexemes, hcut⟩ := hcall.1.mp hok
    exact ⟨lexemes, _, hcut, (hcall.2.2 lexemes hcut).1, by decide +kernel⟩
  · intro hcut
    have hok : (lexicon.tokenize "--3" (.bounded none)).1 = .ok () := hsigns.1.mpr hcut
    rw [hok] at hrefused
    cases hrefused

end Lexicon

end Reckoner
