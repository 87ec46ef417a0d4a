/-
# The variables that a formula mentions

A formula depends on the variables through the words in it that stand by themselves: those that no
letter, digit or underscore goes on, and that no bracket is opened after (`Mentions`).  Of these,
the names of constants do not count either.

Names are resolved while a formula is cut, so that the argument is about the scanner: lexicons that
read the mentioned words in the same way cut the text in the same way, also if they come upon
something malformed (`Lexicon.AlikeIn.scan_eq`).  What follows a lexeme never goes on a word before
it, so that the words that the scanner finds are words of the text (`Clear.of_split`).
`Session.evaluate_mentioned` says what this means for sessions.
-/
import Reckoner.Proofs.EndToEnd
import Reckoner.Proofs.History

namespace Reckoner

/-! ## 1. Words of a text -/

/-- The word stands in the text by itself, and is not called. -/
def Mentions (text : List Char) (w : Word) : Prop :=
  ∃ front rest, front ++ (w.text ++ rest) = text ∧
    (∀ c ∈ front.getLast?, Lexeme.isWordPart c = false) ∧
    ∀ c ∈ rest.head?, Lexeme.isWordPart c = false ∧ c ≠ '('

/-- A word is mentioned if it is found at some place.  There are finitely many places, so it can be
decided whether a word is mentioned. -/
theorem mentions_iff {text : List Char} {w : Word} :
    Mentions text w ↔ ∃ place ∈ List.range (text.length + 1),
      w.text ++ text.drop (place + w.text.length) = text.drop place ∧
      ((text.take place).getLast?.all fun c => !Lexeme.isWordPart c) = true ∧
      ((text.drop (place + w.text.length)).head?.all fun c =>
        !Lexeme.isWordPart c && c != '(') = true := by
  simp only [Option.all_eq_true, Bool.not_eq_true', Bool.and_eq_true, bne_iff_ne, List.mem_range]
  constructor
  · rintro ⟨front, rest, rfl, hfront, hrest⟩
    have htake : (front ++ (w.text ++ rest)).take front.length = front := List.take_left
    have hdrop : (front ++ (w.text ++ rest)).drop (front.length + w.text.length) = rest := by
      rw [← List.append_assoc, ← List.length_append, List.drop_left]
    refine ⟨front.length, ?_, ?_, ?_, ?_⟩
    · simp only [List.length_append]
      omega
    · rw [hdrop, List.drop_left]
    · rw [htake]
      exact hfront
    · rw [hdrop]
      exact hrest
  · rintro ⟨place, -, htext, hfront, hrest⟩
    refine ⟨text.take place, text.drop (place + w.text.length), ?_, hfront, hrest⟩
    rw [htext, List.take_append_drop]

instance (text : List Char) (w : Word) : Decidable (Mentions text w) :=
  decidable_of_iff _ mentions_iff.symm

/-- A word that begins here goes on no word before. -/
def Clear (front rest : List Char) : Prop :=
  ∀ c ∈ rest.head?, Lexeme.isWordStart c = true → ∀ d ∈ front.getLast?, Lexeme.isWordPart d = false

section Clear

variable {l : Lexicon} {operandDue : Bool} {c : Char} {rest : List Char}

theorem not_isWordPart_of_not_start (hdigit : c.isDigit = false)
    (hstart : Lexeme.isWordStart c = false) : Lexeme.isWordPart c = false := by
  simp only [Lexeme.isWordStart, Bool.or_eq_false_iff] at hstart
  simp [Lexeme.isWordPart, Char.isAlphanum, hdigit, hstart]

theorem isWordPart_of_isWordStart (h : Lexeme.isWordStart c = true) :
    Lexeme.isWordPart c = true := by
  simp only [Lexeme.isWordStart, Bool.or_eq_true] at h
  rcases h with h | h <;> simp [Lexeme.isWordPart, Char.isAlphanum, h]

/-- **After a lexeme that has a meaning the text is clear.**  A number must not run into a word, and
a word takes all that could go on it. -/
theorem Clear.of_split {a : Atom} (front : List Char)
    (hatom : l.atom? (Lexeme.split l.separator operandDue c rest).1
      (Lexeme.split l.separator operandDue c rest).2.head? = some a) :
    Clear (front ++ (Lexeme.split l.separator operandDue c rest).1.text)
      (Lexeme.split l.separator operandDue c rest).2 := by
  intro d hd hstart e he
  unfold Lexeme.split at hatom hd he
  split at hatom
  · -- a number that runs into a word is malformed
    rename_i hnumber
    rw [if_pos hnumber] at hd
    have hany := (Option.any_eq_true _ _).mpr ⟨d, hd, hstart⟩
    rw [Lexicon.atom?, if_pos hany] at hatom
    cases hatom
  · rename_i hnumber
    rw [if_neg hnumber] at hd he
    split at hatom
    · -- a word takes all that goes on it
      rename_i hword
      rw [if_pos hword] at hd
      have hnot := head?_dropWhile Lexeme.isWordPart rest d hd
      rw [isWordPart_of_isWordStart hstart] at hnot
      cases hnot
    · rename_i hword
      rw [if_neg hword] at he
      simp only [Lexeme.text, List.getLast?_concat, Option.mem_def, Option.some.injEq] at he
      subst he
      simp only [Bool.or_eq_true, not_or, Bool.not_eq_true] at hnumber hword
      exact not_isWordPart_of_not_start hnumber.1 hword

end Clear

/-! ## 2. The scanner -/

/-- Both lexicons read the words that the text mentions in the same way.  Of other words nothing is
asked, called ones included: functions are not looked up here. -/
structure Lexicon.AlikeIn (text : List Char) (l m : Lexicon) : Prop where
  separator : l.separator = m.separator
  operand : ∀ w, Mentions text w → l.operand w.name = m.operand w.name

namespace Lexicon.AlikeIn

variable {l m : Lexicon}

theorem atom?_eq {front rest : List Char} {c : Char} (h : AlikeIn (front ++ c :: rest) l m)
    (hsep : Separates l.separator) (halphabet : ∀ d ∈ c :: rest, inAlphabet l.separator d = true)
    (hclear : Clear front (c :: rest)) (operandDue : Bool) :
    l.atom? (Lexeme.split l.separator operandDue c rest).1
        (Lexeme.split l.separator operandDue c rest).2.head? =
      m.atom? (Lexeme.split l.separator operandDue c rest).1
        (Lexeme.split l.separator operandDue c rest).2.head? := by
  unfold Lexeme.split
  split
  · simp only [atom?, h.separator]
  · split
    · rename_i hstart
      obtain ⟨w, hw⟩ := Word.exists_of_cut hsep halphabet hstart
      simp only [atom?, ← hw]
      by_cases hopen : (rest.dropWhile Lexeme.isWordPart).head? = some '('
      · rw [if_pos hopen, if_pos hopen]
      · have hmentions : Mentions (front ++ c :: rest) w := by
          refine ⟨front, rest.dropWhile Lexeme.isWordPart, ?_, hclear c rfl hstart, ?_⟩
          · rw [hw, List.cons_append, List.takeWhile_append_dropWhile]
          · intro d hd
            refine ⟨head?_dropWhile _ _ d hd, ?_⟩
            rintro rfl
            exact hopen hd
        rw [if_neg hopen, if_neg hopen]
        exact congrArg some (h.operand w hmentions)
    · rfl

/-- **Only the mentioned words matter to the scanner.**  By induction on the text that is left, with
the part before it, since a word is mentioned at a place of the whole text. -/
theorem scan_eq (hsep : Separates l.separator) {front text : List Char}
    (h : AlikeIn (front ++ text) l m) (halphabet : ∀ d ∈ text, inAlphabet l.separator d = true)
    (hclear : Clear front text) (out : AtomSeq) : l.scan text out = m.scan text out := by
  induction text, out using l.scan_induct generalizing front with
  | done out => rw [scan_nil, scan_nil]
  | stop c rest out cut hcut hatom =>
    have hsame := h.atom?_eq hsep halphabet hclear out.expectsOperand
    rw [hcut, hatom] at hsame
    rw [scan_of_none hcut hatom, scan_of_none (h.separator ▸ hcut) hsame.symm]
  | next c rest out cut a hcut hatom ih =>
    have hsame := h.atom?_eq hsep halphabet hclear out.expectsOperand
    rw [hcut, hatom] at hsame
    have hcut' := h.separator ▸ hcut
    have htext : cut.1.text ++ cut.2 = c :: rest := hcut ▸ Lexeme.text_split ..
    have hnext : Clear (front ++ cut.1.text) cut.2 := by
      rw [← hcut] at hatom ⊢
      exact .of_split front hatom
    rw [← htext, ← List.append_assoc] at h
    have hrest : ∀ d ∈ cut.2, inAlphabet l.separator d = true := by
      intro d hd
      apply halphabet
      rw [← htext]
      exact List.mem_append_right _ hd
    rw [scan_of_some hcut hatom, scan_of_some hcut' hsame.symm]
    exact ih h hrest hnext

theorem tokenize_eq {formula : String} (h : AlikeIn (normalize l.separator formula.toList) l m)
    (hsep : Separates l.separator) (out : AtomSeq) :
    l.tokenize formula out = m.tokenize formula out := by
  simp only [tokenize_eq_scan, ← h.separator]
  split
  · rename_i halphabet
    have hclear : Clear [] (normalize l.separator formula.toList) := by simp [Clear]
    exact scan_eq hsep h (List.all_eq_true.mp halphabet) hclear out
  · rfl

end Lexicon.AlikeIn

/-! ## 3. Names of words -/

/-- A word is its own upper case.  So a name that was bound in small letters is found under the name
that the formula gives. -/
theorem Word.uppercase_name (w : Word) : Text.uppercase w.name = w.name := by
  have hpoint : Text.upperChar '.' = ['.'] := by decide
  have hself : ∀ {text : List Char}, (∀ c ∈ text, inAlphabet '.' c = true) →
      text.flatMap Text.upperChar = text := by
    intro text h
    induction text with
    | nil => rfl
    | cons c rest ih =>
      obtain ⟨hc, hrest⟩ := List.forall_mem_cons.mp h
      rw [List.flatMap_cons, upperChar_of_inAlphabet hpoint hc, ih hrest]
      rfl
  rw [Text.uppercase, name, String.toList_ofList, hself (w.inAlphabet_text '.')]

/-- A word is known by its name. -/
theorem Word.name_injective {v w : Word} (h : v.name = w.name) : v = w := by
  obtain ⟨hfirst, hrest⟩ := List.cons.inj (String.ofList_injective h)
  cases v
  cases w
  cases hfirst
  cases hrest
  rfl

/-- What has a word for its upper case is normalised to it. -/
theorem normalize_of_uppercase {separator : Char} {name : String} {w : Word}
    (h : Text.uppercase name = w.name) : normalize separator name.toList = w.text := by
  have hupper : name.toList.flatMap Text.upperChar = w.text := by
    rw [← Text.toList_uppercase, h, Word.name, String.toList_ofList]
  have hword : ∀ c ∈ w.text, Lexeme.isWordPart c = true := by
    intro c hc
    rcases List.mem_cons.mp hc with rfl | hc
    · exact isWordPart_of_isWordStart w.isWordStart_first.2.2
    · exact w.isWordPart_rest c hc
  have hspaces : name.toList.filter (· ≠ ' ') = name.toList := by
    rw [List.filter_eq_self]
    intro c hc
    rw [decide_eq_true_iff]
    rintro rfl
    -- a space would be left in the upper case
    have hspace : ' ' ∈ w.text := by
      rw [← hupper]
      exact List.mem_flatMap.mpr ⟨' ', hc, by decide⟩
    exact absurd (hword ' ' hspace) (by decide)
  have hpoints : ∀ c ∈ w.text, (if c = '.' ∨ c = ',' then separator else c) = id c := by
    intro c hc
    apply if_neg
    rintro (rfl | rfl)
    · exact absurd (hword '.' hc) (by decide)
    · exact absurd (hword ',' hc) (by decide)
  rw [normalize, hspaces, hupper, List.map_congr_left hpoints, List.map_id]

/-! ## 4. Sessions -/

namespace Session

variable {σ : Type}

/-- The tables give the word the same value, or it is a constant.  A constant hides a variable, and
what is hidden may differ. -/
def ValuesMeet (s t : Session σ) (w : Word) : Prop :=
  s.config.constants.get? w.name = none →
    (s.bindings.get? w.name).getD 0 = (t.bindings.get? w.name).getD 0

theorem operand_eq {s t : Session σ} (hconfig : s.config = t.config) {w : Word}
    (h : s.ValuesMeet t w) : s.lexicon.operand w.name = t.lexicon.operand w.name := by
  simp only [lexicon, Lexicon.operand, ← hconfig]
  cases hconstant : s.config.constants.get? w.name with
  | some value => rfl
  | none => rw [h hconstant]

variable [Chance.Source σ]

/-- The sessions answer the formula in the same way, leave the same to be seen, and draw the
same. -/
structure AlikeOn (s t : Session σ) (formula : String) : Prop where
  agrees : (s.evaluate formula).Agrees (t.evaluate formula)
  source : (s.evaluate formula).session.source = (t.evaluate formula).session.source

theorem alikeOn_of_mentioned {s t : Session σ} (hcheck : s.config.check = .ok ())
    (hconfig : s.config = t.config) (hsource : s.source = t.source) {formula : String}
    (h : ∀ w, Mentions (normalize s.config.separator formula.toList) w → s.ValuesMeet t w) :
    s.AlikeOn t formula := by
  have halike : Lexicon.AlikeIn (normalize s.config.separator formula.toList)
      s.lexicon t.lexicon := by
    refine ⟨?_, fun w hw => operand_eq hconfig (h w hw)⟩
    rw [lexicon, lexicon, hconfig]
  have hcut : s.cut formula = t.cut formula := by
    rw [cut, cut, halike.tokenize_eq (Config.separates hcheck), hconfig]
  obtain ⟨hagrees, hsame⟩ := agrees_of_source hconfig hsource hcut
  exact ⟨hagrees, hsame⟩

/-- **A formula that is a single word has a value**: that of the constant of this name, and else
that of the variable. -/
theorem evaluate_word {s : Session σ} (hcheck : s.config.check = .ok ()) {name : String} {w : Word}
    (hname : Text.uppercase name = w.name) : (s.evaluate name).outcome =
      .ok ((s.config.constants.get? name).getD ((s.bindings.get? name).getD 0)) := by
  let e : Formula 4 := .name w
  have hroom : ∀ most ∈ s.config.maxAtoms, (e.atoms s.lexicon).length ≤ most := by
    intro most hmost
    exact Config.one_le_of_mem_maxAtoms hcheck hmost
  obtain ⟨-, -, houtcome, -⟩ :=
    e.leaves (Config.separates hcheck) (normalize_of_uppercase hname) hroom
  have hsame : ∀ t : NameTable Float, t.get? w.name = t.get? name := by
    intro t
    rw [NameTable.get?, NameTable.get?, w.uppercase_name, hname]
  have hoperand : (s.lexicon.operand w.name).value =
      (s.config.constants.get? name).getD ((s.bindings.get? name).getD 0) := by
    rw [lexicon, Lexicon.operand, hsame, hsame]
    cases s.config.constants.get? name <;> rfl
  rw [houtcome, ← hoperand]
  rfl

theorem evaluate_bound {s : Session σ} (hcheck : s.config.check = .ok ()) {name : String}
    {w : Word} (hname : Text.uppercase name = w.name)
    (hconstant : s.config.constants.get? name = none) (value : Float) :
    ((s.bind name value).evaluate name).outcome = .ok value := by
  have hbound : (s.bind name value).bindings.get? name = some value := by
    rw [bind, NameTable.get?_insert, if_pos rfl]
  rw [evaluate_word (s := s.bind name value) hcheck hname, hbound, config_bind, hconstant]
  rfl

/-- **Only the variables that a formula mentions matter.**  Sessions under one configuration and
with one source that give them the same values, zero if they are not bound, are alike on the
formula.  So it matters neither whether another name is bound, bound anew or unbound, nor in which
order names were bound, nor whether a name is unbound or zero.  And a name is mentioned by the
formula that it is in any letter case: bound, it is its value. -/
theorem evaluate_mentioned (s : Session σ) (hcheck : s.config.check = .ok ()) :
    (∀ (t : Session σ) (formula : String), s.config = t.config → s.source = t.source →
      (∀ w, Mentions (normalize s.config.separator formula.toList) w → s.ValuesMeet t w) →
      s.AlikeOn t formula) ∧
    (∀ name formula, (∀ w, Mentions (normalize s.config.separator formula.toList) w →
        s.config.constants.get? w.name = none → w.name ≠ Text.uppercase name) →
      (∀ value, (s.bind name value).AlikeOn s formula) ∧ (s.unbind name).2.AlikeOn s formula) ∧
    (∀ first x second y formula, Text.uppercase first ≠ Text.uppercase second →
      ((s.bind first x).bind second y).AlikeOn ((s.bind second y).bind first x) formula) ∧
    (∀ name formula, s.bindings.get? name = none → (s.bind name 0).AlikeOn s formula) ∧
    (∀ name value, ∀ w : Word, Text.uppercase name = w.name →
      s.config.constants.get? name = none →
      ((s.bind name value).evaluate name).outcome = .ok value) := by
  refine ⟨?_, ?_, ?_, ?_, ?_⟩
  · intro t formula hconfig hsource h
    exact alikeOn_of_mentioned hcheck hconfig hsource h
  · intro name formula hother
    have hne : ∀ w, Mentions (normalize s.config.separator formula.toList) w →
        s.config.constants.get? w.name = none → Text.uppercase w.name ≠ Text.uppercase name := by
      intro w hw hconstant
      rw [w.uppercase_name]
      exact hother w hw hconstant
    constructor
    · intro value
      refine alikeOn_of_mentioned (s := s.bind name value) (t := s) hcheck rfl rfl ?_
      intro w hw hconstant
      rw [bind, NameTable.get?_insert, if_neg (hne w hw hconstant)]
    · refine alikeOn_of_mentioned (s := (s.unbind name).2) (t := s) hcheck rfl rfl ?_
      intro w hw hconstant
      simp only [unbind, NameTable.remove, NameTable.get?_erase_of_ne _ (hne w hw hconstant)]
  · intro first x second y formula hne
    refine alikeOn_of_mentioned (s := (s.bind first x).bind second y)
      (t := (s.bind second y).bind first x) hcheck (by simp) (by simp) ?_
    intro w _ _
    simp only [bind, NameTable.get?_insert]
    by_cases hfirst : Text.uppercase w.name = Text.uppercase first
    · have hsecond : Text.uppercase w.name ≠ Text.uppercase second := by
        rw [hfirst]
        exact hne
      rw [if_neg hsecond, if_pos hfirst, if_pos hfirst]
    · simp only [if_neg hfirst]
  · intro name formula hunbound
    refine alikeOn_of_mentioned (s := s.bind name 0) (t := s) hcheck rfl rfl ?_
    intro w _ _
    rw [bind, NameTable.get?_insert]
    split
    · rename_i hname
      have hnone : s.bindings.get? w.name = none := by
        rw [← hunbound, NameTable.get?, NameTable.get?, hname]
      rw [hnone]
      rfl
    · rfl
  · intro name value w hname hconstant
    exact evaluate_bound hcheck hname hconstant value

/-- Bindings of a constant and of a name that is only called are not seen, a variable that is zero
need not be bound, and a name may be spelled with a ligature. -/
theorem evaluate_mentioned_max :
    let s : Session Chance.Cycle := (((Session.fresh .standard (.ofList [0.5])).bind "x" 3).bind
      "max" 7).bind "pi" 2
    let t : Session Chance.Cycle :=
      ((Session.fresh .standard (.ofList [0.5])).bind "y" 0).bind "X" 3
    s.config.check = .ok () ∧
    (∀ w, Mentions (normalize s.config.separator "max(x; y)*pi".toList) w → s.ValuesMeet t w) ∧
    s.AlikeOn t "max(x; y)*pi" ∧ s.bindings ≠ t.bindings ∧
    (s.unbind "Max").2.AlikeOn s "max(x; y)*pi" ∧
    ((s.bind "ﬁrst" 2).evaluate "ﬁrst").outcome = .ok 2 := by
  intro s t
  have hcheck : s.config.check = .ok () := rfl
  have htext : normalize s.config.separator "max(x; y)*pi".toList = "MAX(X;Y)*PI".toList := by
    decide +kernel
  let max : Word := ⟨'M', ['A', 'X'], by decide, by decide⟩
  have hmax : ∀ w : Word, Mentions (normalize s.config.separator "max(x; y)*pi".toList) w →
      w.name ≠ "MAX" := by
    intro w hw hcalled
    obtain rfl : w = max := Word.name_injective hcalled
    rw [htext] at hw
    exact absurd hw (by decide +kernel)
  have hvalues : ∀ w, Mentions (normalize s.config.separator "max(x; y)*pi".toList) w →
      s.ValuesMeet t w := by
    intro w hw hconstant
    have hpi : w.name ≠ "PI" := by
      intro h
      rw [h] at hconstant
      revert hconstant
      decide +kernel
    have hupper :
        ["x", "y", "X", "max", "pi"].map Text.uppercase = ["X", "Y", "X", "MAX", "PI"] := by
      decide +kernel
    simp only [List.map_cons, List.cons.injEq] at hupper
    obtain ⟨hx, hy, hX, hmaximum, hp, -⟩ := hupper
    simp only [s, t, bind, NameTable.get?_insert, w.uppercase_name, hx, hy, hX, hmaximum, hp,
      if_neg hpi, if_neg (hmax w hw)]
    split
    · rfl
    · split <;> rfl
  obtain ⟨halike, hother, -, -, hbound⟩ := evaluate_mentioned s hcheck
  refine ⟨hcheck, hvalues, halike t _ (by simp [s, t]) (by simp [s, t]) hvalues,
    by decide +kernel, ?_, ?_⟩
  · refine (hother "Max" _ ?_).2
    intro w hw _
    exact hmax w hw
  · exact hbound "ﬁrst" 2 ⟨'F', ['I', 'R', 'S', 'T'], by decide, by decide⟩ (by decide +kernel)
      (by decide +kernel)

end Session

end Reckoner
