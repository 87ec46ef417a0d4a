/-
# The decimal separator is cosmetic

Two sessions that differ in their decimal separators alone evaluate a formula in the same way, if
neither separator stands in it except as a point or a comma.  The formula is normalised to the same
text with the other separator (`normalize_exchange`), the scanner cuts it into the same lexemes
(`Lexicon.scan_exchange`), and the later stages do not look at separators at all
(`postOrder_exchange`, `Evaluation.runFrom_exchange`).  `Session.evaluate_exchange` puts the stages
together.
-/
import Reckoner.Proofs.Capacity
import Reckoner.Proofs.Exchange
import Reckoner.Proofs.Stages

namespace Reckoner

variable {old new : Char}

/-! ## 1. Texts -/

/-- A formula in which neither separator stands for itself is normalised to the same text, with the
other separator. -/
theorem normalize_exchange {formula : List Char}
    (h : ∀ c ∈ formula.flatMap Text.upperChar, c = old ∨ c = new → c = '.' ∨ c = ',') :
    normalize new formula = (normalize old formula).map (exchangeChar old new) ∧
      ∀ c ∈ normalize old formula, c = new → c = old := by
  have hkept : ∀ c ∈ (formula.filter (· ≠ ' ')).flatMap Text.upperChar,
      c = old ∨ c = new → c = '.' ∨ c = ',' := by
    intro c hc
    obtain ⟨d, hd, hc⟩ := List.mem_flatMap.mp hc
    exact h c (List.mem_flatMap.mpr ⟨d, (List.mem_filter.mp hd).1, hc⟩)
  constructor
  · rw [normalize, normalize, List.map_map]
    apply List.map_congr_left
    intro c hc
    by_cases hpoint : c = '.' ∨ c = ','
    · simp [hpoint, exchangeChar]
    · have hold : c ≠ old := fun hold => hpoint (hkept c hc (Or.inl hold))
      simp [hpoint, exchangeChar, hold]
  · intro c hc hnew
    obtain ⟨d, hd, rfl⟩ := List.mem_map.mp hc
    by_cases hpoint : d = '.' ∨ d = ','
    · exact if_pos hpoint
    · rw [if_neg hpoint] at hnew
      exact absurd (hkept d hd (Or.inr hnew)) hpoint

theorem exchangeChar_eq_new {c : Char} (hc : c = new → c = old) :
    exchangeChar old new c = new ↔ c = old := by
  unfold exchangeChar
  split
  · rename_i h
    exact ⟨fun _ => h, fun _ => rfl⟩
  · rename_i h
    exact ⟨hc, fun hold => absurd hold h⟩

theorem inAlphabet_exchangeChar {c : Char} (hc : c = new → c = old) :
    inAlphabet new (exchangeChar old new c) = inAlphabet old c := by
  by_cases h : c = old
  · simp [h, exchangeChar, inAlphabet]
  · have hother : (c == new) = false := by
      rw [beq_eq_false_iff_ne]
      exact fun hnew => h (hc hnew)
    have hsame : (c == old) = false := by
      rw [beq_eq_false_iff_ne]
      exact h
    rw [exchangeChar, if_neg h, inAlphabet, inAlphabet, hother, hsame]

section Characters

variable (hold : Separates old) (hnew : Separates new)

include hold hnew

theorem isDigit_exchangeChar (c : Char) : (exchangeChar old new c).isDigit = c.isDigit := by
  unfold exchangeChar
  split
  · rename_i hc
    rw [hc, hold.not_isDigit, hnew.not_isDigit]
  · rfl

theorem isWordStart_exchangeChar (c : Char) :
    Lexeme.isWordStart (exchangeChar old new c) = Lexeme.isWordStart c := by
  unfold exchangeChar
  split
  · rename_i hc
    rw [hc, hold.not_isWordStart, hnew.not_isWordStart]
  · rfl

theorem isWordPart_exchangeChar (c : Char) :
    Lexeme.isWordPart (exchangeChar old new c) = Lexeme.isWordPart c := by
  have hpart : ∀ d : Char, Lexeme.isWordPart d = (Lexeme.isWordStart d || d.isDigit) := by
    intro d
    simp only [Lexeme.isWordPart, Lexeme.isWordStart, Char.isAlphanum, Bool.or_right_comm]
  rw [hpart, hpart, isWordStart_exchangeChar hold hnew, isDigit_exchangeChar hold hnew]

theorem isNumberPart_exchangeChar {c : Char} (hc : c = new → c = old) :
    Lexeme.isNumberPart new (exchangeChar old new c) = Lexeme.isNumberPart old c := by
  have hsep : (exchangeChar old new c == new) = (c == old) := by
    rw [Bool.eq_iff_iff, beq_iff_eq, beq_iff_eq, exchangeChar_eq_new hc]
  rw [Lexeme.isNumberPart, Lexeme.isNumberPart, isDigit_exchangeChar hold hnew, hsep]

end Characters

/-! ## 2. Lexemes -/

namespace Lexeme

def exchange (old new : Char) : Lexeme → Lexeme
  | number t => number (t.map (exchangeChar old new))
  | word t => word (t.map (exchangeChar old new))
  | mark c => mark (exchangeChar old new c)

/-- A number has only one of the separators, and a word has none.  A text in which both occurred
would fall together in the exchange. -/
def Clean (old new : Char) : Lexeme → Prop
  | number t => ∀ c ∈ t, c = new → c = old
  | word t => old ∉ t
  | mark _ => True

section Split

variable (hold : Separates old) (hnew : Separates new)

include hold hnew

/-- **The same lexeme is split off.**  Characters keep their class in the exchange, save that the
separators change places, and of these only the right one is met. -/
theorem split_exchange {operandDue : Bool} {c : Char} {rest : List Char}
    (hrest : ∀ d ∈ rest, d = new → d = old) :
    split new operandDue (exchangeChar old new c) (rest.map (exchangeChar old new)) =
      ((split old operandDue c rest).1.exchange old new,
        (split old operandDue c rest).2.map (exchangeChar old new)) := by
  have hminus : (exchangeChar old new c == '-') = (c == '-') := by
    rw [Bool.eq_iff_iff, beq_iff_eq, beq_iff_eq, exchangeChar_eq_mark hold hnew (by decide)]
  have hword : isWordPart ∘ exchangeChar old new = isWordPart :=
    funext (isWordPart_exchangeChar hold hnew)
  obtain ⟨hnumber, hafter⟩ := span_congr (p := isNumberPart new ∘ exchangeChar old new)
    (fun d hd => isNumberPart_exchangeChar hold hnew (hrest d hd))
  simp only [split, isDigit_exchangeChar hold hnew, hminus, isWordStart_exchangeChar hold hnew,
    List.takeWhile_map, List.dropWhile_map, hword, hnumber, hafter]
  split
  · rfl
  · split <;> rfl

omit hnew in
theorem clean_split {operandDue : Bool} {c : Char} {rest : List Char}
    (hclean : ∀ d ∈ c :: rest, d = new → d = old) :
    (split old operandDue c rest).1.Clean old new := by
  have htext := text_split old operandDue c rest
  have hmem : ∀ d ∈ (split old operandDue c rest).1.text, d = new → d = old := by
    intro d hd
    apply hclean
    rw [← htext]
    exact List.mem_append_left _ hd
  unfold split at hmem ⊢
  split
  · rename_i hbegins
    rw [if_pos hbegins] at hmem
    exact hmem
  · split
    · rename_i hstart
      intro hword
      rcases List.mem_cons.mp hword with rfl | hword
      · rw [hold.not_isWordStart] at hstart
        cases hstart
      · have hpart : isWordPart old = true :=
          List.all_eq_true.mp (List.all_takeWhile (p := isWordPart)) old hword
        rw [hold.not_isWordPart] at hpart
        cases hpart
    · trivial

end Split

/-! ## 3. Atoms of lexemes -/

section Numbers

variable {text : List Char} (hclean : ∀ c ∈ text, c = new → c = old)

include hclean

theorem numberName_exchange (hold : Separates old) :
    numberName new (text.map (exchangeChar old new)) =
      (numberName old text).map (exchangeChar old new) := by
  have hlast : (text.map (exchangeChar old new)).getLast? = some new ↔
      text.getLast? = some old := by
    rw [List.getLast?_map]
    cases hc : text.getLast? with
    | none => simp
    | some c => simpa using exchangeChar_eq_new (hclean c (List.mem_of_getLast? hc))
  have hzero : exchangeChar old new '0' = '0' :=
    if_neg (hold.ne_of_isDigit (by decide))
  unfold numberName
  by_cases h : text.getLast? = some old
  · rw [if_pos h, if_pos (hlast.mpr h)]
    simp [hzero]
  · rw [if_neg h, if_neg (mt hlast.mp h)]

/-- **A number has the same value with the other separator.**  Before it is read its separator
becomes a point, and the two points are the same. -/
theorem numberValue?_exchange (hold : Separates old) (hnew : Separates new) :
    numberValue? new (text.map (exchangeChar old new)) = numberValue? old text := by
  have hcount : (text.map (exchangeChar old new)).count new = text.count old := by
    rw [List.count, List.count, List.countP_map]
    apply List.countP_congr
    intro c hc
    simpa using exchangeChar_eq_new (hclean c hc)
  have hnumeral : ((numberName old text).map (exchangeChar old new)).map
      (fun c => if c = new then '.' else c) =
        (numberName old text).map fun c => if c = old then '.' else c := by
    rw [List.map_map]
    apply List.map_congr_left
    intro c hc
    have hc : c = new → c = old := by
      unfold numberName at hc
      split at hc
      · rcases List.mem_append.mp hc with hc | hc
        · exact hclean c hc
        · rw [List.mem_singleton.mp hc]
          intro hzero
          exact absurd hzero (hnew.ne_of_isDigit (by decide))
      · exact hclean c hc
    by_cases h : c = old
    · simp [h, exchangeChar]
    · have hother : c ≠ new := fun hnew => h (hc hnew)
      simp [h, exchangeChar, hother]
  simp only [numberValue?, hold.not_isDigit, hnew.not_isDigit, hcount,
    numberName_exchange hclean hold, hnumeral]

end Numbers

end Lexeme

namespace Lexicon

variable {lexicon : Lexicon}

/-- **A clean lexeme means the same with the other separator.** -/
theorem atom?_exchange (hold : Separates lexicon.separator) (hnew : Separates new)
    {lexeme : Lexeme} (hclean : lexeme.Clean lexicon.separator new) (following : Option Char) :
    ({ lexicon with separator := new } : Lexicon).atom? (lexeme.exchange lexicon.separator new)
        (following.map (exchangeChar lexicon.separator new)) =
      (lexicon.atom? lexeme following).map (Atom.exchange lexicon.separator new) := by
  cases lexeme with
  | number t =>
    have hfollowing : (following.map (exchangeChar lexicon.separator new)).any Lexeme.isWordStart =
        following.any Lexeme.isWordStart := by
      cases following with
      | none => rfl
      | some c => simp [isWordStart_exchangeChar hold hnew]
    simp only [Lexeme.exchange, atom?, hfollowing, Lexeme.numberValue?_exchange hclean hold hnew,
      Lexeme.numberName_exchange hclean hold]
    split
    · rfl
    · cases Lexeme.numberValue? lexicon.separator t with
      | none => rfl
      | some x => simp [Atom.exchange, Atom.number, exchangeName, String.map_eq_internal]
  | word t =>
    have hnot : lexicon.separator ∉ t := hclean
    have hopen : following.map (exchangeChar lexicon.separator new) = some '(' ↔
        following = some '(' := by
      cases following with
      | none => simp
      | some c => simpa using exchangeChar_eq_mark hold hnew (by decide)
    have hsame : ∀ c ∈ t, exchangeChar lexicon.separator new c = id c := by
      intro c hc
      have hne : c ≠ lexicon.separator := by
        rintro rfl
        exact hnot hc
      exact if_neg hne
    simp only [Lexeme.exchange, atom?, List.map_congr_left hsame, List.map_id, Option.map_some]
    by_cases h : following = some '('
    · rw [if_pos h, if_pos (hopen.mpr h), Atom.exchange_eq_self]
      simpa [Atom.function, Atom.named] using hnot
    · rw [if_neg h, if_neg (mt hopen.mp h), Atom.exchange_eq_self]
      · rfl
      · obtain ⟨x, hx | hx⟩ := lexicon.operand_cases (String.ofList t)
        · simpa [hx, Atom.number] using hnot
        · simpa [hx, Atom.var] using hnot
  | mark c =>
    have hmark : ∀ d ∈ Config.marks, (exchangeChar lexicon.separator new c = d ↔ c = d) :=
      fun d hd => exchangeChar_eq_mark hold hnew hd
    have hcomma : exchangeName lexicon.separator new ";" = ";" :=
      exchangeName_mark hold hnew (by decide)
    simp only [Lexeme.exchange, atom?, hmark '(' (by decide), hmark ')' (by decide),
      hmark ';' (by decide), Option.map_some]
    split
    · simp only [Atom.exchange, Atom.bracket, Atom.named, exchangeName_toString]
    · split
      · simp only [Atom.exchange, Atom.comma, Atom.named, hcomma]
      · simp only [Atom.exchange, Atom.operator, Atom.named, exchangeName_toString]

end Lexicon

/-! ## 4. Scanning -/

def AtomSeq.exchange (old new : Char) (s : AtomSeq) : AtomSeq :=
  { s with atoms := s.atoms.map (Atom.exchange old new) }

namespace AtomSeq

@[simp] theorem capacity_exchange (s : AtomSeq) : (s.exchange old new).capacity = s.capacity := rfl

@[simp] theorem toList_exchange (s : AtomSeq) :
    (s.exchange old new).toList = s.toList.map (Atom.exchange old new) := by
  simp [exchange, toList]

@[simp] theorem bounded_exchange (capacity : Option Nat) :
    (bounded capacity).exchange old new = bounded capacity := by
  simp [exchange, bounded]

theorem accepts_exchange (s : AtomSeq) : (s.exchange old new).accepts = s.accepts := by
  simp [accepts, size_eq_length]

theorem push_exchange (s : AtomSeq) (a : Atom) :
    (s.push a).exchange old new = (s.exchange old new).push (a.exchange old new) := by
  have hsame : (s.exchange old new).accepts = s.accepts := accepts_exchange s
  by_cases h : s.accepts = true
  · rw [push_of_accepts h, push_of_accepts (hsame.trans h)]
    simp [exchange]
  · have hfull : s.accepts = false := by simpa using h
    rw [push_of_full hfull, push_of_full (hsame.trans hfull)]
    rfl

theorem pushAll_exchange (s : AtomSeq) (atoms : List Atom) :
    (s.pushAll atoms).exchange old new =
      (s.exchange old new).pushAll (atoms.map (Atom.exchange old new)) := by
  induction atoms generalizing s with
  | nil => rfl
  | cons a rest ih => rw [pushAll_cons, ih, push_exchange, List.map_cons, pushAll_cons]

theorem expectsOperand_exchange (hold : Separates old) (hnew : Separates new) (s : AtomSeq) :
    (s.exchange old new).expectsOperand = s.expectsOperand := by
  rw [expectsOperand, expectsOperand, exchange, Array.back?_map]
  cases s.atoms.back? with
  | none => rfl
  | some a => exact Atom.expectsOperand_exchange hold hnew a

end AtomSeq

namespace Lexicon

variable {lexicon : Lexicon}

/-- **A clean text is scanned in the same way with the other separator.** -/
theorem scan_exchange (hold : Separates lexicon.separator) (hnew : Separates new)
    {text : List Char} (hclean : ∀ c ∈ text, c = new → c = lexicon.separator) (out : AtomSeq) :
    ({ lexicon with separator := new } : Lexicon).scan
        (text.map (exchangeChar lexicon.separator new)) (out.exchange lexicon.separator new) =
      ((lexicon.scan text out).1, (lexicon.scan text out).2.exchange lexicon.separator new) := by
  induction text, out using lexicon.scan_induct with
  | done out => rw [List.map_nil, scan_nil, scan_nil]
  | stop c rest out cut hcut hatom =>
    have hsplit : Lexeme.split new out.expectsOperand (exchangeChar lexicon.separator new c)
        (rest.map (exchangeChar lexicon.separator new)) =
          (cut.1.exchange lexicon.separator new,
            cut.2.map (exchangeChar lexicon.separator new)) := by
      rw [← hcut]
      exact Lexeme.split_exchange hold hnew (List.forall_mem_cons.mp hclean).2
    have hlexeme : cut.1.Clean lexicon.separator new := by
      rw [← hcut]
      exact Lexeme.clean_split hold hclean
    have hmeans := atom?_exchange hold hnew hlexeme cut.2.head?
    rw [hatom, ← List.head?_map] at hmeans
    rw [List.map_cons, scan_of_none hcut hatom]
    rw [← AtomSeq.expectsOperand_exchange hold hnew] at hsplit
    rw [scan_of_none hsplit hmeans]
  | next c rest out cut a hcut hatom ih =>
    have hsplit : Lexeme.split new out.expectsOperand (exchangeChar lexicon.separator new c)
        (rest.map (exchangeChar lexicon.separator new)) =
          (cut.1.exchange lexicon.separator new,
            cut.2.map (exchangeChar lexicon.separator new)) := by
      rw [← hcut]
      exact Lexeme.split_exchange hold hnew (List.forall_mem_cons.mp hclean).2
    have hlexeme : cut.1.Clean lexicon.separator new := by
      rw [← hcut]
      exact Lexeme.clean_split hold hclean
    have hmeans := atom?_exchange hold hnew hlexeme cut.2.head?
    have hafter : ∀ d ∈ cut.2, d = new → d = lexicon.separator := by
      intro d hd
      apply hclean
      rw [← Lexeme.text_split lexicon.separator out.expectsOperand c rest, hcut]
      exact List.mem_append_right _ hd
    rw [hatom, ← List.head?_map] at hmeans
    rw [← AtomSeq.expectsOperand_exchange hold hnew] at hsplit
    rw [List.map_cons, scan_of_some hcut hatom, scan_of_some hsplit hmeans, ← AtomSeq.push_exchange]
    exact ih hafter

/-- **A formula in which neither separator stands for itself is cut in the same way.**  Its points
and commas become one separator or the other, and nothing else in it is either. -/
theorem tokenize_exchange (lexicon : Lexicon) (hold : Separates lexicon.separator)
    (hnew : Separates new) {formula : String} (h : ∀ c ∈ (Text.uppercase formula).toList,
      c = lexicon.separator ∨ c = new → c = '.' ∨ c = ',') (out : AtomSeq) :
    ({ lexicon with separator := new } : Lexicon).tokenize formula
        (out.exchange lexicon.separator new) =
      ((lexicon.tokenize formula out).1,
        (lexicon.tokenize formula out).2.exchange lexicon.separator new) := by
  rw [Text.toList_uppercase] at h
  obtain ⟨hnormal, hclean⟩ := normalize_exchange h
  have halphabet : ((normalize lexicon.separator formula.toList).map
      (exchangeChar lexicon.separator new)).all (inAlphabet new) =
        (normalize lexicon.separator formula.toList).all (inAlphabet lexicon.separator) := by
    rw [List.all_map, Bool.eq_iff_iff, List.all_eq_true, List.all_eq_true]
    apply forall₂_congr
    intro c hc
    rw [Function.comp, inAlphabet_exchangeChar (hclean c hc)]
  simp only [tokenize_eq_scan, hnormal, halphabet]
  split
  · exact scan_exchange hold hnew hclean out
  · rfl

end Lexicon

/-- Operators are read from single characters, and functions from words, which have no separator. -/
theorem Token.plain_atom {lexicon : Lexicon} (hsep : Separates lexicon.separator) (t : Token) :
    (t.atom lexicon).Plain lexicon.separator := by
  cases t with
  | literal l => constructor <;> rintro ⟨⟩
  | name w =>
    obtain ⟨x, hx | hx⟩ := lexicon.operand_cases w.name
    · simp only [atom, hx]
      constructor <;> rintro ⟨⟩
    · simp only [atom, hx]
      constructor <;> rintro ⟨⟩
  | function w =>
    constructor
    · rintro ⟨⟩
    · intro _ hmem
      have hname : ((function w).atom lexicon).name.toList = w.text := String.toList_ofList
      rw [hname] at hmem
      rcases List.mem_cons.mp hmem with hfirst | hrest
      · have hstart := w.isWordStart_first.2.2
        rw [← hfirst, hsep.not_isWordStart] at hstart
        cases hstart
      · have hpart := w.isWordPart_rest _ hrest
        rw [hsep.not_isWordPart] at hpart
        cases hpart
  | opening => constructor <;> rintro ⟨⟩
  | closing => constructor <;> rintro ⟨⟩
  | comma => constructor <;> rintro ⟨⟩
  | operator c =>
    constructor
    · intro _
      exact ⟨c, rfl⟩
    · rintro ⟨⟩

theorem AtomSeq.mem_of_mem_pushAll {s : AtomSeq} {atoms : List Atom} {a : Atom}
    (h : a ∈ (s.pushAll atoms).toList) : a ∈ s.toList ∨ a ∈ atoms := by
  induction atoms generalizing s with
  | nil => exact Or.inl h
  | cons b rest ih =>
    rcases ih h with hpushed | hrest
    · rw [toList_push] at hpushed
      split at hpushed
      · rcases List.mem_append.mp hpushed with hs | hb
        · exact Or.inl hs
        · exact Or.inr (List.mem_singleton.mp hb ▸ List.mem_cons_self)
      · exact Or.inl hpushed
    · exact Or.inr (List.mem_cons_of_mem b hrest)

/-! ## 5. Evaluations -/

namespace Session

variable {σ : Type}

/-- The session `t` is `s` under another decimal separator, whatever either has evaluated before.
All other settings, the variables and the source are shared. -/
structure Respelled (s t : Session σ) : Prop where
  config : t.config = { s.config with separator := t.config.separator }
  bindings : t.bindings = s.bindings
  source : t.source = s.source

/-- The evaluation `b` is `a` with the separator exchanged: in the names of atoms, and in the
failure that it has no meaning as an operator. -/
structure Evaluated.Exchanged (old new : Char) (a b : Evaluated σ) : Prop where
  outcome : b.outcome = a.outcome.mapError (FormulaError.exchange old new)
  written : b.session.written = a.session.written.exchange old new
  arranged : b.session.arranged = a.session.arranged.exchange old new
  trace : b.session.trace = a.session.trace.map (exchangeName old new)
  source : b.session.source = a.session.source

theorem exchanged_finish {s t : Session σ} (hwritten : t.written = s.written.exchange old new)
    (harranged : t.arranged = s.arranged.exchange old new) (hsource : t.source = s.source)
    {outcome outcome' : Except FormulaError Atom}
    (houtcome : outcome' = exchangeOutcome old new (Atom.exchange old new) outcome)
    (formula : String) (log log' : List Record) :
    (s.finish formula outcome log).Exchanged old new (t.finish formula outcome' log') where
  outcome := by
    rw [houtcome]
    cases outcome <;> rfl
  written := by rw [session_finish, session_finish, written_store, written_store, hwritten]
  arranged := by rw [session_finish, session_finish, arranged_store, arranged_store, harranged]
  trace := by
    rw [houtcome]
    rcases outcome with e | a
    · rfl
    · have hs : (s.store (.ok a)).lastAtom = some a := rfl
      have ht : (t.store (.ok (a.exchange old new))).lastAtom = some (a.exchange old new) := rfl
      rw [session_finish, session_finish, trace_eq hs, exchangeOutcome, trace_eq ht,
        Atom.kind_exchange, Atom.name_exchange]
      split <;> rfl
  source := by rw [session_finish, session_finish, source_store, source_store, hsource]

/-- **The same atoms, up to the separator, are run to the same end.** -/
theorem exchanged_run [Chance.Source σ] (hold : Separates old) (hnew : Separates new)
    {s t : Session σ} (hwritten : t.written = s.written.exchange old new)
    (harranged : t.arranged = s.arranged.exchange old new) (hsource : t.source = s.source)
    (hplain : ∀ a ∈ (s.arranged.pushAll (postOrder s.written.toList)).toList, a.Plain old)
    (formula : String) (log log' : List Record) :
    (s.run formula log).Exchanged old new (t.run formula log') := by
  have hpost : t.arranged.pushAll (postOrder t.written.toList) =
      (s.arranged.pushAll (postOrder s.written.toList)).exchange old new := by
    rw [harranged, hwritten, AtomSeq.toList_exchange, postOrder_exchange hold hnew,
      AtomSeq.pushAll_exchange]
  have hrun : Reckoner.evaluate Builtin.registry
      (t.arranged.pushAll (postOrder t.written.toList)).toList t.source =
        (Reckoner.evaluate Builtin.registry
          (s.arranged.pushAll (postOrder s.written.toList)).toList s.source).exchange old new := by
    rw [hpost, AtomSeq.toList_exchange, hsource]
    exact Evaluation.runFrom_exchange hold hnew hplain [] s.source
  have hnext := congrArg Evaluation.Run.source hrun
  have houtcome := congrArg Evaluation.Run.outcome hrun
  apply exchanged_finish
  · exact hwritten
  · exact hpost
  · exact hnext
  · exact houtcome

section Evaluate

variable {s t : Session σ} (h : s.Respelled t) (hs : s.config.check = .ok ())
  (ht : t.config.check = .ok ()) {formula : String}
  (hformula : ∀ c ∈ (Text.uppercase formula).toList,
    c = s.config.separator ∨ c = t.config.separator → c = '.' ∨ c = ',')

include h hs ht hformula

theorem cut_exchange : t.cut formula =
    ((s.cut formula).1,
      (s.cut formula).2.exchange s.config.separator t.config.separator) := by
  have hlexicon : t.lexicon = { s.lexicon with separator := t.config.separator } := by
    rw [lexicon, lexicon, h.bindings]
    simp only [Lexicon.mk.injEq, true_and, and_true]
    rw [h.config]
  have hcapacity : t.config.maxAtoms = s.config.maxAtoms := by rw [h.config]
  have hcut := s.lexicon.tokenize_exchange (Config.separates hs) (Config.separates ht) hformula
    (.bounded s.config.maxAtoms)
  rw [AtomSeq.bounded_exchange] at hcut
  rw [cut, hlexicon, hcapacity]
  exact hcut

omit h ht hformula in
theorem plain_of_cut {written : AtomSeq} (hcut : s.cut formula = (.ok (), written))
    (hkept : written.overflowed = false) : ∀ a ∈ written.toList, a.Plain s.config.separator := by
  obtain ⟨halphabet, atoms, hreads, rfl⟩ := Lexicon.reads_of_tokenize hcut hkept
  intro a ha
  rcases AtomSeq.mem_of_mem_pushAll ha with hnone | ha
  · cases hnone
  · obtain ⟨token, rfl⟩ := hreads.exists_token (Config.separates hs) halphabet a ha
    have hsep : Separates s.lexicon.separator := Config.separates hs
    exact token.plain_atom hsep

variable [Chance.Source σ]

/-- **The decimal separator is cosmetic.**  With another separator that does not stand in the
formula either, except as a point or a comma, an evaluation has the same outcome and draws the
same; the atoms and the trace have one separator for the other. -/
theorem evaluate_exchange : (s.evaluate formula).Exchanged s.config.separator t.config.separator
    (t.evaluate formula) := by
  have hcut' := cut_exchange h hs ht hformula
  have hbounded : t.reset.arranged =
      s.reset.arranged.exchange s.config.separator t.config.separator := by
    have hcapacity : t.config.maxAtoms = s.config.maxAtoms := by rw [h.config]
    exact (congrArg AtomSeq.bounded hcapacity).trans (AtomSeq.bounded_exchange _).symm
  rcases hcut : s.cut formula with ⟨e | _, written⟩
  · rw [hcut] at hcut'
    rw [evaluate_of_error hcut, evaluate_of_error hcut']
    have herror : .error e = exchangeOutcome s.config.separator t.config.separator
        (Atom.exchange s.config.separator t.config.separator) (.error e) := by
      rcases Lexicon.error_tokenize (congrArg Prod.fst hcut) with rfl | rfl <;> rfl
    exact exchanged_finish (s := { s.reset with written })
      (t := { t.reset with written := written.exchange _ _ }) rfl hbounded h.source herror ..
  · rw [hcut] at hcut'
    cases hover : written.overflowed with
    | true =>
      rw [evaluate_of_overflowed hcut hover, evaluate_of_overflowed hcut' hover]
      exact exchanged_finish (s := { s.reset with written })
        (t := { t.reset with written := written.exchange _ _ }) rfl hbounded h.source rfl ..
    | false =>
      rw [evaluate_of_kept hcut hover, evaluate_of_kept hcut' hover]
      have hfits := s.fits_postOrder formula
      rw [hcut] at hfits
      have hlist : (s.reset.arranged.pushAll (postOrder written.toList)).toList =
          postOrder written.toList := (pushAll_of_fits hfits).1
      have hplain : ∀ a ∈ (s.reset.arranged.pushAll (postOrder written.toList)).toList,
          a.Plain s.config.separator := by
        intro a ha
        rw [hlist] at ha
        exact plain_of_cut hs hcut hover a (mem_of_mem_postOrder ha)
      exact exchanged_run (Config.separates hs) (Config.separates ht)
        (s := { s.reset with written }) (t := { t.reset with written := written.exchange _ _ })
        rfl hbounded h.source hplain ..

end Evaluate

/-- A separator by itself is an operator without a meaning, under either name. -/
theorem evaluate_exchange_letter :
    let s : Session Chance.Cycle := .fresh Config.standard (.ofList [])
    let t : Session Chance.Cycle := .fresh { Config.standard with separator := 'é' } (.ofList [])
    s.Respelled t ∧ s.config.check = .ok () ∧ t.config.check = .ok () ∧
    (∀ c ∈ (Text.uppercase "(1,5).2").toList, c = '.' ∨ c = 'é' → c = '.' ∨ c = ',') ∧
    (s.evaluate "(1,5).2").session.lastError = some (.unknownOperator ".") ∧
    (t.evaluate "(1,5).2").session.lastError = some (.unknownOperator "é") ∧
    (t.evaluate "(1,5).2").session.written.toList.map Atom.name = ["(", "1é5", ")", "é", "2"] ∧
    (s.evaluate "(1,5).2").Exchanged '.' 'é' (t.evaluate "(1,5).2") := by
  intro s t
  have h : s.Respelled t := ⟨rfl, rfl, rfl⟩
  have hformula : ∀ c ∈ (Text.uppercase "(1,5).2").toList,
      c = '.' ∨ c = 'é' → c = '.' ∨ c = ',' := List.all_iff_forall_prop.mp (by decide +kernel)
  exact ⟨h, rfl, rfl, hformula, by decide +kernel, by decide +kernel, by decide +kernel,
    evaluate_exchange h rfl rfl hformula⟩

end Session

end Reckoner
