/-
# Stray brackets and operands side by side

No stage of an evaluation looks for closing brackets without a partner, or for operands that run
into each other, and some formulas with such faults have an answer.

* A stray closing bracket releases everything on the stack, as if the whole row in front of it stood
  in brackets.  So a formula has the answer that it has with an opening bracket in front for each
  stray one (`postOrder_mend`).
* An operand too much is noticed only if the count of operands and connectors is off: a formula that
  has an answer misses as many operands in some places as it has too many in others
  (`Lexicon.Reads.surplus_add`).

`Session.evaluate_mend` says which of these formulas are refused, and `Session.stray_accepted` that
not all are.
-/
import Reckoner.Proofs.Acceptance
import Reckoner.Proofs.Groups

namespace Reckoner

open PostOrder

/-! ## 1. Stray brackets -/

/-- How many closing brackets of a row have no partner. -/
def strays (row : List Atom) : Nat := (pairUp id [] row).2.length

/-- The row with an opening bracket in front for each stray closing one. -/
def mend (row : List Atom) : List Atom := List.replicate (strays row) (.bracket '(') ++ row

/-- **Opening brackets at the bottom of the stack, one for each stray closing one, change nothing.**
A stray bracket empties the stack; with one of these at its bottom it stops there and takes it
away. -/
theorem arrange_below (row : List Atom) : ∀ (stack : List Atom) {frame : List Atom},
    (∀ o ∈ frame, o.isOpenBracket = true) →
      frame.length = (pairUp id (opened id stack) row).2.length →
      arrange (stack ++ frame) row = arrange stack row := by
  induction row with
  | nil =>
    intro stack frame _ hlength
    rw [List.length_eq_zero_iff.mp hlength, List.append_nil]
  | cons a rest ih =>
    intro stack frame hframe hlength
    cases frame with
    | nil => rw [List.append_nil]
    | cons o frame =>
      obtain ⟨ho, hbelow⟩ := List.forall_mem_cons.mp hframe
      obtain ⟨out, after, hmoves, hadvance⟩ := exists_advance stack a
      rw [arrange, arrange, hadvance]
      rcases hmoves.pairUp_cases rest with ⟨hpairs, hover⟩ | ⟨rfl, hpairs, hover⟩
      · rw [hpairs] at hlength
        have hstep : advance (stack ++ o :: frame) a = (out, after ++ o :: frame) := by
          simpa using (hover o frame ho).advance_eq
        rw [hstep, ih after hframe hlength]
      · -- the stray bracket takes the uppermost of the brackets at the bottom
        rw [hpairs] at hlength
        have hstep : advance (stack ++ o :: frame) a = (out, frame) := by
          simpa using (hover o frame ho).advance_eq
        have hrest := ih [] hbelow (Nat.succ.inj hlength)
        rw [hstep]
        exact congrArg (out ++ ·) hrest

theorem arrange_replicate (count : Nat) (stack row : List Atom) :
    arrange stack (List.replicate count (.bracket '(') ++ row) =
      arrange (List.replicate count (.bracket '(') ++ stack) row := by
  induction count generalizing stack with
  | zero => rfl
  | succ count ih =>
    have hopens : advance stack (.bracket '(') = ([], .bracket '(' :: stack) :=
      advance_of_opens rfl stack
    rw [List.replicate_succ, List.cons_append, arrange, hopens, ih, List.nil_append,
      List.append_cons, ← List.replicate_succ', List.replicate_succ]

/-- **A row is put into post-order as if its stray brackets had partners.**  The partners are
opening brackets in front, which wait at the bottom of the stack for nothing but the strays. -/
theorem postOrder_mend (row : List Atom) : postOrder (mend row) = postOrder row := by
  rw [postOrder, mend, arrange_replicate, List.append_nil]
  refine arrange_below row [] ?_ ?_
  · intro o ho
    rw [List.eq_of_mem_replicate ho]
    rfl
  · exact List.length_replicate

theorem closesOpen_pairUp (row : List Atom) : ∀ opened : List Atom,
    ClosesOpen (opened.length + (pairUp id opened row).2.length) row := by
  induction row with
  | nil =>
    intro opened
    exact .nil _
  | cons a rest ih =>
    intro opened
    apply ClosesOpen.cons
    intro front hfront
    by_cases hopen : a.isOpenBracket = true
    · have hcount := ih (a :: opened) front hfront
      rw [List.countP_cons_of_pos hopen, List.countP_cons_of_neg
        (Bool.eq_false_iff.mp (Atom.not_isCloseBracket_of_isOpenBracket hopen)),
        pairUp_cons_open hopen]
      rw [List.length_cons] at hcount
      omega
    · rw [List.countP_cons_of_neg hopen]
      by_cases hkind : a.kind = .bracket
      · have hcloses : a.closes = true := by
          simp [Atom.closes, hkind, Bool.eq_false_iff.mpr hopen]
        have hone : (a :: front).countP Atom.isCloseBracket ≤
            front.countP Atom.isCloseBracket + 1 := by
          rw [List.countP_cons]
          split <;> omega
        cases opened with
        | nil =>
          have hcount := ih [] front hfront
          rw [pairUp_cons_stray hcloses, List.length_cons]
          omega
        | cons o opened =>
          have hcount := ih opened front hfront
          rw [pairUp_cons_close hcloses, List.length_cons]
          omega
      · have hcount := ih opened front hfront
        rw [List.countP_cons_of_neg (by simp [Atom.isCloseBracket, hkind]),
          pairUp_cons_other hkind]
        exact hcount

/-- In a mended row, every closing bracket closes something. -/
theorem closesOpen_mend (row : List Atom) : ClosesOpen 0 (mend row) := by
  have hprepend : ∀ {depth count : Nat} {row : List Atom}, ClosesOpen (depth + count) row →
      ClosesOpen depth (List.replicate count (.bracket '(') ++ row) := by
    intro depth count row h
    induction count generalizing depth with
    | zero => exact h
    | succ count ih => exact (ih (by rwa [Nat.add_assoc, Nat.add_comm 1])).cons_open
  have hrow := closesOpen_pairUp row []
  exact hprepend hrow

/-! ## 2. Operands side by side -/

instance (a b : Atom) : Decidable (Follows a b) :=
  decidable_of_iff ((a.kind = .value ∨ a.kind = .var → b.isOpenBracket = false) ∧
      (a.isCloseBracket = true →
        b.isOpenBracket = false ∧ b.kind ≠ .value ∧ b.kind ≠ .var ∧ b.kind ≠ .function))
    ⟨fun h => ⟨h.1, h.2⟩, fun h => ⟨h.1, h.2⟩⟩

/-- How many atoms run into one that must not follow them.  With `gaps` this is what the scanner
lets through and a grammar does not. -/
def joints : List Atom → Nat
  | a :: b :: rest => (if Follows a b then 0 else 1) + joints (b :: rest)
  | _ => 0

def Atom.isEnd (a : Atom) : Bool := a.isOperand || a.isCloseBracket

/-- At how many places an operand is due, and something else or nothing comes. -/
def gaps : Bool → List Atom → Nat
  | operandDue, [] => operandDue.toNat
  | operandDue, a :: rest => (operandDue && !a.isStart).toNat + gaps (!a.isEnd) rest

theorem joints_eq_zero_iff {row : List Atom} :
    joints row = 0 ↔ ∀ a b, [a, b] <:+: row → Follows a b := by
  fun_induction joints row with
  | case1 a b rest ih =>
    constructor
    · intro hzero c d hcd
      rw [Nat.add_eq_zero_iff] at hzero
      rcases List.infix_cons_iff.mp hcd with hprefix | hinfix
      · obtain ⟨rfl, hsecond⟩ := List.cons_prefix_cons.mp hprefix
        obtain ⟨rfl, -⟩ := List.cons_prefix_cons.mp hsecond
        by_contra hnot
        rw [if_neg hnot] at hzero
        cases hzero.1
      · exact ih.mp hzero.2 c d hinfix
    · intro hall
      have hfirst : Follows a b := hall a b (List.prefix_append [a, b] rest).isInfix
      have hrest : joints (b :: rest) = 0 := by
        rw [ih]
        intro c d hcd
        exact hall c d (List.infix_cons hcd)
      rw [if_pos hfirst, hrest]
  | case2 row hrow =>
    refine ⟨fun _ a b hab => ?_, fun _ => rfl⟩
    obtain ⟨front, back, rfl⟩ := hab
    cases front with
    | nil => exact absurd rfl (hrow a b back)
    | cons c front =>
      cases front with
      | nil => exact absurd rfl (hrow c a (b :: back))
      | cons d front => exact absurd rfl (hrow c d _)

theorem follows_of_not_isStart {a b : Atom} (h : ¬ (a.isEnd = true ∧ b.isStart = true)) :
    Follows a b := by
  have hstart : a.isEnd = true → b.isStart = false := by
    intro hend
    exact Bool.eq_false_iff.mpr fun hb => h ⟨hend, hb⟩
  constructor
  · intro hkind
    have hoperand : a.isOperand = true := by
      rcases hkind with hkind | hkind <;> simp [Atom.isOperand, hkind]
    have hb := hstart (by simp [Atom.isEnd, hoperand])
    simp only [Atom.isStart, Bool.or_eq_false_iff] at hb
    exact hb.2
  · intro hclose
    have hb := hstart (by simp [Atom.isEnd, hclose])
    simp only [Atom.isStart, Bool.or_eq_false_iff, decide_eq_false_iff_not] at hb
    exact ⟨hb.2, hb.1.1.1, hb.1.1.2, hb.1.2⟩

section Texts

variable {lexicon : Lexicon}

/-- **What a token adds to the count** of operands over connectors: one if an operand begins with
it, less one if none ends with it. -/
theorem Token.surplus_atom (t : Token) :
    surplus [t.atom lexicon] + (!(t.atom lexicon).isEnd).toNat =
      (t.atom lexicon).isStart.toNat := by
  cases t with
  | name w =>
    obtain ⟨x, hx | hx⟩ := lexicon.operand_cases w.name
    · rw [atom, hx]
      rfl
    · rw [atom, hx]
      rfl
  | _ => rfl

/-- Two atoms of a text must not meet exactly if an operand ends with the first and one begins with
the second. -/
theorem Token.Begins.follows_iff (hsep : Separates lexicon.separator) {operandDue : Bool}
    {text after : List Char} {a b : Atom} {atoms : List Atom} {t : Token}
    (ht : t.Begins lexicon operandDue text after a)
    (halphabet : ∀ c ∈ after, inAlphabet lexicon.separator c = true)
    (h : lexicon.Reads a.expectsOperand after (b :: atoms)) :
    Follows a b ↔ ¬ (a.isEnd = true ∧ b.isStart = true) := by
  refine ⟨?_, follows_of_not_isStart⟩
  rintro hfollows ⟨hend, hstart⟩
  have hnext : t.next = .connector := by
    rw [ht.atom_eq] at hend
    cases t <;> first | rfl | cases hend
  have hstarts : Starts t.next after (b :: atoms) :=
    starts_next hsep ht halphabet h fun c hc => Option.some.inj hc ▸ hfollows
  rw [hnext] at hstarts
  rw [hstarts b rfl] at hstart
  cases hstart

theorem Token.Begins.joints_cons (hsep : Separates lexicon.separator) {operandDue : Bool}
    {text after : List Char} {a : Atom} {atoms : List Atom} {t : Token}
    (ht : t.Begins lexicon operandDue text after a)
    (halphabet : ∀ c ∈ after, inAlphabet lexicon.separator c = true)
    (h : lexicon.Reads a.expectsOperand after atoms) :
    joints (a :: atoms) = (a.isEnd && atoms.head?.any Atom.isStart).toNat + joints atoms := by
  cases atoms with
  | nil => simp [joints]
  | cons b atoms =>
    have hfollows := ht.follows_iff hsep halphabet h
    rw [joints, List.head?_cons, Option.any_some]
    by_cases hboth : a.isEnd = true ∧ b.isStart = true
    · rw [if_neg (hfollows.not.mpr (not_not.mpr hboth)), hboth.1, hboth.2]
      rfl
    · have hnot : (a.isEnd && b.isStart) = false := by simpa using hboth
      rw [if_pos (hfollows.mpr hboth), hnot]
      rfl

/-- **In a text, operands and gaps are as many as connectors and joints**, and one more if an
operand is due at the beginning or begins there. -/
theorem Lexicon.Reads.surplus_add (hsep : Separates lexicon.separator) {operandDue : Bool}
    {text : List Char} {atoms : List Atom} (h : lexicon.Reads operandDue text atoms)
    (halphabet : ∀ c ∈ text, inAlphabet lexicon.separator c = true) (due : Bool) :
    surplus atoms + gaps due atoms =
      joints atoms + (due || atoms.head?.any Atom.isStart).toNat := by
  induction h generalizing due with
  | done => cases due <;> rfl
  | @next operandDue c rest after lexeme a atoms hsplit hatom h ih =>
    obtain ⟨t, ht⟩ := Token.exists_of_split hsep halphabet hsplit hatom
    have hafter : ∀ d ∈ after, inAlphabet lexicon.separator d = true := by
      intro d hd
      exact halphabet d (ht.mem_text hd)
    have hrest := ih hafter (!a.isEnd)
    have hfirst : surplus [a] + (!a.isEnd).toNat = a.isStart.toNat := ht.atom_eq ▸ t.surplus_atom
    have hjoints := ht.joints_cons hsep hafter h
    have hsurplus : surplus (a :: atoms) = surplus [a] + surplus atoms := surplus_append [a] atoms
    have hgaps : gaps due (a :: atoms) = (due && !a.isStart).toNat + gaps (!a.isEnd) atoms := rfl
    have hbegins : (due && !a.isStart).toNat + a.isStart.toNat = (due || a.isStart).toNat := by
      cases due <;> cases a.isStart <;> rfl
    have hends : (!a.isEnd || atoms.head?.any Atom.isStart).toNat =
        (!a.isEnd).toNat + (a.isEnd && atoms.head?.any Atom.isStart).toNat := by
      cases a.isEnd <;> cases atoms.head?.any Atom.isStart <;> rfl
    rw [hsurplus, hgaps, hjoints, List.head?_cons, Option.any_some, ← hbegins]
    rw [hends] at hrest
    omega

end Texts

/-! ## 3. Formulas with opening brackets in front -/

/-- The formula with as many opening brackets in front as its atoms have stray closing ones. -/
def mendText (atoms : List Atom) (formula : String) : String :=
  String.ofList (List.replicate (strays atoms) '(' ++ formula.toList)

theorem inAlphabet_opening (separator : Char) : inAlphabet separator '(' = true := by
  simp [inAlphabet, Config.marks]

/-- Opening brackets in front stay in front. -/
theorem normalize_replicate (separator : Char) (count : Nat) (written : List Char) :
    normalize separator (List.replicate count '(' ++ written) =
      List.replicate count '(' ++ normalize separator written := by
  induction count with
  | zero => rfl
  | succ count ih =>
    rw [List.replicate_succ, List.cons_append,
      normalize_cons (by decide) rfl (inAlphabet_opening separator), ih, List.cons_append]

theorem inAlphabet_replicate {separator : Char} {text : List Char}
    (h : ∀ c ∈ text, inAlphabet separator c = true) (count : Nat) :
    ∀ c ∈ List.replicate count '(' ++ text, inAlphabet separator c = true := by
  intro c hc
  rcases List.mem_append.mp hc with hc | hc
  · rw [List.eq_of_mem_replicate hc]
    exact inAlphabet_opening separator
  · exact h c hc

theorem Lexicon.Reads.replicate {lexicon : Lexicon} (hsep : Separates lexicon.separator)
    {text : List Char} {atoms : List Atom} (h : lexicon.Reads true text atoms) (count : Nat) :
    lexicon.Reads true (List.replicate count '(' ++ text)
      (List.replicate count (.bracket '(') ++ atoms) := by
  induction count with
  | zero => exact h
  | succ count ih => exact ih.open hsep

theorem follows_mend {row : List Atom} (h : ∀ a b, [a, b] <:+: row → Follows a b) :
    ∀ a b, [a, b] <:+: mend row → Follows a b := by
  unfold mend
  induction strays row with
  | zero => exact h
  | succ count ih =>
    intro a b hab
    rw [List.replicate_succ, List.cons_append] at hab
    rcases List.infix_cons_iff.mp hab with hprefix | hinfix
    · obtain ⟨rfl, -⟩ := List.cons_prefix_cons.mp hprefix
      apply follows_of_not_isStart
      rintro ⟨hend, -⟩
      cases hend
    · exact ih a b hinfix

namespace Session

variable {σ : Type} {s : Session σ} {formula : String} {atoms : List Atom}

/-- **A formula with opening brackets in front is read as the mended row**, if there is room.  An
operand is due after a bracket as it is at the beginning, so the rest is read as before. -/
theorem Accepts.mend (hsep : Separates s.config.separator) (h : s.Accepts formula atoms)
    (hroom : ∀ most ∈ s.config.maxAtoms, (mend atoms).length ≤ most) :
    s.Accepts (mendText atoms formula) (Reckoner.mend atoms) := by
  have htext : normalize s.config.separator (mendText atoms formula).toList =
      List.replicate (strays atoms) '(' ++ normalize s.config.separator formula.toList := by
    rw [mendText, String.toList_ofList, normalize_replicate]
  constructor
  · rw [htext]
    exact inAlphabet_replicate h.alphabet (strays atoms)
  · rw [htext]
    exact h.reads.replicate hsep (strays atoms)
  · exact hroom

variable [Chance.Source σ]

/-- **A formula that has an answer misses as many operands as it has too many**, and if there are
none, then its mended row is well formed. -/
theorem Computes.mend (hsep : Separates s.config.separator) {x : Float} {t : Expr}
    (h : s.Computes formula x atoms t) :
    gaps true atoms = joints atoms ∧
      (joints atoms = 0 → Derives (.formula 1) (Reckoner.mend atoms)) := by
  have hsurplus := Expr.surplus_postOrder h.meaningful
  rw [h.postOrder_eq, surplus_postOrder] at hsurplus
  have hcount := h.accepts.reads.surplus_add hsep h.accepts.alphabet true
  constructor
  · rw [hsurplus, Bool.true_or, Bool.toNat_true] at hcount
    omega
  · intro hjoints
    have hfollows := follows_mend (joints_eq_zero_iff.mp hjoints)
    have hpostOrder : t.postOrder = postOrder (Reckoner.mend atoms) := by
      rw [h.postOrder_eq, postOrder_mend]
    have hreads := h.accepts.reads.replicate hsep (strays atoms)
    have halphabet := inAlphabet_replicate h.accepts.alphabet (strays atoms)
    obtain ⟨hrow, hknown⟩ :=
      hreads.row hsep halphabet hpostOrder h.meaningful (closesOpen_mend atoms) hfollows
    have hrun := h.run
    rw [← postOrder_mend] at hrun
    exact derives_of_run (hrow.grouped rfl hknown .nil .start) (Prod.ext hrun rfl)

/-- **Which formulas with stray brackets or operands side by side are refused.**  A formula is
refused if it does not miss as many operands as it has too many, and, if it has none too many,
unless it is well formed once its stray brackets have partners.  A stray bracket in itself changes
nothing: the outcome is that of the formula with the partners in front. -/
theorem evaluate_mend (hcheck : s.config.check = .ok ()) (formula : String) :
    let atoms := (s.evaluate formula).session.written.toList
    (gaps true atoms ≠ joints atoms ∨ joints atoms = 0 ∧ ¬ Derives (.formula 1) (mend atoms) →
      ∃ e, (s.evaluate formula).outcome = .error e) ∧
    (s.Accepts formula atoms → (∀ most ∈ s.config.maxAtoms, (mend atoms).length ≤ most) →
      (s.evaluate (mendText atoms formula)).outcome = (s.evaluate formula).outcome) := by
  intro atoms
  have hsep := Config.separates hcheck
  constructor
  · intro hmismatch
    cases houtcome : (s.evaluate formula).outcome with
    | error e => exact ⟨e, rfl⟩
    | ok x =>
      obtain ⟨read, t, hcomputes⟩ := exists_computes houtcome
      obtain rfl : read = atoms := hcomputes.accepts.leaves.written.symm
      obtain ⟨hgaps, hderives⟩ := hcomputes.mend hsep
      rcases hmismatch with hne | ⟨hjoints, hnot⟩
      · exact absurd hgaps hne
      · exact absurd (hderives hjoints) hnot
  · intro haccepts hroom
    rw [(haccepts.mend hsep hroom).leaves.outcome, postOrder_mend, haccepts.leaves.outcome]

/-- A sum with a stray bracket has the answer of the sum in brackets; a number before a bracket that
closes and one after a bracket that opens have none. -/
theorem evaluate_mend_sum :
    let s : Session Chance.Cycle := Session.fresh .standard (.ofList [])
    s.config.check = .ok () ∧
    (s.evaluate "(1+2)").outcome = (s.evaluate "1+2)").outcome ∧
    ∃ e, (s.evaluate "2)(3").outcome = .error e := by
  intro s
  have hcheck : s.config.check = .ok () := rfl
  have hread : (s.cut "1+2)").1.toOption = some () ∧ (s.cut "1+2)").2.overflowed = false := by
    decide +kernel
  obtain ⟨atoms, haccepts⟩ : ∃ atoms, s.Accepts "1+2)" atoms := by
    cases hcut : (s.cut "1+2)").1 with
    | error e =>
      rw [hcut] at hread
      cases hread.1
    | ok => exact accepts_of_cut (Prod.ext hcut rfl) hread.2
  obtain rfl : (s.evaluate "1+2)").session.written.toList = atoms := haccepts.leaves.written
  have hroom : ∀ most ∈ s.config.maxAtoms,
      (mend (s.evaluate "1+2)").session.written.toList).length ≤ most := by
    intro most hmost
    cases hmost
    decide +kernel
  have hmended : mendText (s.evaluate "1+2)").session.written.toList "1+2)" = "(1+2)" := by
    decide +kernel
  have hgaps : gaps true (s.evaluate "2)(3").session.written.toList ≠
      joints (s.evaluate "2)(3").session.written.toList := by decide +kernel
  have hsame := (evaluate_mend hcheck "1+2)").2 haccepts hroom
  rw [hmended] at hsame
  exact ⟨hcheck, hsame, (evaluate_mend hcheck "2)(3").1 (Or.inl hgaps)⟩

/-- **Not all such formulas are refused**: a sum with a closing bracket too much has an answer, and
so has a number in brackets next to another one, with a plus behind both. -/
theorem stray_accepted :
    let s : Session Chance.Cycle := Session.fresh .standard (.ofList [])
    s.config.check = .ok () ∧
    strays (s.evaluate "1+2)").session.written.toList = 1 ∧
    (s.evaluate "1+2)").outcome.toOption = some 3 ∧
    joints (s.evaluate "(1)2+").session.written.toList = 1 ∧
    (s.evaluate "(1)2+").outcome.toOption = some 3 := by
  intro s
  exact ⟨rfl, by decide +kernel, by decide +kernel, by decide +kernel, by decide +kernel⟩

end Session

end Reckoner
