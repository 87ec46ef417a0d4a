/-
# Points, commas and the separator itself

In a formula, points and commas stand for the separator, and it can be expected that the separator
may be written in their place (`Respells`).  That is so for a separator that is its own upper case,
and for no other one (`Session.evaluate_respelled`).  A formula is put into upper case before
separators are looked for, so that a small letter beyond ASCII, which passes the check of a
configuration, is never found (`Session.respelled_refused`).
-/
import Reckoner.Proofs.Names
import Reckoner.Proofs.ReadBack

namespace Reckoner

/-! ## 1. What becomes a point or a comma -/

theorem ofNat_ne_point {n : Nat} (h : 46 < n) : ¬ (Char.ofNat n = '.' ∨ Char.ofNat n = ',') := by
  have hnat : (Char.ofNat n).toNat ≠ 46 ∧ (Char.ofNat n).toNat ≠ 44 := by
    rw [Char.toNat_ofNat]
    split <;> omega
  rintro (hpoint | hcomma)
  · exact hnat.1 (congrArg Char.toNat hpoint)
  · exact hnat.2 (congrArg Char.toNat hcomma)

/-- **Only points and commas have them in their upper case.**  This is checked against the tables,
where neither of the two is among the upper cases of other characters. -/
theorem Text.eq_of_mem_upperChar {c d : Char} (hd : d = '.' ∨ d = ',') (h : d ∈ upperChar c) :
    c = d := by
  have hascii : ∀ n < 128, (Char.ofNat n).toUpper = '.' ∨ (Char.ofNat n).toUpper = ',' →
      (Char.ofNat n).toUpper = Char.ofNat n := by decide +kernel
  have hexpansions : ∀ e ∈ expansions, ∀ n ∈ e.2, 46 < n := by decide +kernel
  have hruns : ∀ r ∈ caseRuns, 46 < r.first + r.shift := by decide +kernel
  unfold upperChar at h
  split at h
  · rename_i hsmall
    have hsame := hascii c.toNat hsmall
    rw [Char.ofNat_toNat, ← List.mem_singleton.mp h] at hsame
    exact (hsame hd).symm
  · split at h
    · rename_i e hfind
      obtain ⟨n, hn, rfl⟩ := List.mem_map.mp h
      exact absurd hd (ofNat_ne_point (hexpansions e (List.mem_of_find?_eq_some hfind) n hn))
    · split at h
      · rename_i r hfind
        have hfirst : r.first ≤ c.toNat := by
          have hcovers := List.find?_some hfind
          simp only [CaseRun.covers, Bool.and_eq_true, decide_eq_true_eq] at hcovers
          exact hcovers.1.1
        have hrun := hruns r (List.mem_of_find?_eq_some hfind)
        rw [List.mem_singleton.mp h] at hd
        exact absurd hd (ofNat_ne_point (by omega))
      · exact (List.mem_singleton.mp h).symm

/-! ## 2. Respelled formulas -/

/-- Some of the points and commas of `written` are replaced by the separator in `respelled`.  All
other characters stay, and nothing else may become the separator. -/
def Respells (separator : Char) (written respelled : List Char) : Prop :=
  List.Forall₂ (fun c d => d = c ∨ (c = '.' ∨ c = ',') ∧ d = separator) written respelled

theorem normalize_append (separator : Char) (u v : List Char) :
    normalize separator (u ++ v) = normalize separator u ++ normalize separator v := by
  simp [normalize]

/-- **The separator is normalised to itself exactly if it is its own upper case.** -/
theorem normalize_separator_iff {separator : Char} (hsep : Separates separator) :
    normalize separator [separator] = [separator] ↔
      Text.upperChar separator = [separator] := by
  have hmap : normalize separator [separator] = (Text.upperChar separator).map
      (fun c => if c = '.' ∨ c = ',' then separator else c) := by
    simp [normalize, hsep.ne_space]
  rw [hmap]
  constructor
  · intro h
    obtain ⟨c, hc, hseparator⟩ := List.map_eq_singleton_iff.mp h
    split at hseparator
    · -- only a point or a comma has one in its upper case
      rename_i hpoint
      have hself : separator = c := Text.eq_of_mem_upperChar hpoint (by simp [hc])
      rw [hc, hself]
    · rw [hc, hseparator]
  · intro h
    simp [h]

theorem normalize_point {separator : Char} (hsep : Separates separator)
    (hupper : Text.upperChar separator = [separator]) {c : Char} (hc : c = '.' ∨ c = ',') :
    normalize separator [separator] = normalize separator [c] := by
  rw [(normalize_separator_iff hsep).mpr hupper]
  rcases hc with rfl | rfl <;> rfl

/-- **Respelled formulas are normalised to the same text.** -/
theorem Respells.normalize_eq {separator : Char} (hsep : Separates separator)
    (hupper : Text.upperChar separator = [separator]) {written respelled : List Char}
    (h : Respells separator written respelled) :
    normalize separator respelled = normalize separator written := by
  induction h with
  | nil => rfl
  | @cons c d written respelled hcd h ih =>
    have hfirst : normalize separator [d] = normalize separator [c] := by
      rcases hcd with rfl | ⟨hc, rfl⟩
      · rfl
      · exact normalize_point hsep hupper hc
    rw [← List.singleton_append, normalize_append, ih, hfirst, ← normalize_append,
      List.singleton_append]

/-- A formula whose only atom has a name that does not end with a zero is normalised to that
name. -/
theorem Session.Accepts.normalize_eq {σ : Type} {s : Session σ}
    (hsep : Separates s.config.separator) {formula : String} {a : Atom}
    (h : s.Accepts formula [a]) (hlast : a.name.toList.getLast? ≠ some '0') :
    normalize s.config.separator formula.toList = a.name.toList := by
  obtain ⟨lexemes, hcut, hemits⟩ := h.reads.exists_cut hsep h.alphabet
  have hnames := hemits.names_eq
  cases hemits with
  | @cons l _ _ _ hmeans hemits =>
    cases hemits
    rw [← hcut.text_eq]
    simp only [List.flatMap_cons, List.flatMap_nil, List.append_nil] at hnames ⊢
    rw [hnames] at hlast ⊢
    cases l with
    | number t =>
      rw [Lexeme.name, Lexeme.numberName] at hlast ⊢
      split
      · rename_i hends
        rw [if_pos hends, List.getLast?_append] at hlast
        exact absurd rfl hlast
      · rfl
    | word t => rfl
    | mark c => rfl

/-! ## 3. Evaluations -/

namespace Session

variable {σ : Type} {s : Session σ}

variable [Chance.Source σ]

/-- **Formulas that are normalised to the same text are evaluated alike.**  Reports may differ,
since they show the formula as it is written. -/
theorem evaluate_congr {written respelled : String}
    (h : normalize s.config.separator respelled.toList =
      normalize s.config.separator written.toList) :
    (s.evaluate respelled).outcome = (s.evaluate written).outcome ∧
      (s.evaluate respelled).session = (s.evaluate written).session := by
  have hcut : s.cut respelled = s.cut written := by
    have hsame : normalize s.lexicon.separator respelled.toList =
        normalize s.lexicon.separator written.toList := h
    rw [cut, cut, Lexicon.tokenize_eq_scan, Lexicon.tokenize_eq_scan, hsame]
  rcases hread : s.cut written with ⟨e | _, atoms⟩
  · rw [evaluate_of_error hread, evaluate_of_error (hcut.trans hread)]
    exact ⟨rfl, rfl⟩
  · cases hover : atoms.overflowed with
    | true =>
      rw [evaluate_of_overflowed hread hover, evaluate_of_overflowed (hcut.trans hread) hover]
      exact ⟨rfl, rfl⟩
    | false =>
      rw [evaluate_of_kept hread hover, evaluate_of_kept (hcut.trans hread) hover]
      exact ⟨rfl, rfl⟩

/-- **The separator can be written for every point and comma exactly if it is its own upper case.**
Then the respelled formula is evaluated alike: it has the same outcome, and the same atoms as
written and in post-order. -/
theorem evaluate_respelled (hcheck : s.config.check = .ok ()) :
    (∀ written respelled : String,
      Respells s.config.separator written.toList respelled.toList →
      (s.evaluate respelled).outcome = (s.evaluate written).outcome ∧
      (s.evaluate respelled).session.written = (s.evaluate written).session.written ∧
      (s.evaluate respelled).session.arranged = (s.evaluate written).session.arranged) ↔
    Text.upperChar s.config.separator = [s.config.separator] := by
  have hsep := Config.separates hcheck
  constructor
  · intro hall
    -- one and a half has an answer if it is written with a point, and so with the separator
    let l : Literal := ⟨false, ['1'], some ['5'], by decide, by decide, by decide⟩
    have hpoint : normalize s.config.separator "1.5".toList = l.text s.config.separator := rfl
    have hrespells : Respells s.config.separator "1.5".toList
        (String.ofList (l.text s.config.separator)).toList := by
      rw [String.toList_ofList]
      simp [Respells, l, Literal.text, Literal.sign]
    obtain ⟨houtcome, hwritten⟩ := leaves_of_literal hcheck l hpoint
    obtain ⟨hsame, hatoms, -⟩ := hall "1.5" _ hrespells
    rw [houtcome] at hsame
    obtain ⟨atoms, haccepts⟩ := accepts_of_evaluate hsame
    have hread := haccepts.leaves.written
    rw [hatoms, hwritten] at hread
    subst hread
    have hname : (l.name s.config.separator).toList = l.text s.config.separator :=
      String.toList_ofList
    have hlast : (l.name s.config.separator).toList.getLast? ≠ some '0' := by
      rw [hname]
      simp [l, Literal.text]
    have hnormal := haccepts.normalize_eq hsep hlast
    rw [Atom.number, hname, String.toList_ofList] at hnormal
    have hself : normalize s.config.separator (['1'] ++ ([s.config.separator] ++ ['5'])) =
        ['1'] ++ ([s.config.separator] ++ ['5']) := hnormal
    have hends : normalize s.config.separator ['1'] = ['1'] ∧
        normalize s.config.separator ['5'] = ['5'] := ⟨rfl, rfl⟩
    rw [normalize_append, normalize_append, hends.1, hends.2] at hself
    exact (normalize_separator_iff hsep).mp
      (List.append_cancel_right (List.append_cancel_left hself))
  · intro hupper written respelled hrespells
    obtain ⟨houtcome, hsession⟩ := s.evaluate_congr (hrespells.normalize_eq hsep hupper)
    rw [hsession]
    exact ⟨houtcome, rfl, rfl⟩

/-- A raised dot can be written for a point and for a comma. -/
theorem evaluate_respelled_dot :
    let s : Session Chance.Cycle := .fresh { Config.standard with separator := '·' } (.ofList [])
    s.config.check = .ok () ∧
    Respells s.config.separator "1.5*2,5-x".toList "1·5*2·5-x".toList ∧
    (s.evaluate "1·5*2·5-x").outcome = (s.evaluate "1.5*2,5-x").outcome := by
  intro s
  have hcheck : s.config.check = .ok () := rfl
  have hupper : Text.upperChar s.config.separator = [s.config.separator] := by decide +kernel
  have hrespells : Respells s.config.separator "1.5*2,5-x".toList "1·5*2·5-x".toList := by
    simp [Respells, s, fresh]
  exact ⟨hcheck, hrespells, ((evaluate_respelled hcheck).mpr hupper _ _ hrespells).1⟩

/-- **A small letter beyond ASCII passes the check and cannot be written**: a point is read as the
letter, but the letter itself is refused. -/
theorem respelled_refused :
    let s : Session Chance.Cycle := .fresh { Config.standard with separator := 'é' } (.ofList [])
    s.config.check = .ok () ∧
    Respells s.config.separator "1.5".toList "1é5".toList ∧
    (s.evaluate "1.5").outcome.toOption = some 1.5 ∧
    (s.evaluate "1é5").outcome.toOption = none ∧
    (s.evaluate "1é5").session.lastError = some .invalidCharacter := by
  intro s
  have hrespells : Respells s.config.separator "1.5".toList "1é5".toList := by
    simp [Respells, s, fresh]
  exact ⟨rfl, hrespells, by decide +kernel, by decide +kernel, by decide +kernel⟩

end Session

end Reckoner
