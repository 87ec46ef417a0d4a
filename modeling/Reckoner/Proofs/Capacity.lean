/-
# The limit on the atoms of a formula

A session with a limit is compared with the same session without one.  As long as the atoms of a
formula fit, cutting fills both sequences alike (`AtomSeq.KeepsUp`) and nothing tells the two
sessions apart.  Once an atom is dropped, the limited sequence no longer knows the last atom, so
that from there on minus signs may be taken differently and numbers be malformed in one session
only; but nothing that comes then is kept (`Lexicon.toList_scan_of_full`), and whether the cut ends
well or not, the formula is malformed.  `Session.evaluate_unlimited` puts the two cases together.
-/
import Reckoner.Proofs.Draws

namespace Reckoner

/-! ## 1. Cutting into a full sequence -/

namespace Lexicon

theorem prefix_scan {lexicon : Lexicon} {text : List Char} {out : AtomSeq} :
    out.toList <+: (lexicon.scan text out).2.toList := by
  apply scan_preserves (P := fun s => out.toList <+: s.toList) _ List.prefix_rfl
  intro s a h
  rw [AtomSeq.toList_push]
  split
  · exact h.trans (List.prefix_append ..)
  · exact h

theorem toList_scan_of_full {lexicon : Lexicon} {text : List Char} {out : AtomSeq}
    (h : out.accepts = false) : (lexicon.scan text out).2.toList = out.toList := by
  suffices hfull : (lexicon.scan text out).2.toList = out.toList ∧
      (lexicon.scan text out).2.accepts = false from hfull.1
  apply scan_preserves (P := fun s => s.toList = out.toList ∧ s.accepts = false) _ ⟨rfl, h⟩
  intro s a ⟨hlist, hfull⟩
  obtain ⟨hsame, hstill, -⟩ := AtomSeq.toList_push_of_full hfull a
  exact ⟨hsame.trans hlist, hstill⟩

theorem scan_ok_or_malformed (lexicon : Lexicon) (text : List Char) (out : AtomSeq) :
    (lexicon.scan text out).1 = .ok () ∨ (lexicon.scan text out).1 = .error .malformed := by
  induction text, out using lexicon.scan_induct with
  | done out =>
    rw [scan_nil]
    exact Or.inl rfl
  | stop c rest out cut hcut hatom =>
    rw [scan_of_none hcut hatom]
    exact Or.inr rfl
  | next c rest out cut a hcut hatom ih => rwa [scan_of_some hcut hatom]

/-- Nothing but a character outside the alphabet or a malformed number ends a cut early. -/
theorem error_tokenize {lexicon : Lexicon} {formula : String} {out : AtomSeq} {e : FormulaError}
    (h : (lexicon.tokenize formula out).1 = .error e) :
    e = .invalidCharacter ∨ e = .malformed := by
  simp only [tokenize_eq_scan] at h
  split at h
  · rcases lexicon.scan_ok_or_malformed (normalize lexicon.separator formula.toList) out
      with hok | hmalformed
    · rw [hok] at h
      cases h
    · rw [hmalformed] at h
      cases h
      exact Or.inr rfl
  · cases h
    exact Or.inl rfl

/-- The atoms of a formula, up to its end or to the first malformed number.  They are cut without a
limit, since behind a dropped atom the scanner may take a sign for an operator. -/
def stream (lexicon : Lexicon) (formula : String) : List Atom :=
  (lexicon.tokenize formula (.bounded none)).2.toList

end Lexicon

/-! ## 2. Cutting with and without a limit -/

/-- The sequence `limited` has taken all that `free`, which has no capacity, has taken.  As long as
this is so, both expect the same, and a scan into one takes the same way as a scan into the
other. -/
structure AtomSeq.KeepsUp (limited free : AtomSeq) : Prop where
  atoms_eq : limited.atoms = free.atoms
  kept : limited.overflowed = false
  unbounded : free.capacity = none
  free_kept : free.overflowed = false

namespace AtomSeq.KeepsUp

variable {limited free : AtomSeq}

theorem toList_eq (h : limited.KeepsUp free) : limited.toList = free.toList := by
  rw [toList, toList, h.atoms_eq]

theorem expectsOperand_eq (h : limited.KeepsUp free) :
    limited.expectsOperand = free.expectsOperand := by
  rw [expectsOperand, expectsOperand, h.atoms_eq]

theorem free_accepts (h : limited.KeepsUp free) : free.accepts = true := by
  simp [accepts, h.unbounded]

theorem push (h : limited.KeepsUp free) (haccepts : limited.accepts = true) (a : Atom) :
    (limited.push a).KeepsUp (free.push a) := by
  rw [push_of_accepts haccepts, push_of_accepts h.free_accepts]
  exact ⟨by rw [h.atoms_eq], h.kept, h.unbounded, h.free_kept⟩

end AtomSeq.KeepsUp

namespace Lexicon

/-- **With a limit, a scan gives the first atoms of the scan without one.**  It ends in the same way
if they are all there is. -/
theorem scan_of_keepsUp (lexicon : Lexicon) (text : List Char) {most : Nat}
    {limited free : AtomSeq} (h : limited.KeepsUp free) (hcapacity : limited.capacity = some most)
    (hfits : limited.Fits 0) :
    ((lexicon.scan text free).2.toList.length ≤ most →
      (lexicon.scan text limited).1 = (lexicon.scan text free).1 ∧
      (lexicon.scan text limited).2.KeepsUp (lexicon.scan text free).2) ∧
    (most < (lexicon.scan text free).2.toList.length →
      (lexicon.scan text limited).2.toList = (lexicon.scan text free).2.toList.take most ∧
      (lexicon.scan text limited).2.overflowed = true) := by
  have hsize : limited.toList.length ≤ most := by
    rw [← AtomSeq.size_eq_length]
    exact hfits most hcapacity
  induction text, free using lexicon.scan_induct generalizing limited with
  | done free =>
    rw [scan_nil, scan_nil]
    rw [h.toList_eq] at hsize
    exact ⟨fun _ => ⟨rfl, h⟩, fun hmore => absurd hmore (Nat.not_lt.mpr hsize)⟩
  | stop c rest free cut hcut hatom =>
    rw [scan_of_none hcut hatom, scan_of_none (h.expectsOperand_eq ▸ hcut) hatom]
    rw [h.toList_eq] at hsize
    exact ⟨fun _ => ⟨rfl, h⟩, fun hmore => absurd hmore (Nat.not_lt.mpr hsize)⟩
  | next c rest free cut a hcut hatom ih =>
    rw [scan_of_some hcut hatom, scan_of_some (h.expectsOperand_eq ▸ hcut) hatom]
    by_cases haccepts : limited.accepts = true
    · have hfits' := AtomSeq.fits_zero_push hfits a
      have hcapacity' : (limited.push a).capacity = some most := by
        rw [AtomSeq.capacity_push, hcapacity]
      apply ih (h.push haccepts a) hcapacity' hfits'
      rw [← AtomSeq.size_eq_length]
      exact hfits' most hcapacity'
    · -- the atom is dropped: from here on only the unlimited sequence grows
      have hfull : limited.accepts = false := by simpa using haccepts
      have hlength : limited.toList.length = most := by
        have hroom : ¬ limited.size < most := by simpa [AtomSeq.accepts, hcapacity] using hfull
        rw [AtomSeq.size_eq_length] at hroom
        omega
      obtain ⟨hsame, hstill, hover⟩ := AtomSeq.toList_push_of_full hfull a
      obtain ⟨more, hmore⟩ : (free.push a).toList <+: (lexicon.scan cut.2 (free.push a)).2.toList :=
        prefix_scan
      rw [AtomSeq.toList_push, if_pos h.free_accepts, ← h.toList_eq] at hmore
      constructor
      · intro hfew
        rw [← hmore] at hfew
        simp only [List.length_append, List.length_cons, List.length_nil] at hfew
        omega
      · intro _
        refine ⟨?_, overflowed_scan hover⟩
        rw [toList_scan_of_full hstill, hsame, ← hmore, List.append_assoc, ← hlength,
          List.take_left]

/-- **With a limit, a formula is cut into the first atoms of its stream.**  Behind them the two
scans may take different ways, but the limited one keeps nothing of what it finds there. -/
theorem tokenize_of_limit (lexicon : Lexicon) (formula : String) (most : Nat) :
    ((lexicon.stream formula).length ≤ most →
      (lexicon.tokenize formula (.bounded (some most))).1 =
        (lexicon.tokenize formula (.bounded none)).1 ∧
      (lexicon.tokenize formula (.bounded (some most))).2.KeepsUp
        (lexicon.tokenize formula (.bounded none)).2) ∧
    (most < (lexicon.stream formula).length →
      ((lexicon.tokenize formula (.bounded (some most))).1 = .ok () ∨
        (lexicon.tokenize formula (.bounded (some most))).1 = .error .malformed) ∧
      (lexicon.tokenize formula (.bounded (some most))).2.toList =
        (lexicon.stream formula).take most ∧
      (lexicon.tokenize formula (.bounded (some most))).2.overflowed = true) := by
  have hstart : (AtomSeq.bounded (some most)).KeepsUp (.bounded none) := ⟨rfl, rfl, rfl, rfl⟩
  simp only [stream, tokenize_eq_scan]
  split
  · have hscan := lexicon.scan_of_keepsUp (normalize lexicon.separator formula.toList) hstart rfl
      (AtomSeq.fits_zero_bounded (some most))
    exact ⟨hscan.1, fun h => ⟨lexicon.scan_ok_or_malformed .., hscan.2 h⟩⟩
  · exact ⟨fun _ => ⟨rfl, hstart⟩, fun h => absurd h (by simp)⟩

end Lexicon

/-! ## 3. Evaluating with and without a limit -/

namespace Session

variable {σ : Type}

/-- The session `free` is `s` without the limit, whatever either has evaluated before.  Only what
the next formula can see is the same. -/
structure Unlimited (s free : Session σ) : Prop where
  config : free.config = { s.config with maxAtoms := none }
  bindings : free.bindings = s.bindings
  source : free.source = s.source

theorem Unlimited.lexicon_eq {s free : Session σ} (h : s.Unlimited free) :
    free.lexicon = s.lexicon := by
  rw [lexicon, lexicon, h.config, h.bindings]

variable [Chance.Source σ] {s free : Session σ} {most : Nat} {formula : String}

theorem Unlimited.agrees (h : s.Unlimited free) (hmost : s.config.maxAtoms = some most)
    (hfew : (s.lexicon.stream formula).length ≤ most) :
    (s.evaluate formula).Agrees (free.evaluate formula) ∧
    (s.evaluate formula).session.source = (free.evaluate formula).session.source ∧
    (s.evaluate formula).session.written.overflowed = false ∧
    (free.evaluate formula).session.written.overflowed = false := by
  have hfree : free.cut formula = s.lexicon.tokenize formula (.bounded none) := by
    rw [cut, h.lexicon_eq, h.config]
  have hlimited : s.cut formula = s.lexicon.tokenize formula (.bounded (some most)) := by
    rw [cut, hmost]
  have hseparator : free.config.separator = s.config.separator := by rw [h.config]
  have hempty : (AtomSeq.bounded s.config.maxAtoms).Same (.bounded free.config.maxAtoms) :=
    ⟨rfl, rfl⟩
  obtain ⟨hend, hkeeps⟩ := (s.lexicon.tokenize_of_limit formula most).1 hfew
  rw [← hfree, ← hlimited] at hend hkeeps
  have hfits := s.fits_postOrder formula
  have hfits' := free.fits_postOrder formula
  rcases hcut : s.cut formula with ⟨e | _, written⟩
  · rcases hcut' : free.cut formula with ⟨end', written'⟩
    rw [hcut, hcut'] at hend hkeeps
    obtain rfl : .error e = end' := hend
    have hsame : written.Same written' :=
      ⟨hkeeps.toList_eq, hkeeps.kept.trans hkeeps.free_kept.symm⟩
    rw [evaluate_of_error hcut, evaluate_of_error hcut', AtomSeq.overflowReport_of_kept hkeeps.kept,
      AtomSeq.overflowReport_of_kept hkeeps.free_kept]
    exact ⟨agrees_finish hsame hempty (s.cleared_reset.with_rows ..)
      (free.cleared_reset.with_rows ..) formula (.error e) _, h.source.symm, hkeeps.kept,
      hkeeps.free_kept⟩
  · rcases hcut' : free.cut formula with ⟨end', written'⟩
    rw [hcut, hcut'] at hend hkeeps
    rw [hcut, hkeeps.toList_eq] at hfits
    rw [hcut'] at hfits'
    obtain rfl : .ok () = end' := hend
    have hrun : (Reckoner.evaluate Builtin.registry (postOrder written'.toList) s.source).Agrees
        (Reckoner.evaluate Builtin.registry (postOrder written'.toList) free.source) := by
      rw [h.source]
      exact ⟨rfl, rfl⟩
    have hagrees : (s.evaluate formula).Agrees (free.evaluate formula) := by
      rw [evaluate_of_kept hcut hkeeps.kept, evaluate_of_kept hcut' hkeeps.free_kept, hseparator,
        AtomSeq.size_eq_length, AtomSeq.size_eq_length, hkeeps.toList_eq]
      exact agrees_run (s := { s.reset with written })
        (t := { free.reset with written := written' }) hkeeps.toList_eq rfl
        (hkeeps.kept.trans hkeeps.free_kept.symm) (s.cleared_reset.with_rows ..)
        (free.cleared_reset.with_rows ..) rfl rfl hfits hfits' hrun formula _
    have hsource := source_eq_of_agrees hagrees h.source.symm
    rw [written_evaluate, written_evaluate, hcut, hcut']
    exact ⟨hagrees, hsource, hkeeps.kept, hkeeps.free_kept⟩

/-- What an evaluation leaves behind whose formula had more atoms than the limit let in.  The
warning is the report of the first atom that was dropped. -/
structure Truncated (s : Session σ) (formula : String) (first : List Atom) : Prop where
  outcome : (s.evaluate formula).outcome = .error .malformed
  written : (s.evaluate formula).session.written.toList = first
  overflowed : (s.evaluate formula).session.written.overflowed = true
  arranged : (s.evaluate formula).session.arranged.toList = []
  warnings : recordsFrom .warn (s.evaluate formula).log = [.capacityReached first.length]
  source : (s.evaluate formula).session.source = s.source

theorem truncated_of_lt (hmost : s.config.maxAtoms = some most)
    (hmany : most < (s.lexicon.stream formula).length) :
    s.Truncated formula ((s.lexicon.stream formula).take most) := by
  have hlimited : s.cut formula = s.lexicon.tokenize formula (.bounded (some most)) := by
    rw [cut, hmost]
  have htruncated := (s.lexicon.tokenize_of_limit formula most).2 hmany
  have hcapacity := s.capacity_cut formula
  rcases hcut : s.cut formula with ⟨cut, written⟩
  rw [← hlimited, hcut] at htruncated
  rw [hcut] at hcapacity
  dsimp only at htruncated hcapacity
  obtain ⟨hend, hlist, hover⟩ := htruncated
  have hreport : (AtomSeq.bounded s.config.maxAtoms).overflowReport written =
      [.capacityReached ((s.lexicon.stream formula).take most).length] := by
    have hlength : min most (s.lexicon.stream formula).length = most := by omega
    simp [AtomSeq.overflowReport, hmost, hover, AtomSeq.bounded, hlength]
  -- the cut may end well or not, which comes to the same
  obtain ⟨log, hwarnings, hevaluate⟩ : ∃ log, recordsFrom .warn log =
      [.capacityReached ((s.lexicon.stream formula).take most).length] ∧
      s.evaluate formula = { s.reset with written }.finish formula (.error .malformed) log := by
    obtain rfl | rfl := hend
    · exact ⟨_, by rw [hreport]; rfl, evaluate_of_overflowed hcut hover⟩
    · exact ⟨_, by rw [hreport]; rfl, evaluate_of_error hcut⟩
  constructor <;> rw [hevaluate]
  · rfl
  · exact hlist
  · exact hover
  · rfl
  · simp only [finish, recordsFrom, List.filter_append] at hwarnings ⊢
    rw [hwarnings]
    rfl
  · rfl

/-- **The limit on atoms only refuses.**  A formula whose atoms fit is evaluated as without a limit,
and then nothing overflows; of any other the first atoms are kept, the formula is malformed, there
is one warning, and nothing is drawn.  In no case does the post-order overflow. -/
theorem evaluate_unlimited (h : s.Unlimited free) (hmost : s.config.maxAtoms = some most)
    (formula : String) :
    (free.evaluate formula).session.written.toList = free.lexicon.stream formula ∧
    ((free.lexicon.stream formula).length ≤ most →
      (s.evaluate formula).Agrees (free.evaluate formula) ∧
      (s.evaluate formula).session.source = (free.evaluate formula).session.source ∧
      (s.evaluate formula).session.written.overflowed = false ∧
      (free.evaluate formula).session.written.overflowed = false) ∧
    (most < (free.lexicon.stream formula).length →
      s.Truncated formula ((free.lexicon.stream formula).take most)) ∧
    (s.evaluate formula).session.arranged.overflowed = false ∧
    (free.evaluate formula).session.arranged.overflowed = false := by
  have hstream : (free.evaluate formula).session.written.toList = free.lexicon.stream formula := by
    rw [written_evaluate, cut, h.config]
    rfl
  rw [h.lexicon_eq] at hstream ⊢
  exact ⟨hstream, h.agrees hmost, truncated_of_lt hmost, s.overflowed_arranged_evaluate formula,
    free.overflowed_arranged_evaluate formula⟩

/-- At the limit of one atom the sign of `X` is no longer taken for a number, so that only without
the limit the formula ends at a malformed one. -/
theorem evaluate_unlimited_sign :
    let s : Session Chance.Cycle := .fresh { Config.standard with maxAtoms := some 1 } (.ofList [])
    let free : Session Chance.Cycle := .fresh { Config.standard with maxAtoms := none } (.ofList [])
    s.Unlimited free ∧ s.config.maxAtoms = some 1 ∧
    (s.lexicon.tokenize "7+-X" s.written).1.toOption = some () ∧
    (free.lexicon.tokenize "7+-X" free.written).1.toOption = none ∧
    (free.lexicon.stream "7+-X").map Atom.name = ["7", "+"] ∧
    s.Truncated "7+-X" ((free.lexicon.stream "7+-X").take 1) := by
  intro s free
  have hfree : s.Unlimited free := ⟨rfl, rfl, rfl⟩
  have hmany : 1 < (free.lexicon.stream "7+-X").length := by decide +kernel
  exact ⟨hfree, rfl, by decide +kernel, by decide +kernel, by decide +kernel,
    (evaluate_unlimited hfree rfl "7+-X").2.2.1 hmany⟩

end Session

end Reckoner
