/-
# Upper case is final

What has been put into upper case stays as it is when it is put into upper case again
(`Text.uppercase_uppercase`).  For no character of an upper case has another one itself: the code
points that the tables map from, and those that they map to, have none in common
(`Text.disjoint_lowered_raised`).  There are some thousand of either, so that each set is made the
bits of one number (`Text.bits`), and all of them are compared at once.
-/
import Mathlib.Data.List.Basic
import Reckoner.Text.Uppercase

namespace Reckoner.Text

/-! ## 1. Sets of code points -/

/-- The number whose bits stand for the listed numbers.  With thousands of code points a comparison
of lists would take too long, while two such numbers are compared at once. -/
def bits (l : List Nat) : Nat := l.foldr (fun n b => 1 <<< n ||| b) 0

theorem testBit_bits {l : List Nat} {n : Nat} : (bits l).testBit n = true ↔ n ∈ l := by
  induction l with
  | nil => simp [bits]
  | cons m rest ih =>
    have hcons : bits (m :: rest) = 1 <<< m ||| bits rest := rfl
    rw [hcons, Nat.testBit_or, Nat.one_shiftLeft, Nat.testBit_two_pow, Bool.or_eq_true, ih,
      decide_eq_true_iff, List.mem_cons, eq_comm]

/-- Numbers without a bit in common stand for disjoint lists. -/
theorem disjoint_of_bits {l m : List Nat} (h : bits l &&& bits m = 0) : l.Disjoint m := by
  intro n hl hm
  have hboth : (bits l &&& bits m).testBit n = true := by
    rw [Nat.testBit_and, testBit_bits.mpr hl, testBit_bits.mpr hm]
    rfl
  rw [h, Nat.zero_testBit] at hboth
  cases hboth

def CaseRun.points (r : CaseRun) : List Nat :=
  (List.range ((r.last - r.first) / r.stride + 1)).map fun i => r.first + i * r.stride

theorem CaseRun.mem_points (r : CaseRun) {n : Nat} (h : r.covers n = true) : n ∈ r.points := by
  simp only [covers, Bool.and_eq_true, decide_eq_true_eq, beq_iff_eq] at h
  obtain ⟨⟨hfirst, hlast⟩, hstride⟩ := h
  refine List.mem_map.mpr ⟨(n - r.first) / r.stride, ?_, ?_⟩
  · have hle : (n - r.first) / r.stride ≤ (r.last - r.first) / r.stride :=
      Nat.div_le_div_right (by omega)
    rw [List.mem_range]
    omega
  · have hmul := Nat.div_mul_cancel (Nat.dvd_of_mod_eq_zero hstride)
    omega

/-- The code points with an upper case other than themselves.  ASCII letters are in the first part,
since the tables leave them out. -/
def lowered : List Nat :=
  List.range' 97 26 ++ (expansions.map Prod.fst ++ caseRuns.flatMap CaseRun.points)

/-- The code points in the upper case of a character beyond ASCII that has another one. -/
def raised : List Nat :=
  expansions.flatMap Prod.snd ++
    caseRuns.flatMap fun r => r.points.map fun (n : Nat) => (n + r.shift).toNat

/-- **No code point is both mapped to and mapped from.** -/
theorem disjoint_lowered_raised : lowered.Disjoint raised :=
  disjoint_of_bits (by decide +kernel)

/-! ## 2. One character -/

theorem find?_expansions_eq_none {n : Nat} (h : n ∉ lowered) :
    expansions.find? (fun e => e.1 == n) = none := by
  rw [List.find?_eq_none]
  intro e he hn
  refine h ?_
  rw [← beq_iff_eq.mp hn]
  exact List.mem_append_right _ (List.mem_append_left _ (List.mem_map_of_mem he))

theorem find?_caseRuns_eq_none {n : Nat} (h : n ∉ lowered) :
    caseRuns.find? (fun r => r.covers n) = none := by
  rw [List.find?_eq_none]
  intro r hr hn
  refine h ?_
  exact List.mem_append_right _ (List.mem_append_right _
    (List.mem_flatMap.mpr ⟨r, hr, r.mem_points hn⟩))

theorem upperChar_eq_self {c : Char} (h : c.toNat ∉ lowered) : upperChar c = [c] := by
  by_cases hascii : c.toNat < 128
  · have hall : ∀ n < 128, n ∉ List.range' 97 26 → (Char.ofNat n).toUpper = Char.ofNat n := by
      decide +kernel
    have hletter : c.toNat ∉ List.range' 97 26 := by
      intro hmem
      exact h (List.mem_append_left _ hmem)
    have hself := hall c.toNat hascii hletter
    rw [Char.ofNat_toNat] at hself
    rw [upperChar_ascii hascii, hself]
  · simp only [upperChar, if_neg hascii, find?_expansions_eq_none h, find?_caseRuns_eq_none h]

theorem upperChar_of_raised {n : Nat} (h : n ∈ raised) :
    upperChar (Char.ofNat n) = [Char.ofNat n] := by
  -- what is no code point stands for the first one
  have hpoint : (Char.ofNat n).toNat = n ∨ (Char.ofNat n).toNat = 0 := by
    by_cases hvalid : n.isValidChar
    · rw [Char.ofNat, dif_pos hvalid]
      exact Or.inl rfl
    · rw [Char.ofNat, dif_neg hvalid]
      exact Or.inr rfl
  refine upperChar_eq_self ?_
  rcases hpoint with hpoint | hpoint
  · intro hlowered
    rw [hpoint] at hlowered
    exact disjoint_lowered_raised hlowered h
  · rw [hpoint]
    decide +kernel

/-- A character beyond ASCII is its own upper case, or becomes code points that the tables map
to. -/
theorem upperChar_cases {c : Char} (hascii : ¬ c.toNat < 128) :
    upperChar c = [c] ∨ ∀ d ∈ upperChar c, ∃ n ∈ raised, Char.ofNat n = d := by
  cases hexpansion : expansions.find? (fun e => e.1 == c.toNat) with
  | some e =>
    have hupper : upperChar c = e.2.map Char.ofNat := by
      simp only [upperChar, if_neg hascii, hexpansion]
    right
    intro d hd
    rw [hupper] at hd
    obtain ⟨n, hn, rfl⟩ := List.mem_map.mp hd
    have hmem : n ∈ expansions.flatMap Prod.snd :=
      List.mem_flatMap.mpr ⟨e, List.mem_of_find?_eq_some hexpansion, hn⟩
    exact ⟨n, List.mem_append_left _ hmem, rfl⟩
  | none =>
    cases hrun : caseRuns.find? (fun r => r.covers c.toNat) with
    | some r =>
      have hupper : upperChar c = [Char.ofNat (c.toNat + r.shift).toNat] := by
        simp only [upperChar, if_neg hascii, hexpansion, hrun]
      have hcovers : r.covers c.toNat = true :=
        List.find?_some (p := fun r : CaseRun => r.covers c.toNat) hrun
      right
      intro d hd
      rw [hupper, List.mem_singleton] at hd
      rw [hd]
      refine ⟨_, List.mem_append_right _ (List.mem_flatMap.mpr ⟨r, ?_, ?_⟩), rfl⟩
      · exact List.mem_of_find?_eq_some hrun
      · exact List.mem_map.mpr ⟨c.toNat, r.mem_points hcovers, rfl⟩
    | none =>
      left
      simp only [upperChar, if_neg hascii, hexpansion, hrun]

/-- **A character of an upper case is its own upper case.**  If the character was changed, this one
is among those that the tables map to, and they map none of them any further. -/
theorem upperChar_of_mem {c d : Char} (h : d ∈ upperChar c) : upperChar d = [d] := by
  by_cases hascii : c.toNat < 128
  · have hall : ∀ n < 128, upperChar (Char.ofNat n).toUpper = [(Char.ofNat n).toUpper] := by
      decide +kernel
    have hself := hall c.toNat hascii
    rw [upperChar_ascii hascii, List.mem_singleton] at h
    rwa [Char.ofNat_toNat, ← h] at hself
  · rcases upperChar_cases hascii with hself | hraised
    · rw [hself, List.mem_singleton] at h
      rw [h, hself]
    · obtain ⟨n, hn, rfl⟩ := hraised d h
      exact upperChar_of_raised hn

/-! ## 3. Texts -/

/-- **A text in upper case is its own upper case.** -/
theorem uppercase_uppercase (s : String) : uppercase (uppercase s) = uppercase s := by
  have hself : ∀ l : List Char, (∀ d ∈ l, upperChar d = [d]) → l.flatMap upperChar = l := by
    intro l h
    induction l with
    | nil => rfl
    | cons d rest ih =>
      obtain ⟨hd, hrest⟩ := List.forall_mem_cons.mp h
      rw [List.flatMap_cons, hd, ih hrest]
      rfl
  have hall : ∀ d ∈ (uppercase s).toList, upperChar d = [d] := by
    intro d hd
    rw [toList_uppercase] at hd
    obtain ⟨c, -, hc⟩ := List.mem_flatMap.mp hd
    exact upperChar_of_mem hc
  rw [uppercase, hself _ hall, String.ofList_toList]

end Reckoner.Text
