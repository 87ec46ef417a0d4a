/-
# Commands with the same options

`eval` knows one option more than `batch`.  Whatever `batch` accepts as options is read in the same
way when there is another one to choose from (`readArguments_cons`), so that `eval` takes the same
arguments for the same options (`ofArguments?_evaluate`).
-/
import Reckoner.CommandLine.Arguments

namespace Reckoner.CommandLine

/-! ## 1. One option more -/

/-- The flag has a name and a letter of its own.  Without that, the search among all flags could
find it in place of another. -/
def Flag.Apart (extra : Flag) (flags : List Flag) : Prop :=
  ∀ f ∈ flags, f.long ≠ extra.long ∧ (f.short = none ∨ f.short ≠ extra.short)

section OneMore

variable {flags : List Flag} {extra : Flag} (h : extra.Apart flags)

include h

theorem find?_long {name : String} {f : Flag}
    (hf : flags.find? (fun f => f.long == name) = some f) :
    (extra :: flags).find? (fun f => f.long == name) = some f := by
  have hname : f.long = name := by simpa using List.find?_some hf
  have hother : (extra.long == name) = false := by
    rw [beq_eq_false_iff_ne, ← hname]
    exact (h f (List.mem_of_find?_eq_some hf)).1.symm
  rw [List.find?_cons, hother]
  exact hf

theorem find?_short {c : Char} {f : Flag}
    (hf : flags.find? (fun f => f.short == some c) = some f) :
    (extra :: flags).find? (fun f => f.short == some c) = some f := by
  have hletter : f.short = some c := by simpa using List.find?_some hf
  have hother : (extra.short == some c) = false := by
    rw [beq_eq_false_iff_ne, ← hletter]
    rcases (h f (List.mem_of_find?_eq_some hf)).2 with hnone | hne
    · rw [hletter] at hnone
      cases hnone
    · exact hne.symm
  rw [List.find?_cons, hother]
  exact hf

theorem readLetters_cons {letters : List Char} {items : List Item} {open? : Option String}
    (hread : readLetters flags letters = some (items, open?)) :
    readLetters (extra :: flags) letters = some (items, open?) ∧ .switch extra.long ∉ items := by
  induction letters generalizing items open? with
  | nil =>
    cases hread
    exact ⟨rfl, by simp⟩
  | cons c rest ih =>
    rw [readLetters] at hread ⊢
    cases hf : flags.find? (fun f => f.short == some c) with
    | none =>
      rw [hf] at hread
      cases hread
    | some f =>
      rw [hf] at hread
      rw [find?_short h hf]
      cases hvalue : f.takesValue with
      | true =>
        simp only [hvalue, if_true] at hread ⊢
        refine ⟨hread, ?_⟩
        split at hread <;> cases hread <;> simp
      | false =>
        simp only [hvalue, Bool.false_eq_true, if_false] at hread ⊢
        obtain ⟨⟨more, open'⟩, hrest, hmore⟩ := Option.map_eq_some_iff.mp hread
        obtain ⟨hsame, hnot⟩ := ih hrest
        cases hmore
        have hother : extra.long ≠ f.long := (h f (List.mem_of_find?_eq_some hf)).1.symm
        rw [hsame]
        exact ⟨rfl, by simp [hnot, hother]⟩

theorem readLong_cons {text : List Char} {items : List Item} {open? : Option String}
    (hread : readLong flags text = some (items, open?)) :
    readLong (extra :: flags) text = some (items, open?) ∧ .switch extra.long ∉ items := by
  rw [readLong] at hread ⊢
  rcases hcut : cutAtEquals text with ⟨name, value⟩
  rw [hcut] at hread
  cases hf : flags.find? (fun f => f.long == String.ofList name) with
  | none =>
    simp only [hf] at hread
    cases hread
  | some f =>
    have hother : extra.long ≠ f.long := (h f (List.mem_of_find?_eq_some hf)).1.symm
    simp only [hf, find?_long h hf] at hread ⊢
    refine ⟨hread, ?_⟩
    cases value with
    | none =>
      simp only at hread
      split at hread <;> cases hread
      · simp
      · simpa using hother
    | some value =>
      simp only at hread
      split at hread <;> cases hread
      simp

theorem readArgument_cons {argument : String} {items : List Item} {open? : Option String}
    (hread : readArgument flags argument = some (items, open?)) :
    readArgument (extra :: flags) argument = some (items, open?) ∧
      .switch extra.long ∉ items := by
  rw [readArgument] at hread ⊢
  split at hread
  · exact readLong_cons h hread
  · exact readLetters_cons h hread
  · cases hread
    exact ⟨rfl, by simp⟩

/-- **Arguments that are read with some options are read in the same way with one more**, which is
not among them. -/
theorem readArguments_cons {arguments : List String} {items : List Item}
    (hread : readArguments flags arguments = some items) :
    readArguments (extra :: flags) arguments = some items ∧ .switch extra.long ∉ items := by
  fun_induction readArguments flags arguments generalizing items with
  | case1 =>
    cases hread
    exact ⟨rfl, by simp⟩
  | case2 rest =>
    cases hread
    exact ⟨by rw [readArguments, if_pos rfl], by simp⟩
  | case3 => cases hread
  | case4 argument rest hplain first hfirst ih =>
    obtain ⟨others, hrest, rfl⟩ := Option.map_eq_some_iff.mp hread
    obtain ⟨hsame, hnot⟩ := readArgument_cons h hfirst
    obtain ⟨hothers, hneither⟩ := ih hrest
    rw [readArguments, if_neg hplain, hsame]
    simp only [hothers, Option.map_some]
    exact ⟨trivial, by simp [hnot, hneither]⟩
  | case5 => cases hread
  | case6 => cases hread
  | case7 argument hplain first long hfirst value rest hvalue ih =>
    obtain ⟨others, hrest, rfl⟩ := Option.map_eq_some_iff.mp hread
    obtain ⟨hsame, hnot⟩ := readArgument_cons h hfirst
    obtain ⟨hothers, hneither⟩ := ih hrest
    rw [readArguments, if_neg hplain, hsame]
    simp only [hvalue, Bool.false_eq_true, if_false, hothers, Option.map_some]
    exact ⟨trivial, by simp [hnot, hneither]⟩

end OneMore

/-! ## 2. After two dashes -/

/-- **After `--` everything is a word**, and what is before it is read as if it stood alone.  So a
formula may begin with a minus. -/
theorem readArguments_append (flags : List Flag) {arguments : List String}
    (hplain : "--" ∉ arguments) (rest : List String) :
    readArguments flags (arguments ++ "--" :: rest) =
      (readArguments flags arguments).map (· ++ rest.map .word) := by
  fun_induction readArguments flags arguments with
  | case1 => rw [List.nil_append, readArguments, if_pos rfl, Option.map_some, List.nil_append]
  | case2 => exact absurd List.mem_cons_self hplain
  | case3 argument others hother hfirst =>
    rw [List.cons_append, readArguments, if_neg hother, hfirst]
    rfl
  | case4 argument others hother first hfirst ih =>
    have hrest := ih fun hmem => hplain (List.mem_cons_of_mem argument hmem)
    rw [List.cons_append, readArguments, if_neg hother, hfirst]
    simp only [hrest, Option.map_map]
    congr 1
    funext items
    simp
  | case5 argument hother first long hfirst =>
    -- two dashes are not taken for the missing value
    have hdashes : looksLikeOption "--" = true := by decide
    rw [List.cons_append, readArguments, if_neg hother, hfirst]
    simp only [List.nil_append, hdashes, if_true]
    rfl
  | case6 argument hother first long hfirst value others hvalue =>
    rw [List.cons_append, readArguments, if_neg hother, hfirst]
    simp only [List.cons_append, hvalue, if_true]
    rfl
  | case7 argument hother first long hfirst value others hvalue ih =>
    have hrest := ih fun hmem =>
      hplain (List.mem_cons_of_mem argument (List.mem_cons_of_mem value hmem))
    rw [List.cons_append, readArguments, if_neg hother, hfirst]
    simp only [List.cons_append, hvalue, Bool.false_eq_true, if_false, hrest, Option.map_map]
    congr 1
    funext items
    simp

/-! ## 3. Both commands -/

section Words

variable (items : List Item) (texts : List String)

theorem words_append : words (items ++ texts.map .word) = words items ++ texts := by
  have hall : words (texts.map .word) = texts := by
    rw [words, List.filterMap_map]
    exact List.filterMap_some
  rw [words, List.filterMap_append]
  exact congrArg _ hall

theorem settings_append (long : String) :
    settings (items ++ texts.map .word) long = settings items long := by
  have hnone : settings (texts.map .word) long = [] := by
    rw [settings, List.filterMap_eq_nil_iff]
    simp
  rw [settings, List.filterMap_append]
  exact (congrArg _ hnone).trans (List.append_nil _)

theorem switch?_append (long : String) :
    switch? (items ++ texts.map .word) long = switch? items long := by
  have hnone : (texts.map Item.word).count (.switch long) = 0 := by
    rw [List.count_eq_zero]
    simp
  simp only [switch?, List.count_append, hnone, Nat.add_zero]

theorem readOptions_append : readOptions (items ++ texts.map .word) = readOptions items := by
  simp only [readOptions, setting?, settings_append]

end Words

/-- A command that stands first is read from the arguments after it. -/
theorem ofArguments?_cons {name : String} (hdashes : name ≠ "--")
    (hname : looksLikeOption name = false) (arguments : List String) :
    Invocation.ofArguments? (name :: arguments) = readCommand name arguments := by
  have hcut : cutAtCommand (name :: arguments) = some ([], name, arguments) := by
    rw [cutAtCommand, if_neg hdashes, hname]
    rfl
  have hverbose : switch? [] "verbose" = some false := rfl
  simp only [Invocation.ofArguments?, hcut, readArguments, hverbose, Option.bind_eq_bind,
    Option.bind_some, Bool.false_or]
  cases readCommand name arguments <;> rfl

theorem readCommand_batch {arguments : List String} {path : Option String} {verbose : Bool}
    {options : Options}
    (h : readCommand "batch" arguments = some ⟨verbose, .batch path options⟩) :
    ∃ items, readArguments optionFlags arguments = some items ∧
      switch? items "verbose" = some verbose ∧ readOptions items = some options ∧
      words items = path.toList := by
  rw [readCommand, if_neg (by decide), if_pos rfl] at h
  obtain ⟨items, hitems, h⟩ := Option.bind_eq_some_iff.mp h
  obtain ⟨verbose', hverbose, h⟩ := Option.bind_eq_some_iff.mp h
  obtain ⟨options', hoptions, h⟩ := Option.bind_eq_some_iff.mp h
  refine ⟨items, hitems, ?_⟩
  split at h
  · rename_i hwords
    cases h
    exact ⟨hverbose, hoptions, hwords⟩
  · rename_i text hwords
    obtain ⟨given, hgiven, h⟩ := Option.bind_eq_some_iff.mp h
    cases h
    -- a path is given as it is
    unfold path? at hgiven
    split at hgiven <;> cases hgiven
    exact ⟨hverbose, hoptions, hwords⟩
  · cases h

/-- **`eval` takes the same arguments for the same options.**  It has one option more, whose name
and letter the others do not have, and one word, which is put behind `--` so that any text can be
it. -/
theorem ofArguments?_evaluate {arguments : List String} {path : Option String} {verbose : Bool}
    {options : Options} (hplain : "--" ∉ arguments)
    (h : Invocation.ofArguments? ("batch" :: (arguments ++ "--" :: path.toList)) =
      some ⟨verbose, .batch path options⟩) (formula : String) :
    Invocation.ofArguments? ("eval" :: (arguments ++ ["--", formula])) =
      some ⟨verbose, .evaluate formula options false⟩ := by
  rw [ofArguments?_cons (by decide) (by decide)] at h ⊢
  obtain ⟨items, hitems, hverbose, hoptions, hpath⟩ := readCommand_batch h
  rw [readArguments_append _ hplain] at hitems
  obtain ⟨own, hown, rfl⟩ := Option.map_eq_some_iff.mp hitems
  rw [switch?_append] at hverbose
  rw [readOptions_append] at hoptions
  have hwords : words (own ++ [formula].map .word) = [formula] := by
    rw [words_append, List.append_left_eq_self] at hpath
    rw [words_append, hpath, List.nil_append]
  have hapart : traceFlag.Apart optionFlags := by
    simp [Flag.Apart, traceFlag, optionFlags, verboseFlag]
  obtain ⟨hread, hnot⟩ := readArguments_cons hapart hown
  have htrace : switch? own "trace" = some false := by
    have hcount : own.count (.switch "trace") = 0 := List.count_eq_zero.mpr hnot
    rw [switch?, hcount]
    rfl
  rw [readCommand, if_pos rfl, readArguments_append _ hplain, hread]
  simp only [Option.map_some, Option.bind_eq_bind, Option.bind_some, switch?_append, hverbose,
    htrace, readOptions_append, hoptions, hwords]
  rfl

end Reckoner.CommandLine
