/-
# Batches

A batch evaluates its formulas in one session, one after the other.  As long as they draw nothing,
and none does that calls no `RND` (`Session.countP_draws_calls`), each of them is answered as in a
session of its own, set up with the same options: an evaluation binds no variable and leaves the
configuration as it is, so that the session of the batch stays a twin of the one it began with, with
the same source (`evaluateLines_of_twin`); and the session of another command is its twin from the
beginning (`openSession_twin`).

`perform_batch` compares the two commands, from their arguments to what they print.
-/
import Mathlib.Data.List.Forall2
import Reckoner.Chance.KeyStream
import Reckoner.CommandLine.Command
import Reckoner.Proofs.Accounts
import Reckoner.Proofs.Arguments
import Reckoner.Proofs.Lines

namespace Reckoner

/-- No separator that is allowed ends a line. -/
theorem Config.separator_ne_newline {config : Config} (h : config.check = .ok ()) :
    config.separator ≠ '\n' := by
  intro hnew
  unfold Config.check at h
  rw [hnew] at h
  cases h

namespace CommandLine

open Chance Session

variable {σ τ : Type}

/-! ## 1. Sessions for the same options -/

section Bind

variable {s t : Session σ} {bindings : List String}

/-- A binding that can be read is made, and then the others. -/
theorem session_bindAll_cons {binding name : String} {value : Float}
    (h : readBinding s.config.separator binding = .ok (name, value)) (rest : List String) :
    (bindAll s (binding :: rest)).session = (bindAll (s.bind name value) rest).session := by
  rw [bindAll, h]

theorem exists_of_bindAll_cons {binding : String} {rest : List String}
    (h : (bindAll s (binding :: rest)).session = .ok t) : ∃ name value,
      readBinding s.config.separator binding = .ok (name, value) ∧
      (bindAll (s.bind name value) rest).session = .ok t := by
  rw [bindAll] at h
  split at h
  · cases h
  · rename_i name value hread
    exact ⟨name, value, hread, h⟩

theorem config_bindAll (h : (bindAll s bindings).session = .ok t) : t.config = s.config := by
  induction bindings generalizing s with
  | nil =>
    cases h
    rfl
  | cons binding rest ih =>
    obtain ⟨name, value, -, hrest⟩ := exists_of_bindAll_cons h
    rw [ih hrest, config_bind]

/-- A session that is opened has its bindings, under a configuration that passed its check. -/
theorem exists_of_openSession {surroundings : Surroundings} {source : σ} {options : Options}
    (h : (openSession surroundings source options).session = .ok s) :
    ∃ config, config.check = .ok () ∧
      (bindAll (fresh config source) options.bindings).session = .ok s := by
  unfold openSession at h
  split at h
  · cases h
  · rename_i config _
    split at h
    · cases h
    · rename_i started hstart
      obtain ⟨hcheck, rfl⟩ := start_eq_ok hstart
      exact ⟨config, hcheck, h⟩

theorem check_openSession {surroundings : Surroundings} {source : σ} {options : Options}
    (h : (openSession surroundings source options).session = .ok s) :
    s.config.check = .ok () := by
  obtain ⟨config, hcheck, hbind⟩ := exists_of_openSession h
  rw [config_bindAll hbind]
  exact hcheck

end Bind

/-- Two attempts to set up a session, perhaps with other sources, report the same, and either both
are refused for one reason or they lead to twins. -/
structure Opening.Twin (a : Opening σ) (b : Opening τ) : Prop where
  log : a.log = b.log
  session : (∃ failure, a.session = .error failure ∧ b.session = .error failure) ∨
    ∃ s t, a.session = .ok s ∧ b.session = .ok t ∧ s.Twin t

theorem Opening.Twin.refused (failure : Failure) :
    (⟨.error failure, []⟩ : Opening σ).Twin (⟨.error failure, []⟩ : Opening τ) :=
  ⟨rfl, Or.inl ⟨failure, rfl, rfl⟩⟩

theorem Opening.Twin.of_error {a : Opening σ} {b : Opening τ} (h : a.Twin b) {failure : Failure}
    (ha : a.session = .error failure) : b.session = .error failure := by
  obtain ⟨failure', ha', hb⟩ | ⟨s, t, hs, -⟩ := h.session
  · rw [ha'] at ha
    cases ha
    exact hb
  · rw [hs] at ha
    cases ha

theorem Opening.Twin.exists_of_ok {a : Opening σ} {b : Opening τ} (h : a.Twin b) {s : Session σ}
    (ha : a.session = .ok s) : ∃ t, b.session = .ok t ∧ s.Twin t := by
  obtain ⟨failure, ha', -⟩ | ⟨s', t, hs, ht, htwin⟩ := h.session
  · rw [ha'] at ha
    cases ha
  · rw [hs] at ha
    cases ha
    exact ⟨t, ht, htwin⟩

/-- The same bindings are made, or the same one is refused: a binding is read by the separator
alone. -/
theorem bindAll_twin {s : Session σ} {t : Session τ} (h : s.Twin t) (bindings : List String) :
    (bindAll s bindings).Twin (bindAll t bindings) := by
  induction bindings generalizing s t with
  | nil => exact ⟨rfl, Or.inr ⟨s, t, rfl, rfl, h⟩⟩
  | cons binding rest ih =>
    rw [bindAll, bindAll, ← h.config]
    rcases readBinding s.config.separator binding with failure | ⟨name, value⟩
    · exact .refused failure
    · have hbound : (s.bind name value).Twin (t.bind name value) := by
        refine ⟨h.config, ?_⟩
        rw [Session.bind, Session.bind, h.bindings]
      obtain ⟨hlog, hsession⟩ := ih hbound
      exact ⟨congrArg (.bound name value :: ·) hlog, hsession⟩

/-- **Sessions for the same options are twins**, or refused for the same reason: no source is looked
at while they are set up. -/
theorem openSession_twin (surroundings : Surroundings) (source : σ) (other : τ)
    (options : Options) :
    (openSession surroundings source options).Twin (openSession surroundings other options) := by
  have hfresh : ∀ config, (fresh config source).Twin (fresh config other) := fun _ => ⟨rfl, rfl⟩
  unfold openSession Session.start
  rcases loadConfig surroundings options with failure | config
  · exact .refused failure
  · dsimp only
    rcases config.check with fault | _
    · exact .refused _
    · exact bindAll_twin (hfresh config) options.bindings

/-! ## 2. A line for a formula -/

section Lines

variable [Source σ] [Source τ]

def lineOf (s : Session σ) (formula : String) : String :=
  match (s.evaluate formula).outcome with
  | .ok x => valueLine s x
  | .error e => errorLine e

def hasValue (s : Session σ) (formula : String) : Bool :=
  (s.evaluate formula).outcome.toBool

/-- **An answer is a single line.**  No message has a line break in it, and neither has a number,
since no separator is one. -/
theorem isLine_lineOf {s : Session σ} (hcheck : s.config.check = .ok ()) (formula : String) :
    IsLine (lineOf s formula) := by
  have hsep := Config.separator_ne_newline hcheck
  unfold lineOf
  split
  · rename_i x _
    exact ⟨_, Number.oneLine_render x hsep, rfl⟩
  · rename_i e herror
    have hprefix : OneLine "error: " := by
      unfold OneLine
      decide
    exact ⟨_, hprefix.append (oneLine_message hsep herror), rfl⟩

/-- Twins answer a formula that draws nothing with the same line. -/
theorem lineOf_eq {s : Session σ} {t : Session τ} (h : s.Twin t) {formula : String}
    (hdrawn : let count := s.draws (.evaluate formula)
      (drawMany count t.source).1 = (drawMany count s.source).1) :
    lineOf s formula = lineOf t formula ∧ hasValue s formula = hasValue t formula := by
  have hsame := (h.agrees hdrawn).outcome
  simp only [lineOf, hasValue, hsame, valueLine, Session.format, h.config]
  exact ⟨trivial, trivial⟩

/-- **A batch writes the lines that its formulas are answered with from the beginning**, if they
draw nothing, counts those without a value, and reports what each of them reports. -/
theorem evaluateLines_of_twin {first : Session σ} {formulas : List String}
    (hsteady : ∀ formula ∈ formulas, first.draws (.evaluate formula) = 0) {s : Session σ}
    (h : s.Twin first) (hsource : s.source = first.source) :
    (evaluateLines s formulas).output = String.join (formulas.map (lineOf first)) ∧
    (evaluateLines s formulas).failures = formulas.countP (!hasValue first ·) ∧
    (evaluateLines s formulas).log = formulas.flatMap fun f => (first.evaluate f).log := by
  induction formulas generalizing s with
  | nil => exact ⟨rfl, rfl, rfl⟩
  | cons formula rest ih =>
    obtain ⟨hformula, hrest⟩ := List.forall_mem_cons.mp hsteady
    have hdrawn : let count := s.draws (.evaluate formula)
        (drawMany count first.source).1 = (drawMany count s.source).1 := by rw [hsource]
    have hnone : s.draws (.evaluate formula) = 0 := by
      rw [← hformula, draws, draws, h.calls_eq hdrawn]
    have hnext : (s.evaluate formula).session.Twin first := by
      refine ⟨(s.settled_evaluate formula).config_eq.trans h.config, ?_⟩
      rw [bindings_evaluate, h.bindings]
    have hstill : (s.evaluate formula).session.source = first.source := by
      have hcount : (s.calls formula).countP Call.draws = 0 := hnone
      rw [(s.account_evaluate formula).source_eq, hcount]
      exact hsource
    obtain ⟨houtput, hfailures, hlog⟩ := ih hrest hnext hstill
    obtain ⟨hline, hvalue⟩ := lineOf_eq h hdrawn
    rw [evaluateLines, List.map_cons, String.join_cons, List.countP_cons, List.flatMap_cons,
      ← hline, ← hvalue, ← houtput, ← hfailures, ← hlog, ← (h.agrees hdrawn).log]
    unfold lineOf hasValue
    cases (s.evaluate formula).outcome with
    | ok x => exact ⟨rfl, rfl, rfl⟩
    | error e => exact ⟨rfl, rfl, rfl⟩

end Lines

/-! ## 3. Both commands -/

/-- What a command shows of its formula: the line with its value, or the one about its failure. -/
def Outcome.line (o : Outcome) : String := if o.exitCode = 0 then o.output else o.errors

/-- The outcome of a command that evaluates this formula with these options, from some source. -/
def EvaluatedBy (surroundings : Surroundings) (options : Options) (formula : String)
    (o : Outcome) : Prop :=
  ∃ (τ : Type) (_ : Source τ) (source : τ) (arguments : List String) (verbose : Bool),
    Invocation.ofArguments? arguments = some ⟨verbose, .evaluate formula options false⟩ ∧
    o = perform surroundings source arguments

/-- The command ended with the value of its formula on the output, or with its failure among the
errors, on a line. -/
structure Outcome.Answers (o : Outcome) : Prop where
  line : IsLine o.line
  streams : (o.exitCode = 0 ∧ o.errors = "") ∨
    (o.exitCode = 1 ∧ o.output = "" ∧ ∃ message, o.errors = "error: " ++ message ++ "\n")

/-- The batch shows what the others show, line by line, and succeeds if all of them do.  To the
standard error it writes records alone: where the session was set up it reports what each of the
others does, for the formulas what they report in turn, and in the end how many of them failed. -/
structure Outcome.Collects (batch : Outcome) (opening : List Record) (evals : List Outcome) :
    Prop where
  output : batch.output = String.join (evals.map Outcome.line)
  errors : batch.errors = ""
  exitCode : batch.exitCode = if ∀ eval ∈ evals, eval.exitCode = 0 then 0 else 1
  count : batch.output.toList.count '\n' = evals.length
  answers : ∀ eval ∈ evals, eval.Answers
  log : ∃ own : List (List Record), evals.map Outcome.log = own.map (opening ++ ·) ∧
    batch.log = opening ++ own.flatten ++ failureReport (evals.countP (·.exitCode ≠ 0))

theorem count_join {lines : List String} (h : ∀ line ∈ lines, IsLine line) :
    (String.join lines).toList.count '\n' = lines.length := by
  induction lines with
  | nil => rfl
  | cons line rest ih =>
    obtain ⟨⟨body, hbody, rfl⟩, hrest⟩ := List.forall_mem_cons.mp h
    have hend : "\n".toList.count '\n' = 1 := by decide
    rw [String.join_cons, String.toList_append, String.toList_append, List.count_append,
      List.count_append, ih hrest, List.count_eq_zero.mpr hbody, hend, List.length_cons]
    omega

section Perform

variable [Source σ] {surroundings : Surroundings} {source : σ} {options : Options}
  {formula : String} {eval : Outcome}

/-- **The other command answers with the line of its formula.**  Nothing else is on the stream that
has the line, so the line can be read off the outcome. -/
theorem evaluateFormula_answers {s : Session σ} (hcheck : s.config.check = .ok ())
    (formula : String) :
    let answer := evaluateFormula s formula false
    answer.line = lineOf s formula ∧ (answer.exitCode = 0 ↔ hasValue s formula = true) ∧
      answer.Answers ∧ answer.log = (s.evaluate formula).log := by
  have hone := isLine_lineOf hcheck formula
  dsimp only
  rw [evaluateFormula]
  unfold lineOf at hone ⊢
  unfold hasValue
  cases houtcome : (s.evaluate formula).outcome with
  | ok x =>
    rw [houtcome] at hone
    exact ⟨rfl, ⟨fun _ => rfl, fun _ => rfl⟩, ⟨hone, Or.inl ⟨rfl, rfl⟩⟩, rfl⟩
  | error e =>
    rw [houtcome] at hone
    have herrors : "" ++ errorLine e = errorLine e := String.empty_append
    refine ⟨herrors, ⟨nofun, nofun⟩, ⟨?_, Or.inr ⟨rfl, rfl, e.message, herrors⟩⟩, rfl⟩
    show IsLine ("" ++ errorLine e)
    rw [herrors]
    exact hone

omit [Source σ] in
theorem EvaluatedBy.of_failure {failure : Failure}
    (hopen : (openSession surroundings source options).session = .error failure)
    (h : EvaluatedBy surroundings options formula eval) :
    eval = (Outcome.ofFailure failure).after (openSession surroundings source options).log := by
  obtain ⟨τ, _, other, arguments, verbose, harguments, rfl⟩ := h
  have htwin := openSession_twin surroundings source other options
  simp only [perform, harguments, Command.perform, Opening.outcome, htwin.of_error hopen, htwin.log]

/-- A formula that draws nothing is answered with the line that it has in any session for the same
options. -/
theorem EvaluatedBy.of_session {s : Session σ}
    (hopen : (openSession surroundings source options).session = .ok s)
    (hsteady : s.draws (.evaluate formula) = 0)
    (h : EvaluatedBy surroundings options formula eval) :
    eval.line = lineOf s formula ∧ (eval.exitCode = 0 ↔ hasValue s formula = true) ∧
      eval.Answers ∧
      eval.log = (openSession surroundings source options).log ++ (s.evaluate formula).log := by
  obtain ⟨τ, _, other, arguments, verbose, harguments, rfl⟩ := h
  have hopening := openSession_twin surroundings source other options
  obtain ⟨t, ht, htwin⟩ := hopening.exists_of_ok hopen
  have hdrawn : let count := s.draws (.evaluate formula)
      (drawMany count t.source).1 = (drawMany count s.source).1 := by
    rw [hsteady]
    rfl
  have hperform : perform surroundings other arguments =
      (evaluateFormula t formula false).after (openSession surroundings other options).log := by
    simp only [perform, harguments, Command.perform, Opening.outcome, ht]
  obtain ⟨hline, hvalue⟩ := lineOf_eq htwin hdrawn
  obtain ⟨hshown, hcode, hanswers, hlog⟩ := evaluateFormula_answers (check_openSession ht) formula
  rw [hperform, hline, hvalue, hopening.log, (htwin.agrees hdrawn).log, ← hlog]
  exact ⟨hshown, hcode, ⟨hanswers.line, hanswers.streams⟩, rfl⟩

/-- What the other command shows of each formula, and whether it succeeds. -/
theorem EvaluatedBy.all_of_session {s : Session σ}
    (hopen : (openSession surroundings source options).session = .ok s) {formulas : List String}
    {evals : List Outcome} (hevals : List.Forall₂ (EvaluatedBy surroundings options) formulas evals)
    (hsteady : ∀ formula ∈ formulas, s.draws (.evaluate formula) = 0) :
    evals.map Outcome.line = formulas.map (lineOf s) ∧
      evals.countP (·.exitCode ≠ 0) = formulas.countP (!hasValue s ·) ∧
      (∀ eval ∈ evals, eval.Answers) ∧
      evals.map Outcome.log = formulas.map fun formula =>
        (openSession surroundings source options).log ++ (s.evaluate formula).log := by
  induction hevals with
  | nil => simp
  | cons heval _ ih =>
    obtain ⟨hformula, hrest⟩ := List.forall_mem_cons.mp hsteady
    obtain ⟨hline, hcode, hanswers, hlog⟩ := heval.of_session hopen hformula
    obtain ⟨hlines, hcodes, hothers, hlogs⟩ := ih hrest
    refine ⟨?_, ?_, List.forall_mem_cons.mpr ⟨hanswers, hothers⟩, ?_⟩
    · rw [List.map_cons, List.map_cons, hline, hlines]
    · rw [List.countP_cons, List.countP_cons, hcodes]
      simp only [ne_eq, hcode, decide_not, Bool.decide_eq_true]
    · rw [List.map_cons, List.map_cons, hlog, hlogs]

theorem perform_of_input {arguments : List String} {verbose : Bool} {path : Option String}
    (hbatch : Invocation.ofArguments? arguments = some ⟨verbose, .batch path options⟩)
    {s : Session σ} (hopen : (openSession surroundings source options).session = .ok s)
    {text : String} (hinput : surroundings.input path = .ok text) :
    perform surroundings source arguments =
      (evaluateLines s (formulasOf text)).outcome.after
        (openSession surroundings source options).log := by
  simp only [perform, hbatch, Command.perform, Opening.outcome, hopen, hinput]

variable (surroundings source) in
/-- **A batch agrees with the evaluation of its lines one by one.**  For the same options, both
commands are refused in the same way, or, if the formulas draw nothing, the batch writes for each of
them in turn the line with which the other command answers it, whatever came before; and the batch
succeeds if and only if all of these commands do.  The arguments of a batch are also those of the
other command. -/
theorem perform_batch {arguments : List String} {verbose : Bool} {path : Option String}
    (hbatch : Invocation.ofArguments? arguments = some ⟨verbose, .batch path options⟩) :
    let batch := perform surroundings source arguments
    let opening := openSession surroundings source options
    (∀ failure, opening.session = .error failure →
      batch.exitCode = 1 ∧ batch.output = "" ∧
      ∀ formula eval, EvaluatedBy surroundings options formula eval →
        eval.exitCode = 1 ∧ eval.output = "" ∧ eval.errors = batch.errors ∧
          eval.log = batch.log) ∧
    (∀ s text, opening.session = .ok s → surroundings.input path = .ok text →
      (∀ formula ∈ formulasOf text, s.draws (.evaluate formula) = 0) →
      ∀ evals, List.Forall₂ (EvaluatedBy surroundings options) (formulasOf text) evals →
        batch.Collects opening.log evals) ∧
    ∀ own, "--" ∉ own → arguments = "batch" :: (own ++ "--" :: path.toList) → ∀ formula,
      Invocation.ofArguments? ("eval" :: (own ++ ["--", formula])) =
        some ⟨verbose, .evaluate formula options false⟩ := by
  intro batch opening
  refine ⟨?_, ?_, ?_⟩
  · intro failure hopen
    have hfails : batch = (Outcome.ofFailure failure).after opening.log := by
      simp only [batch, perform, hbatch, Command.perform, Opening.outcome, opening, hopen]
    rw [hfails]
    refine ⟨rfl, rfl, ?_⟩
    intro formula eval heval
    rw [heval.of_failure hopen]
    exact ⟨rfl, rfl, rfl, rfl⟩
  · intro s text hopen hinput hsteady evals hevals
    obtain ⟨hlines, hcount, hanswers, hlogs⟩ := EvaluatedBy.all_of_session hopen hevals hsteady
    obtain ⟨houtput, hfailures, hlog⟩ := evaluateLines_of_twin hsteady ⟨rfl, rfl⟩ rfl
    rw [← hlines] at houtput
    rw [← hcount] at hfailures
    have hperform : batch = _ := perform_of_input hbatch hopen hinput
    rw [hperform]
    refine ⟨houtput, rfl, ?_, ?_, hanswers,
      (formulasOf text).map fun formula => (s.evaluate formula).log, ?_, ?_⟩
    · show (if (evaluateLines s (formulasOf text)).failures = 0 then 0 else 1) = _
      rw [hfailures]
      exact if_congr (by simp) rfl rfl
    · have hone : ∀ line ∈ evals.map Outcome.line, IsLine line := by
        intro line hline
        obtain ⟨eval, heval, rfl⟩ := List.mem_map.mp hline
        exact (hanswers eval heval).line
      show (evaluateLines s (formulasOf text)).output.toList.count _ = _
      rw [houtput, count_join hone, List.length_map]
    · rw [hlogs, List.map_map]
      rfl
    · rw [← List.flatMap_def, ← hlog, ← hfailures, List.append_assoc]
      rfl
  · intro own hplain harguments formula
    rw [harguments] at hbatch
    exact ofArguments?_evaluate hplain hbatch formula

end Perform

/-- A batch of five formulas, three of which fail, next to five evaluations with another source; and
a binding that is refused in both, after one that is made. -/
theorem perform_batch_mixed :
    let surroundings : Surroundings :=
      ⟨fun _ => .error .missing, "# rates\n\n 10/x \r\nx/0\n1x\n\nmin(x;1)+foo(1)\nx*2"⟩
    let source : Cycle := .ofList [0.5]
    let other : KeyStream := .ofSeed 7
    let own := ["--var", "X=2,5", "-s", ","]
    let batch := perform surroundings source ("batch" :: (own ++ "--" :: []))
    let evals := (formulasOf surroundings.standardInput).map fun formula =>
      perform surroundings other ("eval" :: (own ++ ["--", formula]))
    let refused := perform surroundings source ["batch", "--var", "Y=1", "--var", "X"]
    batch.Collects [.bound "X" 2.5] evals ∧ batch.exitCode = 1 ∧
    batch.output = "4\nerror: Divide by zero\nerror: Syntax error\n" ++
      "error: Undefined function: FOO\n5\n" ∧
    batch.reported .warn = "[WARN] 3 formulas failed\n" ∧
    (perform surroundings other ["eval", "1", "--var", "Y=1", "--var", "X"]).errors =
      refused.errors ∧
    refused.exitCode = 1 ∧ refused.log = [.bound "Y" 1] := by
  intro surroundings source other own batch evals refused
  have hbatch : Invocation.ofArguments? ("batch" :: (own ++ "--" :: [])) =
      some ⟨false, .batch none ⟨["X=2,5"], some ',', none⟩⟩ := by decide +kernel
  have hrefused : Invocation.ofArguments? ["batch", "--var", "Y=1", "--var", "X"] =
      some ⟨false, .batch none ⟨["Y=1", "X"], none, none⟩⟩ := by decide +kernel
  have hfails : (openSession surroundings source ⟨["Y=1", "X"], none, none⟩).session =
      .error ⟨"Expected NAME=VALUE, got 'X'", none⟩ := rfl
  have hlog : (openSession surroundings source ⟨["X=2,5"], some ',', none⟩).log =
      [.bound "X" 2.5] := by decide +kernel
  have hsteady : (match (openSession surroundings source ⟨["X=2,5"], some ',', none⟩).session with
      | .error _ => false
      | .ok s => (formulasOf surroundings.standardInput).all
          fun formula => s.draws (.evaluate formula) = 0) = true := by decide +kernel
  split at hsteady
  · cases hsteady
  · rename_i s hopen
    obtain ⟨-, hcollects, hsame⟩ := perform_batch surroundings source hbatch
    obtain ⟨hcode, -, hothers⟩ := (perform_batch surroundings source hrefused).1 _ hfails
    have hevals : List.Forall₂ (EvaluatedBy surroundings ⟨["X=2,5"], some ',', none⟩)
        (formulasOf surroundings.standardInput) evals := by
      rw [List.forall₂_map_right_iff, List.forall₂_same]
      intro formula _
      exact ⟨_, _, other, _, false, hsame own (by decide) rfl formula, rfl⟩
    rw [hlog] at hcollects
    refine ⟨hcollects s _ hopen rfl ?_ evals hevals, by decide +kernel, by decide +kernel,
      by decide +kernel, ?_, hcode, by decide +kernel⟩
    · intro formula hformula
      exact of_decide_eq_true (List.all_eq_true.mp hsteady formula hformula)
    · obtain ⟨-, -, herrors, -⟩ := hothers "1"
        (perform surroundings other ["eval", "1", "--var", "Y=1", "--var", "X"])
        ⟨_, _, other, _, false, by decide +kernel, rfl⟩
      exact herrors

end CommandLine

end Reckoner
