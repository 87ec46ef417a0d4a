/-
# Sessions and their histories

A session answers requests one after the other, beginning from a start under a configuration
(`Session.Reached`).  Of all that happened before, an evaluation depends on what the variables stand
for and on the random source alone: the configuration is the same in all sessions reached from it,
and what earlier formulas left is forgotten first.  Forgetting is clearing both sequences and the
end of the last formula (`Session.reset_eq_clear`).

`Session.evaluate_reached` says that two histories which end with the same variables and the same
source cannot be told apart by the next formula, and that a formula that calls no `RND` can be
repeated.
-/
import Reckoner.Proofs.Draws

namespace Reckoner

/-! ## 1. Requests -/

/-- What a caller can ask of a session.  Readers are among the requests too, so that it can be said
of them that they change nothing. -/
inductive Request where
  | evaluate (formula : String)
  | bind (name : String) (value : Float)
  | unbind (name : String)
  | unbindAll
  /-- To write a number. -/
  | format (x : Float)
  /-- To tell a variable, or anything about the last formula. -/
  | inspect

/-- Whether the request evaluates a formula. -/
def Request.evaluates : Request → Bool
  | .evaluate _ => true
  | _ => false

namespace Session

variable {σ : Type}

section Reached

variable [Chance.Source σ]

def respond (s : Session σ) : Request → Session σ
  | .evaluate formula => (s.evaluate formula).session
  | .bind name value => s.bind name value
  | .unbind name => (s.unbind name).2
  | .unbindAll => s.unbindAll
  | .format _ => s
  | .inspect => s

def respondAll (s : Session σ) (requests : List Request) : Session σ := requests.foldl respond s

/-- The session comes from a start under the configuration, by any requests.  The random source that
it started from is left open. -/
inductive Reached (config : Config) : Session σ → Prop
  | start {source : σ} {s : Session σ} (h : Session.start config source = .ok s) : Reached config s
  | respond {s : Session σ} (h : Reached config s) (request : Request) :
      Reached config (s.respond request)

theorem Reached.respondAll {config : Config} {s : Session σ} (h : s.Reached config)
    (requests : List Request) : (s.respondAll requests).Reached config := by
  induction requests generalizing s with
  | nil => exact h
  | cons request rest ih => exact ih (h.respond request)

end Reached

/-! ## 2. What all sessions under a configuration have in common -/

theorem start_eq_ok {config : Config} {source : σ} {s : Session σ}
    (h : Session.start config source = .ok s) :
    config.check = .ok () ∧ s = fresh config source := by
  unfold Session.start at h
  split at h
  · cases h
  · rename_i hcheck
    exact ⟨hcheck, (Except.ok.inj h).symm⟩

/-- The configuration is kept, and the sequences have its capacity.  A session keeps the capacity in
three places, and this says that they never come apart. -/
structure Settled (config : Config) (s : Session σ) : Prop where
  config_eq : s.config = config
  written : s.written.capacity = config.maxAtoms
  arranged : s.arranged.capacity = config.maxAtoms

variable [Chance.Source σ]

/-- What an evaluation leaves has the configuration and the capacity of the session. -/
theorem settled_evaluate (s : Session σ) (formula : String) :
    (s.evaluate formula).session.Settled s.config := by
  have hwritten := s.capacity_cut formula
  obtain ⟨e, log, h⟩ | ⟨log, h⟩ := s.evaluate_cases formula
  · rw [h]
    exact ⟨rfl, hwritten, rfl⟩
  · rw [h, session_run]
    constructor
    · rw [config_store]
      rfl
    · rw [written_store]
      exact hwritten
    · rw [arranged_store]
      exact AtomSeq.capacity_pushAll _ _

theorem Settled.respond {config : Config} {s : Session σ} (h : s.Settled config)
    (request : Request) : (s.respond request).Settled config := by
  cases request with
  | evaluate formula => exact h.config_eq ▸ s.settled_evaluate formula
  | bind name value => exact ⟨h.config_eq, h.written, h.arranged⟩
  | unbind name => exact ⟨h.config_eq, h.written, h.arranged⟩
  | unbindAll => exact ⟨h.config_eq, h.written, h.arranged⟩
  | format x => exact h
  | inspect => exact h

/-- **All sessions under a configuration have it, and its capacity.**  By induction on how the
session was reached, one request at a time. -/
theorem Reached.settled {config : Config} {s : Session σ} (h : s.Reached config) :
    config.check = .ok () ∧ s.Settled config := by
  induction h with
  | start h =>
    obtain ⟨hcheck, rfl⟩ := start_eq_ok h
    exact ⟨hcheck, rfl, rfl, rfl⟩
  | respond h request ih => exact ⟨ih.1, ih.2.respond request⟩

/-- **To forget the last formula is to clear what it left.**  `reset` makes the session afresh where
a field could be cleared at a time; in sessions that can be reached this comes to the same. -/
theorem reset_eq_clear {config : Config} {s : Session σ} (h : s.Reached config) :
    s.reset =
      { s with
        written := s.written.clear, arranged := s.arranged.clear
        lastError := none, errorMessage := "", lastAtom := none } := by
  obtain ⟨-, hsettled⟩ := h.settled
  simp only [reset, fresh, AtomSeq.clear, hsettled.written, hsettled.arranged, hsettled.config_eq]

end Session

/-! ## 3. Names that stand for the same -/

/-- Both lexicons read every name in the same way.  They need not have the same tables: a variable
that is bound to zero reads like one that is not bound. -/
structure Lexicon.Alike (l m : Lexicon) : Prop where
  separator : l.separator = m.separator
  operand : ∀ name, l.operand name = m.operand name

namespace Lexicon.Alike

variable {l m : Lexicon}

theorem atom?_eq (h : l.Alike m) (lexeme : Lexeme) (following : Option Char) :
    l.atom? lexeme following = m.atom? lexeme following := by
  cases lexeme with
  | number text => simp only [atom?, h.separator]
  | word text => simp only [atom?, h.operand]
  | mark c => rfl

/-- **Only what names stand for matters to the scanner.**  It never looks at the tables but through
`operand`. -/
theorem scan_eq (h : l.Alike m) (text : List Char) (out : AtomSeq) :
    l.scan text out = m.scan text out := by
  induction text, out using l.scan_induct with
  | done out => rw [scan_nil, scan_nil]
  | stop c rest out cut hcut hatom =>
    rw [h.separator] at hcut
    rw [scan_of_none (h.separator ▸ hcut) hatom, scan_of_none hcut (h.atom?_eq .. ▸ hatom)]
  | next c rest out cut a hcut hatom ih =>
    have hcut' := h.separator ▸ hcut
    rw [scan_of_some hcut hatom, ih, scan_of_some hcut' (h.atom?_eq .. ▸ hatom)]

theorem tokenize_eq (h : l.Alike m) (formula : String) (out : AtomSeq) :
    l.tokenize formula out = m.tokenize formula out := by
  simp only [tokenize_eq_scan, h.separator, h.scan_eq]

end Lexicon.Alike

namespace Session

variable {σ : Type}

/-- Where the variables have the same values, names stand for the same. -/
theorem lexicon_alike {s t : Session σ} (hconfig : s.config = t.config)
    (hbindings : ∀ name, (s.bindings.get? name).getD 0 = (t.bindings.get? name).getD 0) :
    s.lexicon.Alike t.lexicon where
  separator := by rw [lexicon, lexicon, hconfig]
  operand := by
    intro name
    simp only [lexicon, Lexicon.operand, hconfig, hbindings]

variable [Chance.Source σ]

/-! ## 4. Independence of the past -/

/-- Sessions that cut a formula in the same way, under the same configuration and from the same
source, agree on it. -/
theorem agrees_of_source {s t : Session σ} {formula : String} (hconfig : s.config = t.config)
    (hsource : s.source = t.source) (hcut : s.cut formula = t.cut formula) :
    (s.evaluate formula).Agrees (t.evaluate formula) ∧
    (s.evaluate formula).session.source = (t.evaluate formula).session.source := by
  have hagrees := agrees_of_cut hconfig hcut (by rw [hsource]; exact ⟨rfl, rfl⟩)
  exact ⟨hagrees, source_eq_of_agrees hagrees hsource⟩

/-- **Nothing of the past reaches a formula but the values of variables and the source.**  Sessions
under one configuration that agree on these two agree on every formula, and their sources are the
same afterwards; and a formula that calls no `RND` gives the same again. -/
theorem evaluate_reached {config : Config} {s t : Session σ} (hs : s.Reached config)
    (ht : t.Reached config)
    (hbindings : ∀ name, (s.bindings.get? name).getD 0 = (t.bindings.get? name).getD 0)
    (hsource : s.source = t.source) (formula : String) :
    (s.evaluate formula).Agrees (t.evaluate formula) ∧
    (s.evaluate formula).session.source = (t.evaluate formula).session.source ∧
    ((∀ a ∈ (s.evaluate formula).session.written.toList, a.callsRandom = false) →
      ((s.evaluate formula).session.evaluate formula).Agrees (s.evaluate formula) ∧
      ((s.evaluate formula).session.evaluate formula).session.source = s.source) := by
  have hagrees : ∀ {u v : Session σ}, u.Reached config → v.Reached config →
      (∀ name, (u.bindings.get? name).getD 0 = (v.bindings.get? name).getD 0) →
      u.source = v.source →
      (u.evaluate formula).Agrees (v.evaluate formula) ∧
      (u.evaluate formula).session.source = (v.evaluate formula).session.source := by
    intro u v hu hv hvalues hsame
    have hconfig : u.config = v.config :=
      hu.settled.2.config_eq.trans hv.settled.2.config_eq.symm
    apply agrees_of_source hconfig hsame
    rw [cut, cut, (lexicon_alike hconfig hvalues).tokenize_eq, hconfig]
  obtain ⟨hfirst, hlast⟩ := hagrees hs ht hbindings hsource
  refine ⟨hfirst, hlast, ?_⟩
  intro hsteady
  have hsame := source_evaluate hsteady
  obtain ⟨hagain, hstill⟩ := hagrees (hs.respond (.evaluate formula)) hs
    (fun name => by rw [respond, bindings_evaluate]) hsame
  exact ⟨hagain, hstill.trans hsame⟩

/-- One session failed, the other overflowed and has bound what the first never heard of. -/
theorem evaluate_reached_call :
    let config : Config := { Config.standard with maxAtoms := some 8 }
    let first : Session Chance.Cycle := .fresh config (.ofList [0.5])
    let s := ((first.respond (.evaluate "5/0")).respond (.bind "x" 3)).respond .inspect
    let t := (((first.respond (.bind "X" 1)).respond (.evaluate "1+2+3+4+5+6")).respond
      (.bind "x" 3)).respond (.bind "y" 0)
    s.Reached config ∧ t.Reached config ∧
    (∀ name, (s.bindings.get? name).getD 0 = (t.bindings.get? name).getD 0) ∧
    s.source = t.source ∧ s.errorMessage ≠ t.errorMessage ∧
    (s.evaluate "max(x;y)").Agrees (t.evaluate "max(x;y)") ∧
    ((s.evaluate "max(x;y)").session.evaluate "max(x;y)").Agrees (s.evaluate "max(x;y)") := by
  intro config first s t
  have hstart : Session.start config (Chance.Cycle.ofList [0.5]) = .ok first := rfl
  have hfirst : first.Reached config := .start hstart
  have hs : s.Reached config := ((hfirst.respond _).respond _).respond _
  have ht : t.Reached config := (((hfirst.respond _).respond _).respond _).respond _
  have hbindings : ∀ name, (s.bindings.get? name).getD 0 = (t.bindings.get? name).getD 0 := by
    intro name
    have hx : s.bindings = NameTable.empty.insert "x" 3 := by decide +kernel
    have hy : t.bindings = (NameTable.empty.insert "x" 3).insert "y" 0 := by decide +kernel
    rw [hx, hy, NameTable.get?_insert _ "y"]
    split
    · rename_i hname
      have hother : Text.uppercase name ≠ Text.uppercase "x" := by
        rw [hname]
        decide
      rw [NameTable.get?_insert, if_neg hother]
      rfl
    · rfl
  have hsource : s.source = t.source := by decide +kernel
  obtain ⟨hagrees, -, hagain⟩ := evaluate_reached hs ht hbindings hsource "max(x;y)"
  exact ⟨hs, ht, hbindings, hsource, by decide +kernel, hagrees, (hagain (by decide +kernel)).1⟩

end Session

end Reckoner
