import Hyperloom.Library.Whitespace
import Hyperloom.Blackboard.Records

/-!
# Attempts and reruns of one test

The runner turns what the executor gives, attempt by attempt, into the test's
one result.  A retry follows an infrastructure failure, one rerun an unclear
one.
-/

namespace Hyperloom
namespace Toolbox

open Library Blackboard

structure TestAttempt where
  node : Option String := none
  failureClass : Option FailureClass := none
  failureReason : Option String := none
deriving DecidableEq

/-- What the executor gives: `MeasurementRefused` or a result, one that
succeeded naming no failure class. -/
inductive Executed where
  | refused (error : String)
  | succeeded (node reason : Option String)
  | failed (attempt : TestAttempt)
deriving DecidableEq

namespace Executed

def attempt : Executed -> Option TestAttempt
  | refused _ => none
  | succeeded node reason => some ⟨node, none, reason⟩
  | failed attempt => some attempt

def isSucceeded : Executed -> Bool
  | succeeded _ _ => true
  | _ => false

def failedAs (failure : FailureClass) (given : Executed) : Bool :=
  given.attempt.any fun a => a.failureClass = some failure

end Executed

/-- What `on_node_failure` hears. -/
structure NodeFailure where
  node : String
  reason : String
  reproduced : Bool
deriving DecidableEq

structure AttemptsResult where
  validity : Validity
  failure : Option FailureClass
  failureReason : Option String
  attempts : List TestAttempt
  made : List Executed
  reports : List NodeFailure

/-!
## Reasons
-/

variable (reason : Option String)

def reasonName : String :=
  String.ofList (stripChars ((reason.getD "").toList.takeWhile (· ≠ ':')))

def reasonOr (text : String) : String :=
  if reason.getD "" = "" then text else reason.getD ""

def unretriedInfraReasons : List String := ["inert_patch", "sandbox_acquire_timeout"]

def onceRetriedInfraReasons : List String := ["jit_build_timeout", "sandbox_create_failed"]

def nodeBlamelessInfraReasons : List String :=
  ["runner_start_failed", "runner_lost", "sandbox_create_failed", "hub_rate_limited",
    "sandbox_acquire_timeout"]

def retryRefused (attempts : List TestAttempt) : Bool :=
  reasonName reason ∈ unretriedInfraReasons || (reasonName reason ∈ onceRetriedInfraReasons &&
      1 < attempts.countP fun a => reasonName a.failureReason = reasonName reason)

def outran (kind : TestKind) (reason : Option String) : Bool :=
  kind = .sweep && reasonName reason = "timeout"

def TestAttempt.report (attempt : TestAttempt) (reason : Option String) (reproduced : Bool) :
    List NodeFailure :=
  if attempt.node.getD "" = "" then []
  else [⟨attempt.node.getD "", reasonOr reason "infrastructure failure", reproduced⟩]

/-!
## The loop
-/

structure AttemptLoop where
  made : List Executed := []
  infraRetries : Nat := 0
  reran : Bool := false
  reports : List NodeFailure := []

namespace AttemptLoop

variable (s : AttemptLoop)

def attempts : List TestAttempt := s.made.filterMap Executed.attempt

/-- `_final`. -/
def final (validity : Validity) (failure : Option FailureClass)
    (reason : Option String) : AttemptsResult :=
  ⟨validity, failure, reason, s.attempts, s.made, s.reports⟩

variable (first : TestAttempt)

def relabelled : TestAttempt :=
  { first with
    failureClass := some .infra
    failureReason := some ("unclear failure did not reproduce on a rerun: " ++
      reasonOr first.failureReason "no reason given") }

def notReproduced : List NodeFailure :=
  (relabelled first).report (relabelled first).failureReason false

/-- `_succeeded`. -/
def succeeded : AttemptsResult :=
  match s.attempts with
  | [] => s.final .succeeded none none
  | first :: rest =>
    if rest ≠ [] ∧ first.failureClass = some .unclear then
      { s.final .succeeded none none with
        attempts := relabelled first :: rest
        reports := s.reports ++ notReproduced first }
    else s.final .succeeded none none

variable (maxInfraRetries : Nat)

/-- One round of the loop: how the test ends, or what the next attempt starts
from. -/
def step (kind : TestKind) (s : AttemptLoop) (given : Executed) : AttemptsResult ⊕ AttemptLoop :=
  let s := { s with made := s.made ++ [given] }
  match given with
  | .refused error =>
    .inl (s.final .measurementFailed (some .infra) (some ("measurement refused: " ++ error)))
  | .succeeded _ _ => .inl s.succeeded
  | .failed attempt =>
    let reason := attempt.failureReason
    if attempt.failureClass = some .candidate then
      .inl (s.final .candidateFailed (some .candidate) reason)
    else if attempt.failureClass = some .unclear then
      if s.reran then .inl (s.final .candidateFailed (some .unclear) reason)
      else if outran kind reason then .inl (s.final .measurementFailed (some .unclear) reason)
      else .inr { s with reran := true }
    else if retryRefused reason s.attempts then
      .inl (s.final .measurementFailed (some .infra) reason)
    else
      let heard :=
        if reasonName reason ∈ onceRetriedInfraReasons ++ nodeBlamelessInfraReasons then []
        else attempt.report reason true
      let s := { s with reports := s.reports ++ heard }
      if maxInfraRetries ≤ s.infraRetries then
        .inl (s.final .measurementFailed (some .infra) (some (toString (s.infraRetries + 1) ++
          " attempts failed for infrastructure reasons: " ++ reason.getD "None")))
      else .inr { s with infraRetries := s.infraRetries + 1 }

/-- `AttemptRunner.run`, of an executor that answers what was tried so far. -/
def run (maxInfraRetries : Nat) (kind : TestKind) (executor : List Executed -> Executed) :
    Nat -> AttemptLoop -> Option AttemptsResult
  | 0, _ => none
  | fuel + 1, s =>
    match s.step maxInfraRetries kind (executor s.made) with
    | .inl ended => some ended
    | .inr s => run maxInfraRetries kind executor fuel s

/-!
## Every run is classified
-/

/-- A loop that goes on has met no candidate failure, and counts the others. -/
structure Going (maxInfraRetries : Nat) (s : AttemptLoop) : Prop where
  candidate : s.made.any (·.failedAs .candidate) = false
  unclear : s.made.countP (·.failedAs .unclear) = s.reran.toNat
  length : s.made.length = s.infraRetries + s.reran.toNat
  retries : s.infraRetries ≤ maxInfraRetries
  reports : s.reports.filter (!·.reproduced) = []

structure Classified (maxInfraRetries : Nat) (ended : AttemptsResult) : Prop where
  length : ended.made.length ≤ maxInfraRetries + 2
  succeeded : ended.validity = .succeeded <-> ended.made.getLast?.any Executed.isSucceeded
  candidateFailed : ended.validity = .candidateFailed <->
    ended.made.any (·.failedAs .candidate) ∨ 2 ≤ ended.made.countP (·.failedAs .unclear)

variable (attempt : TestAttempt)

def relabelUnclear : TestAttempt :=
  if attempt.failureClass = some .unclear then relabelled attempt else attempt

/-- The attempts of a succeeded result are those made, each unclear one
relabelled as infrastructure and reported once. -/
def Relabels (ended : AttemptsResult) : Prop :=
  ended.validity = .succeeded ->
    ended.attempts = (ended.made.filterMap Executed.attempt).map relabelUnclear ∧
    ended.reports.filter (!·.reproduced) = ((ended.made.filterMap Executed.attempt).filter
        (·.failureClass = some .unclear)).flatMap notReproduced

variable (made : List Executed)

/-- No attempt after the first failed unclearly. -/
def UnclearFirst : Prop :=
  forall a, a ∈ (made.filterMap Executed.attempt).tail -> a.failureClass ≠ some .unclear

def Ends (ended : AttemptsResult) : Prop :=
  Classified maxInfraRetries ended ∧
    (Relabels ended <-> (ended.validity = .succeeded -> UnclearFirst ended.made))

theorem relabelUnclear_eq_self {attempt : TestAttempt} :
    relabelUnclear attempt = attempt <-> attempt.failureClass ≠ some .unclear := by
  unfold relabelUnclear
  split
  · rename_i hunclear
    refine iff_of_false ?_ (not_not.2 hunclear)
    intro hsame
    rw [← hsame] at hunclear
    cases hunclear
  · rename_i hclear
    exact iff_of_true rfl hclear

theorem notReproduced_filter :
    (notReproduced first).filter (!·.reproduced) = notReproduced first := by
  unfold notReproduced TestAttempt.report
  split <;> rfl

theorem report_filter (reason : Option String) :
    (attempt.report reason true).filter (!·.reproduced) = [] := by
  unfold TestAttempt.report
  split <;> rfl

variable {maxInfraRetries : Nat} {s : AttemptLoop}

theorem succeeded_made (s : AttemptLoop) :
    s.succeeded.made = s.made ∧ s.succeeded.validity = .succeeded := by
  unfold succeeded
  split
  · exact ⟨rfl, rfl⟩
  · split <;> exact ⟨rfl, rfl⟩

/-- `_succeeded` relabels and reports an unclear first attempt, and no other. -/
theorem succeeded_first {head last : TestAttempt} {rest : List TestAttempt}
    (hattempts : s.attempts = head :: rest) (hlast : s.attempts.getLast? = some last)
    (hclass : last.failureClass = none) :
    s.succeeded.attempts = relabelUnclear head :: rest ∧ s.succeeded.reports =
        s.reports ++ if head.failureClass = some .unclear then notReproduced head else [] := by
  unfold succeeded relabelUnclear
  rw [hattempts] at hlast ⊢
  dsimp only
  split
  · rename_i hrelabel
    rw [if_pos hrelabel.2, if_pos hrelabel.2]
    exact ⟨rfl, rfl⟩
  · rename_i hkept
    have hhead : head.failureClass ≠ some .unclear := by
      intro hhead
      cases rest with
      | nil => simp_all
      | cons next rest => exact hkept ⟨nofun, hhead⟩
    rw [if_neg hhead, if_neg hhead, List.append_nil]
    exact ⟨hattempts, rfl⟩

theorem succeeded_relabels_iff {last : TestAttempt}
    (quiet : s.reports.filter (!·.reproduced) = []) (hlast : s.attempts.getLast? = some last)
    (hclass : last.failureClass = none) : Relabels s.succeeded <-> UnclearFirst s.made := by
  rcases succeeded_made s with ⟨hmade, hvalidity⟩
  rw [Relabels, hmade, imp_iff_right hvalidity, UnclearFirst]
  change _ = s.attempts.map _ ∧ _ = (s.attempts.filter _).flatMap _ <->
    forall a, a ∈ s.attempts.tail -> _
  cases hattempts : s.attempts with
  | nil => simp [hattempts] at hlast
  | cons head rest =>
    rcases succeeded_first hattempts hlast hclass with ⟨hrelabelled, hreports⟩
    rw [hrelabelled, hreports, List.map_cons, List.tail_cons]
    constructor
    · intro h a ha
      have hrest := List.map_inj_left.1 ((List.cons.inj h.1).2.symm.trans rest.map_id.symm) a ha
      exact relabelUnclear_eq_self.1 hrest
    · intro hfirst
      have hmap : rest.map relabelUnclear = rest :=
        (List.map_congr_left fun a ha => relabelUnclear_eq_self.2 (hfirst a ha)).trans rest.map_id
      have hnone := List.filter_eq_nil_iff.2 fun a ha h => hfirst a ha (of_decide_eq_true h)
      rw [hmap, List.filter_append, quiet]
      refine ⟨rfl, ?_⟩
      split
      · rename_i hhead
        rw [List.filter_cons_of_pos (by simp [hhead]), hnone]
        simp [notReproduced_filter]
      · rename_i hhead
        rw [List.filter_cons_of_neg (by simp [hhead]), hnone]
        rfl

theorem Going.classified {ended : AttemptsResult} {given : Executed}
    (h : Going maxInfraRetries s) (made : ended.made = s.made ++ [given])
    (succeeded : ended.validity = .succeeded <-> given.isSucceeded)
    (candidateFailed : ended.validity = .candidateFailed <->
      given.failedAs .candidate ∨ given.failedAs .unclear ∧ s.reran) :
    Classified maxInfraRetries ended := by
  rcases h with ⟨candidate, unclear, length, retries, _⟩
  constructor
  · have hreran := s.reran.toNat_le
    rw [made, List.length_append, List.length_singleton]
    omega
  · simp [made, succeeded]
  · rw [made, candidateFailed, List.any_append, List.countP_append, candidate, unclear,
      List.countP_singleton]
    cases s.reran <;> cases Executed.failedAs .unclear given <;> simp

theorem Going.final (h : Going maxInfraRetries s) (given : Executed)
    (hgiven : given.isSucceeded = false) (validity : Validity) (hvalidity : validity ≠ .succeeded)
    (candidateFailed : validity = .candidateFailed <->
      given.failedAs .candidate ∨ given.failedAs .unclear ∧ s.reran)
    {t : AttemptLoop} (hmade : t.made = s.made ++ [given])
    (failure : Option FailureClass) (reason : Option String) :
    Ends maxInfraRetries (t.final validity failure reason) := by
  constructor
  · exact h.classified hmade (by simp [AttemptLoop.final, hvalidity, hgiven]) candidateFailed
  · exact iff_of_true (fun h => absurd h hvalidity) fun h => absurd h hvalidity

theorem Going.step (h : Going maxInfraRetries s) (kind : TestKind) (given : Executed) :
    (s.step maxInfraRetries kind given).elim (Ends maxInfraRetries)
      fun t => Going maxInfraRetries t ∧ t.made = s.made ++ [given] := by
  unfold AttemptLoop.step
  cases given with
  | refused error =>
    exact h.final (.refused error) rfl .measurementFailed nofun
      (by simp [Executed.failedAs, Executed.attempt]) rfl _ _
  | succeeded node reason =>
    have hmade := succeeded_made { s with made := s.made ++ [.succeeded node reason] }
    constructor
    · exact h.classified hmade.1 (by simp [hmade, Executed.isSucceeded])
        (by simp [hmade, Executed.failedAs, Executed.attempt])
    · let t : AttemptLoop := { s with made := s.made ++ [.succeeded node reason] }
      have hlast : t.attempts.getLast? = some ⟨node, none, reason⟩ := by
        rw [attempts, List.filterMap_append]
        exact List.getLast?_concat
      refine (succeeded_relabels_iff (s := t) h.reports hlast rfl).trans ?_
      rw [hmade.1, imp_iff_right hmade.2]
  | failed attempt =>
    have hfailed (failure : FailureClass) : (Executed.failed attempt).failedAs failure =
        decide (attempt.failureClass = some failure) := rfl
    have hend := h.final (.failed attempt) rfl
    dsimp only
    split
    · rename_i hclass
      exact hend .candidateFailed nofun (by simp [hfailed, hclass]) rfl _ _
    split
    · rename_i hcandidate hclass
      split
      · rename_i hreran
        exact hend .candidateFailed nofun (by simp [hfailed, hclass, hreran]) rfl _ _
      rename_i hreran
      split
      · exact hend .measurementFailed nofun (by simp [hfailed, hclass, hreran]) rfl _ _
      · rcases h with ⟨candidate, unclear, length, retries, quiet⟩
        rw [Bool.eq_false_of_not_eq_true hreran] at unclear length
        refine ⟨⟨?_, ?_, ?_, retries, quiet⟩, rfl⟩
        · simp [candidate, hfailed, hcandidate]
        · simp [unclear, hfailed, hclass, List.countP_append]
        · simp [length]
    rename_i hcandidate hclass
    split
    · exact hend .measurementFailed nofun (by simp [hfailed, hclass, hcandidate]) rfl _ _
    split
    · exact hend .measurementFailed nofun (by simp [hfailed, hclass, hcandidate]) rfl _ _
    · rename_i hretries
      rcases h with ⟨candidate, unclear, length, retries, quiet⟩
      refine ⟨⟨?_, ?_, ?_, Nat.not_le.1 hretries, ?_⟩, rfl⟩
      · simp [candidate, hfailed, hcandidate]
      · simp [unclear, hfailed, hclass, List.countP_append]
      · simp [length]
        omega
      · rw [List.filter_append, quiet]
        split
        · rfl
        · exact report_filter attempt attempt.failureReason

theorem Going.run (h : Going maxInfraRetries s) (kind : TestKind)
    (executor : List Executed -> Executed) {fuel : Nat}
    (hfuel : maxInfraRetries + 2 ≤ fuel + s.made.length) :
    exists ended, run maxInfraRetries kind executor fuel s = some ended ∧
      Ends maxInfraRetries ended := by
  induction fuel generalizing s with
  | zero =>
    have hlength := h.length
    have hretries := h.retries
    have hreran := s.reran.toNat_le
    omega
  | succ fuel ih =>
    have hstep := h.step kind (executor s.made)
    unfold AttemptLoop.run
    cases hnext : s.step maxInfraRetries kind (executor s.made) with
    | inl ended =>
      rw [hnext] at hstep
      exact ⟨ended, rfl, hstep⟩
    | inr t =>
      rw [hnext] at hstep
      apply ih hstep.1
      rw [hstep.2, List.length_append, List.length_singleton]
      omega

end AttemptLoop

end Toolbox
end Hyperloom
