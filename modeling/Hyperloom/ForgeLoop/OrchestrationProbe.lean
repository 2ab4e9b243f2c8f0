import Hyperloom.ForgeLoop.RunState
import Hyperloom.Library.Machine

/-!
# The orchestration circuit

Repeated orchestration errors open the circuit and stop the session.  A resume
of a session that stopped so half-opens it for one probe.  Every finished
iteration moves it as well, whatever the iteration did.
-/

namespace Hyperloom
namespace ForgeLoop

open Library

inductive StopReason where
  | orchestrationFailed
  | other
deriving DecidableEq

/-- A session is `checking` at `_stop_condition_met` and `stopping` until its
terminal state is saved. -/
inductive LoopPoint where
  | down
  | resumed
  | checking
  | iterating (planned : Option Bool)
  | stopping (reason : StopReason)
deriving DecidableEq

/-- The circuit of the run state and its recorded termination reason; what the
session was resumed from and what it tried is kept beside them. -/
structure ProbeRun where
  circuit : Circuit := .closed
  streak : Nat := 0
  reason : Option StopReason := none
  point : LoopPoint := .checking
  resumedOpen : Bool := false
  attempts : Nat := 0
  probeFailed : Bool := false
deriving DecidableEq

inductive ProbeOp where
  /-- Whether the target is met, and whether a budget, a stop file or the
  device ends the run. -/
  | check (met spent : Bool)
  | attempt (ok : Bool)
  | complete
  | record (decision : Decision)
  | refuse
  | finish
  | kill
  | resume
  | start
deriving DecidableEq

variable (policy : StallPolicy) (s : ProbeRun)

def probeStep (op : ProbeOp) : Option ProbeRun :=
  match op, s.point with
  | .check met spent, .checking =>
    if met then some { s with point := .stopping .other }
    else if s.circuit = .opened then some { s with point := .stopping .orchestrationFailed }
    else if spent then some { s with point := .stopping .other }
    else some { s with point := .iterating none }
  | .attempt ok, .iterating none =>
    some { s with
      point := .iterating (some ok)
      attempts := s.attempts + 1
      probeFailed := s.probeFailed || (s.circuit = .halfOpen && !ok) }
  | .complete, .iterating (some true) =>
    if s.circuit = .opened then none else some { s with circuit := .closed, streak := 0 }
  | .record decision, .iterating planned =>
    -- The label of a planning that failed.
    if decision = .orchestrationError ∧ planned ≠ some false then none
    else
      let streak := streakAfter s.streak decision
      some { s with
        circuit := s.circuit.after streak decision policy
        streak := streak
        point := .checking }
  | .refuse, .iterating _ => some { s with point := .stopping .other }
  | .finish, .stopping reason => some { s with reason := some reason, point := .down }
  | .kill, point => if point = .down then none else some { s with point := .down }
  | .resume, .down =>
    let next := { s with
      point := .resumed, resumedOpen := s.circuit = .opened
      attempts := 0, probeFailed := false }
    if s.reason = some .orchestrationFailed then
      if s.circuit = .opened then some { next with circuit := .halfOpen } else none
    else some next
  | .start, .resumed => some { s with reason := none, point := .checking }
  | _, _ => none

def probeMachine : Machine ProbeRun ProbeOp where
  init s := s = {}
  step := probeStep policy

/-- A session whose circuit is open was not killed before it recorded so, and
an iteration that ends while the circuit is half-open has planned, or is the
error of its planning. -/
def Heeded : ProbeOp -> Prop
  | .resume => s.circuit = .opened -> s.reason = some .orchestrationFailed
  | .record decision => s.circuit = .halfOpen ->
    s.point = .iterating (some true) ∨ decision = .orchestrationError
  | _ => True

instance (op : ProbeOp) : Decidable (Heeded s op) := by
  cases op <;> unfold Heeded <;> infer_instance

/-!
## Every run
-/

structure Probing (s : ProbeRun) : Prop where
  tried : s.resumedOpen = true -> s.circuit = .opened -> 0 < s.attempts
  planned : forall ok, s.point = .iterating (some ok) -> 0 < s.attempts
  failed : s.probeFailed = true -> s.point = .iterating (some false) ∧ s.circuit = .halfOpen ∨
      s.point = .checking ∧ s.circuit = .opened ∨
      (exists reason, s.point = .stopping reason) ∨ s.point = .down

variable {policy : StallPolicy} {s t : ProbeRun} {op : ProbeOp}

theorem Circuit.after_eq_opened {circuit : Circuit} {streak : Nat} {decision : Decision}
    (hopen : circuit.after streak decision policy = .opened) : decision = .orchestrationError := by
  unfold Circuit.after at hopen
  split at hopen
  · assumption
  · cases hopen

theorem Probing.record (h : Probing s) {decision : Decision} {planned : Option Bool}
    (hpoint : s.point = .iterating planned) (hheeded : Heeded s (.record decision))
    (hlabel : decision = .orchestrationError -> planned = some false)
    (hcircuit : t.circuit = s.circuit.after (streakAfter s.streak decision) decision policy)
    (ht : t.point = .checking ∧ t.attempts = s.attempts ∧ t.probeFailed = s.probeFailed) :
    Probing t := by
  refine ⟨?_, ?_, ?_⟩
  · intro _ hopen
    have herror := Circuit.after_eq_opened (hcircuit ▸ hopen)
    rw [ht.2.1]
    exact h.planned false (hlabel herror ▸ hpoint)
  · intro ok hiterating
    cases ht.1.symm.trans hiterating
  · intro hfailed
    rw [ht.2.2] at hfailed
    -- The failed probe is recorded as the error it was.
    rcases h.failed hfailed with ⟨hprobe, hhalf⟩ | ⟨hother, _⟩ | ⟨reason, hother⟩ | hother
    · have herror : decision = .orchestrationError := by
        rcases hheeded hhalf with hplanned | herror
        · cases hprobe.symm.trans hplanned
        · exact herror
      refine Or.inr (Or.inl ⟨ht.1, ?_⟩)
      rw [hcircuit, hhalf, herror]
      rfl
    · cases hpoint.symm.trans hother
    · cases hpoint.symm.trans hother
    · cases hpoint.symm.trans hother

theorem Probing.leave (h : Probing s) {point : LoopPoint} (reason : Option StopReason)
    (hpoint : (exists reason, point = .stopping reason) ∨ point = .down) :
    Probing { s with point := point, reason := reason } := by
  refine ⟨h.tried, ?_, fun _ => Or.inr (Or.inr hpoint)⟩
  intro ok hiterating
  rcases hpoint with ⟨reason, hpoint⟩ | hpoint
  · cases hpoint.symm.trans hiterating
  · cases hpoint.symm.trans hiterating

theorem Probing.unfailed (h : Probing s)
    (hpoint : s.point = .checking ∧ s.circuit ≠ .opened ∨ s.point = .iterating none ∨
      s.point = .iterating (some true) ∨ s.point = .resumed) : s.probeFailed = false := by
  cases hfailed : s.probeFailed with
  | false => rfl
  | true =>
    rcases h.failed hfailed with ⟨hat, _⟩ | ⟨hat, hopen⟩ | ⟨reason, hat⟩ | hat
    · simp [hat] at hpoint
    · simp [hat, hopen] at hpoint
    · simp [hat] at hpoint
    · simp [hat] at hpoint

theorem Probing.step (h : Probing s) (hheeded : Heeded s op)
    (hstep : probeStep policy s op = some t) : Probing t := by
  revert hstep
  fun_cases probeStep policy s op with (intro hstep; try cases hstep)
  | case1 | case2 | case3 | case10 => exact h.leave _ (Or.inl ⟨_, rfl⟩)
  | case4 _ _ hpoint _ hcircuit =>
    refine ⟨h.tried, nofun, fun hfailed => ?_⟩
    cases (h.unfailed (Or.inl ⟨hpoint, hcircuit⟩)).symm.trans hfailed
  | case5 ok hpoint =>
    refine ⟨fun _ _ => Nat.succ_pos _, fun _ _ => Nat.succ_pos _, fun hfailed => Or.inl ?_⟩
    simp only [h.unfailed (Or.inr (Or.inl hpoint)), Bool.false_or, Bool.and_eq_true,
      decide_eq_true_eq, Bool.not_eq_true'] at hfailed
    exact ⟨by rw [hfailed.2], hfailed.1⟩
  | case7 hpoint =>
    refine ⟨nofun, h.planned, fun hfailed => ?_⟩
    cases (h.unfailed (Or.inr (Or.inr (Or.inl hpoint)))).symm.trans hfailed
  | case9 decision planned hpoint hlabel =>
    refine h.record hpoint hheeded ?_ rfl ⟨rfl, rfl, rfl⟩
    intro herror
    by_contra hne
    exact hlabel ⟨herror, hne⟩
  | case11 | case13 => exact h.leave _ (Or.inr rfl)
  | case14 => exact ⟨nofun, nofun, nofun⟩
  | case16 _ next hreason =>
    rw [← Option.some.inj hstep]
    refine ⟨fun hopen => ?_, nofun, nofun⟩
    exact absurd (hheeded (of_decide_eq_true hopen)) hreason
  | case17 hpoint =>
    refine ⟨h.tried, nofun, fun hfailed => ?_⟩
    cases (h.unfailed (Or.inr (Or.inr (Or.inr hpoint)))).symm.trans hfailed

/-- Which steps stop for failed orchestration, begin an iteration and close a
half-open circuit. -/
theorem probeStep_effect (hstep : probeStep policy s op = some t) :
    (t.point = .stopping .orchestrationFailed -> t.circuit = .opened) ∧
      (t.point = .iterating none -> s.point = .checking ∧ s.circuit ≠ .opened) ∧
      (s.circuit = .halfOpen -> t.circuit = .closed -> s.point = .iterating (some true) ∨
        exists decision, op = .record decision ∧ decision ≠ .orchestrationError) := by
  unfold probeStep at hstep
  split at hstep
  case h_4 decision _ _ =>
    rcases some_of_guard hstep with ⟨_, rfl⟩
    refine ⟨nofun, nofun, fun hhalf hclosed => Or.inr ⟨decision, rfl, ?_⟩⟩
    intro herror
    simp [Circuit.after, hhalf, herror] at hclosed
  -- The other steps leave a half-open circuit or close it once they planned.
  all_goals grind

/-- A session that was resumed with an open circuit stops for failed
orchestration only after it tried, begins no iteration after a probe that
failed, and closes a half-open circuit only in an iteration that planned. -/
theorem circuit_probes_once (hs : (probeMachine policy).ReachableWhere Heeded s)
    (hheeded : Heeded s op) (hstep : (probeMachine policy).step s op = some t) :
    (t.point = .stopping .orchestrationFailed -> t.resumedOpen = true -> 0 < t.attempts) ∧
      (s.probeFailed = true -> t.point ≠ .iterating none) ∧
      (s.circuit = .halfOpen -> t.circuit = .closed -> s.point = .iterating (some true)) := by
  have hprobing : Probing s := by
    refine hs.invariant ?_ ?_
    · intro start hstart
      rw [hstart]
      exact ⟨nofun, nofun, nofun⟩
    · intro s op t h hheeded hstep
      exact h.step hheeded hstep
  have ⟨hstops, hbegins, hcloses⟩ := probeStep_effect hstep
  refine ⟨?_, ?_, ?_⟩
  · intro hstop hopen
    exact (hprobing.step hheeded hstep).tried hopen (hstops hstop)
  · intro hfailed hpoint
    cases (hprobing.unfailed (Or.inl (hbegins hpoint))).symm.trans hfailed
  · intro hhalf hclosed
    rcases hcloses hhalf hclosed with hplanned | ⟨decision, rfl, hdecision⟩
    · exact hplanned
    · exact (hheeded hhalf).resolve_right hdecision

def threeErrors : List ProbeOp :=
  [.check false false, .attempt false, .record .orchestrationError,
    .check false false, .attempt false, .record .orchestrationError,
    .check false false, .attempt false, .record .orchestrationError]

theorem resumed_session_probes :
    exists s t, (probeMachine {}).ReachableWhere Heeded s ∧
      (probeMachine {}).step s (.check false false) = some t ∧
      t.point = .stopping .orchestrationFailed ∧ t.resumedOpen = true ∧ 0 < t.attempts := by
  rcases Machine.ReachableWhere.exists_of_runIf (M := probeMachine {}) (C := Heeded)
      (P := fun s => s.point = .checking ∧ s.circuit = .opened ∧ s.resumedOpen = true) {}
      (threeErrors ++ [.check false false, .finish, .resume, .start, .check false false,
        .attempt false, .record .orchestrationError]) rfl (by decide +kernel) with
    ⟨s, hs, hpoint, hopen, hresumed⟩
  have hstep : (probeMachine {}).step s (.check false false) =
      some { s with point := .stopping .orchestrationFailed } := by
    simp [probeMachine, probeStep, hpoint, hopen]
  have hheeded : Heeded s (.check false false) := trivial
  exact ⟨s, _, hs, hstep, rfl, hresumed, (circuit_probes_once hs hheeded hstep).1 rfl hresumed⟩

/-- Killed with an open circuit, the campaign stops without an attempt when it
is resumed; and an iteration that planned nothing closes a half-open circuit. -/
theorem circuit_unprobed :
    (exists s, (probeMachine {}).Reachable s ∧ s.point = .stopping .orchestrationFailed ∧
      s.resumedOpen = true ∧ s.attempts = 0) ∧
    exists s, (probeMachine {}).Reachable s ∧ s.resumedOpen = true ∧ s.attempts = 0 ∧
      s.circuit = .closed := by
  constructor
  · exact Machine.ReachableWhere.exists_of_runIf {}
      (threeErrors ++ [.kill, .resume, .start, .check false false]) rfl (by decide +kernel)
  · exact Machine.ReachableWhere.exists_of_runIf {}
      (threeErrors ++ [.check false false, .finish, .resume, .start, .check false false,
        .record .noChanges]) rfl (by decide +kernel)

end ForgeLoop
end Hyperloom
