import Hyperloom.Library.Machine
import Hyperloom.Phases.PhaseClock

/-!
# Histories of the two clocks

A process works on the state in memory and saves it; a leg ends with whatever
was saved last, be it a stop or a crash.  The session clock and the phase clock
grow alike within a leg, and a resume loses to the phases what the ended leg
ran after its recorded stop.
-/

namespace Hyperloom
namespace Phases

open Storage (Unix)
open Library

/-!
## Sessions
-/

/-- A state of the clocks and the time that was charged to the session and not
to a phase. -/
structure Ledger where
  clock : ClockState
  lost : Rat

/-- The state in memory, the one on disk, whether a process runs, and the one
clock. -/
structure ClockSession where
  memory : Ledger
  disk : Ledger
  running : Bool
  now : Unix

inductive ClockOp where
  | read (now : Unix)
  | chargeElapsed (now : Unix)
  | save (now : Unix)
  | transition (target : Phase) (now : Unix)
  | stop (now : Unix)
  | beginLeg (now : Unix)
  | legEnd (now : Unix)
  | beginResumeLeg (now : Unix)

def ClockOp.time : ClockOp -> Unix
  | read now => now
  | chargeElapsed now => now
  | save now => now
  | transition _ now => now
  | stop now => now
  | beginLeg now => now
  | legEnd now => now
  | beginResumeLeg now => now

namespace ClockSession

def update (s : ClockSession) (now : Unix) (f : ClockState -> ClockState) : Option ClockSession :=
  if s.running then
    some { s with
      memory := { s.memory with clock := f s.memory.clock }
      now := now }
  else none

/-- A process starts from the state on disk; `begin_leg` alone does so too. -/
def clockStep (s : ClockSession) (op : ClockOp) : Option ClockSession :=
  if op.time < s.now then none
  else
    match op with
    | .read now => s.update now id
    | .chargeElapsed now => s.update now (fun c => c.chargeElapsed now)
    | .save now =>
      (s.update now (fun c => c.chargeElapsed now)).map (fun t => { t with disk := t.memory })
    | .transition target now =>
      s.update now (fun c => c.recordTransition target now)
    | .stop now => s.update now (fun c => c.stampStop now)
    | .beginLeg now =>
      let from_ := if s.running then s.memory
        else { s.disk with clock := s.disk.clock.load }
      some { s with
        memory := { from_ with clock := from_.clock.beginLeg now }
        running := true
        now := now }
    | .legEnd now =>
      if s.running then some { s with running := false, now := now }
      else none
    | .beginResumeLeg now =>
      if s.running then none
      else
        some { s with
          memory :=
            { clock := s.disk.clock.load.beginResumeLeg now
              lost := s.disk.lost + s.disk.clock.unbankedTail now }
          running := true
          now := now }

end ClockSession

def clockMachine : Machine ClockSession ClockOp where
  init s :=
    s.running = true ∧ s.disk = s.memory ∧ OpenLeg s.memory.clock s.now ∧
      s.memory.clock.legAnchorUnix = s.now
  step := ClockSession.clockStep

/-- A leg is opened by a resume, and `begin_leg` is not called over time that
no charge has taken yet. -/
def Regular (s : ClockSession) (op : ClockOp) : Prop :=
  match op with
  | .beginLeg now => s.running = true ∧ s.memory.clock.legAnchorUnix = now
  | _ => True

instance (s : ClockSession) (op : ClockOp) : Decidable (Regular s op) := by
  unfold Regular
  split
  · infer_instance
  · infer_instance

/-!
## What one step keeps
-/

/-- A ledger whose session clock is ahead of its phase clock by `first` and what
was lost since. -/
structure Balanced (first least : Rat) (ledger : Ledger) : Prop where
  drift : ledger.clock.drift = first + ledger.lost
  least_le : least ≤ ledger.lost

structure InStep (first least : Rat) (s : ClockSession) : Prop where
  saved : OpenLeg s.disk.clock s.disk.clock.legAnchorUnix
  saved_le : s.disk.clock.legAnchorUnix ≤ s.now
  disk : Balanced first least s.disk
  legOpen : s.running = true -> OpenLeg s.memory.clock s.now
  memory : s.running = true -> Balanced first least s.memory

variable {s t : ClockSession} {now : Unix} {first least : Rat}

section

variable (h : InStep first least s)

include h

theorem InStep.update {f : ClockState -> ClockState}
    (hle : s.now ≤ now) (hf : forall c, OpenLeg c s.now ->
      OpenLeg (f c) now ∧ (f c).drift = c.drift)
    (hstep : s.update now f = some t) : InStep first least t := by
  rcases some_of_when hstep with ⟨hrunning, rfl⟩
  have hopen := hf s.memory.clock (h.legOpen hrunning)
  have hbalanced := h.memory hrunning
  refine { h with
      saved_le := le_trans h.saved_le hle
      legOpen := fun _ => hopen.1
      memory := fun _ => ⟨?_, ?_⟩ }
  · exact hopen.2.trans hbalanced.drift
  · exact hbalanced.least_le

theorem InStep.save (hle : s.now ≤ now) (hstep : (s.update now (fun c => c.chargeElapsed now)).map
      (fun u => { u with disk := u.memory }) = some t) : InStep first least t := by
  rcases Option.map_eq_some_iff.mp hstep with ⟨charged, hcharged, rfl⟩
  have hafter := h.update hle
    (fun c hopen => ⟨(hopen.charge hle).1, (hopen.charge hle).2.1⟩) hcharged
  rcases some_of_when hcharged with ⟨hrunning, rfl⟩
  rcases (h.legOpen hrunning).charge hle with ⟨hopen, _, hanchor⟩
  refine
    { saved := ?_, saved_le := le_of_eq hanchor
      disk := hafter.memory hrunning
      legOpen := hafter.legOpen, memory := hafter.memory }
  rw [hanchor]
  exact hopen

theorem InStep.resume (hle : s.now ≤ now) :
    InStep first least { s with
        memory :=
          { clock := s.disk.clock.load.beginResumeLeg now
            lost := s.disk.lost + s.disk.clock.unbankedTail now }
        running := true
        now := now } := by
  have hresume := h.saved.resume (le_trans h.saved_le hle)
  refine { h with
      saved_le := le_trans h.saved_le hle
      legOpen := fun _ => hresume.1
      memory := fun _ => ⟨?_, ?_⟩ }
  · rw [hresume.2, h.disk.drift, add_assoc]
  · exact le_trans h.disk.least_le (le_add_of_nonneg_right h.saved.unbankedTail_nonneg)

theorem InStep.step {op : ClockOp}
    (hregular : Regular s op) (hstep : clockMachine.step s op = some t) : InStep first least t := by
  change s.clockStep op = some t at hstep
  unfold ClockSession.clockStep at hstep
  split at hstep
  · cases hstep
  rename_i hlater
  have hle := not_lt.mp hlater
  cases op with
  | read now =>
    apply h.update hle _ hstep
    intro c hopen
    exact ⟨hopen.mono hle, rfl⟩
  | chargeElapsed now =>
    apply h.update hle _ hstep
    intro c hopen
    exact ⟨(hopen.charge hle).1, (hopen.charge hle).2.1⟩
  | save now => exact h.save hle hstep
  | transition target now =>
    apply h.update hle _ hstep
    intro c hopen
    exact hopen.transition hle target
  | stop now =>
    apply h.update hle _ hstep
    intro c hopen
    exact hopen.stamp hle
  | beginLeg now =>
    rcases hregular with ⟨hrunning, hanchor⟩
    cases hstep
    rw [if_pos hrunning]
    have hsame : s.memory.clock.beginLeg now = s.memory.clock := by
      unfold ClockState.beginLeg
      rw [← hanchor]
    rw [hsame]
    exact { h with
        saved_le := le_trans h.saved_le hle
        legOpen := fun _ => (h.legOpen hrunning).mono hle
        memory := fun _ => h.memory hrunning }
  | legEnd now =>
    rcases some_of_when hstep with ⟨_, rfl⟩
    refine { h with saved_le := le_trans h.saved_le hle, legOpen := ?_, memory := ?_ }
    · nofun
    · nofun
  | beginResumeLeg now =>
    rcases some_of_guard hstep with ⟨_, rfl⟩
    exact h.resume hle

end

variable {start : ClockSession}

theorem InStep.initial (h : clockMachine.init start) :
    InStep (start.memory.clock.drift - start.memory.lost) start.memory.lost start := by
  rcases h with ⟨_, hdisk, hopen, hanchor⟩
  have hbalanced : Balanced (start.memory.clock.drift - start.memory.lost)
      start.memory.lost start.memory :=
    ⟨(sub_add_cancel _ _).symm, le_refl _⟩
  have hsaved : OpenLeg start.memory.clock start.memory.clock.legAnchorUnix := by
    rw [hanchor]
    exact hopen
  refine
    { saved := ?_, saved_le := ?_, disk := ?_
      legOpen := fun _ => hopen, memory := fun _ => hbalanced }
  · rw [hdisk]
    exact hsaved
  · rw [hdisk]
    exact le_of_eq hanchor
  · rw [hdisk]
    exact hbalanced

theorem inStep_of_run {trace : List ClockOp} (hstart : clockMachine.init start)
    (hrun : clockMachine.Run Regular start trace s) :
    InStep (start.memory.clock.drift - start.memory.lost) start.memory.lost s := by
  apply hrun.invariant _ (InStep.initial hstart)
  intro before op after hbefore hregular hstep
  exact hbefore.step hregular hstep

/-!
## Agreement of the clocks
-/

theorem lost_of_step {op : ClockOp} (hregular : Regular s op)
    (hresume : forall now, op ≠ .beginResumeLeg now)
    (hstep : clockMachine.step s op = some t) : t.memory.lost = s.memory.lost := by
  have hupdate : forall {now f u}, s.update now f = some u -> u.memory.lost = s.memory.lost := by
    intro now f u hu
    rcases some_of_when hu with ⟨_, rfl⟩
    rfl
  change s.clockStep op = some t at hstep
  unfold ClockSession.clockStep at hstep
  split at hstep
  · cases hstep
  cases op with
  | save now =>
    rcases Option.map_eq_some_iff.mp hstep with ⟨charged, hcharged, rfl⟩
    have hlost := hupdate hcharged
    exact hlost
  | beginLeg now =>
    cases hstep
    rw [if_pos hregular.1]
  | legEnd now =>
    rcases some_of_when hstep with ⟨_, rfl⟩
    rfl
  | beginResumeLeg now => exact absurd rfl (hresume now)
  | _ => exact hupdate hstep

theorem lost_of_run {trace : List ClockOp} (hrun : clockMachine.Run Regular start trace s)
    (hleg : forall now, .beginResumeLeg now ∉ trace) : s.memory.lost = start.memory.lost := by
  induction hrun with
  | nil s => rfl
  | @cons s t u op rest hregular hstep _ ih =>
    have hrest : forall now, .beginResumeLeg now ∉ rest := by
      intro now hmem
      exact hleg now (List.mem_cons_of_mem op hmem)
    have hop : forall now, op ≠ .beginResumeLeg now := by
      intro now hsame
      apply hleg now
      rw [hsame]
      exact List.mem_cons_self
    exact (ih hrest).trans (lost_of_step hregular hop hstep)

theorem step_beginResumeLeg (hstep : clockMachine.step s (.beginResumeLeg now) = some t) :
    s.now ≤ now ∧ t.memory =
      { clock := s.disk.clock.load.beginResumeLeg now
        lost := s.disk.lost + s.disk.clock.unbankedTail now } := by
  change s.clockStep _ = some t at hstep
  unfold ClockSession.clockStep at hstep
  split at hstep
  · cases hstep
  rename_i hlater
  rcases some_of_guard hstep with ⟨_, rfl⟩
  exact ⟨not_lt.mp hlater, rfl⟩

/-- Resuming a saved leg leaves the session clock where its last charge put it
and the phase clock short of that by the unbanked tail. -/
theorem OpenLeg.resume_readings {c : ClockState} (h : OpenLeg c c.legAnchorUnix)
    (hle : c.legAnchorUnix ≤ now) :
    (c.load.beginResumeLeg now).elapsedSecOf now = c.elapsedSecOf c.legAnchorUnix ∧
    (c.load.beginResumeLeg now).sumOfPhases now =
      c.sumOfPhases c.legAnchorUnix - c.unbankedTail now := by
  rcases h.resume hle with ⟨hopen, hdrift⟩
  have hcharged := elapsedChargedSec_beginResumeLeg c now
  have helapsed : (c.load.beginResumeLeg now).elapsedSecOf now =
      c.elapsedSecOf c.legAnchorUnix := by
    rw [hopen.elapsedSecOf_eq, h.elapsedSecOf_eq, hcharged, sub_self]
    show _ + (now - now) = _
    rw [sub_self]
  refine ⟨helapsed, ?_⟩
  have hahead := hopen.elapsed_sub_phases
  have hbehind := h.elapsed_sub_phases
  linarith

/-- Over every regular history the session clock grows by what the phases grow
by and what was lost at a resume, where nothing is lost within a leg; a resume
charges no time between two legs to either clock and loses the part of the
interrupted entry it does not bank; and the two readings of what remains agree
whenever the session is dated. -/
theorem clocks_agree {start s : ClockSession} {trace : List ClockOp}
    (hstart : clockMachine.init start) (hrun : clockMachine.Run Regular start trace s) :
    (s.running = true ->
      s.memory.clock.elapsedSecOf s.now - start.memory.clock.elapsedSecOf start.now =
        s.memory.clock.sumOfPhases s.now - start.memory.clock.sumOfPhases start.now +
          (s.memory.lost - start.memory.lost)) ∧
    ((forall now, .beginResumeLeg now ∉ trace) -> s.memory.lost = start.memory.lost) ∧
    (forall now t, clockMachine.step s (.beginResumeLeg now) = some t ->
      t.memory.lost = s.disk.lost + s.disk.clock.unbankedTail now ∧
      0 ≤ s.disk.clock.unbankedTail now ∧
      t.memory.clock.elapsedSecOf now = s.disk.clock.elapsedSecOf s.disk.clock.legAnchorUnix ∧
      t.memory.clock.sumOfPhases now =
        s.disk.clock.sumOfPhases s.disk.clock.legAnchorUnix - s.disk.clock.unbankedTail now) ∧
    forall (c : ClockState) (now : Unix), 0 < c.maxMinutes -> c.Dated ->
      exists minutes, c.remainingMinutes now = some minutes ∧
        c.sessionRemainingSeconds now = some (60 * minutes) := by
  have hinstep := inStep_of_run hstart hrun
  refine ⟨?_, lost_of_run hrun, ?_, fun c now => ClockState.remaining_agree⟩
  · intro hrunning
    have hlast := (hinstep.legOpen hrunning).elapsed_sub_phases
    have hfirst := hstart.2.2.1.elapsed_sub_phases
    have hbalanced := (hinstep.memory hrunning).drift
    linarith
  · intro now t hstep
    rcases step_beginResumeLeg hstep with ⟨hle, hmemory⟩
    rw [hmemory]
    exact ⟨rfl, hinstep.saved.unbankedTail_nonneg,
      hinstep.saved.resume_readings (le_trans hinstep.saved_le hle)⟩

def firstSave : ClockSession :=
  let ledger : Ledger :=
    { lost := 0
      clock :=
        { phase := some .prelude, phaseStartedUnix := 100
          phaseElapsedTotals := fun _ => 0, resumedTs := none, stopTs := none
          legEndedTs := none, elapsedChargedSec := 0, legAnchorUnix := 100
          startTs := some 100, maxMinutes := 60 } }
  { memory := ledger, disk := ledger, running := true, now := 100 }

theorem firstSave_init : clockMachine.init firstSave := by
  refine ⟨rfl, rfl, ?_, rfl⟩
  exact
    { charged_nonneg := le_refl 0, anchor_pos := by decide +kernel
      anchor_le := le_refl _, phase := ⟨.prelude, rfl⟩
      started_pos := by decide +kernel, entryStart_le := by decide +kernel
      stop_le := by decide +kernel }

def growths (trace : List ClockOp) : Option (Rat × Rat) :=
  (clockMachine.runIf Machine.Always firstSave trace).map (fun s =>
    (s.memory.clock.elapsedSecOf s.now - firstSave.memory.clock.elapsedSecOf firstSave.now,
      s.memory.clock.sumOfPhases s.now - firstSave.memory.clock.sumOfPhases firstSave.now))

/-- A crash loses its phase entry, a second `begin_leg` its uncharged time, and
a leg opened by `begin_leg` alone charges the gap to its phase. -/
theorem clocks_disagree : clockMachine.init firstSave ∧
    growths [.save 160, .legEnd 170, .beginResumeLeg 1000] = some (60, 0) ∧
    growths [.beginLeg 160] = some (0, 60) ∧
    growths [.save 160, .legEnd 170, .beginLeg 1000] = some (60, 900) :=
  ⟨firstSave_init, by decide +kernel, by decide +kernel, by decide +kernel⟩

def resumedTrace : List ClockOp :=
  [.transition .frameworkAgent 130, .save 160, .stop 190, .save 200,
    .legEnd 210, .beginResumeLeg 1000, .read 1060]

theorem clocks_agree_resumed :
    exists s, clockMachine.Run Regular firstSave resumedTrace s ∧ s.running = true ∧
      s.memory.clock.elapsedSecOf s.now - firstSave.memory.clock.elapsedSecOf firstSave.now =
        s.memory.clock.sumOfPhases s.now - firstSave.memory.clock.sumOfPhases firstSave.now +
          (s.memory.lost - firstSave.memory.lost) ∧
      s.memory.clock.elapsedSecOf s.now = 160 ∧ s.memory.lost = 10 := by
  rcases Machine.Run.exists_of_runIf (M := clockMachine) (C := Regular)
    (P := fun s => s.running = true ∧ s.memory.clock.elapsedSecOf s.now = 160 ∧
      s.memory.lost = 10) firstSave resumedTrace (by decide +kernel) with
    ⟨s, hrun, hrunning, helapsed, hlost⟩
  exact ⟨s, hrun, hrunning, (clocks_agree firstSave_init hrun).1 hrunning, helapsed, hlost⟩

end Phases
end Hyperloom
