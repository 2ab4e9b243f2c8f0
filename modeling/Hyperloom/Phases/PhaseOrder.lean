import Hyperloom.Phases.PhaseMachine

/-!
# Order of the phases

A committed move goes to a later phase or is the reloop of a macro-cycle, the
phases it enters are enabled, and the macro-cycle counts the reloops and the
reopenings of a session.
-/

namespace Hyperloom
namespace Phases

open Storage
open Library

/-!
## The order of one move
-/

namespace PhaseRow

/-- A SWEEP to FRAMEWORK_AGENT move with reason `cycle_reloop`. -/
def isReloop : PhaseRow -> Bool
  | committed source _ move =>
    source == .sweep && move.target == .frameworkAgent && move.reason == "cycle_reloop"
  | _ => false

def isReopening : PhaseRow -> Bool
  | reopened => true
  | _ => false

def source : PhaseRow -> Option Phase
  | entered => none
  | reopened => some .close
  | committed source _ _ => some source

def target : PhaseRow -> Phase
  | entered => .prelude
  | reopened => .prelude
  | committed _ _ move => move.target

def isCommitted : PhaseRow -> Bool
  | committed _ _ _ => true
  | _ => false

/-- The order of a committed move: it leaves a phase other than CLOSE for a
later one or is a reloop, and the phase it enters is enabled and, after
PRELUDE or ENABLEMENT, has a baseline. -/
def Ordered : PhaseRow -> Prop
  | committed source inputs move =>
    source ≠ .close ∧ (source.index < move.target.index ∨
      source = .sweep ∧ move.target = .frameworkAgent ∧ move.reason = "cycle_reloop") ∧
    (move.target = .frameworkAgent -> inputs.runFlags.frameworkAgentEnabled = true) ∧
    (move.target = .kernelAgent -> inputs.runFlags.kernelEnabled = true) ∧
    (move.target = .frameworkAgent ∨ move.target = .kernelAgent ->
      source = .prelude ∨ source = .enablement ->
      exists tput, inputs.baselineTput = some tput ∧ 0 < tput)
  | _ => True

end PhaseRow

theorem postPreludeTarget_cases (flags : RunFlags) :
    postPreludeTarget flags = .frameworkAgent ∧ flags.frameworkAgentEnabled = true ∨
      postPreludeTarget flags = .kernelAgent ∧ flags.kernelEnabled = true ∨
      postPreludeTarget flags = .sweep := by
  unfold postPreludeTarget
  split
  · rename_i hframework
    exact Or.inl ⟨rfl, hframework⟩
  · split
    · rename_i hkernel
      exact Or.inr (Or.inl ⟨rfl, hkernel⟩)
    · exact Or.inr (Or.inr rfl)

variable {inputs : PredicateInputs}

theorem baselineTput_phase {tput : Rat} (h : inputs.baselineTput = some tput) :
    inputs.currentPhase = .prelude ∨ inputs.currentPhase = .enablement := by
  unfold PredicateInputs.baselineTput at h
  unfold PredicateInputs.currentPhase
  split at h
  · rename_i hfacts
    rw [hfacts]
    exact Or.inl rfl
  · rename_i hfacts
    rw [hfacts]
    exact Or.inr rfl
  · cases h

theorem ne_close_of_index_lt {source target : Phase}
    (h : source.index < target.index) : source ≠ .close := by
  intro hclose
  rw [hclose] at h
  cases target with
  | _ => exact absurd h (by decide)

theorem index_lt_close {phase : Phase} (h : phase ≠ .close) : phase.index < Phase.close.index := by
  cases phase with
  | close => exact absurd rfl h
  | _ => decide

variable {move : Transition}

theorem ordered_of_later {source : Phase} (hlater : source.index < move.target.index)
    (hframework : move.target ≠ .frameworkAgent) (hkernel : move.target ≠ .kernelAgent) :
    (PhaseRow.committed source inputs move).Ordered := by
  refine ⟨ne_close_of_index_lt hlater, Or.inl hlater, ?_, ?_, ?_⟩
  · intro htarget
    exact absurd htarget hframework
  · intro htarget
    exact absurd htarget hkernel
  · intro htarget
    rcases htarget with htarget | htarget
    · exact absurd htarget hframework
    · exact absurd htarget hkernel

theorem ordered_of_anchored {tput : Rat} {reason : String} {evidence : Evidence}
    (htput : inputs.baselineTput = some tput) (hpos : 0 < tput) :
    (PhaseRow.committed inputs.currentPhase inputs
      ⟨postPreludeTarget inputs.runFlags, reason, evidence⟩).Ordered := by
  have hlater : inputs.currentPhase.index < (postPreludeTarget inputs.runFlags).index := by
    rcases baselineTput_phase htput with hphase | hphase <;> rw [hphase] <;>
      rcases postPreludeTarget_cases inputs.runFlags with ⟨htarget, _⟩ | ⟨htarget, _⟩ | htarget <;>
      rw [htarget] <;> decide
  refine ⟨ne_close_of_index_lt hlater, Or.inl hlater, ?_, ?_, ?_⟩
  · intro hframework
    rcases postPreludeTarget_cases inputs.runFlags with ⟨_, hflag⟩ | ⟨htarget, _⟩ | htarget
    · exact hflag
    · cases htarget.symm.trans hframework
    · cases htarget.symm.trans hframework
  · intro hkernel
    rcases postPreludeTarget_cases inputs.runFlags with ⟨htarget, _⟩ | ⟨_, hflag⟩ | htarget
    · cases htarget.symm.trans hkernel
    · exact hflag
    · cases htarget.symm.trans hkernel
  · intro _ _
    exact ⟨tput, htput, hpos⟩

theorem ordered_of_decided (h : Decided inputs move) :
    (PhaseRow.committed inputs.currentPhase inputs move).Ordered := by
  cases h with
  | closes hopen _ =>
    apply ordered_of_later (index_lt_close hopen)
    · nofun
    · nofun
  | converges hfacts _ _ =>
    have hphase : inputs.currentPhase = .sweep := congrArg PhaseFacts.phase hfacts
    have hopen : inputs.currentPhase ≠ .close := by
      rw [hphase]
      decide
    apply ordered_of_later (index_lt_close hopen)
    · nofun
    · nofun
  | enables hphase _ =>
    have hlater : inputs.currentPhase.index < Phase.enablement.index := by
      rw [hphase]
      decide
    apply ordered_of_later hlater
    · nofun
    · nofun
  | anchors htput hpos _ => exact ordered_of_anchored htput hpos
  | handsToKernel hphase hkernel _ =>
    rw [hphase]
    refine ⟨by decide, Or.inl (Nat.lt_succ_self 2), ?_, ?_, ?_⟩
    · nofun
    · intro _
      exact hkernel
    · intro _ hsource
      rcases hsource with hsource | hsource <;> cases hsource
  | sweeps hbefore _ =>
    apply ordered_of_later hbefore
    · nofun
    · nofun
  | reloops hfacts hframework _ _ _ =>
    have hphase : inputs.currentPhase = .sweep := congrArg PhaseFacts.phase hfacts
    rw [hphase]
    refine ⟨by decide, Or.inr ⟨rfl, rfl, rfl⟩, ?_, ?_, ?_⟩
    · intro _
      exact hframework
    · nofun
    · intro _ hsource
      rcases hsource with hsource | hsource <;> cases hsource

/-!
## Counting the macro-cycles
-/

/-- A move loops back exactly if it is a reloop. -/
theorem isReloop_eq_isLoopback (h : Decided inputs move) :
    (PhaseRow.committed inputs.currentPhase inputs move).isReloop = move.isLoopback := by
  cases h with
  | closes _ hplain | enables _ hplain | handsToKernel _ _ hplain | sweeps _ hplain =>
    rw [isLoopback_of_plain hplain.1]
    simp [PhaseRow.isReloop]
  | converges _ hloop _ =>
    rw [isLoopback_of_plain hloop]
    simp [PhaseRow.isReloop]
  | anchors htput _ hplain =>
    rw [isLoopback_of_plain hplain.1]
    rcases baselineTput_phase htput with hphase | hphase <;> simp [PhaseRow.isReloop, hphase]
  | reloops hfacts _ _ hloop _ =>
    have hphase : inputs.currentPhase = .sweep := congrArg PhaseFacts.phase hfacts
    unfold Transition.isLoopback
    rw [hloop]
    simp [PhaseRow.isReloop, hphase]

variable (history : List PhaseRow)

def cyclesOpened : Nat :=
  history.countP PhaseRow.isReloop + history.countP PhaseRow.isReopening

theorem cyclesOpened_concat (row : PhaseRow) :
    cyclesOpened (history ++ [row]) = cyclesOpened history + (if row.isReloop then 1 else 0) +
        (if row.isReopening then 1 else 0) := by
  unfold cyclesOpened
  rw [List.countP_append, List.countP_append, List.countP_singleton, List.countP_singleton]
  lia

/-- What holds of a session that started at macro-cycle `first`. -/
structure InOrder (first : Int) (s : PhaseState) : Prop where
  ordered : forall row, row ∈ s.phaseHistory -> row.Ordered
  macroCycle : s.macroCycle = first + cyclesOpened s.phaseHistory

variable {s t : PhaseState}

theorem InOrder.concat {first : Int} {row : PhaseRow} (h : InOrder first s)
    (hrow : row.Ordered) (hhistory : t.phaseHistory = s.phaseHistory ++ [row])
    (hcycle : t.macroCycle = s.macroCycle + (if row.isReloop then 1 else 0) +
      (if row.isReopening then 1 else 0)) : InOrder first t := by
  constructor
  · intro old hold
    rw [hhistory] at hold
    rcases mem_concat.mp hold with hold | rfl
    · exact h.ordered old hold
    · exact hrow
  · rw [hcycle, h.macroCycle, hhistory, cyclesOpened_concat]
    push_cast
    lia

variable {a : PhaseOp}

theorem InOrder.step {first : Int} (h : InOrder first s)
    (hstep : phaseStep s a = some t) : InOrder first t := by
  cases phaseStep_effect hstep with
  | keeps _ hhistory hcycle _ =>
    constructor
    · rw [hhistory]
      exact h.ordered
    · rw [hcycle.macroCycle, hhistory]
      exact h.macroCycle
  | enters _ _ _ hhistory hcycle _ | reopens _ _ _ hhistory hcycle _ =>
    refine h.concat ?_ hhistory ?_
    · exact trivial
    · rw [hcycle.macroCycle]
      simp [PhaseRow.isReloop, PhaseRow.isReopening]
  | moves source inputs move _ hcommits hloop hcycle _
  | loops source inputs move _ hcommits hloop hcycle _ =>
    rcases hcommits.frozen with rfl
    apply h.concat (ordered_of_decided hcommits.decided) hcommits.history
    rw [hcycle.macroCycle, isReloop_eq_isLoopback hcommits.decided, hloop]
    simp [PhaseRow.isReopening]

theorem InOrder.initial {start : PhaseState} (h : phaseMachine.init start) :
    InOrder start.macroCycle start := by
  constructor
  · rw [h.2]
    intro row hrow
    cases hrow
  · rw [h.2]
    exact (Int.add_zero _).symm

/-- A step that changes the phase adds the row that says so; the rows of the
start of a leg and no others are added there. -/
def Recorded (s : PhaseState) (a : PhaseOp) (t : PhaseState) : Prop :=
  t.phase = s.phase ∧ t.phaseHistory = s.phaseHistory ∨
    exists row, t.phaseHistory = s.phaseHistory ++ [row] ∧
      row.source = s.phase ∧ t.phase = some row.target ∧ (a = .legStart <-> row.isCommitted = false)

theorem ne_legStart_of_inputs (h : a.inputs = some inputs) : a ≠ .legStart := by
  intro hstart
  rw [hstart] at h
  cases h

theorem recorded_of_step (hstep : phaseStep s a = some t) : Recorded s a t := by
  have hcommitted : forall {source inputs move},
      a.inputs = some inputs -> CommitsMove s t source inputs move -> Recorded s a t := by
    intro source inputs move hop hcommits
    refine Or.inr ⟨_, hcommits.history, hcommits.before.symm, hcommits.after, ?_⟩
    constructor
    · intro hstart
      exact absurd hstart (ne_legStart_of_inputs hop)
    · nofun
  cases phaseStep_effect hstep with
  | keeps hphase hhistory _ _ => exact Or.inl ⟨hphase, hhistory⟩
  | enters hstart hphase htarget hhistory _ _ | reopens hstart hphase htarget hhistory _ _ =>
    refine Or.inr ⟨_, hhistory, hphase.symm, htarget, ?_⟩
    exact iff_of_true hstart rfl
  | moves source inputs move hop hcommits _ _ _ | loops source inputs move hop hcommits _ _ _ =>
    exact hcommitted hop hcommits

theorem reopened_of_leaves_close (hstep : phaseStep s a = some t)
    (hclose : s.phase = some .close) (hleft : t.phase ≠ some .close) :
    a = .legStart ∧ t.phaseHistory = s.phaseHistory ++ [.reopened] := by
  have hcommitted : forall {source inputs move}, CommitsMove s t source inputs move -> False := by
    intro source inputs move hcommits
    have hordered := ordered_of_decided hcommits.decided
    apply hordered.1
    rw [hcommits.frozen]
    exact Option.some.inj (hcommits.before.symm.trans hclose)
  cases phaseStep_effect hstep with
  | keeps hphase _ _ _ => exact absurd (hphase.trans hclose) hleft
  | enters _ hphase _ _ _ _ => cases hphase.symm.trans hclose
  | reopens hstart _ _ hhistory _ _ => exact ⟨hstart, hhistory⟩
  | moves source inputs move _ hcommits _ _ _ | loops source inputs move _ hcommits _ _ _ =>
    exact (hcommitted hcommits).elim

/-- Over every run of a session, across its legs: each committed move is in
order, the macro-cycle counts the reloops and the reopenings, and each change of
phase is on the record, CLOSE being left by a reopening at the start of a leg
only. -/
theorem phases_keep_order {start s : PhaseState} {trace : List PhaseOp}
    (hstart : phaseMachine.init start) (hrun : phaseMachine.Run Machine.Always start trace s) :
    (forall row, row ∈ s.phaseHistory -> row.Ordered) ∧
    s.macroCycle = start.macroCycle + s.phaseHistory.countP PhaseRow.isReloop +
      s.phaseHistory.countP PhaseRow.isReopening ∧
    forall a t, phaseMachine.step s a = some t -> Recorded s a t ∧
      (s.phase = some .close -> t.phase ≠ some .close ->
        a = .legStart ∧ t.phaseHistory = s.phaseHistory ++ [.reopened]) := by
  have horder : InOrder start.macroCycle s := by
    apply hrun.invariant _ (InOrder.initial hstart)
    intro before a after hbefore _ hstep
    exact hbefore.step hstep
  refine ⟨horder.ordered, ?_, ?_⟩
  · rw [horder.macroCycle, cyclesOpened]
    push_cast
    lia
  · intro a t hstep
    exact ⟨recorded_of_step hstep, reopened_of_leaves_close hstep⟩

def unstartedSession : PhaseState where
  live := false
  phase := none
  macroCycle := 0
  noGainCycleStreak := 0
  gainAtCycleStart := 0
  cumulativeGainValidated := 0
  stopReason := ""
  pendingEscalateHint := none
  closeSequenceDone := false
  phaseHistory := []

def plainInputs (facts : PhaseFacts) : PredicateInputs where
  nowUnix := 0
  globals := {}
  hint := none
  macroCycle := 0
  runFlags := {}
  facts := facts

def spentBudget : BudgetFacts := { remainingSec := some 0 }

/-- A first leg that opens a second macro-cycle and is stopped in it, and a
second leg that reopens the session. -/
def twoLegs : List PhaseOp :=
  let gain : ReloopFacts :=
    { currentGainPct := 5, gainAtCycleStartPct := 0, minGainPct := 1,
      priorNoGainCycleStreak := 0, noGainCycles := 2 }
  let kernel : KernelPending :=
    { kernelWorkPending := true, kernelAgentInFlight := true,
      optimizer := "forge", controllerCycle := 0, controllerStatus := "",
      controllerPatchCount := 0, controllerTaskCount := 0,
      controllerReason := "", geakStatus := none, geakErrorClass := none, geakError := none }
  let idle : KernelPlateau :=
    { idleTicks := 0, idleSinceUnix := 0, idleMaxTicks := 1,
      idleMinSeconds := 1, rejectedKernelCount := 0 }
  [.legStart, .advance (plainInputs (.prelude { tput := 100 } false)) false true,
    .advance (plainInputs (.frameworkAgent {} spentBudget true)) false true,
    .advance (plainInputs (.kernelAgent kernel idle spentBudget)) false true, .outside 5 "" none,
    .advance (plainInputs (.sweep { status := "succeeded", reloop := gain }
      spentBudget)) false true, .advance { plainInputs (.frameworkAgent {} spentBudget true) with
      globals := { stopReason := "signal" } } false true, .legEnd, .legStart]

theorem phases_keep_order_two_legs :
    exists s, phaseMachine.Run Machine.Always unstartedSession twoLegs s ∧
      s.phaseHistory.length = 7 ∧ s.macroCycle = 2 ∧
      s.phaseHistory.countP PhaseRow.isReloop + s.phaseHistory.countP PhaseRow.isReopening = 2 ∧
      forall row, row ∈ s.phaseHistory -> row.Ordered := by
  rcases Machine.Run.exists_of_runIf (M := phaseMachine) (C := Machine.Always)
    (P := fun s => s.phaseHistory.length = 7 ∧ s.macroCycle = 2) unstartedSession twoLegs
    (by decide +kernel) with ⟨s, hrun, hlength, hcycle⟩
  rcases phases_keep_order ⟨rfl, rfl⟩ hrun with ⟨hordered, hopened, _⟩
  have hzero : unstartedSession.macroCycle = 0 := rfl
  refine ⟨s, hrun, hlength, hcycle, ?_, hordered⟩
  lia

end Phases
end Hyperloom
