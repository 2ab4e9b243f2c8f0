import Hyperloom.Phases.NextPhase

/-!
# What a decision can be

Every decision of `replay_next_phase` is one of seven, each with the condition
that drove it.  `Plain` evidence says nothing about cycles: neither that one is
to be opened nor how many passed without a gain.
-/

namespace Hyperloom
namespace Phases

open Storage

/-!
## The decisions
-/

def Plain (evidence : Evidence) : Prop :=
  evidence.lookup "loopback" = none ∧ evidence.lookup "no_gain_cycle_streak_effective" = none

variable {first second : Evidence}

theorem Plain.append (hfirst : Plain first) (hsecond : Plain second) : Plain (first ++ second) := by
  constructor
  · rw [List.lookup_append, hfirst.1, hsecond.1]
    rfl
  · rw [List.lookup_append, hfirst.2, hsecond.2]
    rfl

variable {budget : BudgetFacts} {evidence : Evidence}

theorem plain_withBudgetTiming (h : Plain evidence) : Plain (withBudgetTiming budget evidence) :=
  h.append ⟨rfl, rfl⟩

/-- The decisions `replay_next_phase` can take, by what drove them. -/
inductive Decided (inputs : PredicateInputs) : Transition -> Prop where
  | closes {reason : String} {evidence : Evidence} :
    inputs.currentPhase ≠ .close -> Plain evidence -> Decided inputs ⟨.close, reason, evidence⟩
  | converges {reason : String} {evidence : Evidence} {result : SweepResult}
    {budget : BudgetFacts} :
    inputs.facts = .sweep result budget -> evidence.lookup "loopback" = none ->
    evidence.lookup "no_gain_cycle_streak_effective" = some (.int result.reloop.streak) ->
    Decided inputs ⟨.close, reason, evidence⟩
  | enables {reason : String} {evidence : Evidence} :
    inputs.currentPhase = .prelude -> Plain evidence ->
    Decided inputs ⟨.enablement, reason, evidence⟩
  | anchors {reason : String} {evidence : Evidence} {tput : Rat} :
    inputs.baselineTput = some tput -> 0 < tput -> Plain evidence ->
    Decided inputs ⟨postPreludeTarget inputs.runFlags, reason, evidence⟩
  | handsToKernel {reason : String} {evidence : Evidence} : inputs.currentPhase = .frameworkAgent ->
    inputs.runFlags.kernelEnabled = true -> Plain evidence ->
    Decided inputs ⟨.kernelAgent, reason, evidence⟩
  | sweeps {reason : String} {evidence : Evidence} :
    inputs.currentPhase.index < Phase.sweep.index -> Plain evidence ->
    Decided inputs ⟨.sweep, reason, evidence⟩
  | reloops {evidence : Evidence} {result : SweepResult} {budget : BudgetFacts} :
    inputs.facts = .sweep result budget -> inputs.runFlags.frameworkAgentEnabled = true ->
    result.reloop.streak < result.reloop.noGainCycles ->
    evidence.lookup "loopback" = some (.bool true) ->
    evidence.lookup "no_gain_cycle_streak_effective" = some (.int result.reloop.streak) ->
    Decided inputs ⟨.frameworkAgent, "cycle_reloop", evidence⟩

variable {inputs : PredicateInputs} {move : Transition}

theorem Decided.of_close (hsource : inputs.currentPhase ≠ .close)
    (htarget : move.target = .close) (hplain : Plain move.evidence) : Decided inputs move := by
  cases move with
  | mk target reason evidence =>
    cases htarget
    exact Decided.closes hsource hplain

variable {exit : String × Evidence}

theorem budgetExit_plain {reason : String} (hplain : Plain evidence)
    (h : budgetExit budget reason evidence = some exit) : Plain exit.2 := by
  revert h
  fun_cases budgetExit budget reason evidence with (intro h; cases h)
  | _ => exact plain_withBudgetTiming hplain

theorem anchoredBaselineTransition_decided {baseline : AnchorFacts}
    {viability : Evidence} {reason : String} (htput : inputs.baselineTput = some baseline.tput)
    (hpos : 0 < baseline.tput) (hplain : Plain viability) :
    Decided inputs (anchoredBaselineTransition inputs.runFlags baseline viability reason) := by
  apply Decided.anchors htput hpos
  apply Plain.append
  · exact Plain.append ⟨rfl, rfl⟩ hplain
  · split
    · exact ⟨rfl, rfl⟩
    · exact ⟨rfl, rfl⟩

/-!
## PRELUDE and ENABLEMENT
-/

theorem plain_preludeViability (baseline : PreludeBaseline) :
    Plain (preludeViability baseline) := by
  unfold preludeViability
  split
  · exact ⟨rfl, rfl⟩
  · exact ⟨rfl, rfl⟩

variable {baseline : PreludeBaseline} {inFlight : Bool}

theorem coldAnchorShortfall_plain (h : coldAnchorShortfall baseline inFlight = some evidence) :
    Plain evidence := by
  revert h
  fun_cases coldAnchorShortfall baseline inFlight with (intro h; cases h)
  | _ => exact Plain.append ⟨rfl, rfl⟩ (plain_preludeViability baseline)

theorem preludeBudgetLine_plain (h : preludeBudgetLine baseline inFlight = some evidence) :
    Plain evidence := by
  revert h
  fun_cases preludeBudgetLine baseline inFlight with (intro h; cases h)
  | _ => exact ⟨rfl, rfl⟩

theorem preludeOutOfBudget_closes (h : preludeOutOfBudget baseline inFlight = some move) :
    move.target = .close ∧ Plain move.evidence := by
  have hline : (preludeBudgetLine baseline inFlight).map
      (fun evidence => Transition.mk .close "prelude_budget_exhausted" evidence)
        = some move -> move.target = .close ∧ Plain move.evidence := by
    intro hmap
    rcases Option.map_eq_some_iff.mp hmap with ⟨evidence, hevidence, rfl⟩
    exact ⟨rfl, preludeBudgetLine_plain hevidence⟩
  revert h
  fun_cases preludeOutOfBudget baseline inFlight with (intro h; try cases h)
  | case1 => exact ⟨rfl, rfl, rfl⟩
  | _ => exact hline h

theorem baselineIsAnchored_tput (h : baselineIsAnchored baseline = true) : 0 < baseline.tput := by
  exact of_decide_eq_true (Bool.and_eq_true_iff.mp h).2

theorem preludeTransition_decided (hfacts : inputs.facts = .prelude baseline inFlight)
    (h : preludeTransition inputs.runFlags baseline inFlight = some move) :
    Decided inputs move := by
  have hphase : inputs.currentPhase = .prelude := by
    rw [PredicateInputs.currentPhase, hfacts]
    rfl
  have hopen : inputs.currentPhase ≠ .close := by
    rw [hphase]
    decide
  revert h
  fun_cases preludeTransition inputs.runFlags baseline inFlight with (intro h; try cases h)
  | case1 => exact Decided.closes hopen ⟨rfl, rfl⟩
  | case2 _ _ hshortfall => exact Decided.closes hopen (coldAnchorShortfall_plain hshortfall)
  | case3 => exact Decided.enables hphase ⟨rfl, rfl⟩
  | case5 _ _ _ hanchored =>
    apply anchoredBaselineTransition_decided
    · rw [PredicateInputs.baselineTput, hfacts]
    · exact baselineIsAnchored_tput hanchored
    · exact plain_preludeViability baseline
  | case6 =>
    have hcloses := preludeOutOfBudget_closes h
    exact Decided.of_close hopen hcloses.1 hcloses.2

theorem enablementTransition_decided {baseline : AnchorFacts} {pending : EnablementPending}
    (hfacts : inputs.facts = .enablement baseline pending)
    (h : enablementTransition inputs.runFlags baseline pending = some move) :
    Decided inputs move := by
  revert h
  fun_cases enablementTransition inputs.runFlags baseline pending with (intro h; cases h)
  | case2 hready =>
    have htput := (Bool.and_eq_true_iff.mp (Bool.and_eq_true_iff.mp hready).1).1
    apply anchoredBaselineTransition_decided
    · rw [PredicateInputs.baselineTput, hfacts]
    · exact of_decide_eq_true htput
    · exact ⟨rfl, rfl⟩

/-!
## FRAMEWORK_AGENT and KERNEL_AGENT
-/

variable {roundFits : Bool} {hint : Option EscalateHint} {plateau : LeverFacts}

theorem advisoryExit_plain (h : advisoryExit hint plateau budget roundFits = some exit) :
    Plain exit.2 := by
  have harms : Plain plateau.arms := ⟨rfl, rfl⟩
  revert h
  fun_cases advisoryExit hint plateau budget roundFits with (intro h; cases h)
  | case4 => exact (plain_withBudgetTiming harms).append ⟨rfl, rfl⟩
  | _ => exact harms.append ⟨rfl, rfl⟩

theorem frameworkExit_plain (h : frameworkExit hint plateau budget roundFits = some exit) :
    Plain exit.2 := by
  rcases Option.or_eq_some_iff.mp h with hbudget | ⟨_, hadvisory⟩
  · exact budgetExit_plain ⟨rfl, rfl⟩ hbudget
  · exact advisoryExit_plain hadvisory

theorem frameworkTransition_decided
    (hfacts : inputs.facts = .frameworkAgent plateau budget roundFits)
    (h : frameworkTransition inputs.runFlags inputs.hint plateau budget roundFits = some move) :
    Decided inputs move := by
  have hphase : inputs.currentPhase = .frameworkAgent := by
    rw [PredicateInputs.currentPhase, hfacts]
    rfl
  rcases Option.map_eq_some_iff.mp h with ⟨exit, hexit, hmove⟩
  have hplain := frameworkExit_plain hexit
  split at hmove
  · rename_i hkernel
    cases hmove
    exact Decided.handsToKernel hphase hkernel hplain
  · cases hmove
    apply Decided.sweeps
    · rw [hphase]
      decide
    · exact hplain.append ⟨rfl, rfl⟩

variable {plateau : KernelPlateau} {nowUnix : Unix}

theorem kernelIdleExit_plain (h : kernelIdleExit plateau nowUnix = some exit) : Plain exit.2 := by
  revert h
  fun_cases kernelIdleExit plateau nowUnix with (intro h; cases h)
  | _ => exact ⟨rfl, rfl⟩

variable {pending : KernelPending}

theorem kernelSettledExit_plain {macroCycle : Int}
    (h : kernelSettledExit pending plateau macroCycle nowUnix = some exit) : Plain exit.2 := by
  revert h
  fun_cases kernelSettledExit pending plateau macroCycle nowUnix with (intro h; try cases h)
  | case1 => exact kernelIdleExit_plain h
  | _ => exact ⟨rfl, rfl⟩

theorem kernelExit_plain {macroCycle : Int}
    (h : kernelExit pending plateau budget macroCycle nowUnix = some exit) : Plain exit.2 := by
  unfold kernelExit at h
  split at h
  · exact budgetExit_plain ⟨rfl, rfl⟩ h
  · rcases Option.or_eq_some_iff.mp h with hsettled | ⟨_, hbudget⟩
    · exact kernelSettledExit_plain hsettled
    · exact budgetExit_plain ⟨rfl, rfl⟩ hbudget

theorem kernelTransition_decided (hfacts : inputs.facts = .kernelAgent pending plateau budget)
    (h : kernelTransition pending plateau budget inputs.macroCycle
      inputs.nowUnix = some move) : Decided inputs move := by
  have hphase : inputs.currentPhase = .kernelAgent := by
    rw [PredicateInputs.currentPhase, hfacts]
    rfl
  rcases Option.map_eq_some_iff.mp h with ⟨exit, hexit, rfl⟩
  apply Decided.sweeps
  · rw [hphase]
    decide
  · exact kernelExit_plain hexit

/-!
## SWEEP
-/

variable {result : SweepResult}

theorem sweepExit_plain (h : sweepExit result budget = some exit) : Plain exit.2 := by
  revert h
  fun_cases sweepExit result budget with (intro h; try cases h)
  | case4 =>
    apply budgetExit_plain _ h
    split
    · exact ⟨rfl, rfl⟩
    · exact ⟨rfl, rfl⟩
  | _ => exact ⟨rfl, rfl⟩

/-- What the evidence of a reloop decision says of the cycle it judges. -/
def Judges (facts : ReloopFacts) (evidence : Evidence) : Prop :=
  evidence.lookup "loopback" = none ∧
    evidence.lookup "no_gain_cycle_streak_effective" = some (.int facts.streak)

variable {facts : ReloopFacts}

theorem Judges.append (hfirst : Judges facts first) (hsecond : Plain second) :
    Judges facts (first ++ second) := by
  constructor
  · rw [List.lookup_append, hfirst.1, hsecond.1]
    rfl
  · rw [List.lookup_append, hfirst.2]
    rfl

theorem Judges.after (hfirst : Plain first) (hsecond : Judges facts second) :
    Judges facts (first ++ second) := by
  constructor
  · rw [List.lookup_append, hfirst.1, hsecond.1]
    rfl
  · rw [List.lookup_append, hfirst.2, hsecond.2]
    rfl

variable {globals : GlobalInputs}

theorem reloopBlocked_plain {rule : String × Evidence}
    (h : reloopBlocked facts globals = some rule) : Plain rule.2 := by
  revert h
  fun_cases reloopBlocked facts globals with (intro h; cases h)
  | _ => exact ⟨rfl, rfl⟩

theorem streak_lt_of_not_blocked (h : reloopBlocked facts globals = none) :
    facts.streak < facts.noGainCycles := by
  revert h
  fun_cases reloopBlocked facts globals with (intro h; cases h)
  | case4 _ _ hstreak => exact Int.not_le.mp hstreak

theorem reloopDecision_judges (facts : ReloopFacts) (globals : GlobalInputs)
    (cycle : Int) : Judges facts (reloopDecision facts globals cycle).evidence := by
  unfold reloopDecision
  split
  · rename_i rule details hblocked
    apply Judges.append _ (reloopBlocked_plain hblocked)
    exact ⟨rfl, rfl⟩
  · split
    · split
      · exact ⟨rfl, rfl⟩
      · exact ⟨rfl, rfl⟩
    · exact ⟨rfl, rfl⟩

theorem reloopDecision_opens {cycle : Int}
    (h : (reloopDecision facts globals cycle).blocked = none) :
    facts.streak < facts.noGainCycles := by
  unfold reloopDecision at h
  split at h
  · cases h
  rename_i hblocked
  exact streak_lt_of_not_blocked hblocked

theorem sweepClose_decided (hfacts : inputs.facts = .sweep result budget)
    {exitReason blocked : String} (hjudges : Judges result.reloop evidence) :
    Decided inputs (sweepClose inputs.runFlags exitReason evidence blocked) := by
  unfold sweepClose
  split
  · have hterminal : Judges result.reloop (evidence ++ [("terminal", .bool true)]) :=
      hjudges.append ⟨rfl, rfl⟩
    exact Decided.converges hfacts hterminal.1 hterminal.2
  · exact Decided.converges hfacts hjudges.1 hjudges.2

theorem sweepTransition_decided (hfacts : inputs.facts = .sweep result budget)
    (h : sweepTransition inputs.runFlags inputs.globals inputs.macroCycle
      result budget = some move) : Decided inputs move := by
  unfold sweepTransition at h
  split at h
  · cases h
  rename_i exitReason exitEvidence hexit
  have hplain : Plain exitEvidence := sweepExit_plain hexit
  have hjudges := Judges.after hplain
    (reloopDecision_judges result.reloop inputs.globals inputs.macroCycle)
  split at h
  · cases h
    apply Decided.closes _ hplain
    rw [PredicateInputs.currentPhase, hfacts]
    intro hclose
    cases hclose
  · dsimp only at h
    split at h
    · rename_i hopens
      cases h
      apply Decided.reloops hfacts hopens.2 (reloopDecision_opens hopens.1)
      · rw [List.lookup_append, hjudges.1]
        rfl
      · rw [List.lookup_append, hjudges.2]
        rfl
    · cases h
      exact sweepClose_decided hfacts hjudges

/-!
## The whole decision
-/

theorem terminalCloseTransition_decided
    (h : terminalCloseTransition inputs = some move) : Decided inputs move := by
  revert h
  fun_cases terminalCloseTransition inputs with (intro h; cases h)
  | case2 hopen =>
    apply Decided.closes hopen
    apply Plain.append ⟨rfl, rfl⟩
    split
    · exact ⟨rfl, rfl⟩
    · exact ⟨rfl, rfl⟩
  | case3 hopen => exact Decided.closes hopen ⟨rfl, rfl⟩

theorem phaseTransition_decided (h : phaseTransition inputs = some move) : Decided inputs move := by
  unfold phaseTransition at h
  cases hfacts : inputs.facts with
  | prelude baseline inFlight =>
    rw [hfacts] at h
    exact preludeTransition_decided hfacts h
  | enablement baseline pending =>
    rw [hfacts] at h
    exact enablementTransition_decided hfacts h
  | frameworkAgent plateau budget roundFits =>
    rw [hfacts] at h
    exact frameworkTransition_decided hfacts h
  | kernelAgent pending plateau budget =>
    rw [hfacts] at h
    exact kernelTransition_decided hfacts h
  | sweep result budget =>
    rw [hfacts] at h
    exact sweepTransition_decided hfacts h
  | close =>
    rw [hfacts] at h
    cases h

theorem replayNextPhase_decided (h : replayNextPhase inputs = some move) : Decided inputs move := by
  revert h
  fun_cases replayNextPhase inputs with (intro h; try cases h)
  | case1 _ hforced => exact terminalCloseTransition_decided hforced
  | case2 _ htarget => exact Decided.sweeps htarget.2.2 ⟨rfl, rfl⟩
  | case3 => exact phaseTransition_decided h

end Phases
end Hyperloom
