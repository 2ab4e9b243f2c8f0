import Hyperloom.ForgeLoop.BestScore

/-!
# The cases a KEEP is compared over

The timed cases of a candidate are checked against the baseline.  Which of them
are scored is read from the candidate's own output, and checked only between
its own three runs.
-/

namespace Hyperloom
namespace ForgeLoop

open Library

/-!
## What a score is the mean over
-/

def meanOver (caseTimes baseline : CaseTimes) (cases : List String) : Rat :=
  mean ((baseline.filter fun entry => decide (entry.1 ∈ cases)).map fun entry =>
    entry.2 / (caseTimes.lookup entry.1).getD 0)

theorem mapM_eq_map {source target : Type}
    {f : source -> Except BenchRefusal target} {g : source -> target}
    (hfg : forall x y, f x = .ok y -> y = g x) {xs : List source}
    {ys : List target} (h : xs.mapM f = .ok ys) : ys = xs.map g := by
  induction xs generalizing ys with
  | nil =>
    cases h
    rfl
  | cons x rest ih =>
    rw [List.mapM_cons] at h
    cases hone : f x with
    | error refusal =>
      rw [hone] at h
      cases h
    | ok y =>
      cases hrest : rest.mapM f with
      | error refusal =>
        rw [hone, hrest] at h
        cases h
      | ok more =>
        rw [hone, hrest] at h
        cases h
        rw [List.map_cons, ← ih hrest, ← hfg x y hone]

theorem caseSpeedup_ok (caseTimes : CaseTimes) (entry : String × Rat)
    (speedup : Rat) (h : caseSpeedup caseTimes entry = .ok speedup) :
    speedup = entry.2 / (caseTimes.lookup entry.1).getD 0 := by
  unfold caseSpeedup at h
  grind

theorem measurementScore_ok (baseline : CaseTimes) (m : Measurement)
    (score : Rat) (h : measurementScore baseline m = .ok score) :
    score = meanOver m.caseTimes baseline (scoredCases baseline m.unscored) := by
  unfold measurementScore at h
  split at h
  · cases h
  · cases h
  rename_i found hfound
  cases h
  rcases calculateMeanCaseSpeedup_some hfound with ⟨_, speedups, hspeedups, rfl⟩
  rw [mapM_eq_map (caseSpeedup_ok m.caseTimes) hspeedups]
  congr 2
  apply List.filter_congr
  intro entry hentry
  have hmem : entry.1 ∈ caseIds baseline := List.mem_map_of_mem hentry
  simp [scoredCases, hmem]

theorem scoredCases_congr {a b : List String} (baseline : CaseTimes)
    (h : a.toFinset = b.toFinset) : scoredCases baseline a = scoredCases baseline b := by
  apply List.filter_congr
  intro id _
  have hmem : id ∈ a <-> id ∈ b := by
    rw [← List.mem_toFinset, h, List.mem_toFinset]
  exact decide_eq_decide.mpr (not_congr hmem)

theorem Measurement.unscored_of_refusal {previous m : Measurement}
    (h : m.refusal (some previous) = none) : m.unscored.toFinset = previous.unscored.toFinset := by
  revert h
  fun_cases refusal (some previous) m with (intro h; cases h)
  | case5 _ _ hsame =>
    by_contra hne
    exact hsame (decide_eq_true fun heq => hne heq.symm)

theorem unscored_of_firstRefusal {previous m : Measurement}
    {measurements : List Measurement} (h : firstRefusal (some previous) measurements = none)
    (hm : m ∈ measurements) : m.unscored.toFinset = previous.unscored.toFinset := by
  induction measurements generalizing previous with
  | nil => cases hm
  | cons next rest ih =>
    rcases Option.or_eq_none_iff.mp h with ⟨hnext, hrest⟩
    have hsame := Measurement.unscored_of_refusal hnext
    cases hm with
    | head => exact hsame
    | tail _ hm => exact (ih hrest hm).trans hsame

theorem scoredCases_of_measure {outputs : List DriverOutput} {bench : Bench}
    (baseline : CaseTimes) (h : measureWallclock outputs = .ok bench)
    {m : Measurement} (hm : m ∈ bench.measurements) :
    scoredCases baseline m.unscored = scoredCases baseline bench.unscored := by
  unfold measureWallclock at h
  cases hruns : outputs.mapM benchWallclock with
  | error refusal =>
    rw [hruns] at h
    cases h
  | ok measurements =>
  rw [hruns] at h
  change aggregateBenchmarkMeasurements measurements = _ at h
  unfold aggregateBenchmarkMeasurements at h
  split at h
  · cases h
  rename_i last hlast
  split at h
  · cases h
  rename_i hrefusal
  cases h
  apply scoredCases_congr
  cases measurements with
  | nil => cases hm
  | cons first rest =>
    have hrest := (Option.or_eq_none_iff.mp hrefusal).2
    have hfirst : forall run, run ∈ first :: rest ->
        run.unscored.toFinset = first.unscored.toFinset := by
      intro run hrun
      cases hrun with
      | head => rfl
      | tail _ hrun => exact unscored_of_firstRefusal hrest hrun
    rw [hfirst m hm, hfirst last (List.mem_of_getLast? hlast)]

theorem Setup.score_of_decideKeep {setup : Setup} {loop : LoopMemory}
    {attempt : Attempt} {iteration : Nat} {kept : Kept}
    (h : setup.decideKeep loop attempt iteration = some kept) :
    measureWallclock attempt.outputs = .ok kept.bench ∧
      kept.score = mean (kept.bench.measurements.map fun m =>
        meanOver m.caseTimes loop.baselineCaseTimes
          (scoredCases loop.baselineCaseTimes kept.bench.unscored)) := by
  revert h
  fun_cases decideKeep setup loop attempt iteration with (intro h; cases h)
  | case3 bench hbench scores hscores =>
    refine ⟨hbench, ?_⟩
    dsimp only
    unfold calculateMeasurementCaseSpeedups at hscores
    split at hscores
    · cases hscores
    rw [mapM_eq_map (measurementScore_ok loop.baselineCaseTimes) hscores]
    congr 1
    apply List.map_congr_left
    intro m hm
    rw [scoredCases_of_measure loop.baselineCaseTimes hbench hm]

/-!
## The cases along a campaign
-/

def Setup.scored (setup : Setup) : List String := scoredCases setup.baseline setup.baselineUnscored

def Setup.sameScored (setup : Setup) (attempt : Attempt) : Bool :=
  match measureWallclock attempt.outputs with
  | .error _ => true
  | .ok bench =>
    decide (scoredCases setup.baseline bench.unscored = setup.scored)

def Stage.kept : Stage -> Option Kept
  | .journaled p | .committed p | .promoted p => some p.kept
  | .measured kept => some kept
  | .idle | .recorded => none

namespace Campaign

variable (setup : Setup)

/-- Every candidate tags the cases the baseline did. -/
def SameUnscored (_ : Campaign) : Label -> Prop
  | .journal attempt | .measure attempt => setup.sameScored attempt = true
  | _ => True

instance (s : Campaign) (label : Label) : Decidable (SameUnscored setup s label) :=
  match label with
  | .journal attempt | .measure attempt =>
    inferInstanceAs (Decidable (setup.sameScored attempt = true))
  | .reject _ | .commit _ | .demote | .promote | .record | .clear
  | .recordMeasured | .kill | .resume _ => instDecidableTrue

def OverScored (kept : Kept) : Prop :=
  scoredCases setup.baseline kept.bench.unscored = setup.scored

structure Memory (setup : Setup) (session : Session) : Prop where
  baseline : session.loop.baselineCaseTimes = setup.baseline
  unscored : scoredCases setup.baseline session.loop.unscoredCases = setup.scored
  bar : session.barCases = setup.scored
  staged : forall kept, session.stage.kept = some kept -> OverScored setup kept

/-- Every score in play is a mean over the baseline's cases, where the baseline
is not lost. -/
structure SameCases (setup : Setup) (s : Campaign) : Prop where
  baseline : s.state.baselineCaseTimes = setup.baseline ∨
    s.state.baselineCaseTimes = [] ∧ s.session = none
  unscored : scoredCases setup.baseline s.state.unscoredCases = setup.scored
  best : s.bestCases = setup.scored
  pending : forall p, s.pending = some p -> OverScored setup p.kept
  memory : forall session, s.session = some session -> Memory setup session

variable {setup : Setup} {start : Rat} {s t : Campaign}

theorem SameCases.starts (h : setup.Starts start s)
    (hcases : s.bestCases = setup.scored) : SameCases setup s := by
  cases h with
  | fresh times head hscore =>
    refine ⟨Or.inl rfl, rfl, rfl, nofun, ?_⟩
    intro session hsession
    cases hsession
    exact ⟨rfl, rfl, rfl, nofun⟩
  | warm times unscored head h hscore =>
    refine ⟨Or.inl rfl, hcases, hcases, nofun, ?_⟩
    intro session hsession
    cases hsession
    exact ⟨rfl, hcases, hcases, nofun⟩

theorem OverScored.decided {loop : LoopMemory} {attempt : Attempt} {kept : Kept}
    {iteration : Nat} (hsame : setup.sameScored attempt = true)
    (hkept : setup.decideKeep loop attempt iteration = some kept) : OverScored setup kept := by
  unfold Setup.sameScored at hsame
  rw [(Setup.score_of_decideKeep hkept).1] at hsame
  unfold OverScored
  exact of_decide_eq_true hsame

section

variable {session live : Session} {stage : Stage} (hs : SameCases setup s)
  (hsession : s.session = some session)

include hs hsession

theorem SameCases.anchored : s.state.baselineCaseTimes = setup.baseline := by
  rcases hs.baseline with hbaseline | ⟨_, hnone⟩
  · exact hbaseline
  · cases hnone.symm.trans hsession

theorem SameCases.restage (hstage : stage.kept = none)
    (hlive : some { session with stage := stage } = some live) : Memory setup live := by
  have hmemory := hs.memory session hsession
  cases hlive
  refine { hmemory with staged := ?_ }
  intro kept hkept
  cases hstage.symm.trans hkept

theorem SameCases.promoted {kept : Kept} (hkept : OverScored setup kept)
    (hstage : stage.kept = some kept) (hlive : some
      { loop := session.loop.promoteBest kept, stage := stage
        barCases := s.keptCases kept : Session } = some live) : Memory setup live := by
  have hmemory := hs.memory session hsession
  cases hlive
  refine { hmemory with bar := ?_, staged := ?_ }
  · dsimp only [keptCases]
    rw [hs.anchored hsession]
    exact hkept
  · intro other hother
    cases hstage.symm.trans hother
    exact hkept

end

theorem SameCases.recordKeep {kept : Kept} {commit : String}
    {policy : StallPolicy} (hs : SameCases setup s)
    (hanchor : s.state.baselineCaseTimes = setup.baseline) (hkept : OverScored setup kept)
    (h : s.recordKeep kept commit policy = some t) :
    t.state.baselineCaseTimes = setup.baseline ∧
      scoredCases setup.baseline t.state.unscoredCases = setup.scored ∧
      t.bestCases = setup.scored ∧ t.pending = s.pending ∧ t.session = s.session := by
  rcases Option.map_eq_some_iff.mp h with ⟨state, hstate, rfl⟩
  rcases RunState.recordKeep_spec hstate with ⟨_, _, _, _, hbaseline, hunscored⟩
  refine ⟨hbaseline.trans hanchor, ?_, ?_, rfl, rfl⟩
  · rw [hunscored]
    exact hs.unscored
  · dsimp only [keptCases]
    rw [hanchor]
    exact hkept

theorem SameCases.restore {given : CaseTimes} {stage : Stage}
    (h : s.restore given stage = some t) (hstage : stage.kept = none) (hsession : s.session = none)
    (hbaseline : s.state.baselineCaseTimes = setup.baseline ∨ s.state.baselineCaseTimes = [])
    (hunscored : scoredCases setup.baseline s.state.unscoredCases = setup.scored)
    (hbest : s.bestCases = setup.scored)
    (hpending : forall p, s.pending = some p -> OverScored setup p.kept) : SameCases setup t := by
  have hs : SameCases setup s := by
    refine ⟨hbaseline.imp_right fun hempty => ⟨hempty, hsession⟩, hunscored, hbest, hpending, ?_⟩
    intro session hlive
    cases hsession.symm.trans hlive
  unfold Campaign.restore at h
  split at h
  · cases h
    exact hs
  · rename_i hfound
    have hanchor := hbaseline.resolve_right fun hempty => hfound (Or.inl hempty)
    rcases Option.map_eq_some_iff.mp h with ⟨incumbent, _, rfl⟩
    refine { hs with baseline := Or.inl hanchor, memory := ?_ }
    intro session hlive
    cases hlive
    refine ⟨hanchor, hunscored, ?_, ?_⟩
    · split
      · exact hbest
      · rw [hanchor]
        exact hunscored
    · intro kept hkept
      cases hstage.symm.trans hkept

theorem SameCases.resume {policy : StallPolicy} {external : Bool} (hs : SameCases setup s)
    (hsession : s.session = none) (h : s.resume policy (setup.given external) = some t) :
    SameCases setup t := by
  have hgiven : setup.given external = setup.baseline ∨ setup.given external = [] := by
    cases external with
    | true => exact Or.inl rfl
    | false => exact Or.inr rfl
  have hanchor (hfound : s.state.baselineCaseTimes ≠ []) :=
    hs.baseline.resolve_right fun hempty => hfound hempty.left
  revert h
  fun_cases Campaign.resume s policy (setup.given external) with (intro h; try cases h)
  | case2 hfound =>
    exact restore h rfl hsession (Or.inl (hanchor hfound)) hs.unscored hs.best hs.pending
  | case5 hfound =>
    apply restore h rfl hsession (Or.inl (hanchor hfound)) hs.unscored hs.best
    intro q hq
    cases hq
  | case6 => exact restore h rfl hsession hgiven hs.unscored hs.best hs.pending
  | case8 hfound p hpending =>
    rcases Option.bind_eq_some_iff.mp h with ⟨next, hnext, hrestore⟩
    rcases hs.recordKeep (hanchor hfound) (hs.pending p hpending) hnext with
      ⟨_, hunscored, hbest, hsame, hclosed⟩
    apply restore hrestore rfl (hclosed.trans hsession) hgiven hunscored hbest
    intro q hq
    exact hs.pending q (hsame.symm.trans hq)

theorem SameCases.moves {label : Label} (hs : SameCases setup s)
    (hsame : SameUnscored setup s label) (h : Moves setup s label t) : SameCases setup t := by
  cases h with
  | reject hsession hstage hstate =>
    rcases RunState.recordOutcome_spec hstate with ⟨_, _, hbaseline, _, hunscored⟩
    refine { hs with
      baseline := Or.inl (hbaseline.trans (hs.anchored hsession)), unscored := ?_ }
    rw [hunscored]
    exact hs.unscored
  | @journal session attempt kept hsession hstage hkept =>
    have hcases := OverScored.decided hsame hkept
    have hmemory := hs.memory session hsession
    refine ⟨Or.inl (hs.anchored hsession), hs.unscored, hs.best, ?_, ?_⟩
    · intro p hp
      cases hp
      exact hcases
    · intro live hlive
      cases hlive
      refine { hmemory with staged := ?_ }
      intro other hother
      cases hother
      exact hcases
  | @commit session hash p hsession hstage _ _ =>
    have hmemory := hs.memory session hsession
    have hstaged := hmemory.staged
    rw [hstage] at hstaged
    refine ⟨Or.inl (hs.anchored hsession), hs.unscored, hs.best, hs.pending, ?_⟩
    intro live hlive
    cases hlive
    exact { hmemory with staged := hstaged }
  | demote hsession hstage =>
    exact ⟨Or.inl (hs.anchored hsession), hs.unscored, hs.best, nofun,
      fun _ => hs.restage hsession rfl⟩
  | @promote session p hsession hstage =>
    have hmemory := hs.memory session hsession
    have hstaged := hmemory.staged
    rw [hstage] at hstaged
    exact ⟨Or.inl hmemory.baseline, hmemory.unscored, hs.best, hs.pending,
      fun _ => hs.promoted hsession (hstaged p.kept rfl) rfl⟩
  | @record session p next hsession hstage hnext =>
    have hstaged := (hs.memory session hsession).staged
    rw [hstage] at hstaged
    rcases hs.recordKeep (hs.anchored hsession) (hstaged p.kept rfl) hnext with
      ⟨hbaseline, hunscored, hbest, hpending, _⟩
    refine ⟨Or.inl hbaseline, hunscored, hbest, ?_, fun _ => hs.restage hsession rfl⟩
    intro q hq
    exact hs.pending q (hpending.symm.trans hq)
  | clear hsession hstage =>
    exact ⟨Or.inl (hs.anchored hsession), hs.unscored, hs.best, nofun,
      fun _ => hs.restage hsession rfl⟩
  | @measure session attempt kept hsession hstage hkept =>
    have hmemory := hs.memory session hsession
    exact ⟨Or.inl hmemory.baseline, hmemory.unscored, hs.best, hs.pending,
      fun _ => hs.promoted hsession (OverScored.decided hsame hkept) rfl⟩
  | @recordMeasured session kept next hsession hstage hnext =>
    have hstaged := (hs.memory session hsession).staged
    rw [hstage] at hstaged
    rcases hs.recordKeep (hs.anchored hsession) (hstaged kept rfl) hnext with
      ⟨hbaseline, hunscored, hbest, hpending, _⟩
    refine ⟨Or.inl hbaseline, hunscored, hbest, ?_, fun _ => hs.restage hsession rfl⟩
    intro q hq
    exact hs.pending q (hpending.symm.trans hq)
  | kill =>
    refine { hs with baseline := ?_, memory := fun _ h => nomatch h }
    exact hs.baseline.imp_right fun hlost => ⟨hlost.left, rfl⟩
  | resume hsession hresume => exact hs.resume hsession hresume

end Campaign

open Campaign

def Setup.scoreOver (setup : Setup) (kept : Kept) (cases : List String) : Rat :=
  mean (kept.bench.measurements.map fun m => meanOver m.caseTimes setup.baseline cases)

/-- While every candidate, and the warm start, tags the cases the baseline did,
every KEEP is compared with the bar over the cases the baseline scores. -/
theorem compared_over_scored (setup : Setup) (start : Rat)
    {first s t : Campaign} {trace : List Label} {attempt : Attempt}
    {label : Label} (hstart : setup.Starts start first) (hcases : first.bestCases = setup.scored)
    (hrun : Machine.Run (campaign setup) (SameUnscored setup) first trace s)
    (hlabel : label = .journal attempt ∨ label = .measure attempt)
    (hsame : SameUnscored setup s label) (hstep : s.step setup label = some t) :
    exists session kept, s.session = some session ∧
      setup.decideKeep session.loop attempt s.state.nextIteration = some kept ∧
      session.barCases = setup.scored ∧ s.keptCases kept = setup.scored ∧
      kept.score = setup.scoreOver kept setup.scored := by
  have hs : SameCases setup s := by
    apply hrun.invariant _ (SameCases.starts hstart hcases)
    intro s label t hs hsame hstep
    exact hs.moves hsame (moves_of_step hstep)
  have hkeep : forall session kept, s.session = some session -> setup.sameScored attempt = true ->
      setup.decideKeep session.loop attempt s.state.nextIteration = some kept ->
      session.barCases = setup.scored ∧ s.keptCases kept = setup.scored ∧
        kept.score = setup.scoreOver kept setup.scored := by
    intro session kept hsession hsame hkept
    have hmemory := hs.memory session hsession
    have hscored : scoredCases setup.baseline kept.bench.unscored = setup.scored :=
      OverScored.decided hsame hkept
    have hscore := (Setup.score_of_decideKeep hkept).2
    rw [hmemory.baseline, hscored] at hscore
    unfold keptCases
    rw [hs.anchored hsession]
    exact ⟨hmemory.bar, hscored, hscore⟩
  rcases hlabel with rfl | rfl
  · cases moves_of_step hstep with
    | journal hsession _ hkept =>
      exact ⟨_, _, hsession, hkept, hkeep _ _ hsession hsame hkept⟩
  · cases moves_of_step hstep with
    | measure hsession _ hkept =>
      exact ⟨_, _, hsession, hkept, hkeep _ _ hsession hsame hkept⟩

theorem steady_compared_over_both :
    exists session kept,
      (twoCases.fresh twoCases.baseline "c0" 1).session = some session ∧
      twoCases.decideKeep session.loop { outputs := steadyRuns 5 5 } 1 = some kept ∧
      session.barCases = ["a", "b"] ∧
      (twoCases.fresh twoCases.baseline "c0" 1).keptCases kept = ["a", "b"] ∧
      kept.score = twoCases.scoreOver kept ["a", "b"] := by
  cases hstep : (twoCases.fresh twoCases.baseline "c0" 1).step twoCases
      (.journal { outputs := steadyRuns 5 5 }) with
  | none =>
    have hsome : ((twoCases.fresh twoCases.baseline "c0" 1).step twoCases
      (.journal { outputs := steadyRuns 5 5 })).isSome = true := by
      decide +kernel
    rw [hstep] at hsome
    cases hsome
  | some t =>
    exact compared_over_scored twoCases 1
      (.fresh twoCases.baseline "c0" (by decide +kernel)) rfl (.nil _)
      (Or.inl rfl) (by decide +kernel) hstep

/-- Three runs that lose on the second case and tag it as unscored. -/
def droppingRuns : List DriverOutput :=
  List.replicate 3
    { representativeMs := some 9
      lines :=
        [{ caseId := "a", ms := 9 }, { caseId := "b", ms := 20, tag := "unscored" }] }

/-- A candidate that tags its slow case is a KEEP over the other one, though it
is below the bar over the cases the bar is the mean over. -/
theorem slow_case_dropped :
    Machine.Reachable (campaign twoCases)
      (twoCases.fresh twoCases.baseline "c0" 1) ∧
    ((twoCases.fresh twoCases.baseline "c0" 1).step twoCases
      (.journal { outputs := droppingRuns })).isSome = true ∧
    ((twoCases.fresh twoCases.baseline "c0" 1).session.any fun session =>
      (twoCases.decideKeep session.loop { outputs := droppingRuns } 1).any
        fun kept => decide (
          (twoCases.fresh twoCases.baseline "c0" 1).keptCases kept = ["a"] ∧
          session.barCases = ["a", "b"] ∧
          twoCases.scoreOver kept session.barCases < session.loop.bar)) = true := by
  refine ⟨⟨_, [], ⟨1, .fresh twoCases.baseline "c0" (by decide +kernel)⟩, .nil _⟩, ?_⟩
  decide +kernel

end ForgeLoop
end Hyperloom
