import Hyperloom.Loop.VerdictRouting

/-!
# The task of an explore proposal

The parameters an approved explore proposal is given on its way to a task, and
that the task a routing creates has exactly these.
-/

namespace Hyperloom
namespace Loop

open Storage Bus State

/-!
## The parameters of an explore
-/

/-- What `_seed_materialized_params` adds to an explore: the values the session
has, the bar for a proposed one, and whether the predictor offered a
variant. -/
structure ExploreSeeds where
  baselineRuntimeSec : Option Json := none
  accuracyBaseline : Option Json := none
  baselineWarmRuntimeSec : Option Json := none
  keepThresholdPct : Option Json -> Json
  exploreSearchCursor : Json
  offered : Evidence -> Bool
  baseTput : Option Json := none
  baseExtraArgs : Option Json := none
  baseExtraEnvs : Option Json := none
  baseRemoveArgs : Option Json := none
  baseUnsetEnvs : Option Json := none
  baseArgsMode : Option Json := none

/-- `params.setdefault` of the values that are there. -/
def setDefaults (params : Evidence) (defaults : List (String × Option Json)) : Evidence :=
  defaults.foldl (fun params pair =>
    match pair.snd with
    | none => params
    | some value => setDefault params pair.fst value) params

variable (seeds : ExploreSeeds) (params : Evidence)

def injectExploreRuntimeParams : Evidence :=
  let params := setDefaults params [("baseline_runtime_sec", seeds.baselineRuntimeSec),
      ("accuracy_baseline", seeds.accuracyBaseline),
      ("baseline_warm_runtime_sec", seeds.baselineWarmRuntimeSec)]
  let params := setField params "keep_threshold_pct"
    (seeds.keepThresholdPct (field params "keep_threshold_pct"))
  setDefault params "explore_search_cursor" seeds.exploreSearchCursor

/-- `stamp_predictor_provenance` on one variant. -/
def stampPredictor : Json -> Json
  | .obj variant =>
    if seeds.offered variant then
      .obj (setField variant "provenance" (.str "primatune"))
    else .obj variant
  | other => other

def creditPredictorProposals : Evidence :=
  match field params "grid" with
  | some (.arr grid) =>
    setField params "grid" (.arr (grid.map (stampPredictor seeds)))
  | _ => params

/-- `inject_stack_base_params` with the anchor. -/
def injectStackBaseParams : Evidence :=
  setDefaults params [("base_tput", seeds.baseTput), ("base_extra_args", seeds.baseExtraArgs),
      ("base_extra_envs", seeds.baseExtraEnvs), ("base_remove_args", seeds.baseRemoveArgs),
      ("base_unset_envs", seeds.baseUnsetEnvs), ("base_args_mode", seeds.baseArgsMode)]

def seedExplore : Evidence :=
  injectStackBaseParams seeds
    (creditPredictorProposals seeds (injectExploreRuntimeParams seeds params))

variable {params : Evidence}

theorem field_setDefault_of_ne {key other : String} {value : Json} (h : other ≠ key) :
    field (setDefault params key value) other = field params other := by
  unfold setDefault
  split
  · rfl
  · unfold field Json.get?
    dsimp only
    rw [List.find?_append]
    cases List.find? (fun pair => decide (pair.fst = other)) params with
    | some found => rfl
    | none =>
      rw [List.find?_cons_of_neg (by simpa using Ne.symm h)]
      rfl

theorem field_setDefaults {defaults : List (String × Option Json)}
    {key : String} (h : forall pair, pair ∈ defaults -> key ≠ pair.fst) :
    field (setDefaults params defaults) key = field params key := by
  unfold setDefaults
  induction defaults generalizing params with
  | nil => rfl
  | cons pair rest ih =>
    rw [List.foldl_cons, ih (fun later hlater => h later (List.mem_cons_of_mem pair hlater))]
    split
    · rfl
    · exact field_setDefault_of_ne (h pair List.mem_cons_self)

theorem grid_seedExplore {seeds : ExploreSeeds} {grid : List Json}
    (h : field params "grid" = some (.arr grid)) :
    field (seedExplore seeds params) "grid" = some (.arr (grid.map (stampPredictor seeds))) := by
  have hruntime : field (injectExploreRuntimeParams seeds params) "grid" = some (.arr grid) := by
    unfold injectExploreRuntimeParams
    rw [field_setDefault_of_ne (by decide), field_setField,
      if_neg (by decide), field_setDefaults (by simp), h]
  unfold seedExplore injectStackBaseParams
  rw [field_setDefaults (by simp)]
  unfold creditPredictorProposals
  rw [hruntime]
  rw [field_setField, if_pos rfl]

/-!
## The task a routing goes on to create
-/

section

variable {γ : Type}

def RoutingSession.exploring (session : RoutingSession γ)
    (denial : Evidence -> Option PolicyDenied) (seeds : ExploreSeeds) : RoutingSession γ :=
  { session with exploreGridDenial := denial, seedExploreParams := seedExplore seeds }

/-- The parameters of the task a routing that applies the verdict goes on to
create. -/
def Routing.taskParams (r : Routing γ) (s : RoutingState γ) : Option Evidence :=
  match r.applyVerdictOutcome s with
  | none => none
  | some t =>
    match t.stage with
    | .reading spec _ => some spec.params
    | _ => none

namespace Routing

/-- The tasks on the way to an insertion, and the one inserted, have the
parameters that some state was left with. -/
def Carries (r : Routing γ) : RoutingStage -> Prop
  | .reading spec _ => exists s, r.taskParams s = some spec.params
  | .inserting spec _ => exists s, r.taskParams s = some spec.params
  | .created task => exists s, r.taskParams s = some task.params
  | _ => True

variable {r : Routing γ} {s t : RoutingState γ}

theorem carries_publish {message : Message} {stage : RoutingStage}
    (h : s.publish message stage = some t) (hstage : r.Carries stage) : r.Carries t.stage := by
  rw [(publish_eq_some h).stage]
  exact hstage

theorem CreateCall.inserted_params (call : CreateCall) :
    call.inserted.params = call.spec.params := by
  unfold CreateCall.inserted
  split
  · rfl
  · rfl

variable {spec : TaskSpec}

theorem params_insertQueuedTask {tasks after : Tasks} {uuid : String} {now : Iso} {task : TaskRow}
    (h : insertQueuedTask tasks spec uuid now = .ok (task, after)) : task.params = spec.params := by
  revert h
  fun_cases insertQueuedTask tasks spec uuid now with (intro h; cases h)
  | _ => rfl

variable {stamp : Stamp}

theorem params_insert {next : TaskRow -> RoutingStage} (h : r.insert s spec stamp next = .ok t) :
    exists task, t.stage = next task ∧ task.params = spec.params := by
  revert h
  fun_cases insert r s spec stamp next with (intro h; cases h)
  | case2 task tasks hinsert =>
    exact ⟨task, rfl, (params_insertQueuedTask hinsert).trans (CreateCall.inserted_params _)⟩

theorem carries_applyVerdictOutcome (h : r.applyVerdictOutcome s = some t) : r.Carries t.stage := by
  have hparams : r.taskParams s = match t.stage with
      | .reading spec _ => some spec.params
      | _ => none := by
    unfold taskParams
    rw [h]
  revert h
  fun_cases applyVerdictOutcome r s with (intro h; try cases h)
  | case3 params =>
    revert h
    fun_cases materializeApprovedProposal r s params with (intro h; try cases h)
    | case2 =>
      revert h
      fun_cases materializeCandidate r s with (intro h; cases h)
      | _ => trivial
    | case3 => trivial
    | case4 => exact ⟨s, hparams⟩
  | _ => trivial

theorem carries_readAttempt {attempt : Nat}
    (hcarries : exists before, r.taskParams before = some spec.params)
    (h : r.readAttempt s spec attempt = some t) : r.Carries t.stage := by
  revert h
  fun_cases readAttempt r s spec attempt with (intro h; cases h)
  | case1 | case3 => exact hcarries
  | _ => trivial

theorem carries_afterUpstream (candidate : Evidence) (wantAuthor hasTask : Bool) :
    r.Carries (afterUpstream candidate wantAuthor hasTask) := by
  unfold afterUpstream
  split
  · trivial
  · split
    · trivial
    · trivial

variable {candidate : Evidence}

theorem carries_readUpstream {wantAuthor : Bool} (hcarries : r.Carries s.stage) :
    r.Carries (r.readUpstream s candidate wantAuthor).stage := by
  fun_cases readUpstream r s candidate wantAuthor with
  | case2 => trivial
  | case5 => exact hcarries
  | _ => exact carries_afterUpstream candidate wantAuthor _

theorem carries_insertUpstream {wantAuthor : Bool} :
    r.Carries (r.insertUpstream s candidate wantAuthor stamp).stage := by
  fun_cases insertUpstream r s candidate wantAuthor stamp with
  | case3 _ _ _ hinsert =>
    rcases params_insert hinsert with ⟨_, hstage, _⟩
    rw [hstage]
    exact carries_afterUpstream candidate wantAuthor true
  | _ => exact carries_afterUpstream candidate wantAuthor false

theorem carries_readAuthor {hasTask : Bool}
    (h : r.readAuthor s candidate hasTask = some t) : r.Carries t.stage := by
  revert h
  fun_cases readAuthor r s candidate hasTask with (intro h; cases h)
  | _ => trivial

theorem carries_insertAuthor {hasTask : Bool}
    (h : r.insertAuthor s candidate hasTask stamp = some t) : r.Carries t.stage := by
  revert h
  fun_cases insertAuthor r s candidate hasTask stamp with (intro h; cases h)
  | case1 _ hinsert =>
    rcases params_insert hinsert with ⟨_, hstage, _⟩
    rw [hstage]
    trivial
  | case2 =>
    unfold afterFailedAuthor
    split
    · trivial
    · trivial

theorem carries_next (hcarries : r.Carries s.stage)
    (h : r.next s stamp = some t) : r.Carries t.stage := by
  revert h
  fun_cases next r s stamp with (intro h; try cases h)
  | case1 =>
    revert h
    fun_cases receive r s stamp with (intro h; try cases h)
    | case2 => trivial
    | case3 => exact carries_publish h trivial
  | case3 => exact carries_applyVerdictOutcome h
  | case4 spec attempt hstage =>
    rw [hstage] at hcarries
    exact carries_readAttempt hcarries h
  | case5 spec attempt hstage =>
    rw [hstage] at hcarries
    rcases hcarries with ⟨before, hbefore⟩
    cases hinsert : r.insert s (attemptSpec spec attempt) stamp .created with
    | error e =>
      rw [hinsert] at h
      cases h
    | ok inserted =>
      rw [hinsert] at h
      cases h
      rcases params_insert hinsert with ⟨task, hcreated, hparams⟩
      rw [hcreated]
      exact ⟨before, hbefore.trans (congrArg some hparams.symm)⟩
  | case9 => exact carries_readUpstream hcarries
  | case10 => exact carries_insertUpstream
  | case11 => exact carries_readAuthor h
  | case12 => exact carries_insertAuthor h
  | _ => exact carries_publish h trivial

theorem taskParams_of_created {task : TaskRow} (h : r.machine.Reachable s)
    (hstage : s.stage = .created task) : exists before, r.taskParams before = some task.params := by
  have hcarries : r.Carries s.stage := by
    apply h.invariant (I := fun s => r.Carries s.stage)
    · intro start hstart
      rw [hstart.right.left]
      trivial
    · intro before op after hbefore _ hstep
      cases op with
      | route stamp => exact carries_next hbefore hstep
      | append message => exact carries_publish hstep hbefore
      | registry op =>
        cases hstep
        exact hbefore
  rw [hstage] at hcarries
  exact hcarries

end Routing

end

end Loop
end Hyperloom
