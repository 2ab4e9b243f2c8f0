import Mathlib.Data.List.Nodup
import Hyperloom.Library.Machine

/-!
# The queue of lane candidates

A fan-out round leaves its candidates in a file.  An iteration takes the first
one that applies, rewrites the file without those it took, measures the one it
took and records the result, each in a step of its own.  What was logged since
the file was last written, and every candidate ever written to it, are kept
beside the code's state.
-/

namespace Hyperloom
namespace ForgeLoop

open Library

variable {lane : Type}

inductive LaneEnd where
  | measured
  | rejected
  | unmeasured
deriving DecidableEq

/-- Where the process stands between `_take_lane_candidate` and the record of
the iteration. -/
inductive LaneStage (lane : Type) where
  | idle
  | taking
  | popped (candidate : lane)
  | leaving (candidate : Option lane)
  | measuring (candidate : lane)
  | committed (candidate : lane)

structure LaneWorker (lane : Type) where
  queue : List lane
  stage : LaneStage lane := .idle
  logged : List lane := []

structure Lanes (lane : Type) where
  file : List lane := []
  ended : List (lane × LaneEnd) := []
  pending : Option lane := none
  worker : Option (LaneWorker lane) := none
  written : List lane := []

namespace Lanes

/-- `raise` is a driver found changed with the candidate taken off again; the
queue is persisted on the way out. -/
inductive Op (lane : Type) where
  | fill (candidates : List lane)
  | take
  | pop
  | reject
  | file
  | apply
  | raise
  | persist
  | record
  | commit
  | recordKeep
  | kill
  | restart
deriving DecidableEq

variable (s : Lanes lane) (worker : LaneWorker lane)

def goto : Option (Lanes lane) :=
  some { s with worker := some worker }

def log (candidate : lane) (how : LaneEnd) : Option (Lanes lane) :=
  { s with ended := s.ended ++ [(candidate, how)] }.goto
    { worker with stage := .taking, logged := worker.logged ++ [candidate] }

def step [DecidableEq lane] (s : Lanes lane) (op : Op lane) : Option (Lanes lane) :=
  match s.worker with
  | none =>
    match op with
    | .restart =>
      { s with
        ended := s.ended ++ s.pending.toList.map fun c => (c, LaneEnd.measured)
        pending := none }.goto { queue := s.file }
    | _ => none
  | some worker =>
    match op, worker.stage with
    | .fill candidates, .idle =>
      if worker.queue = [] ∧ (s.written ++ candidates).Nodup then
        { s with
          file := candidates
          written := s.written ++ candidates }.goto { queue := candidates }
      else none
    | .take, .idle => s.goto { worker with stage := .taking }
    | .pop, .taking =>
      match worker.queue with
      | [] => s.goto { worker with stage := .leaving none }
      | candidate :: rest =>
        s.goto { worker with queue := rest, stage := .popped candidate }
    | .reject, .popped candidate => s.log worker candidate .rejected
    | .file, .popped candidate => s.log worker candidate .unmeasured
    | .apply, .popped candidate =>
      s.goto { worker with stage := .leaving (some candidate) }
    | .raise, .popped _ =>
      some { s with file := worker.queue, worker := none }
    | .persist, .leaving none =>
      { s with file := worker.queue }.goto { queue := worker.queue }
    | .persist, .leaving (some candidate) =>
      { s with file := worker.queue }.goto { queue := worker.queue, stage := .measuring candidate }
    | .record, .measuring candidate =>
      { s with ended := s.ended ++ [(candidate, LaneEnd.measured)] }.goto
        { worker with stage := .idle }
    | .commit, .measuring candidate =>
      { s with pending := some candidate }.goto { worker with stage := .committed candidate }
    | .recordKeep, .committed candidate =>
      { s with
        ended := s.ended ++ [(candidate, LaneEnd.measured)]
        pending := none }.goto { worker with stage := .idle }
    | .kill, _ => some { s with worker := none }
    | _, _ => none

def lanesMachine (lane : Type) [DecidableEq lane] : Machine (Lanes lane) (Op lane) where
  init s := s = { worker := some { queue := [] } }
  step := step

/-!
## Where every candidate is
-/

/-- Nothing is under way: no process and no journal, or one between two
iterations. -/
def AtRest : Prop :=
  match s.worker with
  | none => s.pending = none
  | some worker =>
    match worker.stage with
    | .idle => True
    | _ => False

/-- Every candidate is on record once, or in the file once. -/
def Accounted [DecidableEq lane] (s : Lanes lane) : Prop :=
  forall candidate, candidate ∈ s.written ->
    (s.ended.map Prod.fst).count candidate + s.file.count candidate = 1

end Lanes

namespace LaneStage

/-- The candidate in hand, which is on no record yet. -/
def hand : LaneStage lane -> List lane
  | .popped c | .leaving (some c) | .measuring c => [c]
  | _ => []

/-- The candidate in hand, while the file still has it. -/
def listed : LaneStage lane -> List lane
  | .popped c | .leaving (some c) => [c]
  | _ => []

def journal : LaneStage lane -> Option lane
  | .committed c => some c
  | _ => none

def rewritten : LaneStage lane -> Bool
  | .idle | .measuring _ | .committed _ => true
  | _ => false

/-- A candidate has left the file and is on no record. -/
def measures : LaneStage lane -> Bool
  | .measuring _ => true
  | _ => false

end LaneStage

namespace Lanes

/-- The process is killed only while what it logged has left the file and what
left the file is on record, and the driver is never found changed. -/
def Spared (s : Lanes lane) : Op lane -> Prop
  | .kill => s.worker.all (fun worker =>
    worker.logged.isEmpty && !worker.stage.measures) = true
  | .raise => False
  | _ => True

instance (s : Lanes lane) (op : Op lane) : Decidable (Spared s op) := by
  cases op <;> unfold Spared <;> infer_instance

variable [DecidableEq lane]

def past (s : Lanes lane) (candidate : lane) : Nat :=
  (s.ended.map Prod.fst).count candidate + s.pending.toList.count candidate

structure Holds (s : Lanes lane) (worker : LaneWorker lane) : Prop where
  pending : s.pending = worker.stage.journal
  tally : forall x, s.past x + worker.stage.hand.count x + worker.queue.count x = s.written.count x
  file : s.file = worker.logged ++ (worker.stage.listed ++ worker.queue)
  clean : worker.stage.rewritten = true -> worker.logged = []

structure Sound (s : Lanes lane) : Prop where
  nodup : s.written.Nodup
  dead : s.worker = none -> forall x, s.past x + s.file.count x = s.written.count x
  live : forall worker, s.worker = some worker -> s.Holds worker

variable {s t : Lanes lane} {op : Op lane} {queue logged : List lane} {stage : LaneStage lane}

theorem Sound.goto {worker : LaneWorker lane} (ht : s.goto worker = some t)
    (hnodup : s.written.Nodup) (h : s.Holds worker) : t.Sound := by
  cases ht
  refine ⟨hnodup, nofun, ?_⟩
  intro live hlive
  cases hlive
  exact { h with }

theorem Holds.log {candidate : lane} (how : LaneEnd)
    (h : s.Holds { queue, stage := .popped candidate, logged }) :
    { s with ended := s.ended ++ [(candidate, how)] }.Holds
      { queue, stage := .taking, logged := logged ++ [candidate] } := by
  refine ⟨h.pending, ?_, ?_, nofun⟩
  · intro x
    have htally := h.tally x
    simp only [past, LaneStage.hand, List.map_append, List.count_append,
      List.map_cons, List.map_nil, List.count_nil] at htally ⊢
    lia
  · have hfile := h.file
    simp only [LaneStage.listed] at hfile ⊢
    rw [hfile]
    simp

theorem Sound.restart (hs : s.Sound) (hworker : s.worker = none) :
    { s with
      ended := s.ended ++ s.pending.toList.map fun c => (c, LaneEnd.measured)
      pending := none }.Holds { queue := s.file } := by
  refine ⟨rfl, ?_, rfl, fun _ => rfl⟩
  intro x
  have htally := hs.dead hworker x
  simp only [past, LaneStage.hand, List.map_append, List.count_append,
    List.map_map, Function.comp_def, List.map_id', Option.toList_none, List.count_nil] at htally ⊢
  lia

theorem Sound.kill (hs : s.Sound) {worker : LaneWorker lane}
    (hworker : s.worker = some worker) (hspared : Spared s .kill) :
    { s with worker := none }.Sound := by
  have hlive := hs.live worker hworker
  refine ⟨hs.nodup, ?_, nofun⟩
  intro _ x
  unfold Spared at hspared
  rw [hworker] at hspared
  simp only [Option.all_some, Bool.and_eq_true, List.isEmpty_iff] at hspared
  have htally := hlive.tally x
  have hfile := hlive.file
  have hhand : worker.stage.listed = worker.stage.hand := by
    cases hstage : worker.stage with
    | measuring c =>
      rw [hstage] at hspared
      cases hspared.2
    | leaving c => cases c <;> rfl
    | _ => rfl
  rw [hspared.1, List.nil_append] at hfile
  dsimp only [past] at htally ⊢
  rw [hfile, List.count_append]
  lia

theorem Sound.step (hs : s.Sound) (hspared : Spared s op) (h : s.step op = some t) : t.Sound := by
  unfold Lanes.step at h
  split at h
  · rename_i hworker
    split at h
    · exact Sound.goto h hs.nodup (hs.restart hworker)
    · cases h
  · rename_i worker hworker
    have hlive := hs.live worker hworker
    rcases worker with ⟨queue, stage, logged⟩
    have hfile := hlive.file
    cases op with
    | kill =>
      cases h
      exact hs.kill hworker hspared
    | raise => cases hspared
    | restart => cases h
    | fill candidates =>
      cases stage with
      | idle =>
        dsimp only at h
        split at h
        · rename_i hfill
          refine Sound.goto h hfill.2 ⟨hlive.pending, ?_, rfl, fun _ => rfl⟩
          intro x
          have htally := hlive.tally x
          rw [hfill.1] at htally
          simp only [past, List.count_nil, List.count_append] at htally ⊢
          lia
        · cases h
      | _ => cases h
    | take =>
      cases stage with
      | idle =>
        exact Sound.goto h hs.nodup ⟨hlive.pending, hlive.tally, hfile, fun hno => nomatch hno⟩
      | _ => cases h
    | pop =>
      cases stage with
      | taking =>
        cases queue with
        | nil =>
          exact Sound.goto h hs.nodup ⟨hlive.pending, hlive.tally, hfile, fun hno => nomatch hno⟩
        | cons c rest =>
          refine Sound.goto h hs.nodup ⟨hlive.pending, ?_, hfile, fun hno => nomatch hno⟩
          intro x
          have htally := hlive.tally x
          simp only [LaneStage.hand, List.count_cons] at htally ⊢
          lia
      | _ => cases h
    | reject =>
      cases stage with
      | popped c => exact Sound.goto h hs.nodup (hlive.log .rejected)
      | _ => cases h
    | file =>
      cases stage with
      | popped c => exact Sound.goto h hs.nodup (hlive.log .unmeasured)
      | _ => cases h
    | apply =>
      cases stage with
      | popped c =>
        exact Sound.goto h hs.nodup ⟨hlive.pending, hlive.tally, hfile, fun hno => nomatch hno⟩
      | _ => cases h
    | persist =>
      cases stage with
      | leaving c =>
        cases c with
        | _ =>
          exact Sound.goto h hs.nodup ⟨hlive.pending, hlive.tally, rfl, fun _ => rfl⟩
      | _ => cases h
    | record =>
      cases stage with
      | measuring c =>
        refine Sound.goto h hs.nodup ⟨hlive.pending, ?_, hfile, hlive.clean⟩
        intro x
        have htally := hlive.tally x
        simp only [past, LaneStage.hand, List.map_append,
          List.count_append, List.map_cons, List.map_nil, List.count_nil] at htally ⊢
        lia
      | _ => cases h
    | commit =>
      cases stage with
      | measuring c =>
        refine Sound.goto h hs.nodup ⟨rfl, ?_, hfile, hlive.clean⟩
        intro x
        have htally := hlive.tally x
        have hpending : s.pending = none := hlive.pending
        simp only [past, hpending, LaneStage.hand, Option.toList_some,
          Option.toList_none, List.count_nil] at htally ⊢
        lia
      | _ => cases h
    | recordKeep =>
      cases stage with
      | committed c =>
        refine Sound.goto h hs.nodup ⟨rfl, ?_, hfile, hlive.clean⟩
        intro x
        have htally := hlive.tally x
        have hpending : s.pending = some c := hlive.pending
        simp only [past, hpending, LaneStage.hand, Option.toList_some,
          Option.toList_none, List.count_nil, List.map_append,
          List.count_append, List.map_cons, List.map_nil] at htally ⊢
        lia
      | _ => cases h

theorem Sound.count_le (hs : s.Sound) (x : lane) : (s.ended.map Prod.fst).count x ≤ 1 := by
  have hwritten := List.nodup_iff_count_le_one.mp hs.nodup x
  cases hworker : s.worker with
  | none =>
    have htally := hs.dead hworker x
    unfold past at htally
    lia
  | some worker =>
    have htally := (hs.live worker hworker).tally x
    unfold past at htally
    lia

theorem Sound.accounted (hs : s.Sound) (hrest : s.AtRest) : s.Accounted := by
  intro x hx
  rw [← List.count_eq_one_of_mem hs.nodup hx]
  unfold AtRest at hrest
  split at hrest
  · rename_i hworker
    rw [← hs.dead hworker x]
    unfold past
    rw [hrest]
    rfl
  · rename_i worker hworker
    have hlive := hs.live worker hworker
    split at hrest
    · rename_i hstage
      have htally := hlive.tally x
      have hpending := hlive.pending
      have hfile := hlive.file
      have hclean := hlive.clean
      rw [hstage] at htally hpending hfile hclean
      rw [hfile, hclean rfl, ← htally]
      unfold past
      rw [hpending]
      rfl
    · cases hrest

end Lanes

open Lanes

/-- In every run that spares the candidates off the file, each is on record or
in the file exactly once whenever nothing is under way, and is never on record
twice. -/
theorem lanes_accounted [DecidableEq lane] {s : Lanes lane}
    (hs : (lanesMachine lane).ReachableWhere Spared s) :
    (s.AtRest -> s.Accounted) ∧ forall x, (s.ended.map Prod.fst).count x ≤ 1 := by
  have hsound : s.Sound := by
    apply hs.invariant ?_ ?_
    · intro start hstart
      rw [hstart]
      refine ⟨List.nodup_nil, nofun, ?_⟩
      intro worker hworker
      cases hworker
      exact ⟨rfl, fun _ => rfl, rfl, fun _ => rfl⟩
    · intro s op t hs hspared hstep
      exact hs.step hspared hstep
  exact ⟨hsound.accounted, hsound.count_le⟩

theorem atRest_of_dead {s : Lanes lane} (hworker : s.worker.isNone = true)
    (hpending : s.pending.isNone = true) : s.AtRest := by
  unfold AtRest
  rw [Option.isNone_iff_eq_none.mp hworker]
  exact Option.isNone_iff_eq_none.mp hpending

theorem queue_resumed_accounted :
    exists s, (lanesMachine Nat).ReachableWhere Spared s ∧
      s.ended = [(1, .measured)] ∧ s.file = [2] ∧ s.Accounted := by
  rcases Machine.ReachableWhere.exists_of_runIf (M := lanesMachine Nat)
      (C := Spared) (P := fun s => s.ended = [(1, .measured)] ∧ s.file = [2] ∧
        s.worker.isNone = true ∧ s.pending.isNone = true) { worker := some { queue := [] } }
      [.fill [1, 2], .kill, .restart, .take, .pop, .apply, .persist, .record,
        .kill] rfl (by decide +kernel) with
    ⟨s, hs, hended, hfile, hworker, hpending⟩
  exact ⟨s, hs, hended, hfile, (lanes_accounted hs).1 (atRest_of_dead hworker hpending)⟩

/-- A process killed while it measures a candidate has lost it: the file was
rewritten without it and no result is on record. -/
theorem measured_lane_lost :
    exists s, (lanesMachine Nat).Reachable s ∧ s.AtRest ∧ ¬ s.Accounted := by
  rcases Machine.Reachable.exists_of_runIf (M := lanesMachine Nat)
      (P := fun s => s.written = [1] ∧ s.ended = [] ∧
        s.file = [] ∧ s.worker.isNone = true ∧ s.pending.isNone = true)
      { worker := some { queue := [] } } [.fill [1], .take, .pop, .apply, .persist, .kill] rfl
      (by decide +kernel) with
    ⟨s, hs, hwritten, hended, hfile, hworker, hpending⟩
  refine ⟨s, hs, atRest_of_dead hworker hpending, ?_⟩
  intro haccounted
  have hone := haccounted 1 (by rw [hwritten]; exact List.mem_cons_self)
  rw [hended, hfile] at hone
  cases hone

end ForgeLoop
end Hyperloom
