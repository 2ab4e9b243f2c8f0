import Hyperloom.Library.Machine
import Hyperloom.Bus.ResourceLock

/-!
# Lane exclusion

The lane operations as one machine, with the leases handed out so far: any
holder may call any operation at any moment, and a returned lease may be
released in any order and any number of times.
-/

namespace Hyperloom
namespace Bus

open Library Storage

inductive LaneOp where
  | acquireMany (request : AcquireRequest) (acquirer : Acquirer)
  | release (lease : Lease)
  | heartbeatByTask (taskId : String) (ttlSec : Int) (now : Unix)
  | reapDeadHolders (gpuTasks : List String) (probe : LeaseRow -> Probe)
  | holdRoundLane (roundId holderTaskId : String) (expiresUnix nowUnix : Unix)
  | dropRoundLane (roundId : String)

structure LaneState where
  leases : Leases
  issued : List Lease

variable (capacities : Capacities)

def laneStep (s : LaneState) : LaneOp -> Option LaneState
  | .acquireMany request acquirer =>
    match acquireMany capacities s.leases request acquirer with
    | .error _ => some s
    | .ok (none, leases) => some { s with leases := leases }
    | .ok (some lease, leases) =>
      some { leases := leases, issued := lease :: s.issued }
  | .release lease =>
    if lease ∈ s.issued then
      some { s with leases := release s.leases lease }
    else none
  | .heartbeatByTask taskId ttlSec now =>
    some { s with leases := (heartbeatByTask s.leases taskId ttlSec now).snd }
  | .reapDeadHolders gpuTasks probe =>
    some { s with leases := (reapDeadHolders s.leases gpuTasks probe).snd }
  | .holdRoundLane roundId holderTaskId expiresUnix nowUnix =>
    some { s with leases := holdRoundLane s.leases roundId holderTaskId expiresUnix nowUnix }
  | .dropRoundLane roundId =>
    some { s with leases := dropRoundLane s.leases roundId }

def laneMachine : Machine LaneState LaneOp where
  init s := s = { leases := Table.empty, issued := [] }
  step := laneStep capacities

/-- The granted acquire, as the one step that adds a holder to a known lane. -/
def Granted (s t : LaneState)
    (request : AcquireRequest) (acquirer : Acquirer) (expanded : List KnownLane) : Prop :=
  expandLanes request.lanes = .ok expanded ∧ t.issued = ⟨request.holderId, expanded⟩ :: s.issued ∧
  t.leases = s.leases.insertOrReplaceAll (expanded.map (acquiredRow request acquirer)) ∧
  forall lane, lane ∈ expanded -> laneRefuses capacities s.leases request.holderId lane = false

/-- Rows of one owner: the columns an operation on a whole task can tell apart. -/
def SameOwner (a b : LeaseRow) : Prop :=
  a.holderId = b.holderId ∧ a.taskId = b.taskId ∧ a.pid = b.pid ∧ a.ownerScope = b.ownerScope

theorem SameOwner.trans {a b c : LeaseRow} (hab : SameOwner a b)
    (hbc : SameOwner b c) : SameOwner a c :=
  ⟨hab.left.trans hbc.left, hab.right.left.trans hbc.right.left,
    hab.right.right.left.trans hbc.right.right.left,
    hab.right.right.right.trans hbc.right.right.right⟩

theorem SameOwner.symm {a b : LeaseRow} (h : SameOwner a b) : SameOwner b a :=
  ⟨h.left.symm, h.right.left.symm, h.right.right.left.symm, h.right.right.right.symm⟩

def Descends (before after : Leases) : Prop :=
  forall row lane, row ∈ after -> row.lane = .known lane ->
    exists old, old ∈ before ∧ old.lane = .known lane ∧ SameOwner old row

section

variable (leases : Leases)

theorem Descends.refl : Descends leases leases := by
  intro row lane hrow hlane
  exact ⟨row, hrow, hlane, rfl, rfl, rfl, rfl⟩

theorem descends_release (lease : Lease) : Descends leases (release leases lease) := by
  intro row lane hrow hlane
  exact ⟨row, (mem_release.mp hrow).left, hlane, rfl, rfl, rfl, rfl⟩

theorem descends_heartbeatByTask (taskId : String) (ttlSec : Int) (now : Unix) :
    Descends leases (heartbeatByTask leases taskId ttlSec now).snd := by
  intro row lane hrow hlane
  rcases mem_heartbeatByTask.mp hrow with ⟨hold, _⟩ | ⟨old, hold, _, rfl⟩
  · exact ⟨row, hold, hlane, rfl, rfl, rfl, rfl⟩
  · exact ⟨old, hold, hlane, rfl, rfl, rfl, rfl⟩

theorem descends_reapDeadHolders (gpuTasks : List String) (probe : LeaseRow -> Probe) :
    Descends leases (reapDeadHolders leases gpuTasks probe).snd := by
  intro row lane hrow hlane
  exact ⟨row, (mem_reapDeadHolders.mp hrow).left, hlane, rfl, rfl, rfl, rfl⟩

theorem descends_holdRoundLane (roundId holder : String) (expires now : Unix) :
    Descends leases (holdRoundLane leases roundId holder expires now) := by
  intro row lane hrow hlane
  rcases mem_holdRoundLane.mp hrow with ⟨hold, _⟩ | ⟨old, _, hkey, rfl⟩ | ⟨rfl, _⟩
  · exact ⟨row, hold, hlane, rfl, rfl, rfl, rfl⟩
  · exact absurd hkey (key_ne_of_known hlane roundId)
  · cases hlane

theorem descends_dropRoundLane (roundId : String) :
    Descends leases (dropRoundLane leases roundId) := by
  intro row lane hrow hlane
  exact ⟨row, (mem_dropRoundLane.mp hrow).left, hlane, rfl, rfl, rfl, rfl⟩

end

variable {capacities : Capacities} {s t : LaneState} {request : AcquireRequest}
  {acquirer : Acquirer}

theorem laneStep_acquireMany_cases
    (h : laneStep capacities s (.acquireMany request acquirer) = some t) :
    t = s ∨ exists expanded, Granted capacities s t request acquirer expanded := by
  simp only [laneStep] at h
  split at h
  · cases h
    exact Or.inl rfl
  · rename_i leases hanswer
    cases h
    rcases acquireMany_cases hanswer with ⟨_, rfl⟩ | ⟨_, _, hsome, _⟩
    · exact Or.inl rfl
    · cases hsome
  · rename_i lease leases hanswer
    cases h
    rcases acquireMany_cases hanswer with ⟨hnone, _⟩ | ⟨expanded, hexpand, hlease, hafter, hroom⟩
    · cases hnone
    injection hlease with hlease
    refine Or.inr ⟨expanded, hexpand, ?_, hafter, hroom⟩
    rw [hlease]

variable {op : LaneOp}

/-- A step either grants an acquire, or returns no new lease and adds no
holder to any known lane. -/
theorem laneStep_cases (h : laneStep capacities s op = some t) :
    (exists request acquirer expanded, Granted capacities s t request acquirer expanded) ∨
    (t.issued = s.issued ∧ Descends s.leases t.leases) := by
  cases op with
  | acquireMany request acquirer =>
    rcases laneStep_acquireMany_cases h with rfl | ⟨expanded, hgranted⟩
    · exact Or.inr ⟨rfl, Descends.refl _⟩
    · exact Or.inl ⟨request, acquirer, expanded, hgranted⟩
  | release lease =>
    rcases some_of_when h with ⟨_, rfl⟩
    exact Or.inr ⟨rfl, descends_release s.leases lease⟩
  | heartbeatByTask taskId ttlSec now =>
    cases h
    exact Or.inr ⟨rfl, descends_heartbeatByTask s.leases taskId ttlSec now⟩
  | reapDeadHolders gpuTasks probe =>
    cases h
    exact Or.inr ⟨rfl, descends_reapDeadHolders s.leases gpuTasks probe⟩
  | holdRoundLane roundId holder expires now =>
    cases h
    exact Or.inr ⟨rfl, descends_holdRoundLane s.leases roundId holder expires now⟩
  | dropRoundLane roundId =>
    cases h
    exact Or.inr ⟨rfl, descends_dropRoundLane s.leases roundId⟩

/-!
## Capacity
-/

theorem holdersOf_subset_of_descends {before after : Leases}
    (h : Descends before after) (lane : KnownLane) :
    holdersOf after (.known lane) ⊆ holdersOf before (.known lane) := by
  intro holder hholder
  rcases mem_holdersOf.mp hholder with ⟨row, hrow, hlane, hid⟩
  rcases h row lane hrow hlane with ⟨old, hold, holdLane, hsame⟩
  exact mem_holdersOf.mpr ⟨old, hold, holdLane, hsame.left.trans hid⟩

variable {leases : Leases} {lane : KnownLane}

theorem holdersOf_acquired {expanded : List KnownLane} (hnodup : expanded.Nodup) :
    holdersOf (leases.insertOrReplaceAll
        (expanded.map (acquiredRow request acquirer))) (.known lane) = if lane ∈ expanded then
        insert request.holderId (holdersOf leases (.known lane))
      else holdersOf leases (.known lane) := by
  ext holder
  rw [mem_holdersOf]
  constructor
  · intro h
    rcases h with ⟨row, hrow, hlane, hid⟩
    rcases (mem_acquired hnodup).mp hrow with ⟨new, hnew, rfl⟩ | ⟨hold, _⟩
    · have hnewLane : new = lane := by simpa [acquiredRow] using hlane
      rw [hnewLane] at hnew
      rw [if_pos hnew, Finset.mem_insert]
      exact Or.inl hid.symm
    · have hbefore : holder ∈ holdersOf leases (.known lane) :=
        mem_holdersOf.mpr ⟨row, hold, hlane, hid⟩
      split
      · exact Finset.mem_insert_of_mem hbefore
      · exact hbefore
  · intro h
    by_cases hlane : lane ∈ expanded
    · by_cases hid : holder = request.holderId
      · exact ⟨acquiredRow request acquirer lane,
          (mem_acquired hnodup).mpr (Or.inl ⟨lane, hlane, rfl⟩), rfl, hid.symm⟩
      · rw [if_pos hlane, Finset.mem_insert] at h
        rcases mem_holdersOf.mp (h.resolve_left hid) with ⟨row, hrow, hl, hrid⟩
        refine ⟨row, (mem_acquired hnodup).mpr (Or.inr ⟨hrow, ?_⟩), hl, hrid⟩
        intro hsame
        exact absurd (hrid.symm.trans hsame) hid
    · rw [if_neg hlane] at h
      rcases mem_holdersOf.mp h with ⟨row, hrow, hl, hrid⟩
      refine ⟨row, (mem_acquired hnodup).mpr (Or.inr ⟨hrow, ?_⟩), hl, hrid⟩
      intro _ other hother hrowLane
      have hsame : lane = other := by
        rw [hl] at hrowLane
        injection hrowLane
      rw [hsame] at hlane
      exact hlane hother

def WithinCapacity (capacities : Capacities) (leases : Leases) : Prop :=
  forall lane, (holdersOf leases (.known lane)).card ≤ capacityOf capacities (.known lane)

theorem withinCapacity_step (hs : WithinCapacity capacities s.leases)
    (h : laneStep capacities s op = some t) : WithinCapacity capacities t.leases := by
  intro lane
  rcases laneStep_cases h with ⟨request, acquirer, expanded, hexpand, _, hafter, hroom⟩ | ⟨_, hdesc⟩
  · rw [hafter, holdersOf_acquired (expandLanes_nodup hexpand)]
    split
    · rename_i hlane
      rcases laneRefuses_eq_false.mp (hroom lane hlane) with hmem | hlt
      · rw [Finset.insert_eq_of_mem hmem]
        exact hs lane
      · exact (Finset.card_insert_le _ _).trans hlt
    · exact hs lane
  · exact (Finset.card_le_card (holdersOf_subset_of_descends hdesc lane)).trans (hs lane)

theorem reachable_withinCapacity (hs : (laneMachine capacities).Reachable s) :
    WithinCapacity capacities s.leases := by
  refine Machine.ReachableWhere.invariant
    (I := fun s => WithinCapacity capacities s.leases) ?_ ?_ hs
  · intro start hstart lane
    rw [hstart]
    exact Nat.zero_le _
  · intro before op after hbefore _ hstep
    exact withinCapacity_step hbefore hstep

/-!
## Exclusion between conflicting lanes

An acquire asks for room on every lane that conflicts with a requested one, so
at capacity one it never meets another holder there.
-/

/-- The lanes that run on the machine's cards, each in conflict with the
others. -/
def servingLanes : List KnownLane :=
  [.serverLifecycle, .benchmarkLane, .profileLane, .gpuResearchLane]

variable {other : KnownLane}

theorem mem_laneConflicts_of_serving :
    lane ∈ servingLanes -> other ∈ servingLanes -> lane ≠ other -> other ∈ laneConflicts lane := by
  cases lane <;> cases other <;> decide

theorem serving_of_mem_laneConflicts : other ∈ laneConflicts lane -> other ∈ servingLanes := by
  cases lane <;> cases other <;> decide

/-- Two holders of conflicting lanes are the same. -/
def Exclusive (leases : Leases) : Prop :=
  forall lane other, other ∈ laneConflicts lane ->
    forall holder holder', holder ∈ holdersOf leases (.known lane) ->
      holder' ∈ holdersOf leases (.known other) -> holder = holder'

/-- Every lane in conflict with another admits one holder. -/
def SingleServing (capacities : Capacities) : Prop :=
  forall lane, lane ∈ servingLanes -> capacityOf capacities (.known lane) = 1

variable {holder : String}

theorem eq_of_granted_of_mem {requester : String}
    (hone : capacityOf capacities (.known lane) = 1) (hcap : WithinCapacity capacities leases)
    (hroom : laneRefuses capacities leases requester lane = false)
    (hholder : holder ∈ holdersOf leases (.known lane)) : requester = holder := by
  have hcard := hcap lane
  rw [hone] at hcard
  rcases laneRefuses_eq_false.mp hroom with hmem | hlt
  · exact Finset.card_le_one.mp hcard requester hmem holder hholder
  · rw [hone, Nat.lt_one_iff, Finset.card_eq_zero] at hlt
    rw [hlt] at hholder
    cases hholder

section

variable (hone : SingleServing capacities)

include hone

theorem exclusive_step (hcap : WithinCapacity capacities s.leases) (hs : Exclusive s.leases)
    (h : laneStep capacities s op = some t) : Exclusive t.leases := by
  intro lane other hconflict holder holder' hholder hholder'
  rcases laneStep_cases h with ⟨request, acquirer, expanded, hexpand, _, hafter, hroom⟩ | ⟨_, hdesc⟩
  · have hnodup := expandLanes_nodup hexpand
    have hclosed := expandLanes_conflictClosed hexpand
    rw [hafter, holdersOf_acquired hnodup] at hholder hholder'
    by_cases hlane : lane ∈ expanded
    · have hother := hclosed lane hlane other hconflict
      have holderIs : forall {l : KnownLane} {x : String}, l ∈ expanded ->
          l ∈ servingLanes -> x ∈ insert request.holderId (holdersOf s.leases (.known l)) ->
          x = request.holderId := by
        intro l x hl hserving hx
        rcases Finset.mem_insert.mp hx with heq | hmem
        · exact heq
        · exact (eq_of_granted_of_mem (hone l hserving) hcap (hroom l hl) hmem).symm
      rw [if_pos hlane] at hholder
      rw [if_pos hother] at hholder'
      rw [holderIs hlane (serving_of_mem_laneConflicts (laneConflicts_symm hconflict)) hholder,
        holderIs hother (serving_of_mem_laneConflicts hconflict) hholder']
    · have hother : ¬ other ∈ expanded := by
        intro hother
        exact hlane (hclosed other hother lane (laneConflicts_symm hconflict))
      rw [if_neg hlane] at hholder
      rw [if_neg hother] at hholder'
      exact hs lane other hconflict holder holder' hholder hholder'
  · exact hs lane other hconflict holder holder' (holdersOf_subset_of_descends hdesc lane hholder)
      (holdersOf_subset_of_descends hdesc other hholder')

theorem reachable_exclusive (hs : (laneMachine capacities).Reachable s) : Exclusive s.leases := by
  have hboth : WithinCapacity capacities s.leases ∧ Exclusive s.leases := by
    refine Machine.ReachableWhere.invariant
      (I := fun s => WithinCapacity capacities s.leases ∧ Exclusive s.leases) ?_ ?_ hs
    · intro start hstart
      rw [hstart]
      constructor
      · intro lane
        exact Nat.zero_le _
      · intro lane other _ holder _ hholder
        cases hholder
    · intro before op after hbefore _ hstep
      exact ⟨withinCapacity_step hbefore.left hstep,
        exclusive_step hone hbefore.left hbefore.right hstep⟩
  exact hboth.right

theorem serving_holder_unique
    (hs : (laneMachine capacities).Reachable s) (hlane : lane ∈ servingLanes)
    (hother : other ∈ servingLanes) {holder' : String}
    (hholder : holder ∈ holdersOf s.leases (.known lane))
    (hholder' : holder' ∈ holdersOf s.leases (.known other)) : holder = holder' := by
  by_cases hsame : lane = other
  · rw [← hsame] at hholder'
    have hcard := reachable_withinCapacity hs lane
    rw [hone lane hlane] at hcard
    exact Finset.card_le_one.mp hcard holder hholder holder' hholder'
  · exact reachable_exclusive hone hs lane other
      (mem_laneConflicts_of_serving hlane hother hsame) holder holder' hholder hholder'

end

/-!
## Conflicting lanes live and die together

A granted acquire writes the rows of a lane and of its conflicts with one pid
and one scope, and a lease lists them all, so only two things can part them: a
scope that changes while the rows of one acquire are written, and a
dead-holder pass whose probes disagree about one process.
-/

/-- Every row of a lane comes with a row of its owner on each conflicting
lane. -/
def CoHeld (leases : Leases) : Prop :=
  forall row lane, row ∈ leases -> row.lane = .known lane ->
    forall other, other ∈ laneConflicts lane ->
      exists mate, mate ∈ leases ∧ mate.lane = .known other ∧ SameOwner row mate

def IssuedClosed (issued : List Lease) : Prop :=
  forall lease, lease ∈ issued -> ConflictClosed lease.lanes

/-- The steps that read their surroundings consistently: an acquire sees one
scope, and the dead-holder pass judges the rows of one owner alike. -/
def Steady (s : LaneState) : LaneOp -> Prop
  | .acquireMany _ acquirer =>
    forall lane other, acquirer.scope lane = acquirer.scope other
  | .reapDeadHolders _ probe =>
    forall row mate, row ∈ s.leases -> mate ∈ s.leases ->
      SameOwner row mate -> holderIsDead (probe row) row = holderIsDead (probe mate) mate
  | _ => True

theorem spares_mate {lanes : List KnownLane} (hclosed : ConflictClosed lanes)
    {row mate : LeaseRow} (hlane : row.lane = .known lane)
    (hmateLane : mate.lane = .known other) (hother : other ∈ laneConflicts lane)
    (hsame : row.holderId = mate.holderId) (hspared : row.holderId = holder ->
      forall taken, taken ∈ lanes -> row.lane ≠ .known taken) :
    mate.holderId = holder -> forall taken, taken ∈ lanes -> mate.lane ≠ .known taken := by
  intro hholder taken htaken hmateTaken
  rw [hmateLane] at hmateTaken
  injection hmateTaken with hothertaken
  rw [← hothertaken] at htaken
  exact hspared (hsame.trans hholder) lane
    (hclosed other htaken lane (laneConflicts_symm hother)) hlane

section

variable (h : CoHeld leases)

include h

theorem coHeld_acquired {expanded : List KnownLane} (hnodup : expanded.Nodup)
    (hclosed : ConflictClosed expanded)
    (hscope : forall lane other, acquirer.scope lane = acquirer.scope other) :
    CoHeld (leases.insertOrReplaceAll (expanded.map (acquiredRow request acquirer))) := by
  intro row lane hrow hlane other hother
  rcases (mem_acquired hnodup).mp hrow with ⟨new, hnew, heq⟩ | ⟨hold, hkept⟩
  · have hnewLane : new = lane := by
      rw [heq] at hlane
      simpa [acquiredRow] using hlane
    rw [hnewLane] at hnew heq
    refine ⟨acquiredRow request acquirer other,
      (mem_acquired hnodup).mpr (Or.inl ⟨other, hclosed lane hnew other hother, rfl⟩), rfl, ?_⟩
    rw [heq]
    exact ⟨rfl, rfl, rfl, hscope lane other⟩
  · rcases h row lane hold hlane other hother with ⟨mate, hmate, hmateLane, hsame⟩
    have hmateKept := spares_mate hclosed hlane hmateLane hother hsame.left hkept
    exact ⟨mate, (mem_acquired hnodup).mpr (Or.inr ⟨hmate, hmateKept⟩), hmateLane, hsame⟩

theorem coHeld_release {lease : Lease} (hclosed : ConflictClosed lease.lanes) :
    CoHeld (release leases lease) := by
  intro row lane hrow hlane other hother
  rcases mem_release.mp hrow with ⟨hold, hkept⟩
  rcases h row lane hold hlane other hother with ⟨mate, hmate, hmateLane, hsame⟩
  have hmateKept := spares_mate hclosed hlane hmateLane hother hsame.left hkept
  exact ⟨mate, mem_release.mpr ⟨hmate, hmateKept⟩, hmateLane, hsame⟩

theorem coHeld_heartbeatByTask {taskId : String} {ttlSec : Int} {now : Unix} :
    CoHeld (heartbeatByTask leases taskId ttlSec now).snd := by
  intro row lane hrow hlane other hother
  rcases descends_heartbeatByTask leases taskId ttlSec now row lane hrow hlane
    with ⟨old, hold, holdLane, holdSame⟩
  rcases h old lane hold holdLane other hother with ⟨mate, hmate, hmateLane, hsame⟩
  have howner : SameOwner row mate := holdSame.symm.trans hsame
  by_cases htask : mate.taskId = taskId
  · exact ⟨{ mate with expiresAt := leaseIso (now + ttlSec) },
      mem_heartbeatByTask.mpr (Or.inr ⟨mate, hmate, htask, rfl⟩), hmateLane, howner⟩
  · exact ⟨mate, mem_heartbeatByTask.mpr (Or.inl ⟨hmate, htask⟩), hmateLane, howner⟩

theorem coHeld_reapDeadHolders {gpuTasks : List String} {probe : LeaseRow -> Probe}
    (hsteady : forall row mate, row ∈ leases -> mate ∈ leases ->
      SameOwner row mate -> holderIsDead (probe row) row = holderIsDead (probe mate) mate) :
    CoHeld (reapDeadHolders leases gpuTasks probe).snd := by
  intro row lane hrow hlane other hother
  rcases mem_reapDeadHolders.mp hrow with ⟨hold, hkept⟩
  rcases h row lane hold hlane other hother with ⟨mate, hmate, hmateLane, hsame⟩
  refine ⟨mate, mem_reapDeadHolders.mpr ⟨hmate, ?_⟩, hmateLane, hsame⟩
  have hverdict := hsteady row mate hold hmate hsame
  rw [reaps, ← hverdict, ← hsame.right.left]
  exact hkept

theorem coHeld_holdRoundLane {roundId : String} {expires now : Unix} :
    CoHeld (holdRoundLane leases roundId holder expires now) := by
  intro row lane hrow hlane other hother
  rcases descends_holdRoundLane leases roundId holder expires now row lane hrow
    hlane with ⟨old, hold, holdLane, holdSame⟩
  rcases h old lane hold holdLane other hother with ⟨mate, hmate, hmateLane, hsame⟩
  have howner : SameOwner row mate := holdSame.symm.trans hsame
  exact ⟨mate, mem_holdRoundLane.mpr (Or.inl ⟨hmate, key_ne_of_known hmateLane roundId⟩),
    hmateLane, howner⟩

theorem coHeld_dropRoundLane {roundId : String} : CoHeld (dropRoundLane leases roundId) := by
  intro row lane hrow hlane other hother
  rcases h row lane (mem_dropRoundLane.mp hrow).left hlane other hother with
    ⟨mate, hmate, hmateLane, hsame⟩
  exact ⟨mate, mem_dropRoundLane.mpr ⟨hmate, key_ne_of_known hmateLane roundId⟩, hmateLane, hsame⟩

end

theorem issuedClosed_step (hs : IssuedClosed s.issued)
    (h : laneStep capacities s op = some t) : IssuedClosed t.issued := by
  rcases laneStep_cases h with ⟨request, acquirer, expanded, hexpand, hissued, _⟩ | ⟨hissued, _⟩
  · rw [hissued]
    intro lease hlease
    rcases List.mem_cons.mp hlease with rfl | hmem
    · exact expandLanes_conflictClosed hexpand
    · exact hs lease hmem
  · rw [hissued]
    exact hs

theorem coHeld_step (hissued : IssuedClosed s.issued) (hs : CoHeld s.leases)
    (hsteady : Steady s op) (h : laneStep capacities s op = some t) : CoHeld t.leases := by
  cases op with
  | acquireMany request acquirer =>
    rcases laneStep_acquireMany_cases h with rfl | ⟨expanded, hexpand, _, hafter, _⟩
    · exact hs
    · rw [hafter]
      exact coHeld_acquired hs (expandLanes_nodup hexpand)
        (expandLanes_conflictClosed hexpand) hsteady
  | release lease =>
    rcases some_of_when h with ⟨hmem, rfl⟩
    exact coHeld_release hs (hissued lease hmem)
  | heartbeatByTask taskId ttlSec now =>
    cases h
    exact coHeld_heartbeatByTask hs
  | reapDeadHolders gpuTasks probe =>
    cases h
    exact coHeld_reapDeadHolders hs hsteady
  | holdRoundLane roundId holder expires now =>
    cases h
    exact coHeld_holdRoundLane hs
  | dropRoundLane roundId =>
    cases h
    exact coHeld_dropRoundLane hs

theorem steady_coHeld (hs : (laneMachine capacities).ReachableWhere Steady s) :
    CoHeld s.leases := by
  have hboth : IssuedClosed s.issued ∧ CoHeld s.leases := by
    refine Machine.ReachableWhere.invariant
      (I := fun s => IssuedClosed s.issued ∧ CoHeld s.leases) ?_ ?_ hs
    · intro start hstart
      rw [hstart]
      constructor
      · nofun
      · intro row lane hrow
        cases hrow
    · intro before op after hbefore hsteady hstep
      exact ⟨issuedClosed_step hbefore.left hstep,
        coHeld_step hbefore.left hbefore.right hsteady hstep⟩
  exact hboth.right

theorem serving_all_of_coHeld (h : CoHeld leases) (hlane : lane ∈ servingLanes)
    (hother : other ∈ servingLanes) (hholder : holder ∈ holdersOf leases (.known lane)) :
    holder ∈ holdersOf leases (.known other) := by
  by_cases hsame : lane = other
  · rw [← hsame]
    exact hholder
  · rcases mem_holdersOf.mp hholder with ⟨row, hrow, hrowLane, hid⟩
    rcases h row lane hrow hrowLane other (mem_laneConflicts_of_serving hlane hother hsame) with
      ⟨mate, hmate, hmateLane, howner⟩
    exact mem_holdersOf.mpr ⟨mate, hmate, hmateLane, howner.left.symm.trans hid⟩

/-!
## The exclusion theorem

A bring-up round takes its lane outside `acquire_many`, so that lane is not
bounded by a capacity: several rounds may hold it side by side.
-/

def Owns (leases : Leases) (holder : String) (lane : Lane) : Prop := holder ∈ holdersOf leases lane

instance (leases : Leases) (holder : String) (lane : Lane) : Decidable (Owns leases holder lane) :=
  inferInstanceAs (Decidable (holder ∈ holdersOf leases lane))

theorem lane_exclusion (capacities : Capacities) :
    (forall s, (laneMachine capacities).Reachable s ->
      (forall lane, lane ≠ .bringupRound ->
        (holdersOf s.leases lane).card ≤ capacityOf capacities lane) ∧
      (SingleServing capacities ->
        forall lane other, lane ∈ servingLanes -> other ∈ servingLanes ->
          forall holder holder', Owns s.leases holder (.known lane) ->
            Owns s.leases holder' (.known other) -> holder = holder')) ∧
    (forall s, (laneMachine capacities).ReachableWhere Steady s ->
      forall holder, (forall lane, lane ∈ servingLanes -> Owns s.leases holder (.known lane)) ∨
        (forall lane, lane ∈ servingLanes -> ¬ Owns s.leases holder (.known lane))) ∧
    (forall leases after request acquirer,
      acquireMany capacities leases request acquirer = .ok (none, after) -> after = leases) := by
  refine ⟨?_, ?_, ?_⟩
  · intro s hs
    constructor
    · intro lane hlane
      cases lane with
      | known lane => exact reachable_withinCapacity hs lane
      | bringupRound => exact absurd rfl hlane
    · intro hone lane other hlane hother holder holder' hholder hholder'
      exact serving_holder_unique hone hs hlane hother hholder hholder'
  · intro s hs holder
    have hcoHeld := steady_coHeld hs
    by_cases hsome : exists lane, lane ∈ servingLanes ∧ Owns s.leases holder (.known lane)
    · rcases hsome with ⟨lane, hlane, howns⟩
      apply Or.inl
      intro other hother
      exact serving_all_of_coHeld hcoHeld hlane hother howns
    · apply Or.inr
      intro lane hlane howns
      exact hsome ⟨lane, hlane, howns⟩
  · intro leases after request acquirer h
    rcases acquireMany_cases h with ⟨_, hsame⟩ | ⟨_, _, hsome, _⟩
    · exact hsame
    · cases hsome

def benchmarkAcquire : LaneOp :=
  .acquireMany
    { lanes := ["benchmark_lane"], holderId := "t", taskId := "t",
      action := "benchmark", ttlSec := 60 }
    { pid := 7, now := 0, stamp := ⟨0⟩, scope := fun _ => "boot:7:1" }

/-- A dead-holder pass during which pid 7 exits: its first row is probed before
and the others after. -/
def splitReap : LaneOp :=
  .reapDeadHolders [] (fun row =>
    { localScope := "boot:7:1"
      pidAlive := fun _ => row.lane = .known .benchmarkLane })

theorem lane_exclusion_benchmark :
    exists s, (laneMachine defaultLaneCapacities).ReachableWhere Steady s ∧
      Owns s.leases "t" (.known .benchmarkLane) ∧
      forall lane, lane ∈ servingLanes -> Owns s.leases "t" (.known lane) := by
  have hstep :
      exists s, (laneMachine defaultLaneCapacities).ReachableWhere Steady s ∧
        Owns s.leases "t" (.known .benchmarkLane) := by
    refine ⟨_, ⟨_, [benchmarkAcquire], rfl, Machine.Run.cons ?_ rfl (Machine.Run.nil _)⟩, ?_⟩
    · intro lane other
      rfl
    · decide
  rcases hstep with ⟨s, hs, howns⟩
  refine ⟨s, hs, howns, ?_⟩
  rcases (lane_exclusion defaultLaneCapacities).right.left s hs "t" with
    hall | hnone
  · exact hall
  · exact absurd howns (hnone .benchmarkLane (by decide))

theorem lane_exclusion_needs_restriction :
    (exists s, (laneMachine defaultLaneCapacities).Reachable s ∧
      capacityOf defaultLaneCapacities .bringupRound < (holdersOf s.leases .bringupRound).card) ∧
    (exists s, (laneMachine defaultLaneCapacities).Reachable s ∧
      Owns s.leases "t" (.known .benchmarkLane) ∧
      ¬ Owns s.leases "t" (.known .serverLifecycle)) := by
  constructor
  · exact Machine.ReachableWhere.exists_of_runIf _
      [.holdRoundLane "r1" "t1" 60 0, .holdRoundLane "r2" "t2" 60 0] rfl (by decide)
  · exact Machine.ReachableWhere.exists_of_runIf _ [benchmarkAcquire, splitReap] rfl (by decide)

end Bus
end Hyperloom
