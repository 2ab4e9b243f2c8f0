import Mathlib.Data.List.Dedup
import Mathlib.Data.List.Sort
import Hyperloom.Library.Machine
import Hyperloom.Storage.Schema

/-!
# The GPU pool

`SpecialistGpuPool` hands out the GPU ids of one pool.  Every pool of a session
keeps its leases in the one `gpu_leases` table, and each call is one
transaction on it.
-/

namespace Hyperloom
namespace Bus

open Library Storage

/-!
## Pools and leases
-/

/-- `SpecialistGpuPool.gpu_ids`: distinct ids that are not negative. -/
structure GpuPool where
  gpuIds : List Int
  nodup : gpuIds.Nodup
  nonneg : forall gpuId, gpuId ∈ gpuIds -> 0 ≤ gpuId

/-- `dict.fromkeys`: the first occurrence of each element. -/
def fromkeys (ids : List Int) : List Int := ids.reverse.dedup.reverse

/-- `SpecialistGpuPool.__init__`. -/
def GpuPool.ofIds (ids : List Int) : GpuPool where
  gpuIds := fromkeys (ids.filter (fun gpuId => 0 ≤ gpuId))
  nodup := List.nodup_reverse.mpr (List.nodup_dedup _)
  nonneg := by
    intro gpuId h
    unfold fromkeys at h
    rw [List.mem_reverse, List.mem_dedup, List.mem_reverse, List.mem_filter] at h
    exact of_decide_eq_true h.right

variable (pool : GpuPool)

def GpuPool.capacity : Nat := pool.gpuIds.length

structure GpuLease where
  holderId : String
  taskId : String
  gpuIds : List Int
deriving DecidableEq

inductive GpuError where
  | uniqueConstraint
deriving DecidableEq

/-!
## The calls
-/

def leasedTo (holderId taskId : String) (row : GpuLeaseRow) : Bool :=
  decide (row.holderId = holderId) && decide (row.taskId = taskId)

variable (leases : GpuLeases)

/-- The ids a holder has for a task, in the order of the table's integer key. -/
def heldIds (holderId taskId : String) : List Int :=
  ((leases.rows.filter (leasedTo holderId taskId)).map
    GpuLeaseRow.gpuId).insertionSort (fun a b => a ≤ b)

def isLeased (gpuId : Int) : Bool :=
  leases.rows.any (fun row => row.gpuId = gpuId)

/-- Insert a row for each id; a taken id refuses the transaction. -/
def insertLeases (holderId taskId : String) : GpuLeases -> List Int -> Except GpuError GpuLeases
  | leases, [] => .ok leases
  | leases, gpuId :: rest =>
    match leases.insertNew ⟨gpuId, holderId, taskId⟩ with
    | none => .error .uniqueConstraint
    | some leases => insertLeases holderId taskId leases rest

/-- Whether the ids held satisfy a request: as many as asked for, all of them
in the pool. -/
def GpuPool.satisfied (held : List Int) (n : Nat) : Bool :=
  decide (held.length = n) && held.all (fun gpuId => gpuId ∈ pool.gpuIds)

variable (leases : GpuLeases)

def GpuPool.available : List Int :=
  pool.gpuIds.filter (fun gpuId => !isLeased leases gpuId)

variable (holderId taskId : String)

/-- The table after `try_acquire` has dropped a lease that does not satisfy the
request. -/
def dropStale : GpuLeases :=
  if heldIds leases holderId taskId = [] then leases
  else leases.deleteWhere (leasedTo holderId taskId)

/-- The fresh acquire at the end of `try_acquire`. -/
def GpuPool.acquireFresh (n : Nat)
    (holderId taskId : String) : Except GpuError (Option GpuLease × GpuLeases) :=
  if (pool.available leases).length < n then .ok (none, leases)
  else
    match insertLeases holderId taskId leases ((pool.available leases).take n) with
    | .error e => .error e
    | .ok after =>
      .ok (some ⟨holderId, taskId, (pool.available leases).take n⟩, after)

def GpuPool.tryAcquire (count : Int)
    (holderId taskId : String) : Except GpuError (Option GpuLease × GpuLeases) :=
  if count ≤ 0 ∨ (pool.capacity : Int) < count then .ok (none, leases)
  else if heldIds leases holderId taskId ≠ [] ∧
      pool.satisfied (heldIds leases holderId taskId) count.toNat = true then
    .ok (some ⟨holderId, taskId, heldIds leases holderId taskId⟩, leases)
  else
    pool.acquireFresh (dropStale leases holderId taskId) count.toNat holderId taskId

def rayObsIdBase : Int := 100000

/-- The first free synthetic id below the limit. -/
def raySlot (limit : Nat) : Option Int :=
  ((List.range limit).map (fun i : Nat => rayObsIdBase + (i : Int))).find?
    (fun gpuId => !isLeased leases gpuId)

def GpuPool.tryAcquireRayObservation (pendingLimit : Int) :
    Except GpuError (Option GpuLease × GpuLeases) :=
  match raySlot leases (max 1 pendingLimit).toNat with
  | none => .ok (none, leases)
  | some slot =>
    match insertLeases holderId taskId leases [slot] with
    | .error e => .error e
    | .ok after => .ok (some ⟨holderId, taskId, [slot]⟩, after)

def GpuPool.releases (lease : GpuLease) (row : GpuLeaseRow) : Bool :=
  decide (row.gpuId ∈ lease.gpuIds) && decide (row.holderId = lease.holderId)

def GpuPool.release : Option GpuLease -> GpuLeases
  | none => leases
  | some lease =>
    if lease.gpuIds = [] then leases
    else leases.deleteWhere (GpuPool.releases lease)

inductive GpuOp where
  | acquire (pool : GpuPool) (count : Int) (holderId taskId : String)
  | rayObservation (holderId taskId : String) (pendingLimit : Int)
  | release (lease : Option GpuLease)

/-- What a call answers and leaves behind; one that raises is rolled back. -/
def GpuOp.run : GpuOp -> Except GpuError (Option GpuLease × GpuLeases)
  | .acquire pool count holderId taskId =>
    pool.tryAcquire leases count holderId taskId
  | .rayObservation holderId taskId pendingLimit =>
    GpuPool.tryAcquireRayObservation leases holderId taskId pendingLimit
  | .release lease => .ok (none, GpuPool.release leases lease)

def gpuMachine : Machine GpuLeases GpuOp where
  init _ := True
  step leases op :=
    match op.run leases with
    | .error _ => some leases
    | .ok (_, after) => some after

/-!
## Rows and ids
-/

variable {holderId taskId : String} {row : GpuLeaseRow}

theorem leasedTo_eq_true :
    leasedTo holderId taskId row = true <-> row.holderId = holderId ∧ row.taskId = taskId := by
  unfold leasedTo
  rw [Bool.and_eq_true, decide_eq_true_eq, decide_eq_true_eq]

variable {leases : GpuLeases} {gpuId : Int}

theorem isLeased_eq_false :
    isLeased leases gpuId = false <-> forall row, row ∈ leases -> row.gpuId ≠ gpuId := by
  unfold isLeased
  simp [Table.mem_rows]

theorem mem_heldIds :
    gpuId ∈ heldIds leases holderId taskId <-> ⟨gpuId, holderId, taskId⟩ ∈ leases := by
  unfold heldIds
  rw [List.mem_insertionSort, List.mem_map]
  constructor
  · intro h
    rcases h with ⟨row, hrow, rfl⟩
    rcases List.mem_filter.mp hrow with ⟨hmem, hleased⟩
    rcases leasedTo_eq_true.mp hleased with ⟨rfl, rfl⟩
    exact hmem
  · intro h
    refine ⟨⟨gpuId, holderId, taskId⟩, List.mem_filter.mpr ⟨h, ?_⟩, rfl⟩
    exact leasedTo_eq_true.mpr ⟨rfl, rfl⟩

theorem nodup_heldIds (leases : GpuLeases) (holderId taskId : String) :
    (heldIds leases holderId taskId).Nodup := by
  unfold heldIds
  rw [(List.perm_insertionSort _ _).nodup_iff]
  exact leases.unique.sublist (List.filter_sublist.map GpuLeaseRow.gpuId)

variable {pool : GpuPool}

theorem mem_available :
    gpuId ∈ pool.available leases <->
      gpuId ∈ pool.gpuIds ∧ forall row, row ∈ leases -> row.gpuId ≠ gpuId := by
  unfold GpuPool.available
  rw [List.mem_filter, Bool.not_eq_true', isLeased_eq_false]

theorem satisfied_eq_true {held : List Int} {n : Nat} :
    pool.satisfied held n = true <->
      held.length = n ∧ forall gpuId, gpuId ∈ held -> gpuId ∈ pool.gpuIds := by
  unfold GpuPool.satisfied
  rw [Bool.and_eq_true, List.all_eq_true]
  simp only [decide_eq_true_eq]

theorem mem_dropStale :
    row ∈ dropStale leases holderId taskId <->
      row ∈ leases ∧ leasedTo holderId taskId row = false := by
  unfold dropStale
  split
  · rename_i hnone
    constructor
    · intro hrow
      refine ⟨hrow, ?_⟩
      by_contra hleased
      rw [Bool.not_eq_false, leasedTo_eq_true] at hleased
      rcases hleased with ⟨hholder, htask⟩
      have hheld : row.gpuId ∈ heldIds leases holderId taskId := by
        rw [mem_heldIds, ← hholder, ← htask]
        exact hrow
      rw [hnone] at hheld
      exact List.not_mem_nil hheld
    · intro h
      exact h.left
  · exact Table.mem_deleteWhere

variable {after : GpuLeases} {ids : List Int}

theorem mem_insertLeases (h : insertLeases holderId taskId leases ids = .ok after)
    (row : GpuLeaseRow) :
    row ∈ after <->
      row ∈ leases ∨ (row.gpuId ∈ ids ∧ row.holderId = holderId ∧ row.taskId = taskId) := by
  induction ids generalizing leases with
  | nil =>
    cases h
    simp
  | cons gpuId rest ih =>
    rw [insertLeases] at h
    split at h
    · cases h
    rename_i next hinsert
    rw [ih h, Table.mem_insertNew hinsert, List.mem_cons]
    constructor
    · intro hcase
      rcases hcase with (rfl | hold) | ⟨hid, hrest⟩
      · exact Or.inr ⟨Or.inl rfl, rfl, rfl⟩
      · exact Or.inl hold
      · exact Or.inr ⟨Or.inr hid, hrest⟩
    · intro hcase
      rcases hcase with hold | ⟨hid | hid, hholder, htask⟩
      · exact Or.inl (Or.inr hold)
      · rw [← hid, ← hholder, ← htask]
        exact Or.inl (Or.inl rfl)
      · exact Or.inr ⟨hid, hholder, htask⟩

theorem insertLeases_of_free {holderId taskId : String} {leases : GpuLeases}
    {ids : List Int} (hnodup : ids.Nodup)
    (hfree : forall gpuId, gpuId ∈ ids -> forall row, row ∈ leases -> row.gpuId ≠ gpuId) :
    exists after, insertLeases holderId taskId leases ids = .ok after := by
  induction ids generalizing leases with
  | nil => exact ⟨leases, rfl⟩
  | cons gpuId rest ih =>
    rw [List.nodup_cons] at hnodup
    rw [insertLeases]
    cases hinsert : leases.insertNew ⟨gpuId, holderId, taskId⟩ with
    | none =>
      rcases Table.insertNew_eq_none.mp hinsert with ⟨row, hrow, htaken⟩
      exact absurd htaken (hfree gpuId List.mem_cons_self row hrow)
    | some next =>
      apply ih hnodup.right
      intro other hother row hrow
      rcases (Table.mem_insertNew hinsert).mp hrow with rfl | hold
      · intro heq
        change gpuId = other at heq
        rw [heq] at hnodup
        exact hnodup.left hother
      · exact hfree other (List.mem_cons_of_mem gpuId hother) row hold

/-!
## What an acquire does
-/

/-- The holder has rows for the task that do not satisfy the request. -/
def StaleLease (pool : GpuPool) (leases : GpuLeases) (count : Int)
    (holderId taskId : String) : Prop :=
  heldIds leases holderId taskId ≠ [] ∧
    pool.satisfied (heldIds leases holderId taskId) count.toNat = false

/-- The ways `try_acquire` ends. -/
inductive AcquireEffect (pool : GpuPool) (leases : GpuLeases) (count : Int)
    (holderId taskId : String) : Option GpuLease -> GpuLeases -> Prop where
  | outOfRange : AcquireEffect pool leases count holderId taskId none leases
  | held : 0 < count -> heldIds leases holderId taskId ≠ [] ->
    pool.satisfied (heldIds leases holderId taskId) count.toNat = true ->
    AcquireEffect pool leases count holderId taskId
      (some ⟨holderId, taskId, heldIds leases holderId taskId⟩) leases
  | full : (heldIds leases holderId taskId = [] ∨ StaleLease pool leases count holderId taskId) ->
    AcquireEffect pool leases count holderId taskId none (dropStale leases holderId taskId)
  | granted {ids : List Int} {after : GpuLeases} : 0 < count ->
    ids.Nodup -> ids.length = count.toNat ->
    (forall gpuId, gpuId ∈ ids -> gpuId ∈ pool.available (dropStale leases holderId taskId)) ->
    insertLeases holderId taskId (dropStale leases holderId taskId) ids = .ok after ->
    AcquireEffect pool leases count holderId taskId (some ⟨holderId, taskId, ids⟩) after

/-- The free ids of the pool are enough for the fresh acquire or it is refused;
it never raises. -/
theorem acquireFresh_effect (pool : GpuPool) (leases : GpuLeases) (n : Nat)
    (holderId taskId : String) : (pool.acquireFresh leases n holderId taskId = .ok (none, leases)) ∨
    exists ids after,
      pool.acquireFresh leases n holderId taskId = .ok (some ⟨holderId, taskId, ids⟩, after) ∧
      ids.Nodup ∧ ids.length = n ∧ (forall gpuId, gpuId ∈ ids -> gpuId ∈ pool.available leases) ∧
      insertLeases holderId taskId leases ids = .ok after := by
  unfold GpuPool.acquireFresh
  by_cases hfew : (pool.available leases).length < n
  · rw [if_pos hfew]
    exact Or.inl rfl
  · have hnodup : ((pool.available leases).take n).Nodup :=
      pool.nodup.sublist ((List.take_sublist _ _).trans List.filter_sublist)
    have hmem : forall gpuId, gpuId ∈ (pool.available leases).take n ->
        gpuId ∈ pool.available leases :=
      fun gpuId h => List.mem_of_mem_take h
    have hfree : forall gpuId, gpuId ∈ (pool.available leases).take n ->
        forall row, row ∈ leases -> row.gpuId ≠ gpuId :=
      fun gpuId h => (mem_available.mp (hmem gpuId h)).right
    rcases @insertLeases_of_free holderId taskId leases _ hnodup hfree with ⟨after, hinsert⟩
    have hlength : ((pool.available leases).take n).length = n := by
      rw [List.length_take]
      lia
    rw [if_neg hfew, hinsert]
    exact Or.inr ⟨_, after, rfl, hnodup, hlength, hmem, hinsert⟩

theorem tryAcquire_effect (pool : GpuPool) (leases : GpuLeases) (count : Int)
    (holderId taskId : String) :
    exists answer after, pool.tryAcquire leases count holderId taskId = .ok (answer, after) ∧
      AcquireEffect pool leases count holderId taskId answer after := by
  unfold GpuPool.tryAcquire
  split
  · exact ⟨none, leases, rfl, AcquireEffect.outOfRange⟩
  · have hpos : 0 < count := by lia
    split
    · rename_i hheld
      exact ⟨_, leases, rfl, AcquireEffect.held hpos hheld.left hheld.right⟩
    · rename_i hstale
      rcases acquireFresh_effect pool (dropStale leases holderId taskId)
        count.toNat holderId taskId with hfull | ⟨ids, after, hok, hnodup, hlength, hmem, hinsert⟩
      · refine ⟨none, _, hfull, AcquireEffect.full ?_⟩
        by_cases hnone : heldIds leases holderId taskId = []
        · exact Or.inl hnone
        · exact Or.inr ⟨hnone, Bool.eq_false_of_not_eq_true (fun hsat => hstale ⟨hnone, hsat⟩)⟩
      · exact ⟨_, after, hok, AcquireEffect.granted hpos hnodup hlength hmem hinsert⟩

/-- The rows a granted acquire leaves: those of other holders and tasks, and
the granted ids. -/
theorem mem_granted (h : insertLeases holderId taskId (dropStale leases holderId taskId) ids =
      .ok after) (row : GpuLeaseRow) :
    row ∈ after <-> (row ∈ leases ∧ leasedTo holderId taskId row = false) ∨
        (row.gpuId ∈ ids ∧ row.holderId = holderId ∧ row.taskId = taskId) := by
  rw [mem_insertLeases h, mem_dropStale]

theorem heldIds_granted (hnodup : ids.Nodup)
    (h : insertLeases holderId taskId (dropStale leases holderId taskId) ids =
      .ok after) : (heldIds after holderId taskId).Perm ids := by
  apply (List.perm_ext_iff_of_nodup (nodup_heldIds _ _ _) hnodup).mpr
  intro gpuId
  rw [mem_heldIds, mem_granted h]
  constructor
  · intro hcase
    rcases hcase with ⟨_, hother⟩ | ⟨hid, _⟩
    · have hleased : leasedTo holderId taskId ⟨gpuId, holderId, taskId⟩ = true :=
        leasedTo_eq_true.mpr ⟨rfl, rfl⟩
      rw [hleased] at hother
      cases hother
    · exact hid
  · intro hid
    exact Or.inr ⟨hid, rfl, rfl⟩

/-- What a granted lease is: as many distinct ids of the pool as were asked
for, all of them the holder's. -/
structure GpuGrant (pool : GpuPool) (count : Int) (holderId taskId : String)
    (lease : GpuLease) (after : GpuLeases) : Prop where
  holder : lease.holderId = holderId
  task : lease.taskId = taskId
  length : (lease.gpuIds.length : Int) = count
  nodup : lease.gpuIds.Nodup
  inPool : forall gpuId, gpuId ∈ lease.gpuIds -> gpuId ∈ pool.gpuIds
  owned : forall gpuId, gpuId ∈ lease.gpuIds -> ⟨gpuId, holderId, taskId⟩ ∈ after
  held : (heldIds after holderId taskId).Perm lease.gpuIds

variable {count : Int} {lease : GpuLease}

theorem AcquireEffect.of_some
    (h : AcquireEffect pool leases count holderId taskId (some lease) after) :
    0 < count ∧ GpuGrant pool count holderId taskId lease after := by
  cases h with
  | held hpos _ hsatisfied =>
    rcases satisfied_eq_true.mp hsatisfied with ⟨hlength, hpool⟩
    refine ⟨hpos, ?_⟩
    exact
      { holder := rfl
        task := rfl
        length := by
          lia
        nodup := nodup_heldIds leases holderId taskId
        inPool := hpool
        owned := fun gpuId hid => mem_heldIds.mp hid
        held := List.Perm.refl _ }
  | @granted ids _ hpos hnodup hlength hmem hinsert =>
    refine ⟨hpos, ?_⟩
    exact
      { holder := rfl
        task := rfl
        length := by
          lia
        nodup := hnodup
        inPool := fun gpuId hid => (mem_available.mp (hmem gpuId hid)).left
        owned := fun gpuId hid => (mem_granted hinsert _).mpr (Or.inr ⟨hid, rfl, rfl⟩)
        held := heldIds_granted hnodup hinsert }

theorem tryAcquire_of_satisfied (hne : heldIds leases holderId taskId ≠ [])
    (hsatisfied : pool.satisfied (heldIds leases holderId taskId) count.toNat = true) :
    pool.tryAcquire leases count holderId taskId =
      .ok (some ⟨holderId, taskId, heldIds leases holderId taskId⟩, leases) := by
  rcases satisfied_eq_true.mp hsatisfied with ⟨hlength, hpool⟩
  have hpos := List.length_pos_iff.mpr hne
  have hcapacity : (heldIds leases holderId taskId).length ≤ pool.capacity :=
    (List.subperm_of_subset (nodup_heldIds _ _ _) hpool).length_le
  unfold GpuPool.tryAcquire
  rw [if_neg (by lia), if_pos ⟨hne, hsatisfied⟩]

theorem tryAcquire_again (hpos : 0 < count) (h : GpuGrant pool count holderId taskId lease after) :
    exists again, pool.tryAcquire after count holderId taskId = .ok (some again, after) ∧
      again.gpuIds.Perm lease.gpuIds := by
  have hlength := h.held.length_eq
  have hcount := h.length
  have hne : heldIds after holderId taskId ≠ [] := by
    intro hnil
    rw [hnil, List.length_nil] at hlength
    lia
  have hsatisfied : pool.satisfied (heldIds after holderId taskId) count.toNat = true := by
    rw [satisfied_eq_true]
    constructor
    · lia
    · intro gpuId hid
      exact h.inPool gpuId (h.held.mem_iff.mp hid)
  exact ⟨_, tryAcquire_of_satisfied hne hsatisfied, h.held⟩

theorem AcquireEffect.of_none (h : AcquireEffect pool leases count holderId taskId none after)
    (hfresh : ¬ StaleLease pool leases count holderId taskId) : after = leases := by
  cases h with
  | outOfRange => rfl
  | full hcase =>
    rcases hcase with hnone | hstale
    · unfold dropStale
      rw [if_pos hnone]
    · exact absurd hstale hfresh

theorem AcquireEffect.keeps {answer : Option GpuLease}
    (h : AcquireEffect pool leases count holderId taskId answer after)
    (hrow : row ∈ leases) (hother : leasedTo holderId taskId row = false) : row ∈ after := by
  cases h with
  | full _ => exact mem_dropStale.mpr ⟨hrow, hother⟩
  | granted _ _ _ _ hinsert =>
    exact (mem_granted hinsert row).mpr (Or.inl ⟨hrow, hother⟩)
  | _ => exact hrow

/-!
## What an observation and a release do
-/

theorem raySlot_eq_some {limit : Nat} {slot : Int} (h : raySlot leases limit = some slot) :
    (exists i, i < limit ∧ slot = rayObsIdBase + (i : Int)) ∧
      forall row, row ∈ leases -> row.gpuId ≠ slot := by
  have hmem := List.mem_of_find?_eq_some h
  have hfree := List.find?_some h
  rw [Bool.not_eq_true', isLeased_eq_false] at hfree
  rw [List.mem_map] at hmem
  rcases hmem with ⟨i, hi, hslot⟩
  exact ⟨⟨i, List.mem_range.mp hi, hslot.symm⟩, hfree⟩

/-- What an observation answers: one synthetic id below the limit that no row
held, or nothing. -/
inductive RayEffect (leases : GpuLeases) (holderId taskId : String)
    (limit : Nat) : Option GpuLease -> GpuLeases -> Prop where
  | refused : RayEffect leases holderId taskId limit none leases
  | granted {i : Nat} {after : GpuLeases} : i < limit ->
    (forall row, row ∈ leases -> row.gpuId ≠ rayObsIdBase + (i : Int)) ->
    (forall row, row ∈ after <-> row ∈ leases ∨
      row = ⟨rayObsIdBase + (i : Int), holderId, taskId⟩) -> RayEffect leases holderId taskId limit
      (some ⟨holderId, taskId, [rayObsIdBase + (i : Int)]⟩) after

theorem tryAcquireRayObservation_effect (leases : GpuLeases)
    (holderId taskId : String) (pendingLimit : Int) :
    exists answer after,
      GpuPool.tryAcquireRayObservation leases holderId taskId pendingLimit = .ok (answer, after) ∧
      RayEffect leases holderId taskId (max 1 pendingLimit).toNat answer after := by
  unfold GpuPool.tryAcquireRayObservation
  split
  · exact ⟨none, leases, rfl, RayEffect.refused⟩
  · rename_i slot hslot
    rcases raySlot_eq_some hslot with ⟨⟨i, hi, heq⟩, hfree⟩
    have hinsert := @insertLeases_of_free holderId taskId leases [slot] (List.nodup_singleton slot)
      (fun gpuId hid => by rw [List.mem_singleton.mp hid]; exact hfree)
    rcases hinsert with ⟨after, hinsert⟩
    rw [hinsert]
    rw [heq] at hfree hinsert ⊢
    refine ⟨_, after, rfl, RayEffect.granted hi hfree ?_⟩
    intro row
    rw [mem_insertLeases hinsert row, List.mem_singleton]
    apply or_congr_right
    constructor
    · intro h
      rcases h with ⟨hid, rfl, rfl⟩
      rw [← hid]
    · intro h
      rw [h]
      exact ⟨rfl, rfl, rfl⟩

theorem mem_gpuRelease (hrow : row ∈ leases) (hother : row.holderId ≠ lease.holderId) :
    row ∈ GpuPool.release leases (some lease) := by
  unfold GpuPool.release
  dsimp only
  split
  · exact hrow
  · rw [Table.mem_deleteWhere]
    refine ⟨hrow, ?_⟩
    unfold GpuPool.releases
    rw [decide_eq_false hother, Bool.and_false]

/-!
## Safety of the shared table
-/

/-- Whether a call is by the holder of a row: an acquire for its holder and
task, or the release of a lease of its holder. -/
def GpuOp.touches (row : GpuLeaseRow) : GpuOp -> Prop
  | .acquire _ _ holderId taskId => leasedTo holderId taskId row = true
  | .rayObservation _ _ _ => False
  | .release none => False
  | .release (some lease) => row.holderId = lease.holderId

def CallSafe (leases : GpuLeases) (op : GpuOp) (answer : Option GpuLease)
    (after : GpuLeases) : Prop :=
  match op with
  | .acquire pool count holderId taskId =>
    (forall lease, answer = some lease -> GpuGrant pool count holderId taskId lease after ∧
      exists again, pool.tryAcquire after count holderId taskId = .ok (some again, after) ∧
        again.gpuIds.Perm lease.gpuIds) ∧
    (answer = none -> ¬ StaleLease pool leases count holderId taskId -> after = leases) ∧
    (heldIds leases holderId taskId ≠ [] ->
      pool.satisfied (heldIds leases holderId taskId) count.toNat = true ->
      answer = some ⟨holderId, taskId, heldIds leases holderId taskId⟩ ∧ after = leases)
  | .rayObservation holderId taskId pendingLimit =>
    RayEffect leases holderId taskId (max 1 pendingLimit).toNat answer after
  | .release _ => answer = none

theorem run_safe (leases : GpuLeases) (op : GpuOp) :
    exists answer after, op.run leases = .ok (answer, after) ∧ CallSafe leases op answer after ∧
      forall row, row ∈ leases -> ¬ op.touches row -> row ∈ after := by
  cases op with
  | acquire pool count holderId taskId =>
    rcases tryAcquire_effect pool leases count holderId taskId with ⟨answer, after, hrun, heffect⟩
    refine ⟨answer, after, hrun, ⟨?_, ?_, ?_⟩, ?_⟩
    · intro lease hanswer
      rw [hanswer] at heffect
      rcases heffect.of_some with ⟨hpos, hgranted⟩
      exact ⟨hgranted, tryAcquire_again hpos hgranted⟩
    · intro hanswer hfresh
      rw [hanswer] at heffect
      exact heffect.of_none hfresh
    · intro hne hsatisfied
      have hsame := hrun.symm.trans (tryAcquire_of_satisfied hne hsatisfied)
      cases hsame
      exact ⟨rfl, rfl⟩
    · intro row hrow hother
      exact heffect.keeps hrow (Bool.eq_false_of_not_eq_true hother)
  | rayObservation holderId taskId pendingLimit =>
    rcases tryAcquireRayObservation_effect leases holderId taskId pendingLimit
      with ⟨answer, after, hrun, heffect⟩
    refine ⟨answer, after, hrun, heffect, ?_⟩
    intro row hrow _
    cases heffect with
    | refused => exact hrow
    | granted _ _ hrows => exact (hrows row).mpr (Or.inl hrow)
  | release lease =>
    refine ⟨none, _, rfl, rfl, ?_⟩
    intro row hrow hother
    cases lease with
    | none => exact hrow
    | some lease => exact mem_gpuRelease hrow hother

theorem mem_of_run {trace : List GpuOp}
    (h : gpuMachine.Run Machine.Always leases trace after) (hrow : row ∈ leases)
    (hothers : forall op, op ∈ trace -> ¬ op.touches row) : row ∈ after := by
  induction h with
  | nil leases => exact hrow
  | @cons leases next last op rest _ hstep _ ih =>
    apply ih
    · rcases run_safe leases op with ⟨answer, result, hrun, _, hkeeps⟩
      have hnext : result = next := by
        unfold gpuMachine at hstep
        dsimp only at hstep
        rw [hrun] at hstep
        exact Option.some.inj hstep
      rw [← hnext]
      exact hkeeps row hrow (hothers op List.mem_cons_self)
    · intro other hother
      exact hothers other (List.mem_cons_of_mem op hother)

/-- Whatever pools share the table and whatever was called before: no id has
two owners, every call answers without raising and is safe, and a row is
removed by calls of its own holder only. -/
theorem gpuPool_safe (leases : GpuLeases) :
    (forall row other, row ∈ leases -> other ∈ leases ->
      row.gpuId = other.gpuId -> row.holderId = other.holderId) ∧
    (forall op, exists answer after, op.run leases = .ok (answer, after) ∧
      CallSafe leases op answer after) ∧
    forall trace after, gpuMachine.Run Machine.Always leases trace after ->
      forall row, row ∈ leases -> (forall op, op ∈ trace -> ¬ op.touches row) -> row ∈ after := by
  refine ⟨?_, ?_, ?_⟩
  · intro row other hrow hother hid
    rw [Table.eq_of_key_eq hrow hother hid]
  · intro op
    rcases run_safe leases op with ⟨answer, after, hrun, hsafe, _⟩
    exact ⟨answer, after, hrun, hsafe⟩
  · intro trace after hrun row hrow hothers
    exact mem_of_run hrun hrow hothers

def twoHolders : GpuLeases where
  rows := [⟨0, "a", "t"⟩, ⟨1, "b", "u"⟩]
  unique := by decide

/-- An observation grants an id outside the pool, and repeating it takes a
second one; a refused acquire has dropped the stale lease of its holder. -/
theorem gpuPool_unsafe_as_claimed :
    (exists after, GpuPool.tryAcquireRayObservation twoHolders "h" "v" 2 =
        .ok (some ⟨"h", "v", [100000]⟩, after) ∧
      (100000 : Int) ∉ (GpuPool.ofIds [0, 1]).gpuIds ∧
      exists again, GpuPool.tryAcquireRayObservation after "h" "v" 2 =
        .ok (some ⟨"h", "v", [100001]⟩, again)) ∧
    exists after, (GpuPool.ofIds [0, 1]).tryAcquire twoHolders 2 "a" "t" = .ok (none, after) ∧
      ⟨0, "a", "t"⟩ ∈ twoHolders ∧ ⟨0, "a", "t"⟩ ∉ after :=
  ⟨⟨_, rfl, by decide, _, rfl⟩, _, rfl, by decide, by decide⟩

end Bus
end Hyperloom
