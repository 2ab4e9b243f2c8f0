import Hyperloom.Blackboard.Records

/-!
# The work queue

Accepted tests by priority and arrival, with the number of tests each branch
may have running.  `take` hands out the best test the limits allow.
-/

namespace Hyperloom
namespace Toolbox

open Blackboard

/-- The limits; every K and the global concurrency are at least 1. -/
structure QueuePolicy where
  perBranchK : Nat := 2
  globalConcurrency : Nat := 8
  priorityOverride : Purpose -> Option Nat := fun _ => none
  branchK : String -> Option Nat := fun _ => none
  perBranchK_pos : 1 ≤ perBranchK
  globalConcurrency_pos : 1 ≤ globalConcurrency
  branchK_pos : forall branch k, branchK branch = some k -> 1 ≤ k

namespace QueuePolicy

variable (policy : QueuePolicy)

def kFor (branch : String) : Nat :=
  (policy.branchK branch).getD policy.perBranchK

theorem kFor_pos (branch : String) : 1 ≤ policy.kFor branch := by
  unfold kFor
  cases hk : policy.branchK branch with
  | none => exact policy.perBranchK_pos
  | some k => exact policy.branchK_pos branch k hk

variable (parallelLimit : Option PNat)

/-- What `take` lets run at once; `tests_at_once`, the limit of a toolbox that
counts its cards, is never below 1. -/
def cap : Nat :=
  match parallelLimit with
  | none => policy.globalConcurrency
  | some limit => min policy.globalConcurrency limit

theorem cap_pos : 1 ≤ policy.cap parallelLimit := by
  have hglobal := policy.globalConcurrency_pos
  cases parallelLimit with
  | none => exact hglobal
  | some limit => exact Nat.le_min.mpr ⟨hglobal, limit.pos⟩

end QueuePolicy

def defaultPriority : Purpose -> Nat
  | .confirm => 0
  | .repro => 1
  | .integration => 2
  | .profile => 3
  | .accuracy => 3
  | .explore => 4
  | .baseline => 2
  | .final => 2
  | .health => 4

def QueuePolicy.priorityOf (policy : QueuePolicy) (request : TestRequest) : Nat :=
  match request.priority with
  | some priority => priority
  | none =>
    (policy.priorityOverride request.purpose).getD (defaultPriority request.purpose)

def exemptPurpose : Purpose -> Bool
  | .confirm => true
  | .repro => true
  | .baseline => true
  | .health => true
  | .final => true
  | _ => false

/-- Whether a request takes no slot of its branch's K. -/
def exemptFromK (request : TestRequest) : Bool :=
  exemptPurpose request.purpose || decide (request.kind = .repro)

inductive State where
  | pendingBuild
  | queued
  | running
deriving DecidableEq

structure QueuedTest where
  request : TestRequest
  priority : Int
  seq : Nat
  queuedAt : Rat
  state : State
deriving DecidableEq

namespace QueuedTest

def requestId (item : QueuedTest) : String := item.request.requestId

def branch (item : QueuedTest) : String := item.request.branch

/-- The order of `take`: priority, then arrival. -/
def before (a b : QueuedTest) : Bool :=
  decide (a.priority < b.priority) || (decide (a.priority = b.priority) && decide (a.seq < b.seq))

variable (policy : QueuePolicy) (item : QueuedTest)

/-- Under a changed policy, a waiting test whose request named no priority
gets a new one. -/
def reprioritise : QueuedTest :=
  if item.state ≠ .running ∧ item.request.priority = none then
    { item with priority := policy.priorityOf item.request }
  else item

theorem reprioritise_request : (item.reprioritise policy).request = item.request := by
  unfold reprioritise
  split
  · rfl
  · rfl

theorem reprioritise_state : (item.reprioritise policy).state = item.state := by
  unfold reprioritise
  split
  · rfl
  · rfl

end QueuedTest

def best : List QueuedTest -> Option QueuedTest
  | [] => none
  | item :: rest =>
    match best rest with
    | none => some item
    | some other => if other.before item then some other else some item

/-!
## The items of a queue
-/

variable (items : List QueuedTest)

def runningItems : List QueuedTest :=
  items.filter fun item => item.state = .running

def runningCounted (branch : String) : Nat :=
  ((runningItems items).filter fun item =>
    decide (item.branch = branch) && !exemptFromK item.request).length

variable (policy : QueuePolicy)

def readyItems (items : List QueuedTest) : List QueuedTest :=
  items.filter fun item =>
    decide (item.state = .queued) && (exemptFromK item.request ||
      decide (runningCounted items item.branch < policy.kFor item.branch))

/-- `take`: the next test to run, before it is marked running. -/
def take (parallelLimit : Option PNat) (items : List QueuedTest) : Option QueuedTest :=
  if policy.cap parallelLimit ≤ (runningItems items).length then none
  else best (readyItems policy items)

theorem best_mem {items : List QueuedTest} {item : QueuedTest}
    (h : best items = some item) : item ∈ items := by
  fun_induction best items generalizing item with (cases h)
  | case2 | case4 => exact List.mem_cons_self
  | case3 first rest other hother _ ih => exact List.mem_cons_of_mem _ (ih hother)

theorem best_eq_none {items : List QueuedTest} (h : best items = none) : items = [] := by
  revert h
  fun_cases best items with
  | case1 => exact fun _ => rfl
  | _ => nofun

section

variable {policy : QueuePolicy} {parallelLimit : Option PNat}
  {items : List QueuedTest} {item : QueuedTest}

theorem take_eq_some (h : take policy parallelLimit items = some item) :
    item ∈ items ∧ item.state = .queued ∧ (runningItems items).length < policy.cap parallelLimit ∧
      (exemptFromK item.request = true ∨
        runningCounted items item.branch < policy.kFor item.branch) := by
  unfold take at h
  split at h
  · cases h
  rename_i hfree
  have hready := best_mem h
  unfold readyItems at hready
  simp only [List.mem_filter, Bool.and_eq_true, Bool.or_eq_true, decide_eq_true_eq] at hready
  exact ⟨hready.left, hready.right.left, Nat.lt_of_not_le hfree, hready.right.right⟩

theorem exists_running_of_take_none
    (h : take policy parallelLimit items = none) (hitem : item ∈ items)
    (hstate : item.state = .queued) : exists busy, busy ∈ items ∧ busy.state = .running := by
  have hsome : forall list : List QueuedTest, list ⊆ runningItems items ->
      1 ≤ list.length -> exists busy, busy ∈ items ∧ busy.state = .running := by
    intro list hsub hlength
    cases list with
    | nil => cases hlength
    | cons busy rest =>
      have hbusy := List.mem_filter.mp (hsub List.mem_cons_self)
      exact ⟨busy, hbusy.left, of_decide_eq_true hbusy.right⟩
  unfold take at h
  split at h
  · rename_i hfull
    exact hsome _ (List.Subset.refl _) (Nat.le_trans (policy.cap_pos parallelLimit) hfull)
  · have hnone := best_eq_none h
    have hblocked := List.filter_eq_nil_iff.mp hnone item hitem
    simp only [hstate, decide_true, Bool.true_and, Bool.or_eq_true,
      decide_eq_true_eq, not_or, Nat.not_lt] at hblocked
    apply hsome _ (List.filter_subset_self _)
    exact Nat.le_trans (policy.kFor_pos item.branch) hblocked.right

end

end Toolbox
end Hyperloom
