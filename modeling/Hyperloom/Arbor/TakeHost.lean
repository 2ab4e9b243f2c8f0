import Hyperloom.Library.Machine

/-!
# The host of a parallel run

A tick claims the run for its host by reading `HOST` and then replacing it.
The lock around a tick is one per host, so between the two steps of one host
any step of another may come.
-/

namespace Hyperloom
namespace Arbor

open Library

/-!
## Claiming the run
-/

structure HostRecord where
  host : String
  pid : Nat
  heartbeat : Rat
deriving DecidableEq

/-- Why `take_host` refuses: who holds the run, the age of that host's
heartbeat, and whether it is stale. -/
structure HostLocked where
  holder : String
  age : Rat
  stale : Bool
deriving DecidableEq

def hostStaleS : Rat := 15 * 60

/-- `Store.take_host` after `HOST` was read as `cur`: the record to write.
A file that is missing, empty or cannot be read is `none`. -/
def takeHost (host : String) (pid : Nat) (takeover : Bool) (now : Rat)
    (cur : Option HostRecord) : Except HostLocked HostRecord :=
  let claim : HostRecord := { host := host, pid := pid, heartbeat := now }
  match cur with
  | none => .ok claim
  | some held =>
    let age := now - held.heartbeat
    let stale := decide (hostStaleS < age)
    if held.host = host ∨ (takeover && stale) = true then .ok claim
    else .error { holder := held.host, age := age, stale := stale }

theorem host_of_takeHost {host : String} {pid : Nat} {takeover : Bool}
    {now : Rat} {cur : Option HostRecord} {claim : HostRecord}
    (h : takeHost host pid takeover now cur = .ok claim) : claim.host = host := by
  unfold takeHost at h
  split at h
  · cases h
    rfl
  · dsimp only at h
    split at h
    · cases h
      rfl
    · cases h

theorem holder_of_takeHost {host : String} {pid : Nat} {now : Rat} {held claim : HostRecord}
    (h : takeHost host pid false now (some held) = .ok claim) : held.host = host := by
  unfold takeHost at h
  dsimp only at h
  split at h
  · rename_i hmay
    rcases hmay with hsame | htake
    · exact hsame
    · cases htake
  · cases h

/-!
## Ticks on many hosts
-/

inductive TickPoint where
  | idle
  | locked (pid : Nat)
  | decided (claim : HostRecord)
  | past
deriving DecidableEq

def TickPoint.Claims : TickPoint -> Prop
  | .idle | .locked _ => False
  | .decided _ | .past => True

/-- The run's store, as far as a claim reads or writes it, and the ticks. -/
structure Hosts where
  hostFile : Option HostRecord
  stopped : Bool
  tick : String -> TickPoint

inductive HostStep where
  | begins (pid : Nat)
  | reads (now : Rat) (fails : Bool)
  | writes
  | goesOn (stopped : Bool)
  | ends

namespace Hosts

variable (s : Hosts)

def found (fails : Bool) : Option HostRecord :=
  if fails then none else s.hostFile

def move (host : String) (point : TickPoint) : Hosts :=
  { s with tick := Function.update s.tick host point }

@[simp] theorem move_tick (host : String) (point : TickPoint) :
    (s.move host point).tick = Function.update s.tick host point := rfl

def step : String × HostStep -> Option Hosts
  | (host, .begins pid) =>
    if s.tick host = .idle ∧ s.stopped = false then
      some (s.move host (.locked pid))
    else none
  | (host, .reads now fails) =>
    match s.tick host with
    | .locked pid =>
      match takeHost host pid false now (s.found fails) with
      | .ok claim => some (s.move host (.decided claim))
      | .error _ => some (s.move host .idle)
    | _ => none
  | (host, .writes) =>
    match s.tick host with
    | .decided claim =>
      some { s.move host .past with hostFile := some claim }
    | _ => none
  | (host, .goesOn stopped) =>
    if s.tick host = .past then some { s with stopped := stopped } else none
  | (host, .ends) => some (s.move host .idle)

/-- Any `HOST` file, or none, and no tick under way. -/
def machine : Machine Hosts (String × HostStep) where
  init s := forall host, s.tick host = .idle
  step := step

def OneHost : Prop :=
  forall host other, s.tick host = .past -> s.tick other = .past -> host = other

/-- A read finds a record, or there is none to find and no other host's tick
stands after its own read. -/
def Guarded : String × HostStep -> Prop
  | (host, .reads _ fails) =>
    s.found fails ≠ none ∨ (s.hostFile = none ∧ forall other, (s.tick other).Claims -> other = host)
  | _ => True

/-!
## One claim at a time
-/

structure Claimed (s : Hosts) : Prop where
  own : forall host claim, s.tick host = .decided claim -> claim.host = host
  only : forall host other, (s.tick host).Claims -> (s.tick other).Claims -> host = other
  named : forall host held, (s.tick host).Claims -> s.hostFile = some held -> held.host = host

variable {s : Hosts} {host : String}

section

variable (h : s.Claimed)

include h

theorem Claimed.oneHost : s.OneHost := by
  intro host other hhost hother
  apply h.only
  · rw [hhost]
    trivial
  · rw [hother]
    trivial

theorem Claimed.leave {point : TickPoint}
    (hpoint : ¬ point.Claims) : (s.move host point).Claimed := by
  have hbefore : forall other, ((s.move host point).tick other).Claims ->
      (s.tick other).Claims ∧ (s.move host point).tick other = s.tick other := by
    intro other hother
    by_cases hsame : other = host
    · subst hsame
      rw [move_tick, Function.update_self] at hother
      exact absurd hother hpoint
    · rw [move_tick, Function.update_of_ne hsame] at hother ⊢
      exact ⟨hother, rfl⟩
  constructor
  · intro other claim hdecided
    have hclaims : ((s.move host point).tick other).Claims := by
      rw [hdecided]
      trivial
    exact h.own other claim ((hbefore other hclaims).2.symm.trans hdecided)
  · intro first second hfirst hsecond
    exact h.only _ _ (hbefore first hfirst).1 (hbefore second hsecond).1
  · intro other held hother hheld
    exact h.named other held (hbefore other hother).1 hheld

theorem Claimed.claim {point : TickPoint} {file : Option HostRecord}
    (hown : forall claim, point = .decided claim -> claim.host = host)
    (halone : forall other, (s.tick other).Claims -> other = host)
    (hfile : forall held, file = some held -> held.host = host) :
    Claimed { s.move host point with hostFile := file } := by
  have hclaims : forall other,
      (Function.update s.tick host point other).Claims -> other = host := by
    intro other hother
    by_cases hsame : other = host
    · exact hsame
    · rw [Function.update_of_ne hsame] at hother
      exact halone other hother
  constructor
  · intro other claim hdecided
    dsimp only [move] at hdecided
    by_cases hsame : other = host
    · subst hsame
      rw [Function.update_self] at hdecided
      exact hown claim hdecided
    · rw [Function.update_of_ne hsame] at hdecided
      exact h.own other claim hdecided
  · intro first second hfirst hsecond
    exact (hclaims first hfirst).trans (hclaims second hsecond).symm
  · intro other held hother hheld
    rw [hclaims other hother]
    exact hfile held hheld

/-- After a guarded read nobody but the reader claims, and `HOST` names it. -/
theorem Claimed.alone {pid : Nat} {now : Rat} {fails : Bool}
    {claim : HostRecord} (hguard : s.Guarded (host, .reads now fails))
    (htake : takeHost host pid false now (s.found fails) = .ok claim) :
    (forall other, (s.tick other).Claims -> other = host) ∧
      forall held, s.hostFile = some held -> held.host = host := by
  rcases hguard with hfound | ⟨hnone, halone⟩
  · cases hread : s.found fails with
    | none => exact absurd hread hfound
    | some held =>
      rw [hread] at htake
      have hheld := holder_of_takeHost htake
      have hfile : s.hostFile = some held := by
        unfold found at hread
        split at hread
        · cases hread
        · exact hread
      constructor
      · intro other hother
        exact (h.named other held hother hfile).symm.trans hheld
      · intro held' hheld'
        rw [hfile] at hheld'
        cases hheld'
        exact hheld
  · constructor
    · exact halone
    · intro held hheld
      rw [hnone] at hheld
      cases hheld

theorem Claimed.step {t : Hosts} {label : String × HostStep}
    (hguard : s.Guarded label) (hstep : s.step label = some t) : t.Claimed := by
  revert hstep
  fun_cases Hosts.step s label with (intro hstep; cases hstep)
  | case3 host now fails pid _ claim htake =>
    rcases h.alone hguard htake with ⟨halone, hfile⟩
    apply h.claim ?_ halone hfile
    intro claim hclaim
    cases hclaim
    exact host_of_takeHost htake
  | case6 host claim hdecided =>
    have hclaims : (s.tick host).Claims := by
      rw [hdecided]
      trivial
    apply h.claim
    · nofun
    · intro other hother
      exact h.only other host hother hclaims
    · intro held hheld
      cases hheld
      exact h.own host _ hdecided
  | case8 => exact { h with }
  | _ => exact h.leave id

end

/-- At most one host is past `take_host` as long as no host reads an absent
record while another host's tick stands after its read. -/
theorem one_host_past (hs : machine.ReachableWhere Guarded s) : s.OneHost := by
  have hclaimed : s.Claimed := by
    apply hs.invariant ?_ ?_
    · intro start hidle
      constructor
      · intro host claim hdecided
        rw [hidle host] at hdecided
        cases hdecided
      · intro host other hhost
        rw [hidle host] at hhost
        cases hhost
      · intro host held hhost
        rw [hidle host] at hhost
        cases hhost
    · intro s label t h hguard hstep
      exact h.step hguard hstep
  exact hclaimed.oneHost

def fresh : Hosts where
  hostFile := none
  stopped := false
  tick _ := .idle

theorem one_host_past_first_tick :
    exists s, machine.ReachableWhere Guarded s ∧ s.tick "a" = .past ∧
      s.OneHost := by
  have hrun : Machine.Run machine Guarded fresh
      [("a", .begins 1), ("a", .reads 0 false), ("a", .writes)] _ :=
    .cons trivial rfl (Machine.Run.cons (Or.inr ⟨rfl, fun other hother => by
          by_cases hsame : other = "a"
          · exact hsame
          · rw [move_tick, Function.update_of_ne hsame] at hother
            exact hother.elim⟩) rfl (.cons trivial rfl (.nil _)))
  have hs : machine.ReachableWhere Guarded _ := ⟨fresh, _, fun _ => rfl, hrun⟩
  exact ⟨_, hs, rfl, one_host_past hs⟩

/-- Two hosts read before either writes: both are past `take_host`. -/
theorem first_ticks_both_past :
    exists s, machine.Reachable s ∧ s.tick "a" = .past ∧ s.tick "b" = .past :=
  Machine.ReachableWhere.exists_of_runIf fresh
    [("a", .begins 1), ("b", .begins 1), ("a", .reads 0 false),
      ("b", .reads 0 false), ("a", .writes), ("b", .writes)] (fun _ => rfl) (by decide +kernel)

end Hosts

end Arbor
end Hyperloom
