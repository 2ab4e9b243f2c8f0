import Hyperloom.Toolbox.PendingBuilds

/-!
# No test waits for settled builds

While a test waits, each key it still needs has a build that is not settled
and knows the test, or a loop that has still to take it.  The loops find their
tests in `_waiting` as long as a test leaves it only when no other loop has
still to take it.
-/

namespace Hyperloom
namespace Toolbox

open Library

/-- The tests a task has still to tell of its build. -/
def BuildTask.owed : BuildTask -> List String
  | .readyNotify _ rest => rest
  | .readyNext rest => rest
  | .endNext _ rest => rest
  | _ => []

/-- A build that will come to a test: it is not settled and knows the test, or
its loop has still to take it. -/
def Build.Owes (build : Build) (requestId : String) : Prop :=
  (build.settled = false ∧ requestId ∈ build.waiters) ∨ requestId ∈ build.task.owed

def BuildTask.looping : BuildTask -> Bool
  | .readyNotify _ _ => true
  | .readyNext _ => true
  | .endNext _ _ => true
  | .infraNext _ _ => true
  | _ => false

namespace PendingBuilds

/-!
## The invariant
-/

structure Sound (s : PendingBuilds) : Prop where
  current : forall key i, s.current key = some i ->
    exists build, s.builds[i]? = some build ∧ build.inputs.key = key
  alive : forall build, build ∈ s.builds -> build.task ≠ .raised
  todo : forall build requestId, build ∈ s.builds ->
    requestId ∈ build.task.todo -> s.waiting requestId = true
  known : forall requestId, s.waiting requestId = true -> exists test, s.tests requestId = some test
  pending : forall requestId test key, s.waiting requestId = true ->
    s.tests requestId = some test -> key ∈ test.pending ->
    key ∈ test.keys ∧ exists build, build ∈ s.builds ∧ build.inputs.key = key ∧ build.Owes requestId
  told : forall requestId test, s.waiting requestId = true ->
    s.tests requestId = some test -> test.pending = [] ->
    exists build rest, build ∈ s.builds ∧ build.task = .readyNotify requestId rest
  fates : forall requestId, s.fates.countP (fun fate => fate.1 = requestId) =
      if (s.tests requestId).isSome && !s.waiting requestId then 1 else 0

variable {s t : PendingBuilds} {i : Nat} {build changed : Build} {requestId : String}
  {builds : List Build} {other built : Build} {rest : List String} {maxInfraRetries : Nat}

theorem mem_set_cases (h : other ∈ builds.set i changed) :
    other = changed ∨ exists j, j ≠ i ∧ builds[j]? = some other := by
  rcases List.mem_iff_getElem?.mp h with ⟨j, hj⟩
  by_cases hij : i = j
  · left
    rw [hij, List.getElem?_set_self'] at hj
    rcases Option.map_eq_some_iff.mp hj with ⟨_, _, heq⟩
    exact heq.symm
  · right
    rw [List.getElem?_set_ne hij] at hj
    exact ⟨j, fun heq => hij heq.symm, hj⟩

theorem mem_set_self (h : builds[i]? = some build) : changed ∈ builds.set i changed := by
  rcases List.getElem?_eq_some_iff.mp h with ⟨hi, _⟩
  exact List.mem_set hi changed

theorem mem_set_of_mem (changed : Build) (h : builds[i]? = some build)
    (hother : other ∈ builds) : other = build ∨ other ∈ builds.set i changed := by
  rcases List.mem_iff_getElem?.mp hother with ⟨j, hj⟩
  by_cases hij : i = j
  · left
    rw [← hij, h] at hj
    exact (Option.some.inj hj).symm
  · right
    apply List.mem_of_getElem? (i := j)
    rw [List.getElem?_set_ne hij]
    exact hj

theorem getElem_set_inputs (changed : Build) (h : builds[i]? = some build)
    (hinputs : changed.inputs = build.inputs) {j : Nat} (hj : builds[j]? = some other) :
    exists found, (builds.set i changed)[j]? = some found ∧ found.inputs = other.inputs := by
  by_cases hij : i = j
  · subst hij
    rw [h] at hj
    cases hj
    refine ⟨changed, ?_, hinputs⟩
    rw [List.getElem?_set_self', h]
    rfl
  · refine ⟨other, ?_, rfl⟩
    rw [List.getElem?_set_ne hij]
    exact hj

/-- States that differ in charges and notices only. -/
structure Alike (s t : PendingBuilds) : Prop where
  builds : t.builds = s.builds
  current : t.current = s.current
  tests : t.tests = s.tests
  waiting : t.waiting = s.waiting
  fates : t.fates = s.fates

theorem Alike.setBuild (h : Alike s t) (i : Nat) (build : Build) :
    Alike (s.setBuild i build) (t.setBuild i build) :=
  { h with builds := congrArg (·.set i build) h.builds }

theorem alike_chargeWaiters (s : PendingBuilds) (build : Build)
    (payer : Option String) : Alike s (s.chargeWaiters build payer) := by
  have hall : forall (waiters : List String) (t : PendingBuilds), Alike s t ->
      Alike s (waiters.foldl (fun s requestId =>
        s.charge requestId build.inputs
          (if some requestId = payer then some build.buildSeconds else none)) t) := by
    intro waiters
    induction waiters with
    | nil =>
      intro t ht
      exact ht
    | cons requestId rest ih =>
      intro t ht
      exact ih _ { ht with }
  exact hall _ s ⟨rfl, rfl, rfl, rfl, rfl⟩

theorem Sound.alike (hs : s.Sound) (h : Alike s t) : t.Sound := by
  constructor
  · rw [h.current, h.builds]
    exact hs.current
  · rw [h.builds]
    exact hs.alive
  · rw [h.builds, h.waiting]
    exact hs.todo
  · rw [h.waiting, h.tests]
    exact hs.known
  · rw [h.waiting, h.tests, h.builds]
    exact hs.pending
  · rw [h.waiting, h.tests, h.builds]
    exact hs.told
  · rw [h.fates, h.tests, h.waiting]
    exact hs.fates

theorem spared_iff :
    s.spared i requestId rest = true <->
      requestId ∉ rest ∧ forall (j : Nat) (other : Build), j ≠ i ->
        s.builds[j]? = some other -> requestId ∉ other.task.todo := by
  unfold spared
  rw [Bool.and_eq_true, decide_eq_true_eq, List.all_eq_true]
  apply and_congr_right
  intro _
  constructor
  · intro h j other hne hj
    have hall := h (other, j) (List.mem_zipIdx_iff_getElem?.mpr hj)
    simpa [hne] using hall
  · intro h pair hpair
    rcases pair with ⟨other, j⟩
    have hj := List.mem_zipIdx_iff_getElem?.mp hpair
    by_cases hne : j = i
    · simp [hne]
    · simpa [hne] using h j other hne hj

@[simp] theorem setBuild_get (hi : s.builds[i]? = some build) :
    (s.setBuild i changed).builds[i]? = some changed := by
  unfold PendingBuilds.setBuild
  rw [List.getElem?_set_self', hi]
  rfl

theorem sparedFirst_iff {waiters : List String} :
    s.sparedFirst i waiters = true <->
      forall q rest, waiters = q :: rest -> s.spared i q rest = true := by
  cases waiters with
  | nil => simp [sparedFirst]
  | cons q rest =>
    constructor
    · intro h other more heq
      cases heq
      exact h
    · intro h
      exact h q rest rfl

/-- The build is in no loop that owes a test its end. -/
structure Idle (build : Build) : Prop where
  owed : build.task.owed = []
  notify : forall q rest, build.task ≠ .readyNotify q rest

section

variable (hs : s.Sound)

include hs

theorem Sound.leave (fate : Fate) (hwas : s.waiting requestId = true)
    (hcurrent : t.current = s.current) (htests : t.tests = s.tests)
    (hwaiting : t.waiting = (s.leave requestId fate).waiting)
    (hfates : t.fates = (s.leave requestId fate).fates)
    (hindex : forall (j : Nat) (other : Build), s.builds[j]? = some other ->
      exists found : Build, t.builds[j]? = some found ∧ found.inputs = other.inputs)
    (hbefore : forall other, other ∈ t.builds ->
      other.task ≠ .raised ∧ requestId ∉ other.task.todo ∧
      exists old, old ∈ s.builds ∧ other.task.todo ⊆ old.task.todo)
    (hafter : forall old, old ∈ s.builds ->
      exists other, other ∈ t.builds ∧ other.inputs = old.inputs ∧
        forall q, q ≠ requestId -> (old.Owes q -> other.Owes q) ∧
          forall rest, old.task = .readyNotify q rest -> other.task = .readyNotify q rest) :
    t.Sound := by
  have hstill : forall q, t.waiting q = true -> q ≠ requestId ∧ s.waiting q = true := by
    intro q hq
    rw [hwaiting] at hq
    by_cases heq : q = requestId
    · simp [PendingBuilds.leave, heq] at hq
    · simp only [PendingBuilds.leave, if_neg heq] at hq
      exact ⟨heq, hq⟩
  constructor
  · intro key j hj
    rw [hcurrent] at hj
    rcases hs.current key j hj with ⟨other, hother, hkey⟩
    rcases hindex j other hother with ⟨found, hfound, hsame⟩
    exact ⟨found, hfound, by rw [hsame, hkey]⟩
  · intro other hother
    exact (hbefore other hother).left
  · intro other q hother hmem
    rcases hbefore other hother with ⟨_, hnot, old, hold, hsub⟩
    rw [hwaiting]
    simp only [PendingBuilds.leave, if_neg (ne_of_mem_of_not_mem hmem hnot)]
    exact hs.todo old q hold (hsub hmem)
  · intro q hq
    rw [htests]
    exact hs.known q (hstill q hq).right
  · intro q test key hq htest hkey
    rcases hstill q hq with ⟨hne, hq⟩
    rw [htests] at htest
    rcases hs.pending q test key hq htest hkey with ⟨hin, old, hold, hsame, howed⟩
    rcases hafter old hold with ⟨other, hother, hinputs, hkeep⟩
    exact ⟨hin, other, hother, by rw [hinputs, hsame], (hkeep q hne).left howed⟩
  · intro q test hq htest hempty
    rcases hstill q hq with ⟨hne, hq⟩
    rw [htests] at htest
    rcases hs.told q test hq htest hempty with ⟨old, rest, hold, htask⟩
    rcases hafter old hold with ⟨other, hother, _, hkeep⟩
    exact ⟨other, rest, hother, (hkeep q hne).right rest htask⟩
  · intro q
    have hcount := hs.fates q
    rw [hfates, htests]
    by_cases heq : q = requestId
    · rcases hs.known requestId hwas with ⟨test, htest⟩
      have hnow : t.waiting q = false := by
        rw [hwaiting]
        simp [PendingBuilds.leave, heq]
      rw [heq, hwas] at hcount
      rw [hnow, heq, htest]
      simp [PendingBuilds.leave, hcount]
    · have hnow : t.waiting q = s.waiting q := by
        rw [hwaiting]
        simp [PendingBuilds.leave, heq]
      have hne : requestId ≠ q := fun h => heq h.symm
      rw [hnow, ← hcount]
      simp [PendingBuilds.leave, hne]

section

variable (hi : s.builds[i]? = some build)

include hi

section

variable (hinputs : changed.inputs = build.inputs) (halive : changed.task ≠ .raised)
  (htodo : forall q, q ∈ changed.task.todo -> s.waiting q = true)

include hinputs halive htodo

/-- One build changes, and with it what is left of the tests' pending keys. -/
theorem Sound.change {tests : String -> Option Waiting}
    (hsome : forall q, (tests q).isSome = (s.tests q).isSome)
    (hleft : forall q test, tests q = some test -> exists old, s.tests q = some old ∧
      test.keys = old.keys ∧
      (forall key, key ∈ test.pending -> key ∈ old.pending ∧ (s.waiting q = true ->
        build.inputs.key = key -> build.Owes q -> changed.Owes q)) ∧
      (test.pending = [] -> (exists rest, changed.task = .readyNotify q rest) ∨
        (old.pending = [] ∧ forall rest, build.task = .readyNotify q rest ->
          changed.task = .readyNotify q rest))) :
    ({ s with tests := tests }.setBuild i changed).Sound := by
  constructor
  · intro key j hj
    rcases hs.current key j hj with ⟨other, hother, hkey⟩
    rcases getElem_set_inputs changed hi hinputs hother with ⟨found, hfound, hsame⟩
    exact ⟨found, hfound, by rw [hsame, hkey]⟩
  · intro other hother
    rcases mem_set_cases hother with rfl | ⟨j, _, hj⟩
    · exact halive
    · exact hs.alive other (List.mem_of_getElem? hj)
  · intro other q hother hmem
    rcases mem_set_cases hother with rfl | ⟨j, _, hj⟩
    · exact htodo q hmem
    · exact hs.todo other q (List.mem_of_getElem? hj) hmem
  · intro q hq
    rcases hs.known q hq with ⟨test, htest⟩
    have h := hsome q
    rw [htest] at h
    exact Option.isSome_iff_exists.mp h
  · intro q test key hq htest hkey
    rcases hleft q test htest with ⟨old, hold, hkeys, hpending, _⟩
    rcases hpending key hkey with ⟨hmem, howes⟩
    rcases hs.pending q old key hq hold hmem with ⟨hin, other, hother, hsame, howed⟩
    rw [hkeys]
    refine ⟨hin, ?_⟩
    rcases mem_set_of_mem changed hi hother with rfl | hstill
    · exact ⟨changed, mem_set_self hi, by rw [hinputs, hsame], howes hq hsame howed⟩
    · exact ⟨other, hstill, hsame, howed⟩
  · intro q test hq htest hempty
    rcases hleft q test htest with ⟨old, hold, _, _, htold⟩
    rcases htold hempty with ⟨rest, htask⟩ | ⟨hnone, hstays⟩
    · exact ⟨changed, rest, mem_set_self hi, htask⟩
    · rcases hs.told q old hq hold hnone with ⟨other, rest, hother, htask⟩
      rcases mem_set_of_mem changed hi hother with rfl | hstill
      · exact ⟨changed, rest, mem_set_self hi, hstays rest htask⟩
      · exact ⟨other, rest, hstill, htask⟩
  · intro q
    have hcount := hs.fates q
    rw [← hsome q] at hcount
    exact hcount

theorem Sound.setBuild
    (howes : forall q, s.waiting q = true -> build.Owes q -> changed.Owes q)
    (htold : forall q test rest, build.task = .readyNotify q rest -> s.tests q = some test ->
      test.pending = [] -> changed.task = .readyNotify q rest) : (s.setBuild i changed).Sound := by
  apply hs.change hi hinputs halive htodo fun _ => rfl
  intro q test htest
  refine ⟨test, htest, rfl, ?_, ?_⟩
  · intro key hkey
    exact ⟨hkey, fun hq _ => howes q hq⟩
  · intro hempty
    exact Or.inr ⟨hempty, fun rest htask => htold q test rest htask htest hempty⟩

theorem Sound.setIdle (hidle : Idle build)
    (howes : forall q, s.waiting q = true -> build.settled = false ->
      q ∈ build.waiters -> changed.Owes q) : (s.setBuild i changed).Sound := by
  apply hs.setBuild hi hinputs halive htodo
  · intro q hq hwas
    rcases hwas with hopen | hin
    · exact howes q hq hopen.left hopen.right
    · rw [hidle.owed] at hin
      cases hin
  · intro q test rest htask
    exact absurd htask (hidle.notify q rest)

end

theorem Sound.discard (htask : build.task = .readyNext (requestId :: rest)) :
    ((s.discard requestId build.inputs.key).setBuild i
      { build with task := .readyNotify requestId rest }).Sound := by
  apply hs.change hi
  · rfl
  · simp
  · intro q hq
    apply hs.todo build q (List.mem_of_getElem? hi)
    rw [htask]
    exact hq
  · intro q
    by_cases hq : q = requestId
    · rw [if_pos hq, Option.isSome_map]
    · rw [if_neg hq]
  · intro q test htest
    by_cases hq : q = requestId
    · rw [if_pos hq] at htest
      rcases Option.map_eq_some_iff.mp htest with ⟨old, hold, rfl⟩
      refine ⟨old, hold, rfl, ?_, ?_⟩
      · intro key hkey
        rcases List.mem_filter.mp hkey with ⟨hin, hne⟩
        exact ⟨hin, fun _ hsame => absurd hsame.symm (of_decide_eq_true hne)⟩
      · intro _
        rw [hq]
        exact Or.inl ⟨rest, rfl⟩
    · rw [if_neg hq] at htest
      refine ⟨test, htest, rfl, ?_, ?_⟩
      · intro key hkey
        refine ⟨hkey, ?_⟩
        intro _ _ howes
        apply howes.imp_right
        intro hrest
        rw [htask] at hrest
        exact List.mem_of_ne_of_mem hq hrest
      · intro hempty
        refine Or.inr ⟨hempty, ?_⟩
        intro more hnotify
        rw [htask] at hnotify
        cases hnotify

/-!
## The loops
-/

theorem Sound.leaveFirst (fate : Fate) {task : BuildTask}
    (hfirst : build.task.todo = requestId :: rest) (howed : build.task.owed ⊆ requestId :: rest)
    (hnotify : forall q more, q ≠ requestId ->
      build.task ≠ .readyNotify q more) (halive : task ≠ .raised)
    (htodo : task.todo = rest) (hloop : task.owed = rest) (hC : s.spared i requestId rest = true) :
    ((s.leave requestId fate).setBuild i { build with task := task }).Sound := by
  have hbuild := List.mem_of_getElem? hi
  rcases spared_iff.mp hC with ⟨hrest, hothers⟩
  have hwaiting : s.waiting requestId = true := by
    apply hs.todo build requestId hbuild
    rw [hfirst]
    exact List.mem_cons_self
  refine hs.leave fate hwaiting rfl rfl rfl rfl ?_ ?_ ?_
  · intro j other hj
    exact getElem_set_inputs { build with task := task } hi rfl hj
  · intro other hother
    rcases mem_set_cases hother with rfl | ⟨j, hne, hj⟩
    · rw [htodo]
      refine ⟨halive, hrest, build, hbuild, ?_⟩
      rw [hfirst]
      exact List.subset_cons_self requestId rest
    · exact ⟨hs.alive other (List.mem_of_getElem? hj), hothers j other hne hj,
        other, List.mem_of_getElem? hj, List.Subset.refl _⟩
  · intro old hold
    rcases mem_set_of_mem { build with task := task } hi hold with rfl | hstill
    · refine ⟨_, mem_set_self hi, rfl, ?_⟩
      intro other hne
      constructor
      · intro howes
        apply howes.imp_right
        intro hin
        rw [hloop]
        exact List.mem_of_ne_of_mem hne (howed hin)
      · intro more htask
        exact absurd htask (hnotify other more hne)
    · exact ⟨old, hstill, rfl, fun _ _ => ⟨id, fun _ h => h⟩⟩

theorem Sound.takeNext
    (hC : forall reason requestId rest, build.task = .endNext reason (requestId :: rest) ->
      s.spared i requestId rest = true) : (s.takeNext i).Sound := by
  have hbuild := List.mem_of_getElem? hi
  have hdone : Idle build -> (s.setBuild i { build with task := .done }).Sound := fun hidle =>
    hs.setIdle hi rfl (by simp) nofun hidle fun q _ hopen hin => Or.inl ⟨hopen, hin⟩
  unfold PendingBuilds.takeNext
  rw [hi]
  dsimp only
  split
  · rename_i q rest htask
    have hwaiting : s.waiting q = true := by
      apply hs.todo build q hbuild
      rw [htask]
      exact List.mem_cons_self
    rw [if_pos hwaiting]
    exact { hs.discard hi htask with }
  · rename_i htask
    exact hdone ⟨by rw [htask]; rfl, by simp [htask]⟩
  · rename_i reason q rest htask
    apply hs.leaveFirst hi (.ended reason)
    · rw [htask]
      rfl
    · rw [htask]
      exact List.Subset.refl _
    · simp [htask]
    · simp
    · rfl
    · rfl
    · exact hC reason q rest htask
  · rename_i reason htask
    exact hdone ⟨by rw [htask]; rfl, by simp [htask]⟩
  · exact hs

section

variable (hidle : Idle build) (hinputs : built.inputs = build.inputs)
  (hwaiters : built.waiters = build.waiters) (payer : Option String)

include hidle hinputs hwaiters

/-- A build that was in no loop settles, and its loop has the tests that still
wait for it. -/
theorem Sound.settle (changed : Build) (halive : changed.task ≠ .raised)
    (hsame : changed.inputs = built.inputs) (htodo : changed.task.todo = s.stillWaiting built)
    (hloop : changed.task.owed = s.stillWaiting built) :
    ((s.chargeWaiters built payer).setBuild i changed).Sound ∧
      ((s.chargeWaiters built payer).setBuild i changed).builds[i]? = some changed := by
  have hcharged := alike_chargeWaiters s built payer
  refine ⟨Sound.alike ?_ (hcharged.setBuild i _), setBuild_get (by rw [hcharged.builds]; exact hi)⟩
  refine hs.setIdle hi (hsame.trans hinputs) halive ?_ hidle ?_
  · intro q hq
    rw [htodo] at hq
    exact (List.mem_filter.mp hq).right
  · intro q hq _ hin
    right
    rw [hloop, stillWaiting, hwaiters]
    exact List.mem_filter.mpr ⟨hin, hq⟩

theorem Sound.finishReady : ((s.finishReady i built payer).takeNext i).Sound := by
  rcases hs.settle hi hidle hinputs hwaiters payer
    { built with state := .ready, waiters := [], task := .readyNext (s.stillWaiting built) }
    (by simp) rfl rfl rfl with ⟨hsettled, hget⟩
  apply hsettled.takeNext hget
  intro reason q rest htask
  cases htask

theorem Sound.endBuild (hC : s.sparedFirst i (s.stillWaiting build) = true)
    (reason : BuildEnd) : ((s.endBuild i built reason payer).takeNext i).Sound := by
  rcases hs.settle hi hidle hinputs hwaiters payer
    { built with state := .failed, waiters := [], task := .endNext reason (s.stillWaiting built) }
    (by simp) rfl rfl rfl with ⟨hsettled, hget⟩
  apply hsettled.takeNext hget
  intro other q rest htask
  have hwaiting : s.stillWaiting build = q :: rest := by
    rw [stillWaiting, ← hwaiters]
    exact (BuildTask.endNext.inj htask).right
  rcases spared_iff.mp (sparedFirst_iff.mp hC q rest hwaiting) with ⟨hrest, hothers⟩
  refine spared_iff.mpr ⟨hrest, ?_⟩
  intro j found hne hj
  -- The other builds are as they were.
  apply hothers j found hne
  unfold PendingBuilds.setBuild at hj
  rw [List.getElem?_set_ne (fun heq => hne heq.symm),
    (alike_chargeWaiters s built payer).builds] at hj
  exact hj

end

/-- `_infra_failed` up to its next await. -/
theorem Sound.takeInfra (hidle : Idle build) {failed : Build}
    (hinputs : failed.inputs = build.inputs) (hwaiters : failed.waiters = build.waiters)
    (hstate : failed.state = build.state) (detail : String) (waiters : List String)
    (hC : waiters = [] -> maxInfraRetries < failed.infraFailures ->
      s.sparedFirst i (s.stillWaiting build) = true) :
    (s.takeInfra maxInfraRetries i failed detail waiters).Sound := by
  cases waiters with
  | cons q rest =>
    have htold : (s.setBuild i { failed with task := .infraNext detail rest }).Sound := by
      refine hs.setIdle hi hinputs (by simp) nofun hidle ?_
      intro q _ hopen hin
      left
      rw [hstate, hwaiters]
      exact ⟨hopen, hin⟩
    exact { htold with }
  | nil =>
    rw [PendingBuilds.takeInfra]
    split
    · rename_i hspent
      exact hs.endBuild hi hidle hinputs hwaiters none (hC rfl hspent) _
    · refine hs.setIdle hi hinputs (by simp) nofun hidle ?_
      intro q _ _ hin
      left
      rw [hwaiters]
      exact ⟨rfl, hin⟩

theorem Sound.ensured (htask : build.task = .ensuring) {answer : Ensured}
    (hC : s.Undisturbed maxInfraRetries (.ensured i answer)) :
    (s.ensured maxInfraRetries i build answer).Sound := by
  have hidle : Idle build := ⟨by rw [htask]; rfl, by simp [htask]⟩
  simp only [Undisturbed, undisturbed, hi] at hC
  cases answer with
  | refused text => exact hs.endBuild hi hidle rfl rfl none hC _
  | infraError detail =>
    refine hs.takeInfra hi hidle ?_ ?_ ?_ detail _ ?_
    · rfl
    · rfl
    · rfl
    · intro hnone _
      rw [hnone]
      rfl
  | record record reused =>
    unfold PendingBuilds.ensured
    dsimp only
    by_cases hready : record.ready = true
    · rw [if_pos hready]
      refine hs.finishReady hi hidle ?_ ?_ _
      · rfl
      · rfl
    · rw [if_neg hready]
      simp only [hready] at hC
      refine hs.endBuild hi hidle ?_ ?_ _ hC _
      · rfl
      · rfl

theorem Sound.resume (hC : s.Undisturbed maxInfraRetries (.resume i))
    (hstep : s.resume maxInfraRetries i build = some t) : t.Sound := by
  have hbuild := List.mem_of_getElem? hi
  simp only [Undisturbed, undisturbed, hi] at hC
  unfold PendingBuilds.resume at hstep
  cases htask : build.task with
  | readyNotify q rest =>
    rw [htask] at hstep hC
    dsimp only at hstep hC
    have hwaiting : s.waiting q = true := by
      apply hs.todo build q hbuild
      rw [htask]
      exact List.mem_cons_self
    split at hstep
    · cases hstep
    rename_i test htest
    by_cases hempty : test.pending.isEmpty = true
    · rw [if_pos hempty, if_pos hwaiting] at hstep
      cases hstep
      rw [htest] at hC
      simp only [Option.any_some, hempty] at hC
      apply hs.leaveFirst hi .released
      · rw [htask]
        rfl
      · rw [htask]
        exact List.subset_cons_self q rest
      · intro other more hne hnotify
        rw [htask] at hnotify
        cases hnotify
        exact hne rfl
      · simp
      · rfl
      · rfl
      · exact hC
    · rw [if_neg hempty] at hstep
      cases hstep
      have hpassed : (s.setBuild i { build with task := .readyNext rest }).Sound := by
        refine hs.setBuild hi rfl (by simp) ?_ ?_ ?_
        · intro other hother
          apply hs.todo build other hbuild
          rw [htask]
          exact List.mem_cons_of_mem _ hother
        · intro other _ howes
          apply howes.imp_right
          intro hin
          rw [htask] at hin
          exact hin
        · intro other found more hnotify hfound hnone
          rw [htask] at hnotify
          cases hnotify
          rw [htest] at hfound
          cases hfound
          rw [hnone] at hempty
          exact absurd rfl hempty
      apply hpassed.takeNext (setBuild_get hi)
      intro reason other more hend
      cases hend
  | readyNext rest =>
    rw [htask] at hstep
    cases hstep
    apply hs.takeNext hi
    intro reason other more hend
    rw [htask] at hend
    cases hend
  | endNext reason rest =>
    rw [htask] at hstep hC
    cases hstep
    apply hs.takeNext hi
    intro other q more hend
    rw [htask] at hend
    cases hend
    exact hC
  | infraNext detail rest =>
    rw [htask] at hstep hC
    cases hstep
    refine hs.takeInfra hi ⟨by rw [htask]; rfl, by simp [htask]⟩ rfl rfl rfl detail rest ?_
    intro hnone hspent
    rw [hnone] at hC
    simpa [Nat.not_le.mpr hspent] using hC
  | _ =>
    rw [htask] at hstep
    cases hstep

end

/-!
## Waiting and forgetting
-/

theorem Sound.forget (hC : s.Undisturbed maxInfraRetries (.forget requestId)) :
    (s.forget requestId).Sound := by
  unfold PendingBuilds.forget
  cases hwaiting : s.waiting requestId with
  | false => exact { hs with }
  | true =>
    unfold Undisturbed undisturbed at hC
    simp only [hwaiting] at hC
    have hnone : forall build, build ∈ s.builds -> requestId ∉ build.task.todo := by
      intro build hbuild
      exact of_decide_eq_true (List.all_eq_true.mp hC build hbuild)
    have hleft : (s.leave requestId .forgotten).Sound := by
      refine hs.leave .forgotten hwaiting rfl rfl rfl rfl ?_ ?_ ?_
      · intro j other hj
        exact ⟨other, hj, rfl⟩
      · intro other hother
        exact ⟨hs.alive other hother, hnone other hother, other, hother, List.Subset.refl _⟩
      · intro old hold
        exact ⟨old, hold, rfl, fun _ _ => ⟨id, fun _ h => h⟩⟩
    exact { hleft with }

end

def Awaits (s : PendingBuilds) (requestId key : String) : Prop :=
  exists build, build ∈ s.builds ∧ build.inputs.key = key ∧
    build.settled = false ∧ requestId ∈ build.waiters

/-- What joining builds leaves: the invariant, the tests as they were, and the
builds that were awaited. -/
structure Joins (s t : PendingBuilds) : Prop where
  sound : t.Sound
  tests : t.tests = s.tests
  waiting : t.waiting = s.waiting
  fates : t.fates = s.fates
  awaits : forall requestId key, s.Awaits requestId key -> t.Awaits requestId key

theorem Sound.newBuild (hs : s.Sound) (requestId : String) (inputs : BuildInputs) :
    Joins s (s.newBuild requestId inputs) ∧
      (s.newBuild requestId inputs).Awaits requestId inputs.key := by
  have hkeep : forall build, build ∈ s.builds -> build ∈ (s.newBuild requestId inputs).builds := by
    intro build hbuild
    exact List.mem_append_left _ hbuild
  have hnew : forall build, build ∈ (s.newBuild requestId inputs).builds -> build ∈ s.builds ∨
        build = { inputs := inputs, waiters := [requestId] } := by
    intro build hbuild
    rcases mem_concat.mp hbuild with hold | hnew
    · exact Or.inl hold
    · exact Or.inr hnew
  constructor
  · refine ⟨?_, rfl, rfl, rfl, ?_⟩
    · constructor
      · intro key j hj
        simp only [PendingBuilds.newBuild] at hj ⊢
        by_cases hkey : key = inputs.key
        · rw [if_pos hkey] at hj
          cases hj
          exact ⟨_, List.getElem?_concat_length, hkey.symm⟩
        · rw [if_neg hkey] at hj
          rcases hs.current key j hj with ⟨build, hbuild, hsame⟩
          refine ⟨build, ?_, hsame⟩
          rw [List.getElem?_append_left (List.getElem?_eq_some_iff.mp hbuild).choose]
          exact hbuild
      · intro build hbuild
        rcases hnew build hbuild with hold | rfl
        · exact hs.alive build hold
        · simp
      · intro build q hbuild hq
        rcases hnew build hbuild with hold | rfl
        · exact hs.todo build q hold hq
        · cases hq
      · exact hs.known
      · intro q test key hq htest hkey
        rcases hs.pending q test key hq htest hkey with ⟨hin, build, hbuild, hrest⟩
        exact ⟨hin, build, hkeep build hbuild, hrest⟩
      · intro q test hq htest hempty
        rcases hs.told q test hq htest hempty with ⟨build, rest, hbuild, htask⟩
        exact ⟨build, rest, hkeep build hbuild, htask⟩
      · exact hs.fates
    · intro q key h
      rcases h with ⟨build, hbuild, hrest⟩
      exact ⟨build, hkeep build hbuild, hrest⟩
  · exact ⟨_, List.mem_append_right _ List.mem_cons_self, rfl, rfl, List.mem_cons_self⟩

theorem Sound.join (hs : s.Sound) (requestId : String) {need : BuildNeed}
    (hready : s.readyNow need = false) :
    Joins s (s.join requestId need.inputs) ∧
      (s.join requestId need.inputs).Awaits requestId need.inputs.key := by
  unfold PendingBuilds.join
  cases hcurrent : s.current need.inputs.key with
  | none => exact hs.newBuild requestId need.inputs
  | some i =>
    rcases hs.current need.inputs.key i hcurrent with ⟨build, hi, hkey⟩
    dsimp only
    rw [hi]
    dsimp only
    split
    · exact hs.newBuild requestId need.inputs
    · rename_i hfailed
      have hopen : build.settled = false := by
        unfold readyNow at hready
        rw [hcurrent] at hready
        dsimp only at hready
        rw [hi] at hready
        simp only [Bool.or_eq_false_iff, Option.any_some] at hready
        unfold Build.settled
        simp [hready.right, hfailed]
      have hknows : forall q, q ∈ build.waiters -> q ∈ build.waiters ++ [requestId] :=
        fun q hq => List.mem_append_left _ hq
      constructor
      · refine ⟨?_, rfl, rfl, rfl, ?_⟩
        · refine hs.setBuild hi rfl (hs.alive build (List.mem_of_getElem? hi)) ?_ ?_ ?_
          · intro q hq
            exact hs.todo build q (List.mem_of_getElem? hi) hq
          · intro q _ howes
            rcases howes with hmine | hin
            · exact Or.inl ⟨hmine.left, hknows q hmine.right⟩
            · exact Or.inr hin
          · intro q test rest htask _ _
            exact htask
        · intro q key h
          rcases h with ⟨other, hother, hsame, hunsettled, hin⟩
          rcases mem_set_of_mem { build with waiters := build.waiters ++ [requestId] } hi
            hother with rfl | hstill
          · exact ⟨_, mem_set_self hi, hsame, hunsettled, hknows q hin⟩
          · exact ⟨other, hstill, hsame, hunsettled, hin⟩
      · exact ⟨_, mem_set_self hi, hkey, hopen, List.mem_append_right _ List.mem_cons_self⟩

theorem Sound.joinNeeds (hs : s.Sound) (requestId : String) (needs : List BuildNeed) :
    Joins s (PendingBuilds.joinNeeds requestId s needs).1 ∧
      forall key, key ∈ (PendingBuilds.joinNeeds requestId s needs).2 ->
        key ∈ needs.map (fun need => need.inputs.key) ∧
        (PendingBuilds.joinNeeds requestId s needs).1.Awaits requestId key := by
  induction needs generalizing s with
  | nil =>
    refine ⟨⟨hs, rfl, rfl, rfl, fun _ _ h => h⟩, ?_⟩
    intro key hkey
    cases hkey
  | cons need rest ih =>
    rw [PendingBuilds.joinNeeds]
    cases hready : s.readyNow need with
    | true =>
      have hcharged : (s.charge requestId need.inputs none).Sound := { hs with }
      rcases ih hcharged with ⟨hjoins, hkeys⟩
      refine ⟨{ hjoins with }, ?_⟩
      intro key hkey
      exact ⟨List.mem_cons_of_mem _ (hkeys key hkey).left, (hkeys key hkey).right⟩
    | false =>
      rcases hs.join requestId hready with ⟨hfirst, hawaits⟩
      rcases ih hfirst.sound with ⟨hjoins, hkeys⟩
      refine ⟨⟨hjoins.sound, hjoins.tests.trans hfirst.tests,
        hjoins.waiting.trans hfirst.waiting, hjoins.fates.trans hfirst.fates,
        fun q key h => hjoins.awaits q key (hfirst.awaits q key h)⟩, ?_⟩
      intro key hkey
      rcases List.mem_cons.mp hkey with rfl | hin
      · exact ⟨List.mem_cons_self, hjoins.awaits _ _ hawaits⟩
      · exact ⟨List.mem_cons_of_mem _ (hkeys key hin).left, (hkeys key hin).right⟩

theorem Sound.wait (hs : s.Sound) (needs : List BuildNeed)
    (hnew : s.tests requestId = none) : (s.wait requestId needs).Sound := by
  rcases hs.joinNeeds requestId needs with ⟨hjoins, hkeys⟩
  unfold PendingBuilds.wait
  dsimp only
  split
  · exact hjoins.sound
  · rename_i hpending
    have ht := hjoins.sound
    have hidle : (PendingBuilds.joinNeeds requestId s needs).1.tests requestId = none := by
      rw [hjoins.tests]
      exact hnew
    constructor
    · exact ht.current
    · exact ht.alive
    · intro build q hbuild hq
      dsimp only
      by_cases heq : q = requestId
      · rw [if_pos heq]
      · rw [if_neg heq]
        exact ht.todo build q hbuild hq
    · intro q hq
      dsimp only at hq ⊢
      by_cases heq : q = requestId
      · rw [if_pos heq]
        exact ⟨_, rfl⟩
      · rw [if_neg heq] at hq ⊢
        exact ht.known q hq
    · intro q test key hq htest hkey
      dsimp only at hq htest
      by_cases heq : q = requestId
      · rw [if_pos heq] at htest
        cases htest
        rcases hkeys key hkey with ⟨hneeded, build, hbuild, hsame, hopen, hknows⟩
        refine ⟨hneeded, build, hbuild, hsame, Or.inl ⟨hopen, ?_⟩⟩
        rw [heq]
        exact hknows
      · rw [if_neg heq] at hq htest
        exact ht.pending q test key hq htest hkey
    · intro q test hq htest hempty
      dsimp only at hq htest
      by_cases heq : q = requestId
      · rw [if_pos heq] at htest
        cases htest
        dsimp only at hempty
        rw [hempty] at hpending
        exact absurd rfl hpending
      · rw [if_neg heq] at hq htest
        exact ht.told q test hq htest hempty
    · intro q
      have hcount := ht.fates q
      by_cases heq : q = requestId
      · rw [heq, hidle] at hcount
        simpa [heq] using hcount
      · simp only [if_neg heq]
        exact hcount

/-!
## Every run
-/

theorem Sound.step (hs : s.Sound) {op : BuildsOp} (hC : s.Undisturbed maxInfraRetries op)
    (hstep : buildsStep maxInfraRetries s op = some t) : t.Sound := by
  revert hstep
  fun_cases buildsStep maxInfraRetries s op with (intro hstep; try cases hstep)
  | case1 requestId needs hnew => exact hs.wait needs (Option.isNone_iff_eq_none.mp hnew)
  | case3 => exact hs.forget hC
  | case5 i build hi htask =>
    have hidle : Idle build := by
      rcases htask with h | h
      · exact ⟨by rw [h]; rfl, by simp [h]⟩
      · exact ⟨by rw [h]; rfl, by simp [h]⟩
    exact hs.setIdle hi rfl (by simp) nofun hidle fun q _ _ hin => Or.inl ⟨rfl, hin⟩
  | case8 i answer build hi htask => exact hs.ensured hi htask hC
  | case11 i build hi => exact hs.resume hi hC hstep
  | case13 | case14 => cases hC

theorem Sound.init : ({} : PendingBuilds).Sound := by
  constructor
  · nofun
  · intro build h
    cases h
  · intro build requestId h
    cases h
  · nofun
  · nofun
  · nofun
  · intro requestId
    rfl

section

variable (s : PendingBuilds)

def Quiet : Prop := forall build, build ∈ s.builds -> build.task.looping = false

/-- A test that waits has a build that is not settled. -/
def NoneStuck : Prop :=
  forall requestId, s.waiting requestId = true ->
    exists test build, s.tests requestId = some test ∧ build ∈ s.builds ∧
      build.inputs.key ∈ test.keys ∧ requestId ∈ build.waiters ∧ build.settled = false

/-- No loop has raised; when none is in progress every waiting test has a build
that is not settled; and a test that has waited has left once, if it waits no
more. -/
def Settles : Prop :=
  (forall build, build ∈ s.builds -> build.task ≠ .raised) ∧ (s.Quiet -> s.NoneStuck) ∧
  forall requestId test, s.tests requestId = some test ->
    s.fates.countP (fun fate => fate.1 = requestId) = if s.waiting requestId then 0 else 1

end

theorem Sound.noneStuck (hs : s.Sound) (hquiet : s.Quiet) : s.NoneStuck := by
  have hidle : forall build, build ∈ s.builds -> Idle build := by
    intro build hbuild
    have hended := hquiet build hbuild
    cases htask : build.task with
    | created | ensuring | sleeping | done | raised =>
      exact ⟨by rw [htask]; rfl, by simp [htask]⟩
    | _ =>
      rw [htask] at hended
      cases hended
  intro q hq
  rcases hs.known q hq with ⟨test, htest⟩
  cases hpending : test.pending with
  | nil =>
    rcases hs.told q test hq htest hpending with ⟨build, rest, hbuild, htask⟩
    exact absurd htask ((hidle build hbuild).notify q rest)
  | cons key rest =>
    have hkey : key ∈ test.pending := by
      rw [hpending]
      exact List.mem_cons_self
    rcases hs.pending q test key hq htest hkey with ⟨hin, build, hbuild, hsame, howes⟩
    rcases howes with hopen | hloop
    · exact ⟨test, build, htest, hbuild, by rw [hsame]; exact hin, hopen.right, hopen.left⟩
    · rw [(hidle build hbuild).owed] at hloop
      cases hloop

end PendingBuilds

theorem sound_of_undisturbed {maxInfraRetries : Nat} {s : PendingBuilds}
    (hs : (buildsMachine maxInfraRetries).ReachableWhere
      (PendingBuilds.Undisturbed maxInfraRetries) s) : s.Sound := by
  apply hs.invariant ?_ ?_
  · intro start hinit
    rw [hinit]
    exact PendingBuilds.Sound.init
  · intro s op t hs hC hstep
    exact hs.step hC hstep

/-- In every run in which a test leaves `_waiting` only when no other loop has
still to take it, and no hook raises. -/
theorem no_test_waits_for_settled_builds {maxInfraRetries : Nat} {s : PendingBuilds}
    (hs : (buildsMachine maxInfraRetries).ReachableWhere
      (PendingBuilds.Undisturbed maxInfraRetries) s) : s.Settles := by
  have hsound := sound_of_undisturbed hs
  refine ⟨hsound.alive, hsound.noneStuck, ?_⟩
  intro requestId test htest
  rw [hsound.fates requestId, htest]
  cases s.waiting requestId with
  | _ => rfl

/-!
## A test forgotten while its build's loop runs
-/

namespace BuildsExample

def need : BuildNeed := ⟨⟨"k", "kernels"⟩, none⟩

def readyRecord : Ensured := .record ⟨true, 60, ""⟩ false

/-- Three tests wait for one build, which becomes ready; its loop awaits the
first one's notice. -/
def telling : List BuildsOp :=
  [.wait "t-1" [need], .wait "t-2" [need], .wait "t-3" [need], .run 0, .ensured 0 readyRecord]

end BuildsExample

open BuildsExample in
/-- The second test is forgotten while the loop awaits the first one's notice:
the loop raises at it, and the third test waits for a build that is ready. -/
theorem forgotten_test_stops_the_loop : ¬ forall s, (buildsMachine 2).Reachable s -> s.Settles := by
  intro hall
  have hrun : exists s, (buildsMachine 2).Reachable s ∧
      exists build, build ∈ s.builds ∧ build.state = .ready ∧ build.task = .raised ∧
        s.waiting "t-3" = true :=
    Machine.Reachable.exists_of_runIf {} (telling ++ [.forget "t-2", .resume 0, .resume 0]) rfl
      (by decide +kernel)
  rcases hrun with ⟨s, hs, build, hbuild, _, hraised, _⟩
  exact (hall s hs).left build hbuild hraised

open BuildsExample in
/-- The second test is forgotten after the loop is through with the first two:
all three have left. -/
theorem tests_leave_once :
    exists s, (buildsMachine 2).ReachableWhere (PendingBuilds.Undisturbed 2) s ∧
      s.fates = [("t-1", .released), ("t-2", .released), ("t-3", .released)] ∧
      s.Settles := by
  have hrun : exists s, (buildsMachine 2).ReachableWhere
      (PendingBuilds.Undisturbed 2) s ∧
      s.fates = [("t-1", .released), ("t-2", .released), ("t-3", .released)] :=
    Machine.ReachableWhere.exists_of_runIf {}
      (telling ++ [.resume 0, .resume 0, .resume 0, .forget "t-2", .resume 0,
        .resume 0, .resume 0]) rfl (by decide +kernel)
  rcases hrun with ⟨s, hs, hfates⟩
  exact ⟨s, hs, hfates, no_test_waits_for_settled_builds hs⟩

end Toolbox
end Hyperloom
