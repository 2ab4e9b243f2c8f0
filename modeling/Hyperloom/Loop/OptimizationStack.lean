import Hyperloom.Loop.CurrentBestLift

/-!
# The optimization stack over a session

Every accepted lift overwrites `current_best`, but a winner that is already on
the stack, by its name or by its fingerprint, leaves the stack as it is.
-/

namespace Hyperloom
namespace Loop

open Library Common

/-!
## The fields of an entry
-/

def launchKeys : List String := ["action", "variant_name", "extra_server_args"]

/-- A caller's own fields leave the launch of the entry alone. -/
def PlainExtra (call : LiftCall) : Prop :=
  forall field, field ∈ call.entryExtra -> field.fst ∉ launchKeys

variable {key : String} {ops : LiftOps} {call : LiftCall} {launch : ResolvedLaunch}

theorem read_stackEntry (hplain : PlainExtra call) (hkey : key ∈ launchKeys) :
    (stackEntry ops call launch).read key = Record.read
        [("action", .str call.taskKind), ("variant_name", launch.variantName),
          ("candidate_extra_server_args", .str launch.candidateArgs),
          ("extra_server_args", .str launch.fullArgs), ("tput", .float call.bestTput)] key := by
  unfold stackEntry
  rw [Record.read_update_of_absent,
    Record.read_writeText_of_ne (ne_of_mem_of_not_mem hkey (by decide)).symm,
    Record.read_writeText_of_ne (ne_of_mem_of_not_mem hkey (by decide)).symm,
    Record.read_writeText_of_ne (ne_of_mem_of_not_mem hkey (by decide)).symm]
  intro field hfield heq
  apply hplain field (List.mem_filter.mp hfield).left
  rw [heq]
  exact hkey

/-- The names under which `graded_axes_of` stores its axes. -/
def axisNames : List String :=
  [gradedIntvty, gradedTotal, "input_throughput", "ttft_p50_ms", "ttft_p90_ms",
    "tpot_p50_ms", "tpot_p90_ms", gradedIntvtyP50, gradedIntvtyP50Checkpoint,
    gradedOutputPerGpu, gradedRequestsTotal, gradedDuration, gradedErrorRate,
    gradedUnservedRequests] ++ agentxEvidence

variable {field : String × Value}

theorem fst_mem_of_filterMap {α : Type} {keys : List String}
    {read : String -> Option α} {wrap : α -> Value} (h : field ∈ keys.filterMap (fun key =>
      (read key).map (fun x => (key, wrap x)))) : field.fst ∈ keys := by
  rcases List.mem_filterMap.mp h with ⟨key, hkey, hfield⟩
  rcases Option.map_eq_some_iff.mp hfield with ⟨x, _, rfl⟩
  exact hkey

theorem fst_eq_of_toList {α : Type} {x : Option α} {wrap : α -> Value}
    (h : field ∈ (x.map (fun a => (key, wrap a))).toList) : field.fst = key := by
  rcases Option.map_eq_some_iff.mp (Option.mem_toList.mp h) with ⟨a, _, rfl⟩
  rfl

theorem fst_mem_gradedAxesOf {py : Python} {source : Record}
    (h : field ∈ gradedAxesOf py source) : field.fst ∈ axisNames := by
  have hsub : forall keys : List String, keys ⊆ axisNames ->
      field.fst ∈ keys -> field.fst ∈ axisNames := fun _ hkeys hmem => hkeys hmem
  rcases List.mem_append.mp h with h | hevidence
  · rcases List.mem_append.mp h with h | hcounts
    · rcases List.mem_append.mp h with h | hduration
      · rcases List.mem_append.mp h with h | haxes
        · rcases List.mem_append.mp h with hintvty | htotal
          · exact hsub _ (by decide) (fst_mem_of_filterMap hintvty)
          · rw [fst_eq_of_toList htotal]
            decide
        · exact hsub _ (by decide) (fst_mem_of_filterMap haxes)
      · rw [fst_eq_of_toList hduration]
        decide
    · exact hsub _ (by decide) (fst_mem_of_filterMap hcounts)
  · rcases List.mem_map.mp hevidence with ⟨key, hkey, rfl⟩
    exact List.mem_append_right _ (List.mem_filter.mp hkey).left

theorem read_writtenCurrentBest (hkey : key ∈ launchKeys) :
    (writtenCurrentBest ops call launch).read key = Record.read
        [("action", .str call.taskKind), ("tput", .float call.bestTput),
          ("variant_name", launch.variantName), ("extra_server_args", .str launch.fullArgs),
          ("final_overlay", .str launch.overlay),
          ("ttft_mean_ms", call.variant.read "ttft_mean_ms"),
          ("tpot_mean_ms", call.variant.read "tpot_mean_ms"),
          ("workspace", call.variant.read "workspace")] key := by
  have hdisjoint : forall name, name ∈ axisNames ++ constraintFieldNames ->
      name ∉ launchKeys := by decide
  unfold writtenCurrentBest
  rw [Record.read_update_of_absent, Record.read_update_of_absent]
  · intro field hfield
    rcases List.mem_map.mp hfield with ⟨name, hname, rfl⟩
    have hnot := hdisjoint name (List.mem_append_right _ hname)
    exact (ne_of_mem_of_not_mem hkey hnot).symm
  · intro field hfield
    have hnot := hdisjoint _ (List.mem_append_left _ (fst_mem_gradedAxesOf hfield))
    exact (ne_of_mem_of_not_mem hkey hnot).symm

theorem stackEntry_agrees (hplain : PlainExtra call) (hkey : key ∈ launchKeys) :
    (stackEntry ops call launch).read key = (writtenCurrentBest ops call launch).read key := by
  rw [read_stackEntry hplain hkey, read_writtenCurrentBest hkey]
  simp only [launchKeys, List.mem_cons, List.not_mem_nil, or_false] at hkey
  rcases hkey with rfl | rfl | rfl
  · rfl
  · rfl
  · rfl

/-!
## What a lift does to the stack
-/

section

variable (ops : LiftOps) (s : LiftState) (call : LiftCall)

def launchOf : ResolvedLaunch :=
  resolvedLaunch ops s.session.currentBest call.variant

def stackedBefore : Bool :=
  alreadyStacked ops s.stack call (launchOf ops s call).variantName

/-- The ends of a lift: refused, accepted with the stack left as it is, or
accepted with an entry and its gain appended. -/
inductive LiftEffect (ops : LiftOps) (s : LiftState) (call : LiftCall) :
    Bool -> LiftState -> Prop where
  | refused : LiftEffect ops s call false s
  | kept {t : LiftState} :
    t.session.currentBest = writtenCurrentBest ops call (launchOf ops s call) ->
    t.stack = s.stack -> t.gains = s.gains ->
    ((launchOf ops s call).carries = true -> stackedBefore ops s call = true) ->
    LiftEffect ops s call true t
  | appended {t : LiftState} :
    t.session.currentBest = writtenCurrentBest ops call (launchOf ops s call) ->
    t.stack = s.stack ++ [stackEntry ops call (launchOf ops s call)] ->
    t.gains = s.gains ++ [stackGain s call.bestTput] -> stackedBefore ops s call = false ->
    LiftEffect ops s call true t

theorem liftEffect : LiftEffect ops s call (liftToCurrentBest ops s call).fst
      (liftToCurrentBest ops s call).snd := by
  unfold liftToCurrentBest
  split
  · cases hcarries : (launchOf ops s call).carries with
    | false =>
      have hwinner : stackWinner ops s call (launchOf ops s call) = s := by
        rw [stackWinner, hcarries]
        rfl
      have hstack := congrArg LiftState.stack hwinner
      have hgains := congrArg LiftState.gains hwinner
      refine LiftEffect.kept rfl hstack hgains ?_
      intro h
      rw [hcarries] at h
      cases h
    | true =>
      cases hstacked : stackedBefore ops s call with
      | true =>
        have hwinner : stackWinner ops s call (launchOf ops s call) = s := by
          rw [stackWinner, if_pos hcarries]
          exact if_pos hstacked
        have hstack := congrArg LiftState.stack hwinner
        have hgains := congrArg LiftState.gains hwinner
        exact LiftEffect.kept rfl hstack hgains (fun _ => hstacked)
      | false =>
        have hwinner : stackWinner ops s call (launchOf ops s call) = { s with
              stack := s.stack ++ [stackEntry ops call (launchOf ops s call)]
              gains := s.gains ++ [stackGain s call.bestTput] } := by
          rw [stackWinner, if_pos hcarries]
          exact if_neg (Bool.not_eq_true _ ▸ hstacked)
        have hstack := congrArg LiftState.stack hwinner
        have hgains := congrArg LiftState.gains hwinner
        exact LiftEffect.appended rfl hstack hgains hstacked
  · exact LiftEffect.refused

/-!
## Runs of lifts
-/

inductive StackOp where
  | lift (call : LiftCall)
  | session (next : GradingState)

def stackMachine : Machine LiftState StackOp where
  init s := s.stack = [] ∧ s.gains = []
  step s
    | .lift call => some (liftToCurrentBest ops s call).snd
    | .session next => some { s with session := next }

def PlainLifts (_ : LiftState) : StackOp -> Prop
  | .lift call => PlainExtra call
  | .session _ => True

def SharesName (a b : Record) : Prop :=
  a.read "action" = b.read "action" ∧ a.read "variant_name" = b.read "variant_name" ∧
    (b.read "variant_name").truthy = true

/-- The lift `call` of a run found `i` entries and appended this one, with the
gain over the baseline of its own moment. -/
def Recorded (start : LiftState) (trace : List StackOp) (i : Nat)
    (entry : Record) (gain : Option PyFloat) : Prop :=
  exists before call after s, trace = before ++ .lift call :: after ∧
    (stackMachine ops).Run PlainLifts start before s ∧ s.stack.length = i ∧ s.gains.length = i ∧
    (liftToCurrentBest ops s call).snd.stack = s.stack ++ [entry] ∧
    (liftToCurrentBest ops s call).snd.gains = s.gains ++ [gain] ∧ gain = stackGain s call.bestTput

end

structure StackAligned (ops : LiftOps) (start : LiftState) (trace : List StackOp)
    (s : LiftState) : Prop where
  length : s.gains.length = s.stack.length
  gains : forall i entry gain, s.stack[i]? = some entry -> s.gains[i]? = some gain ->
    Recorded ops start trace i entry gain
  names : s.stack.Pairwise (fun a b => ¬ SharesName a b)

theorem Recorded.append {start : LiftState} {trace : List StackOp} {i : Nat} {entry : Record}
    {gain : Option PyFloat} (h : Recorded ops start trace i entry gain) (op : StackOp) :
    Recorded ops start (trace ++ [op]) i entry gain := by
  rcases h with ⟨before, call, after, s, rfl, h⟩
  exact ⟨before, call, after ++ [op], s, by simp, h⟩

theorem not_sharesName {s : LiftState} {row : Record} (hplain : PlainExtra call)
    (hrow : row ∈ s.stack) (hnew : stackedBefore ops s call = false) :
    ¬ SharesName row (stackEntry ops call (launchOf ops s call)) := by
  intro hshares
  rcases hshares with ⟨haction, hname, hnamed⟩
  rw [read_stackEntry hplain (by decide)] at haction hname hnamed
  have hsame := (Bool.or_eq_false_iff.mp hnew).left
  rw [List.any_eq_false] at hsame
  apply hsame row hrow
  rw [Bool.and_eq_true, decide_eq_true_eq, decide_eq_true_eq, haction, hname]
  constructor
  · rfl
  · have hnamed' : (launchOf ops s call).variantName.truthy = true := hnamed
    rw [either, if_pos hnamed']
    rfl

theorem stackAligned_step {start s t : LiftState} {trace : List StackOp} {op : StackOp}
    (hrun : (stackMachine ops).Run PlainLifts start trace s) (hs : StackAligned ops start trace s)
    (hplain : PlainLifts s op) (hstep : (stackMachine ops).step s op = some t) :
    StackAligned ops start (trace ++ [op]) t := by
  have hkept : t.stack = s.stack -> t.gains = s.gains ->
      StackAligned ops start (trace ++ [op]) t := by
    intro hstack hgains
    refine ⟨by rw [hstack, hgains, hs.length], ?_, by rw [hstack]; exact hs.names⟩
    intro i entry gain hentry hgain
    rw [hstack] at hentry
    rw [hgains] at hgain
    exact (hs.gains i entry gain hentry hgain).append op
  cases op with
  | session next =>
    cases hstep
    exact hkept rfl rfl
  | lift call =>
    have hlift : (liftToCurrentBest ops s call).snd = t := Option.some.inj hstep
    have heffect := liftEffect ops s call
    rw [hlift] at heffect
    generalize (liftToCurrentBest ops s call).fst = accepted at heffect
    cases heffect with
    | refused => exact hkept rfl rfl
    | kept _ hstack hgains _ => exact hkept hstack hgains
    | appended _ hstack hgains hnew =>
      constructor
      · simp [hstack, hgains, hs.length]
      · intro i entry gain hentry hgain
        rw [hstack] at hentry
        rw [hgains] at hgain
        by_cases hold : i < s.stack.length
        · rw [List.getElem?_append_left hold] at hentry
          rw [List.getElem?_append_left (hs.length ▸ hold)] at hgain
          exact (hs.gains i entry gain hentry hgain).append _
        · -- The last entry, appended by this lift.
          rw [List.getElem?_append_right (Nat.not_lt.mp hold)] at hentry
          rw [List.getElem?_append_right (hs.length ▸ Nat.not_lt.mp hold), hs.length] at hgain
          rcases List.getElem?_eq_some_iff.mp hentry with ⟨hlast, rfl⟩
          have hi : i = s.stack.length := by
            rw [List.length_singleton] at hlast
            lia
          subst hi
          simp only [Nat.sub_self, List.getElem?_cons_zero, Option.some.injEq] at hgain
          rw [← hlift] at hstack hgains
          refine ⟨trace, call, [], s, rfl, hrun, rfl, hs.length, ?_, ?_, hgain.symm⟩
          · simpa using hstack
          · rw [hgains, hgain]
      · rw [hstack, List.pairwise_append]
        refine ⟨hs.names, List.pairwise_singleton _ _, ?_⟩
        intro row hrow entry hentry
        rw [List.mem_singleton.mp hentry]
        exact not_sharesName hplain hrow hnew

/-- Each gain was recorded by the lift that appended its entry, named entries
are unique, and a lift whose winner carries a name or arguments leaves an entry
that agrees with `current_best`, unless the winner is on the stack already. -/
theorem stack_agrees {ops : LiftOps} {start s : LiftState} {trace : List StackOp}
    (hinit : (stackMachine ops).init start)
    (hrun : (stackMachine ops).Run PlainLifts start trace s) : StackAligned ops start trace s ∧
    forall call, PlainExtra call -> (liftToCurrentBest ops s call).fst = true ->
      (launchOf ops s call).carries = true ->
      (stackedBefore ops s call = true ∧ (liftToCurrentBest ops s call).snd.stack = s.stack ∧
        (liftToCurrentBest ops s call).snd.gains = s.gains) ∨
      (stackedBefore ops s call = false ∧
        exists entry, (liftToCurrentBest ops s call).snd.stack = s.stack ++ [entry] ∧
          forall key, key ∈ launchKeys -> entry.read key =
            (liftToCurrentBest ops s call).snd.session.currentBest.read key) := by
  constructor
  · refine hrun.reverse_induction ?_ ?_
    · rcases hinit with ⟨hstack, hgains⟩
      refine ⟨by simp [hstack, hgains], ?_, by simp [hstack]⟩
      intro i entry gain hentry _
      rw [hstack] at hentry
      cases hentry
    · intro trace s op t hrun hs hplain hstep
      exact stackAligned_step hrun hs hplain hstep
  · intro call hplain haccepted hcarries
    have heffect := liftEffect ops s call
    rw [haccepted] at heffect
    generalize (liftToCurrentBest ops s call).snd = t at heffect ⊢
    cases heffect with
    | kept _ hstack hgains hstacked =>
      exact Or.inl ⟨hstacked hcarries, hstack, hgains⟩
    | appended hbest hstack _ hnew =>
      refine Or.inr ⟨hnew, _, hstack, ?_⟩
      intro key hkey
      rw [hbest]
      exact stackEntry_agrees hplain hkey

def freshState : LiftState where
  session := { baselineTput := .finite 900 }

def firstLift : LiftCall where
  taskKind := "explore"
  bestTput := .finite 1000
  variant := [("name", .str "v"), ("extra_server_args", .str "--a")]

def secondLift : LiftCall where
  taskKind := "explore"
  bestTput := .finite 1100
  variant := [("name", .str "v"), ("extra_server_args", .str "--b")]

theorem stack_agrees_fresh : (liftToCurrentBest plainOps freshState firstLift).fst = true ∧
    exists entry, (liftToCurrentBest plainOps freshState firstLift).snd.stack = [entry] ∧
      plainOps.py.str (entry.read "extra_server_args") = "--a" ∧
      forall key, key ∈ launchKeys -> entry.read key =
        (liftToCurrentBest plainOps freshState firstLift).snd.session.currentBest.read
          key := by
  have hplain : PlainExtra firstLift := nofun
  have haccepted : (liftToCurrentBest plainOps freshState firstLift).fst = true := by
    decide +kernel
  refine ⟨haccepted, ?_⟩
  rcases (stack_agrees ⟨rfl, rfl⟩ (.nil freshState)).right firstLift hplain haccepted
      (by decide +kernel) with ⟨hstacked, _⟩ | ⟨_, entry, hstack, hagrees⟩
  · exact absurd hstacked (by decide +kernel)
  refine ⟨entry, hstack, ?_, hagrees⟩
  rw [hagrees "extra_server_args" (by decide)]
  decide +kernel

/-- The winner of the second lift is on the stack by its name, so its arguments
are only in `current_best`. -/
theorem stack_disagrees :
    exists s call, (stackMachine plainOps).ReachableWhere PlainLifts s ∧
      PlainExtra call ∧ (liftToCurrentBest plainOps s call).fst = true ∧
      (launchOf plainOps s call).carries = true ∧
      forall entry, entry ∈ (liftToCurrentBest plainOps s call).snd.stack ->
        entry.read "extra_server_args" ≠
          (liftToCurrentBest plainOps s call).snd.session.currentBest.read
            "extra_server_args" := by
  refine ⟨(liftToCurrentBest plainOps freshState firstLift).snd, secondLift, ?_, ?_, ?_, ?_, ?_⟩
  · exact ⟨freshState, [.lift firstLift], ⟨rfl, rfl⟩, .cons nofun rfl (.nil _)⟩
  · nofun
  · decide +kernel
  · decide +kernel
  · have htexts : forall entry, entry ∈ (liftToCurrentBest plainOps
          (liftToCurrentBest plainOps freshState firstLift).snd secondLift).snd.stack ->
        plainOps.py.str (entry.read "extra_server_args") ≠
          plainOps.py.str ((liftToCurrentBest plainOps
            (liftToCurrentBest plainOps freshState firstLift).snd
            secondLift).snd.session.currentBest.read "extra_server_args") := by
      decide +kernel
    intro entry hentry heq
    exact htexts entry hentry (congrArg plainOps.py.str heq)

end Loop
end Hyperloom
