import Hyperloom.Library.Machine
import Hyperloom.State.GradedComparison
import Hyperloom.State.TaskRegistry

/-!
# Lifting a winner to the current best

`lift_to_current_best` accepts a measured winner: it appends the winner to the
optimization stack, unless it is there already, and overwrites `current_best`.
-/

namespace Hyperloom
namespace Loop

open Library Common State

/-!
## Calls
-/

/-- The helpers that parse server arguments, and what a text and a value are in
Python. -/
structure LiftOps where
  py : Python
  stripBenchmarkHarnessFlags : Value -> String
  dedupeExtraServerArgs : String -> String
  canonicalFingerprint : String -> Record -> String

structure LiftCall where
  taskKind : String
  bestTput : PyFloat
  variant : Record
  gapCanonicalId : String := ""
  entryExtra : Record := []

/-- What a lift reads and writes: the grading state with `current_best`, the
optimization stack and the gains recorded beside it. -/
structure LiftState where
  session : GradingState
  stack : List Record := []
  gains : List (Option PyFloat) := []

def gradedSource (call : LiftCall) : Record :=
  call.variant.write gradedOutput (.float call.bestTput)

/-!
## Refusals
-/

/-- The lift of an enablement configuration before there is a baseline, which
is not graded. -/
def prebaselineEnablement (s : LiftState) (call : LiftCall) : Bool :=
  decide (call.taskKind = "integrate_patch") && (s.session.baselineTput.le (.finite 0) &&
      ((call.variant.read "baseline_enablement").isTrue &&
        (call.variant.read "attribution_eligible").isFalse))

/-- `bv.get("keep_reason") == KEEP_REASON_CORRECTNESS_FIX`. -/
def correctnessFix (variant : Record) : Bool :=
  (variant.read "keep_reason").isText "correctness_fix"

def refusesGradedWinner (variant : Record) (graded : GradedComparison) : Bool :=
  if !graded.comparable then true
  else if graded.vetoReason.isSome then true
  else if graded.gradedOnIntvty && decide (graded.verdict ≠ .keep) &&
      !correctnessFix variant then true
  else
    graded.reference.isPos && (PyFloat.le (.finite graded.candidate)
      graded.reference && !correctnessFix variant)

variable (ops : LiftOps) (s : LiftState) (call : LiftCall)

def gradeWinner : GradedComparison :=
  resolveGradedComparison ops.py s.session (gradedSource call) {}

def accepts : Bool :=
  prebaselineEnablement s call || !refusesGradedWinner call.variant (gradeWinner ops s call)

/-!
## The launch of a winner
-/

structure ResolvedLaunch where
  variantName : Value
  candidateArgs : String
  fullArgs : String
  overlay : String

def either (a b : Value) : Value :=
  if a.truthy then a else b

/-- `str(value or "").strip()`. -/
def stripped (value : Value) : String :=
  strip (ops.py.str (either value (.str "")))

def mergeCumulativeExtraServerArgs (baseArgs candidateArgs fullArgs : String) : String :=
  let base := strip baseArgs
  let candidate := strip candidateArgs
  let full := strip fullArgs
  ops.dedupeExtraServerArgs (if full ≠ "" ∧ full ≠ candidate then full
    else if candidate ≠ "" ∧ base ≠ "" then
      if candidate = base ∨ (base ++ " ").toList <+: candidate.toList ∨
          base ∈ words candidate then candidate
      else strip (base ++ " " ++ candidate)
    else if candidate ≠ "" then candidate
    else if full ≠ "" then full
    else base)

/-- Whether the winner's controls replace the launch: some arguments are
removed, some variables unset, or the mode is `replace`. -/
def controlsEffective (variant : Record) : Bool :=
  (variant.read "remove_args").truthy || ((variant.read "unset_envs").truthy ||
    decide ((stripped ops (variant.read "args_mode")).toLower = "replace"))

def resolvedLaunch (previous variant : Record) : ResolvedLaunch :=
  let candidateArgs := ops.stripBenchmarkHarnessFlags
    (either (variant.read "candidate_extra_server_args") (variant.read "extra_server_args"))
  let ownArgs := ops.stripBenchmarkHarnessFlags (variant.read "extra_server_args")
  { variantName := variant.read "name"
    candidateArgs := candidateArgs
    fullArgs :=
      if controlsEffective ops variant then ops.dedupeExtraServerArgs ownArgs
      else
        mergeCumulativeExtraServerArgs ops
          (ops.stripBenchmarkHarnessFlags (previous.read "extra_server_args")) candidateArgs ownArgs
    overlay :=
      if stripped ops (variant.read "final_overlay") ≠ "" then
        stripped ops (variant.read "final_overlay")
      else stripped ops (previous.read "final_overlay") }

/-!
## The stack
-/

/-- `_already_stacked`: an entry with the action and the name, or with the
fingerprint the winner carries. -/
def alreadyStacked (stack : List Record) (call : LiftCall) (variantName : Value) : Bool :=
  stack.any (fun row =>
    decide (ops.py.str (row.read "action") = call.taskKind) &&
      decide (ops.py.str (row.read "variant_name") = ops.py.str (either variantName (.str "")))) ||
  (decide (ops.py.str (either (call.variant.read "fingerprint") (.str "")) ≠ "") &&
    stack.any (fun row =>
      decide (ops.py.str (either (call.variant.read "fingerprint") (.str "")) =
        ops.py.str (either (row.read "fingerprint") (.str "")))))

def variantFingerprint (variant : Record) (launch : ResolvedLaunch) : String :=
  if stripped ops (variant.read "fingerprint") ≠ "" then
    stripped ops (variant.read "fingerprint")
  else
    ops.canonicalFingerprint (if launch.candidateArgs ≠ "" then launch.candidateArgs
      else launch.fullArgs) variant

/-- `value not in (None, "", [], {})`. -/
def givesEntry : Value -> Bool
  | .none => false
  | .str s => decide (s ≠ "")
  | .list items => !items.isEmpty
  | .dict fields => !fields.isEmpty
  | _ => true

/-- What `_stack_entry` records of the launch and the measurement, with the
caller's own fields written over it.  The fields that only describe the winner
are left out. -/
def stackEntry (launch : ResolvedLaunch) : Record :=
  let entry : Record :=
    [("action", .str call.taskKind), ("variant_name", launch.variantName),
      ("candidate_extra_server_args", .str launch.candidateArgs),
      ("extra_server_args", .str launch.fullArgs), ("tput", .float call.bestTput)]
  (((entry.writeText "fingerprint" (variantFingerprint ops call.variant launch)).writeText
      "gap_canonical_id" call.gapCanonicalId).writeText "final_overlay" launch.overlay).update
    (call.entryExtra.filter (fun field => givesEntry field.snd))

/-- `append_stack_gain_entry`: the gain over the baseline. -/
def stackGain (newTput : PyFloat) : Option PyFloat :=
  gainPct (finiteOrZero newTput) (.finite (finiteOrZero s.session.baselineTput))
where
  /-- `to_float(x, 0.0)`. -/
  finiteOrZero : PyFloat -> Rat
    | .finite q => q
    | _ => 0

variable (launch : ResolvedLaunch)

def appendStackEntry : LiftState :=
  if alreadyStacked ops s.stack call launch.variantName then s
  else
    { s with
      stack := s.stack ++ [stackEntry ops call launch]
      gains := s.gains ++ [stackGain s call.bestTput] }

def ResolvedLaunch.carries : Bool :=
  decide (launch.candidateArgs ≠ "") || launch.variantName.truthy

/-- A winner that carries neither leaves no entry. -/
def stackWinner : LiftState :=
  if launch.carries then appendStackEntry ops s call launch else s

/-- What `_write_current_best` records of the launch, the measurement and the
axes it was graded on. -/
def writtenCurrentBest : Record :=
  Record.update (Record.update [("action", .str call.taskKind), ("tput", .float call.bestTput),
        ("variant_name", launch.variantName), ("extra_server_args", .str launch.fullArgs),
        ("final_overlay", .str launch.overlay), ("ttft_mean_ms", call.variant.read "ttft_mean_ms"),
        ("tpot_mean_ms", call.variant.read "tpot_mean_ms"),
        ("workspace", call.variant.read "workspace")] (constraintFields call.variant))
    (gradedAxesOf ops.py (gradedSource call))

def liftToCurrentBest : Bool × LiftState :=
  if accepts ops s call then
    let launch := resolvedLaunch ops s.session.currentBest call.variant
    (true, { stackWinner ops s call launch with
        session := { s.session with currentBest := writtenCurrentBest ops call launch } })
  else (false, s)

/-!
## Constraints of accepted winners
-/

theorem comparable_of_not_refused {variant : Record} {graded : GradedComparison}
    (h : refusesGradedWinner variant graded = false) :
    graded.comparable = true ∧ graded.vetoReason = none := by
  revert h
  fun_cases refusesGradedWinner variant graded with (intro h; try cases h)
  | case4 hcomparable hveto => exact ⟨by simpa using hcomparable, by simpa using hveto⟩

/-- Without the exemption of a correctness fix, a winner graded on interactivity
is accepted only on a KEEP, and one graded on output throughput only above its
reference. -/
theorem kept_of_not_refused {variant : Record} {graded : GradedComparison}
    (h : refusesGradedWinner variant graded = false) (hfix : correctnessFix variant = false) :
    (graded.gradedOnIntvty = true -> graded.verdict = .keep) ∧ (graded.reference.isPos = true ->
      PyFloat.le (.finite graded.candidate) graded.reference = false) := by
  revert h
  fun_cases refusesGradedWinner variant graded with (intro h; try cases h)
  | case4 _ _ hkept =>
    rw [hfix, Bool.not_false, Bool.and_true] at hkept h
    constructor
    · intro hintvty
      rw [hintvty, Bool.true_and, decide_eq_true_eq] at hkept
      exact not_not.mp hkept
    · intro hpos
      rw [hpos] at h
      exact h

/-- The winner is graded on output throughput with nothing to beat. -/
def noAnchor : Bool :=
  !(gradeWinner ops s call).gradedOnIntvty && !(gradeWinner ops s call).reference.isPos

theorem clearsGainGates_of_accepted {ops : LiftOps} {s : LiftState} {call : LiftCall}
    (haccepted : refusesGradedWinner call.variant (gradeWinner ops s call) = false)
    (hfix : correctnessFix call.variant = false) (hanchor : noAnchor ops s call = false) :
    clearsGainGates ops.py s.session (gradedSource call) {} = true := by
  rcases kept_of_not_refused haccepted hfix with ⟨hkeep, habove⟩
  cases hintvty : (gradeWinner ops s call).gradedOnIntvty with
  | true => exact clearsGainGates_of_keep (hkeep hintvty)
  | false =>
    have hpos : (gradeWinner ops s call).reference.isPos = true := by
      simpa [noAnchor, hintvty] using hanchor
    exact clearsGainGates_of_reaches rfl (comparable_of_not_refused haccepted).left hintvty
      (reaches_of_above hpos (habove hpos))

/-- An accepted graded winner meets the session's constraints if it passed the
gain gates of its axis, which every winner did that is no correctness fix and
had a reference to beat. -/
theorem accepted_meets_constraints {ops : LiftOps} {s : LiftState}
    {call : LiftCall} (haccepted : (liftToCurrentBest ops s call).fst = true)
    (hgraded : prebaselineEnablement s call = false)
    (hgates : clearsGainGates ops.py s.session (gradedSource call) {} = true ∨
      (correctnessFix call.variant = false ∧ noAnchor ops s call = false)) :
    constraintVetoReason ops.py (gradedSource call) s.session = none := by
  have hkept : refusesGradedWinner call.variant (gradeWinner ops s call) = false := by
    unfold liftToCurrentBest at haccepted
    split at haccepted
    · rename_i haccepts
      unfold accepts at haccepts
      rw [hgraded, Bool.false_or, Bool.not_eq_true'] at haccepts
      exact haccepts
    · cases haccepted
  have hclears : clearsGainGates ops.py s.session (gradedSource call) {} = true := by
    rcases hgates with hclears | ⟨hfix, hanchor⟩
    · exact hclears
    · exact clearsGainGates_of_accepted hkept hfix hanchor
  have hveto := (comparable_of_not_refused hkept).right
  unfold gradeWinner at hveto
  rw [vetoReason_resolveGradedComparison, if_pos hclears] at hveto
  exact hveto

def plainOps : LiftOps where
  py := { floatOf := fun _ => none, textOf := fun _ => "", equal := fun _ _ => false }
  stripBenchmarkHarnessFlags
    | .str s => s
    | _ => ""
  dedupeExtraServerArgs args := args
  canonicalFingerprint args _ := args

def budgetedState : LiftState where
  session :=
    { baselineTput := .finite 1000
      currentBest := [("tput", .float (.finite 1000))]
      latencyBudgetMs := .finite 100 }

def fasterWinner : LiftCall where
  taskKind := "explore"
  bestTput := .finite 1100
  variant := [("name", .str "v"), ("e2el_mean_ms", .float (.finite 50))]

def slowFix : LiftCall where
  taskKind := "integrate_patch"
  bestTput := .finite 985
  variant :=
    [("name", .str "t-spec"), ("keep_reason", .str "correctness_fix"),
      ("e2el_mean_ms", .float (.finite 200))]

theorem accepted_meets_constraints_faster :
    (liftToCurrentBest plainOps budgetedState fasterWinner).fst = true ∧
      constraintVetoReason plainOps.py (gradedSource fasterWinner)
        budgetedState.session = none := by
  have haccepted : (liftToCurrentBest plainOps budgetedState fasterWinner).fst = true := by
    decide +kernel
  refine ⟨haccepted, accepted_meets_constraints haccepted ?_ (Or.inr ⟨?_, ?_⟩)⟩
  · decide +kernel
  · decide +kernel
  · decide +kernel

theorem accepted_breaks_constraint :
    prebaselineEnablement budgetedState slowFix = false ∧
      (liftToCurrentBest plainOps budgetedState slowFix).fst = true ∧
      constraintVetoReason plainOps.py (gradedSource slowFix)
        budgetedState.session = some .latencyBudgetExceeded := by
  decide +kernel

end Loop
end Hyperloom
