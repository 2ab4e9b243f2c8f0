import Hyperloom.Toolbox.RealToolbox

/-!
# The outcome of a test is final

The run of a test, its builds, withdrawals of it and a recovery each may end
it.  All but the run look whether the entry still waits for an outcome; the run
records what the executor made of it either way.
-/

namespace Hyperloom
namespace Toolbox

open Library (Machine)

namespace Life

structure Final (life : Life) : Prop where
  recorded : life.recorded = life.outcome.toList
  single : life.rows.Single

section

variable {requestId : String} {life next : Life} {op : LifeOp} {mode : Mode}

theorem outcome_of_waiting (h : life.waiting = true) :
    life.outcome = none ∧ life.entry.aborted = false := by
  unfold waiting LogEntry.waiting at h
  rw [Bool.and_eq_true, Bool.not_eq_true'] at h
  exact ⟨Option.isNone_iff_eq_none.mp h.left, h.right⟩

theorem Final.change (hs : life.Sound requestId mode True) (h : life.Final)
    (hchange : Change requestId True life op next) : next.Final := by
  cases hchange with
  | record _ memory document hwaiting _ =>
    have hnone := (outcome_of_waiting (hwaiting trivial)).left
    have hempty := (hs.unrecorded hnone).left
    refine ⟨?_, h.single⟩
    show life.recorded ++ [document] = [document]
    rw [hempty]
    rfl
  | failedRow memory appended row _ =>
    refine ⟨h.recorded, ?_⟩
    split
    · exact h.single
    · exact h.single
  | written document rows _ hwrite | appended document rows _ hwrite =>
    exact ⟨h.recorded, TestRows.single_of_tells (TestRows.write_tells hwrite).left⟩
  | _ => exact ⟨h.recorded, h.single⟩

end

end Life

/-- Where no withdrawal of a test comes while the run that another one
cancelled has still to end, each test has at most one outcome recorded, its
entry has that one, and the blackboard never has both kinds. -/
theorem outcome_recorded_once {toolbox : RealToolbox}
    (h : toolboxMachine.ReachableWhere (RealToolbox.Where Life.inOrder) toolbox) :
    toolbox.Each fun _ life =>
      life.recorded.length ≤ 1 ∧ life.recorded = life.outcome.toList ∧
        ¬ (life.rows.result.isSome ∧ life.rows.withdrawal.isSome) := by
  have hfinal : toolbox.Each fun _ life => life.Final :=
    RealToolbox.each_of_reachable True
      ⟨fun _ _ _ hlife => ⟨hlife.recorded, hlife.single⟩, fun _ _ _ _ => ⟨rfl, Or.inl rfl⟩,
        fun _ _ _ _ _ hs hlife _ hchange => hlife.change hs hchange,
        fun _ _ _ hcondition => hcondition⟩ h
  refine hfinal.mono fun _ life hlife => ?_
  refine ⟨?_, hlife.recorded, ?_⟩
  · rw [hlife.recorded]
    cases life.outcome with
    | none => exact Nat.zero_le 1
    | some document => exact Nat.le_refl 1
  · intro hboth
    rcases hlife.single with hnone | hnone
    · rw [hnone] at hboth
      cases hboth.left
    · rw [hnone] at hboth
      cases hboth.right

namespace ToolboxExample

/-- A test is withdrawn while it runs, and its executor call raises instead of
being cancelled. -/
def withdrawnOnce : List ToolboxOp :=
  up ++ published "r1" "b1" ++ taken "r1" ++ [.test "r1" (.withdraw "cancelled by the submitter"),
    .test "r1" (.executed (.raised "lost")),
    .test "r1" (.writeOutcome (.result (executorError "r1" "lost")) .done), .test "r1" .runEnd,
    .test "r1" .resume]

def withdrawnTwice : List ToolboxOp :=
  up ++ published "r1" "b1" ++ taken "r1" ++ [.test "r1" (.withdraw "cancelled by the submitter"),
    .test "r1" (.withdraw "branch stopped"),
    .test "r1" (.writeOutcome (.withdrawal "branch stopped") .done),
    .test "r1" (.executed (.raised "lost"))]

end ToolboxExample

theorem outcome_recorded_once_withdrawn :
    exists toolbox, toolboxMachine.ReachableWhere (RealToolbox.Where Life.inOrder) toolbox ∧
      toolbox.tests.rows.map (fun test => test.life.recorded) =
        [[Document.result (executorError "r1" "lost")]] ∧
      toolbox.Each fun _ life =>
        life.recorded.length ≤ 1 ∧ life.recorded = life.outcome.toList ∧
          ¬ (life.rows.result.isSome ∧ life.rows.withdrawal.isSome) := by
  rcases Machine.ReachableWhere.exists_of_runIf
      (M := toolboxMachine) (C := RealToolbox.Where Life.inOrder) (P := fun toolbox =>
        toolbox.tests.rows.map (fun test => test.life.recorded) =
          [[Document.result (executorError "r1" "lost")]])
      ToolboxExample.start ToolboxExample.withdrawnOnce ⟨rfl, rfl⟩
      (by decide +kernel) with ⟨toolbox, hreachable, hrecorded⟩
  exact ⟨toolbox, hreachable, hrecorded, outcome_recorded_once hreachable⟩

/-- The result of a run replaces a withdrawal in the log, and the blackboard
keeps the withdrawal. -/
theorem result_replaces_withdrawal :
    exists toolbox, toolboxMachine.Reachable toolbox ∧
      toolbox.tests.rows.map (fun test =>
        (test.life.recorded, test.life.outcome, test.life.rows.withdrawal)) =
        [([Document.withdrawal "branch stopped", Document.result (executorError "r1" "lost")],
          some (Document.result (executorError "r1" "lost")), some ⟨"r1", "branch stopped"⟩)] :=
  Machine.Reachable.exists_of_runIf ToolboxExample.start ToolboxExample.withdrawnTwice
    ⟨rfl, rfl⟩ (by decide +kernel)

end Toolbox
end Hyperloom
