import Hyperloom.RuleGate.CommitState

/-!
# Commits and their judgements

A commit that is rewound leaves no row behind only where nothing was written
about it: the write that raised was the first after the commit and its row is
not there.  In runs with such failures only, the commits on the branches of an
idle gate are those its judgements name.
-/

namespace Hyperloom
namespace RuleGate

open Library Blackboard

/-!
## The writes after a commit

`writesHold` is the condition on a step: a commit that raises has not moved its
branch, no commit lands on one that is still to be judged, and of the writes
after a commit only the first may raise, without its row.
-/

def GateAnswer.movedAndRaised : GateAnswer -> Bool
  | .madeRaised _ => true
  | _ => false

def GateRun.raises (s : GateRun) (checked : Except BoardError (Option GateRow)) : GateAnswer -> Bool
  | .wrote result => (s.write checked result).2
  | _ => true

def GateRun.writesHold (s : GateRun) : GateOp -> Bool
  | .advance (.commit landing) answer =>
    !answer.movedAndRaised && s.calls.all fun call => call.commitOf ≠ some landing.parent
  | .advance (.register _ _ _) answer => answer ≠ .wrote (.failed true)
  | .advance (.judge landing commit digest) answer =>
    if landing.fix.isSome then
      !s.raises (s.board.writeJudgement (landing.judgementWrite commit) (some digest)) answer
    else answer ≠ .wrote (.failed true)
  | .advance (.split landing commit) answer =>
    !s.raises (s.board.recordLineage (landing.splitEvent commit)) answer
  | .advance (.rewind _ _) answer => answer = .done
  | _ => true

/-!
## The statements of a call
-/

namespace GateRun
namespace Sound

variable {s : GateRun} {landing : Landing} {commit : String}
  {rest : List GateCall} {call : GateCall} {next : Option GateCall}

theorem quiet (h : Sound s (call :: rest)) (hcall : call.landed = none)
    (hnext : next.bind GateCall.landed = none) : Sound s (next.toList ++ rest) := by
  have hcommit : call.commitOf = none := by
    rw [GateCall.commitOf, hcall]
    rfl
  have hsound : Sound (s.append none) (next.toList ++ rest) := by
    apply h.advance none
    · intro new kind commit hnew
      cases hnew
    · intro later hlater
      have hlanded : later.landed = none := by
        rw [hlater] at hnext
        exact hnext
      rw [hlanded, hcall]
      exact ⟨rfl, GateBoard.written_of_landed_none hlanded⟩
    · intro _ commit hsome
      rw [hcommit] at hsome
      cases hsome
  rwa [append_none] at hsound

attribute [local simp] statement

variable {t : GateRun} {answer : GateAnswer}

theorem verify {task : GateTask} {requestIds : List String}
    (h : Sound s (.verify task requestIds :: rest))
    (hstep : s.statement (.verify task requestIds) answer = some (t, next)) :
    Sound t (next.toList ++ rest) := by
  have hquiet : t = s ∧ next.bind GateCall.landed = none := by
    cases requestIds with
    | nil =>
      cases answer with
      | done =>
        cases hstep
        cases task with
        | _ => exact ⟨rfl, rfl⟩
      | _ => cases hstep
    | cons requestId requestIds =>
      cases answer with
      | made commit digest | madeRaised commit | admitted status branch | wrote result =>
        cases hstep
      | _ =>
        cases hstep
        exact ⟨rfl, rfl⟩
  rw [hquiet.1]
  exact h.quiet rfl hquiet.2

theorem wait {goal : LockGoal} (h : Sound s (.wait goal :: rest))
    (hstep : s.statement (.wait goal) answer = some (t, next)) : Sound t (next.toList ++ rest) := by
  cases answer with
  | done =>
    simp only [statement] at hstep
    split at hstep
    · cases hstep
    cases goal with
    | ask task =>
      cases hstep
      exact h.quiet rfl rfl
    | land branch =>
      simp only [enter] at hstep
      split at hstep
      · cases hstep
        exact h.quiet rfl rfl
      · cases hstep
        exact h.quiet rfl rfl
    | void branch =>
      simp only [enter] at hstep
      split at hstep
      · cases hstep
        exact h.quiet rfl rfl
      · cases hstep
        exact { h.quiet rfl rfl with }
  | _ => cases hstep

theorem ask {task : GateTask} (h : Sound s (.ask task :: rest))
    (hstep : s.statement (.ask task) answer = some (t, next)) : Sound t (next.toList ++ rest) := by
  cases answer with
  | admitted status branch =>
    rcases some_of_when hstep with ⟨_, hnext⟩
    cases hnext
    have hquiet : Sound s ((some (GateCall.record task.request.requestId
        (admission task status).1 true)).toList ++ rest) :=
      h.quiet rfl rfl
    unfold reserve
    split
    · exact hquiet
    · exact { hquiet with }
  | raised effect =>
    cases hstep
    exact h.quiet rfl rfl
  | _ => cases hstep

theorem record {requestId : String} {conclusion : Conclusion} {locked : Bool}
    (h : Sound s (.record requestId conclusion locked :: rest))
    (hstep : s.statement (.record requestId conclusion locked) answer =
      some (t, next)) : Sound t (next.toList ++ rest) := by
  cases answer with
  | wrote result =>
    cases hstep
    rcases s.write_cases (s.board.writeJudgement ⟨requestId, conclusion, none⟩ none) result with
      hsame | ⟨row, hchecked, hwritten⟩
    · rw [hsame]
      exact h.quiet rfl rfl
    · have hrow := GateBoard.writeJudgement_row hchecked
      have happend : Sound (s.append row) (Option.toList none ++ rest) := by
        apply h.advance row
        · intro new kind commit hnew hnames
          rw [hrow] at hnew
          cases hnew
          rw [names_judgement_of_none] at hnames
          cases hnames
        · intro later hlater
          cases hlater
        · nofun
      rcases hwritten with ⟨heq, _⟩ | ⟨heq, _⟩
      · rw [heq]
        exact happend
      · rw [heq]
        exact happend
  | _ => cases hstep

theorem cut (h : Sound s (.cut landing :: rest))
    (hstep : s.statement (.cut landing) answer = some (t, next)) :
    Sound t (next.toList ++ rest) := by
  have hinsert : forall branches,
      s.branches.insertNew ⟨landing.branch, landing.parent, []⟩ = some branches ->
      forall next : Option GateCall, next.bind GateCall.landed = none ->
      Sound { s with branches := branches } (next.toList ++ rest) := by
    intro branches hbranches next hnext
    have habsent : forall branch, branch ∈ s.branches -> branch.name ≠ landing.branch := by
      intro branch hbranch hname
      have hnone : s.branches.insertNew ⟨landing.branch, landing.parent, []⟩ = none :=
        Table.insertNew_eq_none.mpr ⟨branch, hbranch, hname⟩
      rw [hnone] at hbranches
      cases hbranches
    apply (h.quiet rfl hnext).setBranch
    · intro branch hbranch hname
      exact absurd hname (habsent branch hbranch)
    · intro branch
      rw [Table.mem_insertNew hbranches]
      constructor
      · intro hin
        rcases hin with heq | hin
        · exact Or.inl heq
        · exact Or.inr ⟨hin, habsent branch hin⟩
      · intro hin
        rcases hin with heq | ⟨hin, _⟩
        · exact Or.inl heq
        · exact Or.inr hin
  change s.cutStep landing answer = some (t, next) at hstep
  revert hstep
  fun_cases cutStep s landing answer with (intro hstep; cases hstep)
  | case3 _ branches hbranches =>
    apply hinsert branches hbranches
    split
    · rfl
    · rfl
  | _ => exact h.quiet rfl rfl

theorem makeCommit (h : Sound s (.commit landing :: rest)) (hmoved : answer.movedAndRaised = false)
    (hsettled : forall call, call ∈ rest -> call.commitOf ≠ some landing.parent)
    (hstep : s.statement (.commit landing) answer = some (t, next)) :
    Sound t (next.toList ++ rest) := by
  have hend : Sound s ((none : Option GateCall).toList ++ rest) := h.quiet rfl rfl
  change s.commitStep landing answer = some (t, next) at hstep
  revert hstep
  fun_cases commitStep s landing answer with (intro hstep; cases hstep)
  | case4 => exact h.quiet rfl rfl
  | case6 branch hbranch hhead commit digest hfresh =>
    rw [not_or, not_or] at hfresh
    apply hend.push hbranch (not_ne_iff.mp hhead) hfresh.1 hfresh.2.1 hfresh.2.2 hsettled
    · split <;> rfl
    · intro hunnamed
      split
      · rename_i hfix
        exact ⟨hfix, hunnamed⟩
      · intro kind hnames
        exact absurd hnames (hunnamed kind)
  | case8 => cases hmoved
  | _ => exact hend

/-- One of the writes after a commit: the call goes on as `later` where the row
is written and to the rewind where the write raised. -/
theorem writeAfter {row : Option GateRow} {kind : NameKind} {later : Option GateCall}
    (h : Sound s (call :: rest)) (hlanded : call.landed = some (landing, commit))
    (hrow : forall new, row = some new -> new.names = some (kind, commit))
    (hlater : forall after, later = some after ->
      after.landed = some (landing, commit) ∧ (s.append row).board.Written after)
    (hend : later = none -> (s.append row).board.Names .judged commit) :
    Sound (s.append row) (later.toList ++ rest) := by
  have hcommit : call.commitOf = some commit := by
    rw [GateCall.commitOf, hlanded]
    rfl
  apply h.advance row
  · intro new kind' commit' hnew hnames
    rw [hrow new hnew] at hnames
    cases hnames
    exact Or.inl hcommit
  · intro after hafter
    rw [hlanded]
    exact hlater after hafter
  · intro hnone commit' hcommit'
    rw [hcommit] at hcommit'
    cases hcommit'
    exact hend hnone

theorem toRewind (h : Sound s (call :: rest)) (hlanded : call.landed = some (landing, commit))
    (hunnamed : forall kind, ¬ s.board.Names kind commit) :
    Sound s (.rewind landing commit :: rest) := by
  have hnone : forall new : GateRow, none = some new -> new.names = some (.cased, commit) := by
    intro new hnew
    cases hnew
  have hsound : Sound (s.append none) ((some (GateCall.rewind landing commit)).toList ++ rest) := by
    apply h.writeAfter hlanded hnone
    · intro after hafter
      cases hafter
      refine ⟨rfl, ?_⟩
      intro kind hnames
      rcases names_append.mp hnames with hold | ⟨new, hnew, _⟩
      · exact hunnamed kind hold
      · cases hnew
    · nofun
  rwa [append_none] at hsound

theorem register {digest : String} (h : Sound s (.register landing commit digest :: rest))
    (hanswer : answer ≠ .wrote (.failed true))
    (hstep : s.statement (.register landing commit digest) answer =
      some (t, next)) : Sound t (next.toList ++ rest) := by
  rcases h.written _ List.mem_cons_self with ⟨hfix, hunnamed⟩
  cases answer with
  | wrote result =>
    simp only [statement] at hstep
    rcases s.write_cases (s.board.registerCase commit (landing.fix.getD ""))
      result with hsame | ⟨row, hchecked, ⟨heq, _⟩ | ⟨_, hfailed⟩⟩
    · rw [hsame] at hstep
      cases hstep
      exact h.toRewind rfl hunnamed
    · rw [heq] at hstep
      cases hstep
      rcases GateBoard.registerCase_row hchecked with ⟨caseRef, hrow⟩
      have hnames : forall new, row = some new -> new.names = some (.cased, commit) := by
        intro new hnew
        rw [hrow] at hnew
        cases hnew
        rfl
      apply h.writeAfter rfl hnames
      · intro after hafter
        cases hafter
        refine ⟨rfl, ?_⟩
        intro kind hkind
        rcases names_append.mp hkind with hold | ⟨new, hnew, hkind⟩
        · exact absurd hold (hunnamed kind)
        rw [hnames new hnew] at hkind
        cases hkind
        exact ⟨rfl, hfix⟩
      · nofun
    · exact absurd (congrArg GateAnswer.wrote hfailed) hanswer
  | _ => cases hstep

theorem judge {digest : String} (h : Sound s (.judge landing commit digest :: rest))
    (hhold : s.writesHold (.advance (.judge landing commit digest) answer) =
      true) (hstep : s.statement (.judge landing commit digest) answer =
      some (t, next)) : Sound t (next.toList ++ rest) := by
  have hcased : forall kind, s.board.Names kind commit ->
      kind = .cased ∧ landing.fix.isSome = true :=
    h.written _ List.mem_cons_self
  cases answer with
  | wrote result =>
    simp only [statement] at hstep
    simp only [writesHold, raises] at hhold
    rcases s.write_cases (s.board.writeJudgement
        (landing.judgementWrite commit) (some digest)) result with
      hsame | ⟨row, hchecked, ⟨heq, _⟩ | ⟨heq, hfailed⟩⟩
    · rw [hsame] at hstep hhold
      cases hstep
      apply h.toRewind rfl
      intro kind hnames
      rw [(hcased kind hnames).2] at hhold
      cases hhold
    · rw [heq] at hstep
      cases hstep
      have hnames : forall new, row = some new -> new.names = some (.judged, commit) := by
        intro new hnew
        rw [GateBoard.writeJudgement_row hchecked] at hnew
        cases hnew
        exact landing.names_judgementWrite commit (some digest)
      have hjudged : (s.append row).board.Names .judged commit := by
        rw [GateBoard.writeJudgement_row hchecked]
        exact names_append.mpr (Or.inr ⟨_, rfl, landing.names_judgementWrite commit (some digest)⟩)
      apply h.writeAfter rfl hnames
      · intro after hafter
        split at hafter
        · rename_i hcon
          cases hcon
        · rcases some_of_when hafter with ⟨_, rfl⟩
          exact ⟨rfl, hjudged⟩
      · exact fun _ => hjudged
    · rw [heq, hfailed] at hhold
      split at hhold
      · cases hhold
      · simp at hhold
  | _ => cases hstep

theorem splitOff (h : Sound s (.split landing commit :: rest))
    (hhold : s.writesHold (.advance (.split landing commit) answer) = true)
    (hstep : s.statement (.split landing commit) answer = some (t, next)) :
    Sound t (next.toList ++ rest) := by
  have hjudged : s.board.Names .judged commit := h.written _ List.mem_cons_self
  cases answer with
  | wrote result =>
    simp only [statement] at hstep
    simp only [writesHold, raises] at hhold
    rcases s.write_cases (s.board.recordLineage (landing.splitEvent commit)) result with
      hsame | ⟨row, hchecked, ⟨heq, _⟩ | ⟨heq, _⟩⟩
    · rw [hsame] at hhold
      cases hhold
    · rw [heq] at hstep
      cases hstep
      have hnames : forall new, row = some new -> new.names = some (.split, commit) := by
        intro new hnew
        rcases GateBoard.recordLineage_row hchecked with rfl | rfl
        · cases hnew
        · cases hnew
          rfl
      have hsound : Sound (s.append row) ((none : Option GateCall).toList ++ rest) := by
        apply h.writeAfter rfl hnames
        · intro after hafter
          cases hafter
        · exact fun _ => names_append.mpr (Or.inl hjudged)
      exact { hsound with }
    · rw [heq] at hhold
      cases hhold
  | _ => cases hstep

theorem statement (h : Sound s (call :: rest))
    (hrest : forall other, other ∈ rest -> other ∈ s.calls)
    (hhold : s.writesHold (.advance call answer) = true)
    (hstep : s.statement call answer = some (t, next)) : Sound t (next.toList ++ rest) := by
  cases call with
  | verify task requestIds => exact h.verify hstep
  | wait goal => exact h.wait hstep
  | ask task => exact h.ask hstep
  | record requestId conclusion locked => exact h.record hstep
  | cut landing => exact h.cut hstep
  | commit landing =>
    simp only [writesHold, Bool.and_eq_true, Bool.not_eq_true',
      List.all_eq_true, decide_eq_true_eq] at hhold
    exact h.makeCommit hhold.1 (fun other hother => hhold.2 other (hrest other hother)) hstep
  | register landing commit digest =>
    exact h.register (of_decide_eq_true hhold) hstep
  | judge landing commit digest => exact h.judge hhold hstep
  | split landing commit => exact h.splitOff hhold hstep
  | rewind landing commit =>
    have hanswer : answer = .done := of_decide_eq_true hhold
    rw [hanswer] at hstep
    cases hstep
    exact h.takeBack

/-!
## Every run
-/

theorem begin (h : Sound s s.calls) (hcall : call.landed = none) :
    Sound (s.begin call) (s.begin call).calls := by
  have hadded := (h.addCall hcall).perm (List.perm_append_singleton call s.calls).symm
  exact { hadded with }

theorem otherRow (h : Sound s rest) {row : GateRow}
    (hrow : row.names = none ∨ row.names = some (.cased, s.root)) :
    Sound (s.append (some row)) rest := by
  -- As a call that has made no commit writes its row and ends.
  have hcall : Sound s (.record "" .recordedOnly true :: rest) := h.addCall rfl
  suffices hend : Sound (s.append (some row)) ((none : Option GateCall).toList ++ rest) from hend
  apply hcall.advance (some row)
  · intro new kind commit hnew hnames
    cases hnew
    rcases hrow with hrow | hrow
    · rw [hrow] at hnames
      cases hnames
    · rw [hrow] at hnames
      cases hnames
      exact Or.inr ⟨rfl, rfl⟩
  · intro later hlater
    cases hlater
  · nofun

theorem moveBranch (h : Sound s rest) {name : String} (base : String)
    (hempty : forall branch, s.branches.find? name = some branch -> branch.commits = []) :
    Sound { s with branches := s.branches.insertOrReplace ⟨name, base, []⟩ } rest := by
  apply h.setBranch
  · intro branch hbranch hname
    exact hempty branch (Table.find?_eq_some.mpr ⟨hbranch, hname⟩)
  · intro branch
    rw [Table.mem_insertOrReplace]

theorem step {op : GateOp} (h : Sound s s.calls)
    (hhold : s.writesHold op = true) (hstep : gateStep s op = some t) : Sound t t.calls := by
  revert hstep
  fun_cases gateStep s op with (intro hstep; try cases hstep)
  | case1 request judgement fix =>
    revert hstep
    fun_cases settle s request judgement fix with (intro hstep; cases hstep)
    | _ => exact h.begin rfl
  | case9 call answer hmem =>
    rcases Option.map_eq_some_iff.mp hstep with ⟨after, hafter, rfl⟩
    rcases after with ⟨u, next⟩
    have hsound := (h.perm (List.perm_cons_erase hmem)).statement
      (fun other hother => List.mem_of_mem_erase hother) hhold hafter
    exact { hsound with }
  | case11 => exact { h with }
  | case12 row hrow => exact h.otherRow hrow
  | case14 name base branch hbranch hempty =>
    apply h.moveBranch
    intro other hother
    rw [hbranch] at hother
    cases hother
    exact hempty
  | case16 name base hnone =>
    apply h.moveBranch
    intro other hother
    rw [hnone] at hother
    cases hother
  | _ => exact h.begin rfl

end Sound
end GateRun

def WritesHold (s : GateRun) (op : GateOp) : Prop := s.writesHold op = true

instance (s : GateRun) (op : GateOp) : Decidable (WritesHold s op) :=
  inferInstanceAs (Decidable (s.writesHold op = true))

theorem GateRun.Sound.of_reachable {s : GateRun} (h : gateMachine.ReachableWhere WritesHold s) :
    GateRun.Sound s s.calls := by
  refine h.invariant (I := fun s => GateRun.Sound s s.calls) ?_ ?_
  · intro start hinit
    rw [hinit]
    exact initial start.root
  · intro s op t hs hhold hstep
    exact hs.step hhold hstep

/-- Where the writes after each commit hold, an idle gate's commits are those
its judgements name, and no case or split names a commit that was rewound. -/
theorem commits_stand_with_judgements {s : GateRun}
    (h : gateMachine.ReachableWhere WritesHold s) (hidle : s.calls = []) :
    (forall commit, s.OnBranch commit <-> s.board.Names .judged commit) ∧
    (forall case, GateRow.regression case ∈ s.board.rows ->
      case.fixCommit ∉ s.rewound) ∧
    (forall event, GateRow.lineage event ∈ s.board.rows ->
      event.kind = .split -> event.commitId ∉ s.rewound) := by
  have hsound := GateRun.Sound.of_reachable h
  have hnamed : forall kind commit, s.board.Names kind commit -> commit ∉ s.rewound := by
    intro kind commit hnames hrewound
    rcases hsound.rewound commit hrewound with ⟨hoff, hroot⟩
    rcases hsound.named kind commit hnames with hon | ⟨_, heq⟩
    · exact hoff hon
    · exact hroot heq
  constructor
  · intro commit
    constructor
    · intro hon
      rcases hsound.judged commit hon with hnames | ⟨call, hcall, _⟩
      · exact hnames
      · rw [hidle] at hcall
        cases hcall
    · intro hnames
      rcases hsound.named .judged commit hnames with hon | ⟨hkind, _⟩
      · exact hon
      · cases hkind
  · constructor
    · intro case hcase
      exact hnamed .cased case.fixCommit ⟨_, hcase, rfl⟩
    · intro event hevent hkind
      exact hnamed .split event.commitId ⟨_, hevent, if_pos hkind⟩

/-!
## A landing
-/

def fixJudgement : Judgement where
  verdict := .regressed
  accuracy := .passed
  requestIds := ["t1"]
  fixesCorrectness := true

def fixRequest : TestRequest where
  requestId := "t1"
  kind := .test
  purpose := .confirm
  branch := "b1"
  parentCommit := "c0"
  actionFingerprint := "a1"

def cleanRepro : GateTest where
  request :=
    { requestId := "t2"
      kind := .repro
      purpose := .repro
      branch := "b1"
      parentCommit := "c0"
      actionFingerprint := "a1" }
  attachments := ["case"]
  validity := some .succeeded
  reproVerdict := some GateBoard.notReproduced

def splitLanding : Landing where
  branch := "b2"
  request := fixRequest
  judgement := fixJudgement
  fix := some "t2"
  reason := some "fix"

/-- The fork is asked for and admitted, and its landing has made commit `c1`,
its case and its judgement. -/
def splitTrace : List GateOp :=
  [.test ⟨fixRequest, [], some .succeeded, none⟩, .test cleanRepro,
    .fork fixRequest fixJudgement "fix" (some "t2"),
    .advance (.verify (.fork fixRequest fixJudgement "fix" (some "t2"))
      ["t1"]) .done, .advance (.verify (.fork fixRequest fixJudgement "fix" (some "t2")) [])
      .done, .advance (.wait (.ask (.fork fixRequest fixJudgement "fix" (some "t2"))))
      .done, .advance (.ask (.fork fixRequest fixJudgement "fix" (some "t2")))
      (.admitted .accepted "b2"), .advance (.record "t1" .splitRequested true) (.wrote .ok),
    .landSplit "b2", .advance (.wait (.land "b2")) .done, .advance (.cut splitLanding) .done,
    .advance (.commit splitLanding) (.made "c1" "d1"),
    .advance (.register splitLanding "c1" "d1") (.wrote .ok),
    .advance (.judge splitLanding "c1" "d1") (.wrote .ok)]

/-- The split is recorded: the commit is on its branch and judged. -/
theorem landed_split_is_judged :
    exists s, gateMachine.ReachableWhere WritesHold s ∧ s.calls = [] ∧
      s.OnBranch "c1" ∧ s.board.Names .judged "c1" := by
  have hrun := Machine.ReachableWhere.exists_of_runIf (M := gateMachine)
    (C := WritesHold) (P := fun s => s.calls = [] ∧ s.OnBranch "c1") { root := "c0" }
    (splitTrace ++ [.advance (.split splitLanding "c1") (.wrote .ok)]) rfl (by decide +kernel)
  rcases hrun with ⟨s, hs, hidle, hon⟩
  exact ⟨s, hs, hidle, hon, ((commits_stand_with_judgements hs hidle).1 "c1").mp hon⟩

def GateOp.raises : GateOp -> Bool
  | .advance _ (.raised _) => true
  | .advance _ (.madeRaised _) => true
  | .advance _ (.wrote (.failed _)) => true
  | _ => false

/-- The write of the split raises and the commit is rewound. -/
def failedSplitTrace : List GateOp :=
  splitTrace ++ [.advance (.split splitLanding "c1") (.wrote (.failed false)),
      .advance (.rewind splitLanding "c1") .done]

/-- The split is not recorded, the only write that raises: the commit is
rewound, and its judgement and its case stay. -/
theorem rewound_split_stays_judged :
    exists trace s,
      Machine.Run gateMachine Machine.Always { root := "c0" } trace s ∧
      (trace.filter GateOp.raises).length = 1 ∧ s.calls = [] ∧
      ¬ s.OnBranch "c1" ∧ s.board.Names .judged "c1" ∧
      "c1" ∈ s.rewound ∧ s.board.Names .cased "c1" := by
  have hrun := Machine.Run.exists_of_runIf (M := gateMachine)
    (C := Machine.Always) (P := fun s => s.calls = [] ∧ ¬ s.OnBranch "c1" ∧
      s.board.Names .judged "c1" ∧ "c1" ∈ s.rewound ∧
      s.board.Names .cased "c1") { root := "c0" } failedSplitTrace (by decide +kernel)
  rcases hrun with ⟨s, hs, hfacts⟩
  exact ⟨failedSplitTrace, s, hs, by decide +kernel, hfacts⟩

end RuleGate
end Hyperloom
