import Hyperloom.ForgeLoop.Campaign

/-!
# The best of a campaign never regresses

Between iterations the bar is the score of the recorded best, or the score the
campaign started from while there is none.  Every KEEP clears it by a
thousandth of it.
-/

namespace Hyperloom
namespace ForgeLoop

open Library

/-!
## What the reductions do to the best
-/

namespace BestRecord

variable {best : BestRecord} {standing : LoopStanding}

theorem synced_commitHash (best : BestRecord) (standing : LoopStanding) :
    (best.synced standing).commitHash = best.commitHash := by
  unfold synced
  split
  · rfl
  · split <;> rfl

theorem synced_meanCaseSpeedup (start : Rat)
    (hbar : standing.bestMeanCaseSpeedup = some (best.meanCaseSpeedup.getD start))
    (hreal : best.meanCaseSpeedup = none -> best.real = false) :
    (best.synced standing).meanCaseSpeedup = best.meanCaseSpeedup := by
  unfold synced
  rw [hbar]
  dsimp only
  split
  · rename_i hif
    cases hscore : best.meanCaseSpeedup with
    | none =>
      rw [hreal hscore] at hif
      cases hif
    | some score => rfl
  · rfl

theorem synced_real (best : BestRecord) (standing : LoopStanding) :
    (best.synced standing).real = best.real := by
  unfold synced
  split
  · rfl
  · split <;> rfl

end BestRecord

variable {kept : Kept} {loop : LoopMemory}

namespace RunState

variable {state next : RunState} {policy : StallPolicy}

theorem recordKeep_spec {commit head : String}
    (h : state.recordKeep kept commit head policy = some next) :
    next.best.meanCaseSpeedup = some kept.score ∧
      next.best.commitHash = (if commit = "" then state.best.commitHash else commit) ∧
      next.cumulative.kept = state.cumulative.kept + 1 ∧ kept.iteration < next.nextIteration ∧
      next.baselineCaseTimes = state.baselineCaseTimes ∧
      next.unscoredCases = state.unscoredCases := by
  rcases Option.map_eq_some_iff.mp h with ⟨reduced, hreduced, rfl⟩
  rcases some_of_guard hreduced with ⟨_, rfl⟩
  refine ⟨?_, BestRecord.synced_commitHash _ _, rfl, Nat.lt_succ_self _, rfl, rfl⟩
  apply BestRecord.synced_meanCaseSpeedup kept.score rfl
  intro hnone
  cases hnone

/-- A rejected candidate leaves everything but the best's score alone, and
that only moves up to the bar. -/
theorem recordOutcome_spec {result : Reverted}
    (h : loop.recordOutcome state result policy = some next) : (exists standing : LoopStanding,
      standing.bestMeanCaseSpeedup = loop.bestMeanCaseSpeedup ∧
        next.best = state.best.synced standing) ∧ next.cumulative.kept = state.cumulative.kept ∧
      next.baselineCaseTimes = state.baselineCaseTimes ∧ next.bestCaseTimes = state.bestCaseTimes ∧
      next.unscoredCases = state.unscoredCases := by
  rcases Option.map_eq_some_iff.mp h with ⟨reduced, hreduced, hnext⟩
  rcases some_of_guard hreduced with ⟨_, rfl⟩
  rw [← hnext]
  exact ⟨⟨_, rfl, rfl⟩, rfl, rfl, rfl, rfl⟩

end RunState

/-!
## The invariant
-/

theorem incumbent_pos {times baseline : CaseTimes} {unscored : List String} {score : Rat}
    (h : incumbentMeanCaseSpeedup times baseline unscored = some score) : 0 < score := by
  unfold incumbentMeanCaseSpeedup at h
  split at h
  · cases h
    exact zero_lt_one
  · split at h
    · cases h
    rename_i result hresult
    cases h
    cases result with
    | none => exact zero_lt_one
    | some score => exact (calculateMeanCaseSpeedup_some hresult).1

theorem LoopMemory.le_bar {score : Rat} (h : loop.bestMeanCaseSpeedup = some score) :
    score ≤ loop.bar := by
  unfold bar
  rw [h]
  dsimp only
  split
  · rename_i hzero
    rw [hzero]
    exact zero_le_one
  · exact le_refl _

theorem Setup.margin_le_score {setup : Setup} {attempt : Attempt} {iteration : Nat}
    (h : setup.decideKeep loop attempt iteration = some kept) :
    1001 / 1000 * loop.bar ≤ kept.score := by
  revert h
  fun_cases decideKeep setup loop attempt iteration with (intro h; cases h)
  | case3 _ _ _ _ hif =>
    simp only [clearsKeepBar, passesKeepThreshold, Bool.and_eq_true, decide_eq_true_eq] at hif
    exact (margin_le_required _ _ _ _).trans hif.1.1.2

namespace Campaign

def best (s : Campaign) : Option Rat := s.state.best.meanCaseSpeedup

/-- The journal's KEEP has not been reduced into the run state. -/
structure Waiting (start : Rat) (state : RunState) (head : String) (p : PendingKeep) : Prop where
  margin : 1001 / 1000 * state.best.meanCaseSpeedup.getD start ≤ p.kept.score
  base : state.best.meanCaseSpeedup ≠ none -> state.best.commitHash = p.baseHead
  committed : head ≠ p.baseHead -> head ≠ ""

def Applied (state : RunState) (head : String) (p : PendingKeep) : Prop :=
  state.best.meanCaseSpeedup = some p.kept.score ∧
    state.best.commitHash = head ∧ p.kept.iteration < state.nextIteration

def Live (start : Rat) (s : Campaign) (bar : Option Rat) : Stage -> Prop
  | .idle => s.pending = none ∧ bar = some (s.best.getD start)
  | .journaled p =>
    s.pending = some p ∧ Waiting start s.state s.head p ∧
      s.head = p.baseHead ∧ bar = some (s.best.getD start)
  | .committed p =>
    s.pending = some p ∧ Waiting start s.state s.head p ∧ s.head ≠ p.baseHead
  | .promoted p =>
    s.pending = some p ∧ Waiting start s.state s.head p ∧
      s.head ≠ p.baseHead ∧ bar = some p.kept.score
  | .recorded =>
    s.best ≠ none ∧ s.state.best.commitHash = s.head ∧ bar = some (s.best.getD start)
  | .measured kept =>
    s.pending = none ∧ s.best ≠ none ∧
      1001 / 1000 * s.best.getD start ≤ kept.score ∧ bar = some kept.score

structure Scored (start : Rat) (state : RunState) : Prop where
  positive : 0 < start
  floor : start * (1001 / 1000) ^ state.cumulative.kept ≤ state.best.meanCaseSpeedup.getD start
  unkept : state.best.meanCaseSpeedup = none -> state.best.real = false ∧ state.cumulative.kept = 0
  named : state.best.meanCaseSpeedup ≠ none -> state.best.commitHash ≠ ""

structure Sound (start : Rat) (s : Campaign) : Prop where
  scored : Scored start s.state
  settled : s.pending = none -> s.best ≠ none -> s.state.best.commitHash = s.head
  held : forall p, s.pending = some p -> Applied s.state s.head p ∨ Waiting start s.state s.head p
  incumbent : s.best = none -> (forall p, s.pending = some p -> s.head = p.baseHead) ->
    incumbentMeanCaseSpeedup s.state.bestCaseTimes s.state.baselineCaseTimes
      s.state.unscoredCases = some start
  live : forall session, s.session = some session ->
    Live start s session.loop.bestMeanCaseSpeedup session.stage

/-- The recorded best does not get worse from `s` to `t`. -/
def BestLe (s t : Campaign) : Prop :=
  forall score, s.best = some score -> exists next, t.best = some next ∧ score ≤ next

variable {setup : Setup} {start : Rat} {s t : Campaign}

theorem BestLe.of_eq (h : t.best = s.best) : BestLe s t := by
  intro score hscore
  exact ⟨score, h.trans hscore, le_refl score⟩

theorem Sound.starts (h : setup.Starts start s) : Sound start s := by
  cases h with
  | fresh times head hscore =>
    constructor
    · constructor
      · exact incumbent_pos hscore
      · simp [Setup.fresh]
      · intro _
        exact ⟨rfl, rfl⟩
      · intro hsome
        exact absurd rfl hsome
    · intro _ hsome
      exact absurd rfl hsome
    · nofun
    · intro _ _
      exact hscore
    · intro session hsession
      cases hsession
      exact ⟨rfl, rfl⟩
  | warm times unscored head h hscore =>
    constructor
    · constructor
      · exact hscore
      · simp [Setup.warm]
      · nofun
      · intro _
        exact h
    · intro _ _
      rfl
    · nofun
    · nofun
    · intro session hsession
      cases hsession
      exact ⟨rfl, rfl⟩

theorem Scored.bestLe (hs : Scored start s.state)
    (hmargin : 1001 / 1000 * s.best.getD start ≤ kept.score) (h : t.best = some kept.score) :
    BestLe s t := by
  have hpositive : 0 < s.best.getD start := (mul_pos hs.positive (by positivity)).trans_le hs.floor
  intro score hscore
  rw [hscore, Option.getD_some] at hpositive hmargin
  exact ⟨kept.score, h, by linarith⟩

variable {policy : StallPolicy}

theorem Scored.recordKeep {commit : String} (hs : Scored start s.state)
    (hmargin : 1001 / 1000 * s.best.getD start ≤ kept.score)
    (hcommit : commit = "" -> s.best ≠ none) (h : s.recordKeep kept commit policy = some t) :
    Scored start t.state ∧ t.best = some kept.score ∧
      t.state.best.commitHash = (if commit = "" then s.state.best.commitHash else commit) ∧
      kept.iteration < t.state.nextIteration ∧ t.head = s.head ∧ t.pending = s.pending ∧
      t.session = s.session := by
  rcases Option.map_eq_some_iff.mp h with ⟨state, hstate, rfl⟩
  rcases RunState.recordKeep_spec hstate with ⟨hbest, hhash, hkept, hnext, _, _⟩
  refine ⟨⟨hs.positive, ?_, ?_, ?_⟩, hbest, hhash, hnext, rfl, rfl, rfl⟩
  · have hfloor := hs.floor
    unfold best at hmargin
    rw [hbest, hkept, pow_succ, Option.getD_some]
    linarith
  · intro hnone
    rw [hbest] at hnone
    cases hnone
  · intro _
    rw [hhash]
    split
    · rename_i hempty
      exact hs.named (hcommit hempty)
    · assumption

theorem Scored.hydrate {stage : Stage} (hs : Scored start s.state) (hincumbent : s.best = none ->
      incumbentMeanCaseSpeedup s.state.bestCaseTimes s.state.baselineCaseTimes
        s.state.unscoredCases = some start)
    (hhead : s.best ≠ none -> s.state.best.commitHash = s.head) (h : s.hydrate stage = some t) :
    exists session, t = { s with session := some session } ∧ session.stage = stage ∧
      session.loop.bestMeanCaseSpeedup = some (s.best.getD start) := by
  rcases Option.map_eq_some_iff.mp h with ⟨incumbent, hscore, ht⟩
  refine ⟨_, ht.symm, rfl, ?_⟩
  cases hbest : s.best with
  | none =>
    have hno : s.shouldResume = false := by
      simp [shouldResume, show s.state.best.meanCaseSpeedup = none from hbest]
    rw [hincumbent hbest] at hscore
    cases hscore
    rw [hno]
    rfl
  | some score =>
    have hsome : s.best ≠ none := by
      rw [hbest]
      exact Option.some_ne_none score
    have hyes : s.shouldResume = true := by
      have hnamed := hs.named hsome
      simp [shouldResume, hhead hsome, hhead hsome ▸ hnamed,
        show s.state.best.meanCaseSpeedup = some score from hbest]
    rw [hyes]
    exact hbest

theorem Sound.restoreIdle {given : CaseTimes} (hscored : Scored start s.state)
    (hsession : s.session = none) (hpending : s.pending = none)
    (hhead : s.best ≠ none -> s.state.best.commitHash = s.head) (hincumbent : s.best = none ->
      incumbentMeanCaseSpeedup s.state.bestCaseTimes s.state.baselineCaseTimes
        s.state.unscoredCases = some start)
    (h : s.restore given .idle = some t) : Sound start t ∧ t.best = s.best := by
  have hs : Sound start s := by
    refine ⟨hscored, fun _ => hhead, ?_, fun hnone _ => hincumbent hnone, ?_⟩
    · intro p hp
      cases hpending.symm.trans hp
    · intro live hlive
      cases hsession.symm.trans hlive
  unfold Campaign.restore at h
  split at h
  · cases h
    exact ⟨hs, rfl⟩
  · rcases hscored.hydrate hincumbent hhead h with ⟨session, rfl, hat, hbar⟩
    refine ⟨{ hs with live := ?_ }, rfl⟩
    intro live hlive
    cases hlive
    rw [hat, hbar]
    exact ⟨hpending, rfl⟩

theorem Sound.restoreRecorded {p : PendingKeep} {given : CaseTimes}
    (hscored : Scored start s.state) (hsession : s.session = none) (hpending : s.pending = some p)
    (happlied : Applied s.state s.head p) (h : s.restore given .recorded = some t) :
    Sound start t ∧ t.best = s.best := by
  have hsome : s.best ≠ none := by
    intro hnone
    cases happlied.1.symm.trans hnone
  have hs : Sound start s := by
    refine ⟨hscored, fun _ _ => happlied.2.1, ?_, fun hnone => absurd hnone hsome, ?_⟩
    · intro q hq
      cases hpending.symm.trans hq
      exact Or.inl happlied
    · intro live hlive
      cases hsession.symm.trans hlive
  unfold Campaign.restore at h
  split at h
  · cases h
    exact ⟨hs, rfl⟩
  · rcases hscored.hydrate (fun hnone => absurd hnone hsome)
      (fun _ => happlied.2.1) h with ⟨session, rfl, hat, hbar⟩
    refine ⟨{ hs with live := ?_ }, rfl⟩
    intro live hlive
    cases hlive
    rw [hat, hbar]
    exact ⟨hsome, happlied.2.1, rfl⟩

/-- The steps under which the best never regresses: a KEEP without a diff is
measured only while the run state names the commit of its best. -/
def NamedBest (s : Campaign) : Label -> Prop
  | .measure _ => s.state.best.commitHash ≠ ""
  | _ => True

instance (s : Campaign) (label : Label) : Decidable (NamedBest s label) := by
  cases label <;> unfold NamedBest <;> infer_instance

theorem Sound.liveAt {session : Session} {stage : Stage} (hs : Sound start s)
    (hsession : s.session = some session) (hstage : session.stage = stage) :
    Live start s session.loop.bestMeanCaseSpeedup stage :=
  hstage ▸ hs.live session hsession

theorem Sound.reject {session : Session} {result : Reverted} {state : RunState}
    (hs : Sound start s) (hsession : s.session = some session) (hstage : session.stage = .idle)
    (h : session.loop.recordOutcome s.state result setup.policy = some state) :
    Sound start { s with state := { state with headCommit := s.head } } ∧
      state.best.meanCaseSpeedup = s.best := by
  have hlive := hs.liveAt hsession hstage
  rcases RunState.recordOutcome_spec h with
    ⟨⟨standing, hstanding, hbest⟩, hkept, hbaseline, htimes, hunscored⟩
  have hscore : state.best.meanCaseSpeedup = s.state.best.meanCaseSpeedup := by
    rw [hbest]
    apply BestRecord.synced_meanCaseSpeedup start (hstanding.trans hlive.2)
    intro hnone
    exact (hs.scored.unkept hnone).1
  have hcommit : state.best.commitHash = s.state.best.commitHash := by
    rw [hbest, BestRecord.synced_commitHash]
  have hreal : state.best.real = s.state.best.real := by
    rw [hbest, BestRecord.synced_real]
  refine ⟨⟨⟨hs.scored.positive, ?_, ?_, ?_⟩, ?_, ?_, ?_, ?_⟩, hscore⟩
  · rw [hkept, hscore]
    exact hs.scored.floor
  · rw [hkept, hscore, hreal]
    exact hs.scored.unkept
  · rw [hscore, hcommit]
    exact hs.scored.named
  · dsimp only [best]
    rw [hscore, hcommit]
    exact hs.settled
  · intro p hp
    cases hlive.1.symm.trans hp
  · dsimp only [best]
    rw [hscore, hbaseline, htimes, hunscored]
    exact hs.incumbent
  · intro live hsome
    rw [show s.session = some live from hsome] at hsession
    cases hsession
    rw [hstage]
    refine ⟨hlive.1, ?_⟩
    dsimp only [best]
    rw [hscore]
    exact hlive.2

theorem Sound.recordWaiting {p : PendingKeep} (hs : Sound start s) (hpending : s.pending = some p)
    (hwaiting : Waiting start s.state s.head p) (hhead : s.head ≠ p.baseHead)
    (h : s.recordKeep p.kept s.head policy = some t) :
    Scored start t.state ∧ t.best = some p.kept.score ∧
      t.state.best.commitHash = t.head ∧ t.pending = some p ∧ Applied t.state t.head p ∧
      t.session = s.session := by
  have hnew := hwaiting.committed hhead
  rcases hs.scored.recordKeep hwaiting.margin (fun hempty => absurd hempty hnew) h
    with ⟨hscored, hbest, hcommit, hnext, hsame, hp, hsession⟩
  rw [if_neg hnew, ← hsame] at hcommit
  exact ⟨hscored, hbest, hcommit, hp.trans hpending, ⟨hbest, hcommit, hnext⟩, hsession⟩

/-!
## What each label does to it
-/

theorem Scored.promoteRecovered {given : CaseTimes} (hs : Scored start s.state) :
    Scored start (s.promoteRecovered given kept).state :=
  { hs with }

theorem Sound.resume {given : CaseTimes} (hs : Sound start s) (hsession : s.session = none)
    (h : s.resume policy given = some t) : Sound start t ∧ BestLe s t := by
  revert h
  fun_cases Campaign.resume s policy given with (intro h; try cases h)
  | case2 _ hpending =>
    apply And.imp_right BestLe.of_eq
    apply Sound.restoreIdle hs.scored hsession hpending (hs.settled hpending) _ h
    intro hnone
    apply hs.incumbent hnone
    intro p hp
    cases hpending.symm.trans hp
  | case5 _ p hpending _ _ hhead =>
    -- The KEEP was killed before its commit and is discarded.
    apply And.imp_right BestLe.of_eq
    apply Sound.restoreIdle _ _ rfl _ _ h
    · exact { hs.scored with }
    · exact hsession
    · intro hsome
      rcases hs.held p hpending with happlied | hwaiting
      · exact happlied.2.1
      · exact (hwaiting.base hsome).trans hhead.symm
    · intro hnone
      apply hs.incumbent hnone
      intro q hq
      cases hpending.symm.trans hq
      exact hhead
  | case6 _ p hpending _ _ _ hlt hfinal =>
    -- The KEEP is in the run state already.
    exact (Sound.restoreRecorded hs.scored.promoteRecovered hsession hpending
      ⟨hfinal.2.2, hfinal.1.2, hlt⟩ h).imp_right BestLe.of_eq
  | case8 _ p hpending _ _ hhead hge =>
    rcases Option.bind_eq_some_iff.mp h with ⟨next, hnext, hrestore⟩
    rcases hs.held p hpending with happlied | hwaiting
    · exact absurd happlied.2.2 hge
    rcases hs.recordWaiting hpending hwaiting hhead hnext with
      ⟨hscored, hbest, _, hsame, happlied, hclosed⟩
    rcases Sound.restoreRecorded hscored.promoteRecovered (hclosed.trans hsession) hsame
      happlied hrestore with ⟨hsound, hkeeps⟩
    exact ⟨hsound, hs.scored.bestLe hwaiting.margin (hkeeps.trans hbest)⟩

section

variable {session : Session} {attempt : Attempt} {p : PendingKeep} (hs : Sound start s)
  (hsession : s.session = some session)

include hs hsession

section

variable (hstage : session.stage = .idle)
  (hkept : setup.decideKeep session.loop attempt s.state.nextIteration = some kept)

include hstage hkept

theorem Sound.margin : 1001 / 1000 * s.best.getD start ≤ kept.score := by
  have hscore := Setup.margin_le_score hkept
  have hbar := LoopMemory.le_bar (hs.liveAt hsession hstage).2
  linarith

theorem Sound.journal :
    Sound start { s with
      pending := some { baseHead := s.head, kept := kept }
      session := some
        { session with stage := .journaled { baseHead := s.head, kept := kept } } } := by
  have hlive := hs.liveAt hsession hstage
  have hwaiting : Waiting start s.state s.head { baseHead := s.head, kept := kept } :=
    { margin := hs.margin hsession hstage hkept
      base := hs.settled hlive.1
      committed := fun hhead => absurd rfl hhead }
  refine ⟨hs.scored, nofun, ?_, ?_, ?_⟩
  · intro p hp
    cases hp
    exact Or.inr hwaiting
  · intro hnone _
    apply hs.incumbent hnone
    intro p hp
    cases hlive.1.symm.trans hp
  · intro live hsome
    cases hsome
    exact ⟨rfl, hwaiting, rfl, hlive.2⟩

theorem Sound.measure (hnamed : s.state.best.commitHash ≠ "") (cases : List String) :
    Sound start { s with
      state := (session.loop.promoteBest kept).persist s.state
      session := some
        { loop := session.loop.promoteBest kept, stage := .measured kept,
          barCases := cases } } := by
  have hlive := hs.liveAt hsession hstage
  have hsome : s.best ≠ none := by
    intro hnone
    have hreal := (hs.scored.unkept hnone).1
    simp only [BestRecord.real, Bool.or_eq_false_iff, bne_eq_false_iff_eq] at hreal
    exact hnamed hreal.2
  refine ⟨{ hs.scored with }, hs.settled, ?_, fun hnone => absurd hnone hsome, ?_⟩
  · intro q hq
    cases hlive.1.symm.trans hq
  · intro live hl
    cases hl
    exact ⟨hlive.1, hsome, hs.margin hsession hstage hkept, rfl⟩

end

theorem Sound.commit {hash : String} (hstage : session.stage = .journaled p) (hempty : hash ≠ "")
    (hnew : hash ≠ s.head) :
    Sound start { s with
      head := hash
      session := some { session with stage := .committed p } } := by
  rcases hs.liveAt hsession hstage with ⟨hpending, hwaiting, hhead, _⟩
  have hbase : hash ≠ p.baseHead := by
    rw [← hhead]
    exact hnew
  have hcommitted : Waiting start s.state hash p :=
    { hwaiting with committed := fun _ => hempty }
  refine ⟨hs.scored, ?_, ?_, ?_, ?_⟩
  · intro hp
    cases hpending.symm.trans hp
  · intro q hq
    cases hpending.symm.trans hq
    exact Or.inr hcommitted
  · intro _ hat
    exact absurd (hat p hpending) hbase
  · intro live hsome
    cases hsome
    exact ⟨hpending, hcommitted, hbase⟩

theorem Sound.demote (hstage : session.stage = .journaled p) :
    Sound start { s with
      pending := none
      session := some { session with stage := .idle } } := by
  rcases hs.liveAt hsession hstage with ⟨hpending, hwaiting, hhead, hbar⟩
  refine ⟨hs.scored, ?_, nofun, ?_, ?_⟩
  · intro _ hsome
    exact (hwaiting.base hsome).trans hhead.symm
  · intro hnone _
    apply hs.incumbent hnone
    intro q hq
    cases hpending.symm.trans hq
    exact hhead
  · intro live hsome
    cases hsome
    exact ⟨rfl, hbar⟩

theorem Sound.promote (hstage : session.stage = .committed p) (cases : List String) :
    Sound start { s with
      state := (session.loop.promoteBest p.kept).persist s.state
      session := some
        { loop := session.loop.promoteBest p.kept, stage := .promoted p, barCases := cases } } := by
  rcases hs.liveAt hsession hstage with ⟨hpending, hwaiting, hhead⟩
  have hpromoted : Waiting start ((session.loop.promoteBest p.kept).persist s.state) s.head p :=
    { hwaiting with }
  refine ⟨{ hs.scored with }, hs.settled, ?_, ?_, ?_⟩
  · intro q hq
    cases hpending.symm.trans hq
    exact Or.inr hpromoted
  · intro _ hat
    exact absurd (hat p hpending) hhead
  · intro live hsome
    cases hsome
    exact ⟨hpending, hpromoted, hhead, rfl⟩

theorem Sound.record (hstage : session.stage = .promoted p)
    (hnext : s.recordKeep p.kept s.head policy = some t) :
    Sound start { t with session := some { session with stage := .recorded } } ∧ BestLe s t := by
  rcases hs.liveAt hsession hstage with ⟨hpending, hwaiting, hhead, hbar⟩
  rcases hs.recordWaiting hpending hwaiting hhead hnext with
    ⟨hscored, hbest, hcommit, hsame, happlied, _⟩
  have hsome : t.best ≠ none := by
    rw [hbest]
    exact Option.some_ne_none _
  refine ⟨⟨hscored, fun _ _ => hcommit, ?_, fun hnone => absurd hnone hsome, ?_⟩,
    hs.scored.bestLe hwaiting.margin hbest⟩
  · intro q hq
    cases hsame.symm.trans hq
    exact Or.inl happlied
  · intro live hlive
    cases hlive
    refine ⟨hsome, hcommit, ?_⟩
    dsimp only [best]
    rw [show t.state.best.meanCaseSpeedup = _ from hbest]
    exact hbar

theorem Sound.clear (hstage : session.stage = .recorded) :
    Sound start { s with
      pending := none
      session := some { session with stage := .idle } } := by
  rcases hs.liveAt hsession hstage with ⟨hbest, hcommit, hbar⟩
  refine ⟨hs.scored, fun _ _ => hcommit, nofun, fun hnone => absurd hnone hbest, ?_⟩
  intro live hsome
  cases hsome
  exact ⟨rfl, hbar⟩

theorem Sound.recordMeasured (hstage : session.stage = .measured kept)
    (hnext : s.recordKeep kept "" policy = some t) :
    Sound start { t with session := some { session with stage := .idle } } ∧ BestLe s t := by
  rcases hs.liveAt hsession hstage with ⟨hpending, hsome, hmargin, hbar⟩
  rcases hs.scored.recordKeep hmargin (fun _ => hsome) hnext with
    ⟨hscored, hbest, hcommit, _, hhead, hsame, _⟩
  have hnew : t.best ≠ none := by
    rw [hbest]
    exact Option.some_ne_none _
  have hclear : t.pending = none := hsame.trans hpending
  refine ⟨⟨hscored, ?_, ?_, fun hnone => absurd hnone hnew, ?_⟩, hs.scored.bestLe hmargin hbest⟩
  · intro _ _
    rw [hcommit, hhead]
    exact hs.settled hpending hsome
  · intro q hq
    cases hclear.symm.trans hq
  · intro live hl
    cases hl
    refine ⟨hclear, ?_⟩
    dsimp only [best]
    rw [show t.state.best.meanCaseSpeedup = _ from hbest]
    exact hbar

end

theorem Sound.moves {label : Label} (hs : Sound start s)
    (hnamed : NamedBest s label) (h : Moves setup s label t) : Sound start t ∧ BestLe s t := by
  cases h with
  | reject hsession hstage hstate =>
    exact (hs.reject hsession hstage hstate).imp_right BestLe.of_eq
  | journal hsession hstage hkept =>
    exact ⟨hs.journal hsession hstage hkept, BestLe.of_eq rfl⟩
  | commit hsession hstage hempty hnew =>
    exact ⟨hs.commit hsession hstage hempty hnew, BestLe.of_eq rfl⟩
  | demote hsession hstage => exact ⟨hs.demote hsession hstage, BestLe.of_eq rfl⟩
  | promote hsession hstage => exact ⟨hs.promote hsession hstage _, BestLe.of_eq rfl⟩
  | record hsession hstage hnext => exact hs.record hsession hstage hnext
  | clear hsession hstage => exact ⟨hs.clear hsession hstage, BestLe.of_eq rfl⟩
  | measure hsession hstage hkept =>
    exact ⟨hs.measure hsession hstage hkept hnamed _, BestLe.of_eq rfl⟩
  | recordMeasured hsession hstage hnext => exact hs.recordMeasured hsession hstage hnext
  | kill => exact ⟨{ hs with live := fun _ h => nomatch h }, BestLe.of_eq rfl⟩
  | resume hsession hresume => exact hs.resume hsession hresume

end Campaign

/-!
## Whole campaigns
-/

open Campaign

/-- In every campaign whose KEEPs without a diff find a best commit on record,
no step makes the best worse, a KEEP with a diff clears the bar by a thousandth
and the bar is no lower than the last KEEP, so the best has grown by that factor
with every KEEP. -/
theorem best_never_regresses (setup : Setup) (start : Rat) {first s : Campaign}
    {trace : List Label} (hstart : setup.Starts start first)
    (hrun : Machine.Run (campaign setup) NamedBest first trace s) :
    start * (1001 / 1000) ^ s.state.cumulative.kept ≤ s.best.getD start ∧
    (forall label t, NamedBest s label -> s.step setup label = some t -> BestLe s t) ∧
    (forall session attempt t, s.session = some session ->
      s.step setup (.journal attempt) = some t ->
      exists p, t.pending = some p ∧ 1001 / 1000 * session.loop.bar ≤ p.kept.score ∧
        s.best.getD start ≤ session.loop.bar) := by
  have hs : Sound start s := by
    apply hrun.invariant _ (Sound.starts hstart)
    intro s label t hs hnamed hstep
    exact (hs.moves hnamed (moves_of_step hstep)).1
  refine ⟨hs.scored.floor, ?_, ?_⟩
  · intro label t hnamed hstep
    exact (hs.moves hnamed (moves_of_step hstep)).2
  · intro session attempt t hsession hstep
    cases moves_of_step hstep with
    | @journal live _ kept hlive hstage hkept =>
      cases hsession.symm.trans hlive
      have hidle := hs.live session hsession
      rw [hstage] at hidle
      exact ⟨_, rfl, Setup.margin_le_score hkept, LoopMemory.le_bar hidle.2⟩

def twoCases : Setup where
  numerics := { sqrt := fun _ => 1, stdev := fun _ => 0 }
  baseline := [("a", 10), ("b", 10)]

def steadyRuns (first second : Rat) : List DriverOutput :=
  List.replicate 3
    { representativeMs := some first
      lines := [{ caseId := "a", ms := first }, { caseId := "b", ms := second }] }

/-- Three runs at speedups of 2, 2 and 13/5. -/
def luckyRuns : List DriverOutput :=
  (steadyRuns 5 5).take 2 ++ (steadyRuns (50 / 13) (50 / 13)).take 1

theorem keep_killed_and_resumed :
    exists s, Machine.Run (campaign twoCases) NamedBest
        (twoCases.fresh twoCases.baseline "c0" 1)
        [.journal { outputs := steadyRuns 5 5 }, .commit "c1", .kill, .resume true, .clear] s ∧
      s.best = some 2 ∧ 1 * (1001 / 1000) ^ 1 ≤ s.best.getD 1 := by
  rcases Machine.Run.exists_of_runIf (M := campaign twoCases) (C := NamedBest)
      (P := fun s => s.best = some 2 ∧ s.state.cumulative.kept = 1)
      (twoCases.fresh twoCases.baseline "c0" 1)
      [.journal { outputs := steadyRuns 5 5 }, .commit "c1", .kill, .resume true,
        .clear] (by decide +kernel) with ⟨s, hrun, hbest, hkept⟩
  have hfloor := (best_never_regresses twoCases 1
    (.fresh twoCases.baseline "c0" (by decide +kernel)) hrun).1
  rw [hkept] at hfloor
  exact ⟨s, hrun, hbest, hfloor⟩

/-- A KEEP without a diff scores 11/5 from a kernel with no commit on record.
The session that resumes it takes its bar from the medians, so a later KEEP at
21/10 replaces it. -/
theorem unnamed_best_replaced :
    exists s, Machine.Reachable (campaign twoCases) s ∧ s.best = some (11 / 5) ∧
      (s.step twoCases .record).any (fun t => t.best == some (21 / 10)) := by
  have hinit : (campaign twoCases).init (twoCases.fresh twoCases.baseline "c0" 1) :=
    ⟨1, .fresh twoCases.baseline "c0" (by decide +kernel)⟩
  apply Machine.ReachableWhere.exists_of_runIf (twoCases.fresh twoCases.baseline "c0" 1)
    [.measure { outputs := luckyRuns }, .recordMeasured, .kill, .resume false,
      .journal { outputs := steadyRuns (100 / 21) (100 / 21) }, .commit "c1", .promote] hinit
  decide +kernel

end ForgeLoop
end Hyperloom
