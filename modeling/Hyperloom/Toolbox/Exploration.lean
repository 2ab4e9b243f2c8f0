import Hyperloom.Library.Machine
import Hyperloom.Blackboard.Board
import Hyperloom.Blackboard.Dedup

/-!
# No change is explored twice

Branches race for claims on intents, and two of them can hold claims for the
same change.  The toolbox writes a request's row and only then attaches its
claim; the attach refuses an explore whose change another branch asked first to
explore.  One toolbox process writes the rows of all requests, and its clock
never goes back.
-/

namespace Hyperloom
namespace Toolbox

open Blackboard Library

/-- The board, the acquires between their decision and its row, and what the
toolbox has: the request whose submit holds the lock with its row written, and
the ids attached to a claim, in the queue and given to the executor.
`withdrawn` are the withdrawals its log recorded. -/
structure Exploration where
  board : Board := []
  clock : Rat
  pending : Nat -> Option (BoardHandle × ClaimDecision) := fun _ => none
  publishing : Option TestRequest := none
  attached : List String := []
  queued : List String := []
  started : List String := []
  withdrawn : List Withdrawal := []

/-- The toolbox writes requests, results and withdrawals; the other rows are
anyone's, dated by any clock. -/
inductive ExploreOp where
  | submit (now : Rat) (request : TestRequest)
  | attach (now : Rat) (claim : Option Claim) (lost : Option String)
  | abort (now : Rat) (claim : Option Claim) (late : Bool)
  | start (requestId : String)
  | withdraw (requestId reason : String)
  | writeResult (now : Rat) (result : TestResult)
  | writeWithdrawal (now : Rat) (withdrawal : Withdrawal)
  | writeJudgement (handle : BoardHandle) (now : Rat) (write : JudgementWrite) (shown : String)
  | writeOther (handle : BoardHandle) (now : Rat) (kind : EntryKind)
    (payload : Payload) (branch parent summary : String)
  | acquireRead (call : Nat) (handle : BoardHandle) (live : List Claim)
    (intent : Intent) (action reason : String) (lease : LeaseOutcome)
  | acquireAppend (call : Nat) (now : Rat) (tooLow : Option String)

namespace Exploration

variable (s : Exploration)

def wrote (now : Rat) : Except BoardError (List (Entry Payload)) -> Exploration
  | .ok rows => { s with board := s.board ++ rows, clock := now }
  | .error _ => s

def waiting (requestId : String) : Bool :=
  s.publishing.any (fun request => decide (request.requestId = requestId)) ||
    decide (requestId ∈ s.queued) || decide (requestId ∈ s.started)

/-- `_publish` once the claim is lost: the log records the withdrawal. -/
def lose (request : TestRequest) (text : String) : Exploration :=
  { s with
    publishing := none
    withdrawn := s.withdrawn ++ [⟨request.requestId, "claim lost: " ++ text⟩] }

section

variable (digests : Digests) (toolbox : BoardHandle) (s : Exploration) (now : Rat)

/-- The row of a refused change, where the branch holds the claim. -/
def refusalRows (request : TestRequest) : Option Claim -> List (Entry Payload)
  | none => []
  | some claim =>
    if claim.holder ≠ request.branch then []
    else
      [s.board.row toolbox now .claim (.claim (changeRefusal digests s.board.state request claim))
        request.branch request.parentCommit
        (changeRefusalSummary digests s.board.state request claim)]

variable (claim : Option Claim)

/-- `attach_request`, for a request that names an intent, and `_enqueue`;
`lost` is what the lease raises `ClaimLost` with. -/
def attach (lost : Option String) (request : TestRequest) : Exploration :=
  if request.intentFingerprint = none then
    { s with publishing := none, queued := s.queued ++ [request.requestId] }
  else
    match changeTestedFirst digests s.board.state request with
    | some text =>
      { s.lose request text with
        board := s.board ++ s.refusalRows digests toolbox now request claim
        clock := now }
    | none =>
      match lost with
      | some text => s.lose request text
      | none =>
        { s with
          publishing := none
          attached := s.attached ++ [request.requestId]
          queued := s.queued ++ [request.requestId] }

/-- `_publish` when anything else is raised, before or after `attach_request`
has written: the log aborts the request, which no queue gets. -/
def abort (late : Bool) (request : TestRequest) : Exploration :=
  if late then
    { s.attach digests toolbox now claim none request with
      queued := s.queued
      withdrawn := s.withdrawn }
  else { s with publishing := none }

def step : ExploreOp -> Option Exploration
  | .submit now request =>
    -- the log gives every accepted request an id of its own
    if s.publishing = none ∧ s.clock ≤ now ∧ s.board.state.request request.requestId = none then
      match s.board.writeRequest toolbox now request with
      | .ok rows => some { s with
        board := s.board ++ rows
        clock := now
        publishing := some request }
      | .error _ => none
    else none
  | .attach now claim lost =>
    match s.publishing with
    | none => none
    | some request =>
      if s.clock ≤ now then
        some (s.attach digests toolbox now claim lost request)
      else none
  | .abort now claim late =>
    match s.publishing with
    | none => none
    | some request =>
      if s.clock ≤ now then
        some (s.abort digests toolbox now claim late request)
      else none
  | .start requestId =>
    if requestId ∈ s.queued then
      some { s with started := s.started ++ [requestId] }
    else none
  | .withdraw requestId reason =>
    if s.waiting requestId then
      some { s with
        queued := s.queued.filter fun other => other ≠ requestId
        withdrawn := s.withdrawn ++ [⟨requestId, reason⟩] }
    else none
  | .writeResult now result =>
    if s.clock ≤ now ∧ s.waiting result.requestId then
      some (s.wrote now (s.board.writeResult toolbox now result))
    else none
  | .writeWithdrawal now withdrawal =>
    if s.clock ≤ now ∧ withdrawal ∈ s.withdrawn then
      some (s.wrote now (s.board.writeWithdrawal toolbox now withdrawal))
    else none
  | .writeJudgement handle now write shown =>
    some (s.wrote s.clock (s.board.writeJudgement handle now write shown))
  | .writeOther handle now kind payload branch parent summary =>
    if payload.ofTests then none
    else some { s with
      board := s.board ++ [s.board.row handle now kind payload branch parent summary] }
  | .acquireRead call handle live intent action reason lease =>
    if (s.pending call).isSome ∨ intent.branch ≠ handle.writer.branch then
      none
    else some { s with
      pending := Function.update s.pending call (some (handle,
        acquireDecision digests s.board.state live intent action reason lease)) }
  | .acquireAppend call now tooLow =>
    match s.pending call with
    | none => none
    | some (handle, decision) => some { s with
      board := s.board ++ [s.board.row handle now .claim (.claim decision)
          decision.intent.branch decision.intent.parentCommit (decisionSummary decision tooLow)]
      pending := Function.update s.pending call none }

end

end Exploration

def explorationMachine (digests : Digests) (toolbox : BoardHandle) :
    Machine Exploration ExploreOp where
  init s := exists clock, s = { clock := clock }
  step := Exploration.step digests toolbox

/-- Explores of two branches that carry the same change, not the empty one, on
the same commit. -/
structure SameChange (digests : Digests) (one other : TestRequest) : Prop where
  branch : one.branch ≠ other.branch
  first : one.purpose = .explore
  second : other.purpose = .explore
  commit : one.parentCommit = other.parentCommit
  action : one.actionFingerprint = other.actionFingerprint
  nonempty : one.actionFingerprint ≠ digests.noAction

variable {one : TestRequest}

theorem SameChange.symm {digests : Digests} {other : TestRequest}
    (h : SameChange digests one other) : SameChange digests other one :=
  ⟨h.branch.symm, h.second, h.first, h.commit.symm, h.action.symm, h.action ▸ h.nonempty⟩

/-!
## What a step does

A step appends a row that is no request, or submits, ends the publication of
what was submitted, starts or withdraws.
-/

/-- The board after one write that is no request. -/
inductive Extra (board : Board) : Board -> Prop where
  | same : Extra board board
  | row (handle : BoardHandle) (now : Rat) (kind : EntryKind)
    (payload : Payload) (branch parent summary : String) :
    (forall request, payload ≠ .request request) ->
    Extra board (board ++ [board.row handle now kind payload branch parent summary])

section

variable {board after : Board} {handle : BoardHandle} {now : Rat} {rows : List (Entry Payload)}

theorem Extra.nil : Extra board (board ++ []) := by
  rw [List.append_nil]
  exact .same

theorem extra_writeResult {result : TestResult}
    (h : board.writeResult handle now result = .ok rows) : Extra board (board ++ rows) := by
  rcases Board.writeResult_ok h with ⟨request, _, _, hend⟩
  rcases hend with ⟨rfl, _⟩ | ⟨_, summary, rfl⟩
  · exact .nil
  · exact .row _ _ _ _ _ _ _ (fun _ h => nomatch h)

theorem extra_writeWithdrawal {withdrawal : Withdrawal}
    (h : board.writeWithdrawal handle now withdrawal = .ok rows) : Extra board (board ++ rows) := by
  rcases Board.writeWithdrawal_ok h with ⟨request, _, _, hend⟩
  rcases hend with ⟨rfl, _⟩ | ⟨_, summary, rfl⟩
  · exact .nil
  · exact .row _ _ _ _ _ _ _ (fun _ h => nomatch h)

theorem extra_writeJudgement {write : JudgementWrite} {shown : String}
    (h : board.writeJudgement handle now write shown = .ok rows) : Extra board (board ++ rows) := by
  rcases Board.writeJudgement_ok h with ⟨request, result, summary, _, _, _, rfl⟩
  exact .row _ _ _ _ _ _ _ (fun _ h => nomatch h)

theorem Extra.ended {requestId : String} (h : Extra board after)
    (hended : board.Ended requestId) : after.Ended requestId := by
  cases h with
  | same => exact hended
  | row => exact Board.ended_append hended

theorem Extra.known {requestId : String} (h : Extra board after)
    (hknown : board.state.request requestId ≠ none) : after.state.request requestId ≠ none := by
  cases h with
  | same => exact hknown
  | row => exact Board.request_append hknown

end

variable {now : Rat}

namespace Exploration

section

variable {digests : Digests} {toolbox : BoardHandle} {s t : Exploration}

inductive Moves (digests : Digests) (toolbox : BoardHandle) (s : Exploration) :
    Exploration -> Prop where
  | submit (now : Rat) (request : TestRequest) (summary : String) :
    s.publishing = none -> s.clock ≤ now -> s.board.state.request request.requestId = none ->
    Moves digests toolbox s { s with
      board := s.board ++ [s.board.row toolbox now .request (.request request)
        request.branch request.parentCommit summary]
      clock := now
      publishing := some request }
  | publish (request : TestRequest) (attached queued : List String) :
    s.publishing = some request -> queued ⊆ s.queued ++ [request.requestId] ->
    attached = s.attached ∨ attached = s.attached ++ [request.requestId] ∧
      changeTestedFirst digests s.board.state request = none ->
    Moves digests toolbox s { s with
      publishing := none
      attached := attached
      queued := queued }
  | lose (board : Board) (clock : Rat) (withdrawn : List Withdrawal) :
    Extra s.board board -> s.clock ≤ clock -> s.withdrawn ⊆ withdrawn ->
    Moves digests toolbox s { s with
      publishing := none
      board := board
      clock := clock
      withdrawn := withdrawn }
  | start (requestId : String) : requestId ∈ s.queued ->
    Moves digests toolbox s { s with started := s.started ++ [requestId] }
  | withdraw (requestId reason : String) :
    Moves digests toolbox s { s with
      queued := s.queued.filter fun other => other ≠ requestId
      withdrawn := s.withdrawn ++ [⟨requestId, reason⟩] }
  | write (board : Board) (clock : Rat) (pending : Nat -> Option (BoardHandle × ClaimDecision)) :
    Extra s.board board -> s.clock ≤ clock ->
    Moves digests toolbox s { s with board := board, clock := clock, pending := pending }

theorem moves_wrote (hclock : s.clock ≤ now) {written : Except BoardError (List (Entry Payload))}
    (h : forall rows, written = .ok rows -> Extra s.board (s.board ++ rows)) :
    Moves digests toolbox s (s.wrote now written) := by
  cases written with
  | ok rows => exact .write _ now s.pending (h rows rfl) hclock
  | error error => exact .write s.board s.clock s.pending .same Rat.le_refl

theorem extra_refusalRows (digests : Digests) (toolbox : BoardHandle)
    (s : Exploration) (now : Rat) (request : TestRequest) (claim : Option Claim) :
    Extra s.board (s.board ++ s.refusalRows digests toolbox now request claim) := by
  fun_cases refusalRows digests toolbox s now request claim with
  | case3 => exact .row _ _ _ _ _ _ _ (fun _ h => nomatch h)
  | _ => exact .nil

section

variable {claim : Option Claim} {request : TestRequest}
  (hpublishing : s.publishing = some request) (hclock : s.clock ≤ now)

include hpublishing hclock

theorem moves_attach {lost : Option String} :
    Moves digests toolbox s (s.attach digests toolbox now claim lost request) := by
  fun_cases Exploration.attach digests toolbox s now claim lost request with
  | case1 => exact .publish request _ _ hpublishing (List.Subset.refl _) (Or.inl rfl)
  | case2 =>
    exact .lose _ now _ (extra_refusalRows digests toolbox s now request claim) hclock
      (List.subset_append_left _ _)
  | case3 => exact .lose _ _ _ .same Rat.le_refl (List.subset_append_left _ _)
  | case4 _ hfirst =>
    exact .publish request _ _ hpublishing (List.Subset.refl _) (Or.inr ⟨rfl, hfirst⟩)

theorem moves_abort {late : Bool} :
    Moves digests toolbox s (s.abort digests toolbox now claim late request) := by
  have hdone : Moves digests toolbox s { s with publishing := none } :=
    .lose s.board s.clock _ .same Rat.le_refl (List.Subset.refl _)
  unfold Exploration.abort Exploration.attach
  split
  · split
    · exact hdone
    · split
      · exact .lose _ now _ (extra_refusalRows digests toolbox s now request claim) hclock
          (List.Subset.refl _)
      · rename_i hfirst
        exact .publish request _ _ hpublishing (List.subset_append_left _ _)
          (Or.inr ⟨rfl, hfirst⟩)
  · exact hdone

end

theorem moves_of_step {op : ExploreOp}
    (h : s.step digests toolbox op = some t) : Moves digests toolbox s t := by
  revert h
  fun_cases step digests toolbox s op with (intro h; cases h)
  | case1 now request hready rows hrows =>
    rcases Board.writeRequest_ok hrows with ⟨_, hknown⟩ | ⟨_, summary, rfl⟩
    · rw [hready.right.right] at hknown
      cases hknown
    · exact .submit now request summary hready.left hready.right.left hready.right.right
  | case5 now claim lost request hpublishing hclock => exact moves_attach hpublishing hclock
  | case8 now claim late request hpublishing hclock => exact moves_abort hpublishing hclock
  | case10 requestId hqueued => exact .start requestId hqueued
  | case12 requestId reason => exact .withdraw requestId reason
  | case14 now result hready => exact moves_wrote hready.left (fun _ => extra_writeResult)
  | case16 now withdrawal hready => exact moves_wrote hready.left (fun _ => extra_writeWithdrawal)
  | case18 => exact moves_wrote Rat.le_refl (fun _ => extra_writeJudgement)
  | case20 handle now kind payload branch parent summary hother =>
    refine .write _ _ _ (.row _ _ _ _ _ _ _ ?_) Rat.le_refl
    intro request heq
    rw [heq] at hother
    exact hother rfl
  | case22 => exact .write s.board s.clock _ .same Rat.le_refl
  | case24 => exact .write _ _ _ (.row _ _ _ _ _ _ _ (fun _ h => nomatch h)) Rat.le_refl

/-- Attached to a claim, in the queue or given to the executor. -/
def Holds (s : Exploration) (requestId : String) : Prop :=
  requestId ∈ s.attached ∨ requestId ∈ s.queued ∨ requestId ∈ s.started

variable {requestId : String}

section

variable (h : Moves digests toolbox s t)

include h

theorem Moves.known
    (hknown : s.board.state.request requestId ≠ none) : t.board.state.request requestId ≠ none := by
  cases h with
  | submit => exact Board.request_append hknown
  | lose _ _ _ hextra | write _ _ _ hextra => exact hextra.known hknown
  | _ => exact hknown

theorem Moves.withdrawn : s.withdrawn ⊆ t.withdrawn := by
  cases h with
  | lose _ _ _ _ _ hwithdrawn => exact hwithdrawn
  | withdraw => exact List.subset_append_left _ _
  | _ => exact List.Subset.refl _

theorem Moves.holds (hholds : t.Holds requestId) :
    s.Holds requestId ∨ (t.publishing = none ∧
      exists request, s.publishing = some request ∧ request.requestId = requestId) := by
  unfold Holds at hholds ⊢
  cases h with
  | publish request attached queued hpublishing hqueued hattached =>
    have hnew : requestId = request.requestId -> exists request,
        s.publishing = some request ∧ request.requestId = requestId :=
      fun heq => ⟨request, hpublishing, heq.symm⟩
    rcases hholds with hin | hin | hold
    · rcases hattached with rfl | ⟨rfl, _⟩
      · exact Or.inl (Or.inl hin)
      · exact (mem_concat.mp hin).imp Or.inl fun heq => ⟨rfl, hnew heq⟩
    · exact (mem_concat.mp (hqueued hin)).imp (fun hold => Or.inr (Or.inl hold))
        fun heq => ⟨rfl, hnew heq⟩
    · exact Or.inl (Or.inr (Or.inr hold))
  | start started hin =>
    rw [List.mem_append, List.mem_singleton] at hholds
    rcases hholds with hold | hold | hold | rfl
    · exact Or.inl (Or.inl hold)
    · exact Or.inl (Or.inr (Or.inl hold))
    · exact Or.inl (Or.inr (Or.inr hold))
    · exact Or.inl (Or.inr (Or.inl hin))
  | withdraw withdrawn reason =>
    rw [List.mem_filter] at hholds
    rcases hholds with hold | hold | hold
    · exact Or.inl (Or.inl hold)
    · exact Or.inl (Or.inr (Or.inl hold.left))
    · exact Or.inl (Or.inr (Or.inr hold))
  | _ => exact Or.inl hholds

theorem Moves.publishing {request : TestRequest} (hpublishing : t.publishing = some request) :
    s.publishing = some request ∨ (s.board.state.request request.requestId = none ∧
        t.board.state.request request.requestId ≠ none) := by
  cases h with
  | submit now _ summary _ _ hnew =>
    cases hpublishing
    refine Or.inr ⟨hnew, ?_⟩
    intro hnone
    exact Board.request_eq_none.mp hnone _ request
      (List.mem_append_right _ List.mem_cons_self) rfl rfl
  | publish | lose => cases hpublishing
  | _ => exact Or.inl hpublishing

end

/-- What is held is on the board, and what is in publication is not held. -/
structure Tracked (s : Exploration) : Prop where
  known : forall requestId, s.Holds requestId -> s.board.state.request requestId ≠ none
  published : forall request, s.publishing = some request ->
    s.board.state.request request.requestId ≠ none ∧ ¬ s.Holds request.requestId

theorem Tracked.init (clock : Rat) : ({ clock := clock } : Exploration).Tracked :=
  ⟨by simp [Holds], fun _ h => nomatch h⟩

theorem Tracked.moves (hs : s.Tracked) (h : Moves digests toolbox s t) : t.Tracked := by
  constructor
  · intro requestId hholds
    rcases h.holds hholds with hbefore | ⟨_, request, hpublishing, rfl⟩
    · exact h.known (hs.known requestId hbefore)
    · exact h.known (hs.published request hpublishing).left
  · intro request hpublishing
    have hnot : t.publishing ≠ none := by
      rw [hpublishing]
      exact Option.some_ne_none request
    rcases h.publishing hpublishing with hbefore | ⟨hnew, hknown⟩
    · refine ⟨h.known (hs.published request hbefore).left, ?_⟩
      intro hholds
      rcases h.holds hholds with hheld | ⟨hnone, _⟩
      · exact (hs.published request hbefore).right hheld
      · exact hnot hnone
    · refine ⟨hknown, ?_⟩
      intro hholds
      rcases h.holds hholds with hheld | ⟨hnone, _⟩
      · exact hs.known _ hheld hnew
      · exact hnot hnone

/-!
## A dropped request
-/

/-- Withdrawn without having been attached, queued or run; its id is taken. -/
structure Dropped (s : Exploration) (requestId : String) : Prop where
  known : s.board.state.request requestId ≠ none
  publishing : forall request, s.publishing = some request -> request.requestId ≠ requestId
  held : ¬ s.Holds requestId
  withdrawn : exists withdrawal, withdrawal ∈ s.withdrawn ∧ withdrawal.requestId = requestId

theorem Dropped.moves (hs : s.Dropped requestId) (h : Moves digests toolbox s t) :
    t.Dropped requestId := by
  rcases hs.withdrawn with ⟨withdrawal, hin, hid⟩
  refine ⟨h.known hs.known, ?_, ?_, withdrawal, h.withdrawn hin, hid⟩
  · intro request hpublishing heq
    rcases h.publishing hpublishing with hbefore | ⟨hnew, _⟩
    · exact hs.publishing request hbefore heq
    · rw [heq] at hnew
      exact hs.known hnew
  · intro hholds
    rcases h.holds hholds with hheld | ⟨_, request, hpublishing, heq⟩
    · exact hs.held hheld
    · exact hs.publishing request hpublishing heq

theorem Dropped.run {trace : List ExploreOp} (hs : s.Dropped requestId)
    (h : (explorationMachine digests toolbox).Run Machine.Always s trace t) :
    t.Dropped requestId := by
  apply h.invariant _ hs
  intro before op after hbefore _ hstep
  exact hbefore.moves (moves_of_step hstep)

end

end Exploration

/-!
## The requests of one process
-/

/-- The request rows are the toolbox's, in the order of their ids' first rows,
none dated after its clock, and no id has two. -/
structure ByOne (toolbox : BoardHandle) (board : Board) (clock : Rat) : Prop where
  numbered : forall entry, entry ∈ board -> entry.seq ≤ board.written entry.writer
  rows : forall entry, entry ∈ board -> Board.ofRequest entry = true ->
    entry.writer = toolbox.writerId ∧ entry.time ≤ clock
  inOrder : board.InOrder
  nodup : (board.requests.map TestRequest.requestId).Nodup

namespace ByOne

variable {toolbox : BoardHandle} {board : Board} {clock : Rat}

theorem init (toolbox : BoardHandle) (clock : Rat) : ByOne toolbox [] clock := by
  refine ⟨?_, ?_, List.Pairwise.nil, List.nodup_nil⟩
  all_goals
    intro entry hentry
    cases hentry

section

variable (h : ByOne toolbox board clock)

include h

theorem later (hclock : clock ≤ now) : ByOne toolbox board now := by
  refine { h with rows := ?_ }
  intro entry hentry hrequest
  have hrow := h.rows entry hentry hrequest
  exact ⟨hrow.left, Rat.le_trans hrow.right hclock⟩

theorem extra {after : Board} (hafter : Extra board after) :
    ByOne toolbox after clock ∧ after.requests = board.requests := by
  cases hafter with
  | same => exact ⟨h, rfl⟩
  | row handle now kind payload branch parent summary hpayload =>
    have hother : Board.ofRequest (board.row handle now kind payload branch
        parent summary) = false := by
      cases payload with
      | request request => exact absurd rfl (hpayload request)
      | _ => rfl
    have hrequests : Board.requests (board ++ [board.row handle now kind
        payload branch parent summary]) = board.requests := by
      rw [Board.requests_append]
      cases payload with
      | request request => exact absurd rfl (hpayload request)
      | _ => exact List.append_nil _
    refine ⟨⟨?_, ?_, ?_, hrequests ▸ h.nodup⟩, hrequests⟩
    · intro entry hentry
      exact Board.seq_le_written_append h.numbered rfl hentry
    · intro entry hentry hrequest
      rcases mem_concat.mp hentry with hold | rfl
      · exact h.rows entry hold hrequest
      · rw [hother] at hrequest
        cases hrequest
    · unfold Board.InOrder
      rw [List.filter_append, List.filter_singleton, hother]
      exact (List.append_nil _).symm ▸ h.inOrder

theorem request {request : TestRequest} (summary : String) (hclock : clock ≤ now)
    (hnew : board.state.request request.requestId = none) :
    ByOne toolbox (board ++ [board.row toolbox now .request (.request request)
        request.branch request.parentCommit summary]) now ∧
      Board.requests (board ++ [board.row toolbox now .request
        (.request request) request.branch request.parentCommit summary]) =
          board.requests ++ [request] := by
  have hrequests := Board.requests_append board (board.row toolbox now .request
    (.request request) request.branch request.parentCommit summary)
  refine ⟨⟨?_, ?_, ?_, ?_⟩, hrequests⟩
  · intro entry hentry
    exact Board.seq_le_written_append h.numbered rfl hentry
  · intro entry hentry hrequest
    rcases mem_concat.mp hentry with hold | rfl
    · exact (h.later hclock).rows entry hold hrequest
    · exact ⟨rfl, Rat.le_refl⟩
  · unfold Board.InOrder
    rw [List.filter_append, List.pairwise_append]
    refine ⟨h.inOrder, List.pairwise_singleton _ _, ?_⟩
    intro old hold new hlast
    have hin := List.mem_filter.mp hold
    have hrow := (h.later hclock).rows old hin.left hin.right
    have hseq := h.numbered old hin.left
    rw [List.mem_singleton.mp hlast]
    refine ⟨hrow.right, hrow.left, ?_⟩
    rw [hrow.left] at hseq
    exact Nat.lt_succ_of_le hseq
  · rw [hrequests, List.map_append, List.nodup_append]
    refine ⟨h.nodup, List.nodup_singleton _, ?_⟩
    intro requestId hin other hother heq
    rcases List.mem_map.mp hin with ⟨old, hold, rfl⟩
    rcases Board.mem_requests.mp hold with ⟨entry, hentry, hdetail⟩
    apply Board.request_eq_none.mp hnew entry old hentry hdetail
    rw [heq]
    exact List.mem_singleton.mp hother

theorem distinct : board.Distinct := by
  intro one other hone hother hid
  exact List.inj_on_of_nodup_map h.nodup (Board.mem_requests.mpr hone)
    (Board.mem_requests.mpr hother) hid

theorem requestIds : board.state.requestIds = board.requests.map TestRequest.requestId := by
  unfold BlackboardState.requestIds
  rw [Board.requestRows_of_inOrder h.inOrder, firstSeen_of_nodup h.nodup]

end

end ByOne

/-!
## The invariant
-/

/-- An attached explore's change was asked for first, or the requests before it
have ended. -/
structure Explored (digests : Digests) (toolbox : BoardHandle) (board : Board)
    (clock : Rat) (publishing : Option TestRequest) (attached : List String) : Prop where
  byOne : ByOne toolbox board clock
  publishing : forall request, publishing = some request ->
    exists earlier, board.requests = earlier ++ [request]
  alone : board.requests.Pairwise fun one other =>
    SameChange digests one other -> other.requestId ∈ attached -> board.Ended one.requestId

theorem Explored.done {digests : Digests} {toolbox : BoardHandle}
    {board : Board} {clock : Rat} {publishing : Option TestRequest} {attached : List String}
    (h : Explored digests toolbox board clock publishing attached) :
    Explored digests toolbox board clock none attached :=
  ⟨h.byOne, (fun _ h => nomatch h), h.alone⟩

namespace Exploration

variable {digests : Digests} {toolbox : BoardHandle} {s t : Exploration}

def Sound (digests : Digests) (toolbox : BoardHandle) (s : Exploration) : Prop :=
  Explored digests toolbox s.board s.clock s.publishing s.attached

theorem Sound.init (digests : Digests) (toolbox : BoardHandle) (clock : Rat) :
    ({ clock := clock } : Exploration).Sound digests toolbox :=
  ⟨ByOne.init toolbox clock, (fun _ h => nomatch h), List.Pairwise.nil⟩

variable {request : TestRequest}

section

variable (hs : s.Sound digests toolbox)

include hs

/-- What the attach of the request in publication finds: it is the last of all
requests, so every other explore of its change was asked for before. -/
theorem Sound.mem_testedFirst (hpublishing : s.publishing = some request) {record : TestRecord}
    (hrecord : record ∈ s.board.state.records) (hsame : SameChange digests record.request request)
    (hstands : record.inFlight = true ∨ record.measured = true) :
    record ∈ testedFirst digests s.board.state request := by
  rcases hs.publishing request hpublishing with ⟨earlier, hlast⟩
  have hknown := (Board.known_of_mem_records hrecord).left
  have hin : record.request ∈ earlier := by
    have hall := Board.mem_requests.mpr hknown
    rw [hlast] at hall
    rcases mem_concat.mp hall with hbefore | rfl
    · exact hbefore
    · exact absurd rfl hsame.branch
  have hids := hs.byOne.requestIds
  have hnodup := hs.byOne.nodup
  rw [hlast, List.map_append] at hids hnodup
  have hfresh : request.requestId ∉ earlier.map TestRequest.requestId := by
    intro hold
    exact (List.nodup_append.mp hnodup).right.right _ hold _ List.mem_cons_self rfl
  rw [Blackboard.mem_testedFirst, mem_sameChangeTests]
  refine ⟨hsame.second, ⟨hrecord, hsame.commit, hsame.branch, hsame.first,
    hsame.action, hsame.nonempty⟩, ?_, hstands⟩
  have hbefore : record.requestId ∈ earlier.map TestRequest.requestId := List.mem_map_of_mem hin
  rw [hids, List.idxOf_append_of_mem hbefore, List.idxOf_append_of_notMem hfresh]
  exact Nat.lt_add_right _ (List.idxOf_lt_length_of_mem hbefore)

/-- An attach that is not refused follows the end of every other explore of its
change. -/
theorem Sound.ended_of_attached (hpublishing : s.publishing = some request)
    (hfirst : changeTestedFirst digests s.board.state request = none)
    (hone : one ∈ s.board.requests) (hsame : SameChange digests one request) :
    s.board.Ended one.requestId := by
  by_contra hrunning
  rcases Board.exists_record_of_known hs.byOne.distinct
    (Board.mem_requests.mp hone) with ⟨record, hrecord, hrequest⟩
  have hflight := (Board.known_of_mem_records hrecord).right
  unfold TestRecord.requestId at hflight
  rw [hrequest] at hflight
  have hin := hs.mem_testedFirst hpublishing hrecord (hrequest ▸ hsame)
    (Or.inl (hflight.mpr hrunning))
  rw [changeTestedFirst_eq_none.mp hfirst] at hin
  cases hin

theorem Sound.write {board : Board} {clock : Rat} (hextra : Extra s.board board)
    (hclock : s.clock ≤ clock) :
    Explored digests toolbox board clock s.publishing s.attached := by
  rcases hs.byOne.extra hextra with ⟨hbyOne, hrequests⟩
  refine ⟨hbyOne.later hclock, ?_, ?_⟩
  · rw [hrequests]
    exact hs.publishing
  · rw [hrequests]
    apply hs.alone.imp
    intro one other halone hsame hattached
    exact hextra.ended (halone hsame hattached)

theorem Sound.submit (summary : String)
    (hclock : s.clock ≤ now) (hnew : s.board.state.request request.requestId = none)
    (hfresh : request.requestId ∉ s.attached) :
    Explored digests toolbox (s.board ++ [s.board.row toolbox now .request (.request request)
        request.branch request.parentCommit summary]) now (some request) s.attached := by
  rcases hs.byOne.request summary hclock hnew with ⟨hbyOne, hrequests⟩
  refine ⟨hbyOne, ?_, ?_⟩
  · intro published hsome
    cases hsome
    exact ⟨_, hrequests⟩
  · rw [hrequests, List.pairwise_append]
    refine ⟨?_, List.pairwise_singleton _ _, ?_⟩
    · apply hs.alone.imp
      intro one other halone hsame hattached
      exact Board.ended_append (halone hsame hattached)
    · intro one _ other hother _ hattached
      rw [List.mem_singleton.mp hother] at hattached
      exact absurd hattached hfresh

theorem Sound.attached (hpublishing : s.publishing = some request)
    (hfirst : changeTestedFirst digests s.board.state request = none) :
    Explored digests toolbox s.board s.clock none (s.attached ++ [request.requestId]) := by
  rcases hs.publishing request hpublishing with ⟨earlier, hlast⟩
  have hnodup := hs.byOne.nodup
  have halone := hs.alone
  rw [hlast, List.map_append] at hnodup
  rw [hlast, List.pairwise_append] at halone
  refine ⟨hs.byOne, hs.done.publishing, ?_⟩
  rw [hlast, List.pairwise_append]
  refine ⟨?_, List.pairwise_singleton _ _, ?_⟩
  · -- the others have other ids, so they were attached before
    apply halone.left.imp_of_mem
    intro one other _ hother hbefore hsame hin
    rcases mem_concat.mp hin with hold | hnew
    · exact hbefore hsame hold
    · exact absurd hnew ((List.nodup_append.mp hnodup).right.right _
          (List.mem_map_of_mem hother) _ List.mem_cons_self)
  · intro one hone other hother hsame _
    rw [List.mem_singleton.mp hother] at hsame
    apply hs.ended_of_attached hpublishing hfirst _ hsame
    rw [hlast]
    exact List.mem_append_left _ hone

theorem Sound.moves (htracked : s.Tracked)
    (h : Moves digests toolbox s t) : t.Sound digests toolbox := by
  cases h with
  | submit now request summary _ hclock hnew =>
    apply hs.submit summary hclock hnew
    intro hattached
    exact htracked.known _ (Or.inl hattached) hnew
  | publish request attached queued hpublishing _ hattached =>
    rcases hattached with rfl | ⟨rfl, hfirst⟩
    · exact hs.done
    · exact hs.attached hpublishing hfirst
  | lose board clock _ hextra hclock => exact (hs.write hextra hclock).done
  | write board clock pending hextra hclock => exact hs.write hextra hclock
  | _ => exact hs

end

theorem sound_of_reachable (h : (explorationMachine digests toolbox).Reachable s) :
    s.Sound digests toolbox ∧ s.Tracked := by
  apply h.invariant (I := fun s => s.Sound digests toolbox ∧ s.Tracked)
  · intro start hstart
    rcases hstart with ⟨clock, rfl⟩
    exact ⟨Sound.init digests toolbox clock, Tracked.init clock⟩
  · intro before op after hs _ hstep
    have hmoves := moves_of_step hstep
    exact ⟨hs.left.moves hs.right hmoves, hs.right.moves hmoves⟩

theorem Sound.not_both (hs : s.Sound digests toolbox) {other : TestRequest}
    (hone : one ∈ s.board.requests) (hother : other ∈ s.board.requests)
    (hsame : SameChange digests one other) (honeAttached : one.requestId ∈ s.attached)
    (hotherAttached : other.requestId ∈ s.attached) :
    s.board.Ended one.requestId ∨ s.board.Ended other.requestId := by
  -- the later of the two was attached after the end of the other
  apply List.Pairwise.forall_of_forall_of_flip (R := fun a b =>
    SameChange digests a b -> a.requestId ∈ s.attached -> b.requestId ∈ s.attached ->
      s.board.Ended a.requestId ∨ s.board.Ended b.requestId) _ _ _ hone hother
    hsame honeAttached hotherAttached
  · intro a _ hself
    exact absurd rfl hself.branch
  · apply hs.alone.imp
    intro a b halone hab _ hb
    exact Or.inl (halone hab hb)
  · apply hs.alone.imp
    intro a b halone hba hb _
    exact Or.inr (halone hba.symm hb)

theorem dropped_of_measured (hs : s.Sound digests toolbox)
    (htracked : s.Tracked) {record : TestRecord} (hpublishing : s.publishing = some request)
    (hintent : request.intentFingerprint ≠ none) (hrecord : record ∈ s.board.state.records)
    (hsame : SameChange digests record.request request)
    (hmeasured : record.measured = true) (now : Rat) (claim : Option Claim) (lost : Option String) :
    (s.attach digests toolbox now claim lost request).Dropped request.requestId := by
  have hin := hs.mem_testedFirst hpublishing hrecord hsame (Or.inr hmeasured)
  have hpublished := htracked.published request hpublishing
  unfold Exploration.attach
  rw [if_neg hintent]
  split
  · rename_i text htext
    have hextra := extra_refusalRows digests toolbox s now request claim
    exact ⟨hextra.known hpublished.left, (fun _ h => nomatch h), hpublished.right, _,
      List.mem_append_right _ List.mem_cons_self, rfl⟩
  · rename_i hfirst
    rw [changeTestedFirst_eq_none.mp hfirst] at hin
    cases hin

end Exploration

/-!
## No duplicate exploration
-/

namespace ExplorationExample

def digests : Digests where
  noAction := "empty"
  intent := fun target mechanism _ => target ++ mechanism

def toolbox : BoardHandle := ⟨"toolbox-1", .toolbox, "toolbox", ""⟩

def request (branch : String) (purpose : Purpose) (intent : Option String) : TestRequest where
  requestId := branch ++ "-1"
  kind := .test
  purpose := purpose
  branch := branch
  parentCommit := "root"
  actionFingerprint := "fused"
  intentFingerprint := intent

variable (first second : TestRequest)

/-- Branch `a` tests the change and its result is written; then branch `b`
submits the same change. -/
def afterFirst (validity : Validity) : List ExploreOp :=
  [.submit 1 first, .attach 1 none none, .start first.requestId,
    .writeResult 2 ⟨first.requestId, validity, none, none, ""⟩, .submit 3 second]

def measuredElsewhere (s : Exploration) (request : TestRequest) : Bool :=
  s.board.state.records.any fun record =>
    decide (record.request.branch ≠ request.branch) &&
      decide (record.request.parentCommit = request.parentCommit) &&
      sameAction digests record.request.actionFingerprint
        request.actionFingerprint && record.measured

variable (request : TestRequest)

def RunsAgain : Prop :=
  exists s t, (explorationMachine digests toolbox).Reachable s ∧
    s.publishing = some request ∧ measuredElsewhere s request = true ∧
    (explorationMachine digests toolbox).Run Machine.Always s
      [.attach 3 none none, .start request.requestId] t ∧
    request.requestId ∈ t.started ∧ t.withdrawn = []

theorem runsAgain_of_trace (h : (((explorationMachine digests toolbox).runIf Machine.Always
      { clock := 0 } (afterFirst first second .succeeded)).any fun s =>
        decide (s.publishing = some second ∧ measuredElsewhere s second = true ∧
          (((explorationMachine digests toolbox).runIf Machine.Always s
            [.attach 3 none none, .start second.requestId]).any fun t =>
              decide (second.requestId ∈ t.started ∧ t.withdrawn = [])) =
                true)) = true) : RunsAgain second := by
  have hstart : (explorationMachine digests toolbox).init { clock := 0 } := ⟨0, rfl⟩
  rcases Machine.ReachableWhere.exists_of_runIf _ _ hstart h with
    ⟨s, hreach, hpublishing, hmeasured, hagain⟩
  rcases Machine.Run.exists_of_runIf s _ hagain with ⟨t, hrun, hend⟩
  exact ⟨s, t, hreach, hpublishing, hmeasured, hrun, hend⟩

def measured (validity : Validity) : TestRecord where
  request := request
  result := some ⟨request.requestId, validity, none, none, ""⟩
  conclusion := none
  withdrawal := none

def inFlight : TestRecord := ⟨request, none, none, none⟩

end ExplorationExample

/-- Two attached explores of one change are not both in flight, and an explore
with an intent whose change an explore of another branch measured before it is
withdrawn and never run. -/
theorem no_duplicate_exploration (digests : Digests) (toolbox : BoardHandle) :
    (forall s one other, (explorationMachine digests toolbox).Reachable s ->
      one ∈ s.board.state.records -> other ∈ s.board.state.records ->
      SameChange digests one.request other.request ->
      one.requestId ∈ s.attached -> other.requestId ∈ s.attached ->
      ¬ (one.inFlight = true ∧ other.inFlight = true)) ∧
    (forall s t u request earlier now claim lost trace,
      (explorationMachine digests toolbox).Reachable s ->
      s.publishing = some request -> request.intentFingerprint ≠ none ->
      earlier ∈ s.board.state.records ->
      SameChange digests earlier.request request -> earlier.measured = true ->
      (explorationMachine digests toolbox).step s (.attach now claim lost) = some t ->
      (explorationMachine digests toolbox).Run Machine.Always t trace u ->
      u.Dropped request.requestId) := by
  constructor
  · intro s one other hreach hone hother hsame honeAttached hotherAttached hflight
    have hs := (Exploration.sound_of_reachable hreach).left
    have honeKnown := Board.known_of_mem_records hone
    have hotherKnown := Board.known_of_mem_records hother
    rcases hs.not_both (Board.mem_requests.mpr honeKnown.left)
      (Board.mem_requests.mpr hotherKnown.left) hsame honeAttached
      hotherAttached with hended | hended
    · exact honeKnown.right.mp hflight.left hended
    · exact hotherKnown.right.mp hflight.right hended
  · intro s t u request earlier now claim lost trace hreach hpublishing
      hintent hearlier hsame hmeasured hstep hrun
    rcases Exploration.sound_of_reachable hreach with ⟨hs, htracked⟩
    have hattach : s.step digests toolbox (.attach now claim lost) = some t := hstep
    simp only [Exploration.step, hpublishing] at hattach
    rcases some_of_when hattach with ⟨_, rfl⟩
    exact (Exploration.dropped_of_measured hs htracked hpublishing hintent
      hearlier hsame hmeasured now claim lost).run hrun

open ExplorationExample in
theorem no_duplicate_exploration_two_branches :
    (exists s, (explorationMachine digests toolbox).Reachable s ∧
      s.attached = ["a-1", "b-1"] ∧
      ¬ ((measured (request "a" .explore (some "fuse"))
          .measurementFailed).inFlight = true ∧
        (inFlight (request "b" .explore (some "fuse"))).inFlight = true)) ∧
    (exists s t, (explorationMachine digests toolbox).Reachable s ∧
      s.publishing = some (request "b" .explore (some "fuse")) ∧
      (explorationMachine digests toolbox).step s (.attach 3 none none) =
        some t ∧ t.Dropped "b-1") := by
  have hsame : SameChange digests (request "a" .explore (some "fuse"))
      (request "b" .explore (some "fuse")) :=
    ⟨by decide, rfl, rfl, rfl, rfl, by decide⟩
  constructor
  · rcases Machine.Reachable.exists_of_runIf (M := explorationMachine digests toolbox)
      (P := fun s => s.attached = ["a-1", "b-1"] ∧ "a-1" ∈ s.attached ∧ "b-1" ∈ s.attached ∧
        measured (request "a" .explore (some "fuse")) .measurementFailed ∈ s.board.state.records ∧
        inFlight (request "b" .explore (some "fuse")) ∈ s.board.state.records)
      { clock := 0 }
      (afterFirst (request "a" .explore (some "fuse"))
        (request "b" .explore (some "fuse")) .measurementFailed ++ [.attach 3 none none])
      ⟨0, rfl⟩ (by decide +kernel) with ⟨s, hreach, hattached, ha, hb, hone, hother⟩
    exact ⟨s, hreach, hattached, (no_duplicate_exploration digests toolbox).left s _ _ hreach
      hone hother hsame ha hb⟩
  · rcases Machine.Reachable.exists_of_runIf (M := explorationMachine digests toolbox)
      (P := fun s => s.publishing = some (request "b" .explore (some "fuse")) ∧
        measured (request "a" .explore (some "fuse")) .succeeded ∈ s.board.state.records ∧
        exists t, t ∈ s.step digests toolbox (.attach 3 none none) ∧ t.withdrawn ≠ [])
      { clock := 0 }
      (afterFirst (request "a" .explore (some "fuse"))
        (request "b" .explore (some "fuse")) .succeeded)
      ⟨0, rfl⟩ (by decide +kernel) with ⟨s, hreach, hpublishing, hearlier, t, hstep, _⟩
    exact ⟨s, t, hreach, hpublishing, hstep,
      (no_duplicate_exploration digests toolbox).right s t t _ _ 3 none none []
        hreach hpublishing (by decide) hearlier hsame (by decide) hstep (.nil t)⟩

open ExplorationExample in
/-- A measured change is run again for an explore that names no intent, and
where the earlier request was no explore. -/
theorem measured_change_runs_again :
    RunsAgain (request "b" .explore none) ∧
      RunsAgain (request "b" .explore (some "fuse")) := by
  constructor
  · exact runsAgain_of_trace (request "a" .explore (some "fuse")) _
      (by decide +kernel)
  · exact runsAgain_of_trace (request "a" .confirm (some "fuse")) _
      (by decide +kernel)

end Toolbox
end Hyperloom
