import Hyperloom.Library.SeqLog
import Hyperloom.Library.Whitespace
import Hyperloom.Blackboard.Records

/-!
# Writing to the blackboard

The rows of all segments in the order they were appended, and the writes of
requests, results, withdrawals and judgements, each with the checks it makes on
the state first.  A row's detail is what it decodes to.
-/

namespace Hyperloom
namespace Blackboard

structure BoardHandle where
  writerId : String
  writer : Writer
deriving DecidableEq

abbrev Board := List (Entry Payload)

/-- What a write raises, with its text. -/
inductive BoardError where
  | writerNotAllowed (text : String)
  | unknownRequest (text : String)
  | conflictingWrite (text : String)
  | notRecorded (text : String)
  | valueError (text : String)
deriving DecidableEq

/-- How an append ends: it may raise with its row there or not. -/
inductive WriteResult where
  | ok
  | failed (written : Bool)
deriving DecidableEq

def Role.value : Role -> String
  | .toolbox => "toolbox"
  | .gate => "gate"
  | .integrator => "integrator"
  | .scheduler => "scheduler"
  | .specialistRuntime => "specialist_runtime"
  | .observer => "observer"

def summaryLimit : Nat := 160

/-- `clip_summary`: one line of at most `summaryLimit` characters. -/
def clipSummary (text : String) : String :=
  let summary := " ".intercalate (Library.words text)
  if summary.length ≤ summaryLimit then summary
  else String.ofList (summary.toList.take (summaryLimit - 3)) ++ "..."

def integrationBranch : String := "integration"

def Conclusion.value : Conclusion -> String
  | .committed => "committed"
  | .committedWithRepro => "committed_with_repro"
  | .splitRequested => "split_requested"
  | .splitPending => "split_pending"
  | .splitCommitted => "split_committed"
  | .diagnosisPending => "diagnosis_pending"
  | .repairRequested => "repair_requested"
  | .recordedOnly => "recorded_only"
  | .accuracyFailed => "accuracy_failed"
  | .unverified => "unverified"
  | .merged => "merged"
  | .notStackable => "not_stackable"

def Conclusion.committing : Conclusion -> Bool
  | .committed => true
  | .committedWithRepro => true
  | .splitCommitted => true
  | _ => false

/-- `INTEGRATION_CONCLUSIONS`. -/
def Conclusion.ofIntegration : Conclusion -> Bool
  | .merged => true
  | .notStackable => true
  | _ => false

namespace Board

variable (board : Board)

def state : BlackboardState Payload :=
  foldEntries (fun entry => some entry.detail) (board.insertionSort Entry.SortedBefore)

def written (writerId : String) : Nat :=
  (board.filter fun entry => entry.writer = writerId).length

variable (handle : BoardHandle) (now : Rat)

def row (kind : EntryKind) (payload : Payload) (branch parent summary : String) : Entry Payload :=
  let seq := board.written handle.writerId + 1
  { entryId := handle.writerId ++ ":" ++ toString seq
    seq := seq
    time := now
    writer := handle.writerId
    role := handle.writer.role
    actor := handle.writer.name
    kind := kind
    branch := branch
    parent := parent
    summary := clipSummary summary
    detail := payload }

def require (role : Role) : Except BoardError Unit :=
  if handle.writer.role = role then .ok ()
  else .error (.writerNotAllowed (handle.writer.role.value ++
    " may not write this; it belongs to " ++ role.value))

def knownRequest (requestId : String) : Except BoardError TestRequest :=
  match board.state.request requestId with
  | none => .error (.unknownRequest ("no test request " ++ requestId))
  | some request => .ok request

/-!
## The writes

Each gives the rows it appends: one, or none where the board already says the
same.
-/

def writeRequest (request : TestRequest) : Except BoardError (List (Entry Payload)) := do
  require handle .toolbox
  match board.state.request request.requestId with
  | none =>
    let summary := request.kind.value ++ " " ++ request.requestId ++ " on " ++
      request.branch ++ " at " ++ request.parentCommit
    .ok [board.row handle now .request (.request request) request.branch
      request.parentCommit summary]
  | some existing =>
    if existing = request then .ok []
    else .error (.conflictingWrite
      ("request " ++ request.requestId ++ " was written with other content"))

variable (result : TestResult)

def failureText : String :=
  match result.failure with
  | none => ""
  | some failure =>
    ": " ++ failure.value ++ " " ++ result.failureReason.getD ""

def writeResult : Except BoardError (List (Entry Payload)) := do
  require handle .toolbox
  let request <- board.knownRequest result.requestId
  if (board.state.withdrawal result.requestId).isSome then
    .error (.conflictingWrite ("request " ++ result.requestId ++
      " was withdrawn; it takes no result"))
  else
    match board.state.result result.requestId with
    | none =>
      let summary := result.validity.value ++ " " ++ result.requestId ++
        " on " ++ request.branch ++ failureText result
      .ok [board.row handle now .result (.result result) request.branch
        request.parentCommit summary]
    | some existing =>
      if existing = result then .ok []
      else .error (.conflictingWrite ("the result of " ++ result.requestId ++
        " was written with other content"))

def writeWithdrawal (withdrawal : Withdrawal) : Except BoardError (List (Entry Payload)) := do
  require handle .toolbox
  let request <- board.knownRequest withdrawal.requestId
  if (board.state.result withdrawal.requestId).isSome then
    .error (.conflictingWrite ("request " ++ withdrawal.requestId ++
      " was measured; a measured test is not withdrawn"))
  else
    match board.state.withdrawal withdrawal.requestId with
    | none =>
      let summary := "withdrawn " ++ withdrawal.requestId ++ " on " ++
        request.branch ++ ": " ++ withdrawal.reason
      .ok [board.row handle now .withdrawal (.withdrawal withdrawal)
        request.branch request.parentCommit summary]
    | some existing =>
      if existing = withdrawal then .ok []
      else .error (.conflictingWrite ("request " ++ withdrawal.requestId ++
        " was withdrawn for another reason"))

/-- `write_judgement`; `shown` is its verdict and gain as the summary has
them. -/
def writeJudgement (write : JudgementWrite) (shown : String) :
    Except BoardError (List (Entry Payload)) := do
  let request <- board.knownRequest write.requestId
  let integration := decide (request.branch = integrationBranch)
  require handle (if integration then .integrator else .gate)
  if write.conclusion.ofIntegration ≠ integration then
    .error (.writerNotAllowed (write.conclusion.value ++
      " is no conclusion for a test on " ++ request.branch))
  else
    match board.state.result write.requestId with
    | none => .error (.notRecorded ("request " ++ write.requestId ++ " has no result to judge"))
    | some result =>
      if result.validity = .measurementFailed then
        .error (.notRecorded ("the measurement of " ++ write.requestId ++
          " failed; there is nothing to judge"))
      else if (write.conclusion.committing ||
          decide (write.conclusion = .merged)) ≠ write.commitId.isSome then
        .error (.valueError ("a " ++ write.conclusion.value ++
          " judgement names a commit exactly when it makes one"))
      else
        .ok [board.row handle now .judgement (.judgement write) request.branch request.parentCommit
          (write.conclusion.value ++ ": " ++ shown ++ " on " ++ write.requestId)]

variable {α : Type}

/-!
## What the state says of the rows
-/

variable {request : TestRequest} {requestId : String}

section

variable {board : Board}

theorem mem_payloads {payload : Payload} :
    payload ∈ board.state.payloads <-> exists entry, entry ∈ board ∧ entry.detail = payload := by
  unfold BlackboardState.payloads state foldEntries
  simp only [Option.map_some, List.filterMap_eq_map', List.map_map, List.mem_map]
  constructor
  · intro h
    rcases h with ⟨entry, hentry, hdetail⟩
    exact ⟨entry, (List.perm_insertionSort _ board).mem_iff.mp hentry, hdetail⟩
  · intro h
    rcases h with ⟨entry, hentry, hdetail⟩
    exact ⟨entry, (List.perm_insertionSort _ board).mem_iff.mpr hentry, hdetail⟩

theorem mem_requestRows : request ∈ board.state.requestRows <->
      exists entry, entry ∈ board ∧ entry.detail = .request request := by
  unfold BlackboardState.requestRows
  rw [List.mem_filterMap, ← mem_payloads]
  constructor
  · intro h
    rcases h with ⟨payload, hpayload, hsome⟩
    split at hsome
    · cases hsome
      exact hpayload
    · cases hsome
  · intro h
    exact ⟨.request request, h, rfl⟩

variable {requestId : String}

theorem request_eq_some (h : board.state.request requestId = some request) :
    request.requestId = requestId ∧
      exists entry, entry ∈ board ∧ entry.detail = .request request := by
  have hrow := List.mem_reverse.mp (List.mem_of_find?_eq_some h)
  have hid := List.find?_some h
  exact ⟨of_decide_eq_true hid, mem_requestRows.mp hrow⟩

theorem request_eq_none :
    board.state.request requestId = none <->
      forall entry request, entry ∈ board -> entry.detail = .request request ->
        request.requestId ≠ requestId := by
  unfold BlackboardState.request
  rw [List.find?_eq_none]
  constructor
  · intro h entry request hentry hdetail heq
    apply h request (List.mem_reverse.mpr (mem_requestRows.mpr ⟨entry, hentry, hdetail⟩))
    exact decide_eq_true heq
  · intro h request hrow heq
    rcases mem_requestRows.mp (List.mem_reverse.mp hrow) with ⟨entry, hentry, hdetail⟩
    exact h entry request hentry hdetail (of_decide_eq_true heq)

theorem findSome_eq_none {f : Payload -> Option α} :
    board.state.payloads.reverse.findSome? f = none <->
      forall entry, entry ∈ board -> f entry.detail = none := by
  rw [List.findSome?_eq_none_iff]
  constructor
  · intro h entry hentry
    exact h entry.detail (List.mem_reverse.mpr (mem_payloads.mpr ⟨entry, hentry, rfl⟩))
  · intro h payload hpayload
    rcases mem_payloads.mp (List.mem_reverse.mp hpayload) with ⟨entry, hentry, rfl⟩
    exact h entry hentry

theorem result_eq_none :
    board.state.result requestId = none <->
      forall entry result, entry ∈ board -> entry.detail = .result result ->
        result.requestId ≠ requestId := by
  unfold BlackboardState.result
  rw [findSome_eq_none]
  constructor
  · intro h entry result hentry hdetail heq
    have hnone := h entry hentry
    rw [hdetail] at hnone
    dsimp only at hnone
    rw [if_pos heq] at hnone
    cases hnone
  · intro h entry hentry
    split
    · rename_i result hdetail
      exact if_neg (h entry result hentry hdetail)
    · rfl

theorem withdrawal_eq_none :
    board.state.withdrawal requestId = none <->
      forall entry withdrawal, entry ∈ board -> entry.detail = .withdrawal withdrawal ->
        withdrawal.requestId ≠ requestId := by
  unfold BlackboardState.withdrawal
  rw [findSome_eq_none]
  constructor
  · intro h entry withdrawal hentry hdetail heq
    have hnone := h entry hentry
    rw [hdetail] at hnone
    dsimp only at hnone
    rw [if_pos heq] at hnone
    cases hnone
  · intro h entry hentry
    split
    · rename_i withdrawal hdetail
      exact if_neg (h entry withdrawal hentry hdetail)
    · rfl

end

/-!
## The requests on a board
-/

def Known (board : Board) (request : TestRequest) : Prop :=
  exists entry, entry ∈ board ∧ entry.detail = .request request

def Distinct (board : Board) : Prop :=
  forall one other, board.Known one -> board.Known other ->
    one.requestId = other.requestId -> one = other

variable {board : Board} {request : TestRequest}

theorem request_of_known (hdistinct : board.Distinct) (hknown : board.Known request) :
    board.state.request request.requestId = some request := by
  cases hfound : board.state.request request.requestId with
  | none =>
    rcases hknown with ⟨entry, hentry, hdetail⟩
    exact absurd rfl (request_eq_none.mp hfound entry request hentry hdetail)
  | some found =>
    have hparts := request_eq_some hfound
    rw [hdistinct found request hparts.right hknown hparts.left]

variable {entry : Entry Payload}

theorem known_append (h : board.Known request) : Known (board ++ [entry]) request := by
  rcases h with ⟨row, hrow, hdetail⟩
  exact ⟨row, List.mem_append_left _ hrow, hdetail⟩

theorem known_append_cases (h : Known (board ++ [entry]) request) :
    board.Known request ∨ entry.detail = .request request := by
  rcases h with ⟨row, hrow, hdetail⟩
  rcases List.mem_append.mp hrow with hold | hnew
  · exact Or.inl ⟨row, hold, hdetail⟩
  · rw [List.mem_singleton.mp hnew] at hdetail
    exact Or.inr hdetail

theorem written_append (board : Board) (entry : Entry Payload) (writer : String) :
    written (board ++ [entry]) writer =
      board.written writer + if entry.writer = writer then 1 else 0 := by
  unfold Board.written
  rw [List.filter_append, List.length_append, List.filter_singleton]
  by_cases h : entry.writer = writer
  · rw [decide_eq_true h, if_pos h]
    rfl
  · rw [decide_eq_false h, if_neg h]
    rfl

theorem seq_le_written_append {row : Entry Payload}
    (h : forall row, row ∈ board -> row.seq ≤ board.written row.writer)
    (hseq : entry.seq = board.written entry.writer + 1) (hrow : row ∈ board ++ [entry]) :
    row.seq ≤ written (board ++ [entry]) row.writer := by
  rw [written_append]
  rcases List.mem_append.mp hrow with hold | hnew
  · exact Nat.le_add_right_of_le (h row hold)
  · rw [List.mem_singleton.mp hnew, if_pos rfl, hseq]

theorem request_append {rows : Board} (h : board.state.request requestId ≠ none) :
    (state (board ++ rows)).request requestId ≠ none := by
  intro hnone
  apply h
  rw [request_eq_none] at hnone ⊢
  intro entry request hentry
  exact hnone entry request (List.mem_append_left _ hentry)

def requests (board : Board) : List TestRequest :=
  board.filterMap fun entry =>
    match entry.detail with
    | .request request => some request
    | _ => none

def ofRequest (entry : Entry Payload) : Bool :=
  match entry.detail with
  | .request _ => true
  | _ => false

/-- The request rows are one writer's, and its clock never went back. -/
def InOrder (board : Board) : Prop :=
  (board.filter ofRequest).Pairwise fun a b => a.time ≤ b.time ∧ a.writer = b.writer ∧ a.seq < b.seq

theorem mem_requests : request ∈ board.requests <-> board.Known request := by
  unfold requests Known
  rw [List.mem_filterMap]
  constructor
  · intro h
    rcases h with ⟨entry, hentry, hsome⟩
    split at hsome
    · rename_i found hdetail
      cases hsome
      exact ⟨entry, hentry, hdetail⟩
    · cases hsome
  · intro h
    rcases h with ⟨entry, hentry, hdetail⟩
    exact ⟨entry, hentry, by rw [hdetail]⟩

theorem requests_append (board : Board) (entry : Entry Payload) :
    requests (board ++ [entry]) = board.requests ++ requests [entry] :=
  List.filterMap_append

theorem requestRows_of_inOrder (h : board.InOrder) : board.state.requestRows = board.requests := by
  have hsorted : (board.insertionSort Entry.SortedBefore).filter ofRequest =
      board.filter ofRequest := by
    apply Library.filter_insertionSort
    apply h.imp
    intro a b hab
    rcases Rat.le_iff_lt_or_eq.mp hab.left with hlt | heq
    · exact Or.inl hlt
    · exact Or.inr ⟨heq, Or.inr ⟨hab.right.left, Nat.le_of_lt hab.right.right⟩⟩
  have hfilter : forall rows : Board, requests (rows.filter ofRequest) = rows.requests := by
    intro rows
    unfold requests
    rw [List.filterMap_filter]
    apply List.filterMap_congr
    intro entry _
    unfold ofRequest
    cases entry.detail with
    | _ => rfl
  have hstate : board.state.requestRows = requests (board.insertionSort Entry.SortedBefore) := by
    unfold BlackboardState.requestRows BlackboardState.payloads state foldEntries requests
    simp only [Option.map_some, List.filterMap_eq_map', List.filterMap_map]
    rfl
  rw [hstate, ← hfilter, hsorted, hfilter]

def Ended (board : Board) (requestId : String) : Prop :=
  board.state.result requestId ≠ none ∨ board.state.withdrawal requestId ≠ none

def endedBy (entry : Entry Payload) : Option String :=
  match entry.detail with
  | .result result => some result.requestId
  | .withdrawal withdrawal => some withdrawal.requestId
  | _ => none

theorem ended_iff :
    board.Ended requestId <-> exists entry, entry ∈ board ∧ endedBy entry = some requestId := by
  constructor
  · intro h
    by_contra hno
    have hrow : forall entry, entry ∈ board -> endedBy entry ≠ some requestId :=
      fun entry hentry hends => hno ⟨entry, hentry, hends⟩
    rcases h with hresult | hwithdrawal
    · apply hresult
      rw [result_eq_none]
      intro entry result hentry hdetail heq
      exact hrow entry hentry (by rw [endedBy, hdetail, ← heq])
    · apply hwithdrawal
      rw [withdrawal_eq_none]
      intro entry withdrawal hentry hdetail heq
      exact hrow entry hentry (by rw [endedBy, hdetail, ← heq])
  · intro h
    rcases h with ⟨entry, hentry, hends⟩
    unfold endedBy at hends
    split at hends
    · rename_i result hdetail
      left
      intro hnone
      exact result_eq_none.mp hnone entry result hentry hdetail (Option.some.inj hends)
    · rename_i withdrawal hdetail
      right
      intro hnone
      exact withdrawal_eq_none.mp hnone entry withdrawal hentry hdetail (Option.some.inj hends)
    · cases hends

theorem ended_append {rows : Board} (h : board.Ended requestId) :
    Ended (board ++ rows) requestId := by
  rcases ended_iff.mp h with ⟨entry, hentry, hends⟩
  exact ended_iff.mpr ⟨entry, List.mem_append_left _ hentry, hends⟩

theorem ended_append_cases (h : Ended (board ++ [entry]) requestId) :
    board.Ended requestId ∨ endedBy entry = some requestId := by
  rcases ended_iff.mp h with ⟨row, hrow, hends⟩
  rcases List.mem_append.mp hrow with hold | hnew
  · exact Or.inl (ended_iff.mpr ⟨row, hold, hends⟩)
  · rw [List.mem_singleton.mp hnew] at hends
    exact Or.inr hends

theorem known_of_mem_records {record : TestRecord} (h : record ∈ board.state.records) :
    board.Known record.request ∧ (record.inFlight = true <-> ¬ board.Ended record.requestId) := by
  rcases List.mem_filterMap.mp h with ⟨requestId, _, hrecord⟩
  rcases Option.map_eq_some_iff.mp hrecord with ⟨request, hrequest, rfl⟩
  have hparts := request_eq_some hrequest
  refine ⟨hparts.right, ?_⟩
  show (_ && _) = true <-> ¬ board.Ended request.requestId
  rw [hparts.left, Bool.and_eq_true, Option.isNone_iff_eq_none, Option.isNone_iff_eq_none]
  unfold Ended
  rw [not_or, not_not, not_not]

theorem exists_record_of_known (hdistinct : board.Distinct) (h : board.Known request) :
    exists record, record ∈ board.state.records ∧ record.request = request := by
  have hrow : request ∈ board.state.requestRows := mem_requestRows.mpr h
  have hid : request.requestId ∈ board.state.requestIds :=
    mem_firstSeen.mpr (List.mem_map_of_mem hrow)
  have hrecord : exists record,
      board.state.record request.requestId = some record ∧ record.request = request := by
    unfold BlackboardState.record
    rw [request_of_known hdistinct h]
    exact ⟨_, rfl, rfl⟩
  rcases hrecord with ⟨record, hrecord, hrequest⟩
  exact ⟨record, List.mem_filterMap.mpr ⟨_, hid, hrecord⟩, hrequest⟩

/-!
## What a write appends
-/

section

variable {board : Board} {handle : BoardHandle} {now : Rat} {rows : List (Entry Payload)}

theorem knownRequest_ok (h : board.knownRequest requestId = .ok request) :
    board.state.request requestId = some request := by
  unfold knownRequest at h
  split at h
  · cases h
  rename_i found hfound
  cases h
  exact hfound

theorem exists_of_bind_ok {ε β : Type} {x : Except ε α} {f : α -> Except ε β}
    {b : β} (h : (x >>= f) = .ok b) : exists a, x = .ok a ∧ f a = .ok b := by
  cases x with
  | error e => cases h
  | ok a => exact ⟨a, rfl, h⟩

theorem writeRequest_ok (h : board.writeRequest handle now request = .ok rows) :
    (rows = [] ∧ board.state.request request.requestId = some request) ∨
    (board.state.request request.requestId = none ∧
      exists summary, rows = [board.row handle now .request (.request request)
        request.branch request.parentCommit summary]) := by
  rcases exists_of_bind_ok h with ⟨_, _, hwrite⟩
  split at hwrite
  · rename_i hnone
    cases hwrite
    exact Or.inr ⟨hnone, _, rfl⟩
  · rename_i existing hsome
    split at hwrite
    · rename_i heq
      cases hwrite
      exact Or.inl ⟨rfl, heq ▸ hsome⟩
    · cases hwrite

theorem writeResult_ok {result : TestResult} (h : board.writeResult handle now result = .ok rows) :
    exists request, board.state.request result.requestId = some request ∧
      board.state.withdrawal result.requestId = none ∧
      ((rows = [] ∧ board.state.result result.requestId = some result) ∨
      (board.state.result result.requestId = none ∧
        exists summary, rows = [board.row handle now .result (.result result)
          request.branch request.parentCommit summary])) := by
  rcases exists_of_bind_ok h with ⟨_, _, hmore⟩
  rcases exists_of_bind_ok hmore with ⟨request, hknown, hwrite⟩
  split at hwrite
  · cases hwrite
  rename_i hwithdrawn
  refine ⟨request, knownRequest_ok hknown, Option.not_isSome_iff_eq_none.mp hwithdrawn, ?_⟩
  split at hwrite
  · rename_i hnone
    cases hwrite
    exact Or.inr ⟨hnone, _, rfl⟩
  · rename_i existing hsome
    split at hwrite
    · rename_i heq
      cases hwrite
      exact Or.inl ⟨rfl, heq ▸ hsome⟩
    · cases hwrite

theorem writeWithdrawal_ok {withdrawal : Withdrawal}
    (h : board.writeWithdrawal handle now withdrawal = .ok rows) :
    exists request, board.state.request withdrawal.requestId = some request ∧
      board.state.result withdrawal.requestId = none ∧
      ((rows = [] ∧ board.state.withdrawal withdrawal.requestId = some withdrawal) ∨
      (board.state.withdrawal withdrawal.requestId = none ∧
        exists summary, rows = [board.row handle now .withdrawal
          (.withdrawal withdrawal) request.branch request.parentCommit summary])) := by
  rcases exists_of_bind_ok h with ⟨_, _, hmore⟩
  rcases exists_of_bind_ok hmore with ⟨request, hknown, hwrite⟩
  split at hwrite
  · cases hwrite
  rename_i hmeasured
  refine ⟨request, knownRequest_ok hknown, Option.not_isSome_iff_eq_none.mp hmeasured, ?_⟩
  split at hwrite
  · rename_i hnone
    cases hwrite
    exact Or.inr ⟨hnone, _, rfl⟩
  · rename_i existing hsome
    split at hwrite
    · rename_i heq
      cases hwrite
      exact Or.inl ⟨rfl, heq ▸ hsome⟩
    · cases hwrite

theorem writeJudgement_ok {write : JudgementWrite} {shown : String}
    (h : board.writeJudgement handle now write shown = .ok rows) :
    exists request result summary, board.state.request write.requestId = some request ∧
      board.state.result write.requestId = some result ∧ result.validity ≠ .measurementFailed ∧
      rows = [board.row handle now .judgement (.judgement write)
        request.branch request.parentCommit summary] := by
  rcases exists_of_bind_ok h with ⟨request, hknown, hmore⟩
  rcases exists_of_bind_ok hmore with ⟨_, _, hwrite⟩
  split at hwrite
  · cases hwrite
  split at hwrite
  · cases hwrite
  rename_i result hresult
  split at hwrite
  · cases hwrite
  rename_i hvalid
  split at hwrite
  · cases hwrite
  · cases hwrite
    exact ⟨request, result, _, knownRequest_ok hknown, hresult, hvalid, rfl⟩

end

end Board

end Blackboard
end Hyperloom
