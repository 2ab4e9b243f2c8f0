import Hyperloom.Blackboard.ClaimSettlement

/-!
# A claim ends with its test

The outcome of a test is written in two durable steps: the row is appended,
then the claim the request measures is settled.  The toolbox tries the write
again after a try that raised; a try that finds its row on the board returns
without another look at the claim.  The calls of the toolbox follow one
another, and those of the other handles come in between at every access of
the claims folder.
-/

namespace Hyperloom
namespace Blackboard

open Library

/-!
## The toolbox between two steps of a write
-/

inductive Writing where
  | idle
  | appending (request : TestRequest) (outcome : Outcome) (now : Rat) (row : Entry Payload)
  | settling (request : TestRequest)
deriving DecidableEq

def toolboxHandle : Nat := 0

/-- `returned` are the requests for which a write of an outcome has returned. -/
structure OutcomeRun where
  board : Board := []
  leases : LeaseState := ⟨[], fun _ => .ended none⟩
  writing : Writing := .idle
  returned : List TestRequest := []

/-- A step of the toolbox or of another handle.  `appendRaised` is an append
that raises, with its row on the board or not, and `raise` an error or a crash
anywhere else in a call of the toolbox. -/
inductive OutcomeOp where
  | append (entry : Entry Payload)
  | writeRequest (handle : BoardHandle) (now : Rat) (request : TestRequest)
  | claims (op : LeaseOp)
  | attach (request : TestRequest) (ttlSeconds now : Rat)
  | beginOutcome (handle : BoardHandle) (now : Rat) (outcome : Outcome)
  | appended
  | appendRaised (written : Bool)
  | returns
  | raise
deriving DecidableEq

def OutcomeRun.free (s : OutcomeRun) : Bool :=
  decide (s.writing = .idle) && (s.leases.calls toolboxHandle).idle

/-- The claim calls of the handles: only the toolbox attaches and settles, and
only it calls on its handle. -/
def OutcomeRun.permits (s : OutcomeRun) : LeaseOp -> Bool
  | .acquire handle _ _ _ _ => decide (handle ≠ toolboxHandle)
  | .change handle _ change =>
    (match change with
      | .attach _ _ _ => false
      | .settle _ _ _ => false
      | _ => true) && (decide (handle ≠ toolboxHandle) || s.free)
  | .releaseBranch handle _ _ => decide (handle ≠ toolboxHandle)
  | .advance _ => true

section

variable (token : ClaimKey -> String) (s : OutcomeRun)

def outcomeStep : OutcomeOp -> Option OutcomeRun
  | .append entry =>
    match entry.detail with
    | .request _ => none
    | .result _ => none
    | .withdrawal _ => none
    | _ => some { s with board := s.board ++ [entry] }
  | .writeRequest handle now request =>
    if s.free then
      match s.board.writeRequest handle now request with
      | .error _ => none
      | .ok rows => some { s with board := s.board ++ rows }
    else none
  | .claims op =>
    if s.permits op then
      (leaseStep token s.leases op).map fun leases => { s with leases := leases }
    else none
  | .attach request ttlSeconds now =>
    -- A request with an outcome is not published again.
    if s.free && decide (s.board.state.request request.requestId = some request) &&
        (s.board.state.result request.requestId).isNone &&
        (s.board.state.withdrawal request.requestId).isNone then
      (claimKey request).map fun key =>
        { s with leases := s.leases.goto toolboxHandle (.changeList key
            (.attach (claimant request) ttlSeconds now) changeAttempts []) }
    else none
  | .beginOutcome handle now outcome =>
    if s.free then
      match s.board.state.request outcome.requestId, s.board.writeOutcome handle now outcome with
      | some request, .ok (row :: _) =>
        some { s with writing := .appending request outcome now row }
      | some request, .ok [] =>
        some { s with returned := request :: s.returned }
      | _, _ => some s
    else none
  | .appended =>
    match s.writing with
    | .appending request outcome now row =>
      some { s with
        board := s.board ++ [row]
        leases := s.leases.goto toolboxHandle (settleClaim request outcome now)
        writing := .settling request }
    | _ => none
  | .appendRaised written =>
    match s.writing with
    | .appending _ _ _ row =>
      some { s with board := if written then s.board ++ [row] else s.board, writing := .idle }
    | _ => none
  | .returns =>
    match s.writing, s.leases.calls toolboxHandle with
    | .settling request, .ended _ =>
      some { s with writing := .idle, returned := request :: s.returned }
    | _, _ => none
  | .raise =>
    some { s with leases := s.leases.goto toolboxHandle (.ended none), writing := .idle }

def outcomeMachine : Machine OutcomeRun OutcomeOp where
  init s := s = {}
  step := outcomeStep token

/-- No try fails between its row and the end of its settlement, and the
settlement is not beaten eight times: the generation it writes last is a
listed one nobody else has written. -/
def OutcomeRun.settles : OutcomeOp -> Bool
  | .appendRaised written =>
    match s.writing with
    | .appending request _ _ _ => !written || (claimKey request).isNone
    | _ => true
  | .raise =>
    match s.writing with
    | .settling _ => (s.leases.calls toolboxHandle).idle
    | _ => true
  | .claims (.advance handle) =>
    match s.writing, s.leases.calls toolboxHandle with
    | .settling _, .changePublish key _ attempts _ changed =>
      decide (handle ≠ toolboxHandle) ||
      match s.leases.files.load (token key) changed.generation with
      | some _ => decide (1 < attempts)
      | none => listed changed.generation
    | _, _ => true
  | _ => true

def OutcomeRun.Settles (op : OutcomeOp) : Prop := s.settles token op = true

instance (op : OutcomeOp) : Decidable (s.Settles token op) :=
  inferInstanceAs (Decidable (_ = true))

end

/-!
## Every run in which no settlement is cut off
-/

def OutcomeRun.Own (token : ClaimKey -> String) (s : OutcomeRun) : Prop :=
  match s.writing with
  | .idle =>
    forall requestId, s.board.Ended requestId -> (s.leases.calls toolboxHandle).Spares requestId
  | .appending request _ _ row =>
    (s.leases.calls toolboxHandle).idle = true ∧ s.board.Known request ∧
      ¬ s.board.Ended request.requestId ∧ Board.endedBy row = some request.requestId
  | .settling request =>
    s.board.Known request ∧ s.board.Ended request.requestId ∧ request ∉ s.returned ∧
      Settling token s.leases.files request (s.leases.calls toolboxHandle)

/-- The claims of the ended requests are over, but for the one being
settled. -/
structure OutcomeRun.Sound (token : ClaimKey -> String) (s : OutcomeRun) : Prop where
  leases : s.leases.Sound token
  distinct : s.board.Distinct
  known : forall requestId, s.board.Ended requestId ->
    exists request, s.board.Known request ∧ request.requestId = requestId
  others : forall handle requestId, handle ≠ toolboxHandle ->
    (s.leases.calls handle).Spares requestId
  own : s.Own token
  freed : forall request, s.board.Known request ->
    s.board.Ended request.requestId -> s.writing ≠ .settling request ->
    Over token s.leases.files request
  returned : forall request, request ∈ s.returned ->
    s.board.Known request ∧ s.board.Ended request.requestId

namespace OutcomeRun

variable {token : ClaimKey -> String} {s t : OutcomeRun}

theorem free_iff : s.free = true <->
    s.writing = .idle ∧ (s.leases.calls toolboxHandle).idle = true := by
  unfold free
  rw [Bool.and_eq_true, decide_eq_true_eq]

variable {phase : CallPhase}

theorem spares_of_idle (h : phase.idle = true) (requestId : String) : phase.Spares requestId := by
  cases phase with
  | ended result => trivial
  | _ => cases h

variable (leases : LeaseState)

@[simp] theorem goto_calls_self (handle : Nat)
    (phase : CallPhase) : (leases.goto handle phase).calls handle = phase :=
  if_pos rfl

variable {handle : Nat}

theorem goto_calls_of_ne {other : Nat} (phase : CallPhase)
    (h : other ≠ handle) : (leases.goto handle phase).calls other = leases.calls other :=
  if_neg h

variable {entry : Entry Payload} {board : Board}

theorem ended_of_append {requestId : String} (hentry : Board.endedBy entry = none)
    (h : Board.Ended (board ++ [entry]) requestId) : board.Ended requestId := by
  rcases Board.ended_append_cases h with hold | hnew
  · exact hold
  · rw [hentry] at hnew
    cases hnew

theorem distinct_append (h : board.Distinct)
    (hentry : forall request, entry.detail ≠ .request request) :
    Board.Distinct (board ++ [entry]) := by
  intro one other hone hother hid
  rcases Board.known_append_cases hone with hone | hnew
  · rcases Board.known_append_cases hother with hother | hnew
    · exact h one other hone hother hid
    · exact absurd hnew (hentry other)
  · exact absurd hnew (hentry one)

variable {request : TestRequest} {files : ClaimFiles}

section

variable (hs : s.Sound token)

include hs

theorem Sound.appendOther (hrequest : forall request, entry.detail ≠ .request request)
    (hended : Board.endedBy entry = none) : Sound token { s with board := s.board ++ [entry] } := by
  have hknown : forall request, Board.Known (s.board ++ [entry]) request ->
      s.board.Known request := by
    intro request h
    rcases Board.known_append_cases h with hold | hnew
    · exact hold
    · exact absurd hnew (hrequest request)
  constructor
  · exact hs.leases
  · exact distinct_append hs.distinct hrequest
  · intro requestId h
    rcases hs.known requestId (ended_of_append hended h) with ⟨request, hold, hid⟩
    exact ⟨request, Board.known_append hold, hid⟩
  · exact hs.others
  · have hown := hs.own
    unfold Own at hown ⊢
    dsimp only
    split at hown
    · intro requestId h
      exact hown requestId (ended_of_append hended h)
    · rcases hown with ⟨hidle, hk, hopen, hrow⟩
      exact ⟨hidle, Board.known_append hk, fun h => hopen (ended_of_append hended h), hrow⟩
    · exact ⟨Board.known_append hown.left, Board.ended_append hown.right.left, hown.right.right⟩
  · intro request hk he hwriting
    exact hs.freed request (hknown request hk) (ended_of_append hended he) hwriting
  · intro request hreturned
    rcases hs.returned request hreturned with ⟨hk, he⟩
    exact ⟨Board.known_append hk, Board.ended_append he⟩

theorem Sound.appendRequest (hfree : s.writing = .idle) (hentry : entry.detail = .request request)
    (hnone : s.board.state.request request.requestId = none) :
    Sound token { s with board := s.board ++ [entry] } := by
  have hfresh : forall other, s.board.Known other -> other.requestId ≠ request.requestId := by
    intro other h heq
    rcases h with ⟨row, hrow, hdetail⟩
    exact Board.request_eq_none.mp hnone row other hrow hdetail heq
  have hended : Board.endedBy entry = none := by
    rw [Board.endedBy, hentry]
  have hknown : forall other, Board.Known (s.board ++ [entry]) other ->
      s.board.Known other ∨ other = request := by
    intro other h
    rcases Board.known_append_cases h with hold | hnew
    · exact Or.inl hold
    · rw [hentry] at hnew
      cases hnew
      exact Or.inr rfl
  constructor
  · exact hs.leases
  · intro one other hone hother hid
    rcases hknown one hone with hone | hone
    · rcases hknown other hother with hother | hother
      · exact hs.distinct one other hone hother hid
      · rw [hother] at hid
        exact absurd hid (hfresh one hone)
    · rcases hknown other hother with hother | hother
      · rw [hone] at hid
        exact absurd hid.symm (hfresh other hother)
      · rw [hone, hother]
  · intro requestId h
    rcases hs.known requestId (ended_of_append hended h) with ⟨known, hold, hid⟩
    exact ⟨known, Board.known_append hold, hid⟩
  · exact hs.others
  · have hown := hs.own
    unfold Own at hown ⊢
    rw [hfree] at hown
    rw [hfree]
    intro requestId h
    exact hown requestId (ended_of_append hended h)
  · intro other hk he hwriting
    rcases hknown other hk with hold | rfl
    · exact hs.freed other hold (ended_of_append hended he) hwriting
    · rcases hs.known _ (ended_of_append hended he) with ⟨known, hold, hid⟩
      exact absurd hid (hfresh known hold)
  · intro other hreturned
    rcases hs.returned other hreturned with ⟨hk, he⟩
    exact ⟨Board.known_append hk, Board.ended_append he⟩

theorem Sound.gotoIdle (hfree : s.writing = .idle) (hknows : Knows token s.leases.files phase)
    (hspares : forall requestId, s.board.Ended requestId -> phase.Spares requestId) :
    Sound token { s with leases := s.leases.goto toolboxHandle phase } := by
  refine { hs with leases := ?_, others := ?_, own := ?_ }
  · exact hs.leases.goto hknows
  · intro handle requestId hother
    rw [goto_calls_of_ne s.leases phase hother]
    exact hs.others handle requestId hother
  · unfold Own
    rw [hfree]
    exact hspares

theorem Sound.gotoOther (hhandle : handle ≠ toolboxHandle)
    (hknows : Knows token s.leases.files phase)
    (hspares : forall requestId, phase.Spares requestId) :
    Sound token { s with leases := s.leases.goto handle phase } := by
  have htoolbox : (s.leases.goto handle phase).calls toolboxHandle = s.leases.calls toolboxHandle :=
    goto_calls_of_ne s.leases phase hhandle.symm
  refine { hs with leases := ?_, others := ?_, own := ?_ }
  · exact hs.leases.goto hknows
  · intro other requestId hother
    by_cases hsame : other = handle
    · rw [hsame, goto_calls_self]
      exact hspares requestId
    · rw [goto_calls_of_ne s.leases phase hsame]
      exact hs.others other requestId hother
  · have hown := hs.own
    unfold Own at hown ⊢
    rw [htoolbox]
    exact hown

theorem Sound.advance
    (hadvance : advanceCall token s.leases.files (s.leases.calls handle) = some (phase, files))
    (hspares : forall requestId, s.board.Ended requestId ->
      (s.leases.calls handle).Spares requestId) (hown : Own token { s with
      leases := { s.leases with files := files }.goto handle phase }) :
    Sound token { s with
      leases := { s.leases with files := files }.goto handle phase } := by
  have hchain := hs.leases.chain
  have hknows := hs.leases.knows handle
  refine { hs with leases := ?_, others := ?_, own := ?_, freed := ?_ }
  · have hstep : leaseStep token s.leases (.advance handle) =
        some ({ s.leases with files := files }.goto handle phase) := by
      rw [leaseStep, hadvance]
    exact hs.leases.step hstep
  · intro other requestId hother
    by_cases hsame : other = handle
    · rw [hsame, goto_calls_self]
      rw [hsame] at hother
      exact (advanceCall_spares hchain hknows (hs.others handle requestId hother) hadvance).left
    · rw [goto_calls_of_ne _ phase hsame]
      exact hs.others other requestId hother
  · exact hown
  · intro request hknown hended hwriting
    exact (advanceCall_spares hchain hknows (hspares _ hended)
      hadvance).right request rfl (hs.freed request hknown hended hwriting)

theorem Sound.advanceOther (hhandle : handle ≠ toolboxHandle)
    (hadvance : advanceCall token s.leases.files (s.leases.calls handle) = some (phase, files)) :
    Sound token { s with
      leases := { s.leases with files := files }.goto handle phase } := by
  have hspares := fun requestId => hs.others handle requestId hhandle
  apply hs.advance hadvance (fun requestId _ => hspares requestId)
  have hchain := hs.leases.chain
  have hknows := hs.leases.knows handle
  have hown := hs.own
  unfold Own at hown ⊢
  dsimp only
  rw [goto_calls_of_ne _ phase hhandle.symm]
  split at hown
  · exact hown
  · exact hown
  · rename_i request _
    rcases hown with ⟨hknown, hended, hreturned, hsettling⟩
    exact ⟨hknown, hended, hreturned, hsettling.mono
      (advanceCall_keeps hchain hknows hadvance).right.right
      ((advanceCall_spares hchain hknows (hspares request.requestId) hadvance).right request rfl)⟩

theorem Sound.advanceOwn (hadvance : advanceCall token s.leases.files
      (s.leases.calls toolboxHandle) = some (phase, files))
    (hbeaten : forall request, s.writing = .settling request ->
      NotBeaten token s.leases.files (s.leases.calls toolboxHandle)) :
    Sound token { s with
      leases := { s.leases with files := files }.goto toolboxHandle phase } := by
  have hchain := hs.leases.chain
  have hknows := hs.leases.knows toolboxHandle
  have hown := hs.own
  unfold Own at hown
  cases hwriting : s.writing with
  | idle =>
    rw [hwriting] at hown
    rw [← hwriting]
    apply hs.advance hadvance hown
    unfold Own
    rw [hwriting]
    intro requestId hended
    exact (advanceCall_spares hchain hknows (hown requestId hended) hadvance).left
  | appending request outcome now row =>
    rw [hwriting] at hown
    have hidle := hown.left
    cases hcall : s.leases.calls toolboxHandle with
    | ended result =>
      rw [hcall] at hadvance
      cases hadvance
    | _ =>
      rw [hcall] at hidle
      cases hidle
  | settling request =>
    rw [hwriting] at hown
    rcases hown with ⟨hknown, hended, hreturned, hsettling⟩
    rw [← hwriting]
    apply hs.advance hadvance (fun requestId _ => hsettling.spares requestId)
    unfold Own
    rw [hwriting]
    exact ⟨hknown, hended, hreturned, hsettling.advance hchain hknows
      (hbeaten request hwriting) hadvance⟩

theorem Sound.claims {op : LeaseOp} {leases : LeaseState}
    (hpermits : s.permits op = true) (hC : s.Settles token (.claims op))
    (hstep : leaseStep token s.leases op = some leases) :
    Sound token { s with leases := leases } := by
  revert hstep
  fun_cases leaseStep token s.leases op with (intro hstep; cases hstep)
  | case1 => exact hs.gotoOther (of_decide_eq_true hpermits) rfl (fun _ => rfl)
  | case3 handle key change =>
    rcases (Bool.and_eq_true _ _).mp hpermits with ⟨hkind, hcaller⟩
    have hspares : forall requestId, change.Spares requestId := by
      intro requestId
      cases change with
      | attach request ttl now | settle request status now => cases hkind
      | _ => trivial
    rcases (Bool.or_eq_true _ _).mp hcaller with hother | hfree
    · exact hs.gotoOther (of_decide_eq_true hother) trivial hspares
    · by_cases hhandle : handle = toolboxHandle
      · rw [hhandle]
        exact hs.gotoIdle (free_iff.mp hfree).left trivial (fun requestId _ => hspares requestId)
      · exact hs.gotoOther hhandle trivial hspares
  | case5 => exact hs.gotoOther (of_decide_eq_true hpermits) trivial (fun _ => trivial)
  | case8 handle phase files hadvance =>
    by_cases hhandle : handle = toolboxHandle
    · subst hhandle
      apply hs.advanceOwn hadvance
      intro request hwriting
      unfold Settles settles at hC
      rw [hwriting] at hC
      unfold NotBeaten
      split
      · rename_i key change attempts rest changed hcall
        rw [hcall] at hC
        dsimp only at hC
        split
        · rename_i taken htaken
          rw [htaken] at hC
          exact of_decide_eq_true hC
        · rename_i hnone
          rw [hnone] at hC
          exact hC
      · trivial
    · exact hs.advanceOther hhandle hadvance

end

/-!
### The steps of a write
-/

variable {now : Rat} {outcome : Outcome}

theorem writeOutcome_ok {handle : BoardHandle} {rows : List (Entry Payload)}
    (hrequest : board.state.request outcome.requestId = some request)
    (h : board.writeOutcome handle now outcome = .ok rows) :
    (rows = [] ∧ board.Ended request.requestId) ∨ (¬ board.Ended request.requestId ∧
      exists row, rows = [row] ∧ Board.endedBy row = some request.requestId) := by
  rw [(Board.request_eq_some hrequest).left]
  cases outcome with
  | measured result =>
    rcases Board.writeResult_ok h with ⟨_, _, hwithdrawal, hold | hnew⟩
    · left
      refine ⟨hold.left, Or.inl ?_⟩
      intro hnone
      cases hold.right.symm.trans hnone
    · right
      rcases hnew with ⟨hnone, summary, hrows⟩
      refine ⟨?_, _, hrows, rfl⟩
      intro hended
      rcases hended with hresult | hother
      · exact hresult hnone
      · exact hother hwithdrawal
  | withdrawn withdrawal =>
    rcases Board.writeWithdrawal_ok h with ⟨_, _, hresult, hold | hnew⟩
    · left
      refine ⟨hold.left, Or.inr ?_⟩
      intro hnone
      cases hold.right.symm.trans hnone
    · right
      rcases hnew with ⟨hnone, summary, hrows⟩
      refine ⟨?_, _, hrows, rfl⟩
      intro hended
      rcases hended with hother | hwithdrawal
      · exact hother hresult
      · exact hwithdrawal hnone

section

variable (hs : s.Sound token)

include hs

theorem Sound.appended {row : Entry Payload}
    (hwriting : s.writing = .appending request outcome now row) :
    Sound token { s with
      board := s.board ++ [row]
      leases := s.leases.goto toolboxHandle (settleClaim request outcome now)
      writing := .settling request } := by
  have hown := hs.own
  unfold Own at hown
  rw [hwriting] at hown
  rcases hown with ⟨_, hknown, hopen, hends⟩
  have hrow : forall other, row.detail ≠ .request other := by
    intro other hdetail
    rw [Board.endedBy, hdetail] at hends
    cases hends
  have hother : forall other, Board.Known (s.board ++ [row]) other -> s.board.Known other := by
    intro other h
    rcases Board.known_append_cases h with hold | hnew
    · exact hold
    · exact absurd hnew (hrow other)
  constructor
  · apply hs.leases.goto
    unfold settleClaim
    split
    · simp [Knows]
    · trivial
  · exact distinct_append hs.distinct hrow
  · intro requestId h
    rcases Board.ended_append_cases h with hold | hnew
    · rcases hs.known requestId hold with ⟨known, hk, hid⟩
      exact ⟨known, Board.known_append hk, hid⟩
    · rw [hends] at hnew
      exact ⟨request, Board.known_append hknown, Option.some.inj hnew⟩
  · intro handle requestId hhandle
    rw [goto_calls_of_ne s.leases _ hhandle]
    exact hs.others handle requestId hhandle
  · refine ⟨Board.known_append hknown, Board.ended_iff.mpr ⟨row,
      List.mem_append_right _ List.mem_cons_self, hends⟩, ?_, ?_⟩
    · intro hreturned
      exact hopen (hs.returned request hreturned).right
    · exact settling_settleClaim token _ request outcome now
  · intro other hk he hne
    have hold := hother other hk
    rcases Board.ended_append_cases he with he | hnew
    · apply hs.freed other hold he
      rw [hwriting]
      intro heq
      cases heq
    · rw [hends] at hnew
      rw [hs.distinct other request hold hknown (Option.some.inj hnew).symm] at hne
      exact absurd rfl hne
  · intro other hreturned
    rcases hs.returned other hreturned with ⟨hk, he⟩
    exact ⟨Board.known_append hk, Board.ended_append he⟩

theorem Sound.appendRaised {row : Entry Payload}
    {written : Bool} (hwriting : s.writing = .appending request outcome now row)
    (hC : s.Settles token (.appendRaised written)) :
    Sound token { s with
      board := if written then s.board ++ [row] else s.board
      writing := .idle } := by
  have hidle : (s.leases.calls toolboxHandle).idle = true := by
    have hown := hs.own
    unfold Own at hown
    rw [hwriting] at hown
    exact hown.left
  have hspares := spares_of_idle hidle
  cases written with
  | false =>
    refine { hs with own := fun requestId _ => hspares requestId, freed := ?_ }
    intro other hk he _
    apply hs.freed other hk he
    rw [hwriting]
    intro heq
    cases heq
  | true =>
    unfold Settles settles at hC
    rw [hwriting] at hC
    have hnone : claimKey request = none := by
      simpa using hC
    have happended := hs.appended hwriting
    refine ⟨hs.leases, happended.distinct, happended.known, hs.others,
      fun requestId _ => hspares requestId, ?_, happended.returned⟩
    intro other hk he _
    by_cases hsame : other = request
    · intro key file hkey
      rw [hsame, hnone] at hkey
      cases hkey
    · apply happended.freed other hk he
      intro heq
      cases heq
      exact hsame rfl

theorem Sound.over_of_ended (hwriting : s.writing = .settling request)
    (hidle : (s.leases.calls toolboxHandle).idle = true) : Over token s.leases.files request := by
  have hown := hs.own
  unfold Own at hown
  rw [hwriting] at hown
  have hsettling := hown.right.right.right
  cases hcall : s.leases.calls toolboxHandle with
  | ended result =>
    rw [hcall] at hsettling
    exact hsettling
  | _ =>
    rw [hcall] at hidle
    cases hidle

theorem Sound.returns (hwriting : s.writing = .settling request)
    (hidle : (s.leases.calls toolboxHandle).idle = true) :
    Sound token { s with writing := .idle, returned := request :: s.returned } := by
  have hown := hs.own
  unfold Own at hown
  rw [hwriting] at hown
  have hspares := spares_of_idle hidle
  refine { hs with own := fun requestId _ => hspares requestId, freed := ?_, returned := ?_ }
  · intro other hk he _
    by_cases hsame : other = request
    · rw [hsame]
      exact hs.over_of_ended hwriting hidle
    · apply hs.freed other hk he
      rw [hwriting]
      intro heq
      cases heq
      exact hsame rfl
  · intro other hother
    rcases List.mem_cons.mp hother with rfl | hold
    · exact ⟨hown.left, hown.right.left⟩
    · exact hs.returned other hold

theorem Sound.raise (hC : s.Settles token .raise) :
    Sound token { s with
      leases := s.leases.goto toolboxHandle (.ended none)
      writing := .idle } := by
  refine { hs with leases := ?_, others := ?_, own := ?_, freed := ?_ }
  · exact hs.leases.goto (by simp [Knows])
  · intro handle requestId hhandle
    rw [goto_calls_of_ne s.leases _ hhandle]
    exact hs.others handle requestId hhandle
  · unfold Own
    intro requestId _
    trivial
  · intro other hk he _
    by_cases hsettling : s.writing = .settling other
    · unfold Settles settles at hC
      rw [hsettling] at hC
      exact hs.over_of_ended hsettling hC
    · exact hs.freed other hk he hsettling

theorem Sound.step {op : OutcomeOp}
    (hC : s.Settles token op) (hstep : outcomeStep token s op = some t) : t.Sound token := by
  revert hstep
  fun_cases outcomeStep token s op with (intro hstep; try cases hstep)
  | case4 entry hrequest hresult hwithdrawal =>
    refine hs.appendOther hrequest ?_
    fun_cases Board.endedBy entry with
    | case1 result hdetail => cases hresult result hdetail
    | case2 withdrawal hdetail => cases hwithdrawal withdrawal hdetail
    | case3 => rfl
  | case6 handle now request hfree rows hwrite =>
    rcases Board.writeRequest_ok hwrite with hold | ⟨hnone, summary, rfl⟩
    · rw [hold.left, List.append_nil]
      exact hs
    · exact hs.appendRequest (free_iff.mp hfree).left rfl hnone
  | case8 op hpermits =>
    rcases Option.map_eq_some_iff.mp hstep with ⟨leases, hleases, rfl⟩
    exact hs.claims hpermits hC hleases
  | case10 request ttl now hguard =>
    simp only [Bool.and_eq_true, Option.isNone_iff_eq_none] at hguard
    rcases hguard with ⟨⟨⟨hfree, _⟩, hresult⟩, hwithdrawal⟩
    rcases Option.map_eq_some_iff.mp hstep with ⟨key, _, rfl⟩
    apply hs.gotoIdle (free_iff.mp hfree).left (by trivial)
    intro requestId hended hsame
    -- The request that is attached has no outcome.
    have hid : request.requestId = requestId := hsame
    rw [← hid] at hended
    rcases hended with hother | hother
    · exact hother hresult
    · exact hother hwithdrawal
  | case12 handle now outcome hfree request row rows hwrite hrequest =>
    have hidle := free_iff.mp hfree
    rcases writeOutcome_ok hrequest hwrite with hnone | ⟨hopen, only, hrows, hends⟩
    · cases hnone.left
    · cases hrows
      refine { hs with own := ?_, freed := ?_ }
      · exact ⟨hidle.right, (Board.request_eq_some hrequest).right, hopen, hends⟩
      · intro other hk he _
        apply hs.freed other hk he
        rw [hidle.left]
        intro heq
        cases heq
  | case13 handle now outcome hfree request hwrite hrequest =>
    have hended : s.board.Ended request.requestId := by
      rcases writeOutcome_ok hrequest hwrite with hold | ⟨_, _, hrows, _⟩
      · exact hold.right
      · cases hrows
    refine { hs with own := ?_, returned := ?_ }
    · have hown := hs.own
      unfold Own at hown ⊢
      rw [(free_iff.mp hfree).left] at hown ⊢
      exact hown
    · intro other hother
      rcases List.mem_cons.mp hother with rfl | hold
      · exact ⟨(Board.request_eq_some hrequest).right, hended⟩
      · exact hs.returned other hold
  | case14 => exact hs
  | case16 request outcome now row hwriting => exact hs.appended hwriting
  | case18 written request outcome now row hwriting => exact hs.appendRaised hwriting hC
  | case20 request result hcall hwriting => exact hs.returns hwriting (by rw [hcall]; rfl)
  | case22 => exact hs.raise hC

end

theorem Sound.init (token : ClaimKey -> String) : Sound token {} := by
  have hknown : forall request, ¬ Board.Known [] request := by
    intro request h
    rcases h with ⟨entry, hentry, _⟩
    cases hentry
  have hended : forall requestId, ¬ Board.Ended [] requestId := by
    intro requestId h
    rcases Board.ended_iff.mp h with ⟨entry, hentry, _⟩
    cases hentry
  constructor
  · refine ⟨Folder.Chain.empty Follows, ?_⟩
    intro handle
    simp [Knows]
  · intro one other hone
    exact absurd hone (hknown one)
  · intro requestId h
    exact absurd h (hended requestId)
  · intro handle requestId _
    trivial
  · intro requestId h
    exact absurd h (hended requestId)
  · intro request h
    exact absurd h (hknown request)
  · intro request h
    cases h

end OutcomeRun

theorem sound_of_settled {token : ClaimKey -> String} {s : OutcomeRun}
    (hs : (outcomeMachine token).ReachableWhere (OutcomeRun.Settles token) s) : s.Sound token := by
  apply hs.invariant ?_ ?_
  · intro start hinit
    rw [hinit]
    exact OutcomeRun.Sound.init token
  · intro s op t hs hC hstep
    exact hs.step hC hstep

/-- In every run in which no try fails between its row and the end of its
settlement, and no settlement is beaten on its last attempt, the claim of a
request is not held for it once a write of its outcome has returned. -/
theorem claim_ends_with_its_test {token : ClaimKey -> String} {s : OutcomeRun}
    (hs : (outcomeMachine token).ReachableWhere (OutcomeRun.Settles token) s)
    {request : TestRequest} (hreturned : request ∈ s.returned) {key : ClaimKey}
    {file : Generation} (hkey : claimKey request = some key)
    (hforce : inForce s.leases.files (token key) = some file) : ¬ HeldFor request file.claim := by
  have hsound := sound_of_settled hs
  rcases hsound.returned request hreturned with ⟨hknown, hended⟩
  refine hsound.freed request hknown hended ?_ key file hkey hforce
  intro hwriting
  have hown := hsound.own
  unfold OutcomeRun.Own at hown
  rw [hwriting] at hown
  exact hown.right.right.left hreturned

/-!
## A try that fails after its row
-/

namespace ClaimEndExample

def toolbox : BoardHandle := ⟨"toolbox.1", .toolbox, "toolbox", ""⟩

def request : TestRequest :=
  { requestId := "a-1", kind := .test, purpose := .explore, branch := "a",
    parentCommit := "c", actionFingerprint := "x", intentFingerprint := some "i" }

def intent : Intent :=
  { branch := "a", parentCommit := "c", target := "attention",
    mechanism := "fp8", layer := .config, fingerprint := "i" }

def name (key : ClaimKey) : String := key.intentFingerprint

def outcome : Outcome := .measured ⟨"a-1", .succeeded, none, none, ""⟩

def attached : List OutcomeOp :=
  [.claims (.acquire 1 intent "x" 10 0), .claims (.advance 1),
    .claims (.advance 1), .claims (.advance 1),
    .writeRequest toolbox 1 request, .attach request 100 2,
    .claims (.advance 0), .claims (.advance 0), .claims (.advance 0),
    .beginOutcome toolbox 3 outcome, .appended]

end ClaimEndExample

open ClaimEndExample in
/-- The first try appends the result and raises before the claim is settled;
the second finds the row and returns, and the claim stays held for the
request. -/
theorem claim_outlives_its_test :
    ¬ forall s, (outcomeMachine name).Reachable s ->
      forall request key file, request ∈ s.returned -> claimKey request = some key ->
        inForce s.leases.files (name key) = some file -> ¬ HeldFor request file.claim := by
  intro hall
  have hrun : exists s, (outcomeMachine name).Reachable s ∧ request ∈ s.returned ∧
      exists file, file ∈ inForce s.leases.files "i" ∧ HeldFor request file.claim :=
    Machine.Reachable.exists_of_runIf {}
      (attached ++ [.raise, .beginOutcome toolbox 4 outcome]) rfl (by decide +kernel)
  rcases hrun with ⟨s, hs, hreturned, file, hfile, hheld⟩
  exact hall s hs request ⟨"c", "i"⟩ file hreturned rfl hfile hheld

open ClaimEndExample in
/-- The same test with its claim settled by the first try. -/
theorem claim_ends_with_a_result :
    exists s file, (outcomeMachine name).ReachableWhere (OutcomeRun.Settles name) s ∧
      request ∈ s.returned ∧ inForce s.leases.files "i" = some file ∧
      ¬ HeldFor request file.claim := by
  have hrun : exists s, (outcomeMachine name).ReachableWhere (OutcomeRun.Settles name) s ∧
      (request ∈ s.returned ∧
        (inForce s.leases.files "i").isSome = true) :=
    Machine.ReachableWhere.exists_of_runIf {}
      (attached ++ [.claims (.advance 0), .claims (.advance 0),
        .claims (.advance 0), .returns]) rfl (by decide +kernel)
  rcases hrun with ⟨s, hs, hreturned, hforce⟩
  rcases Option.isSome_iff_exists.mp hforce with ⟨file, hfile⟩
  have hkey : claimKey request = some ⟨"c", "i"⟩ := rfl
  exact ⟨s, file, hs, hreturned, hfile, claim_ends_with_its_test hs hreturned hkey hfile⟩

end Blackboard
end Hyperloom
