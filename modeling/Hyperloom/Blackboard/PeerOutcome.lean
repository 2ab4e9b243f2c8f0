import Hyperloom.Library.Machine
import Hyperloom.Blackboard.Board
import Hyperloom.Blackboard.Dedup
import Hyperloom.Blackboard.Feeds

/-!
# Telling a refused branch

Acquires read the state, decide, and append their decision later; requests,
results, withdrawals and judgements are written in between, and a branch polls
with the cursor it was returned.  A refusal that names tests in flight is also
the registration for their ends.
-/

namespace Hyperloom
namespace Blackboard

open Library

/-- A refusal because of other branches' tests or claims. -/
def ClaimDecision.waits (decision : ClaimDecision) : Bool :=
  decide (decision.found = .testingElsewhere) && !decision.acquired

/-- The board, the acquires between their decision and its row, and one
branch's cursor and pages.  `polled` is the board at its last poll. -/
structure PeerRun where
  board : Board := []
  pending : Nat -> Option (BoardHandle × ClaimDecision) := fun _ => none
  cursor : Cursor := fun _ => 0
  pages : List (InboxPage Payload) := []
  polled : Board := []

inductive PeerOp where
  | writeRequest (handle : BoardHandle) (now : Rat) (request : TestRequest)
  | writeResult (handle : BoardHandle) (now : Rat) (result : TestResult)
  | writeWithdrawal (handle : BoardHandle) (now : Rat) (withdrawal : Withdrawal)
  | writeJudgement (handle : BoardHandle) (now : Rat) (write : JudgementWrite) (shown : String)
  | writeOther (handle : BoardHandle) (now : Rat) (kind : EntryKind)
    (payload : Payload) (branch parent summary : String)
  | acquireRead (call : Nat) (handle : BoardHandle) (live : List Claim)
    (intent : Intent) (action reason : String) (lease : LeaseOutcome)
  | acquireAppend (call : Nat) (now : Rat) (tooLow : Option String)
  | poll (brief : Entry Payload -> Payload -> Option InboxItem)

namespace PeerRun

def wrote (s : PeerRun) : Except BoardError (List (Entry Payload)) -> PeerRun
  | .ok rows => { s with board := s.board ++ rows }
  | .error _ => s

def decisionRow (s : PeerRun) (handle : BoardHandle) (now : Rat)
    (decision : ClaimDecision) (tooLow : Option String) : Entry Payload :=
  s.board.row handle now .claim (.claim decision) decision.intent.branch
    decision.intent.parentCommit (decisionSummary decision tooLow)

end PeerRun

section

variable (digests : Digests) (branch : String) (s : PeerRun)

def peerStep : PeerOp -> Option PeerRun
  | .writeRequest handle now request =>
    some (s.wrote (s.board.writeRequest handle now request))
  | .writeResult handle now result =>
    some (s.wrote (s.board.writeResult handle now result))
  | .writeWithdrawal handle now withdrawal =>
    some (s.wrote (s.board.writeWithdrawal handle now withdrawal))
  | .writeJudgement handle now write shown =>
    some (s.wrote (s.board.writeJudgement handle now write shown))
  | .writeOther handle now kind payload branch parent summary =>
    if payload.ofTests then none
    else some { s with
      board := s.board ++ [s.board.row handle now kind payload branch parent summary] }
  | .acquireRead call handle live intent action reason lease =>
    if (s.pending call).isSome ∨ intent.branch ≠ handle.writer.branch then
      none
    else
      let decision := acquireDecision digests s.board.state live intent action reason lease
      some { s with pending := Function.update s.pending call (some (handle, decision)) }
  | .acquireAppend call now tooLow =>
    match s.pending call with
    | none => none
    | some (handle, decision) => some { s with
      board := s.board ++ [s.decisionRow handle now decision tooLow]
      pending := Function.update s.pending call none }
  | .poll brief =>
    match poll brief s.board.state branch s.cursor with
    | none => some s
    | some page => some { s with
      cursor := page.cursor
      pages := s.pages ++ [page]
      polled := s.board }

def peerMachine : Machine PeerRun PeerOp where
  init s := s = {}
  step := peerStep digests branch

/-- No row of the board that waits for a test is later than `now`. -/
def Board.notBefore (board : Board) (requestId : String) (now : Rat) : Bool :=
  board.all fun entry =>
    match entry.detail with
    | .claim decision =>
      !(decision.waits && decide (requestId ∈ decision.matched)) || decide (entry.time ≤ now)
    | _ => true

def Board.unended (board : Board) (requestId : String) : Bool :=
  board.all fun entry => decide (endedTest entry.detail ≠ some requestId)

/-- When a refusal is appended none of its tests has ended, and a test's end is
not dated before a refusal that waits for it. -/
def PeerRun.timely : PeerOp -> Bool
  | .acquireAppend call _ _ =>
    match s.pending call with
    | none => true
    | some (_, decision) =>
      !decision.waits || decision.matched.all s.board.unended
  | .writeResult _ now result =>
    match endedTest (.result result) with
    | none => true
    | some requestId => s.board.notBefore requestId now
  | .writeWithdrawal _ now withdrawal =>
    s.board.notBefore withdrawal.requestId now
  | .writeJudgement _ now write _ => s.board.notBefore write.requestId now
  | _ => true

def PeerRun.Timely (op : PeerOp) : Prop := s.timely op = true

instance (op : PeerOp) : Decidable (s.Timely op) :=
  inferInstanceAs (Decidable (s.timely op = true))

/-- Where the branch polled after a refusal and after the end of a test it
waits for, one of its pages has the test's peer outcome. -/
def PeerRun.Told : Prop :=
  forall refused decision requestId last, refused ∈ s.polled ->
    refused.detail = .claim decision -> decision.waits = true ->
    decision.intent.branch = branch -> requestId ∈ decision.matched ->
    last ∈ s.polled -> endedTest last.detail = some requestId ->
    exists page item, page ∈ s.pages ∧ item ∈ page.items ∧
      item.kind = .peerOutcome ∧ item.pointer = requestId

end

variable {requestId : String}

theorem Board.notBefore_iff {board : Board} {now : Rat} :
    board.notBefore requestId now = true <-> forall entry decision, entry ∈ board ->
        entry.detail = .claim decision -> decision.waits = true ->
        requestId ∈ decision.matched -> entry.time ≤ now := by
  unfold Board.notBefore
  rw [List.all_eq_true]
  constructor
  · intro h entry decision hentry hdetail hwaits hmatched
    have hrow := h entry hentry
    rw [hdetail] at hrow
    simpa [hwaits, hmatched] using hrow
  · intro h entry hentry
    split
    · rename_i decision hdetail
      by_cases hwaits : decision.waits = true
      · by_cases hmatched : requestId ∈ decision.matched
        · simpa [hwaits, hmatched] using h entry decision hentry hdetail hwaits hmatched
        · simp [hmatched]
      · simp [hwaits]
    · rfl

theorem Board.unended_iff {board : Board} :
    board.unended requestId = true <->
      forall entry, entry ∈ board -> endedTest entry.detail ≠ some requestId := by
  unfold Board.unended
  simp only [List.all_eq_true, decide_eq_true_eq]

/-!
## The invariant
-/

def Board.Names (board : Board) (decision : ClaimDecision) : Prop :=
  decision.found = .testingElsewhere -> forall requestId,
    requestId ∈ decision.matched -> exists request, board.Known request ∧
      request.requestId = requestId ∧ request.branch ≠ decision.intent.branch

namespace PeerRun

structure Sound (branch : String) (s : PeerRun) : Prop where
  numbered : forall entry, entry ∈ s.board -> entry.seq ≤ s.board.written entry.writer
  cursor : forall writer, s.cursor writer ≤ s.board.written writer
  unseen : forall entry, entry ∈ s.board -> (s.cursor entry.writer < entry.seq <-> entry ∉ s.polled)
  polled : s.polled ⊆ s.board
  distinct : s.board.Distinct
  ended : forall entry requestId, entry ∈ s.board -> endedTest entry.detail = some requestId ->
    exists request, s.board.Known request ∧ request.requestId = requestId ∧
      entry.branch = request.branch
  pending : forall call handle decision,
    s.pending call = some (handle, decision) -> s.board.Names decision
  refused : forall entry decision, entry ∈ s.board ->
    entry.detail = .claim decision -> s.board.Names decision
  ordered : forall refused decision requestId last, refused ∈ s.board ->
    refused.detail = .claim decision -> decision.waits = true ->
    requestId ∈ decision.matched -> last ∈ s.board -> endedTest last.detail = some requestId ->
    refused.time ≤ last.time ∧ (last ∈ s.polled -> refused ∈ s.polled)
  told : s.Told branch

variable {digests : Digests} {branch : String} {s t : PeerRun}

theorem sound_init : ({} : PeerRun).Sound branch := by
  refine ⟨?_, ?_, ?_, List.nil_subset _, ?_, ?_, ?_, ?_, ?_, ?_⟩
  · intro entry hentry
    cases hentry
  · intro writer
    exact Nat.le_refl 0
  · intro entry hentry
    cases hentry
  · intro one other hone
    rcases hone with ⟨entry, hentry, _⟩
    cases hentry
  · intro entry requestId hentry
    cases hentry
  · intro call handle decision hnone
    cases hnone
  · intro entry decision hentry
    cases hentry
  · intro refused decision requestId last hrefused
    cases hrefused
  · intro refused decision requestId last hrefused
    cases hrefused

/-!
## Appending a row
-/

variable {entry : Entry Payload} {board : Board}

theorem names_append {decision : ClaimDecision} (h : board.Names decision) :
    Board.Names (board ++ [entry]) decision := by
  intro hfound requestId hmatched
  rcases h hfound requestId hmatched with ⟨request, hknown, hrest⟩
  exact ⟨request, Board.known_append hknown, hrest⟩

/-- What a row must keep to: the next number of its writer, a new request id,
the end of a known test not dated before a refusal that waits for it, and a
refusal only of tests that have not ended. -/
structure Fits (board : Board) (entry : Entry Payload) : Prop where
  seq : entry.seq = board.written entry.writer + 1
  request : forall request, entry.detail = .request request ->
    forall other, board.Known other -> other.requestId ≠ request.requestId
  ended : forall requestId, endedTest entry.detail = some requestId ->
    (exists request, board.Known request ∧ request.requestId = requestId ∧
      entry.branch = request.branch) ∧ board.notBefore requestId entry.time = true
  claim : forall decision, entry.detail = .claim decision ->
    board.Names decision ∧ (decision.waits = true ->
      forall requestId, requestId ∈ decision.matched -> board.unended requestId = true)

theorem Sound.append (hs : s.Sound branch) (hfits : Fits s.board entry)
    (hboard : t.board = s.board ++ [entry]) (hcursor : t.cursor = s.cursor)
    (hpages : t.pages = s.pages) (hpolled : t.polled = s.polled)
    (hpending : forall call handle decision, t.pending call = some (handle, decision) ->
      s.pending call = some (handle, decision)) : t.Sound branch := by
  have hfresh : entry ∉ s.board := by
    intro hin
    have hle := hs.numbered entry hin
    have hseq := hfits.seq
    lia
  have hgrows : forall writer, s.board.written writer ≤ t.board.written writer := by
    intro writer
    rw [hboard, Board.written_append]
    exact Nat.le_add_right _ _
  refine ⟨?_, ?_, ?_, ?_, ?_, ?_, ?_, ?_, ?_, ?_⟩
  · intro row hrow
    rw [hboard] at hrow ⊢
    exact Board.seq_le_written_append hs.numbered hfits.seq hrow
  · intro writer
    rw [hcursor]
    exact Nat.le_trans (hs.cursor writer) (hgrows writer)
  · intro row hrow
    rw [hboard] at hrow
    rw [hcursor, hpolled]
    rcases mem_concat.mp hrow with hold | hnew
    · exact hs.unseen row hold
    · rw [hnew, hfits.seq]
      constructor
      · intro _ hin
        exact hfresh (hs.polled hin)
      · intro _
        exact Nat.lt_succ_of_le (hs.cursor entry.writer)
  · rw [hpolled, hboard]
    exact fun row hrow => List.mem_append_left _ (hs.polled hrow)
  · intro one other hone hother hid
    rw [hboard] at hone hother
    rcases Board.known_append_cases hone with hone | hone
    · rcases Board.known_append_cases hother with hother | hother
      · exact hs.distinct one other hone hother hid
      · exact absurd hid (hfits.request other hother one hone)
    · rcases Board.known_append_cases hother with hother | hother
      · exact absurd hid.symm (hfits.request one hone other hother)
      rw [hone] at hother
      cases hother
      rfl
  · intro row requestId hrow hended
    rw [hboard] at hrow ⊢
    rcases mem_concat.mp hrow with hold | rfl
    · rcases hs.ended row requestId hold hended with ⟨request, hknown, hrest⟩
      exact ⟨request, Board.known_append hknown, hrest⟩
    · rcases (hfits.ended requestId hended).left with ⟨request, hknown, hrest⟩
      exact ⟨request, Board.known_append hknown, hrest⟩
  · intro call handle decision hsome
    rw [hboard]
    exact names_append (hs.pending call handle decision (hpending call handle decision hsome))
  · intro row decision hrow hdetail
    rw [hboard] at hrow ⊢
    rcases mem_concat.mp hrow with hold | rfl
    · exact names_append (hs.refused row decision hold hdetail)
    · exact names_append (hfits.claim decision hdetail).left
  · intro refused decision requestId last hrefused hdetail hwaits hmatched hlast hended
    rw [hboard] at hrefused hlast
    rw [hpolled]
    rcases mem_concat.mp hrefused with hrefused | rfl
    · rcases mem_concat.mp hlast with hlast | hlast
      · exact hs.ordered refused decision requestId last hrefused hdetail
          hwaits hmatched hlast hended
      · rw [hlast] at hended ⊢
        refine ⟨Board.notBefore_iff.mp (hfits.ended requestId hended).right
          refused decision hrefused hdetail hwaits hmatched, ?_⟩
        intro hin
        exact absurd (hs.polled hin) hfresh
    · rcases mem_concat.mp hlast with hlast | rfl
      · exact absurd hended (Board.unended_iff.mp
          ((hfits.claim decision hdetail).right hwaits requestId hmatched) last hlast)
      · rw [hdetail] at hended
        cases hended
  · unfold Told
    rw [hpolled, hpages]
    exact hs.told

/-!
## A poll
-/

theorem mem_entries : entry ∈ board.state.entries <-> entry ∈ board :=
  (List.perm_insertionSort Entry.SortedBefore board).mem_iff

theorem mem_refusals {decision : ClaimDecision} (hentry : entry ∈ board)
    (hdetail : entry.detail = .claim decision) (hwaits : decision.waits = true)
    (hbranch : decision.intent.branch = branch) :
    (entry.time, decision) ∈ refusals board.state branch := by
  apply List.mem_filterMap.mpr
  refine ⟨(entry, .claim decision), ?_, ?_⟩
  · apply List.mem_filterMap.mpr
    refine ⟨entry, mem_entries.mpr hentry, ?_⟩
    dsimp only
    rw [hdetail]
    rfl
  · have hparts := (Bool.and_eq_true _ _).mp hwaits
    dsimp only
    rw [hparts.left, hparts.right, decide_eq_true hbranch]
    rfl

theorem Sound.exists_page (hs : s.Sound branch)
    (brief : Entry Payload -> Payload -> Option InboxItem) :
    exists page, Blackboard.poll brief s.board.state branch s.cursor = some page := by
  apply poll_of_known
  right
  intro entry payload requestId hdecoded hended
  rcases List.mem_filterMap.mp hdecoded with ⟨row, hrow, hpair⟩
  cases hpair
  rcases hs.ended _ requestId (mem_entries.mp hrow) hended with ⟨request, hknown, rfl, _⟩
  rw [Board.request_of_known hs.distinct hknown]
  rfl

theorem Sound.poll {brief : Entry Payload -> Payload -> Option InboxItem}
    {page : InboxPage Payload} (hs : s.Sound branch)
    (hpage : Blackboard.poll brief s.board.state branch s.cursor = some page) :
    Sound branch { s with
      cursor := page.cursor
      pages := s.pages ++ [page]
      polled := s.board } := by
  have hcursor : page.cursor = advanceCursor s.cursor s.board.state.entries :=
    (poll_offered hpage).right.right
  refine ⟨hs.numbered, ?_, ?_, List.Subset.refl _, hs.distinct, hs.ended,
    hs.pending, hs.refused, ?_, ?_⟩
  · intro writer
    dsimp only
    rw [hcursor]
    rcases advanceCursor_cases s.cursor s.board.state.entries writer with
      hsame | ⟨entry, hentry, rfl, hseq⟩
    · rw [hsame]
      exact hs.cursor writer
    · rw [hseq]
      exact hs.numbered entry (mem_entries.mp hentry)
  · intro entry hentry
    have hle := seq_le_advanceCursor s.cursor (mem_entries.mpr hentry)
    rw [hcursor]
    constructor
    · intro hlt
      lia
    · intro hnot
      exact absurd hentry hnot
  · intro refused decision requestId last hrefused hdetail hwaits hmatched hlast hended
    exact ⟨(hs.ordered refused decision requestId last hrefused hdetail hwaits
      hmatched hlast hended).left, fun _ => hrefused⟩
  · intro refused decision requestId last hrefused hdetail hwaits hbranch hmatched hlast hended
    have hordered := hs.ordered refused decision requestId last hrefused
      hdetail hwaits hmatched hlast hended
    by_cases hseen : last ∈ s.polled
    · -- An end polled before came after its refusal, which was polled too.
      rcases hs.told refused decision requestId last (hordered.right hseen)
        hdetail hwaits hbranch hmatched hseen hended with ⟨old, item, hold, hrest⟩
      exact ⟨old, item, List.mem_append_left _ hold, hrest⟩
    · rcases hs.ended last requestId hlast hended with ⟨request, hknown, hid, hof⟩
      have hfound : decision.found = .testingElsewhere :=
        of_decide_eq_true ((Bool.and_eq_true _ _).mp hwaits).left
      rcases hs.refused refused decision hrefused hdetail hfound requestId
        hmatched with ⟨named, hnamed, hnamedId, hother⟩
      have hsame : named = request :=
        hs.distinct named request hnamed hknown (hnamedId.trans hid.symm)
      have hbeyond := (hs.unseen last hlast).mpr hseen
      have hrequest := Board.request_of_known hs.distinct hknown
      rw [hid] at hrequest
      have hfolds : s.board.state = foldEntries
          (fun entry => some entry.detail) s.board.state.entries := rfl
      rcases page_peerItem hfolds hpage (mem_entries.mpr hlast) rfl hbeyond hended
        (by rw [hof, ← hsame, ← hbranch]; exact hother) hrequest
        (mem_refusals hrefused hdetail hwaits hbranch) hordered.left hmatched
        with ⟨item, hitem, hrest⟩
      exact ⟨page, item, List.mem_append_right _ List.mem_cons_self, hitem, hrest⟩

/-!
## Runs
-/

theorem Sound.wrote {result : Except BoardError (List (Entry Payload))} (hs : s.Sound branch)
    (hrows : forall rows, result = .ok rows ->
      rows = [] ∨ exists entry, rows = [entry] ∧ Fits s.board entry) :
    (s.wrote result).Sound branch := by
  cases result with
  | error e => exact hs
  | ok rows =>
    rcases hrows rows rfl with hnone | ⟨entry, rfl, hfits⟩
    · have hsame : s.wrote (.ok rows) = s := by
        rw [PeerRun.wrote, hnone, List.append_nil]
      rw [hsame]
      exact hs
    · refine hs.append hfits ?_ rfl rfl rfl (fun _ _ _ h => h)
      rw [PeerRun.wrote]

theorem fits_end {handle : BoardHandle} {now : Rat} {kind : EntryKind}
    {payload : Payload} {request : TestRequest} {summary : String}
    (hrequest : s.board.state.request requestId = some request)
    (hended : forall id, endedTest payload = some id ->
      id = requestId ∧ s.board.notBefore id now = true)
    (hnew : forall other, payload ≠ .request other := by intro _ h; cases h)
    (hclaim : forall decision, payload ≠ .claim decision := by intro _ h; cases h) :
    Fits s.board (s.board.row handle now kind payload request.branch
      request.parentCommit summary) := by
  have hknown := Board.request_eq_some hrequest
  refine ⟨rfl, ?_, ?_, ?_⟩
  · intro other hdetail
    exact absurd hdetail (hnew other)
  · intro id hend
    have hparts := hended id hend
    exact ⟨⟨request, hknown.right, hknown.left.trans hparts.left.symm, rfl⟩, hparts.right⟩
  · intro decision hdetail
    exact absurd hdetail (hclaim decision)

theorem Sound.step {op : PeerOp} (hs : s.Sound branch) (htimely : s.Timely op)
    (h : peerStep digests branch s op = some t) : t.Sound branch := by
  cases op with
  | writeRequest handle now request =>
    cases h
    apply hs.wrote
    intro rows hrows
    rcases Board.writeRequest_ok hrows with ⟨hnone, _⟩ | ⟨hnew, summary, hone⟩
    · exact Or.inl hnone
    · refine Or.inr ⟨_, hone, rfl, ?_, ?_, ?_⟩
      · intro other hdetail known hknown
        cases hdetail
        rcases hknown with ⟨entry, hentry, hrow⟩
        exact Board.request_eq_none.mp hnew entry known hentry hrow
      · nofun
      · intro decision hdetail
        cases hdetail
  | writeResult handle now result =>
    cases h
    apply hs.wrote
    intro rows hrows
    rcases Board.writeResult_ok hrows with ⟨request, hrequest, _, ⟨hnone, _⟩ | ⟨_, summary, hone⟩⟩
    · exact Or.inl hnone
    · refine Or.inr ⟨_, hone, fits_end hrequest ?_⟩
      intro id hend
      simp only [Timely, timely, hend] at htimely
      refine ⟨?_, htimely⟩
      unfold endedTest at hend
      rcases some_of_when hend with ⟨_, rfl⟩
      rfl
  | writeWithdrawal handle now withdrawal =>
    cases h
    apply hs.wrote
    intro rows hrows
    rcases Board.writeWithdrawal_ok hrows with
      ⟨request, hrequest, _, ⟨hnone, _⟩ | ⟨_, summary, hone⟩⟩
    · exact Or.inl hnone
    · refine Or.inr ⟨_, hone, fits_end hrequest ?_⟩
      intro id hend
      cases hend
      exact ⟨rfl, htimely⟩
  | writeJudgement handle now write shown =>
    cases h
    apply hs.wrote
    intro rows hrows
    rcases Board.writeJudgement_ok hrows with ⟨request, _, summary, hrequest, _, _, hone⟩
    refine Or.inr ⟨_, hone, fits_end hrequest ?_⟩
    intro id hend
    cases hend
    exact ⟨rfl, htimely⟩
  | writeOther handle now kind payload branch parent summary =>
    rcases some_of_guard h with ⟨hother, rfl⟩
    refine hs.append ⟨rfl, ?_, ?_, ?_⟩ rfl rfl rfl rfl (fun _ _ _ h => h)
    · intro request hdetail
      have hsame : payload = .request request := hdetail
      rw [hsame] at hother
      exact absurd rfl hother
    · intro requestId hend
      cases payload with
      | result found | withdrawal found | judgement found => exact absurd rfl hother
      | _ => cases hend
    · intro decision hdetail
      have hsame : payload = .claim decision := hdetail
      rw [hsame] at hother
      exact absurd rfl hother
  | acquireRead call handle live intent action reason lease =>
    rcases some_of_guard h with ⟨_, rfl⟩
    refine { hs with pending := ?_ }
    intro other holder decision hsome
    dsimp only at hsome
    by_cases hother : other = call
    · rw [hother, Function.update_self] at hsome
      cases hsome
      intro hfound requestId hmatched
      rcases acquireDecision_matched hfound hmatched with ⟨record, hrecord, hid, _, hbranch⟩
      rcases List.mem_filterMap.mp hrecord with ⟨key, _, hlookup⟩
      rcases Option.map_eq_some_iff.mp hlookup with ⟨request, hrequest, rfl⟩
      have hknown := Board.request_eq_some hrequest
      exact ⟨request, hknown.right, hid, hbranch⟩
    · rw [Function.update_of_ne hother] at hsome
      exact hs.pending other holder decision hsome
  | acquireAppend call now tooLow =>
    simp only [peerStep] at h
    split at h
    · cases h
    rename_i handle decision hpending
    cases h
    refine hs.append ⟨rfl, ?_, ?_, ?_⟩ rfl rfl rfl rfl ?_
    · intro other hdetail
      cases hdetail
    · nofun
    · intro other hdetail
      cases hdetail
      refine ⟨hs.pending call handle decision hpending, ?_⟩
      intro hwaits requestId hmatched
      simp only [Timely, timely, hpending, hwaits, Bool.not_true,
        Bool.false_or, List.all_eq_true] at htimely
      exact htimely requestId hmatched
    · intro other holder waiting hsome
      dsimp only at hsome
      by_cases hother : other = call
      · rw [hother, Function.update_self] at hsome
        cases hsome
      · rw [Function.update_of_ne hother] at hsome
        exact hsome
  | poll brief =>
    rcases hs.exists_page brief with ⟨page, hpage⟩
    simp only [peerStep, hpage] at h
    cases h
    exact hs.poll hpage

end PeerRun

/-- Every run whose refusals are appended before their tests end, and whose
ends are not dated before them, tells a refused branch how the tests ended. -/
theorem refused_branch_told {digests : Digests} {branch : String} {s : PeerRun}
    (hs : (peerMachine digests branch).ReachableWhere PeerRun.Timely s) : s.Told branch := by
  have hsound : s.Sound branch := by
    apply hs.invariant ?_ ?_
    · intro start hinit
      rw [hinit]
      exact PeerRun.sound_init
    · intro s op t hs htimely hstep
      exact hs.step htimely hstep
  exact hsound.told

/-!
## A test that ends before the refusal is written
-/

namespace PeerExample

def digests : Digests :=
  ⟨"empty", fun target mechanism _ => target ++ mechanism⟩

def toolbox : BoardHandle := ⟨"toolbox.1", .toolbox, "toolbox", ""⟩

def runtime : BoardHandle := ⟨"runtime.b", .specialistRuntime, "b", "b"⟩

def request : TestRequest :=
  { requestId := "a-1", kind := .test, purpose := .explore, branch := "a",
    parentCommit := "c", actionFingerprint := "x", intentFingerprint := some "i" }

def intent : Intent :=
  { branch := "b", parentCommit := "d", target := "attention",
    mechanism := "fp8", layer := .config, fingerprint := "i" }

def decision : ClaimDecision :=
  { intent := intent, actionFingerprint := "y", found := .testingElsewhere,
    acquired := false, matched := ["a-1"], holders := ["a"] }

def stopped : Withdrawal := ⟨"a-1", "stopped"⟩

def acquire : PeerOp :=
  .acquireRead 0 runtime [] intent "y" "" (.got (wantedClaim intent "y" 10 0))

end PeerExample

open PeerExample in
/-- The test is withdrawn between the read and the refusal's row: the branch
polls and has no peer outcome. -/
theorem refused_branch_not_told :
    ¬ forall s, (peerMachine digests "b").Reachable s -> s.Told "b" := by
  intro hall
  have hrun : exists s, (peerMachine digests "b").Reachable s ∧
      (exists refused, refused ∈ s.polled ∧ refused.detail = .claim decision) ∧
      (exists last, last ∈ s.polled ∧ last.detail = .withdrawal stopped) ∧
      forall page, page ∈ s.pages -> forall item, item ∈ page.items -> item.kind ≠ .peerOutcome :=
    Machine.Reachable.exists_of_runIf {} [.writeRequest toolbox 0 request, acquire,
        .writeWithdrawal toolbox 1 stopped, .acquireAppend 0 2 none,
        .poll fun _ _ => none] rfl (by decide +kernel)
  rcases hrun with ⟨s, hs, ⟨refused, hrefused, hdetail⟩, ⟨last, hlast, hend⟩, hnone⟩
  rcases hall s hs refused decision "a-1" last hrefused hdetail (by decide)
    rfl (by decide) hlast (by rw [hend]; rfl) with
    ⟨page, item, hpage, hitem, hkind, _⟩
  exact hnone page hpage item hitem hkind

open PeerExample in
/-- The refusal is written first, and the poll has the peer outcome. -/
theorem refused_branch_told_withdrawn :
    exists s page item, (peerMachine digests "b").ReachableWhere
        PeerRun.Timely s ∧ page ∈ s.pages ∧ item ∈ page.items ∧
      item.kind = .peerOutcome ∧ item.pointer = "a-1" := by
  have hrun : exists s, (peerMachine digests "b").ReachableWhere
      PeerRun.Timely s ∧
      (exists refused, refused ∈ s.polled ∧ refused.detail = .claim decision) ∧
      exists last, last ∈ s.polled ∧ last.detail = .withdrawal stopped :=
    Machine.ReachableWhere.exists_of_runIf {}
      [.writeRequest toolbox 0 request, acquire, .acquireAppend 0 1 none,
        .writeWithdrawal toolbox 2 stopped, .poll fun _ _ => none] rfl
      (by decide +kernel)
  rcases hrun with ⟨s, hs, ⟨refused, hrefused, hdetail⟩, ⟨last, hlast, hend⟩⟩
  rcases refused_branch_told hs refused decision "a-1" last hrefused hdetail
    (by decide) rfl (by decide) hlast (by rw [hend]; rfl) with
    ⟨page, item, hrest⟩
  exact ⟨s, page, item, hs, hrest⟩

end Blackboard
end Hyperloom
