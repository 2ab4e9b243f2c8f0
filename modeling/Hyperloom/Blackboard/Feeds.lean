import Hyperloom.Blackboard.Records

/-!
# The inbox

What a branch pulls from the blackboard.  A cursor is the last sequence number
seen of every writer, so a poll goes over each entry once however the writers'
clocks interleave.  A branch whose claim was refused because another branch
was testing gets a `peer_outcome` item when that test ends; the refused claim
decision is the registration.  The `brief` items of a handle that wants them
are a parameter.
-/

namespace Hyperloom
namespace Blackboard

inductive InboxKind where
  | result
  | judgement
  | toolResult
  | lineage
  | brief
  | peerOutcome
  | build
deriving DecidableEq

/-- A pointer pushed to a branch; `time` is its `at`. -/
structure InboxItem where
  kind : InboxKind
  branch : String
  pointer : String
  summary : String
  time : Rat
deriving DecidableEq

/-- The last sequence number seen of every writer. -/
abbrev Cursor := String -> Nat

/-!
## Items
-/

/-- `_INBOX_KINDS`. -/
def inboxKind : EntryKind -> Option InboxKind
  | .result => some .result
  | .judgement => some .judgement
  | .toolResult => some .toolResult
  | .lineage => some .lineage
  | .build => some .build
  | _ => none

/-- The payload's `request_id` or `job_id`, empty when it has neither. -/
def Payload.pointer : Payload -> String
  | .request accepted => accepted.requestId
  | .result measured => measured.requestId
  | .withdrawal write => write.requestId
  | .judgement write => write.requestId
  | .toolResult jobId => jobId
  | .build requestId => requestId
  | _ => ""

def Payload.splitsOff (branch : String) : Payload -> Bool
  | .lineage fromBranch => fromBranch = branch
  | _ => false

section

variable {δ : Type}

def inboxItem (entry : Entry δ) (payload : Payload) (branch : String) : Option InboxItem :=
  match inboxKind entry.kind with
  | none => none
  | some kind =>
    if entry.branch ≠ branch && !payload.splitsOff branch then none
    else some {
      kind := kind
      branch := branch
      pointer :=
        if payload.pointer = "" then entry.entryId else payload.pointer
      summary := entry.summary
      time := entry.time }

variable (state : BlackboardState δ)

/-- `_refusals`: the claims of the branch refused while another branch was
testing, with when each was refused. -/
def refusals (branch : String) : List (Rat × ClaimDecision) :=
  state.decoded.filterMap fun (entry, payload) =>
    match payload with
    | .claim decision =>
      if decision.found = .testingElsewhere && !decision.acquired &&
          decision.intent.branch = branch then
        some (entry.time, decision)
      else none
    | _ => none

/-- `_ended`: the test an entry ends: judged, withdrawn, or not measured. -/
def endedTest : Payload -> Option String
  | .judgement write => some write.requestId
  | .withdrawal withdrawal => some withdrawal.requestId
  | .result result =>
    if result.validity = .measurementFailed then some result.requestId
    else none
  | _ => none

def ClaimDecision.waitsFor (decision : ClaimDecision) (entry : Entry δ)
    (ended : TestRequest) (requestId : String) : Bool :=
  decide (requestId ∈ decision.matched) ||
  (decide (some decision.intent.fingerprint = ended.intentFingerprint) &&
    decide (entry.branch ∈ decision.holders))

def peerSummary (entry : Entry δ) (ended : TestRequest)
    (refused : ClaimDecision) (requestId : String) : String :=
  if ended.parentCommit = refused.intent.parentCommit then
    entry.branch ++ "'s test of the same change on " ++ ended.parentCommit ++
      ", which refused your claim, ended: " ++ entry.summary ++
      "; it measured the state you claimed on, so there is nothing to replay"
  else
    entry.branch ++ "'s test of " ++ refused.intent.target ++ " / " ++
      refused.intent.mechanism ++ ", which refused your claim, ended: " ++
      entry.summary ++ "; on a gain, blackboard_replay with request_id " ++
      requestId ++ " replays its change on your head, or record why not"

/-- `_peer_item`; `none` where `record` raises for an unknown request. -/
def peerItem (branch : String) (waiting : List (Rat × ClaimDecision)) (entry : Entry δ)
    (payload : Payload) : Option (Option InboxItem) :=
  match endedTest payload with
  | none => some none
  | some requestId =>
    if entry.branch = branch then some none
    else
      match state.request requestId with
      | none => none
      | some ended =>
        match waiting.find? fun (time, decision) =>
          decide (time ≤ entry.time) && decision.waitsFor entry ended requestId with
        | none => some none
        | some (_, refused) => some (some {
          kind := .peerOutcome
          branch := branch
          pointer := requestId
          summary := peerSummary entry ended refused requestId
          time := entry.time })

section

variable (brief : Entry δ -> Payload -> Option InboxItem) (state : BlackboardState δ)

/-- The items a poll makes of one entry; `none` where it raises. -/
def entryItems (branch : String) (entry : Entry δ) (payload : Payload) : Option (List InboxItem) :=
  let waiting := refusals state branch
  let peer :=
    if waiting.isEmpty then some none
    else peerItem state branch waiting entry payload
  peer.map fun peer => [inboxItem entry payload branch, brief entry payload, peer].filterMap id

/-!
## Polling
-/

def unseen (seen : Cursor) : List (Entry δ × Payload) :=
  state.decoded.filter fun (entry, _) => decide (seen entry.writer < entry.seq)

def advanceCursor (seen : Cursor) (entries : List (Entry δ)) : Cursor :=
  fun writer => entries.foldl (fun last entry =>
      if entry.writer = writer then max last entry.seq else last) (seen writer)

/-- What a poll returns, with the entry each item was made of. -/
structure InboxPage (δ : Type) where
  offered : List (Entry δ × List InboxItem)
  cursor : Cursor

def InboxPage.items (page : InboxPage δ) : List InboxItem := page.offered.flatMap Prod.snd

/-- `poll`; `none` where it raises. -/
def poll (branch : String) (seen : Cursor) : Option (InboxPage δ) :=
  ((unseen state seen).mapM fun (entry, payload) =>
    (entryItems brief state branch entry payload).map fun items =>
      (entry, items)).map fun offered =>
    { offered := offered, cursor := advanceCursor seen state.entries }

end

theorem map_fst_of_mapM {α β γ : Type} {f : α × β -> Option γ}
    {pairs : List (α × β)} {made : List (α × γ)}
    (h : pairs.mapM (fun (a, b) => (f (a, b)).map fun c => (a, c)) = some made) :
    made.map Prod.fst = pairs.map Prod.fst ∧
      forall a c, (a, c) ∈ made -> exists b, (a, b) ∈ pairs ∧ f (a, b) = some c := by
  induction pairs generalizing made with
  | nil =>
    cases h
    refine ⟨rfl, ?_⟩
    intro a c hin
    cases hin
  | cons pair rest ih =>
    rw [List.mapM_cons] at h
    rcases Option.bind_eq_some_iff.mp h with ⟨first, hfirst, hmore⟩
    rcases Option.bind_eq_some_iff.mp hmore with ⟨others, hothers, hsame⟩
    rcases Option.map_eq_some_iff.mp hfirst with ⟨c, hc, hpair⟩
    cases hsame
    refine ⟨?_, ?_⟩
    · rw [List.map_cons, List.map_cons, (ih hothers).left, ← hpair]
    · intro a d hin
      rcases List.mem_cons.mp hin with heq | hrest
      · rw [← hpair] at heq
        cases heq
        exact ⟨pair.2, List.mem_cons_self, hc⟩
      · rcases (ih hothers).right a d hrest with ⟨b, hb, hmade⟩
        exact ⟨b, List.mem_cons_of_mem _ hb, hmade⟩

variable {state : BlackboardState δ} {branch : String}
  {brief : Entry δ -> Payload -> Option InboxItem} {seen : Cursor} {page : InboxPage δ}

theorem poll_offered (h : poll brief state branch seen = some page) :
    page.offered.map Prod.fst = (unseen state seen).map Prod.fst ∧
      (forall entry items, (entry, items) ∈ page.offered ->
        exists payload, (entry, payload) ∈ unseen state seen ∧
          entryItems brief state branch entry payload = some items) ∧
      page.cursor = advanceCursor seen state.entries := by
  rcases Option.map_eq_some_iff.mp h with ⟨offered, hoffered, rfl⟩
  have hmade := map_fst_of_mapM (f := fun (entry, payload) =>
    entryItems brief state branch entry payload) hoffered
  exact ⟨hmade.left, hmade.right, rfl⟩

theorem unseen_map_fst (decode : Entry δ -> Option Payload)
    (entries : List (Entry δ)) (seen : Cursor) :
    (unseen (foldEntries decode entries) seen).map Prod.fst = entries.filter fun entry =>
        (decode entry).isSome && decide (seen entry.writer < entry.seq) := by
  unfold unseen foldEntries
  induction entries with
  | nil => rfl
  | cons entry rest ih =>
    cases hdecode : decode entry with
    | none =>
      simpa [hdecode] using ih
    | some payload =>
      by_cases hseen : seen entry.writer < entry.seq
      · simpa [hdecode, hseen] using ih
      · simpa [hdecode, hseen] using ih

variable {decode : Entry δ -> Option Payload}

/-- The entries of a page are those of the state beyond the cursor that this
build decodes. -/
theorem poll_of_known (brief : Entry δ -> Payload -> Option InboxItem)
    (seen : Cursor) (h : refusals state branch = [] ∨
      forall entry payload requestId, (entry, payload) ∈ state.decoded ->
        endedTest payload = some requestId -> (state.request requestId).isSome) :
    exists page, poll brief state branch seen = some page := by
  have hitems : forall pair, pair ∈ unseen state seen -> exists items,
      (entryItems brief state branch pair.1 pair.2).map (fun items =>
        (pair.1, items)) = some (pair.1, items) := by
    intro pair hpair
    have hpeer : exists peer, (if (refusals state branch).isEmpty then some none
        else peerItem state branch (refusals state branch) pair.1 pair.2) = some peer := by
      split
      · exact ⟨none, rfl⟩
      · rename_i hwaiting
        rcases h with hnone | hknown
        · rw [hnone] at hwaiting
          exact absurd rfl hwaiting
        · unfold peerItem
          split
          · exact ⟨none, rfl⟩
          · rename_i requestId hended
            have hrequest := hknown pair.1 pair.2 requestId (List.mem_filter.mp hpair).left hended
            rcases Option.isSome_iff_exists.mp hrequest with ⟨request, hsome⟩
            rw [hsome]
            dsimp only
            split
            · exact ⟨none, rfl⟩
            · split
              · exact ⟨none, rfl⟩
              · exact ⟨_, rfl⟩
    rcases hpeer with ⟨peer, hpeer⟩
    unfold entryItems
    dsimp only
    rw [hpeer]
    exact ⟨_, rfl⟩
  have hall : exists made, (unseen state seen).mapM (fun (entry, payload) =>
      (entryItems brief state branch entry payload).map fun items =>
        (entry, items)) = some made := by
    generalize unseen state seen = pairs at hitems ⊢
    induction pairs with
    | nil => exact ⟨[], rfl⟩
    | cons pair rest ih =>
      rcases hitems pair List.mem_cons_self with ⟨items, hfirst⟩
      rcases ih fun other hother => hitems other (List.mem_cons_of_mem _ hother) with ⟨made, hrest⟩
      refine ⟨(pair.1, items) :: made, ?_⟩
      rw [List.mapM_cons, hrest]
      dsimp only
      rw [hfirst]
      rfl
  rcases hall with ⟨made, hmade⟩
  exact ⟨_, by unfold poll; rw [hmade]; rfl⟩

section

variable (hfolds : state = foldEntries decode state.entries)
  (hpoll : poll brief state branch seen = some page)

include hfolds hpoll

theorem page_entries :
    page.offered.map Prod.fst = state.entries.filter fun entry =>
      (decode entry).isSome && decide (seen entry.writer < entry.seq) := by
  rw [(poll_offered hpoll).left]
  nth_rewrite 1 [hfolds]
  exact unseen_map_fst decode state.entries seen

variable {entry : Entry δ}

theorem page_items {items : List InboxItem} {payload : Payload} {item : InboxItem}
    (hin : (entry, items) ∈ page.offered)
    (hdecode : decode entry = some payload)
    (hitem : inboxItem entry payload branch = some item) : item ∈ items := by
  rcases (poll_offered hpoll).right.left entry items hin with ⟨stored, hunseen, hmade⟩
  have hstored : (entry, stored) ∈ state.decoded := (List.mem_filter.mp hunseen).left
  rw [hfolds] at hstored
  rcases List.mem_filterMap.mp hstored with ⟨old, _, hold⟩
  rcases Option.map_eq_some_iff.mp hold with ⟨found, hfound, hpair⟩
  cases hpair
  rw [hdecode] at hfound
  cases hfound
  rcases Option.map_eq_some_iff.mp hmade with ⟨peer, _, rfl⟩
  rw [List.mem_filterMap]
  exact ⟨some item, by rw [hitem]; exact List.mem_cons_self, rfl⟩

/-- The page that goes over the end of a test has the item of a branch whose
refusal waits for it. -/
theorem page_peerItem {payload : Payload} {requestId : String} {ended : TestRequest} {time : Rat}
    {decision : ClaimDecision} (hentry : entry ∈ state.entries)
    (hdecode : decode entry = some payload) (hunseen : seen entry.writer < entry.seq)
    (hended : endedTest payload = some requestId) (hbranch : entry.branch ≠ branch)
    (hrequest : state.request requestId = some ended)
    (hwaiting : (time, decision) ∈ refusals state branch)
    (htime : time ≤ entry.time) (hmatched : requestId ∈ decision.matched) :
    exists item, item ∈ page.items ∧ item.kind = .peerOutcome ∧ item.pointer = requestId := by
  have hoffered : entry ∈ page.offered.map Prod.fst := by
    rw [page_entries hfolds hpoll, List.mem_filter, hdecode, Bool.and_eq_true, decide_eq_true_eq]
    exact ⟨hentry, rfl, hunseen⟩
  rcases List.mem_map.mp hoffered with ⟨pair, hpair, rfl⟩
  rcases pair with ⟨entry', items⟩
  rcases (poll_offered hpoll).right.left _ items hpair with ⟨stored, hstored, hmade⟩
  have hsame : stored = payload := by
    have hin := (List.mem_filter.mp hstored).left
    rw [hfolds] at hin
    rcases List.mem_filterMap.mp hin with ⟨old, _, hold⟩
    rcases Option.map_eq_some_iff.mp hold with ⟨found, hfound, heq⟩
    cases heq
    exact Option.some.inj (hfound.symm.trans hdecode)
  rw [hsame] at hmade
  have hfind : exists refused, (refusals state branch).find?
      (fun (time, decision) => decide (time ≤ entry'.time) &&
        decision.waitsFor entry' ended requestId) = some refused := by
    apply Option.isSome_iff_exists.mp
    rw [List.find?_isSome]
    refine ⟨(time, decision), hwaiting, ?_⟩
    simp only [ClaimDecision.waitsFor, Bool.and_eq_true, Bool.or_eq_true, decide_eq_true_eq]
    exact ⟨htime, Or.inl hmatched⟩
  rcases hfind with ⟨⟨at', refused⟩, hfind⟩
  have hne : (refusals state branch).isEmpty = false := by
    cases hlist : refusals state branch with
    | nil =>
      rw [hlist] at hwaiting
      cases hwaiting
    | cons first rest => rfl
  unfold entryItems peerItem at hmade
  dsimp only at hmade
  rw [hne, hended] at hmade
  simp only [Bool.false_eq_true, if_false, if_neg hbranch, hrequest, hfind,
    Option.map_some, Option.some.injEq] at hmade
  refine ⟨{
    kind := .peerOutcome
    branch := branch
    pointer := requestId
    summary := peerSummary entry' ended refused requestId
    time := entry'.time }, List.mem_flatMap.mpr ⟨(entry', items), hpair, ?_⟩, rfl, rfl⟩
  rw [← hmade, List.mem_filterMap]
  exact ⟨_, List.mem_cons_of_mem _ (List.mem_cons_of_mem _ List.mem_cons_self), rfl⟩

end

/-!
## The cursor
-/

theorem foldl_max_ge (writer : String) (entries : List (Entry δ)) (start : Nat) :
    start ≤ entries.foldl (fun last entry =>
        if entry.writer = writer then max last entry.seq else last) start := by
  induction entries generalizing start with
  | nil => exact Nat.le_refl start
  | cons entry rest ih =>
    rw [List.foldl_cons]
    apply Nat.le_trans ?_ (ih _)
    split
    · exact Nat.le_max_left _ _
    · exact Nat.le_refl _

variable (seen : Cursor) (entries : List (Entry δ))

theorem le_advanceCursor (writer : String) : seen writer ≤ advanceCursor seen entries writer :=
  foldl_max_ge writer entries (seen writer)

theorem seq_le_advanceCursor {entries : List (Entry δ)}
    (h : entry ∈ entries) : entry.seq ≤ advanceCursor seen entries entry.writer := by
  unfold advanceCursor
  generalize seen entry.writer = start
  induction entries generalizing start with
  | nil => cases h
  | cons first rest ih =>
    rw [List.foldl_cons]
    rcases List.mem_cons.mp h with rfl | hin
    · rw [if_pos rfl]
      exact Nat.le_trans (Nat.le_max_right _ _) (foldl_max_ge _ rest _)
    · exact ih hin _

theorem advanceCursor_cases (writer : String) : advanceCursor seen entries writer = seen writer ∨
      exists entry, entry ∈ entries ∧ entry.writer = writer ∧
        advanceCursor seen entries writer = entry.seq := by
  unfold advanceCursor
  generalize seen writer = start
  induction entries generalizing start with
  | nil => exact Or.inl rfl
  | cons first rest ih =>
    rw [List.foldl_cons]
    rcases ih (if first.writer = writer then max start first.seq else start)
      with hsame | ⟨entry, hentry, hwriter, hseq⟩
    · rw [hsame]
      by_cases hfirst : first.writer = writer
      · rw [if_pos hfirst]
        rcases Nat.le_total start first.seq with hle | hle
        · exact Or.inr ⟨first, List.mem_cons_self, hfirst, Nat.max_eq_right hle⟩
        · exact Or.inl (Nat.max_eq_left hle)
      · exact Or.inl (if_neg hfirst)
    · exact Or.inr ⟨entry, List.mem_cons_of_mem _ hentry, hwriter, hseq⟩

end

end Blackboard
end Hyperloom
