import Hyperloom.Library.Machine
import Hyperloom.Bus.MessageBus

/-!
# Retention

`prune_events` deletes old messages but never a proposal without a verdict.
Two readers decide which proposals have one: a SQL subquery, which compares the
`target_proposal_msg_id` of a verdict as text, and the Python rule of
`replay_for_resume`, which compares it as a value.
-/

namespace Hyperloom
namespace Bus

open Library Storage

/-!
## Verdict targets
-/

/-- `payload.get("target_proposal_msg_id")`. -/
def targetOf (e : Event) : Option Json :=
  (Json.obj e.payload).get? "target_proposal_msg_id"

def Targets (v : Event) (msgId : String) : Prop :=
  v.topic = .reviewVerdict ∧ targetOf v = some (.str msgId)

/-- How SQLite prints the values of `json_extract` that are not text: a number
takes at most 24 characters, and an array or object starts with its bracket. -/
structure SqlText where
  int : Int -> String
  real : Rat -> String
  nested : Json -> String
  int_short : forall n, (int n).length ≤ 24
  real_short : forall q, (real q).length ≤ 24
  nested_head : forall j, exists c rest, (c = '[' ∨ c = '\x7b') ∧ (nested j).toList = c :: rest

variable (sql : SqlText)

/-- The text a JSON value compares as; null is `NULL`. -/
def SqlText.ofJson : Json -> Option String
  | .null => none
  | .bool true => some "1"
  | .bool false => some "0"
  | .int n => some (sql.int n)
  | .real q => some (sql.real q)
  | .str s => some s
  | .arr items => some (sql.nested (.arr items))
  | .obj fields => some (sql.nested (.obj fields))

variable (rows : List Event)

/-- `DECIDED_PROPOSAL_IDS_SQL`. -/
def decidedProposalIds : List String :=
  ((rows.filter (fun e => e.topic = .reviewVerdict)).filterMap
    (fun e => (targetOf e).bind sql.ofJson)).filter (fun text => text ≠ "")

def undecidedRow (e : Event) : Bool :=
  decide (e.topic = .proposal) && !decide (e.msgId ∈ decidedProposalIds sql rows)

/-- The undecided proposals, as `prune_events` and the reconciler select
them. -/
def undecidedProposals : List Event :=
  rows.filter (undecidedRow sql rows)

/-!
## Pruning

`prune_events` reads the newest sequence number first and deletes in a
transaction of its own, so the log may grow in between.
-/

def maxSeq : Nat := rows.foldl (fun newest e => max newest e.seq) 0

structure Prune where
  newest : Nat
  keepRecent : Int
deriving DecidableEq

def Prune.deleteBelow (prune : Prune) : Int := prune.newest - max 0 prune.keepRecent

variable (events : EventLog)

/-- The first half of `prune_events`: the bound, unless there is nothing to
delete. -/
def readBound (keepRecent : Int) : Option Prune :=
  let prune : Prune := { newest := maxSeq events.rows, keepRecent := keepRecent }
  if prune.newest = 0 then none
  else if prune.deleteBelow ≤ 0 then none
  else some prune

/-- The rows the `DELETE` of `prune_events` takes. -/
def prunes (prune : Prune) (e : Event) : Bool :=
  decide ((e.seq : Int) ≤ prune.deleteBelow) && !undecidedRow sql events.rows e

/-- The second half of `prune_events`: how many rows went, and the rest. -/
def deleteOld (prune : Prune) : Nat × EventLog :=
  ((events.rows.filter (prunes sql events prune)).length,
    { log := events.log.deleteWhere (prunes sql events prune)
      unique := events.unique.sublist (List.filter_sublist.map Event.msgId) })

variable {sql : SqlText} {e : Event} {events : EventLog} {prune : Prune}

theorem mem_deleteOld :
    e ∈ (deleteOld sql events prune).snd <-> e ∈ events ∧ prunes sql events prune e = false :=
  SeqLog.mem_deleteWhere

/-!
## Pruning tasks
-/

def prunableTaskStates : List TaskState := [.succeeded, .cancelled]

variable (tasks : Tasks) (keepDone : Int)

/-- The done tasks `prune_tasks` keeps: the most recently updated ones. -/
def keptDone : List String :=
  (((tasks.rows.filter (fun row => row.state ∈ prunableTaskStates)).insertionSort
    (fun a b => b.updatedAt.micros ≤ a.updatedAt.micros)).take
      (max 0 keepDone).toNat).map TaskRow.taskId

/-- The rows the `DELETE` of `prune_tasks` takes. -/
def prunesTask (row : TaskRow) : Bool :=
  decide (row.state ∈ prunableTaskStates) && !decide (row.taskId ∈ keptDone tasks keepDone)

/-- `prune_tasks`: how many rows went, and the rest. -/
def pruneTasks : Nat × Tasks :=
  ((tasks.rows.filter (prunesTask tasks keepDone)).length,
    tasks.deleteWhere (prunesTask tasks keepDone))

/-!
## The rule of `replay_for_resume`
-/

def truthy : Json -> Bool
  | .null => false
  | .bool b => b
  | .int n => decide (n ≠ 0)
  | .real q => decide (q ≠ 0)
  | .str s => decide (s ≠ "")
  | .arr items => !items.isEmpty
  | .obj fields => !fields.isEmpty

def hashable : Json -> Bool
  | .arr _ => false
  | .obj _ => false
  | _ => true

/-- The `TypeError` of putting a list or a dict into a set, and what `float`
raises on a value it does not convert. -/
inductive ReplayError where
  | unhashable
  | notFloat
deriving DecidableEq

/-- `decided_ids`: the targets that are present and true. -/
def decidedIds (verdicts : List Event) : Except ReplayError (List Json) :=
  let targets := (verdicts.filterMap targetOf).filter truthy
  if targets.all hashable then .ok targets else .error .unhashable

/-- `p.msg_id in decided_ids`. -/
def decides (msgId : String) : Json -> Bool
  | .str s => decide (s = msgId)
  | _ => false

/-- How Python makes a float of a number or of a text, where `none` is the
error it raises, and the text of any value. -/
structure Conversions (γ : Type) where
  ofRat : Rat -> Option γ
  ofText : String -> Option γ
  str : Json -> String

def Conversions.float {γ : Type} (py : Conversions γ) : Json -> Option γ
  | .null => none
  | .bool b => py.ofRat (if b then 1 else 0)
  | .int n => py.ofRat n
  | .real q => py.ofRat q
  | .str s => py.ofText s
  | .arr _ => none
  | .obj _ => none

structure PendingProposal (γ : Type) where
  proposalMsgId : String
  fromAgent : String
  actionName : String
  predictedGainPct : γ
  payload : Evidence
  taskId : Option String := none

section

variable {γ : Type} (py : Conversions γ)

/-- `float(payload.get("predicted_gain_pct", 0.0))`. -/
def predictedGainOf (p : Event) : Option γ :=
  py.float (((Json.obj p.payload).get? "predicted_gain_pct").getD (.real 0))

/-- The loop of `replay_for_resume` over the proposals. -/
def pendUndecided (py : Conversions γ) (decided : List Json) :
    List Event -> Except ReplayError (List (PendingProposal γ))
  | [] => .ok []
  | p :: rest =>
    if decided.any (decides p.msgId) then pendUndecided py decided rest
    else
      match predictedGainOf py p with
      | none => .error .notFloat
      | some gain =>
        match pendUndecided py decided rest with
        | .error e => .error e
        | .ok pending =>
          .ok ({ proposalMsgId := p.msgId
                 fromAgent := p.fromAgent
                 actionName := py.str (((Json.obj p.payload).get? "action_name").getD (.str ""))
                 predictedGainPct := gain
                 payload := p.payload } :: pending)

/-- `replay_for_resume`: the proposals it makes pending, newest first. -/
def replayForResume (events : EventLog) : Except ReplayError (List (PendingProposal γ)) :=
  match decidedIds (tail events .reviewVerdict 10000) with
  | .error e => .error e
  | .ok decided => pendUndecided py decided (tail events .proposal 10000)

end

/-!
## The two rules agree on message ids

A message id is `uuid4().hex`: 32 hexadecimal digits, which no number, truth
value, array or object prints as.
-/

def isHexDigit (c : Char) : Bool := c.isDigit || (decide ('a' ≤ c) && decide (c ≤ 'f'))

def IsUuidHex (msgId : String) : Prop := msgId.length = 32 ∧ msgId.toList.all isHexDigit = true

variable {msgId : String} {rows : List Event}

section

variable (h : IsUuidHex msgId)

include h

theorem IsUuidHex.ne_empty : msgId ≠ "" := by
  intro heq
  have hlength := h.left
  rw [heq] at hlength
  cases hlength

theorem IsUuidHex.ne_short {text : String} (hshort : text.length ≤ 24) : text ≠ msgId := by
  intro heq
  rw [heq, h.left] at hshort
  lia

theorem IsUuidHex.ne_nested (sql : SqlText) (j : Json) : sql.nested j ≠ msgId := by
  intro heq
  rcases sql.nested_head j with ⟨c, rest, hc, htext⟩
  have hall := h.right
  rw [← heq, htext, List.all_cons, Bool.and_eq_true] at hall
  rcases hc with rfl | rfl
  · exact absurd hall.left (by decide)
  · exact absurd hall.left (by decide)

theorem ofJson_eq_msgId {j : Json} : sql.ofJson j = some msgId <-> j = .str msgId := by
  constructor
  · intro hj
    cases j with
    | null => cases hj
    | bool b =>
      cases b with
      | _ => exact absurd (Option.some.inj hj) (h.ne_short (by decide))
    | int n => exact absurd (Option.some.inj hj) (h.ne_short (sql.int_short n))
    | real q => exact absurd (Option.some.inj hj) (h.ne_short (sql.real_short q))
    | str s =>
      injection hj with hj
      rw [hj]
    | _ => exact absurd (Option.some.inj hj) (h.ne_nested sql _)
  · intro hj
    rw [hj]
    rfl

theorem mem_decidedProposalIds :
    msgId ∈ decidedProposalIds sql rows <-> exists v, v ∈ rows ∧ Targets v msgId := by
  unfold decidedProposalIds
  rw [List.mem_filter, decide_eq_true_eq, and_iff_left h.ne_empty, List.mem_filterMap]
  apply exists_congr
  intro v
  rw [List.mem_filter, decide_eq_true_eq, and_assoc, Option.bind_eq_some_iff]
  apply and_congr_right
  intro _
  apply and_congr_right
  intro _
  constructor
  · intro htarget
    rcases htarget with ⟨j, hj, htext⟩
    rw [hj, (ofJson_eq_msgId h).mp htext]
  · intro htarget
    exact ⟨.str msgId, htarget, rfl⟩

end

theorem undecidedRow_eq_true (h : e.topic = .proposal -> IsUuidHex e.msgId) :
    undecidedRow sql rows e = true <->
      e.topic = .proposal ∧ forall v, v ∈ rows -> ¬ Targets v e.msgId := by
  unfold undecidedRow
  rw [Bool.and_eq_true, decide_eq_true_eq]
  apply and_congr_right
  intro htopic
  rw [Bool.not_eq_true', decide_eq_false_iff_not, mem_decidedProposalIds (h htopic)]
  constructor
  · intro hnone v hv htargets
    exact hnone ⟨v, hv, htargets⟩
  · intro hnone hsome
    rcases hsome with ⟨v, hv, htargets⟩
    exact hnone v hv htargets

/-- A verdict whose target is not true, or may be put into a set. -/
def ReadableTarget (v : Event) : Prop :=
  forall j, targetOf v = some j -> truthy j = true -> hashable j = true

theorem decides_eq_true {j : Json} : decides msgId j = true <-> j = .str msgId := by
  cases j with
  | str s =>
    rw [decides, decide_eq_true_eq]
    constructor
    · intro h
      rw [h]
    · intro h
      injection h
  | _ => exact iff_of_false Bool.false_ne_true nofun

/-- The set of targets is built exactly if every target can be put into it. -/
theorem decidedIds_eq_ok {verdicts : List Event} {decided : List Json} :
    decidedIds verdicts = .ok decided <-> decided = (verdicts.filterMap targetOf).filter truthy ∧
        forall v, v ∈ verdicts -> ReadableTarget v := by
  have hall : ((verdicts.filterMap targetOf).filter truthy).all hashable = true <->
      forall v, v ∈ verdicts -> ReadableTarget v := by
    rw [List.all_eq_true]
    constructor
    · intro h v hv j htarget htrue
      exact h j (List.mem_filter.mpr ⟨List.mem_filterMap.mpr ⟨v, hv, htarget⟩, htrue⟩)
    · intro h j hj
      rcases List.mem_filter.mp hj with ⟨hmem, htrue⟩
      rcases List.mem_filterMap.mp hmem with ⟨v, hv, htarget⟩
      exact h v hv j htarget htrue
  rw [← hall]
  unfold decidedIds
  dsimp only
  split
  · rename_i hhashable
    rw [Except.ok.injEq, and_iff_left hhashable]
    exact eq_comm
  · rename_i hhashable
    exact iff_of_false nofun (fun h => hhashable h.right)

section

variable {γ : Type} {py : Conversions γ} {decided : List Json}

/-- The loop ends exactly if `float` takes every gain it comes to. -/
theorem pendUndecided_eq_ok {rows : List Event} {pending : List (PendingProposal γ)}
    (h : pendUndecided py decided rows = .ok pending) :
    (forall p, p ∈ rows -> decided.any (decides p.msgId) = false -> (predictedGainOf py p).isSome) ∧
    forall msgId, msgId ∈ pending.map PendingProposal.proposalMsgId <->
      exists p, p ∈ rows ∧ decided.any (decides p.msgId) = false ∧ p.msgId = msgId := by
  induction rows generalizing pending with
  | nil =>
    cases h
    simp
  | cons p rest ih =>
    rw [pendUndecided] at h
    split at h
    · rename_i hdecided
      have hrest := ih h
      simp only [List.forall_mem_cons, List.exists_mem_cons_iff, hdecided,
        Bool.true_eq_false, false_implies, false_and, true_and, false_or]
      exact hrest
    · rename_i hundecided
      split at h
      · cases h
      rename_i gain hgain
      split at h
      · cases h
      rename_i others hothers
      cases h
      have hrest := ih hothers
      simp only [List.forall_mem_cons, List.exists_mem_cons_iff, hgain,
        hundecided, Option.isSome_some, true_and, List.map_cons, forall_const]
      refine ⟨hrest.left, ?_⟩
      intro msgId
      rw [List.mem_cons, hrest.right msgId]
      apply or_congr_left
      exact eq_comm

theorem exists_pendUndecided {rows : List Event}
    (h : forall p, p ∈ rows -> decided.any (decides p.msgId) = false ->
      (predictedGainOf py p).isSome) :
    exists pending, pendUndecided py decided rows = .ok pending := by
  induction rows with
  | nil => exact ⟨[], rfl⟩
  | cons p rest ih =>
    rcases ih (fun q hq => h q (List.mem_cons_of_mem p hq)) with ⟨others, hothers⟩
    rw [pendUndecided]
    split
    · exact ⟨others, hothers⟩
    · rename_i hundecided
      rw [Bool.not_eq_true] at hundecided
      rcases Option.isSome_iff_exists.mp (h p List.mem_cons_self hundecided) with ⟨gain, hgain⟩
      rw [hgain, hothers]
      exact ⟨_, rfl⟩

end

theorem mem_tail {topic : Topic} {n : Nat}
    (h : (events.rows.filter (fun e => e.topic = topic)).length ≤ n) :
    e ∈ tail events topic n <-> e ∈ events ∧ e.topic = topic := by
  unfold tail
  rw [List.take_of_length_le (by rw [List.length_reverse]; exact h),
    List.mem_reverse, List.mem_filter, decide_eq_true_eq]
  rfl

/-- Fewer than 10000 rows of each topic remain, so `tail` reads them all. -/
structure WithinTail (events : EventLog) : Prop where
  proposals : (events.rows.filter (fun e => e.topic = .proposal)).length ≤ 10000
  verdicts : (events.rows.filter (fun e => e.topic = .reviewVerdict)).length ≤ 10000

def Unanswered (events : EventLog) (p : Event) : Prop :=
  p ∈ events ∧ p.topic = .proposal ∧ forall v, v ∈ events -> ¬ Targets v p.msgId

/-- A log that `replay_for_resume` gets through: the verdicts' targets may be
put into a set, and `float` takes the gain of every unanswered proposal. -/
structure Replayable {γ : Type} (py : Conversions γ) (events : EventLog) : Prop where
  verdicts : forall v, v ∈ events -> v.topic = .reviewVerdict -> ReadableTarget v
  gains : forall p, Unanswered events p -> (predictedGainOf py p).isSome

theorem any_decides_eq_false (htail : WithinTail events) {p : Event} (hid : IsUuidHex p.msgId) :
    (((tail events .reviewVerdict 10000).filterMap targetOf).filter truthy).any
        (decides p.msgId) = false <-> forall v, v ∈ events -> ¬ Targets v p.msgId := by
  rw [List.any_eq_false]
  constructor
  · intro hnone v hv htargets
    apply hnone (.str p.msgId)
    · apply List.mem_filter.mpr
      constructor
      · exact List.mem_filterMap.mpr
          ⟨v, (mem_tail htail.verdicts).mpr ⟨hv, htargets.left⟩, htargets.right⟩
      · exact decide_eq_true hid.ne_empty
    · exact decides_eq_true.mpr rfl
  · intro hnone j hj hdecides
    rw [decides_eq_true.mp hdecides] at hj
    rcases List.mem_filterMap.mp (List.mem_of_mem_filter hj) with ⟨v, hv, htarget⟩
    rcases (mem_tail htail.verdicts).mp hv with ⟨hmem, hverdict⟩
    exact hnone v hmem ⟨hverdict, htarget⟩

section

variable {γ : Type} {py : Conversions γ} {events : EventLog}

theorem mem_tail_and_undecided (htail : WithinTail events)
    (hids : forall p, p ∈ events -> p.topic = .proposal -> IsUuidHex p.msgId) (p : Event) :
    (p ∈ tail events .proposal 10000 ∧
      (((tail events .reviewVerdict 10000).filterMap targetOf).filter truthy).any
        (decides p.msgId) = false) <-> Unanswered events p := by
  rw [mem_tail htail.proposals, and_assoc]
  apply and_congr_right
  intro hp
  apply and_congr_right
  intro htopic
  exact any_decides_eq_false htail (hids p hp htopic)

/-- `replay_for_resume` returns exactly on the logs it gets through, and what it
then makes pending are the unanswered proposals. -/
theorem replayForResume_iff (htail : WithinTail events)
    (hids : forall p, p ∈ events -> p.topic = .proposal -> IsUuidHex p.msgId) :
    (exists pending, replayForResume py events = .ok pending ∧
      forall msgId, msgId ∈ pending.map PendingProposal.proposalMsgId <->
        exists p, Unanswered events p ∧ p.msgId = msgId) <-> Replayable py events := by
  have hreads : (forall v, v ∈ tail events .reviewVerdict 10000 -> ReadableTarget v) <->
      forall v, v ∈ events -> v.topic = .reviewVerdict -> ReadableTarget v := by
    constructor
    · intro h v hv htopic
      exact h v ((mem_tail htail.verdicts).mpr ⟨hv, htopic⟩)
    · intro h v hv
      rcases (mem_tail htail.verdicts).mp hv with ⟨hmem, htopic⟩
      exact h v hmem htopic
  have hloop := mem_tail_and_undecided htail hids
  constructor
  · intro h
    rcases h with ⟨pending, hok, _⟩
    unfold replayForResume at hok
    split at hok
    · cases hok
    rename_i decided hdecided
    rcases decidedIds_eq_ok.mp hdecided with ⟨rfl, hreadable⟩
    constructor
    · exact hreads.mp hreadable
    · intro p hp
      rcases (hloop p).mpr hp with ⟨hmem, hundecided⟩
      exact (pendUndecided_eq_ok hok).left p hmem hundecided
  · intro h
    have hdecided := decidedIds_eq_ok.mpr ⟨rfl, hreads.mpr h.verdicts⟩
    rcases exists_pendUndecided (fun p hmem hundecided =>
      h.gains p ((hloop p).mp ⟨hmem, hundecided⟩)) with ⟨pending, hok⟩
    refine ⟨pending, ?_, ?_⟩
    · unfold replayForResume
      rw [hdecided]
      exact hok
    · intro msgId
      rw [(pendUndecided_eq_ok hok).right msgId]
      apply exists_congr
      intro p
      rw [← and_assoc, hloop p]

end

/-!
## The machine

Appends, turns that move a role's cursor, and prunes, whose two halves are
steps of their own.  The history keeps every row ever appended.
-/

structure BusState where
  events : EventLog
  cursors : Cursors
  prunes : List Prune
  history : List Event

inductive BusOp where
  | append (message : Message)
  | turn (role : String) (seq : Nat)
  | readBound (keepRecent : Int)
  | deleteOld (prune : Prune)

def busStep (sql : SqlText) (s : BusState) : BusOp -> Option BusState
  | .append message =>
    match appendAndSeq s.events message with
    | .error _ => some s
    | .ok (_, events) =>
      some { s with
        events := events
        history := s.history ++ events.rows.drop s.events.rows.length }
  | .turn role seq => some { s with cursors := advance s.cursors role seq }
  | .readBound keepRecent =>
    match readBound s.events keepRecent with
    | none => some s
    | some prune => some { s with prunes := prune :: s.prunes }
  | .deleteOld prune =>
    if prune ∈ s.prunes then
      some { s with events := (deleteOld sql s.events prune).snd }
    else none

def busMachine (sql : SqlText) : Machine BusState BusOp where
  init s := s.events.rows = [] ∧ s.prunes = [] ∧ s.history = []
  step := busStep sql

variable {s t : BusState}

theorem busStep_append_cases {message : Message} (h : busStep sql s (.append message) = some t) :
    t = s ∨ exists topic, Topic.ofName? message.topic = some topic ∧
      t.events.rows = s.events.rows ++ [message.toEvent topic (s.events.log.last + 1)] ∧
      t.events.log.last = s.events.log.last + 1 ∧
      t.history = s.history ++ [message.toEvent topic (s.events.log.last + 1)] := by
  simp only [busStep] at h
  split at h
  · cases h
    exact Or.inl rfl
  · rename_i seq events happend
    cases h
    rcases appendAndSeq_ok happend with ⟨topic, htopic, hrows, rfl, hlast⟩
    refine Or.inr ⟨topic, htopic, hrows, hlast, ?_⟩
    rw [hrows, List.drop_left]

/-!
## Verdicts outlive their proposals
-/

/-- The appends of a disciplined writer: a proposal has a `uuid4` id that no
earlier verdict targets. -/
def Disciplined (s : BusState) : BusOp -> Prop
  | .append message =>
    message.topic = "proposal" -> IsUuidHex message.msgId ∧
      forall v, v ∈ s.history -> ¬ Targets v message.msgId
  | _ => True

def NeverDecided (history : List Event) (p : Event) : Prop :=
  forall v, v ∈ history -> ¬ Targets v p.msgId

/-- What holds of the table and the history in a disciplined run. -/
structure Retained (s : BusState) : Prop where
  recorded : forall e, e ∈ s.events -> e ∈ s.history
  numbered : forall e, e ∈ s.history -> e.seq ≤ s.events.log.last
  named : forall p, p ∈ s.history -> p.topic = .proposal -> IsUuidHex p.msgId
  later : forall p v, p ∈ s.history -> p.topic = .proposal ->
    v ∈ s.history -> Targets v p.msgId -> p.seq < v.seq
  kept : forall p, p ∈ s.history -> p.topic = .proposal -> NeverDecided s.history p -> p ∈ s.events
  backed : forall p v, p ∈ s.events -> p.topic = .proposal ->
    v ∈ s.history -> Targets v p.msgId -> exists v', v' ∈ s.events ∧ Targets v' p.msgId

theorem Topic.name_of_ofName {text : String} {topic : Topic}
    (h : Topic.ofName? text = some topic) : text = topic.name := by
  have hfound := List.find?_some h
  exact (of_decide_eq_true hfound).symm

theorem retained_append {message : Message} (hs : Retained s)
    (hproposal : Disciplined s (.append message))
    (h : busStep sql s (.append message) = some t) : Retained t := by
  rcases busStep_append_cases h with rfl | ⟨topic, htopic, hrows, hlast, hhistory⟩
  · exact hs
  · have htext := Topic.name_of_ofName htopic
    let new := message.toEvent topic (s.events.log.last + 1)
    have hevents : forall e, e ∈ t.events <-> e ∈ s.events ∨ e = new := by
      intro e
      show e ∈ t.events.rows <-> _
      rw [hrows, List.mem_append, List.mem_singleton]
      rfl
    have hhist : forall e, e ∈ t.history <-> e ∈ s.history ∨ e = new := by
      intro e
      rw [hhistory, List.mem_append, List.mem_singleton]
    have hnewProposal : new.topic = .proposal -> message.topic = "proposal" := by
      intro hnew
      have heq : topic = .proposal := hnew
      rw [htext, heq]
      rfl
    constructor
    · intro e he
      rcases (hevents e).mp he with hold | hnew
      · exact (hhist e).mpr (Or.inl (hs.recorded e hold))
      · exact (hhist e).mpr (Or.inr hnew)
    · intro e he
      rw [hlast]
      rcases (hhist e).mp he with hold | rfl
      · exact Nat.le_succ_of_le (hs.numbered e hold)
      · exact le_refl _
    · intro p hp hptopic
      rcases (hhist p).mp hp with hold | rfl
      · exact hs.named p hold hptopic
      · exact (hproposal (hnewProposal hptopic)).left
    · intro p v hp hptopic hv htargets
      rcases (hhist v).mp hv with holdV | hnewV
      · rcases (hhist p).mp hp with holdP | rfl
        · exact hs.later p v holdP hptopic holdV htargets
        · exact absurd htargets ((hproposal (hnewProposal hptopic)).right v holdV)
      · rcases (hhist p).mp hp with holdP | rfl
        · rw [hnewV]
          exact Nat.lt_succ_of_le (hs.numbered p holdP)
        · have hverdictTopic := htargets.left
          rw [hnewV, hptopic] at hverdictTopic
          cases hverdictTopic
    · intro p hp hptopic hnever
      rcases (hhist p).mp hp with hold | hnew
      · have hpast : NeverDecided s.history p := fun v hv => hnever v ((hhist v).mpr (Or.inl hv))
        exact (hevents p).mpr (Or.inl (hs.kept p hold hptopic hpast))
      · exact (hevents p).mpr (Or.inr hnew)
    · intro p v hp hptopic hv htargets
      rcases (hhist v).mp hv with holdV | hnewV
      · rcases (hevents p).mp hp with holdP | rfl
        · rcases hs.backed p v holdP hptopic holdV htargets with ⟨v', hv', htargets'⟩
          exact ⟨v', (hevents v').mpr (Or.inl hv'), htargets'⟩
        · exact absurd htargets ((hproposal (hnewProposal hptopic)).right v holdV)
      · exact ⟨v, (hevents v).mpr (Or.inr hnewV), htargets⟩

theorem prunes_eq_false :
    prunes sql events prune e = false <->
      prune.deleteBelow < e.seq ∨ undecidedRow sql events.rows e = true := by
  unfold prunes
  rw [Bool.and_eq_false_iff, decide_eq_false_iff_not, Int.not_le, Bool.not_eq_false']

/-- A prune never takes a proposal without a verdict, and it never takes a
verdict without the older proposal it decides. -/
theorem retained_deleteOld (hs : Retained s) :
    Retained { s with events := (deleteOld sql s.events prune).snd } := by
  refine { hs with recorded := ?_, kept := ?_, backed := ?_ }
  · intro e he
    exact hs.recorded e (mem_deleteOld.mp he).left
  · intro p hp htopic hnever
    apply mem_deleteOld.mpr
    refine ⟨hs.kept p hp htopic hnever, prunes_eq_false.mpr (Or.inr ?_)⟩
    apply (undecidedRow_eq_true (hs.named p hp)).mpr
    refine ⟨htopic, ?_⟩
    intro v hv
    exact hnever v (hs.recorded v hv)
  · intro p v hp htopic hv htargets
    rcases mem_deleteOld.mp hp with ⟨hpOld, hpKept⟩
    rcases hs.backed p v hpOld htopic hv htargets with ⟨v', hv', htargets'⟩
    refine ⟨v', mem_deleteOld.mpr ⟨hv', prunes_eq_false.mpr (Or.inl ?_)⟩, htargets'⟩
    have hpHistory := hs.recorded p hpOld
    have hlt := hs.later p v' hpHistory htopic (hs.recorded v' hv') htargets'
    rcases prunes_eq_false.mp hpKept with habove | hundecided
    · lia
    · have hnone := (undecidedRow_eq_true (hs.named p hpHistory)).mp hundecided
      exact absurd htargets' (hnone.right v' hv')

variable {op : BusOp}

theorem retained_step (hs : Retained s) (hcond : Disciplined s op)
    (h : busStep sql s op = some t) : Retained t := by
  cases op with
  | append message => exact retained_append hs hcond h
  | turn role seq =>
    cases h
    exact { hs with }
  | readBound keepRecent =>
    simp only [busStep] at h
    split at h
    · cases h
      exact hs
    · cases h
      exact { hs with }
  | deleteOld prune =>
    rcases some_of_when h with ⟨_, rfl⟩
    exact retained_deleteOld hs

theorem reachable_retained (hs : (busMachine sql).ReachableWhere Disciplined s) : Retained s := by
  refine hs.invariant ?_ ?_
  · intro start hstart
    rcases hstart with ⟨hrows, _, hhistory⟩
    have hnone : forall e, ¬ e ∈ start.history := by
      rw [hhistory]
      exact fun e => List.not_mem_nil
    have hempty : forall e, ¬ e ∈ start.events := by
      intro e he
      have hmem : e ∈ start.events.rows := he
      rw [hrows] at hmem
      cases hmem
    exact ⟨fun e he => absurd he (hempty e), fun e he => absurd he (hnone e),
      fun p hp => absurd hp (hnone p),
      fun p _ hp => absurd hp (hnone p), fun p hp => absurd hp (hnone p),
      fun p _ hp => absurd hp (hempty p)⟩
  · intro before op after hbefore hcond hstep
    exact retained_step hbefore hcond hstep

/-- The verdicts left of a log speak for all that were ever appended. -/
theorem Retained.unanswered_iff (h : Retained s) (p : Event) :
    Unanswered s.events p <-> p ∈ s.history ∧ p.topic = .proposal ∧ NeverDecided s.history p := by
  constructor
  · intro hp
    rcases hp with ⟨hp, htopic, hnone⟩
    refine ⟨h.recorded p hp, htopic, ?_⟩
    intro v hv htargets
    rcases h.backed p v hp htopic hv htargets with ⟨v', hv', htargets'⟩
    exact hnone v' hv' htargets'
  · intro hp
    rcases hp with ⟨hp, htopic, hnever⟩
    exact ⟨h.kept p hp htopic hnever, htopic, fun v hv => hnever v (h.recorded v hv)⟩

/-- Pruning at any moments does not change which proposals are undecided: on
what is left of the log the SQL rule finds the proposals for which no verdict
was ever appended, and so does `replay_for_resume` exactly if it gets through
the log. -/
theorem retention_keeps_undecided {γ : Type} (sql : SqlText) (py : Conversions γ) (s : BusState)
    (hs : (busMachine sql).ReachableWhere Disciplined s) :
    (forall p, p ∈ undecidedProposals sql s.events.rows <->
      p ∈ s.history ∧ p.topic = .proposal ∧ NeverDecided s.history p) ∧
    (WithinTail s.events ->
      ((exists pending, replayForResume py s.events = .ok pending ∧
        forall msgId, msgId ∈ pending.map PendingProposal.proposalMsgId <->
          exists p, (p ∈ s.history ∧ p.topic = .proposal ∧
            NeverDecided s.history p) ∧ p.msgId = msgId) <->
        Replayable py s.events)) := by
  have hinv := reachable_retained hs
  constructor
  · intro p
    rw [← hinv.unanswered_iff p]
    unfold undecidedProposals Unanswered
    rw [List.mem_filter]
    apply and_congr_right
    intro hp
    exact undecidedRow_eq_true (hinv.named p (hinv.recorded p hp))
  · intro htail
    have hids : forall p, p ∈ s.events -> p.topic = .proposal ->
        IsUuidHex p.msgId := fun p hp => hinv.named p (hinv.recorded p hp)
    simp only [← hinv.unanswered_iff]
    exact replayForResume_iff htail hids

def plainSqlText : SqlText where
  int := fun _ => "0"
  real := fun _ => "0.0"
  nested := fun _ => "[]"
  int_short := fun _ => by decide
  real_short := fun _ => by decide
  nested_head := fun _ => ⟨'[', [']'], Or.inl rfl, by decide⟩

def emptyBus : BusState where
  events := EventLog.empty
  cursors := fun _ => 0
  prunes := []
  history := []

def firstProposal : Message where
  msgId := "00000000000040008000000000000001"
  fromAgent := "orchestration"
  toAgent := "critic"
  topic := "proposal"
  payload := []
  ts := ⟨0⟩

def plainConversions : Conversions Rat where
  ofRat := some
  ofText := fun _ => some 0
  str := fun _ => ""

theorem disciplined_firstProposal : Disciplined emptyBus (.append firstProposal) := by
  intro _
  exact ⟨⟨by decide, by decide⟩, fun v hv => absurd hv List.not_mem_nil⟩

theorem retention_keeps_undecided_after_prune :
    exists s, (busMachine plainSqlText).ReachableWhere Disciplined s ∧
      firstProposal.toEvent .proposal 1 ∈ undecidedProposals plainSqlText s.events.rows := by
  have hrun : (busMachine plainSqlText).Run Disciplined emptyBus
      [.append firstProposal, .readBound 0, .deleteOld ⟨1, 0⟩] _ :=
    .cons disciplined_firstProposal rfl (.cons trivial rfl (.cons trivial rfl (.nil _)))
  have hs : (busMachine plainSqlText).ReachableWhere Disciplined _ :=
    ⟨emptyBus, _, ⟨rfl, rfl, rfl⟩, hrun⟩
  refine ⟨_, hs, ?_⟩
  apply ((retention_keeps_undecided plainSqlText plainConversions _ hs).left _).mpr
  refine ⟨List.mem_singleton.mpr rfl, rfl, ?_⟩
  intro v hv htargets
  have hverdictTopic := htargets.left
  rw [List.mem_singleton.mp hv] at hverdictTopic
  cases hverdictTopic

/-- A free-form message under the topic of verdicts, whose target is a list. -/
def listVerdict : Message where
  msgId := "00000000000040008000000000000002"
  fromAgent := "orchestration"
  toAgent := "*"
  topic := "review_verdict"
  payload :=
    [("topic", .str "review_verdict"), ("target_proposal_msg_id", .arr [.str firstProposal.msgId])]
  ts := ⟨1⟩

/-- One verdict whose target is a list stops `replay_for_resume`, while the SQL
rule still finds the proposal undecided. -/
theorem list_target_stops_replay :
    exists s, (busMachine plainSqlText).ReachableWhere Disciplined s ∧ WithinTail s.events ∧
      firstProposal.toEvent .proposal 1 ∈ undecidedProposals plainSqlText s.events.rows ∧
      replayForResume plainConversions s.events = .error .unhashable := by
  have hverdict : forall s, Disciplined s (.append listVerdict) := by
    intro s htopic
    exact absurd htopic (by decide)
  have hrun : (busMachine plainSqlText).Run Disciplined emptyBus
      [.append firstProposal, .append listVerdict] _ :=
    .cons disciplined_firstProposal rfl (.cons (hverdict _) rfl (.nil _))
  refine ⟨_, ⟨emptyBus, _, ⟨rfl, rfl, rfl⟩, hrun⟩, ?_, ?_, rfl⟩
  · constructor
    · decide
    · decide
  · exact List.mem_cons_self

/-!
## What a prune may delete

The bound of a prune is a distance from the newest sequence number; it does not
look at the cursors.
-/

theorem foldl_max_le {start bound : Nat} (hstart : start ≤ bound)
    (h : forall e, e ∈ rows -> e.seq ≤ bound) :
    rows.foldl (fun newest e => max newest e.seq) start ≤ bound := by
  induction rows generalizing start with
  | nil => exact hstart
  | cons e rest ih =>
    apply ih
    · exact max_le hstart (h e List.mem_cons_self)
    · intro e' he'
      exact h e' (List.mem_cons_of_mem e he')

theorem maxSeq_le_last (events : EventLog) : maxSeq events.rows ≤ events.log.last :=
  foldl_max_le (Nat.zero_le _) events.log.bounded

/-- Every bound that was read is at most the newest number given out. -/
def PrunesBounded (s : BusState) : Prop :=
  forall prune, prune ∈ s.prunes -> prune.newest ≤ s.events.log.last

theorem prunesBounded_step (hs : PrunesBounded s)
    (h : busStep sql s op = some t) : PrunesBounded t := by
  revert h
  fun_cases busStep sql s op with (intro h; cases h)
  | case2 message seq events happend =>
    rcases appendAndSeq_ok happend with ⟨topic, _, _, rfl, hlast⟩
    intro prune hprune
    dsimp only
    rw [hlast]
    exact Nat.le_succ_of_le (hs prune hprune)
  | case5 keepRecent new hbound =>
    intro prune hprune
    rcases List.mem_cons.mp hprune with rfl | hold
    · revert hbound
      fun_cases readBound s.events keepRecent with (intro hbound; try cases hbound)
      | _ =>
        rw [← Option.some.inj hbound]
        exact maxSeq_le_last s.events
    · exact hs prune hold
  | _ => exact hs

theorem reachable_prunesBounded (hs : (busMachine sql).Reachable s) : PrunesBounded s := by
  refine hs.invariant ?_ ?_
  · intro start hstart prune hprune
    rw [hstart.right.left] at hprune
    cases hprune
  · intro before op after hbefore _ hstep
    exact prunesBounded_step hbefore hstep

/-- Only the second half of a prune deletes, and only rows at or below its
bound that are not undecided proposals. -/
theorem deleted_cases (h : busStep sql s op = some t) (he : e ∈ s.events) (hgone : ¬ e ∈ t.events) :
    exists prune, op = .deleteOld prune ∧ prune ∈ s.prunes ∧
      (e.seq : Int) ≤ prune.deleteBelow ∧ undecidedRow sql s.events.rows e = false := by
  revert h
  fun_cases busStep sql s op with (intro h; cases h)
  | case2 message seq events happend =>
    rcases appendAndSeq_ok happend with ⟨topic, _, hrows, _⟩
    apply absurd _ hgone
    show e ∈ events.rows
    rw [hrows]
    exact List.mem_append_left _ he
  | case6 prune hprune =>
    have hprunes : prunes sql s.events prune e = true := by
      cases hcase : prunes sql s.events prune e with
      | true => rfl
      | false => exact absurd (mem_deleteOld.mpr ⟨he, hcase⟩) hgone
    unfold prunes at hprunes
    rw [Bool.and_eq_true, decide_eq_true_eq, Bool.not_eq_true'] at hprunes
    exact ⟨prune, rfl, hprune, hprunes.left, hprunes.right⟩
  | _ => exact absurd he hgone

/-- A message is deleted only when a role has read past it or lags behind the
newest number by more than the prune keeps; an undecided proposal is never
deleted, nor any of the newest numbers the prune keeps. -/
theorem pruned_unread_only_beyond_window (sql : SqlText) (s t : BusState)
    (op : BusOp) (role : String) (e : Event) (hs : (busMachine sql).Reachable s)
    (hstep : (busMachine sql).step s op = some t) (he : e ∈ s.events) (hgone : ¬ e ∈ t.events) :
    exists prune, op = .deleteOld prune ∧ prune ∈ s.prunes ∧
      prune.newest ≤ s.events.log.last ∧
      (e.seq : Int) + max 0 prune.keepRecent ≤ prune.newest ∧
      undecidedRow sql s.events.rows e = false ∧
      (e.seq ≤ s.cursors role ∨
        (s.cursors role : Int) + max 0 prune.keepRecent < prune.newest) := by
  rcases deleted_cases hstep he hgone with ⟨prune, hop, hprune, hbelow, hdecided⟩
  unfold Prune.deleteBelow at hbelow
  refine ⟨prune, hop, hprune, reachable_prunesBounded hs prune hprune, by lia, hdecided, by lia⟩

def observation (msgId : String) : Message where
  msgId := msgId
  fromAgent := "coordinator"
  toAgent := "*"
  topic := "observation"
  payload := []
  ts := ⟨0⟩

def twoObservations : List BusOp :=
  [.append (observation "a"), .append (observation "b"), .readBound 1]

theorem twoObservations_pruned :
    exists s t, (busMachine plainSqlText).Reachable s ∧
      (busMachine plainSqlText).step s (.deleteOld ⟨2, 1⟩) = some t ∧
      (observation "a").toEvent .observation 1 ∈ s.events ∧
      ¬ (observation "a").toEvent .observation 1 ∈ t.events ∧ s.cursors "critic" = 0 := by
  have hrun : (busMachine plainSqlText).Run Machine.Always emptyBus twoObservations _ :=
    .cons trivial rfl (.cons trivial rfl (.cons trivial rfl (.nil _)))
  refine ⟨_, _, ⟨emptyBus, twoObservations, ⟨rfl, rfl, rfl⟩, hrun⟩, rfl,
    List.mem_cons_self, ?_, rfl⟩
  intro hmem
  have hkept := (mem_deleteOld.mp hmem).right
  exact absurd hkept (by decide)

theorem pruned_unread_only_beyond_window_two :
    exists s : BusState, (⟨2, 1⟩ : Prune) ∈ s.prunes ∧
      (1 ≤ s.cursors "critic" ∨ (s.cursors "critic" : Int) + 1 < 2) := by
  rcases twoObservations_pruned with ⟨s, t, hs, hstep, he, hgone, _⟩
  rcases pruned_unread_only_beyond_window plainSqlText s t _ "critic" _ hs hstep
    he hgone with ⟨prune, hop, hprune, _, _, _, hread⟩
  cases hop
  exact ⟨s, hprune, hread⟩

/-- The critic has read nothing when the first observation is deleted. -/
theorem unread_message_pruned :
    exists s t op e role, (busMachine plainSqlText).Reachable s ∧
      (busMachine plainSqlText).step s op = some t ∧ e ∈ s.events ∧
      ¬ e ∈ t.events ∧ deliverable role e = true ∧ s.cursors role < e.seq := by
  rcases twoObservations_pruned with ⟨s, t, hs, hstep, he, hgone, hcursor⟩
  refine ⟨s, t, _, _, "critic", hs, hstep, he, hgone, by decide, ?_⟩
  rw [hcursor]
  decide

end Bus
end Hyperloom
