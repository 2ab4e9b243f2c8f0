import Hyperloom.Library.SeqLog
import Hyperloom.Storage.Schema

/-!
# The message bus

The `events` table is an append-only log in which every message gets the next
sequence number.  A role reads the messages after its cursor that are addressed
to it, on topics it subscribes to, and that it did not send itself.
-/

namespace Hyperloom
namespace Bus

open Library Storage

/-!
## Topics and messages
-/

inductive Topic where
  | proposal
  | observation
  | event
  | decision
  | alert
  | delegatedResult
  | request
  | response
  | reviewVerdict
  | advice
  | strategyChange
deriving DecidableEq

namespace Topic

def name : Topic -> String
  | proposal => "proposal"
  | observation => "observation"
  | event => "event"
  | decision => "decision"
  | alert => "alert"
  | delegatedResult => "delegated_result"
  | request => "request"
  | response => "response"
  | reviewVerdict => "review_verdict"
  | advice => "advice"
  | strategyChange => "strategy_change"

def all : List Topic :=
  [proposal, observation, event, decision, alert, delegatedResult, request,
    response, reviewVerdict, advice, strategyChange]

def ofName? (text : String) : Option Topic := all.find? (fun topic => topic.name = text)

end Topic

/-- `ROLE_SUBSCRIPTIONS`; a role absent from it receives nothing. -/
def roleSubscriptions (role : String) : List Topic :=
  if role = "orchestration" then
    [.delegatedResult, .reviewVerdict, .observation, .event, .decision, .alert,
      .advice, .strategyChange, .response, .proposal]
  else if role = "critic" then
    [.proposal, .reviewVerdict, .advice, .delegatedResult, .observation]
  else []

structure Message where
  msgId : String
  fromAgent : String
  toAgent : String
  topic : String
  payload : Evidence
  inReplyTo : Option String := none
  ts : Iso

structure Event where
  seq : Nat
  msgId : String
  fromAgent : String
  toAgent : String
  topic : Topic
  payload : Evidence
  inReplyTo : Option String
  ts : Iso

def Message.toEvent (message : Message) (topic : Topic) (seq : Nat) : Event where
  seq := seq
  msgId := message.msgId
  fromAgent := message.fromAgent
  toAgent := message.toAgent
  topic := topic
  payload := message.payload
  inReplyTo := message.inReplyTo
  ts := message.ts

/-!
## The log
-/

/-- The `events` table: numbered rows without a repeated `msg_id`. -/
structure EventLog where
  log : SeqLog Event Event.seq
  unique : (log.rows.map Event.msgId).Nodup

variable {events : EventLog}

namespace EventLog

instance : Membership Event EventLog where
  mem events e := e ∈ events.log

def empty : EventLog where
  log := SeqLog.empty
  unique := List.nodup_nil

def rows (events : EventLog) : List Event := events.log.rows

theorem mem_rows {e : Event} : e ∈ events.rows <-> e ∈ events := Iff.rfl

theorem eq_of_msgId_eq {a b : Event} (ha : a ∈ events) (hb : b ∈ events)
    (h : a.msgId = b.msgId) : a = b :=
  List.inj_on_of_nodup_map events.unique ha hb h

end EventLog

inductive BusError where
  | unknownTopic (topic : String)
  | duplicateMsgId (msgId : String)
deriving DecidableEq

/-- `append_and_seq`: the assigned number and the longer log. -/
def appendAndSeq (events : EventLog) (message : Message) : Except BusError (Nat × EventLog) :=
  match Topic.ofName? message.topic with
  | none => .error (.unknownTopic message.topic)
  | some topic =>
    if h : message.msgId ∈ events.rows.map Event.msgId then
      .error (.duplicateMsgId message.msgId)
    else
      .ok (events.log.last + 1,
        { log := events.log.append (message.toEvent topic) (fun _ => rfl)
          unique := by
            show ((events.log.rows ++ _).map Event.msgId).Nodup
            rw [List.map_append, List.nodup_append]
            refine ⟨events.unique, List.nodup_singleton _, ?_⟩
            intro a ha b hb heq
            rw [heq, List.mem_singleton.mp hb] at ha
            exact h ha })

theorem appendAndSeq_ok {after : EventLog} {message : Message} {seq : Nat}
    (h : appendAndSeq events message = .ok (seq, after)) :
    exists topic, Topic.ofName? message.topic = some topic ∧
      after.rows = events.rows ++ [message.toEvent topic seq] ∧
      seq = events.log.last + 1 ∧ after.log.last = seq := by
  revert h
  fun_cases appendAndSeq events message with (intro h; cases h)
  | case3 topic htopic => exact ⟨topic, htopic, rfl, rfl, rfl⟩

/-!
## Readers
-/

/-- Whether `replay_for` delivers a message to a role. -/
def deliverable (role : String) (e : Event) : Bool :=
  (decide (e.toAgent = role) || decide (e.toAgent = "*")) &&
    (decide (e.fromAgent ≠ role) && decide (e.topic ∈ roleSubscriptions role))

def defaultEventsKeepRecent : Nat := 5000

section

variable (events : EventLog)

/-- `replay_for`: the first deliverable messages after a position. -/
def replayFor (role : String) (afterSeq : Nat) (limit : Nat) : List Event :=
  (events.rows.filter (fun e =>
    decide (afterSeq < e.seq) && deliverable role e)).take limit

/-- `tail` of one topic: the most recent messages, newest first. -/
def tail (topic : Topic) (n : Nat) : List Event :=
  ((events.rows.filter (fun e => e.topic = topic)).reverse).take n

def lookupById (msgId : String) : Option Event :=
  events.rows.find? (fun e => e.msgId = msgId)

end

theorem lookupById_eq_some {msgId : String} {e : Event}
    (h : lookupById events msgId = some e) : e ∈ events ∧ e.msgId = msgId :=
  ⟨List.mem_of_find?_eq_some h, by simpa using List.find?_some h⟩

/-!
## Cursors
-/

/-- The `cursors` table; a role without a row reads from zero. -/
abbrev Cursors := String -> Nat

variable (cursors : Cursors)

/-- `CursorStore.advance`: never moving backwards. -/
def advance (agent : String) (seq : Nat) : Cursors :=
  if seq ≤ cursors agent then cursors
  else fun other => if other = agent then seq else cursors other

variable (agent other : String)

theorem advance_apply (seq : Nat) : advance cursors agent seq other =
      if other = agent then max (cursors agent) seq else cursors other := by
  unfold advance
  by_cases hle : seq ≤ cursors agent
  · rw [if_pos hle, max_eq_left hle]
    split
    · rename_i heq
      rw [heq]
    · rfl
  · rw [if_neg hle, max_eq_right (Nat.le_of_not_le hle)]

theorem le_advance (seq : Nat) : cursors other ≤ advance cursors agent seq other := by
  rw [advance_apply]
  split
  · rename_i heq
    rw [heq]
    exact le_max_left _ _
  · exact le_refl _

end Bus
end Hyperloom
