import Hyperloom.Bus.MessageBus

/-!
# The inbox of a turn

A turn shows a role the messages after its cursor, oldest first, as far as a
character budget goes; the Critic also gets the pending proposals it has read
before.
-/

namespace Hyperloom
namespace Loop

open Library Bus

/-!
## Rendering
-/

def inboxPromptChars : Nat := 40000

/-- The loop of `_fit_to_budget` over the lines after the first. -/
def fitRest (budget : Nat) : Nat -> List String -> List String
  | _, [] => []
  | used, line :: rest =>
    if budget < used + (line.length + 1) then []
    else line :: fitRest budget (used + (line.length + 1)) rest

/-- `_fit_to_budget`: the leading lines that fit; the first is always kept,
clipped to the budget. -/
def fitToBudget (budget : Nat) : List String -> List String
  | [] => []
  | first :: rest =>
    let kept := String.ofList (first.toList.take budget)
    kept :: fitRest budget kept.length rest

def head (e : Event) : String :=
  "seq=" ++ toString e.seq ++ " " ++ (if e.msgId = "" then "" else "msg_id=" ++ e.msgId ++ " ") ++
    "from=" ++ e.fromAgent ++ " topic=" ++ e.topic.name

/-- How the rest of a line shows a payload to a role. -/
abbrev Details := String -> Event -> String

variable (details : Details) (role : String)

/-- One line of the inbox: `_format_inbox_event`, indented. -/
def inboxLine (e : Event) : String :=
  "  " ++ (head e ++ details role e)

/-- The loop of `_augment_critic_inbox_with_pending`: the pending proposals not
seen yet that the log still has. -/
def pendingExtras (events : EventLog) : List String -> List String -> List Event
  | _, [] => []
  | seen, pid :: rest =>
    if pid = "" ∨ pid ∈ seen then pendingExtras events seen rest
    else
      match lookupById events pid with
      | none => pendingExtras events seen rest
      | some e => e :: pendingExtras events (pid :: seen) rest

variable (events : EventLog)

def augmentCriticInboxWithPending (pending : List String) (unread : List Event) : List Event :=
  let extra := pendingExtras events (unread.map Event.msgId) pending
  if extra.isEmpty then unread
  else (unread ++ extra).insertionSort (fun a b => a.seq ≤ b.seq)

/-- What one rendering shows, and which of it was unread. -/
structure Turn where
  role : String
  shown : List Event
  read : List Event

def unreadFor (cursors : Cursors) (role : String) : List Event :=
  replayFor events role (cursors role) defaultEventsKeepRecent

def renderedFor (cursors : Cursors) (role : String) (pending : List String) : List Event :=
  if role = "critic" then
    augmentCriticInboxWithPending events pending (unreadFor events cursors role)
  else unreadFor events cursors role

variable (rendered : List Event)

def inboxLines : List String :=
  fitToBudget inboxPromptChars (rendered.map (inboxLine details role))

variable (events : EventLog) (cursors : Cursors)

def renderTurn (role : String) (pending : List String) : Turn :=
  let unread := unreadFor events cursors role
  let rendered := renderedFor events cursors role pending
  let shown := rendered.take (inboxLines details role rendered).length
  { role := role
    shown := shown
    read := shown.filter (fun e => e.msgId ∈ unread.map Event.msgId) }

/-!
## The budget

Every line has a header of its own, so a full page of `replay_for` never fits
the budget.
-/

theorem fitRest_length (budget least used : Nat) (lines : List String)
    (h : forall line, line ∈ lines -> least ≤ line.length) :
    (fitRest budget used lines).length * (least + 1) ≤ budget - used := by
  induction lines generalizing used with
  | nil =>
    rw [fitRest, List.length_nil, Nat.zero_mul]
    exact Nat.zero_le _
  | cons line rest ih =>
    rw [fitRest]
    split
    · rw [List.length_nil, Nat.zero_mul]
      exact Nat.zero_le _
    · have hline := h line List.mem_cons_self
      have hrest := ih (used + (line.length + 1))
        (fun other hother => h other (List.mem_cons_of_mem line hother))
      rw [List.length_cons]
      lia

theorem fitToBudget_length (budget least : Nat) (lines : List String)
    (h : forall line, line ∈ lines -> least ≤ line.length) :
    ((fitToBudget budget lines).length - 1) * (least + 1) ≤ budget := by
  cases lines with
  | nil =>
    rw [fitToBudget, List.length_nil, Nat.zero_mul]
    exact Nat.zero_le _
  | cons first rest =>
    have hrest := fitRest_length budget least (String.ofList (first.toList.take budget)).length rest
      (fun line hline => h line (List.mem_cons_of_mem first hline))
    show ((fitRest budget _ rest).length + 1 - 1) * (least + 1) ≤ budget
    exact hrest.trans (Nat.sub_le _ _)

theorem inboxLine_length (e : Event) : 9 ≤ (inboxLine details role e).length := by
  simp only [inboxLine, head, String.length_append]
  have hfrom : "from=".length = 5 := by decide
  have hseq : "seq=".length = 4 := by decide
  lia

theorem inboxLines_length :
    (inboxLines details role rendered).length < defaultEventsKeepRecent := by
  have hbound := fitToBudget_length inboxPromptChars 9 (rendered.map (inboxLine details role)) (by
      intro line hline
      rcases List.mem_map.mp hline with ⟨e, _, rfl⟩
      exact inboxLine_length details role e)
  have hchars : inboxPromptChars = 40000 := rfl
  have hrecent : defaultEventsKeepRecent = 5000 := rfl
  unfold inboxLines
  lia

/-!
## What a turn shows
-/

theorem mem_unreadFor {events : EventLog} {cursors : Cursors} {role : String}
    {e : Event} (h : e ∈ unreadFor events cursors role) :
    e ∈ events ∧ cursors role < e.seq ∧ deliverable role e = true := by
  have hfilter := List.mem_filter.mp (List.mem_of_mem_take h)
  rw [Bool.and_eq_true, decide_eq_true_eq] at hfilter
  exact hfilter

theorem pendingExtras_spec (seen pending : List String) :
    (forall e, e ∈ pendingExtras events seen pending -> e ∈ events ∧ ¬ e.msgId ∈ seen) ∧
    (pendingExtras events seen pending).Nodup := by
  induction pending generalizing seen with
  | nil =>
    exact ⟨fun e he => absurd he List.not_mem_nil, List.nodup_nil⟩
  | cons pid rest ih =>
    rw [pendingExtras]
    split
    · exact ih seen
    · rename_i hskip
      cases hfound : lookupById events pid with
      | none => exact ih seen
      | some e =>
        have hlookup := lookupById_eq_some hfound
        rcases ih (pid :: seen) with ⟨hmem, hnodup⟩
        constructor
        · intro other hother
          rcases List.mem_cons.mp hother with rfl | htail
          · rw [hlookup.right]
            exact ⟨hlookup.left, fun hseen => hskip (Or.inr hseen)⟩
          · rcases hmem other htail with ⟨hlogged, hnew⟩
            exact ⟨hlogged, fun hseen => hnew (List.mem_cons_of_mem pid hseen)⟩
        · refine List.nodup_cons.mpr ⟨?_, hnodup⟩
          intro htail
          apply (hmem e htail).right
          rw [hlookup.right]
          exact List.mem_cons_self

/-- Logged messages in order, as a list that holds given ones. -/
structure OrderedOver (events : EventLog) (unread rendered : List Event) : Prop where
  logged : forall e, e ∈ rendered -> e ∈ events
  ordered : rendered.Pairwise (fun a b => a.seq < b.seq)
  covers : forall e, e ∈ unread -> e ∈ rendered

theorem augment_orderedOver {events : EventLog} {unread : List Event}
    (pending : List String) (h : OrderedOver events unread unread) :
    OrderedOver events unread (augmentCriticInboxWithPending events pending unread) := by
  rcases pendingExtras_spec events (unread.map Event.msgId) pending with ⟨hextra, hnodup⟩
  unfold augmentCriticInboxWithPending
  dsimp only
  split
  · exact h
  have hlogged : forall e, e ∈ unread ++
      pendingExtras events (unread.map Event.msgId) pending -> e ∈ events := by
    intro e he
    rcases List.mem_append.mp he with hold | hnew
    · exact h.logged e hold
    · exact (hextra e hnew).left
  have hdistinct : (unread ++ pendingExtras events (unread.map Event.msgId) pending).Nodup := by
    refine List.nodup_append.mpr ⟨List.Nodup.of_map _ (SeqLog.nodup_seqs h.ordered), hnodup, ?_⟩
    intro a ha b hb heq
    apply (hextra b hb).right
    rw [← heq]
    exact List.mem_map_of_mem ha
  constructor
  · intro e he
    exact hlogged e ((List.mem_insertionSort _).mp he)
  · apply SeqLog.ordered_insertionSort
    apply List.Nodup.map_on _ hdistinct
    intro a ha b hb hseq
    exact SeqLog.eq_of_seq_eq (hlogged a ha) (hlogged b hb) hseq
  · intro e he
    exact (List.mem_insertionSort _).mpr (List.mem_append_left _ he)

theorem renderedFor_orderedOver (role : String) (pending : List String) :
    OrderedOver events (unreadFor events cursors role)
      (renderedFor events cursors role pending) := by
  have hunread : OrderedOver events (unreadFor events cursors role)
      (unreadFor events cursors role) := by
    constructor
    · intro e he
      exact (mem_unreadFor he).left
    · exact (events.log.ordered.filter _).sublist (List.take_sublist _ _)
    · intro e he
      exact he
  unfold renderedFor
  split
  · exact augment_orderedOver pending hunread
  · exact hunread

/-- A turn shows log entries in order, and with any message every unread one
before it; what it counts as read is what it shows of the unread. -/
structure Accurate (events : EventLog) (cursor : Nat) (turn : Turn) : Prop where
  ordered : turn.shown.Pairwise (fun a b => a.seq < b.seq)
  logged : forall e, e ∈ turn.shown -> e ∈ events
  upTo : forall a b, a ∈ events -> deliverable turn.role a = true ->
    cursor < a.seq -> b ∈ turn.shown -> a.seq ≤ b.seq -> a ∈ turn.shown
  read_iff : forall e, e ∈ turn.read <->
    e ∈ turn.shown ∧ deliverable turn.role e = true ∧ cursor < e.seq

theorem renderTurn_accurate (role : String) (pending : List String) :
    Accurate events (cursors role) (renderTurn details events cursors role pending) := by
  rcases renderedFor_orderedOver events cursors role pending with ⟨hlogged, hordered, hunread⟩
  have hfront : (renderTurn details events cursors role pending).shown <+:
      renderedFor events cursors role pending := List.take_prefix _ _
  have hshort : (renderTurn details events cursors role pending).shown.length <
      defaultEventsKeepRecent :=
    (List.length_take_le _ _).trans_lt (inboxLines_length details role _)
  -- what is shown never reaches past the page that was read from the log
  have hpage : forall a b, a ∈ events -> deliverable role a = true ->
      cursors role < a.seq -> b ∈ (renderTurn details events cursors role pending).shown ->
      a.seq ≤ b.seq -> a ∈ unreadFor events cursors role := by
    intro a b ha hdel hafter hb hle
    refine SeqLog.mem_page_of_mem_short (events.log.ordered.filter _) hordered
      hunread hfront hshort ?_ hb hle
    rw [List.mem_filter, Bool.and_eq_true, decide_eq_true_eq]
    exact ⟨ha, hafter, hdel⟩
  constructor
  · exact hordered.sublist hfront.sublist
  · intro e he
    exact hlogged e (hfront.subset he)
  · intro a b ha hdel hafter hb hle
    exact SeqLog.mem_of_isPrefix_of_le hordered hfront
      (hunread a (hpage a b ha hdel hafter hb hle)) hb hle
  · intro e
    refine List.mem_filter.trans (and_congr_right ?_)
    intro hshown
    rw [decide_eq_true_eq, List.mem_map]
    constructor
    · intro hread
      rcases hread with ⟨other, hother, hid⟩
      have hsame := EventLog.eq_of_msgId_eq (mem_unreadFor hother).left
        (hlogged e (hfront.subset hshown)) hid
      rw [hsame] at hother
      exact ⟨(mem_unreadFor hother).right.right, (mem_unreadFor hother).right.left⟩
    · intro hown
      exact ⟨e, hpage e e (hlogged e (hfront.subset hshown)) hown.left hown.right
        hshown (le_refl _), rfl⟩

end Loop
end Hyperloom
