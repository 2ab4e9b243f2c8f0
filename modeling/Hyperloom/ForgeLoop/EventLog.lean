import Mathlib.Tactic.DeriveCountable
import Hyperloom.Library.LineFile
import Hyperloom.Library.Machine

/-!
# The event log of a campaign

`events.jsonl` has a line for every event.  An append may be cut after any part
of its line, by a kill or by an error the loop goes on after, and no append
looks at how the file ends.
-/

namespace Hyperloom
namespace ForgeLoop

open Library

variable {δ : Type}

/-- An event as `read_events` looks at it: its `type` where that is a text, its
`iter` where that is an `int`, and the rest. -/
structure LoopEvent (δ : Type) where
  type : Option String
  iter : Option Int
  detail : δ
deriving DecidableEq, Countable

def LoopEvent.valid (event : LoopEvent δ) : Bool :=
  event.type.any (· ≠ "") && event.iter.any (0 ≤ ·)

inductive AppendEnd where
  | returned
  | failed
  | killed
deriving DecidableEq

/-- A call of `append_event`: the part of its line that reached the file, and
how the call ended. -/
structure EventAppend (δ : Type) where
  event : LoopEvent δ
  part : Text
  ending : AppendEnd
deriving DecidableEq

structure EventLog (δ : Type) where
  file : Text := []
  appends : List (EventAppend δ) := []

section

variable (format : LineFormat (LoopEvent δ))

def appendEvent (log : EventLog δ) (append : EventAppend δ) : Option (EventLog δ) :=
  if append.part <+: format.line append.event ∧
      (append.ending = .returned -> append.part = format.line append.event) then
    some ⟨log.file ++ append.part, log.appends ++ [append]⟩
  else none

/-- `read_events`; the last line is read whether it has ended or not. -/
def readEvents (log : EventLog δ) : List (LoopEvent δ) :=
  (format.rows log.file).filter LoopEvent.valid

def eventMachine : Machine (EventLog δ) (EventAppend δ) where
  init log := log = {}
  step := appendEvent format

/-- All of the event's line is on the file, but perhaps its newline. -/
def EventAppend.landed (append : EventAppend δ) : Bool :=
  decide (format.render append.event <+: append.part)

end

/-- What is appended starts a line of its own. -/
def StartsLine (log : EventLog δ) (append : EventAppend δ) : Prop :=
  tornTail log.file = [] ∨ append.part = []

instance (log : EventLog δ) (append : EventAppend δ) : Decidable (StartsLine log append) :=
  inferInstanceAs (Decidable (_ ∨ _))

variable {format : LineFormat (LoopEvent δ)} {log next : EventLog δ} {append : EventAppend δ}

theorem event_render_ne_nil (event : LoopEvent δ) : format.render event ≠ [] := by
  have hother : event ≠ { event with iter := event.iter.elim (some 0) fun _ => none } := by
    intro heq
    have hiter := congrArg LoopEvent.iter heq
    cases h : event.iter with
    | none | some => simp [h] at hiter
  exact LineFormat.render_ne_nil hother

theorem appendEvent_eq_some (h : appendEvent format log append = some next) :
    append.part <+: format.line append.event ∧
      (append.ending = .returned -> append.part = format.line append.event) ∧
      next = ⟨log.file ++ append.part, log.appends ++ [append]⟩ := by
  rcases Option.ite_none_right_eq_some.mp h with ⟨hpart, hnext⟩
  exact ⟨hpart.1, hpart.2, (Option.some.inj hnext).symm⟩

structure Records (format : LineFormat (LoopEvent δ)) (log : EventLog δ) : Prop where
  rows : format.rows log.file = (log.appends.filter (·.landed format)).map (·.event)
  returned : forall append, append ∈ log.appends -> append.ending = .returned ->
    append.landed format = true

theorem rows_append (hwhole : tornTail log.file = [])
    (hpart : append.part <+: format.line append.event) :
    format.rows (log.file ++ append.part) =
      format.rows log.file ++ if append.landed format then [append.event] else [] := by
  rw [LineFormat.rows_of_whole hwhole]
  rcases LineFormat.prefix_line_cases hpart with hcut | hline
  · have htail : tornTail (log.file ++ append.part) = append.part := by
      rw [tornTail_append_plain (LineFormat.plain_of_part hcut), hwhole, List.nil_append]
    rw [LineFormat.rows, LineFormat.records_append_part hcut, htail]
    by_cases hall : append.part = format.render append.event
    · have hlanded : append.landed format = true := by simp [EventAppend.landed, hall]
      rw [hlanded, hall, if_neg (event_render_ne_nil _), format.parse_render]
      rfl
    · have hlanded : append.landed format = false := by
        simp only [EventAppend.landed, decide_eq_false_iff_not]
        intro hback
        exact hall (hcut.eq_of_length (Nat.le_antisymm hcut.length_le hback.length_le))
      rw [hlanded, format.parse_cut _ _ hcut hall]
      simp
  · have hlanded : append.landed format = true := by
      simp [EventAppend.landed, hline, LineFormat.line]
    rw [hlanded, hline, LineFormat.rows_of_whole (LineFormat.tornTail_line _),
      LineFormat.records_append_line hwhole]
    rfl

theorem Records.step (h : Records format log) (hstarts : StartsLine log append)
    (hstep : appendEvent format log append = some next) : Records format next := by
  rcases appendEvent_eq_some hstep with ⟨hpart, hreturned, rfl⟩
  have hlanded : append.ending = .returned -> append.landed format = true := by
    intro hending
    simp [EventAppend.landed, hreturned hending, LineFormat.line]
  refine ⟨?_, ?_⟩
  · rw [List.filter_append, List.map_append, ← h.rows]
    rcases hstarts with hwhole | hnone
    · rw [rows_append hwhole hpart]
      cases hland : append.landed format with
      | _ => simp [hland]
    · have hno : append.landed format = false := by
        simp [EventAppend.landed, hnone, event_render_ne_nil]
      simp [hnone, hno]
  · intro other hother hending
    rcases mem_concat.mp hother with hold | rfl
    · exact h.returned other hold hending
    · exact hlanded hending

/-- Where every append starts a line of its own, the events read are the valid
ones that landed, in order; those whose append returned are among them. -/
theorem acknowledged_events_read (hs : (eventMachine format).ReachableWhere StartsLine log) :
    readEvents format log =
        ((log.appends.filter (·.landed format)).map (·.event)).filter LoopEvent.valid ∧
      forall append, append ∈ log.appends -> append.ending = .returned ->
        append.landed format = true := by
  have hrecords : Records format log := by
    refine hs.invariant ?_ ?_
    · intro start hstart
      rw [hstart]
      exact ⟨rfl, nofun⟩
    · intro log append next h hstarts hstep
      exact h.step hstarts hstep
  exact ⟨congrArg _ hrecords.rows, hrecords.returned⟩

def iterationResult (iteration : Int) : LoopEvent Unit :=
  ⟨some "iteration_result", some iteration, ()⟩

section

variable (format : LineFormat (LoopEvent Unit))

/-- The first character of a line, and the append is killed. -/
def tornAppend : EventAppend Unit :=
  ⟨iterationResult 1, (format.render (iterationResult 1)).take 1, .killed⟩

def wholeAppend : EventAppend Unit :=
  ⟨iterationResult 2, format.line (iterationResult 2), .returned⟩

end

/-- An event that was acknowledged before a torn line is read. -/
theorem event_before_torn_line_read :
    exists (format : LineFormat (LoopEvent Unit)) (log : EventLog Unit),
      (eventMachine format).ReachableWhere StartsLine log ∧
        log.appends = [wholeAppend format, tornAppend format] ∧
        iterationResult 2 ∈ readEvents format log := by
  let format := LineFormat.numbering [iterationResult 1, iterationResult 2]
  rcases Machine.ReachableWhere.exists_of_runIf (M := eventMachine format) (C := StartsLine)
    (P := fun log => log.appends = [wholeAppend format, tornAppend format]) {}
    [wholeAppend format, tornAppend format] rfl (by decide +kernel) with ⟨log, hs, hlog⟩
  refine ⟨format, log, hs, hlog, ?_⟩
  have ⟨hread, hlanded⟩ := acknowledged_events_read hs
  rw [hlog] at hread hlanded
  rw [hread, List.mem_filter]
  refine ⟨List.mem_map_of_mem (List.mem_filter.mpr ⟨List.mem_cons_self, ?_⟩), rfl⟩
  exact hlanded _ List.mem_cons_self rfl

/-- An event whose append returned after a torn line is not read. -/
theorem event_after_torn_line_lost :
    exists (format : LineFormat (LoopEvent Unit)) (log : EventLog Unit),
      (eventMachine format).Reachable log ∧ wholeAppend format ∈ log.appends ∧
        readEvents format log = [] := by
  let format := LineFormat.numbering [iterationResult 1, iterationResult 2]
  rcases Machine.Reachable.exists_of_runIf (M := eventMachine format)
    (P := fun log => wholeAppend format ∈ log.appends ∧ readEvents format log = []) {}
    [tornAppend format, wholeAppend format] rfl (by decide +kernel) with ⟨log, hlog⟩
  exact ⟨format, log, hlog⟩

end ForgeLoop
end Hyperloom
