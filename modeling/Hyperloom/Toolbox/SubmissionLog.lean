import Hyperloom.Library.LineFile
import Hyperloom.Library.Machine
import Mathlib.Data.Rat.Encodable
import Mathlib.Tactic.DeriveCountable

/-!
# The submit log

What survives a restart of the toolbox: an append-only file of JSON lines.  A
request is logged before the blackboard hears of it, its outcome before the
blackboard is written, and it is settled once the blackboard holds it.  The
documents of requests and outcomes are a parameter, as is the digest that
makes a request id of a branch and a sequence number.
-/

namespace Hyperloom
namespace Toolbox

open Library

/-!
## Entries and records
-/

structure LogEntry (δ : Type) where
  requestId : String
  branch : String
  sequence : Nat
  request : δ
  priority : Int
  queuedAt : Rat
  outcome : Option δ := none
  settled : Bool := false
  aborted : Bool := false
  recipeDigest : String := ""
deriving DecidableEq

def LogEntry.waiting {δ : Type} (entry : LogEntry δ) : Bool :=
  entry.outcome.isNone && !entry.aborted

def LogEntry.unwritten {δ : Type} (entry : LogEntry δ) : Bool :=
  entry.outcome.isSome && !entry.settled && !entry.aborted

inductive LogRecord (δ : Type) where
  | accepted (requestId branch : String) (sequence : Nat) (request : δ)
    (priority : Int) (queuedAt : Rat) (recipeDigest : String)
  | outcome (requestId : String) (outcome : δ)
  | settled (requestId : String)
  | aborted (requestId : String)
deriving DecidableEq, Countable

namespace LogRecord

variable {δ : Type}

def kind : LogRecord δ -> String
  | .accepted _ _ _ _ _ _ _ => "accepted"
  | .outcome _ _ => "outcome"
  | .settled _ => "settled"
  | .aborted _ => "aborted"

def requestId : LogRecord δ -> String
  | .accepted requestId _ _ _ _ _ _ => requestId
  | .outcome requestId _ => requestId
  | .settled requestId => requestId
  | .aborted requestId => requestId

end LogRecord

/-- The entries by request id, in the order they were accepted, and the last
number handed out of each branch. -/
structure SubmissionLog (δ : Type) where
  entries : List (LogEntry δ) := []
  sequences : String -> Nat := fun _ => 0

namespace SubmissionLog

variable {δ : Type} (log : SubmissionLog δ) (requestId : String)

def get : Option (LogEntry δ) :=
  log.entries.find? fun entry => entry.requestId = requestId

def put (entry : LogEntry δ) : SubmissionLog δ :=
  { log with entries :=
      if (log.get entry.requestId).isSome then
        log.entries.map fun old =>
          if old.requestId = entry.requestId then entry else old
      else log.entries ++ [entry] }

def useNumber (branch : String) (sequence : Nat) : SubmissionLog δ :=
  { log with sequences := fun other =>
      if other = branch then sequence else log.sequences other }

variable (f : LogEntry δ -> LogEntry δ)

def modify : Option (SubmissionLog δ) :=
  match log.get requestId with
  | none => none
  | some _ => some { log with entries := log.entries.map fun entry =>
    if entry.requestId = requestId then f entry else entry }

/-!
## The calls

Each changes the entries in memory first and then appends its record; a call
for an id that is not in memory raises `KeyError` and appends nothing.
-/

/-- `next_sequence` and `accept`, as `submit_test` calls them. -/
def accept (ids : String -> Nat -> String) (log : SubmissionLog δ)
    (branch : String) (request : δ) (priority : Int) (queuedAt : Rat)
    (recipeDigest : String) : LogRecord δ × SubmissionLog δ :=
  let sequence := log.sequences branch + 1
  let requestId := ids branch sequence
  (.accepted requestId branch sequence request priority queuedAt recipeDigest,
    (log.useNumber branch sequence).put
      { requestId := requestId, branch := branch, sequence := sequence,
        request := request, priority := priority, queuedAt := queuedAt,
        recipeDigest := recipeDigest })

def recordOutcome (outcome : δ) : Option (LogRecord δ × SubmissionLog δ) :=
  (log.modify requestId fun entry =>
    { entry with outcome := some outcome }).map fun log => (.outcome requestId outcome, log)

def settle : Option (LogRecord δ × SubmissionLog δ) :=
  (log.modify requestId fun entry => { entry with settled := true }).map
    fun log => (.settled requestId, log)

def abort : Option (LogRecord δ × SubmissionLog δ) :=
  (log.modify requestId fun entry => { entry with aborted := true }).map
    fun log => (.aborted requestId, log)

/-!
## Reading back
-/

/-- What a record does; `none` for a record of an unlogged request. -/
def applyRecord : LogRecord δ -> Option (SubmissionLog δ)
  | .accepted requestId branch sequence request priority queuedAt recipeDigest =>
    some ((log.useNumber branch (max (log.sequences branch) sequence)).put
      { requestId := requestId, branch := branch, sequence := sequence,
        request := request, priority := priority, queuedAt := queuedAt,
        recipeDigest := recipeDigest })
  | .outcome requestId outcome =>
    log.modify requestId fun entry => { entry with outcome := some outcome }
  | .settled requestId =>
    log.modify requestId fun entry => { entry with settled := true }
  | .aborted requestId =>
    log.modify requestId fun entry => { entry with aborted := true }

def apply (path : String) (number : Nat) (log : SubmissionLog δ)
    (record : LogRecord δ) : Except String (SubmissionLog δ) :=
  match log.applyRecord record with
  | some log => .ok log
  | none => .error (path ++ ":" ++ toString number ++ ": " ++ record.kind ++
    " entry for the unlogged request " ++ record.requestId)

/-- `_replay` over the lines from the given number on; a line that does not
read back is skipped. -/
def replayLines (format : LineFormat (LogRecord δ)) (path : String) :
    Nat -> List Text -> SubmissionLog δ -> Except String (SubmissionLog δ)
  | _, [], log => .ok log
  | number, line :: rest, log =>
    match format.parse line with
    | none => replayLines format path (number + 1) rest log
    | some record =>
      match log.apply path number record with
      | .error message => .error message
      | .ok log => replayLines format path (number + 1) rest log

def replay (format : LineFormat (LogRecord δ)) (path : String) (file : Text) :
    Except String (SubmissionLog δ) :=
  replayLines format path 1 (completeLines file) {}

def applyAll (log : SubmissionLog δ) : List (LogRecord δ) -> Option (SubmissionLog δ)
  | [] => some log
  | record :: rest =>
    match log.applyRecord record with
    | none => none
    | some log => log.applyAll rest

variable {log next last : SubmissionLog δ} {requestId path : String}
  {format : LineFormat (LogRecord δ)}

theorem applyAll_append (first second : List (LogRecord δ)) :
    log.applyAll (first ++ second) = (log.applyAll first).bind fun log => log.applyAll second := by
  induction first generalizing log with
  | nil => rfl
  | cons record rest ih =>
    rw [List.cons_append, applyAll, applyAll]
    cases log.applyRecord record with
    | none => rfl
    | some next => exact ih

theorem replayLines_eq_ok {number : Nat} {lines : List Text}
    (h : log.applyAll (lines.filterMap format.parse) = some last) :
    replayLines format path number lines log = .ok last := by
  induction lines generalizing number log with
  | nil => exact congrArg Except.ok (Option.some.inj h)
  | cons line rest ih =>
    rw [replayLines]
    cases hparse : format.parse line with
    | none =>
      rw [List.filterMap_cons_none hparse] at h
      exact ih h
    | some record =>
      rw [List.filterMap_cons_some hparse, applyAll] at h
      cases happly : log.applyRecord record with
      | none =>
        rw [happly] at h
        cases h
      | some next =>
        rw [happly] at h
        simp only [SubmissionLog.apply, happly]
        exact ih h

theorem replay_eq_ok {file : Text} (h : applyAll {} (format.records file) = some log) :
    replay format path file = .ok log :=
  replayLines_eq_ok h

/-!
## Logged requests
-/

def Has (log : SubmissionLog δ) (requestId : String) : Prop :=
  exists entry, entry ∈ log.entries ∧ entry.requestId = requestId

theorem get_isSome_iff : (log.get requestId).isSome = true <-> log.Has requestId := by
  simp [get, Has]

theorem modify_isSome (h : log.Has requestId) : (log.modify requestId f).isSome = true := by
  rcases Option.isSome_iff_exists.mp (get_isSome_iff.mpr h) with ⟨entry, hentry⟩
  rw [modify, hentry]
  rfl

theorem has_of_put {entry : LogEntry δ} (h : log.Has requestId ∨ entry.requestId = requestId) :
    (log.put entry).Has requestId := by
  unfold put Has
  split
  · rename_i hold
    rcases get_isSome_iff.mp hold with ⟨mine, hmine, hid⟩
    rcases h with ⟨found, hfound, hfoundId⟩ | hnew
    · refine ⟨if found.requestId = entry.requestId then entry else found,
        List.mem_map.mpr ⟨found, hfound, rfl⟩, ?_⟩
      split
      · rename_i heq
        rw [← heq, hfoundId]
      · exact hfoundId
    · exact ⟨entry, List.mem_map.mpr ⟨mine, hmine, if_pos hid⟩, hnew⟩
  · rcases h with ⟨found, hfound, hfoundId⟩ | hnew
    · exact ⟨found, List.mem_append_left _ hfound, hfoundId⟩
    · exact ⟨entry, by simp, hnew⟩

theorem has_of_modify {changed : String} {f : LogEntry δ -> LogEntry δ}
    (h : log.modify changed f = some next)
    (hf : forall entry, (f entry).requestId = entry.requestId) (hhas : log.Has requestId) :
    next.Has requestId := by
  unfold modify at h
  split at h
  · cases h
  · cases h
    rcases hhas with ⟨found, hfound, hid⟩
    refine ⟨if found.requestId = changed then f found else found,
      List.mem_map.mpr ⟨found, hfound, rfl⟩, ?_⟩
    split
    · rw [hf, hid]
    · exact hid

theorem has_of_applyRecord {record : LogRecord δ} (h : log.applyRecord record = some next)
    (hhas : log.Has requestId) : next.Has requestId := by
  cases record with
  | accepted id branch sequence request priority queuedAt digest =>
    cases h
    exact has_of_put (Or.inl hhas)
  | _ => exact has_of_modify h (fun _ => rfl) hhas

variable (records : List (LogRecord δ))

def Logged (requestId : String) : Prop :=
  exists branch sequence request priority queuedAt digest,
    LogRecord.accepted requestId branch sequence request priority queuedAt digest ∈ records

/-- The branch's number, or a later one, stands on an accepted line. -/
def Numbered (branch : String) (number : Nat) : Prop :=
  exists requestId sequence request priority queuedAt digest, number ≤ sequence ∧
    LogRecord.accepted requestId branch sequence request priority queuedAt digest ∈ records

section

variable {P : SubmissionLog δ -> Prop} {records : List (LogRecord δ)}
  (hkeep : forall (log : SubmissionLog δ) record next,
    log.applyRecord record = some next -> P log -> P next)

include hkeep

theorem applyAll_keeps (hlog : P log) (h : log.applyAll records = some last) : P last := by
  induction records generalizing log with
  | nil =>
    cases h
    exact hlog
  | cons record rest ih =>
    rw [applyAll] at h
    cases happly : log.applyRecord record with
    | none =>
      rw [happly] at h
      cases h
    | some next =>
      rw [happly] at h
      exact ih (hkeep log record next happly hlog) h

/-- What a record brings about and no record undoes holds once all are
applied. -/
theorem applyAll_of_mem {record : LogRecord δ} (hmem : record ∈ records)
    (hrecord : forall log next : SubmissionLog δ, log.applyRecord record = some next -> P next)
    (h : log.applyAll records = some last) : P last := by
  rcases List.append_of_mem hmem with ⟨before, after, rfl⟩
  rw [applyAll_append] at h
  rcases Option.bind_eq_some_iff.mp h with ⟨middle, _, hrest⟩
  rw [applyAll] at hrest
  cases happly : middle.applyRecord record with
  | none =>
    rw [happly] at hrest
    cases hrest
  | some next =>
    rw [happly] at hrest
    exact applyAll_keeps hkeep (hrecord middle next happly) hrest

end

theorem has_of_logged {records : List (LogRecord δ)} (hlogged : Logged records requestId)
    (h : log.applyAll records = some last) : last.Has requestId := by
  rcases hlogged with ⟨branch, sequence, request, priority, queuedAt, digest, hmem⟩
  refine applyAll_of_mem (fun _ _ _ => has_of_applyRecord) hmem ?_ h
  intro log next happly
  cases happly
  exact has_of_put (Or.inr rfl)

theorem sequences_of_modify {f : LogEntry δ -> LogEntry δ}
    (h : log.modify requestId f = some next) : next.sequences = log.sequences := by
  unfold modify at h
  split at h
  · cases h
  · cases h
    rfl

theorem sequences_of_applyRecord {record : LogRecord δ} (h : log.applyRecord record = some next)
    (branch : String) : log.sequences branch ≤ next.sequences branch := by
  cases record with
  | accepted id name sequence request priority queuedAt digest =>
    cases h
    dsimp only [put, useNumber]
    split
    · rename_i hname
      rw [hname]
      exact Nat.le_max_left _ _
    · exact Nat.le_refl _
  | _ => exact Nat.le_of_eq (congrFun (sequences_of_modify h).symm branch)

theorem le_sequences_of_numbered {records : List (LogRecord δ)} {branch : String} {number : Nat}
    (hnumbered : Numbered records branch number) (h : log.applyAll records = some last) :
    number ≤ last.sequences branch := by
  rcases hnumbered with ⟨id, sequence, request, priority, queuedAt, digest, hle, hmem⟩
  refine applyAll_of_mem (P := fun log => number ≤ log.sequences branch) ?_ hmem ?_ h
  · intro log record next happly hlog
    exact hlog.trans (sequences_of_applyRecord happly branch)
  · intro log next happly
    cases happly
    dsimp only [put, useNumber]
    rw [if_pos rfl]
    exact hle.trans (Nat.le_max_right _ _)

end SubmissionLog

/-!
## A log under failing writes and crashes
-/

/-- How an append ends: it returns, it raises after a prefix of its line
reached the file, or the process dies there. -/
inductive AppendEnd where
  | returned
  | failed (count : Nat)
  | crashed (count : Nat)
deriving DecidableEq

def AppendEnd.written (ending : AppendEnd) (line : Text) : Text :=
  match ending with
  | .returned => line
  | .failed count => line.take count
  | .crashed count => line.take count

/-- The file, the log of the running process, every append so far with whether
it returned, and the numbers handed out. -/
structure LogState (δ : Type) where
  file : Text := []
  process : Option (SubmissionLog δ) := none
  writes : List (LogRecord δ × Bool) := []
  handed : List (String × Nat) := []

inductive LogOp (δ : Type) where
  | accept (branch : String) (request : δ) (priority : Int) (queuedAt : Rat)
    (recipeDigest : String) (ending : AppendEnd)
  | recordOutcome (requestId : String) (outcome : δ) (ending : AppendEnd)
  | settle (requestId : String) (ending : AppendEnd)
  | abort (requestId : String) (ending : AppendEnd)
  | crash
  | restart

section

variable {δ : Type} (format : LineFormat (LogRecord δ))

/-- `_append` of a record by a process whose log is then `log`. -/
def LogState.append (s : LogState δ)
    (ending : AppendEnd) : LogRecord δ × SubmissionLog δ -> LogState δ
  | (record, log) =>
    { s with
      file := s.file ++ ending.written (format.line record)
      process := match ending with
        | .returned => some log
        | .failed _ => some log
        | .crashed _ => none
      writes := s.writes ++ [(record, decide (ending = .returned))] }

/-- `complete_lines` cuts the file before a line of it is applied. -/
def LogState.restart (path : String) (s : LogState δ) : LogState δ :=
  { s with
    file := wholeLines s.file
    process := match SubmissionLog.replay format path s.file with
      | .ok log => some log
      | .error _ => none }

variable (format : LineFormat (LogRecord δ)) (path : String) (ids : String -> Nat -> String)

variable (s : LogState δ)

def logStep : LogOp δ -> Option (LogState δ)
  | .accept branch request priority queuedAt recipeDigest ending =>
    match s.process with
    | none => none
    | some log =>
      some ({ s with
          handed := s.handed ++ [(branch, log.sequences branch + 1)]
        }.append format ending (log.accept ids branch request priority queuedAt recipeDigest))
  | .recordOutcome requestId outcome ending =>
    match s.process with
    | none => none
    | some log =>
      (log.recordOutcome requestId outcome).map (s.append format ending)
  | .settle requestId ending =>
    match s.process with
    | none => none
    | some log => (log.settle requestId).map (s.append format ending)
  | .abort requestId ending =>
    match s.process with
    | none => none
    | some log => (log.abort requestId).map (s.append format ending)
  | .crash => some { s with process := none }
  | .restart =>
    match s.process with
    | some _ => none
    | none => some (s.restart format path)

/-- Reading the file back has exactly the effect of the records whose append
returned and of some of those whose append did not, and no number of a branch
was handed out twice. -/
def LogState.Kept : Prop :=
  (exists kept log, Survives s.writes kept ∧ SubmissionLog.replay format path s.file = .ok log ∧
    SubmissionLog.applyAll {} kept = some log) ∧ s.handed.Nodup

/-- An append starts a line of its own, and what it says of a request comes
after the request's accepted line; a process starts when every number handed
out, or a later one of its branch, is on an accepted line of the file. -/
def LogState.Orderly : LogOp δ -> Prop
  | .accept _ _ _ _ _ _ => tornTail s.file = []
  | .recordOutcome requestId _ _ =>
    tornTail s.file = [] ∧ SubmissionLog.Logged (format.records s.file) requestId
  | .settle requestId _ =>
    tornTail s.file = [] ∧ SubmissionLog.Logged (format.records s.file) requestId
  | .abort requestId _ =>
    tornTail s.file = [] ∧ SubmissionLog.Logged (format.records s.file) requestId
  | .crash => True
  | .restart => forall used, used ∈ s.handed ->
    SubmissionLog.Numbered (format.records s.file) used.1 used.2

/-- The records on the file are what survives of the appends and have an
effect, and the running process is past every number handed out. -/
structure LogState.Sound (s : LogState δ) : Prop where
  survives : Survives s.writes (format.records s.file)
  effect : exists log, SubmissionLog.applyAll {} (format.records s.file) = some log
  distinct : s.handed.Nodup
  past : forall log, s.process = some log ->
    forall used, used ∈ s.handed -> used.2 ≤ log.sequences used.1

variable {format path ids} {s t : LogState δ} {log next : SubmissionLog δ} {requestId : String}
  {f : LogEntry δ -> LogEntry δ} {record : LogRecord δ} {ending : AppendEnd}

theorem LogState.Sound.append (hs : s.Sound format) (hwhole : tornTail s.file = [])
    (happly : forall before, SubmissionLog.applyAll {} (format.records s.file) =
      some before -> (before.applyRecord record).isSome = true)
    (hpast : forall used, used ∈ s.handed -> used.2 ≤ log.sequences used.1) :
    (s.append format ending (record, log)).Sound format := by
  have hpastNext : forall next, (s.append format ending (record, log)).process = some next ->
      forall used, used ∈ s.handed -> used.2 ≤ next.sequences used.1 := by
    intro next hnext
    cases ending with
    | crashed count => cases hnext
    | _ =>
      cases hnext
      exact hpast
  have hpart : ending.written (format.line record) <+: format.line record := by
    cases ending with
    | returned => exact List.prefix_rfl
    | failed count | crashed count => exact List.take_prefix count _
  have hcases := LineFormat.prefix_line_cases hpart
  have hfile : (s.append format ending (record, log)).file =
      s.file ++ ending.written (format.line record) := rfl
  have hwrites : (s.append format ending (record, log)).writes =
      s.writes ++ [(record, decide (ending = .returned))] := rfl
  by_cases hall : ending.written (format.line record) = format.line record
  · -- The whole line is there, acknowledged or not.
    rw [hall] at hfile
    constructor
    · rw [hfile, LineFormat.records_append_line hwhole]
      exact hs.survives.append (Survives.keep record _ Survives.nil)
    · rcases hs.effect with ⟨before, hbefore⟩
      rcases Option.isSome_iff_exists.mp (happly before hbefore) with ⟨after, hafter⟩
      refine ⟨after, ?_⟩
      rw [hfile, LineFormat.records_append_line hwhole,
        SubmissionLog.applyAll_append, hbefore, Option.bind_some, SubmissionLog.applyAll, hafter]
      rfl
    · exact hs.distinct
    · exact hpastNext
  · have hproper : ending.written (format.line record) <+: format.render record := by
      rcases hcases with hpartial | heq
      · exact hpartial
      · exact absurd heq hall
    have hnot : decide (ending = .returned) = false := by
      apply decide_eq_false
      intro heq
      rw [heq] at hall
      exact hall rfl
    constructor
    · rw [hfile, hwrites, LineFormat.records_append_part hproper, hnot]
      have hdrop := hs.survives.append (Survives.drop record Survives.nil)
      rwa [List.append_nil] at hdrop
    · rw [hfile, LineFormat.records_append_part hproper]
      exact hs.effect
    · exact hs.distinct
    · exact hpastNext

/-- The shape of the calls that change a logged entry. -/
theorem LogState.Sound.modify (hs : s.Sound format)
    (hprocess : s.process = some log) (hwhole : tornTail s.file = [])
    (hlogged : SubmissionLog.Logged (format.records s.file) requestId)
    (hrecord : forall before : SubmissionLog δ,
      before.applyRecord record = before.modify requestId f)
    (h : ((log.modify requestId f).map fun log => (record, log)).map
      (s.append format ending) = some t) : t.Sound format := by
  rcases Option.map_eq_some_iff.mp h with ⟨pair, hpair, rfl⟩
  rcases Option.map_eq_some_iff.mp hpair with ⟨next, hnext, rfl⟩
  apply hs.append hwhole
  · intro before hbefore
    rw [hrecord]
    exact SubmissionLog.modify_isSome f (SubmissionLog.has_of_logged hlogged hbefore)
  · rw [SubmissionLog.sequences_of_modify hnext]
    exact hs.past log hprocess

theorem LogState.Sound.step {op : LogOp δ} (hs : s.Sound format)
    (horderly : s.Orderly format op) (h : logStep format path ids s op = some t) :
    t.Sound format := by
  revert h
  fun_cases logStep format path ids s op with (intro h; try cases h)
  | case2 branch request priority queuedAt digest ending log hprocess =>
    have hpast := hs.past log hprocess
    -- The next number is above every number of its branch.
    have hfresh : (branch, log.sequences branch + 1) ∉ s.handed := by
      intro hmem
      have hle := hpast _ hmem
      lia
    have hhanded : LogState.Sound format
        { s with process := none, handed := s.handed ++ [(branch, log.sequences branch + 1)] } := by
      refine ⟨hs.survives, hs.effect, ?_, nofun⟩
      rw [List.nodup_append]
      refine ⟨hs.distinct, by simp, ?_⟩
      intro used hused new hnew heq
      rw [List.mem_singleton.mp hnew] at heq
      exact hfresh (heq ▸ hused)
    apply hhanded.append horderly
    · intro before _
      rfl
    · intro used hused
      dsimp only [SubmissionLog.put, SubmissionLog.useNumber]
      rcases mem_concat.mp hused with hold | rfl
      · have hle := hpast used hold
        split
        · rename_i hbranch
          lia
        · exact hle
      · simp
  | case4 _ _ _ log hprocess | case6 _ _ log hprocess | case8 _ _ log hprocess =>
    exact hs.modify hprocess horderly.left horderly.right (fun _ => rfl) h
  | case9 => exact { hs with past := nofun }
  | case11 =>
    rcases hs.effect with ⟨log, heffect⟩
    have hreplay : SubmissionLog.replay format path s.file = .ok log :=
      SubmissionLog.replay_eq_ok heffect
    have hrecords : format.records (wholeLines s.file) =
        format.records s.file := LineFormat.records_wholeLines
    refine ⟨?_, ?_, hs.distinct, ?_⟩
    · dsimp only [LogState.restart]
      rw [hrecords]
      exact hs.survives
    · refine ⟨log, ?_⟩
      dsimp only [LogState.restart]
      rw [hrecords]
      exact heffect
    · intro next hnext used hused
      dsimp only [LogState.restart] at hnext
      rw [hreplay] at hnext
      cases hnext
      exact SubmissionLog.le_sequences_of_numbered (horderly used hused) heffect

end

/-!
## A record run into a torn line
-/

end Toolbox
end Hyperloom
