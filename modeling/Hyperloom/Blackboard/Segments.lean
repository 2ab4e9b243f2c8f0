import Hyperloom.Library.LineFile
import Hyperloom.Blackboard.Claims
import Mathlib.Algebra.Order.Ring.Rat
import Mathlib.Data.Rat.Encodable
import Mathlib.Tactic.DeriveCountable

/-!
# Segments

Each blackboard handle is one writer and appends to a segment of its own.  An
append that fails partway is cut back off, and a writer that cannot tell how
its segment ends cuts a torn last line before it appends.  How a row is
written as a line is a format; the stored detail is a parameter.  The
modification time that a change gives the file is the file system's choice.
-/

namespace Hyperloom
namespace Blackboard

open Library

deriving instance Countable for Role

inductive EntryKind where
  | request
  | result
  | withdrawal
  | judgement
  | mergeAttempt
  | lineage
  | baseline
  | regression
  | quarantine
  | branchLog
  | learning
  | toolResult
  | claim
  | sessionProfile
  | manifest
  | llmUsage
  | agentManifest
  | build
  | leaseStart
  | leaseEnd
  | agentMap
deriving DecidableEq, Countable

/-- One immutable blackboard row; `time` is its `at`. -/
structure Entry (δ : Type) where
  entryId : String
  seq : Nat
  time : Rat
  writer : String
  role : Role
  actor : String
  kind : EntryKind
  branch : String
  parent : String
  summary : String
  detail : δ
deriving DecidableEq, Countable

/-!
## One segment
-/

/-- An append between two system calls: the size to cut back to and what is
still to be written. -/
structure Appending (δ : Type) where
  entry : Entry δ
  size : Nat
  rest : Text

/-- A segment file with its modification time, and the writer's memory:
`_last_seq`, `_ends_whole` and the append it is in. -/
structure Segment (δ : Type) where
  file : Text := []
  mtime : Nat := 0
  lastSeq : Nat := 0
  endsWhole : Bool := false
  appending : Option (Appending δ) := none

/-- How an append begins: cutting a torn tail raises, opening the file raises,
or the file is open. -/
inductive AppendStart where
  | cutFailed
  | openFailed
  | opened
deriving DecidableEq

namespace Segment

variable {δ : Type} (segment : Segment δ)

def put (file : Text) (mtime : Nat) : Segment δ :=
  { segment with file := file, mtime := mtime }

def cutTornTail (mtime : Nat) : Segment δ :=
  if wholeLines segment.file = segment.file then segment
  else segment.put (wholeLines segment.file) mtime

variable (format : LineFormat (Entry δ)) (segment : Segment δ)

/-- `_read_entries`: a last line without its newline is read like the
others. -/
def readEntries : List (Entry δ) :=
  format.rows segment.file

/-- `SegmentWriter.__init__` on the file as it is. -/
def openWriter : Segment δ :=
  { segment with
    lastSeq := ((segment.readEntries format).map Entry.seq).foldr max 0
    endsWhole := false
    appending := none }

/-- The first part of `append`, up to the first write.  An entry that is not
the writer's next raises before anything is done. -/
def beginAppend (writer : String)
    (segment : Segment δ) (build : Nat -> Entry δ) (start : AppendStart) (mtime : Nat) :
    Segment δ :=
  let entry := build (segment.lastSeq + 1)
  if entry.writer ≠ writer ∨ entry.seq ≠ segment.lastSeq + 1 then segment
  else
    if segment.endsWhole then
      match start with
      | .opened => { segment with
        endsWhole := false
        appending := some ⟨entry, segment.file.length, format.line entry⟩ }
      | _ => { segment with endsWhole := false }
    else
      match start with
      | .cutFailed => segment
      | .openFailed => segment.cutTornTail mtime
      | .opened => { segment.cutTornTail mtime with
        appending := some ⟨entry, (wholeLines segment.file).length, format.line entry⟩ }

variable (appending : Appending δ)

/-- One `os.write` that takes some of what is left; with the last of it the
append returns. -/
def write (count mtime : Nat) : Segment δ :=
  let written := segment.put (segment.file ++ appending.rest.take count) mtime
  if appending.rest.drop count = [] then
    { written with endsWhole := true, lastSeq := appending.entry.seq, appending := none }
  else
    { written with
      appending := some { appending with rest := appending.rest.drop count } }

/-- A write raises; the repairing `ftruncate` succeeds or does not. -/
def failWrite (truncated : Bool) (mtime : Nat) : Segment δ :=
  if truncated then
    { segment.put (segment.file.take appending.size) mtime with appending := none }
  else { segment with appending := none }

end Segment

/-!
## Reading through the cache
-/

/-- What `SegmentReader` keeps of one path: the size and modification time it
was read at, and the entries. -/
structure CachedSegment (δ : Type) where
  size : Nat
  mtime : Nat
  entries : List (Entry δ)

/-- `_segment`: the entries, and the cache after. -/
def readSegment {δ : Type} (format : LineFormat (Entry δ))
    (cached : Option (CachedSegment δ)) (segment : Segment δ) :
    List (Entry δ) × Option (CachedSegment δ) :=
  let fresh :=
    (segment.readEntries format,
      some ⟨segment.file.length, segment.mtime, segment.readEntries format⟩)
  match cached with
  | none => fresh
  | some kept =>
    if kept.size = segment.file.length ∧ kept.mtime = segment.mtime then
      (kept.entries, some kept)
    else fresh

/-- The order of `SegmentReader.entries`: time, then writer and sequence. -/
def Entry.SortedBefore {δ : Type} (a b : Entry δ) : Prop :=
  a.time < b.time ∨ (a.time = b.time ∧
    (a.writer < b.writer ∨ (a.writer = b.writer ∧ a.seq ≤ b.seq)))

instance {δ : Type} : DecidableRel (Entry.SortedBefore (δ := δ)) :=
  fun a b => by
    unfold Entry.SortedBefore
    infer_instance

variable {δ : Type}

theorem Entry.sortedBefore_total (a b : Entry δ) : a.SortedBefore b ∨ b.SortedBefore a := by
  unfold Entry.SortedBefore
  grind

theorem Entry.SortedBefore.trans {a b c : Entry δ} (hab : a.SortedBefore b)
    (hbc : b.SortedBefore c) : a.SortedBefore c := by
  unfold Entry.SortedBefore at *
  grind

theorem Entry.SortedBefore.time_le {a b : Entry δ} (h : a.SortedBefore b) : a.time ≤ b.time := by
  rcases h with h | ⟨h, _⟩
  · exact le_of_lt h
  · exact le_of_eq h

/-- Rows in the order they are replayed have their times in order. -/
theorem Entry.pairwise_insertionSort_time (rows : List (Entry δ)) :
    (rows.insertionSort Entry.SortedBefore).Pairwise fun a b => a.time ≤ b.time := by
  have : Std.Total (Entry.SortedBefore (δ := δ)) := ⟨Entry.sortedBefore_total⟩
  have : IsTrans (Entry δ) Entry.SortedBefore := ⟨fun _ _ _ hab hbc => hab.trans hbc⟩
  exact (List.pairwise_insertionSort Entry.SortedBefore rows).imp Entry.SortedBefore.time_le

/-!
## What a segment holds

The complete lines are the texts of rows with rising numbers; behind them may
stand a part of one more row's text.
-/

section

variable {δ : Type} (format : LineFormat (Entry δ))

/-- The rows of a file and the row its torn tail is a part of. -/
structure Holds (file : Text) (rows : List (Entry δ)) : Prop where
  lines : completeLines file = rows.map format.render
  rising : (rows.map Entry.seq).Pairwise (· < ·)
  torn : tornTail file = [] ∨
    exists next, tornTail file <+: format.render next ∧ forall row, row ∈ rows -> row.seq < next.seq

variable {format} {file : Text} {rows : List (Entry δ)}

section

variable (h : Holds format file rows)

include h

theorem Holds.records : format.records file = rows := by
  rw [LineFormat.records, h.lines, List.filterMap_map]
  have hparse : (format.parse ∘ format.render) = some :=
    funext format.parse_render
  rw [hparse, List.filterMap_some]

theorem Holds.wholeLines : Holds format (wholeLines file) rows := by
  refine ⟨?_, h.rising, Or.inl (tornTail_wholeLines file)⟩
  rw [completeLines_wholeLines]
  exact h.lines

theorem Holds.append {row : Entry δ} {part : Text}
    (hwhole : tornTail file = []) (hnext : forall old, old ∈ rows -> old.seq < row.seq)
    (hpart : part <+: format.line row) :
    (part <+: format.render row ∧ tornTail (file ++ part) = part ∧
      Holds format (file ++ part) rows) ∨ (part = format.line row ∧ tornTail (file ++ part) = [] ∧
      Holds format (file ++ part) (rows ++ [row])) := by
  rcases LineFormat.prefix_line_cases hpart with hproper | hall
  · left
    have hplain := LineFormat.plain_of_part hproper
    have htail : tornTail (file ++ part) = part := by
      rw [tornTail_append_plain hplain, hwhole, List.nil_append]
    refine ⟨hproper, htail, ?_, h.rising, ?_⟩
    · rw [completeLines_append_plain hplain]
      exact h.lines
    · rw [htail]
      exact Or.inr ⟨row, hproper, hnext⟩
  · right
    have htail : tornTail (file ++ part) = [] := by
      rw [hall]
      exact LineFormat.tornTail_line row
    refine ⟨hall, htail, ?_, ?_, Or.inl htail⟩
    · rw [hall, LineFormat.line, completeLines_append_line (format.plain row), h.lines, hwhole]
      simp
    · rw [List.map_append, List.pairwise_append]
      refine ⟨h.rising, by simp, ?_⟩
      intro seq hseq last hlast
      rcases List.mem_map.mp hseq with ⟨old, hold, rfl⟩
      rw [List.mem_singleton.mp hlast]
      exact hnext old hold

/-- A reader finds the rows, and at most one row more, of a higher number. -/
theorem Holds.readEntries :
    format.rows file = rows ∨
      exists next, tornTail file = format.render next ∧ format.rows file = rows ++ [next] ∧
        forall row, row ∈ rows -> row.seq < next.seq := by
  rw [← h.records]
  rcases h.torn with hwhole | ⟨next, hpart, hnext⟩
  · exact Or.inl (LineFormat.rows_of_whole hwhole)
  · rcases LineFormat.rows_of_torn hpart with hnone | ⟨hall, hmore⟩
    · exact Or.inl hnone
    · exact Or.inr ⟨next, hall, hmore, h.records.symm ▸ hnext⟩

theorem Holds.readEntries_rising : ((format.rows file).map Entry.seq).Pairwise (· < ·) := by
  rcases h.readEntries with hrows | ⟨next, _, hrows, hnext⟩
  · rw [hrows]
    exact h.rising
  · rw [hrows, List.map_append, List.pairwise_append]
    refine ⟨h.rising, by simp, ?_⟩
    intro seq hseq last hlast
    rcases List.mem_map.mp hseq with ⟨row, hrow, rfl⟩
    rw [List.mem_singleton.mp hlast]
    exact hnext row hrow

theorem Holds.subset_readEntries {row : Entry δ} (hrow : row ∈ rows) : row ∈ format.rows file := by
  rcases h.readEntries with hrows | ⟨next, _, hrows, _⟩
  · rw [hrows]
    exact hrow
  · rw [hrows]
    exact List.mem_append_left _ hrow

end

end

/-!
## A writer at work
-/

/-- Where an append stands: what it wrote is a part of its line, the rest is
the rest of the line, and before it the file was whole and had the size it
would be cut back to. -/
structure Appending.Stands {δ : Type} (format : LineFormat (Entry δ))
    (appending : Appending δ) (file : Text) (rows : List (Entry δ)) : Prop where
  base : exists before written, file = before ++ written ∧
    before.length = appending.size ∧ tornTail before = [] ∧ Holds format before rows ∧
    format.line appending.entry = written ++ appending.rest
  unfinished : appending.rest ≠ []
  next : forall row, row ∈ rows -> row.seq < appending.entry.seq

/-- What is true of a segment and its writer between two system calls: the
rows of the file are below the next number, a writer that remembers a whole
end has one, and a running append stands where it should. -/
structure Segment.Sound {δ : Type} (format : LineFormat (Entry δ))
    (segment : Segment δ) (rows : List (Entry δ)) : Prop where
  holds : Holds format segment.file rows
  below : forall row, row ∈ rows -> row.seq ≤ segment.lastSeq
  whole : segment.endsWhole = true -> tornTail segment.file = []
  stands : forall appending, segment.appending = some appending ->
    appending.Stands format segment.file rows ∧
      appending.entry.seq = segment.lastSeq + 1 ∧ segment.endsWhole = false

namespace Segment

variable {δ : Type} {format : LineFormat (Entry δ)} {segment : Segment δ} {rows : List (Entry δ)}

theorem Sound.openWriter (h : segment.Sound format rows) :
    (segment.openWriter format).Sound format rows := by
  refine ⟨h.holds, ?_, ?_, ?_⟩
  · intro row hrow
    have hmem := h.holds.subset_readEntries hrow
    exact List.le_max_of_le' 0 (List.mem_map_of_mem hmem) (Nat.le_refl _)
  · nofun
  · intro appending hnone
    cases hnone

theorem stands_of_whole {file : Text} {entry : Entry δ}
    (hholds : Holds format file rows) (hwhole : tornTail file = [])
    (hnext : forall row, row ∈ rows -> row.seq < entry.seq) :
    Appending.Stands format ⟨entry, file.length, format.line entry⟩ file rows := by
  refine ⟨⟨file, [], ?_, rfl, hwhole, hholds, rfl⟩, ?_, hnext⟩
  · rw [List.append_nil]
  · simp [LineFormat.line]

/-- The cut changes the file and its time alone. -/
theorem cutTornTail_eq (segment : Segment δ) (mtime : Nat) :
    segment.cutTornTail mtime = { segment with
      file := wholeLines segment.file
      mtime := (segment.cutTornTail mtime).mtime } := by
  unfold cutTornTail
  split
  · rename_i hwhole
    rw [hwhole]
  · rfl

variable {appending : Appending δ} {mtime : Nat}

section

variable (h : segment.Sound format rows)

include h

theorem Sound.beginAppend {writer : String} {build : Nat -> Entry δ}
    {start : AppendStart} (hidle : segment.appending = none) :
    (segment.beginAppend format writer build start mtime).Sound format rows := by
  unfold Segment.beginAppend
  dsimp only
  split
  · exact h
  · rename_i hentry
    have hseq : (build (segment.lastSeq + 1)).seq = segment.lastSeq + 1 := by
      by_contra hne
      exact hentry (Or.inr hne)
    have hnext : forall row, row ∈ rows -> row.seq < (build (segment.lastSeq + 1)).seq := by
      intro row hrow
      have hle := h.below row hrow
      lia
    split
    · rename_i hwhole
      have htail := h.whole hwhole
      cases start with
      | opened =>
        refine ⟨h.holds, h.below, fun hfalse => (by cases hfalse), ?_⟩
        intro appending hsome
        cases hsome
        exact ⟨stands_of_whole h.holds htail hnext, hseq, rfl⟩
      | _ =>
        refine ⟨h.holds, h.below, fun hfalse => (by cases hfalse), ?_⟩
        intro appending hsome
        rw [hidle] at hsome
        cases hsome
    · rename_i hends
      have hcut := h.holds.wholeLines
      have htail := tornTail_wholeLines segment.file
      rw [cutTornTail_eq]
      cases start with
      | cutFailed => exact h
      | openFailed =>
        refine ⟨hcut, h.below, fun _ => htail, ?_⟩
        intro appending hsome
        rw [hidle] at hsome
        cases hsome
      | opened =>
        refine ⟨hcut, h.below, fun _ => htail, ?_⟩
        intro appending hsome
        cases hsome
        exact ⟨stands_of_whole hcut htail hnext, hseq, by simpa using hends⟩

theorem Sound.write (hsome : segment.appending = some appending) (count mtime : Nat) :
    ((segment.write appending count mtime).appending ≠ none ∧
      (segment.write appending count mtime).Sound format rows) ∨
    ((segment.write appending count mtime).appending = none ∧
      (segment.write appending count mtime).Sound format (rows ++ [appending.entry])) := by
  rcases h.stands appending hsome with ⟨hstands, hseq, hends⟩
  rcases hstands.base with ⟨before, written, hfile, hsize, hwhole, hholds, hline⟩
  have hnow : segment.file ++ appending.rest.take count =
      before ++ (written ++ appending.rest.take count) := by
    rw [hfile, List.append_assoc]
  have hpart : written ++ appending.rest.take count <+: format.line appending.entry := by
    rw [hline]
    exact (List.prefix_append_right_inj written).mpr (List.take_prefix _ _)
  have hgrown := hholds.append hwhole hstands.next hpart
  by_cases hdone : appending.rest.drop count = []
  · right
    have hwrite : segment.write appending count mtime =
        { segment.put (segment.file ++ appending.rest.take count) mtime with
          endsWhole := true
          lastSeq := appending.entry.seq
          appending := none } := by
      rw [Segment.write, if_pos hdone]
    have hall : written ++ appending.rest.take count = format.line appending.entry := by
      rw [hline]
      congr 1
      rw [← List.take_append_drop count appending.rest, hdone]
      simp
    rw [hwrite]
    refine ⟨rfl, ?_⟩
    rcases hgrown with ⟨hproper, _, _⟩ | ⟨_, htail, hmore⟩
    · -- The whole line ends in a newline, which no part of the text has.
      rw [hall] at hproper
      have hplain := LineFormat.plain_of_part hproper
      simp [LineFormat.line] at hplain
    · refine ⟨?_, ?_, ?_, ?_⟩
      · rw [hnow]
        exact hmore
      · intro row hrow
        rcases List.mem_append.mp hrow with hold | hnew
        · exact Nat.le_of_lt (hstands.next row hold)
        · rw [List.mem_singleton.mp hnew]
      · intro _
        rw [hnow]
        exact htail
      · intro other hother
        cases hother
  · left
    have hwrite : segment.write appending count mtime =
        { segment.put (segment.file ++ appending.rest.take count) mtime with
          appending := some { appending with rest := appending.rest.drop count } } := by
      rw [Segment.write, if_neg hdone]
    rw [hwrite]
    refine ⟨by simp, ?_⟩
    rcases hgrown with ⟨hproper, htail, hmore⟩ | ⟨hall, _, _⟩
    · refine ⟨?_, h.below, ?_, ?_⟩
      · rw [hnow]
        exact hmore
      · intro htrue
        dsimp only [put] at htrue
        rw [hends] at htrue
        cases htrue
      · intro other hother
        cases hother
        refine ⟨⟨⟨before, written ++ appending.rest.take count, hnow, hsize,
          hwhole, hholds, ?_⟩, hdone, hstands.next⟩, hseq, hends⟩
        rw [hline, List.append_assoc, List.take_append_drop]
    · -- With something left to write the part is not the whole line.
      rw [hline] at hall
      have hlength := congrArg List.length (List.append_cancel_left hall)
      have hdrop : (appending.rest.drop count).length = 0 := by
        rw [List.length_drop]
        rw [List.length_take] at hlength
        lia
      exact absurd (List.length_eq_zero_iff.mp hdrop) hdone

theorem Sound.failWrite {truncated : Bool} (hsome : segment.appending = some appending) :
    (segment.failWrite appending truncated mtime).Sound format rows := by
  rcases h.stands appending hsome with ⟨hstands, _, hends⟩
  rcases hstands.base with ⟨before, written, hfile, hsize, hwhole, hholds, _⟩
  cases truncated with
  | true =>
    have hcut : segment.file.take appending.size = before := by
      rw [hfile, ← hsize, List.take_left]
    refine ⟨?_, h.below, ?_, ?_⟩
    · dsimp only [Segment.failWrite, put, if_true]
      rw [hcut]
      exact hholds
    · intro _
      dsimp only [Segment.failWrite, put, if_true]
      rw [hcut]
      exact hwhole
    · intro other hother
      cases hother
  | false =>
    refine { h with stands := ?_ }
    intro other hother
    cases hother

end

/-!
## What the writer remembers
-/

theorem beginAppend_remembers (format : LineFormat (Entry δ))
    (writer : String) (build : Nat -> Entry δ) (start : AppendStart)
    (mtime : Nat) (hidle : segment.appending = none) :
    (segment.beginAppend format writer build start mtime).lastSeq = segment.lastSeq ∧
      forall appending, (segment.beginAppend format writer build start mtime).appending =
          some appending -> appending.entry.writer = writer := by
  unfold Segment.beginAppend
  dsimp only
  split
  · refine ⟨rfl, ?_⟩
    intro appending hsome
    rw [hidle] at hsome
    cases hsome
  · rename_i hentry
    have hwriter : (build (segment.lastSeq + 1)).writer = writer := by
      by_contra hne
      exact hentry (Or.inl hne)
    split
    · cases start with
      | opened =>
        refine ⟨rfl, ?_⟩
        intro appending hsome
        cases hsome
        exact hwriter
      | _ => exact ⟨rfl, fun _ hsome => by rw [hidle] at hsome; cases hsome⟩
    · rw [cutTornTail_eq]
      cases start with
      | opened =>
        refine ⟨rfl, ?_⟩
        intro appending hsome
        cases hsome
        exact hwriter
      | _ => exact ⟨rfl, fun _ hsome => by rw [hidle] at hsome; cases hsome⟩

variable {count : Nat}

theorem write_remembers {next : Appending δ}
    (h : (segment.write appending count mtime).appending = some next) :
    next.entry = appending.entry ∧
      (segment.write appending count mtime).lastSeq = segment.lastSeq := by
  unfold Segment.write at h ⊢
  split at h
  · cases h
  rename_i hopen
  cases h
  rw [if_neg hopen]
  exact ⟨rfl, rfl⟩

theorem write_lastSeq (h : (segment.write appending count mtime).appending = none) :
    (segment.write appending count mtime).lastSeq = appending.entry.seq := by
  unfold Segment.write at h ⊢
  split at h
  · rename_i hdone
    rw [if_pos hdone]
  · cases h

theorem failWrite_remembers (appending : Appending δ) (truncated : Bool) (mtime : Nat) :
    (segment.failWrite appending truncated mtime).lastSeq = segment.lastSeq ∧
      (segment.failWrite appending truncated mtime).appending = none := by
  cases truncated with
  | _ => exact ⟨rfl, rfl⟩

/-!
## Modification times
-/

/-- A later state of a segment: of a later modification time, or of the same
one and grown. -/
def Later (before after : Segment δ) : Prop :=
  before.mtime < after.mtime ∨ (after.mtime = before.mtime ∧ before.file <+: after.file)

theorem Later.refl (segment : Segment δ) : segment.Later segment :=
  Or.inr ⟨rfl, List.prefix_rfl⟩

theorem later_cutTornTail (h : segment.mtime < mtime) :
    segment.Later (segment.cutTornTail mtime) := by
  unfold cutTornTail
  split
  · exact Later.refl segment
  · exact Or.inl h

theorem later_beginAppend {writer : String} {build : Nat -> Entry δ} {start : AppendStart}
    (h : segment.mtime < mtime) :
    segment.Later (segment.beginAppend format writer build start mtime) := by
  unfold Segment.beginAppend
  dsimp only
  split
  · exact Later.refl segment
  · split
    · cases start with
      | _ => exact Later.refl segment
    · cases start with
      | cutFailed => exact Later.refl segment
      | _ => exact later_cutTornTail h

theorem later_write (h : segment.mtime ≤ mtime) :
    segment.Later (segment.write appending count mtime) := by
  have hput : segment.Later (segment.put (segment.file ++ appending.rest.take count) mtime) := by
    rcases Nat.lt_or_eq_of_le h with hlt | heq
    · exact Or.inl hlt
    · exact Or.inr ⟨heq.symm, List.prefix_append _ _⟩
  unfold Segment.write
  split
  · exact hput
  · exact hput

theorem later_failWrite {truncated : Bool} (h : segment.mtime < mtime) :
    segment.Later (segment.failWrite appending truncated mtime) := by
  cases truncated with
  | true => exact Or.inl h
  | false => exact Later.refl segment

/-- What a cache keeps was read at an earlier modification time, or at this one
and an earlier size, or is what the segment holds. -/
def Cached (format : LineFormat (Entry δ)) (segment : Segment δ) (kept : CachedSegment δ) : Prop :=
  kept.mtime ≤ segment.mtime ∧ (kept.mtime = segment.mtime -> kept.size ≤ segment.file.length ∧
      (kept.size = segment.file.length -> kept.entries = segment.readEntries format))

theorem Cached.later {after : Segment δ} {kept : CachedSegment δ}
    (h : segment.Cached format kept) (hlater : segment.Later after) : after.Cached format kept := by
  rcases h with ⟨hle, hkept⟩
  rcases hlater with hlt | ⟨hmtime, hgrown⟩
  · refine ⟨by lia, ?_⟩
    intro heq
    lia
  · rw [Cached, hmtime]
    refine ⟨hle, ?_⟩
    intro heq
    rcases hkept heq with ⟨hsize, hentries⟩
    have hlength := hgrown.length_le
    refine ⟨by lia, ?_⟩
    intro hsame
    rw [Segment.readEntries, ← hgrown.eq_of_length (by lia)]
    exact hentries (by lia)

theorem readSegment_eq {cached : Option (CachedSegment δ)}
    (h : forall kept, cached = some kept -> segment.Cached format kept) :
    (readSegment format cached segment).1 = segment.readEntries format ∧
    forall kept, (readSegment format cached segment).2 = some kept ->
      segment.Cached format kept := by
  unfold readSegment
  cases cached with
  | none =>
    refine ⟨rfl, ?_⟩
    intro kept hkept
    cases hkept
    exact ⟨Nat.le_refl _, fun _ => ⟨Nat.le_refl _, fun _ => rfl⟩⟩
  | some kept =>
    dsimp only
    split
    · rename_i hsame
      refine ⟨((h kept rfl).right hsame.right).right hsame.left, ?_⟩
      intro other hother
      cases hother
      exact h kept rfl
    · refine ⟨rfl, ?_⟩
      intro other hother
      cases hother
      exact ⟨Nat.le_refl _, fun _ => ⟨Nat.le_refl _, fun _ => rfl⟩⟩

end Segment

def judgedRow (seq : Nat) : Entry Unit :=
  { entryId := "w:1", seq := seq, time := 0, writer := "w", role := .gate,
    actor := "gate", kind := .judgement, branch := "b", parent := "c",
    summary := "judged", detail := () }

end Blackboard
end Hyperloom
