import Hyperloom.Library.Machine
import Hyperloom.Blackboard.Segments

/-!
# A segment over its writers' lives

The appends of one segment with every system call a step of its own: any write
may be partial or fail, the repair may fail, and the process may die between
any two calls, after which a new writer opens the same segment.  Readers with
caches of their own read at any moment; a cache is used as long as the size and
the modification time are those it was filled at.
-/

namespace Hyperloom
namespace Blackboard

open Library

/-- The segment, whether its writer runs, the rows appends were begun with,
the rows whose append returned, and the readers' caches. -/
structure SegmentRun (δ : Type) where
  segment : Segment δ := {}
  alive : Bool := false
  begun : List (Entry δ) := []
  returned : List (Entry δ) := []
  caches : Nat -> Option (CachedSegment δ) := fun _ => none

inductive SegmentOp (δ : Type) where
  | openWriter
  | beginAppend (build : Nat -> Entry δ) (start : AppendStart) (mtime : Nat)
  | write (count mtime : Nat)
  | failWrite (truncated : Bool) (mtime : Nat)
  | crash
  | read (reader : Nat)

section

variable {δ : Type} (format : LineFormat (Entry δ)) (writer : String) (s : SegmentRun δ)

def segmentStep : SegmentOp δ -> Option (SegmentRun δ)
  | .openWriter =>
    if s.alive then none
    else some { s with segment := s.segment.openWriter format, alive := true }
  | .beginAppend build start mtime =>
    match s.alive, s.segment.appending with
    | true, none =>
      let segment := s.segment.beginAppend format writer build start mtime
      some { s with
        segment := segment
        begun := s.begun ++ (segment.appending.map Appending.entry).toList }
    | _, _ => none
  | .write count mtime =>
    match s.alive, s.segment.appending with
    | true, some appending =>
      let segment := s.segment.write appending count mtime
      some { s with
        segment := segment
        returned :=
          if segment.appending.isNone then s.returned ++ [appending.entry]
          else s.returned }
    | _, _ => none
  | .failWrite truncated mtime =>
    match s.alive, s.segment.appending with
    | true, some appending =>
      some { s with segment := s.segment.failWrite appending truncated mtime }
    | _, _ => none
  | .crash =>
    some { s with
      alive := false
      segment := { s.segment with endsWhole := false, appending := none } }
  | .read reader =>
    some { s with caches := fun other =>
      if other = reader then
        (readSegment format (s.caches reader) s.segment).2
      else s.caches other }

def segmentMachine : Machine (SegmentRun δ) (SegmentOp δ) where
  init s := s = {}
  step := segmentStep format writer

/-- Modification times do not go back, and a cut gives the file a later one. -/
def SegmentRun.Clocked : SegmentOp δ -> Prop
  | .beginAppend _ _ mtime => s.segment.mtime < mtime
  | .write _ mtime => s.segment.mtime ≤ mtime
  | .failWrite _ mtime => s.segment.mtime < mtime
  | _ => True

instance (op : SegmentOp δ) : Decidable (s.Clocked op) := by
  unfold SegmentRun.Clocked
  split
  all_goals infer_instance

/-- The rows of the file contain the acknowledged ones and were all begun, and
no cache is ahead of the file. -/
structure SegmentRun.Sound (s : SegmentRun δ) (rows : List (Entry δ)) : Prop where
  segment : s.segment.Sound format rows
  kept : s.returned ⊆ rows
  fromBegun : rows ⊆ s.begun
  writing : forall appending, s.segment.appending = some appending -> appending.entry ∈ s.begun
  cached : forall reader kept, s.caches reader = some kept -> s.segment.Cached format kept

variable {format writer}

theorem SegmentRun.Sound.step {s t : SegmentRun δ} {op : SegmentOp δ}
    {rows : List (Entry δ)} (hs : s.Sound format rows) (hclocked : s.Clocked op)
    (h : segmentStep format writer s op = some t) : exists rows, t.Sound format rows := by
  revert h
  fun_cases segmentStep format writer s op with (intro h; cases h)
  | case2 =>
    refine ⟨rows, hs.segment.openWriter, hs.kept, hs.fromBegun, ?_, ?_⟩
    · intro appending hnone
      cases hnone
    · intro reader kept hkept
      exact (hs.cached reader kept hkept).later (.refl s.segment)
  | case3 build start mtime hidle =>
    refine ⟨rows, hs.segment.beginAppend hidle, hs.kept, ?_, ?_, ?_⟩
    · intro row hrow
      exact List.mem_append_left _ (hs.fromBegun hrow)
    · intro appending hsome
      dsimp only at hsome
      rw [hsome]
      exact List.mem_append_right _ (by simp)
    · intro reader kept hkept
      exact (hs.cached reader kept hkept).later (Segment.later_beginAppend hclocked)
  | case5 count mtime appending hsome =>
    have hentry := hs.writing appending hsome
    have hcached : forall reader kept, s.caches reader = some kept ->
        (s.segment.write appending count mtime).Cached format kept := by
      intro reader kept hkept
      exact (hs.cached reader kept hkept).later (Segment.later_write hclocked)
    rcases hs.segment.write hsome count mtime with ⟨hopen, hsound⟩ | ⟨hdone, hsound⟩
    · refine ⟨rows, hsound, ?_, hs.fromBegun, ?_, hcached⟩
      · rw [if_neg (by simpa using hopen)]
        exact hs.kept
      · intro other hother
        rw [(Segment.write_remembers hother).left]
        exact hentry
    · refine ⟨rows ++ [appending.entry], hsound, ?_, ?_, ?_, hcached⟩
      · rw [if_pos (by rw [hdone]; rfl)]
        intro row hrow
        rcases List.mem_append.mp hrow with hold | hnew
        · exact List.mem_append_left _ (hs.kept hold)
        · exact List.mem_append_right _ hnew
      · intro row hrow
        rcases mem_concat.mp hrow with hold | rfl
        · exact hs.fromBegun hold
        · exact hentry
      · intro other hother
        rw [hdone] at hother
        cases hother
  | case7 truncated mtime appending hsome =>
    refine ⟨rows, hs.segment.failWrite hsome, hs.kept, hs.fromBegun, ?_, ?_⟩
    · intro other hother
      cases truncated with
      | _ => cases hother
    · intro reader kept hkept
      exact (hs.cached reader kept hkept).later (Segment.later_failWrite hclocked)
  | case9 =>
    refine ⟨rows, ⟨hs.segment.holds, hs.segment.below, nofun, ?_⟩, hs.kept, hs.fromBegun, ?_, ?_⟩
    · intro appending hnone
      cases hnone
    · intro appending hnone
      cases hnone
    · intro reader kept hkept
      exact (hs.cached reader kept hkept).later (.refl s.segment)
  | case10 reader =>
    refine ⟨rows, hs.segment, hs.kept, hs.fromBegun, hs.writing, ?_⟩
    intro other kept hkept
    dsimp only at hkept
    split at hkept
    · exact (Segment.readSegment_eq (hs.cached reader)).right kept hkept
    · exact hs.cached other kept hkept

theorem SegmentRun.exists_sound {s : SegmentRun δ}
    (hs : (segmentMachine format writer).ReachableWhere SegmentRun.Clocked s) :
    exists rows, s.Sound format rows := by
  apply hs.invariant ?_ ?_
  · intro start hinit
    rw [hinit]
    refine ⟨[], ⟨⟨rfl, List.Pairwise.nil, Or.inl rfl⟩, ?_, ?_, ?_⟩, ?_, ?_, ?_, ?_⟩
    · intro row hrow
      cases hrow
    · intro _
      rfl
    · intro appending hnone
      cases hnone
    · intro row hrow
      cases hrow
    · intro row hrow
      cases hrow
    · intro appending hnone
      cases hnone
    · nofun
  · intro s op t hs hclocked hstep
    rcases hs with ⟨rows, hs⟩
    exact hs.step hclocked hstep

/-- While modification times move on with every cut, every row whose append
returned is in every later read exactly once, no two rows read share a number,
and every complete line of the segment is the text of one row, of none but that
row. -/
theorem segment_keeps_returned_rows [DecidableEq δ] {s : SegmentRun δ}
    (hs : (segmentMachine format writer).ReachableWhere SegmentRun.Clocked s) (reader : Nat) :
    (forall row, row ∈ s.returned ->
      (readSegment format (s.caches reader) s.segment).1.count row = 1) ∧
    ((readSegment format (s.caches reader) s.segment).1.map Entry.seq).Nodup ∧
    forall line, line ∈ completeLines s.segment.file ->
      exists row, row ∈ s.begun ∧ line = format.render row := by
  rcases SegmentRun.exists_sound hs with ⟨rows, hsound⟩
  have hread := (Segment.readSegment_eq (hsound.cached reader)).left
  have hholds := hsound.segment.holds
  have hdistinct : ((s.segment.readEntries format).map Entry.seq).Nodup :=
    hholds.readEntries_rising.imp fun hlt => Nat.ne_of_lt hlt
  rw [hread]
  refine ⟨?_, hdistinct, ?_⟩
  · intro row hrow
    exact List.count_eq_one_of_mem (List.Nodup.of_map _ hdistinct)
      (hholds.subset_readEntries (hsound.kept hrow))
  · intro line hline
    rw [hholds.lines] at hline
    rcases List.mem_map.mp hline with ⟨row, hrow, hsame⟩
    exact ⟨row, hsound.fromBegun hrow, hsame.symm⟩

end

/-- An append fails with its repair failing, and the next one returns. -/
theorem segment_keeps_returned_rows_after_failure :
    exists (format : LineFormat (Entry Unit)) (s : SegmentRun Unit)
      (row : Entry Unit), row ∈ s.returned ∧
      (readSegment format (s.caches 0) s.segment).1.count row = 1 := by
  rcases Machine.ReachableWhere.exists_of_runIf
    (M := segmentMachine (LineFormat.numbering [judgedRow 1]) "w") (C := SegmentRun.Clocked)
    (P := fun s => judgedRow 1 ∈ s.returned) {}
    [.openWriter, .beginAppend judgedRow .opened 1, .write 1 1, .failWrite false 2,
      .beginAppend judgedRow .opened 2, .write 3 2] rfl (by decide +kernel) with ⟨s, hreach, hrow⟩
  exact ⟨_, s, _, hrow, (segment_keeps_returned_rows hreach 0).left _ hrow⟩

/-- A reader fills its cache while a longer row is being written; the append
fails and is cut back, and the row appended instead ends at the size and in the
tick at which the cache was filled. -/
theorem same_size_and_time_hide_row :
    exists (format : LineFormat (Entry Unit)) (s : SegmentRun Unit) (row : Entry Unit),
      (segmentMachine format "w").Reachable s ∧ row ∈ s.returned ∧
      row ∈ s.segment.readEntries format ∧ row ∉ (readSegment format (s.caches 0) s.segment).1 := by
  let longer (seq : Nat) : Entry Unit := { judgedRow seq with summary := "judged again" }
  let format := LineFormat.numbering [judgedRow 1, judgedRow 2, longer 1]
  rcases Machine.Reachable.exists_of_runIf (M := segmentMachine format "w")
    (P := fun s => judgedRow 1 ∈ s.returned ∧ judgedRow 1 ∈ s.segment.readEntries format ∧
      judgedRow 1 ∉ (readSegment format (s.caches 0) s.segment).1) {}
    [.openWriter, .beginAppend longer .opened 1, .write 3 1, .read 0, .failWrite true 1,
      .beginAppend judgedRow .opened 1, .write 3 1] rfl (by decide +kernel) with ⟨s, hreach, hrow⟩
  exact ⟨format, s, judgedRow 1, hreach, hrow⟩

end Blackboard
end Hyperloom
