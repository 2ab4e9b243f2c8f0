import Hyperloom.Library.Machine
import Hyperloom.Blackboard.Feeds

/-!
# An inbox over whole runs

Any number of writers append to their own segments, one system call a step,
while handles read the segments one after the other, each at its own moment,
and a branch polls through any of them, always with the cursor its last poll
returned.  What a poll misses or repeats is decided by what a reader finds at
the end of a segment that is being written.
-/

namespace Hyperloom
namespace Blackboard

open Library

/-- A call of `entries` on its way: the segments it has still to read and what
it merged so far.  `known` is what had been returned when it listed the
segments. -/
structure Reading (δ : Type) where
  todo : List String
  merged : List (Entry δ)
  known : List (Entry δ)

/-- One handle's memory: the reader's cache, `_folded` and the read it is
in. -/
structure Handle (δ : Type) where
  caches : String -> Option (CachedSegment δ) := fun _ => none
  folded : Option (BlackboardState δ) := none
  reading : Option (Reading δ) := none

def Handle.state {δ : Type} (decode : Entry δ -> Option Payload)
    (handle : Handle δ) (reading : Reading δ) : BlackboardState δ :=
  let entries := reading.merged.insertionSort Entry.SortedBefore
  match handle.folded with
  | none => foldEntries decode entries
  | some folded =>
    if folded.entries.length = entries.length then folded
    else foldEntries decode entries

/-- The segments, the handles, and one branch's pages and cursor.  `returned`
and `raised` are the entries of the appends that did, and `covered` is what
had been returned when one of the pages' reads began. -/
structure InboxRun (δ : Type) where
  segments : String -> Segment δ := fun _ => {}
  existing : List String := []
  handles : Nat -> Handle δ := fun _ => {}
  cursor : Cursor := fun _ => 0
  pages : List (InboxPage δ) := []
  returned : List (Entry δ) := []
  raised : List (Entry δ) := []
  covered : List (Entry δ) := []

def InboxRun.offered {δ : Type} (s : InboxRun δ) : List (Entry δ) :=
  (s.pages.flatMap InboxPage.offered).map Prod.fst

inductive InboxOp (δ : Type) where
  | beginAppend (writer : String) (build : Nat -> Entry δ) (start : AppendStart) (mtime : Nat)
  | write (writer : String) (count mtime : Nat)
  | failWrite (writer : String) (truncated : Bool) (mtime : Nat)
  | list (handle : Nat)
  | read (handle : Nat)
  | query (handle : Nat)
  | poll (handle : Nat) (brief : Entry δ -> Payload -> Option InboxItem)

section

variable {δ : Type} (format : LineFormat (Entry δ))
  (decode : Entry δ -> Option Payload) (branch : String)

namespace InboxRun

variable (s : InboxRun δ) (writer : String)

def setSegment (segment : Segment δ) : InboxRun δ :=
  { s with segments := Function.update s.segments writer segment }

variable (name : Nat)

def setHandle (handle : Handle δ) : InboxRun δ :=
  { s with handles := Function.update s.handles name handle }

/-- `append` up to its first write; the segment appears when it is opened. -/
def beginAppend (build : Nat -> Entry δ) (start : AppendStart) (mtime : Nat) : InboxRun δ :=
  let segment := (s.segments writer).beginAppend format writer build start mtime
  let started := s.setSegment writer segment
  match segment.appending with
  | some _ => { started with
    existing :=
      if writer ∈ s.existing then s.existing else s.existing ++ [writer] }
  | none => { started with raised := s.raised ++ [build ((s.segments writer).lastSeq + 1)] }

variable (appending : Appending δ)

def write (count mtime : Nat) : InboxRun δ :=
  let segment := (s.segments writer).write appending count mtime
  let written := s.setSegment writer segment
  match segment.appending with
  | some _ => written
  | none => { written with returned := s.returned ++ [appending.entry] }

def failWrite (truncated : Bool) (mtime : Nat) : InboxRun δ :=
  { s.setSegment writer ((s.segments writer).failWrite appending truncated mtime) with
    raised := s.raised ++ [appending.entry] }

def list : InboxRun δ :=
  s.setHandle name { s.handles name with
    reading := some {
      todo := s.existing.insertionSort (· ≤ ·)
      merged := []
      known := s.returned } }

variable (reading : Reading δ)

def read (writer : String) (rest : List String) : InboxRun δ :=
  let found := readSegment format ((s.handles name).caches writer) (s.segments writer)
  s.setHandle name { s.handles name with
    caches := Function.update (s.handles name).caches writer found.2
    reading := some { reading with todo := rest, merged := reading.merged ++ found.1 } }

def fold : InboxRun δ :=
  s.setHandle name { s.handles name with
    folded := some ((s.handles name).state decode reading)
    reading := none }

/-- `poll` once the state is read; one that raises returns no page. -/
def poll (brief : Entry δ -> Payload -> Option InboxItem) : InboxRun δ :=
  let folded := s.fold decode name reading
  match Blackboard.poll brief ((s.handles name).state decode reading) branch s.cursor with
  | none => folded
  | some page => { folded with
    cursor := page.cursor
    pages := s.pages ++ [page]
    covered := s.covered ++ reading.known }

end InboxRun

def inboxStep (s : InboxRun δ) : InboxOp δ -> Option (InboxRun δ)
  | .beginAppend writer build start mtime =>
    match (s.segments writer).appending with
    | none => some (s.beginAppend format writer build start mtime)
    | some _ => none
  | .write writer count mtime =>
    match (s.segments writer).appending with
    | none => none
    | some appending => some (s.write writer appending count mtime)
  | .failWrite writer truncated mtime =>
    match (s.segments writer).appending with
    | none => none
    | some appending => some (s.failWrite writer appending truncated mtime)
  | .list name =>
    match (s.handles name).reading with
    | none => some (s.list name)
    | some _ => none
  | .read name =>
    match (s.handles name).reading with
    | some ⟨writer :: rest, merged, known⟩ =>
      some (s.read format name ⟨writer :: rest, merged, known⟩ writer rest)
    | _ => none
  | .query name =>
    match (s.handles name).reading with
    | some ⟨[], merged, known⟩ => some (s.fold decode name ⟨[], merged, known⟩)
    | _ => none
  | .poll name brief =>
    match (s.handles name).reading with
    | some ⟨[], merged, known⟩ =>
      some (s.poll decode branch name ⟨[], merged, known⟩ brief)
    | _ => none

def inboxMachine : Machine (InboxRun δ) (InboxOp δ) where
  init s := s = {}
  step := inboxStep format decode branch

/-- A read does not find a last line that is complete but for its newline;
modification times do not go back, and a cut gives the file a later one. -/
def InboxRun.Steady (s : InboxRun δ) : InboxOp δ -> Prop
  | .read name => forall writer rest merged known,
    (s.handles name).reading = some ⟨writer :: rest, merged, known⟩ ->
    format.parse (tornTail (s.segments writer).file) = none ∨ tornTail (s.segments writer).file = []
  | .beginAppend writer _ _ mtime => (s.segments writer).mtime < mtime
  | .write writer _ mtime => (s.segments writer).mtime ≤ mtime
  | .failWrite writer _ mtime => (s.segments writer).mtime < mtime
  | _ => True

/-- Every entry returned before one of the pages was read is in exactly one of
them, no entry is in two, none is there whose append raised, unless an append
of the same entry returned, and a page has the branch's item of each of its
entries. -/
def InboxRun.ExactlyOnce [DecidableEq δ] (s : InboxRun δ) : Prop :=
  (forall entry, entry ∈ s.covered -> (decode entry).isSome -> s.offered.count entry = 1) ∧
  (forall entry, s.offered.count entry ≤ 1) ∧
  (forall entry, entry ∈ s.offered -> entry ∈ s.raised -> entry ∈ s.returned) ∧
  forall page entry items payload item, page ∈ s.pages ->
    (entry, items) ∈ page.offered -> decode entry = some payload ->
    inboxItem entry payload branch = some item -> item ∈ items

end

/-!
## What a handle has seen

A snapshot is a set of returned entries that has, with every entry, all earlier
ones of its writer.
-/

variable {writer : String}

section

variable {δ : Type}

structure Snapshot (returned entries : List (Entry δ)) : Prop where
  nodup : entries.Nodup
  fromReturned : entries ⊆ returned
  closed : forall last entry, last ∈ entries -> entry ∈ returned ->
    entry.writer = last.writer -> entry.seq ≤ last.seq -> entry ∈ entries

def IsNext (returned : List (Entry δ)) (next : Entry δ) : Prop :=
  forall entry, entry ∈ returned -> entry.writer = next.writer -> entry.seq < next.seq

variable {returned entries : List (Entry δ)}

theorem Snapshot.empty : Snapshot returned [] := by
  refine ⟨List.nodup_nil, List.nil_subset _, ?_⟩
  intro last entry hlast
  cases hlast

section

variable (h : Snapshot returned entries)

include h

theorem Snapshot.append {next : Entry δ}
    (hnext : IsNext returned next) : Snapshot (returned ++ [next]) entries := by
  refine ⟨h.nodup, fun entry hentry => List.mem_append_left _ (h.fromReturned hentry), ?_⟩
  intro last entry hlast hentry hwriter hle
  rcases mem_concat.mp hentry with hold | rfl
  · exact h.closed last entry hlast hold hwriter hle
  · -- The new entry is above every one of its writer that was seen.
    have hlt := hnext last (h.fromReturned hlast) hwriter.symm
    lia

theorem Snapshot.perm {other : List (Entry δ)}
    (hperm : other.Perm entries) : Snapshot returned other := by
  refine ⟨hperm.nodup_iff.mpr h.nodup,
    fun entry hentry => h.fromReturned (hperm.mem_iff.mp hentry), ?_⟩
  intro last entry hlast hentry hwriter hle
  exact hperm.mem_iff.mpr (h.closed last entry (hperm.mem_iff.mp hlast) hentry hwriter hle)

theorem Snapshot.addWriter (hdistinct : returned.Nodup)
    (hnew : forall entry, entry ∈ entries -> entry.writer ≠ writer) :
    Snapshot returned (entries ++ returned.filter fun entry => entry.writer = writer) := by
  refine ⟨?_, ?_, ?_⟩
  · rw [List.nodup_append]
    refine ⟨h.nodup, hdistinct.filter _, ?_⟩
    intro entry hentry other hother heq
    rw [← heq] at hother
    have hwriter := (List.mem_filter.mp hother).right
    exact hnew entry hentry (of_decide_eq_true hwriter)
  · intro entry hentry
    rcases List.mem_append.mp hentry with hold | hadded
    · exact h.fromReturned hold
    · exact (List.mem_filter.mp hadded).left
  · intro last entry hlast hentry hwriter hle
    rcases List.mem_append.mp hlast with hold | hadded
    · exact List.mem_append_left _ (h.closed last entry hold hentry hwriter hle)
    · have hlastWriter := of_decide_eq_true (List.mem_filter.mp hadded).right
      apply List.mem_append_right
      exact List.mem_filter.mpr ⟨hentry, decide_eq_true (hwriter.trans hlastWriter)⟩

end

/-- Where a read stands: it has all of the segments behind it, it will have
what was known when it began, and `_folded` is no further than that. -/
structure Reading.Sound (returned : List (Entry δ)) (reading : Reading δ)
    (folded : Option (BlackboardState δ)) : Prop where
  merged : Snapshot returned reading.merged
  todo : reading.todo.Nodup
  ahead : forall entry, entry ∈ reading.merged -> entry.writer ∉ reading.todo
  known : reading.known ⊆ returned
  complete : forall entry, entry ∈ reading.known ->
    entry.writer ∈ reading.todo ∨ entry ∈ reading.merged
  folded : forall state, folded = some state -> state.entries ⊆ reading.known

/-- What `_state()` gives: all that was known, with nothing left out. -/
structure FreshState (decode : Entry δ -> Option Payload)
    (returned known : List (Entry δ)) (state : BlackboardState δ) : Prop where
  entries : Snapshot returned state.entries
  known : known ⊆ state.entries
  folds : state = foldEntries decode state.entries

theorem Handle.state_fresh {decode : Entry δ -> Option Payload}
    {handle : Handle δ} {merged known : List (Entry δ)}
    (hfolded : forall state, handle.folded = some state ->
      Snapshot returned state.entries ∧ state = foldEntries decode state.entries)
    (hreading : Reading.Sound returned ⟨[], merged, known⟩ handle.folded) :
    FreshState decode returned known (handle.state decode ⟨[], merged, known⟩) := by
  have hperm := List.perm_insertionSort Entry.SortedBefore merged
  have hknown : known ⊆ merged := by
    intro entry hentry
    rcases hreading.complete entry hentry with htodo | hin
    · cases htodo
    · exact hin
  have hsorted : FreshState decode returned known
      (foldEntries decode (merged.insertionSort Entry.SortedBefore)) :=
    ⟨hreading.merged.perm hperm, fun entry hentry => hperm.mem_iff.mpr (hknown hentry), rfl⟩
  unfold Handle.state
  dsimp only
  split
  · exact hsorted
  · rename_i folded hsome
    split
    · rename_i hlength
      have hold := hfolded folded hsome
      have hsubset : folded.entries ⊆ merged := fun entry hentry =>
        hknown (hreading.folded folded hsome hentry)
      rw [hperm.length_eq] at hlength
      have hsame : folded.entries.Perm merged :=
        (List.subperm_of_subset hold.left.nodup hsubset).perm_of_length_le
          (Nat.le_of_eq hlength.symm)
      exact ⟨hold.left, fun entry hentry => hsame.mem_iff.mpr (hknown hentry), hold.right⟩
    · exact hsorted

end

/-!
## The three parts of the invariant
-/

namespace InboxRun

section

variable {δ : Type} (format : LineFormat (Entry δ))
  (decode : Entry δ -> Option Payload) (branch : String)

structure SegmentsSound (s : InboxRun δ) : Prop where
  segments : forall writer, (s.segments writer).Sound format
    (s.returned.filter fun entry => entry.writer = writer)
  writing : forall writer appending, (s.segments writer).appending = some appending ->
    appending.entry.writer = writer ∧ writer ∈ s.existing
  listed : forall entry, entry ∈ s.returned -> entry.writer ∈ s.existing
  existing : s.existing.Nodup
  distinct : s.returned.Nodup

structure HandleSound (s : InboxRun δ) (handle : Handle δ) : Prop where
  cached : forall writer kept, handle.caches writer = some kept ->
    (s.segments writer).Cached format kept
  reading : forall reading, handle.reading = some reading ->
    reading.Sound s.returned handle.folded
  folded : forall state, handle.folded = some state ->
    Snapshot s.returned state.entries ∧ state = foldEntries decode state.entries

def HandlesSound (s : InboxRun δ) : Prop :=
  forall name, s.HandleSound format decode (s.handles name)

/-- The returned entries up to the cursor are the ones the pages are made
of. -/
structure PagesSound (s : InboxRun δ) : Prop where
  cursor : forall writer, s.cursor writer ≤ (s.segments writer).lastSeq
  offered : forall entry, entry ∈ s.returned -> (decode entry).isSome ->
    (entry ∈ s.offered <-> entry.seq ≤ s.cursor entry.writer)
  once : s.offered.Nodup
  fromReturned : s.offered ⊆ s.returned
  covered : forall entry, entry ∈ s.covered ->
    entry ∈ s.returned ∧ entry.seq ≤ s.cursor entry.writer
  items : forall page entry items payload item, page ∈ s.pages ->
    (entry, items) ∈ page.offered -> decode entry = some payload ->
    inboxItem entry payload branch = some item -> item ∈ items

structure Sound (s : InboxRun δ) : Prop where
  segments : s.SegmentsSound format
  handles : s.HandlesSound format decode
  pages : s.PagesSound decode branch

end

section

variable {δ : Type} {format : LineFormat (Entry δ)}
  {decode : Entry δ -> Option Payload} {branch : String} {s t : InboxRun δ}

theorem sound_init : ({} : InboxRun δ).Sound format decode branch := by
  refine ⟨⟨?_, ?_, ?_, List.nodup_nil, List.nodup_nil⟩, fun _ => ⟨?_, ?_, ?_⟩,
    ⟨fun _ => Nat.le_refl 0, ?_, List.nodup_nil, List.nil_subset _, ?_, ?_⟩⟩
  · intro writer
    refine ⟨⟨rfl, List.Pairwise.nil, Or.inl rfl⟩, ?_, fun _ => rfl, ?_⟩
    · intro row hrow
      cases hrow
    · intro appending hnone
      cases hnone
  · intro writer appending hnone
    cases hnone
  · intro entry hentry
    cases hentry
  · intro writer kept hnone
    cases hnone
  · intro reading hnone
    cases hnone
  · intro state hnone
    cases hnone
  · intro entry hentry
    cases hentry
  · intro entry hentry
    cases hentry
  · intro page entry items payload item hpage
    cases hpage

theorem SegmentsSound.isNext {next : Entry δ} (h : s.SegmentsSound format)
    (hnext : (s.segments next.writer).lastSeq < next.seq) : IsNext s.returned next := by
  intro entry hentry hwriter
  have hbelow := (h.segments next.writer).below entry
    (List.mem_filter.mpr ⟨hentry, decide_eq_true hwriter⟩)
  lia

/-!
## Steps of writers
-/

/-- What a step of a writer can do to the rest: segments move on, and at most
one entry is returned, of a higher number than its writer's others. -/
structure WriterStep (s t : InboxRun δ) : Prop where
  handles : t.handles = s.handles
  cursor : t.cursor = s.cursor
  pages : t.pages = s.pages
  covered : t.covered = s.covered
  later : forall writer, (s.segments writer).Later (t.segments writer)
  lastSeq : forall writer, (s.segments writer).lastSeq ≤ (t.segments writer).lastSeq
  returned : t.returned = s.returned ∨
    exists next, t.returned = s.returned ++ [next] ∧ (s.segments next.writer).lastSeq < next.seq

section

variable (hs : s.SegmentsSound format) (hstep : WriterStep s t)

include hstep

theorem WriterStep.kept : s.returned ⊆ t.returned := by
  rcases hstep.returned with hsame | ⟨next, hmore, _⟩
  · rw [hsame]
    exact List.Subset.refl _
  · rw [hmore]
    exact List.subset_append_left _ _

include hs

theorem WriterStep.snapshot {entries : List (Entry δ)} (h : Snapshot s.returned entries) :
    Snapshot t.returned entries := by
  rcases hstep.returned with hsame | ⟨next, hmore, hseq⟩
  · rw [hsame]
    exact h
  · rw [hmore]
    exact h.append (hs.isNext hseq)

theorem HandleSound.writerStep {handle : Handle δ} (h : s.HandleSound format decode handle) :
    t.HandleSound format decode handle := by
  refine ⟨?_, ?_, ?_⟩
  · intro writer kept hkept
    exact (h.cached writer kept hkept).later (hstep.later writer)
  · intro reading hreading
    have hsound := h.reading reading hreading
    exact { hsound with
      merged := hstep.snapshot hs hsound.merged
      known := List.Subset.trans hsound.known hstep.kept }
  · intro state hstate
    exact (h.folded state hstate).imp_left (hstep.snapshot hs)

end

theorem PagesSound.writerStep (hs : s.SegmentsSound format)
    (h : s.PagesSound decode branch) (hstep : WriterStep s t) : t.PagesSound decode branch := by
  have hoffered : t.offered = s.offered := by
    unfold InboxRun.offered
    rw [hstep.pages]
  refine ⟨?_, ?_, ?_, ?_, ?_, ?_⟩
  · intro writer
    rw [hstep.cursor]
    exact Nat.le_trans (h.cursor writer) (hstep.lastSeq writer)
  · intro entry hentry hdecoded
    rw [hoffered, hstep.cursor]
    rcases hstep.returned with hsame | ⟨next, hmore, hseq⟩
    · rw [hsame] at hentry
      exact h.offered entry hentry hdecoded
    · rw [hmore] at hentry
      rcases mem_concat.mp hentry with hold | hnew
      · exact h.offered entry hold hdecoded
      · -- The new entry is beyond the cursor and on no page.
        rw [hnew]
        have hcursor := h.cursor next.writer
        constructor
        · intro hin
          have hlt := hs.isNext hseq next (h.fromReturned hin) rfl
          lia
        · intro hle
          lia
  · rw [hoffered]
    exact h.once
  · rw [hoffered]
    exact fun entry hentry => hstep.kept (h.fromReturned hentry)
  · intro entry hentry
    rw [hstep.covered] at hentry
    rw [hstep.cursor]
    exact ⟨hstep.kept (h.covered entry hentry).left, (h.covered entry hentry).right⟩
  · intro page entry items payload item hpage
    rw [hstep.pages] at hpage
    exact h.items page entry items payload item hpage

variable {segment : Segment δ} {mtime : Nat}

theorem SegmentsSound.update (h : s.SegmentsSound format)
    (hsegments : t.segments = Function.update s.segments writer segment)
    (hsegment : segment.Sound format (t.returned.filter fun entry => entry.writer = writer))
    (hothers : forall other, other ≠ writer ->
      (t.returned.filter fun entry => entry.writer = other) =
        s.returned.filter fun entry => entry.writer = other)
    (hwriting : forall appending, segment.appending = some appending ->
      appending.entry.writer = writer ∧ writer ∈ t.existing)
    (hexisting : s.existing ⊆ t.existing) (hnodup : t.existing.Nodup)
    (hlisted : forall entry, entry ∈ t.returned -> entry.writer ∈ t.existing)
    (hdistinct : t.returned.Nodup) : t.SegmentsSound format := by
  refine ⟨?_, ?_, hlisted, hnodup, hdistinct⟩
  · intro other
    rw [hsegments]
    by_cases hother : other = writer
    · rw [hother, Function.update_self]
      exact hsegment
    · rw [Function.update_of_ne hother, hothers other hother]
      exact h.segments other
  · intro other appending hsome
    rw [hsegments] at hsome
    by_cases hother : other = writer
    · rw [hother, Function.update_self] at hsome
      rw [hother]
      exact hwriting appending hsome
    · rw [Function.update_of_ne hother] at hsome
      have hold := h.writing other appending hsome
      exact ⟨hold.left, hexisting hold.right⟩

theorem later_update (h : (s.segments writer).Later segment) (other : String) :
    (s.segments other).Later (Function.update s.segments writer segment other) :=
  (Function.forall_update_iff _ fun other next => (s.segments other).Later next).mpr
    ⟨h, fun _ _ => .refl _⟩ other

theorem lastSeq_update (h : (s.segments writer).lastSeq ≤ segment.lastSeq) (other : String) :
    (s.segments other).lastSeq ≤ (Function.update s.segments writer segment other).lastSeq :=
  (Function.forall_update_iff s.segments fun other next =>
    (s.segments other).lastSeq ≤ next.lastSeq).mpr ⟨h, fun _ _ => Nat.le_refl _⟩ other

theorem beginAppend_step {build : Nat -> Entry δ} {start : AppendStart} (h : s.SegmentsSound format)
    (hidle : (s.segments writer).appending = none) (hmtime : (s.segments writer).mtime < mtime) :
    (s.beginAppend format writer build start mtime).SegmentsSound format ∧
      WriterStep s (s.beginAppend format writer build start mtime) := by
  have hremembers := Segment.beginAppend_remembers format writer build start mtime hidle
  have hsound : ((s.segments writer).beginAppend format writer build start
      mtime).Sound format (s.returned.filter fun entry => entry.writer = writer) :=
    (h.segments writer).beginAppend hidle
  have hlater : (s.segments writer).Later
      ((s.segments writer).beginAppend format writer build start mtime) :=
    Segment.later_beginAppend hmtime
  unfold beginAppend
  dsimp only
  split
  · have hexisting : forall l, (if writer ∈ s.existing then s.existing
        else s.existing ++ [writer]) = l -> l.Nodup ∧ s.existing ⊆ l ∧ writer ∈ l := by
      rintro l rfl
      split
      · rename_i hold
        exact ⟨h.existing, List.Subset.refl _, hold⟩
      · rename_i hnew
        exact ⟨List.concat_eq_append ▸ h.existing.concat hnew, List.subset_append_left _ _, by simp⟩
    rcases hexisting _ rfl with ⟨hnodup, hmore, hin⟩
    constructor
    · refine h.update rfl hsound (fun _ _ => rfl) ?_ hmore hnodup ?_ h.distinct
      · intro other hother
        exact ⟨hremembers.right other hother, hin⟩
      · intro entry hentry
        exact hmore (h.listed entry hentry)
    · exact ⟨rfl, rfl, rfl, rfl, later_update hlater,
        lastSeq_update (Nat.le_of_eq hremembers.left.symm), Or.inl rfl⟩
  · rename_i hnone
    constructor
    · refine h.update rfl hsound (fun _ _ => rfl) ?_ (List.Subset.refl _)
        h.existing h.listed h.distinct
      intro other hother
      rw [hnone] at hother
      cases hother
    · exact ⟨rfl, rfl, rfl, rfl, later_update hlater,
        lastSeq_update (Nat.le_of_eq hremembers.left.symm), Or.inl rfl⟩

theorem write_step {appending : Appending δ} (h : s.SegmentsSound format)
    (hsome : (s.segments writer).appending = some appending) (count : Nat)
    (hmtime : (s.segments writer).mtime ≤ mtime) :
    (s.write writer appending count mtime).SegmentsSound format ∧
      WriterStep s (s.write writer appending count mtime) := by
  have hwriting := h.writing writer appending hsome
  have hlater : (s.segments writer).Later
      ((s.segments writer).write appending count mtime) := Segment.later_write hmtime
  have hwrite := (h.segments writer).write hsome count mtime
  unfold write
  dsimp only
  split
  · rename_i next hnext
    have hremembers := Segment.write_remembers hnext
    rcases hwrite with ⟨_, hsound⟩ | ⟨hdone, _⟩
    · constructor
      · refine h.update rfl hsound (fun _ _ => rfl) ?_ (List.Subset.refl _)
          h.existing h.listed h.distinct
        intro other hother
        rw [hnext] at hother
        cases hother
        rw [hremembers.left]
        exact hwriting
      · exact ⟨rfl, rfl, rfl, rfl, later_update hlater,
          lastSeq_update (Nat.le_of_eq hremembers.right.symm), Or.inl rfl⟩
    · rw [hnext] at hdone
      cases hdone
  · rename_i hdone
    rcases hwrite with ⟨hopen, _⟩ | ⟨_, hsound⟩
    · exact absurd hdone hopen
    have hlast := Segment.write_lastSeq hdone
    have hseq := ((h.segments writer).stands appending hsome).right.left
    have hnext : (s.segments appending.entry.writer).lastSeq < appending.entry.seq := by
      lia
    constructor
    · refine h.update rfl ?_ ?_ ?_ (List.Subset.refl _) h.existing ?_ ?_
      · rw [List.filter_append, List.filter_singleton, decide_eq_true hwriting.left]
        exact hsound
      · intro other hother
        have hne : appending.entry.writer ≠ other := fun heq =>
          hother (heq.symm.trans hwriting.left)
        rw [List.filter_append, List.filter_singleton,
          decide_eq_false hne, cond_false, List.append_nil]
      · intro other hother
        rw [hdone] at hother
        cases hother
      · intro entry hentry
        rcases mem_concat.mp hentry with hold | rfl
        · exact h.listed entry hold
        · rw [hwriting.left]
          exact hwriting.right
      · rw [List.nodup_append]
        refine ⟨h.distinct, by simp, ?_⟩
        intro entry hentry other hother heq
        rw [List.mem_singleton.mp hother] at heq
        have hlt := h.isNext hnext entry hentry (by rw [heq])
        lia
    · exact ⟨rfl, rfl, rfl, rfl, later_update hlater, lastSeq_update (by rw [hlast]; lia),
        Or.inr ⟨appending.entry, rfl, hnext⟩⟩

theorem failWrite_step {appending : Appending δ} (h : s.SegmentsSound format)
    (hsome : (s.segments writer).appending = some appending) (truncated : Bool)
    (hmtime : (s.segments writer).mtime < mtime) :
    (s.failWrite writer appending truncated mtime).SegmentsSound format ∧
      WriterStep s (s.failWrite writer appending truncated mtime) := by
  have hremembers := (s.segments writer).failWrite_remembers appending truncated mtime
  constructor
  · refine h.update rfl ((h.segments writer).failWrite hsome)
      (fun _ _ => rfl) ?_ (List.Subset.refl _) h.existing h.listed h.distinct
    intro other hother
    rw [hremembers.right] at hother
    cases hother
  · exact ⟨rfl, rfl, rfl, rfl, later_update (Segment.later_failWrite hmtime),
      lastSeq_update (Nat.le_of_eq hremembers.left.symm), Or.inl rfl⟩

end

end InboxRun

end Blackboard
end Hyperloom
