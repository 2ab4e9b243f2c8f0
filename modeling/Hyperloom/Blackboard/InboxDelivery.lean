import Hyperloom.Blackboard.InboxRuns

/-!
# Each entry once

What the steps of the handles keep of the invariant, and from it what all the
polls of a run together return.
-/

namespace Hyperloom
namespace Blackboard

open Library

variable {writer : String}

namespace InboxRun

section

variable {δ : Type} {format : LineFormat (Entry δ)}
  {decode : Entry δ -> Option Payload} {branch : String} {s t : InboxRun δ}

/-!
## Steps of handles
-/

/-- A read of a segment without a line complete but for its newline finds
exactly its writer's returned entries. -/
theorem SegmentsSound.readEntries (hs : s.SegmentsSound format)
    (hwhole : format.parse (tornTail (s.segments writer).file) = none ∨
      tornTail (s.segments writer).file = []) :
    (s.segments writer).readEntries format =
      s.returned.filter fun entry => entry.writer = writer := by
  have hholds := (hs.segments writer).holds
  rw [Segment.readEntries]
  rcases hholds.readEntries with hrows | ⟨next, htorn, hrows, _⟩
  · exact hrows
  · rcases hwhole with hnone | hnil
    · rw [htorn, format.parse_render next] at hnone
      cases hnone
    · rw [LineFormat.rows_of_whole hnil, hholds.records]

variable {name : Nat} {known merged : List (Entry δ)}

section

variable (h : s.HandlesSound format decode)

include h

theorem HandlesSound.set {handle : Handle δ} (hnew : s.HandleSound format decode handle) :
    (s.setHandle name handle).HandlesSound format decode := by
  intro other
  dsimp only [setHandle]
  by_cases hother : other = name
  · rw [hother, Function.update_self]
    exact { hnew with }
  · rw [Function.update_of_ne hother]
    exact { h other with }

theorem HandlesSound.list (hs : s.SegmentsSound format) :
    (s.list name).HandlesSound format decode := by
  have hperm := List.perm_insertionSort (· ≤ · : String -> String -> Prop) s.existing
  apply h.set
  refine ⟨(h name).cached, ?_, (h name).folded⟩
  intro reading hreading
  cases hreading
  refine ⟨Snapshot.empty, hperm.nodup_iff.mpr hs.existing, ?_, List.Subset.refl _, ?_, ?_⟩
  · intro entry hentry
    cases hentry
  · intro entry hentry
    exact Or.inl (hperm.mem_iff.mpr (hs.listed entry hentry))
  · intro state hstate
    exact ((h name).folded state hstate).left.fromReturned

theorem HandlesSound.read (hs : s.SegmentsSound format) {rest : List String}
    (hreading : (s.handles name).reading = some ⟨writer :: rest, merged, known⟩)
    (hwhole : format.parse (tornTail (s.segments writer).file) = none ∨
      tornTail (s.segments writer).file = []) :
    (s.read format name ⟨writer :: rest, merged, known⟩ writer
      rest).HandlesSound format decode := by
  have hsound := (h name).reading _ hreading
  have hread := Segment.readSegment_eq ((h name).cached writer)
  rw [hs.readEntries hwhole] at hread
  have htodo := List.nodup_cons.mp hsound.todo
  apply h.set
  refine ⟨?_, ?_, (h name).folded⟩
  · intro other kept hkept
    dsimp only at hkept
    by_cases hother : other = writer
    · rw [hother, Function.update_self] at hkept
      rw [hother]
      exact hread.right kept hkept
    · rw [Function.update_of_ne hother] at hkept
      exact (h name).cached other kept hkept
  · intro reading hsome
    cases hsome
    rw [hread.left]
    refine ⟨?_, htodo.right, ?_, hsound.known, ?_, hsound.folded⟩
    · apply hsound.merged.addWriter hs.distinct
      intro entry hentry heq
      exact hsound.ahead entry hentry (heq ▸ List.mem_cons_self)
    · intro entry hentry hin
      rcases List.mem_append.mp hentry with hold | hadded
      · exact hsound.ahead entry hold (List.mem_cons_of_mem _ hin)
      · have hwriter := of_decide_eq_true (List.mem_filter.mp hadded).right
        exact htodo.left (hwriter ▸ hin)
    · intro entry hentry
      rcases hsound.complete entry hentry with hahead | hbehind
      · rcases List.mem_cons.mp hahead with hwriter | hlater
        · exact Or.inr (List.mem_append_right _ (List.mem_filter.mpr
            ⟨hsound.known hentry, decide_eq_true hwriter⟩))
        · exact Or.inl hlater
      · exact Or.inr (List.mem_append_left _ hbehind)

theorem HandlesSound.fresh (hreading : (s.handles name).reading = some ⟨[], merged, known⟩) :
    FreshState decode s.returned known ((s.handles name).state decode ⟨[], merged, known⟩) :=
  Handle.state_fresh (h name).folded ((h name).reading _ hreading)

theorem HandlesSound.fold (hreading : (s.handles name).reading = some ⟨[], merged, known⟩) :
    (s.fold decode name ⟨[], merged, known⟩).HandlesSound format decode := by
  have hfresh := h.fresh hreading
  apply h.set
  refine ⟨(h name).cached, nofun, ?_⟩
  intro state hstate
  cases hstate
  exact ⟨hfresh.entries, hfresh.folds⟩

end

/-!
## A poll
-/

theorem PagesSound.poll {brief : Entry δ -> Payload -> Option InboxItem}
    {state : BlackboardState δ} {page : InboxPage δ}
    (hs : s.SegmentsSound format) (h : s.PagesSound decode branch)
    (hfresh : FreshState decode s.returned known state)
    (hpoll : Blackboard.poll brief state branch s.cursor = some page)
    (hsegments : t.segments = s.segments) (hreturned : t.returned = s.returned)
    (hcursor : t.cursor = page.cursor) (hpages : t.pages = s.pages ++ [page])
    (hcovered : t.covered = s.covered ++ known) : t.PagesSound decode branch := by
  have hpast : t.cursor = advanceCursor s.cursor state.entries :=
    hcursor.trans (poll_offered hpoll).right.right
  have hentries := page_entries hfresh.folds hpoll
  have hoffered : t.offered = s.offered ++ page.offered.map Prod.fst := by
    unfold InboxRun.offered
    rw [hpages, List.flatMap_append, List.map_append, List.flatMap_singleton]
  have hnew : forall entry, entry ∈ page.offered.map Prod.fst <->
      entry ∈ state.entries ∧ (decode entry).isSome ∧ s.cursor entry.writer < entry.seq := by
    intro entry
    rw [hentries, List.mem_filter, Bool.and_eq_true, decide_eq_true_eq]
  refine ⟨?_, ?_, ?_, ?_, ?_, ?_⟩
  · intro writer
    rw [hpast, hsegments]
    rcases advanceCursor_cases s.cursor state.entries writer with
      hsame | ⟨entry, hentry, hwriter, hseq⟩
    · rw [hsame]
      exact h.cursor writer
    · rw [hseq]
      apply (hs.segments writer).below entry
      exact List.mem_filter.mpr ⟨hfresh.entries.fromReturned hentry, decide_eq_true hwriter⟩
  · intro entry hentry hdecoded
    rw [hreturned] at hentry
    rw [hoffered, List.mem_append, hnew, hpast]
    have hold := h.offered entry hentry hdecoded
    constructor
    · intro hin
      rcases hin with hbefore | hnow
      · exact Nat.le_trans (hold.mp hbefore) (le_advanceCursor _ _ _)
      · exact seq_le_advanceCursor s.cursor hnow.left
    · intro hle
      by_cases hseen : entry.seq ≤ s.cursor entry.writer
      · exact Or.inl (hold.mpr hseen)
      · -- The cursor moved past it, over an entry of its writer in the state.
        right
        refine ⟨?_, hdecoded, Nat.lt_of_not_le hseen⟩
        rcases advanceCursor_cases s.cursor state.entries entry.writer with
          hsame | ⟨last, hlast, hwriter, hseq⟩
        · rw [hsame] at hle
          exact absurd hle hseen
        · rw [hseq] at hle
          exact hfresh.entries.closed last entry hlast hentry hwriter.symm hle
  · rw [hoffered, List.nodup_append]
    refine ⟨h.once, ?_, ?_⟩
    · rw [hentries]
      exact hfresh.entries.nodup.filter _
    · intro entry hentry other hother heq
      rw [← heq] at hother
      have hunseen := (hnew entry).mp hother
      have hle := (h.offered entry (h.fromReturned hentry) hunseen.right.left).mp hentry
      lia
  · rw [hoffered, hreturned]
    intro entry hentry
    rcases List.mem_append.mp hentry with hold | hnow
    · exact h.fromReturned hold
    · exact hfresh.entries.fromReturned ((hnew entry).mp hnow).left
  · intro entry hentry
    rw [hcovered] at hentry
    rw [hreturned, hpast]
    rcases List.mem_append.mp hentry with hold | hknown
    · have hcovered := h.covered entry hold
      exact ⟨hcovered.left, Nat.le_trans hcovered.right (le_advanceCursor _ _ _)⟩
    · have hin := hfresh.known hknown
      exact ⟨hfresh.entries.fromReturned hin, seq_le_advanceCursor _ hin⟩
  · intro other entry items payload item hpage hin hdecode hitem
    rw [hpages] at hpage
    rcases mem_concat.mp hpage with hold | rfl
    · exact h.items other entry items payload item hold hin hdecode hitem
    · exact page_items hfresh.folds hpoll hin hdecode hitem

theorem PagesSound.same (h : s.PagesSound decode branch)
    (hsegments : t.segments = s.segments) (hreturned : t.returned = s.returned)
    (hcursor : t.cursor = s.cursor) (hpages : t.pages = s.pages)
    (hcovered : t.covered = s.covered) : t.PagesSound decode branch := by
  have hoffered : t.offered = s.offered := by
    unfold InboxRun.offered
    rw [hpages]
  refine ⟨?_, ?_, ?_, ?_, ?_, ?_⟩
  · rw [hcursor, hsegments]
    exact h.cursor
  · rw [hreturned, hoffered, hcursor]
    exact h.offered
  · rw [hoffered]
    exact h.once
  · rw [hoffered, hreturned]
    exact h.fromReturned
  · rw [hcovered, hreturned, hcursor]
    exact h.covered
  · rw [hpages]
    exact h.items

theorem SegmentsSound.setHandle (h : s.SegmentsSound format) (name : Nat)
    (handle : Handle δ) : (s.setHandle name handle).SegmentsSound format :=
  { h with }

/-!
## Runs
-/

theorem Sound.step {op : InboxOp δ} (hs : s.Sound format decode branch)
    (hsteady : s.Steady format op) (h : inboxStep format decode branch s op = some t) :
    t.Sound format decode branch := by
  have hwriter : t.SegmentsSound format ∧ WriterStep s t ->
      t.Sound format decode branch := fun hstep =>
    ⟨hstep.left, fun name => hstep.right.handles ▸
      (hs.handles name).writerStep hs.segments hstep.right,
      hs.pages.writerStep hs.segments hstep.right⟩
  revert hsteady h
  fun_cases inboxStep format decode branch s op with (intro hsteady h; cases h)
  | case1 writer build start mtime hidle =>
    exact hwriter (beginAppend_step hs.segments hidle hsteady)
  | case4 writer count mtime appending hsome =>
    exact hwriter (write_step hs.segments hsome count hsteady)
  | case6 writer truncated mtime appending hsome =>
    exact hwriter (failWrite_step hs.segments hsome truncated hsteady)
  | case7 name =>
    exact ⟨hs.segments.setHandle name _, hs.handles.list hs.segments,
      hs.pages.same rfl rfl rfl rfl rfl⟩
  | case9 name writer rest merged known hreading =>
    exact ⟨hs.segments.setHandle name _,
      hs.handles.read hs.segments hreading (hsteady writer rest merged known hreading),
      hs.pages.same rfl rfl rfl rfl rfl⟩
  | case11 name merged known hreading =>
    exact ⟨hs.segments.setHandle name _, hs.handles.fold hreading,
      hs.pages.same rfl rfl rfl rfl rfl⟩
  | case13 name brief merged known hreading =>
    have hfold := hs.handles.fold hreading
    unfold InboxRun.poll
    split
    · exact ⟨hs.segments.setHandle name _, hfold, hs.pages.same rfl rfl rfl rfl rfl⟩
    · rename_i page hpage
      exact ⟨{ hs.segments with }, fun other => { hfold other with },
        hs.pages.poll hs.segments (hs.handles.fresh hreading) hpage rfl rfl rfl rfl rfl⟩

theorem cursor_le_of_step {op : InboxOp δ}
    (h : inboxStep format decode branch s op = some t) (writer : String) :
    s.cursor writer ≤ t.cursor writer := by
  revert h
  fun_cases inboxStep format decode branch s op with (intro h; cases h)
  | case1 =>
    fun_cases InboxRun.beginAppend with
    | _ => exact Nat.le_refl _
  | case4 =>
    fun_cases InboxRun.write with
    | _ => exact Nat.le_refl _
  | case13 =>
    unfold InboxRun.poll
    split
    · exact Nat.le_refl _
    · rename_i page hpage
      rw [(poll_offered hpage).right.right]
      exact le_advanceCursor _ _ _
  | case6 | case7 | case9 | case11 => exact Nat.le_refl _

end

end InboxRun

section

variable {δ : Type} {format : LineFormat (Entry δ)}
  {decode : Entry δ -> Option Payload} {branch : String}

/-- Every run whose reads find no line complete but for its newline, and whose
cuts move the modification time on, offers every entry exactly once, and no run
takes the cursor back. -/
theorem inbox_exactly_once [DecidableEq δ] {s t : InboxRun δ} {trace : List (InboxOp δ)}
    (hs : (inboxMachine format decode branch).ReachableWhere (InboxRun.Steady format) s)
    (hrun : (inboxMachine format decode branch).Run Machine.Always s trace t) :
    s.ExactlyOnce decode branch ∧ forall writer, s.cursor writer ≤ t.cursor writer := by
  have hsound : s.Sound format decode branch := by
    apply hs.invariant ?_ ?_
    · intro start hinit
      rw [hinit]
      exact InboxRun.sound_init
    · intro s op t hs hsteady hstep
      exact hs.step hsteady hstep
  constructor
  · refine ⟨?_, ?_, ?_, hsound.pages.items⟩
    · intro entry hcovered hdecoded
      have hin := hsound.pages.covered entry hcovered
      exact List.count_eq_one_of_mem hsound.pages.once
        ((hsound.pages.offered entry hin.left hdecoded).mpr hin.right)
    · intro entry
      exact List.nodup_iff_count_le_one.mp hsound.pages.once entry
    · intro entry hentry _
      exact hsound.pages.fromReturned hentry
  · intro writer
    apply Machine.Run.relates (R := fun s t : InboxRun δ => s.cursor writer ≤ t.cursor writer)
      (fun _ => Nat.le_refl _) (fun _ _ _ => Nat.le_trans)
      (fun _ _ _ _ _ _ => trivial) ?_ hrun trivial
    intro s op t _ _ hstep
    exact InboxRun.cursor_le_of_step hstep writer

end

/-!
## A line complete but for its newline
-/

/-- An append of `e` is torn just before its newline, a poll reads the row,
and the append raises and is cut back. -/
theorem inbox_offers_raised_entry :
    ¬ forall (format : LineFormat (Entry Unit)) (s : InboxRun Unit),
      (inboxMachine format (fun _ => some .other) "b").Reachable s ->
      s.ExactlyOnce (fun _ => some .other) "b" := by
  intro hall
  rcases Machine.Reachable.exists_of_runIf
    (M := inboxMachine (LineFormat.numbering [judgedRow 1]) (fun _ => some .other) "b")
    (P := fun s => judgedRow 1 ∈ s.offered ∧ judgedRow 1 ∈ s.raised ∧ judgedRow 1 ∉ s.returned) {}
    [.beginAppend "w" judgedRow .opened 1, .write "w" 2 1, .list 0, .read 0,
      .poll 0 fun _ _ => none, .failWrite "w" true 2] rfl (by decide +kernel) with
    ⟨s, hreach, hoffered, hraised, hreturned⟩
  exact hreturned ((hall _ s hreach).right.right.left _ hoffered hraised)

instance {δ : Type} (format : LineFormat (Entry δ)) (s : InboxRun δ) (op : InboxOp δ) :
    Decidable (InboxRun.Steady format s op) :=
  match op with
  | .read name =>
    match h : (s.handles name).reading with
    | some ⟨writer :: _, _, _⟩ =>
      decidable_of_iff ((format.parse (tornTail (s.segments writer).file)).isNone ∨
        tornTail (s.segments writer).file = []) <| by
        rw [InboxRun.Steady, h, Option.isNone_iff_eq_none]
        constructor
        · intro hwhole _ _ _ _ hreading
          cases hreading
          exact hwhole
        · intro hall
          exact hall _ _ _ _ rfl
    | some ⟨[], _, _⟩ | none => isTrue (by simp [InboxRun.Steady, h])
  | .beginAppend writer _ _ mtime => inferInstanceAs (Decidable ((s.segments writer).mtime < mtime))
  | .write writer _ mtime => inferInstanceAs (Decidable ((s.segments writer).mtime ≤ mtime))
  | .failWrite writer _ mtime => inferInstanceAs (Decidable ((s.segments writer).mtime < mtime))
  | .list .. | .query .. | .poll .. => isTrue trivial

/-- One append returns and a poll offers its entry. -/
theorem inbox_exactly_once_append :
    exists (s : InboxRun Unit) (entry : Entry Unit), s.returned = [entry] ∧
      s.offered.count entry = 1 := by
  rcases Machine.ReachableWhere.exists_of_runIf
    (M := inboxMachine (LineFormat.numbering [judgedRow 1]) (fun _ => some .other) "b")
    (C := InboxRun.Steady (LineFormat.numbering [judgedRow 1]))
    (P := fun s => s.returned = [judgedRow 1] ∧ judgedRow 1 ∈ s.covered) {}
    [.beginAppend "w" judgedRow .opened 1, .write "w" 3 1, .list 0, .read 0,
      .poll 0 fun _ _ => none] rfl (by decide +kernel) with ⟨s, hreach, hreturned, hcovered⟩
  exact ⟨s, _, hreturned, (inbox_exactly_once hreach (.nil s)).left.left _ hcovered rfl⟩

end Blackboard
end Hyperloom
