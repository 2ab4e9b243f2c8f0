import Hyperloom.Toolbox.CardHolds

/-!
# The charge for a lease's cards

Every end the ledger gives to the blackboard comes no earlier than the cards it
names were really back, but for the ends of leases found open: those come no
earlier than the last row of the toolbox that was lost.  The charge follows,
whatever order the rows are replayed in and however many ends a card has.
-/

namespace Hyperloom
namespace Toolbox

open Library Blackboard

/-!
## The ledger's ends
-/

variable {s t : LedgerRun} {finish : LeaseEnd} {leaseId : String}

namespace LedgerRun

/-- An end comes no earlier than the return of the cards it names, or ends a
lost lease no earlier than the last row of its toolbox. -/
def Fair (s : LedgerRun) (finish : LeaseEnd) : Prop :=
  forall card, finish.gpuIds = [] ∨ card ∈ finish.gpuIds ->
    exists time, s.outUntil finish.leaseId card = some time ∧ (time ≤ finish.endedAt ∨
        (finish.endReason = .toolboxLost ∧
          exists seen, s.lastSeen finish.leaseId = some seen ∧ seen ≤ finish.endedAt))

def Gone (s : LedgerRun) (leaseId : String) : Prop :=
  (forall card, exists time, s.outUntil leaseId card = some time) ∧
  exists seen, s.lastSeen leaseId = some seen

/-- What `t` has forgotten of `s` is nothing. -/
structure Later (s t : LedgerRun) : Prop where
  outUntil : forall leaseId card time, s.outUntil leaseId card = some time ->
    t.outUntil leaseId card = some time
  lastSeen : forall leaseId seen, s.lastSeen leaseId = some seen -> t.lastSeen leaseId = some seen

theorem Fair.later (h : s.Fair finish) (hlater : Later s t) : t.Fair finish := by
  intro card hcard
  rcases h card hcard with ⟨time, htime, hle | ⟨hlost, seen, hseen, hle⟩⟩
  · exact ⟨time, hlater.outUntil _ _ _ htime, Or.inl hle⟩
  · exact ⟨time, hlater.outUntil _ _ _ htime, Or.inr ⟨hlost, seen, hlater.lastSeen _ _ hseen, hle⟩⟩

theorem Gone.later (h : s.Gone leaseId) (hlater : Later s t) : t.Gone leaseId := by
  rcases h with ⟨hout, seen, hseen⟩
  constructor
  · intro card
    rcases hout card with ⟨time, htime⟩
    exact ⟨time, hlater.outUntil _ _ _ htime⟩
  · exact ⟨seen, hlater.lastSeen _ _ hseen⟩

end LedgerRun

def LedgerMode.ends : LedgerMode -> List LeaseEnd
  | .down => []
  | .recovering lost seen => lost.map fun start => lostEnd start seen
  | .running => []
  | .closing still at_ =>
    still.map fun leaseId => ⟨leaseId, at_, .sessionClose, []⟩

namespace LedgerRun

structure Sound (s : LedgerRun) : Prop where
  past : forall leaseId card time, s.outUntil leaseId card = some time -> time ≤ s.now
  seen : forall leaseId seen, s.lastSeen leaseId = some seen ->
    exists latest, s.rows.toolboxSeenAt = some latest ∧ seen ≤ latest
  granting : forall start, start ∈ s.granting -> start ∈ s.granted
  ended : forall finish, s.rows.Has (.finish finish) -> s.Fair finish
  writing : forall finish, finish ∈ s.writes -> s.Fair finish
  ending : forall finish, finish ∈ s.mode.ends -> s.Fair finish
  started : forall start, s.rows.Has (.start start) ->
    start.leaseId ∈ s.grantedIds ∨ s.Gone start.leaseId
  byToolbox : forall start entry, entry ∈ s.rows ->
    entry.detail = .start start -> entry.role = .toolbox
  down : s.mode = .down -> s.granted = []

namespace Sound

variable {s : LedgerRun}

theorem initial (now : Rat) : Sound { now := now } where
  past leaseId card time h := by cases h
  seen leaseId seen h := by cases h
  granting start h := by cases h
  ended finish h := by
    rcases h with ⟨entry, hentry, _⟩
    cases hentry
  writing finish h := by cases h
  ending finish h := by cases h
  started start h := by
    rcases h with ⟨entry, hentry, _⟩
    cases hentry
  byToolbox start entry h := by cases h
  down h := rfl

section

variable (h : Sound s)

include h

theorem appendRow (entry : Entry LeaseDetail)
    (hend : forall finish, entry.detail = .finish finish -> s.Fair finish)
    (hstart : forall start, entry.detail = .start start ->
      entry.role = .toolbox ∧ start.leaseId ∈ s.grantedIds) :
    Sound { s with rows := s.rows ++ [entry] } where
  __ := h
  seen leaseId seen hseen := by
    rcases h.seen leaseId seen hseen with ⟨latest, hlatest, hle⟩
    rcases LeaseRows.toolboxSeenAt_append hlatest entry with ⟨later, hlater, hle'⟩
    exact ⟨later, hlater, le_trans hle hle'⟩
  ended finish hfinish := by
    rcases LeaseRows.has_append hfinish with hold | hnew
    · exact h.ended finish hold
    · exact hend finish hnew
  started start hs := by
    rcases LeaseRows.has_append hs with hold | hnew
    · exact h.started start hold
    · exact Or.inl (hstart start hnew).2
  byToolbox start row hrow hdetail := by
    rcases mem_concat.mp hrow with hrow | rfl
    · exact h.byToolbox start row hrow hdetail
    · exact (hstart start hdetail).1

theorem appendOther (kind : EntryKind)
    (branch summary : String) : Sound (s.append kind branch summary .other) :=
  h.appendRow _ nofun nofun

theorem appendStart {start : LeaseStart}
    (hgranted : start.leaseId ∈ s.grantedIds) : Sound (s.appendStart start) := by
  apply h.appendRow
  · nofun
  · intro other heq
    cases heq
    exact ⟨rfl, hgranted⟩

theorem appendEnd (hfair : s.Fair finish) (ht : s.appendEnd finish = some t) :
    Sound t ∧ Later s t := by
  unfold LedgerRun.appendEnd at ht
  split at ht
  · cases ht
  rcases some_of_when ht with ⟨_, rfl⟩
  constructor
  · apply h.appendRow
    · intro other heq
      cases heq
      exact hfair
    · nofun
  · exact ⟨fun _ _ _ htime => htime, fun _ _ hseen => hseen⟩

/-- Writing an end: the row may be there or not, and the lease may be left to
the close. -/
theorem writeEnd (hfair : s.Fair finish) (result : WriteResult) :
    Sound (s.writeEnd finish result) ∧ Later s (s.writeEnd finish result) := by
  have hkept : Sound { s with unrecorded := s.unrecorded ++ [finish.leaseId] } := { h with }
  have hsame : Later s { s with unrecorded := s.unrecorded ++ [finish.leaseId] } :=
    ⟨fun _ _ _ htime => htime, fun _ _ hseen => hseen⟩
  unfold LedgerRun.writeEnd
  cases happend : s.appendEnd finish with
  | none => exact ⟨hkept, hsame⟩
  | some t =>
    rcases h.appendEnd hfair happend with ⟨hsound, hlater⟩
    cases result with
    | ok => exact ⟨hsound, hlater⟩
    | failed written =>
      cases written with
      | false => exact ⟨hkept, hsame⟩
      | true =>
        exact ⟨{ hsound with }, ⟨hlater.outUntil, hlater.lastSeen⟩⟩

theorem fair_of_marked (hnow : s.now ≤ finish.endedAt)
    (hmarked : forall card, finish.gpuIds = [] ∨ card ∈ finish.gpuIds ->
      exists time, s.outUntil finish.leaseId card = some time) : s.Fair finish := by
  intro card hcard
  rcases hmarked card hcard with ⟨time, htime⟩
  exact ⟨time, htime, Or.inl (le_trans (h.past _ _ _ htime) hnow)⟩

end

end Sound

/-!
## Cards going back
-/

theorem later_giveBack (s : LedgerRun) (back : String -> Nat -> Bool) :
    Later s (s.giveBack back) where
  outUntil leaseId card time htime := by
    simp only [giveBack, htime]
  lastSeen leaseId seen hseen := hseen

theorem giveBack_marks (s : LedgerRun) (back : String -> Nat -> Bool) {card : Nat}
    (hback : back leaseId card = true) :
    exists time, (s.giveBack back).outUntil leaseId card = some time := by
  cases htime : s.outUntil leaseId card with
  | none => exact ⟨s.now, by simp only [giveBack, htime, hback, if_true]⟩
  | some time => exact ⟨time, (s.later_giveBack back).outUntil _ _ _ htime⟩

theorem Sound.giveBack (h : Sound s) (back : String -> Nat -> Bool) : Sound (s.giveBack back) where
  __ := h
  past leaseId card time htime := by
    simp only [LedgerRun.giveBack] at htime
    split at htime
    · rename_i old hold
      cases htime
      exact h.past _ _ _ hold
    · rcases some_of_when htime with ⟨_, rfl⟩
      exact le_refl s.now
  ended finish hfinish := (h.ended finish hfinish).later (s.later_giveBack _)
  writing finish hfinish := (h.writing finish hfinish).later (s.later_giveBack _)
  ending finish hfinish := (h.ending finish hfinish).later (s.later_giveBack _)
  started start hstart := by
    rcases h.started start hstart with hgranted | hgone
    · exact Or.inl hgranted
    · exact Or.inr (hgone.later (s.later_giveBack _))

theorem Sound.returned (h : Sound s) {gpuIds : List Nat}
    (hmarked : forall card, gpuIds = [] ∨ card ∈ gpuIds ->
      exists time, s.outUntil leaseId card = some time) (bound : Bool) :
    Sound (s.returned leaseId gpuIds bound) := by
  have hfair : s.Fair ⟨leaseId, s.now, .released, gpuIds⟩ :=
    h.fair_of_marked (le_refl s.now) hmarked
  unfold LedgerRun.returned
  split
  · exact h
  · cases bound with
    | false =>
      exact { h with }
    | true =>
      refine { h with writing := ?_ }
      intro finish hfinish
      rcases mem_concat.mp hfinish with hfinish | rfl
      · exact h.writing finish hfinish
      · exact hfair
  · exact h

/-!
## The toolbox's start, close and end
-/

namespace Sound

variable {s : LedgerRun}

theorem fair_lostEnd (h : Sound s) {start : LeaseStart} (hgone : s.Gone start.leaseId) :
    s.Fair (lostEnd start s.rows.toolboxSeenAt) := by
  intro card _
  rcases hgone with ⟨hout, seen, hseen⟩
  rcases hout card with ⟨time, htime⟩
  rcases h.seen _ _ hseen with ⟨latest, hlatest, hle⟩
  refine ⟨time, htime, Or.inr ⟨rfl, seen, hseen, ?_⟩⟩
  simp only [hlatest]
  exact le_trans hle (le_max_left latest start.startedAt)

theorem start (h : Sound s) (hdown : s.mode = .down) (writer : String) :
    Sound { s with
      writer := writer
      mode := .recovering (((cardHolds s.rows).filter fun hold => !hold.closed).map
          CardHold.start) s.rows.toolboxSeenAt } where
  __ := h
  ending finish hfinish := by
    rcases List.mem_map.mp hfinish with ⟨start, hstart, rfl⟩
    rcases List.mem_map.mp hstart with ⟨hold, hhold, hholdStart⟩
    have hmem := (List.mem_filter.mp hhold).1
    rcases List.mem_map.mp hmem with ⟨recorded, hrecorded, rfl⟩
    have hsame : recorded = start := by
      rw [← hholdStart, CardHold.foldl_apply_start]
    rw [hsame] at hrecorded
    rcases h.started start (LeaseRows.mem_leaseStarts hrecorded) with hgranted | hgone
    · simp [grantedIds, h.down hdown] at hgranted
    · exact h.fair_lostEnd hgone
  down hmode := by cases hmode

theorem writeNext (h : Sound s) {mode : LedgerMode} (hends : s.mode.ends = finish :: mode.ends)
    (hmode : mode ≠ .down) (result : WriteResult) :
    Sound { s.writeEnd finish result with mode := mode } := by
  have hfair : s.Fair finish := by
    apply h.ending
    rw [hends]
    exact List.mem_cons_self
  rcases h.writeEnd hfair result with ⟨hsound, hlater⟩
  refine { hsound with ending := ?_, down := ?_ }
  · intro other hother
    have hold : s.Fair other := by
      apply h.ending
      rw [hends]
      exact List.mem_cons_of_mem _ hother
    exact hold.later ⟨hlater.outUntil, hlater.lastSeen⟩
  · intro hdown
    exact absurd hdown hmode

theorem close (h : Sound s) (still : List String) :
    Sound { s.giveBack (fun leaseId _ => leaseId ∈ still) with
      mode := .closing still s.now
      out := fun _ => none
      unrecorded := [] } := by
  have hback := h.giveBack fun leaseId _ => leaseId ∈ still
  refine { hback with ending := ?_, down := ?_ }
  · intro finish hfinish
    rcases List.mem_map.mp hfinish with ⟨leaseId, hleaseId, rfl⟩
    apply hback.fair_of_marked (le_refl s.now)
    intro card _
    exact s.giveBack_marks _ (decide_eq_true hleaseId)
  · nofun

end Sound

theorem later_stopped (s : LedgerRun) : Later s s.stopped where
  outUntil := (s.later_giveBack _).outUntil
  lastSeen leaseId seen hseen := by simp only [stopped, hseen]

theorem Sound.gone_stopped (h : Sound s) {start : LeaseStart} (hstart : s.rows.Has (.start start)) :
    s.stopped.Gone start.leaseId := by
  rcases h.started start hstart with hgranted | hgone
  · constructor
    · intro card
      exact s.giveBack_marks (fun leaseId _ => leaseId ∈ s.grantedIds) (decide_eq_true hgranted)
    · rcases hstart with ⟨entry, hentry, hdetail⟩
      have hrole := h.byToolbox start entry hentry hdetail
      rcases LeaseRows.le_toolboxSeenAt hentry hrole with ⟨latest, hlatest, _⟩
      cases hseen : s.lastSeen start.leaseId with
      | none =>
        exact ⟨latest, by simp only [stopped, hseen, if_pos hgranted, hlatest]⟩
      | some seen => exact ⟨seen, s.later_stopped.lastSeen _ _ hseen⟩
  · exact hgone.later s.later_stopped

theorem Sound.stopped (h : Sound s) : Sound s.stopped where
  __ := h
  past := (h.giveBack _).past
  seen leaseId seen hseen := by
    simp only [LedgerRun.stopped] at hseen
    split at hseen
    · rename_i old hold
      cases hseen
      exact h.seen leaseId seen hold
    · split at hseen
      · exact ⟨seen, hseen, le_refl seen⟩
      · cases hseen
  granting start hstart := by cases hstart
  ended finish hfinish := (h.ended finish hfinish).later s.later_stopped
  writing finish hfinish := by cases hfinish
  ending finish hfinish := by cases hfinish
  started start hstart := Or.inr (h.gone_stopped hstart)
  down _ := rfl

/-!
## Every run
-/

theorem Sound.grant (h : Sound s) (hmode : s.mode = .running) (start : LeaseStart) :
    Sound { s with
      granting := s.granting ++ [start]
      granted := s.granted ++ [start]
      used := s.used ++ [start.leaseId] } := by
  refine { h with granting := ?_, started := ?_, down := ?_ }
  · intro other hother
    rcases List.mem_append.mp hother with hother | hother
    · exact List.mem_append_left _ (h.granting other hother)
    · exact List.mem_append_right _ hother
  · intro other hother
    rcases h.started other hother with hgranted | hgone
    · left
      simp only [grantedIds, List.map_append, List.mem_append] at hgranted ⊢
      exact Or.inl hgranted
    · exact Or.inr hgone
  · intro hdown
    rw [hmode] at hdown
    cases hdown

theorem Sound.granted_of_granting (h : Sound s) {start : LeaseStart} (hmem : start ∈ s.granting) :
    start.leaseId ∈ s.grantedIds :=
  List.mem_map_of_mem (h.granting start hmem)

theorem Sound.eraseGranting (h : Sound s) (start : LeaseStart) :
    Sound { s with granting := s.granting.erase start } := by
  refine { h with granting := ?_ }
  intro other hother
  exact h.granting other (List.mem_of_mem_erase hother)

theorem Sound.step {op : LedgerOp} (h : Sound s) (hstep : ledgerStep s op = some t) : Sound t := by
  revert hstep
  fun_cases ledgerStep s op with (intro hstep; try cases hstep)
  | case1 now hle =>
    refine { h with past := ?_ }
    intro leaseId card time htime
    exact le_trans (h.past leaseId card time htime) hle
  | case3 entry hforeign =>
    apply h.appendRow
    · intro finish hdetail
      rw [hforeign.2] at hdetail
      cases hdetail
    · intro start hdetail
      rw [hforeign.2] at hdetail
      cases hdetail
  | case5 writer hdown => exact h.start hdown writer
  | case7 result start rest seen hmode =>
    apply h.writeNext
    · rw [hmode]
      rfl
    · exact LedgerMode.noConfusion
  | case8 => exact { h with ending := nofun, down := nofun }
  | case10 | case11 => exact h.appendOther _ _ _
  | case13 start hgrant => exact h.grant hgrant.1 start
  | case15 start hmem =>
    have happend := (h.eraseGranting start).appendStart (h.granted_of_granting hmem)
    exact { happend with }
  | case16 start hmem =>
    exact ((h.eraseGranting start).giveBack _).appendStart (h.granted_of_granting hmem)
  | case17 start =>
    rw [← Option.some.inj hstep]
    exact (h.eraseGranting start).giveBack _
  | case19 start gpuIds bound =>
    apply (h.giveBack _).returned
    intro card hcard
    apply s.giveBack_marks
    rcases hcard with hnone | hcard
    · simp [hnone]
    · simp [hcard]
  | case21 finish result hmem =>
    have hrest : Sound { s with writes := s.writes.erase finish } := by
      refine { h with writing := ?_ }
      intro other hother
      exact h.writing other (List.mem_of_mem_erase hother)
    exact (hrest.writeEnd (h.writing finish hmem) result).1
  | case23 => exact h.close _
  | case25 result leaseId rest at_ hmode =>
    apply h.writeNext
    · rw [hmode]
      rfl
    · exact LedgerMode.noConfusion
  | case28 => exact h.stopped

theorem Sound.of_reachable (h : ledgerMachine.Reachable s) : Sound s := by
  refine h.invariant ?_ ?_
  · intro start hinit
    rw [hinit]
    exact initial start.now
  · intro s op t hs _ hstep
    exact hs.step hstep

/-- When each card of a lease was really back, or its toolbox over. -/
def realHold (s : LedgerRun) (start : LeaseStart) : CardHold where
  start := start
  returned := s.outUntil start.leaseId

/-- The same, but a card that was lost with its toolbox counts up to the last
time that toolbox was seen. -/
def seenHold (s : LedgerRun) (start : LeaseStart) : CardHold where
  start := start
  returned card :=
    match recordedEnd s.rows start card, s.lastSeen start.leaseId with
    | some ⟨_, _, .toolboxLost, _⟩, some seen =>
      (s.outUntil start.leaseId card).map fun time => min time seen
    | _, _ => s.outUntil start.leaseId card

end LedgerRun

theorem LedgerRun.Sound.recordedEnd_fair (h : LedgerRun.Sound s) {start : LeaseStart} {card : Nat}
    (hend : recordedEnd s.rows start card = some finish) :
    exists time, s.outUntil start.leaseId card = some time ∧ (time ≤ finish.endedAt ∨
        (finish.endReason = .toolboxLost ∧
          exists seen, s.lastSeen start.leaseId = some seen ∧ seen ≤ finish.endedAt)) := by
  have hcovers := List.find?_some hend
  have hmem := List.mem_of_find?_eq_some hend
  simp only [LeaseEnd.covers, Bool.and_eq_true, decide_eq_true_eq] at hcovers
  rw [← hcovers.1]
  apply h.ended finish (LeaseRows.mem_leaseEnds hmem) card
  have hcards := hcovers.2
  unfold LeaseEnd.cards at hcards
  split at hcards
  · rename_i hempty
    exact Or.inl (List.isEmpty_iff.mp hempty)
  · exact Or.inr hcards

theorem LedgerRun.Sound.seenHold_le (h : LedgerRun.Sound s) {start : LeaseStart} {card : Nat}
    (hend : recordedEnd s.rows start card = some finish) :
    exists earlier, (s.seenHold start).returned card = some earlier ∧ earlier ≤ finish.endedAt := by
  rcases h.recordedEnd_fair hend with ⟨time, htime, hfair⟩
  simp only [LedgerRun.seenHold, hend, htime]
  split
  · rename_i seen hfinish hseen
    refine ⟨min time seen, rfl, ?_⟩
    rcases hfair with hle | ⟨_, other, hother, hle⟩
    · exact le_trans (min_le_left time seen) hle
    · rw [hseen] at hother
      cases hother
      exact le_trans (min_le_right time seen) hle
  · rename_i hnot
    refine ⟨time, rfl, ?_⟩
    rcases hfair with hle | ⟨hlost, seen, hseen, _⟩
    · exact hle
    · rcases finish with ⟨leaseId, endedAt, reason, gpuIds⟩
      cases hlost
      exact absurd hseen (hnot leaseId endedAt gpuIds seen rfl)

/-- The card seconds charged for a lease are at least the time its cards were
out, for cards lost with their toolbox up to the last time it was seen, and no
card is charged past its recorded return. -/
theorem leases_charged_for_time_out {s : LedgerRun}
    (h : ledgerMachine.Reachable s) {hold : CardHold}
    (hhold : hold ∈ cardHolds s.rows) (at_ : Rat) :
    (s.seenHold hold.start).cardSeconds at_ ≤ hold.cardSeconds at_ ∧
    forall card finish, card ∈ hold.start.cardIds ->
      recordedEnd s.rows hold.start card = some finish ->
      hold.secondsOf at_ card ≤ max 0 (finish.endedAt - hold.start.startedAt) := by
  have hsound := LedgerRun.Sound.of_reachable h
  constructor
  · apply CardHold.cardSeconds_le
    · rfl
    intro card time hcard hreturned
    rw [returned_of_mem_cardHolds hhold hcard] at hreturned
    rcases Option.map_eq_some_iff.mp hreturned with ⟨finish, hend, rfl⟩
    exact hsound.seenHold_le hend
  · intro card finish hcard hend
    unfold CardHold.secondsOf
    rw [returned_of_mem_cardHolds hhold hcard, hend]
    apply max_le_max (le_refl 0)
    apply sub_le_sub_right
    exact min_le_left _ at_

def oneCardLease : LeaseStart where
  leaseId := "l1"
  holder := "agent"
  branchId := "b1"
  kind := .dev
  cards := 1
  startedAt := 0
  gpuIds := [3]

def grantTrace : List LedgerOp :=
  [.start "w1", .recoverWrite .ok, .grant oneCardLease, .recordStart oneCardLease .ok]

/-- The card comes back at 7, its end is not written, and the close at 9 ends
the lease: it is charged 9 seconds. -/
theorem leases_charged_after_failed_end :
    exists s, ledgerMachine.Reachable s ∧
      exists hold, hold ∈ cardHolds s.rows ∧ (s.seenHold hold.start).cardSeconds 20 = 7 ∧
        hold.cardSeconds 20 = 9 ∧ (s.seenHold hold.start).cardSeconds 20 ≤ hold.cardSeconds 20 := by
  have hrun := Machine.Reachable.exists_of_runIf (M := ledgerMachine)
    (P := fun s => exists hold, hold ∈ cardHolds s.rows ∧
      (s.seenHold hold.start).cardSeconds 20 = 7 ∧ hold.cardSeconds 20 = 9) { now := 0 }
    (grantTrace ++ [.tick 7, .returned oneCardLease [3] true,
      .writeEnd ⟨"l1", 7, .released, [3]⟩ (.failed false), .tick 9, .close,
      .closeWrite .ok]) rfl (by decide +kernel)
  rcases hrun with ⟨s, hs, hold, hmem, hseen, hcharged⟩
  exact ⟨s, hs, hold, hmem, hseen, hcharged, (leases_charged_for_time_out hs hmem 20).1⟩

/-- The toolbox is lost at 10 without another row: the next start ends the
lease at 0, and 10 seconds are not charged. -/
theorem lost_lease_charged_to_its_last_row :
    exists s, ledgerMachine.Reachable s ∧ s.mode = .running ∧
      exists hold, hold ∈ cardHolds s.rows ∧
        hold.cardSeconds 20 < (s.realHold hold.start).cardSeconds 20 :=
  Machine.Reachable.exists_of_runIf { now := 0 }
    (grantTrace ++ [.tick 10, .stop, .start "w2", .recoverWrite .ok, .recoverWrite .ok]) rfl
    (by decide +kernel)

end Toolbox
end Hyperloom
