import Hyperloom.Library.Machine

/-!
# The ledger of explore rounds

A variant that is not kept lands in the rejected ledger while its round still
runs.  The round's settlement merges its rows once more and then accepts its
winners; nothing but an acceptance takes a row out of the rejected ledger.
-/

namespace Hyperloom
namespace State

open Library

structure ExploreRow (δ : Type) where
  fingerprint : String
  cycle : Option Int := none
  rest : δ

structure ExploreSearch (δ : Type) where
  tested : List (String × ExploreRow δ) := []
  rejected : List (ExploreRow δ) := []
  accepted : List (ExploreRow δ) := []
  cursor : Nat := 0

structure ExploreUpdate (δ : Type) where
  tested : List (String × ExploreRow δ) := []
  rejected : List (ExploreRow δ) := []

def exploreTestedCap : Nat := 5000

/-- A dict's assignment: a key it knows keeps its place. -/
def put {α : Type} (keyOf : α -> String) (rows : List α) (new : α) : List α :=
  if keyOf new ∈ rows.map keyOf then
    rows.map fun row => if keyOf row = keyOf new then new else row
  else rows ++ [new]

section

variable {δ : Type}

def capTestedLedger (tested : List (String × ExploreRow δ)) : List (String × ExploreRow δ) :=
  (tested.reverse.take exploreTestedCap).reverse

/-- `_stamp_cycle`, for one row. -/
def ExploreRow.stampCycle (cycle : Int) (row : ExploreRow δ) : ExploreRow δ :=
  { row with cycle := row.cycle.or (some cycle) }

def mergeRejected (prior update : List (ExploreRow δ)) : List (ExploreRow δ) :=
  ((prior ++ update).filter fun row => row.fingerprint ≠ "").foldl (put ExploreRow.fingerprint) []

namespace ExploreSearch

variable (s : ExploreSearch δ) (cycle : Int) (update : ExploreUpdate δ)

def applyExploreSearchUpdate (advanceRound : Bool) : ExploreSearch δ where
  tested := capTestedLedger ((update.tested.foldl (put Prod.fst) s.tested).map fun entry =>
    (entry.1, entry.2.stampCycle cycle))
  rejected := (mergeRejected s.rejected update.rejected).map (ExploreRow.stampCycle cycle)
  accepted := s.accepted
  cursor := s.cursor + advanceRound.toNat

def recordExploreAccepted (s : ExploreSearch δ) (variant : ExploreRow δ) : ExploreSearch δ :=
  { s with
    accepted := (s.accepted.filter fun row => row.fingerprint ≠ variant.fingerprint) ++
      [{ variant with cycle := some cycle }]
    rejected := s.rejected.filter fun row => row.fingerprint ≠ variant.fingerprint }

/-- `land_verdict`, of a row and the rejected ledger's view of it. -/
def land (row : ExploreRow δ) (view : δ) : ExploreSearch δ :=
  s.applyExploreSearchUpdate cycle
    { tested := [(row.fingerprint, row)]
      rejected := [{ fingerprint := row.fingerprint, rest := view }] } false

/-- `_promote_explore`, of a round that is no revalidation. -/
def settle (winners : List (ExploreRow δ)) : ExploreSearch δ :=
  winners.foldl (recordExploreAccepted cycle) (s.applyExploreSearchUpdate cycle update true)

end ExploreSearch

inductive ExploreOp (δ : Type) where
  | land (cycle : Int) (row : ExploreRow δ) (view : δ)
  | settle (cycle : Int) (update : ExploreUpdate δ) (winners : List (ExploreRow δ))

def exploreMachine (δ : Type) : Machine (ExploreSearch δ) (ExploreOp δ) where
  init s := s = {}
  step s
    | .land cycle row view => some (s.land cycle row view)
    | .settle cycle update winners => some (s.settle cycle update winners)

/-!
## The fingerprints of a ledger
-/

def fingerprints (rows : List (ExploreRow δ)) : List String := rows.map ExploreRow.fingerprint

theorem mem_keys_put {α : Type} {keyOf : α -> String} {rows : List α} {new : α} {key : String} :
    key ∈ (put keyOf rows new).map keyOf <-> key ∈ rows.map keyOf ∨ key = keyOf new := by
  unfold put
  split
  · grind
  · simp

theorem mem_keys_foldl_put {α : Type} {keyOf : α -> String} {key : String} (new rows : List α) :
    key ∈ (new.foldl (put keyOf) rows).map keyOf <->
      key ∈ rows.map keyOf ∨ key ∈ new.map keyOf := by
  induction new generalizing rows with
  | nil => simp
  | cons first rest ih =>
    rw [List.foldl_cons, ih, mem_keys_put, List.map_cons, List.mem_cons, or_assoc]

namespace ExploreSearch

variable {s : ExploreSearch δ} {cycle : Int} {update : ExploreUpdate δ} {fp : String}
  {winners : List (ExploreRow δ)} {advanceRound : Bool} {row : ExploreRow δ} {view : δ}

theorem mem_rejected_apply :
    fp ∈ fingerprints (s.applyExploreSearchUpdate cycle update advanceRound).rejected <->
      fp ≠ "" ∧ (fp ∈ fingerprints s.rejected ∨ fp ∈ fingerprints update.rejected) := by
  have hstamp : fingerprints (s.applyExploreSearchUpdate cycle update advanceRound).rejected =
      (mergeRejected s.rejected update.rejected).map ExploreRow.fingerprint := List.map_map
  rw [hstamp, mergeRejected, mem_keys_foldl_put]
  grind [fingerprints]

/-- Accepting a round's winners moves them from the one ledger to the other. -/
theorem mem_accept (s : ExploreSearch δ) (winners : List (ExploreRow δ)) :
    (fp ∈ fingerprints (winners.foldl (recordExploreAccepted cycle) s).accepted <->
      fp ∈ fingerprints s.accepted ∨ fp ∈ fingerprints winners) ∧
    (fp ∈ fingerprints (winners.foldl (recordExploreAccepted cycle) s).rejected <->
      fp ∈ fingerprints s.rejected ∧ fp ∉ fingerprints winners) := by
  induction winners generalizing s with
  | nil => simp [fingerprints]
  | cons first rest ih =>
    rcases ih (recordExploreAccepted cycle s first) with ⟨haccepted, hrejected⟩
    rw [List.foldl_cons, haccepted, hrejected]
    grind [fingerprints, recordExploreAccepted]

theorem mem_accepted_settle : fp ∈ fingerprints (s.settle cycle update winners).accepted <->
    fp ∈ fingerprints s.accepted ∨ fp ∈ fingerprints winners :=
  (mem_accept (s.applyExploreSearchUpdate cycle update true) winners).left

theorem mem_rejected_settle : fp ∈ fingerprints (s.settle cycle update winners).rejected <->
    (fp ≠ "" ∧ (fp ∈ fingerprints s.rejected ∨ fp ∈ fingerprints update.rejected)) ∧
      fp ∉ fingerprints winners := by
  unfold settle
  rw [(mem_accept _ winners).right, mem_rejected_apply]

theorem mem_rejected_land : fp ∈ fingerprints (s.land cycle row view).rejected <->
    fp ≠ "" ∧ (fp ∈ fingerprints s.rejected ∨ fp = row.fingerprint) := by
  unfold land
  rw [mem_rejected_apply]
  simp [fingerprints]

/-!
## No fingerprint on both sides
-/

section

variable (s : ExploreSearch δ)

def Consistent : Prop :=
  forall fp, fp ∈ fingerprints s.accepted -> fp ∉ fingerprints s.rejected

/-- No row turns down what is accepted, unless its own round accepts it. -/
def SparesAccepted : ExploreOp δ -> Prop
  | .land _ row _ => row.fingerprint = "" ∨ row.fingerprint ∉ fingerprints s.accepted
  | .settle _ update winners =>
    forall fp, fp ∈ fingerprints update.rejected ->
      fp = "" ∨ fp ∉ fingerprints s.accepted ∨ fp ∈ fingerprints winners

instance (op : ExploreOp δ) : Decidable (SparesAccepted s op) := by
  unfold SparesAccepted
  split
  all_goals infer_instance

end

theorem Consistent.step {t : ExploreSearch δ} {op : ExploreOp δ} (h : s.Consistent)
    (hspares : s.SparesAccepted op) (hstep : (exploreMachine δ).step s op = some t) :
    t.Consistent := by
  intro fp haccepted hrejected
  cases op with
  | land cycle row view =>
    cases hstep
    rcases mem_rejected_land.mp hrejected with ⟨hnamed, hold | rfl⟩
    · exact h fp haccepted hold
    · exact hspares.elim hnamed fun hfresh => hfresh haccepted
  | settle cycle update winners =>
    cases hstep
    rcases mem_rejected_settle.mp hrejected with ⟨⟨hnamed, hold | hnew⟩, hlost⟩
    · exact h fp ((mem_accepted_settle.mp haccepted).resolve_right hlost) hold
    · rcases hspares fp hnew with hempty | hfresh | hwon
      · exact hnamed hempty
      · exact hfresh ((mem_accepted_settle.mp haccepted).resolve_right hlost)
      · exact hlost hwon

theorem consistent_of_reachable (hs : (exploreMachine δ).ReachableWhere SparesAccepted s) :
    s.Consistent := by
  refine hs.invariant ?_ ?_
  · intro start hstart fp haccepted
    rw [hstart] at haccepted
    cases haccepted
  · intro _ _ _ h hspares hstep
    exact h.step hspares hstep

/-!
## Landing before settling
-/

variable (s : ExploreSearch δ) (rows : List (Int × ExploreRow δ × δ))

/-- Rows that land one by one, each with the macro-cycle it lands in. -/
def landAll : ExploreSearch δ :=
  rows.foldl (fun t row => t.land row.1 row.2.1 row.2.2) s

theorem mem_landAll (fp : String) : (s.landAll rows).accepted = s.accepted ∧
    (fp ≠ "" ∧ fp ∈ fingerprints (s.landAll rows).rejected <-> fp ≠ "" ∧
      (fp ∈ fingerprints s.rejected ∨ fp ∈ fingerprints (rows.map fun row => row.2.1))) := by
  induction rows generalizing s with
  | nil => simp [landAll, fingerprints]
  | cons row rest ih =>
    rcases ih (s.land row.1 row.2.1 row.2.2) with ⟨haccepted, hrejected⟩
    rw [mem_rejected_land] at hrejected
    refine ⟨haccepted, ?_⟩
    grind [landAll, fingerprints]

/-- What of a round has landed before it settles makes no difference to the
fingerprints of either ledger. -/
theorem settle_landAll {landed : List (Int × ExploreRow δ × δ)}
    (cycle : Int) {update : ExploreUpdate δ} (winners : List (ExploreRow δ))
    (hround : fingerprints (landed.map fun row => row.2.1) ⊆ fingerprints update.rejected)
    (fp : String) : (fp ∈ fingerprints ((s.landAll landed).settle cycle update winners).accepted <->
      fp ∈ fingerprints (s.settle cycle update winners).accepted) ∧
    (fp ∈ fingerprints ((s.landAll landed).settle cycle update winners).rejected <->
      fp ∈ fingerprints (s.settle cycle update winners).rejected) := by
  rcases s.mem_landAll landed fp with ⟨haccepted, hrejected⟩
  rw [mem_accepted_settle, mem_accepted_settle, haccepted, mem_rejected_settle, mem_rejected_settle]
  refine ⟨Iff.rfl, ?_⟩
  have hin := @hround fp
  grind

end ExploreSearch

/-- While no row turns down what is accepted, no fingerprint is in both ledgers;
and from any state, whatever rows of a round have landed before, its settlement
leaves the same fingerprints in each. -/
theorem explore_ledgers_agree (s : ExploreSearch δ) :
    ((exploreMachine δ).ReachableWhere ExploreSearch.SparesAccepted s -> s.Consistent) ∧
    forall landed cycle update winners,
      fingerprints (landed.map fun row => row.2.1) ⊆ fingerprints update.rejected -> forall fp,
      (fp ∈ fingerprints ((s.landAll landed).settle cycle update winners).accepted <->
        fp ∈ fingerprints (s.settle cycle update winners).accepted) ∧
      (fp ∈ fingerprints ((s.landAll landed).settle cycle update winners).rejected <->
        fp ∈ fingerprints (s.settle cycle update winners).rejected) :=
  ⟨ExploreSearch.consistent_of_reachable,
    fun _ cycle _ winners hround fp => s.settle_landAll cycle winners hround fp⟩

end

def variant (fingerprint : String) : ExploreRow Unit where
  fingerprint := fingerprint
  rest := ()

/-- One variant is turned down and another kept. -/
theorem ledgers_of_one_round :
    exists s : ExploreSearch Unit, "kept" ∈ fingerprints s.accepted ∧
      "reverted" ∈ fingerprints s.rejected ∧ s.Consistent := by
  rcases Machine.ReachableWhere.exists_of_runIf (M := exploreMachine Unit)
    (C := ExploreSearch.SparesAccepted) (P := fun s => "kept" ∈ fingerprints s.accepted ∧
      "reverted" ∈ fingerprints s.rejected) {} [.land 0 (variant "reverted") (),
      .settle 0 { rejected := [variant "reverted"] } [variant "kept"]]
    rfl (by decide +kernel) with ⟨s, hs, hkept, hreverted⟩
  exact ⟨s, hkept, hreverted, (explore_ledgers_agree s).left hs⟩

/-- A variant accepted in one round is measured again in the next and lands as
turned down. -/
theorem accepted_variant_turned_down :
    ¬ forall s, (exploreMachine Unit).Reachable s -> s.Consistent := by
  intro hall
  rcases Machine.Reachable.exists_of_runIf (M := exploreMachine Unit)
    (P := fun s => "kept" ∈ fingerprints s.accepted ∧ "kept" ∈ fingerprints s.rejected) {}
    [.settle 0 {} [variant "kept"], .land 0 (variant "kept") ()]
    rfl (by decide +kernel) with ⟨s, hs, haccepted, hrejected⟩
  exact hall s hs "kept" haccepted hrejected

end State
end Hyperloom
