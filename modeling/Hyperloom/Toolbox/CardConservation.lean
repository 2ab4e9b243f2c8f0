import Mathlib.Data.List.Count
import Hyperloom.Toolbox.BranchLeases

/-!
# Conservation of cards

Every card of the pool is in one place at every await of the calls: free, in a
running test, in a granted lease, held out, or lost.  A lease gives each card
it took back once, and the cards promised and held out always leave those one
test needs.
-/

namespace Hyperloom
namespace Toolbox

open Library

/-!
## Moving cards between lists
-/

variable {gpuIds held cards : List Nat} {holder : String}

theorem count_diff_add {free : List Nat} (hnodup : gpuIds.Nodup)
    (hfree : forall card, card ∈ gpuIds -> card ∈ free) (card : Nat) :
    (free.diff gpuIds).count card + gpuIds.count card = free.count card := by
  rw [List.count_diff]
  have hone := List.nodup_iff_count_le_one.mp hnodup card
  by_cases hmem : card ∈ gpuIds
  · have hpos := List.count_pos_iff.mpr (hfree card hmem)
    lia
  · rw [List.count_eq_zero.mpr hmem]
    lia

theorem addCards_of_fresh (h : forall card, card ∈ cards -> card ∉ held) :
    addCards held cards = held ++ cards := by
  have hall : (cards.filter fun card => card ∉ held) = cards := by
    rw [List.filter_eq_self]
    intro other hother
    simpa using h other hother
  unfold addCards
  rw [hall]

theorem count_addCards (h : forall card, card ∈ cards -> card ∉ held) (card : Nat) :
    (addCards held cards).count card = held.count card + cards.count card := by
  rw [addCards_of_fresh h, List.count_append]

theorem count_removeCards {freed : List Nat} (hone : forall card, held.count card ≤ 1)
    (hnodup : freed.Nodup) (hsub : freed ⊆ held) (card : Nat) :
    (removeCards held freed).count card + freed.count card = held.count card := by
  unfold removeCards
  by_cases hmem : card ∈ freed
  · have hgone : card ∉ held.filter fun card => card ∉ freed := by
      intro hin
      simpa [hmem] using (List.mem_filter.mp hin).right
    have hpos := List.count_pos_iff.mpr (hsub hmem)
    have hfreed := List.count_pos_iff.mpr hmem
    have honce := List.nodup_iff_count_le_one.mp hnodup card
    have hheld := hone card
    rw [List.count_eq_zero.mpr hgone]
    lia
  · rw [List.count_filter (by simpa using hmem), List.count_eq_zero.mpr hmem, Nat.add_zero]

theorem count_flatten_set (left : List Nat) {threads : List (List Nat)} {i : Nat}
    (h : threads[i]? = some cards) (card : Nat) :
    (threads.set i left).flatten.count card + cards.count card =
      threads.flatten.count card + left.count card := by
  induction threads generalizing i with
  | nil => cases h
  | cons first rest ih =>
    cases i with
    | zero =>
      cases h
      simp only [List.set_cons_zero, List.flatten_cons, List.count_append]
      lia
    | succ i =>
      simp only [List.set_cons_succ, List.flatten_cons, List.count_append]
      have hrest := ih (i := i) h
      lia

theorem CardPool.release_ok {pool : CardPool} {free : List Nat} (hnodup : cards.Nodup)
    (h : forall card, card ∈ cards -> card ∈ pool.cards ∧ card ∉ free) :
    pool.release free cards = (free ++ cards, true) := by
  induction cards generalizing free with
  | nil => simp [CardPool.release]
  | cons card rest ih =>
    rw [List.nodup_cons] at hnodup
    rw [CardPool.release, if_pos (h card List.mem_cons_self), ih hnodup.right]
    · simp
    · intro other hother
      have hold := h other (List.mem_cons_of_mem _ hother)
      refine ⟨hold.left, ?_⟩
      intro hin
      rcases mem_concat.mp hin with hfree | rfl
      · exact hold.right hfree
      · exact hnodup.left hother

namespace Cards

variable {pool : CardPool} {cardsPerTest : Nat} {s t : Cards}

theorem giveToPool_ok (hnodup : cards.Nodup)
    (h : forall card, card ∈ cards -> card ∈ pool.cards ∧ card ∉ s.free) :
    s.giveToPool pool cards =
      { s with free := s.free ++ cards, returned := s.returned ++ cards } := by
  unfold giveToPool
  rw [CardPool.release_ok hnodup h]
  simp

theorem offers_iff : s.offers gpuIds = true <->
    gpuIds.Nodup ∧ forall card, card ∈ gpuIds -> card ∈ s.free := by
  unfold offers
  simp

/-!
## The invariant
-/

/-- The promises are those of the waiting calls and of the granted leases, the
threads of released leases have the cards held out, and a lease whose grant is
being recorded is granted unless the toolbox has closed and released it. -/
structure Sound (pool : CardPool) (cardsPerTest : Nat) (s : Cards) : Prop where
  places : forall card, s.places card = pool.cards.count card
  threads : forall card, s.returning.flatten.count card = s.heldOut.count card
  calls : forall weight : CardPromise -> Nat,
    (s.waiting.map weight).sum + s.granted.total (fun lease => weight lease.promise) =
    s.promised.total weight
  nodup : s.recording.Nodup
  recording : forall lease, lease ∈ s.recording -> lease ∈ s.granted ∨
    (s.closed = true ∧ s.promised.find? lease.holder = none ∧ s.granted.find? lease.leaseId = none)
  ledger : forall card, s.taken.count card = s.returned.count card + s.leased card
  room : s.promised.total CardPromise.cards + s.heldOut.length = 0 ∨
    s.promised.total CardPromise.cards + s.heldOut.length + cardsPerTest ≤ pool.cards.length
  accepted : s.refused = false

variable {promise : CardPromise}

section

variable (hs : s.Sound pool cardsPerTest)

include hs

theorem Sound.places_le_one (card : Nat) :
    s.free.count card + s.sandboxes.total (fun sandbox => sandbox.gpuIds.count card) +
      (s.granted.total (fun lease => lease.gpuIds.count card) +
        s.heldOut.count card) + s.quarantined.count card =
      pool.cards.count card ∧ pool.cards.count card ≤ 1 :=
  ⟨hs.places card, List.nodup_iff_count_le_one.mp pool.nodup card⟩

theorem Sound.promised_of_waiting (h : promise ∈ s.waiting) : promise ∈ s.promised := by
  have hcalls := hs.calls fun other => if other = promise then 1 else 0
  have hone : 1 ≤ (s.waiting.map fun other =>
      if other = promise then 1 else 0).sum := by
    apply List.single_le_sum (fun _ _ => Nat.zero_le _)
    exact List.mem_map.mpr ⟨promise, h, if_pos rfl⟩
  exact Table.mem_of_total_pos (by lia)

theorem Sound.promised_of_granted {lease : Lease} (h : lease ∈ s.granted) :
    lease.promise ∈ s.promised := by
  have hcalls := hs.calls fun other => if other = lease.promise then 1 else 0
  have hone := Table.le_total h fun other =>
    if other.promise = lease.promise then 1 else 0
  exact Table.mem_of_total_pos (by lia)

/-- Cards that are counted beside the free cards and `others` are none of them. -/
theorem Sound.apart {ids others : List Nat}
    (hcount : forall card, s.free.count card + ids.count card + others.count card ≤
      pool.cards.count card) :
    ids.Nodup ∧ forall card, card ∈ ids -> card ∈ pool.cards ∧ card ∉ s.free ∧ card ∉ others := by
  constructor
  · rw [List.nodup_iff_count_le_one]
    intro card
    have hplaces := hs.places_le_one card
    have hids := hcount card
    lia
  · intro card hcard
    have hplaces := hs.places_le_one card
    have hids := hcount card
    have hpos := List.count_pos_iff.mpr hcard
    refine ⟨List.count_pos_iff.mp (by lia), ?_, ?_⟩
    · exact List.count_eq_zero.mp (by lia)
    · exact List.count_eq_zero.mp (by lia)

theorem Sound.lease_cards {lease : Lease} (h : lease ∈ s.granted) :
    lease.gpuIds.Nodup ∧ forall card, card ∈ lease.gpuIds ->
      card ∈ pool.cards ∧ card ∉ s.free ∧ card ∉ s.heldOut := by
  apply hs.apart
  intro card
  have hplaces := hs.places_le_one card
  have hlease := Table.le_total h fun other => other.gpuIds.count card
  lia

theorem Sound.sandbox_cards {sandbox : CardSandbox} (h : sandbox ∈ s.sandboxes) :
    sandbox.gpuIds.Nodup ∧ forall card, card ∈ sandbox.gpuIds ->
      card ∈ pool.cards ∧ card ∉ s.free ∧ card ∉ s.quarantined := by
  apply hs.apart
  intro card
  have hplaces := hs.places_le_one card
  have hsandbox := Table.le_total h fun other => other.gpuIds.count card
  lia

end

/-!
## The steps of a lease
-/

theorem promise_ok {cards : Nat} (h : s.promise pool cardsPerTest holder cards = .ok t) :
    exists promised, s.promised.insertNew ⟨holder, cards⟩ = some promised ∧
      1 ≤ cards ∧ cards + cardsPerTest ≤ s.measurementCards pool ∧
      t = { s with promised := promised } := by
  unfold promise at h
  split at h
  · cases h
  rename_i promised hinsert
  unfold refuseUnfitCards at h
  by_cases hone : cards < 1
  · rw [if_pos hone] at h
    cases h
  · rw [if_neg hone] at h
    by_cases hfew : s.measurementCards pool < cards + cardsPerTest
    · rw [if_pos hfew] at h
      cases h
    · rw [if_neg hfew] at h
      cases h
      exact ⟨promised, hinsert, by lia, by lia, rfl⟩

section

variable (hs : s.Sound pool cardsPerTest)

include hs

theorem Sound.lease {cards : Nat} (hopen : s.closed = false)
    (h : s.promise pool cardsPerTest holder cards = .ok t) :
    Sound pool cardsPerTest { t with waiting := s.waiting ++ [⟨holder, cards⟩] } := by
  rcases promise_ok h with ⟨promised, hinsert, hone, hroom, rfl⟩
  refine { hs with calls := ?_, recording := ?_, room := ?_ }
  · intro weight
    have hcalls := hs.calls weight
    have htotal := Table.total_insertNew hinsert weight
    simp only [List.map_append, List.sum_append, List.map_cons, List.map_nil,
      List.sum_cons, List.sum_nil]
    lia
  · intro lease hlease
    left
    rcases hs.recording lease hlease with hgranted | hclosed
    · exact hgranted
    · rw [hopen] at hclosed
      cases hclosed.left
  · right
    have htotal := Table.total_insertNew hinsert CardPromise.cards
    unfold measurementCards at hroom
    dsimp only at hroom htotal ⊢
    omega

theorem Sound.take {leaseId : String} {granted : Table Lease Lease.leaseId}
    (hwaiting : promise ∈ s.waiting) (hopen : s.closed = false) (hoffers : s.offers gpuIds = true)
    (hlength : gpuIds.length = promise.cards)
    (hfresh : forall lease, lease ∈ s.recording -> lease.leaseId ≠ leaseId)
    (hinsert : s.granted.insertNew ⟨leaseId, promise.holder, gpuIds⟩ = some granted) :
    Sound pool cardsPerTest { s with
      free := s.free.diff gpuIds
      granted := granted
      waiting := s.waiting.erase promise
      recording := s.recording ++ [⟨leaseId, promise.holder, gpuIds⟩]
      taken := s.taken ++ gpuIds } := by
  rcases offers_iff.mp hoffers with ⟨hnodup, hfree⟩
  have hpromise : Lease.promise ⟨leaseId, promise.holder, gpuIds⟩ = promise := by
    unfold Lease.promise
    rw [hlength]
  have hcards : forall card, granted.total (fun lease => lease.gpuIds.count card) =
        s.granted.total (fun lease => lease.gpuIds.count card) + gpuIds.count card :=
    fun card => Table.total_insertNew hinsert _
  refine ⟨?_, hs.threads, ?_, ?_, ?_, ?_, hs.room, hs.accepted⟩
  · intro card
    have hplaces := hs.places card
    have hmoved := count_diff_add hnodup hfree card
    have hgranted := hcards card
    simp only [Cards.places, Cards.leased] at hplaces ⊢
    lia
  · intro weight
    have hcalls := hs.calls weight
    have herase := List.sum_map_erase weight hwaiting
    have htotal := Table.total_insertNew hinsert fun lease => weight lease.promise
    lia
  · rw [List.nodup_append]
    refine ⟨hs.nodup, List.nodup_singleton _, ?_⟩
    intro lease hlease other hother heq
    rw [List.mem_singleton.mp hother] at heq
    rw [heq] at hlease
    exact hfresh _ hlease rfl
  · intro lease hlease
    left
    apply (Table.mem_insertNew hinsert).mpr
    rcases mem_concat.mp hlease with hold | hnew
    · right
      rcases hs.recording lease hold with hgranted | hclosed
      · exact hgranted
      · rw [hopen] at hclosed
        cases hclosed.left
    · left
      exact hnew
  · intro card
    have hledger := hs.ledger card
    have hgranted := hcards card
    simp only [Cards.leased, List.count_append] at hledger ⊢
    lia

theorem Sound.giveUp (gpuIds : List Nat) (hwaiting : promise ∈ s.waiting)
    (hoffers : s.offers gpuIds = true) :
    Sound pool cardsPerTest ({ s with
      free := s.free.diff gpuIds
      waiting := s.waiting.erase promise
      taken := s.taken ++ gpuIds }.forget pool promise.holder gpuIds) := by
  rcases offers_iff.mp hoffers with ⟨hnodup, hfree⟩
  have hpromised := hs.promised_of_waiting hwaiting
  have hfind : s.promised.find? promise.holder = some promise :=
    Table.find?_eq_some.mpr ⟨hpromised, rfl⟩
  have hback : forall card, card ∈ gpuIds -> card ∈ pool.cards ∧ card ∉ s.free.diff gpuIds := by
    intro card hcard
    have hplaces := hs.places_le_one card
    have hmoved := count_diff_add hnodup hfree card
    have hpos := List.count_pos_iff.mpr hcard
    refine ⟨List.count_pos_iff.mp (by lia), ?_⟩
    exact List.count_eq_zero.mp (by lia)
  unfold forget
  rw [hfind]
  rw [giveToPool_ok hnodup (by exact hback)]
  refine ⟨?_, hs.threads, ?_, hs.nodup, ?_, ?_, ?_, hs.accepted⟩
  · intro card
    have hplaces := hs.places card
    have hmoved := count_diff_add hnodup hfree card
    simp only [Cards.places, Cards.leased, List.count_append] at hplaces ⊢
    lia
  · intro weight
    have hcalls := hs.calls weight
    have herase := List.sum_map_erase weight hwaiting
    have htotal := Table.total_deleteKey hpromised rfl weight
    lia
  · intro lease hlease
    rcases hs.recording lease hlease with hgranted | ⟨hclosed, hnone, hgone⟩
    · exact Or.inl hgranted
    · exact Or.inr ⟨hclosed, Table.find?_deleteKey_of_none hnone, hgone⟩
  · intro card
    have hledger := hs.ledger card
    simp only [Cards.leased, List.count_append] at hledger ⊢
    lia
  · have htotal := Table.total_deleteKey hpromised rfl CardPromise.cards
    have hroom := hs.room
    lia

theorem Sound.recordFails {lease : Lease} (hrecording : lease ∈ s.recording) :
    Sound pool cardsPerTest ({ s with
      granted := s.granted.deleteKey lease.leaseId
      recording := s.recording.erase lease }.forget pool lease.holder lease.gpuIds) := by
  unfold forget
  rcases hs.recording lease hrecording with hgranted | ⟨_, hnone, hgone⟩
  · have hpromised := hs.promised_of_granted hgranted
    have hfind : s.promised.find? lease.holder = some lease.promise :=
      Table.find?_eq_some.mpr ⟨hpromised, rfl⟩
    rcases hs.lease_cards hgranted with ⟨hnodup, hcards⟩
    rw [hfind]
    have hback : forall card, card ∈ lease.gpuIds -> card ∈ pool.cards ∧ card ∉ s.free :=
      fun card hcard => ⟨(hcards card hcard).left, (hcards card hcard).right.left⟩
    rw [giveToPool_ok hnodup (by exact hback)]
    refine ⟨?_, hs.threads, ?_, hs.nodup.erase lease, ?_, ?_, ?_, hs.accepted⟩
    · intro card
      have hplaces := hs.places card
      have htotal := Table.total_deleteKey hgranted rfl fun other => other.gpuIds.count card
      simp only [Cards.places, Cards.leased, List.count_append] at hplaces ⊢
      lia
    · intro weight
      have hcalls := hs.calls weight
      have htotal := Table.total_deleteKey hgranted rfl fun other => weight other.promise
      have hdeleted := Table.total_deleteKey hpromised rfl weight
      dsimp only [Lease.promise] at hcalls htotal hdeleted ⊢
      lia
    · intro other hother
      rcases hs.nodup.mem_erase_iff.mp hother with ⟨hne, hin⟩
      rcases hs.recording other hin with hstill | ⟨hclosed, hnone, hgone⟩
      · left
        refine Table.mem_deleteKey.mpr ⟨hstill, ?_⟩
        intro hid
        exact hne (Table.eq_of_key_eq hstill hgranted hid)
      · exact Or.inr ⟨hclosed, Table.find?_deleteKey_of_none hnone,
          Table.find?_deleteKey_of_none hgone⟩
    · intro card
      have hledger := hs.ledger card
      have htotal := Table.total_deleteKey hgranted rfl fun other => other.gpuIds.count card
      simp only [Cards.leased, List.count_append] at hledger ⊢
      lia
    · have htotal := Table.total_deleteKey hpromised rfl CardPromise.cards
      dsimp only [Lease.promise] at htotal ⊢
      have hroom := hs.room
      lia
  · rw [hnone, Table.deleteKey_of_find?_eq_none hgone]
    refine { hs with nodup := hs.nodup.erase lease, recording := ?_ }
    intro other hother
    exact hs.recording other (List.mem_of_mem_erase hother)

theorem Sound.release {leaseId : String}
    (hrecorded : (forall lease, lease ∈ s.recording -> lease.leaseId ≠ leaseId) ∨ s.closed = true) :
    (s.release leaseId).Sound pool cardsPerTest := by
  unfold Cards.release
  split
  · exact hs
  · rename_i lease hfound
    rcases Table.find?_eq_some.mp hfound with ⟨hgranted, hid⟩
    have hpromised := hs.promised_of_granted hgranted
    rcases hs.lease_cards hgranted with ⟨_, hcards⟩
    have hout : forall card, card ∈ lease.gpuIds -> card ∉ s.heldOut :=
      fun card hcard => (hcards card hcard).right.right
    refine ⟨?_, ?_, ?_, hs.nodup, ?_, ?_, ?_, hs.accepted⟩
    · intro card
      have hplaces := hs.places card
      have htotal := Table.total_deleteKey hgranted hid fun other => other.gpuIds.count card
      have hheld := count_addCards hout card
      simp only [Cards.places, Cards.leased] at hplaces ⊢
      lia
    · intro card
      have hthreads := hs.threads card
      have hheld := count_addCards hout card
      simp only [List.flatten_append, List.flatten_cons, List.flatten_nil,
        List.append_nil, List.count_append]
      lia
    · intro weight
      have hcalls := hs.calls weight
      have htotal := Table.total_deleteKey hgranted hid fun other => weight other.promise
      have hdeleted := Table.total_deleteKey hpromised rfl weight
      dsimp only [Lease.promise] at hcalls htotal hdeleted ⊢
      lia
    · intro other hother
      rcases hs.recording other hother with hstill | ⟨hclosed, hnone, hgone⟩
      · by_cases hsame : other.leaseId = leaseId
        · right
          rcases hrecorded with hno | hclosed
          · exact absurd hsame (hno other hother)
          have heq : other = lease := Table.eq_of_key_eq hstill hgranted (hsame.trans hid.symm)
          refine ⟨hclosed, ?_, ?_⟩
          · rw [heq]
            exact Table.find?_deleteKey_self
          · rw [hsame]
            exact Table.find?_deleteKey_self
        · exact Or.inl (Table.mem_deleteKey.mpr ⟨hstill, hsame⟩)
      · exact Or.inr ⟨hclosed, Table.find?_deleteKey_of_none hnone,
          Table.find?_deleteKey_of_none hgone⟩
    · intro card
      have hledger := hs.ledger card
      have htotal := Table.total_deleteKey hgranted hid fun other => other.gpuIds.count card
      have hheld := count_addCards hout card
      simp only [Cards.leased] at hledger ⊢
      lia
    · have htotal := Table.total_deleteKey hpromised rfl CardPromise.cards
      have hheld := congrArg List.length (addCards_of_fresh hout)
      rw [List.length_append] at hheld
      dsimp only [Lease.promise] at htotal ⊢
      have hroom := hs.room
      lia

end

theorem release_closed (s : Cards) (leaseId : String) : (s.release leaseId).closed = s.closed := by
  unfold Cards.release
  split
  · rfl
  · rfl

section

variable (hs : s.Sound pool cardsPerTest)

include hs

theorem Sound.close : s.close.Sound pool cardsPerTest := by
  have hall : forall (ids : List String) (t : Cards),
      t.Sound pool cardsPerTest -> t.closed = true ->
      (ids.foldl Cards.release t).Sound pool cardsPerTest := by
    intro ids
    induction ids with
    | nil =>
      intro t ht _
      exact ht
    | cons leaseId rest ih =>
      intro t ht hclosed
      apply ih _ (ht.release (Or.inr hclosed))
      rw [release_closed]
      exact hclosed
  apply hall _ _ ?_ rfl
  refine { hs with recording := ?_ }
  intro lease hlease
  rcases hs.recording lease hlease with hgranted | hrest
  · exact Or.inl hgranted
  · exact Or.inr ⟨rfl, hrest.right⟩

theorem Sound.giveBack {thread : Nat} {freed : List Nat}
    (hthread : s.returning[thread]? = some cards) (hnodup : freed.Nodup) (hsub : freed ⊆ cards) :
    Sound pool cardsPerTest ({ s with
      heldOut := removeCards s.heldOut freed
      returning := s.returning.set thread (removeCards cards freed) }.giveToPool pool freed) := by
  have hcount : forall card, cards.count card ≤ s.heldOut.count card := by
    intro card
    have hset := count_flatten_set [] hthread card
    have hthreads := hs.threads card
    rw [List.count_nil] at hset
    lia
  have hone : forall card, s.heldOut.count card ≤ 1 := by
    intro card
    have hplaces := hs.places_le_one card
    lia
  have hheld : freed ⊆ s.heldOut := by
    intro card hcard
    have hpos := List.count_pos_iff.mpr (hsub hcard)
    have hle := hcount card
    exact List.count_pos_iff.mp (by lia)
  have hmine : forall card, cards.count card ≤ 1 :=
    fun card => Nat.le_trans (hcount card) (hone card)
  have hback : forall card, card ∈ freed -> card ∈ pool.cards ∧ card ∉ s.free := by
    intro card hcard
    have hplaces := hs.places_le_one card
    have hpos := List.count_pos_iff.mpr (hheld hcard)
    refine ⟨List.count_pos_iff.mp (by lia), ?_⟩
    exact List.count_eq_zero.mp (by lia)
  rw [giveToPool_ok hnodup (by exact hback)]
  refine ⟨?_, ?_, hs.calls, hs.nodup, hs.recording, ?_, ?_, hs.accepted⟩
  · intro card
    have hplaces := hs.places card
    have hmoved := count_removeCards hone hnodup hheld card
    simp only [Cards.places, Cards.leased, List.count_append] at hplaces ⊢
    lia
  · intro card
    have hthreads := hs.threads card
    have hmoved := count_removeCards hone hnodup hheld card
    have hleft := count_removeCards hmine hnodup hsub card
    have hset := count_flatten_set (removeCards cards freed) hthread card
    lia
  · intro card
    have hledger := hs.ledger card
    have hmoved := count_removeCards hone hnodup hheld card
    simp only [Cards.leased, List.count_append] at hledger ⊢
    lia
  · have hless : (removeCards s.heldOut freed).length ≤ s.heldOut.length :=
      List.length_filter_le _ _
    have hroom := hs.room
    lia

/-!
## The steps of the tests
-/

theorem Sound.testTake {sandboxId : String} {sandboxes : Table CardSandbox CardSandbox.sandboxId}
    (hoffers : s.offers gpuIds = true)
    (hinsert : s.sandboxes.insertNew ⟨sandboxId, gpuIds⟩ = some sandboxes) :
    Sound pool cardsPerTest { s with free := s.free.diff gpuIds, sandboxes := sandboxes } := by
  rcases offers_iff.mp hoffers with ⟨hnodup, hfree⟩
  refine { hs with places := ?_ }
  intro card
  have hplaces := hs.places card
  have hmoved := count_diff_add hnodup hfree card
  have htotal := Table.total_insertNew hinsert fun sandbox => sandbox.gpuIds.count card
  simp only [Cards.places, Cards.leased] at hplaces ⊢
  lia

theorem Sound.step {op : CardsOp} (hstep : cardsStep pool cardsPerTest s op = some t) :
    t.Sound pool cardsPerTest := by
  revert hstep
  fun_cases cardsStep pool cardsPerTest s op with (intro hstep; try cases hstep)
  | case1 | case2 => exact hs
  | case3 holder cards promised hpromise hopen =>
    exact hs.lease (Bool.eq_false_iff.mpr hopen) hpromise
  | case4 promise leaseId gpuIds hguard lease =>
    simp only [Bool.and_eq_true, decide_eq_true_eq, Bool.not_eq_true', List.all_eq_true] at hguard
    rcases hguard with ⟨⟨⟨⟨hwaiting, hopen⟩, hoffers⟩, hlength⟩, hfresh⟩
    rcases Option.map_eq_some_iff.mp hstep with ⟨granted, hinsert, rfl⟩
    exact hs.take hwaiting hopen hoffers hlength hfresh hinsert
  | case6 promise gpuIds hguard =>
    simp only [Bool.and_eq_true, decide_eq_true_eq] at hguard
    exact hs.giveUp gpuIds hguard.left hguard.right
  | case8 promise hwaiting =>
    have hnone := hs.giveUp [] hwaiting rfl
    rw [List.append_nil] at hnone
    exact hnone
  | case10 lease =>
    refine { hs with nodup := hs.nodup.erase lease, recording := ?_ }
    intro other hother
    exact hs.recording other (List.mem_of_mem_erase hother)
  | case12 lease hrecording => exact hs.recordFails hrecording
  | case14 leaseId hrecorded =>
    apply hs.release
    left
    intro lease hlease
    exact of_decide_eq_true (List.all_eq_true.mp hrecorded lease hlease)
  | case16 => exact hs.close
  | case18 thread freed cards hthread hfreed => exact hs.giveBack hthread hfreed.left hfreed.right
  | case20 sandboxId gpuIds hoffers =>
    rcases Option.map_eq_some_iff.mp hstep with ⟨sandboxes, hinsert, rfl⟩
    exact hs.testTake hoffers hinsert
  | case23 sandboxId sandbox hfound ended free accepted hrelease =>
    rcases Table.find?_eq_some.mp hfound with ⟨hsandbox, hid⟩
    rcases hs.sandbox_cards hsandbox with ⟨hnodup, hcards⟩
    rw [CardPool.release_ok hnodup fun card hcard =>
      ⟨(hcards card hcard).left, (hcards card hcard).right.left⟩] at hrelease
    cases hrelease
    refine { hs with places := ?_, accepted := ?_ }
    · intro card
      have hplaces := hs.places card
      have htotal := Table.total_deleteKey hsandbox hid fun other => other.gpuIds.count card
      simp only [Cards.places, Cards.leased, List.count_append] at hplaces ⊢
      lia
    · rw [hs.accepted]
      rfl
  | case24 sandboxId reaped sandbox hfound =>
    rcases Table.find?_eq_some.mp hfound with ⟨hsandbox, hid⟩
    rcases hs.sandbox_cards hsandbox with ⟨_, hcards⟩
    refine { hs with places := ?_ }
    intro card
    have hplaces := hs.places card
    have htotal := Table.total_deleteKey hsandbox hid fun other => other.gpuIds.count card
    have hlost := count_addCards (fun card hcard => (hcards card hcard).right.right) card
    simp only [Cards.places, Cards.leased] at hplaces ⊢
    lia

end

theorem Sound.init (h : (cardsMachine pool cardsPerTest).init s) : s.Sound pool cardsPerTest := by
  rcases h with ⟨hperm, heq⟩
  rw [heq]
  constructor
  · intro card
    have hcount := List.perm_iff_count.mp hperm card
    rw [List.count_append] at hcount
    simp only [Cards.places, Cards.leased, Table.total, Table.empty,
      List.map_nil, List.sum_nil, List.count_nil]
    lia
  · intro card
    rfl
  · intro weight
    rfl
  · exact List.nodup_nil
  · intro lease hlease
    cases hlease
  · intro card
    rfl
  · left
    rfl
  · rfl

end Cards

theorem sound_of_reachable_cards {pool : CardPool} {cardsPerTest : Nat}
    {s : Cards} (hs : (cardsMachine pool cardsPerTest).Reachable s) :
    s.Sound pool cardsPerTest := by
  apply hs.invariant ?_ ?_
  · intro start hinit
    exact Cards.Sound.init hinit
  · intro s op t hs _ hstep
    exact hs.step hstep

namespace Cards

variable {pool : CardPool} {cardsPerTest : Nat} {s t : Cards}

def outside (s : Cards) : Nat :=
  s.free.length + s.sandboxes.total (fun sandbox => sandbox.gpuIds.length) + s.quarantined.length

theorem total_count {row key : Type} {keyOf : row -> key}
    (t : Table row keyOf) (cards : row -> List Nat) (card : Nat) :
    t.total (fun r => (cards r).count card) = (t.rows.flatMap cards).count card := by
  rw [List.count_flatMap]
  rfl

theorem total_length {row key : Type} {keyOf : row -> key}
    (t : Table row keyOf) (cards : row -> List Nat) :
    t.total (fun r => (cards r).length) = (t.rows.flatMap cards).length := by
  rw [List.length_flatMap]
  rfl

theorem Sound.outside_add (hs : s.Sound pool cardsPerTest) :
    s.outside + s.granted.total (fun lease => lease.gpuIds.length) +
      s.heldOut.length = pool.cards.length := by
  have hperm : (s.free ++ s.sandboxes.rows.flatMap CardSandbox.gpuIds ++
      s.granted.rows.flatMap Lease.gpuIds ++ s.heldOut ++ s.quarantined).Perm pool.cards := by
    rw [List.perm_iff_count]
    intro card
    have hplaces := hs.places card
    have htests := total_count s.sandboxes CardSandbox.gpuIds card
    have hleases := total_count s.granted Lease.gpuIds card
    simp only [Cards.places, Cards.leased] at hplaces
    simp only [List.count_append]
    lia
  have hlength := hperm.length_eq
  have htests := total_length s.sandboxes CardSandbox.gpuIds
  have hleases := total_length s.granted Lease.gpuIds
  simp only [List.length_append] at hlength
  unfold outside
  lia

theorem Sound.leaves_a_test (hs : s.Sound pool cardsPerTest) {card : Nat}
    (h : 0 < s.leased card) : cardsPerTest ≤ s.outside := by
  have houtside := hs.outside_add
  have hcalls := hs.calls CardPromise.cards
  dsimp only [Lease.promise] at hcalls
  have hsome : 0 < s.granted.total (fun lease => lease.gpuIds.length) + s.heldOut.length := by
    rw [total_length s.granted Lease.gpuIds, ← List.length_append]
    have hcount := total_count s.granted Lease.gpuIds card
    unfold leased at h
    have hmem : card ∈ s.granted.rows.flatMap Lease.gpuIds ++ s.heldOut := by
      rw [← List.count_pos_iff, List.count_append]
      lia
    exact List.length_pos_of_mem hmem
  rcases hs.room with hnone | hroom
  · lia
  · lia

theorem promise_leaves_a_test {cards : Nat}
    (hstep : cardsStep pool cardsPerTest s (.lease holder cards) = some t)
    (hnew : t.waiting ≠ s.waiting) : cardsPerTest ≤ t.measurementCards pool := by
  simp only [cardsStep] at hstep
  split at hstep
  · cases hstep
    exact absurd rfl hnew
  · rename_i promised hpromise
    split at hstep
    · cases hstep
      exact absurd rfl hnew
    · cases hstep
      rcases promise_ok hpromise with ⟨table, hinsert, hone, hroom, rfl⟩
      have htotal := Table.total_insertNew hinsert CardPromise.cards
      unfold measurementCards at hroom ⊢
      dsimp only at hroom htotal ⊢
      omega

end Cards

/-- Every card of the pool is once in the free pool, a running test, a granted
lease, the cards held out or the cards lost, and the pool never has to refuse
a card; a lease has given back every card it took once but for those still
granted or held out; and promises never leave fewer cards than one test
needs. -/
theorem branch_leases_conserve_cards {pool : CardPool} {cardsPerTest : Nat}
    {s : Cards} (hs : (cardsMachine pool cardsPerTest).Reachable s) :
    (forall card, card ∈ pool.cards -> s.places card = 1) ∧
    (forall card, card ∉ pool.cards -> s.places card = 0) ∧ s.refused = false ∧
    (forall card, s.taken.count card = s.returned.count card + s.leased card) ∧
    (forall card, 0 < s.leased card -> cardsPerTest ≤ s.outside) ∧
    forall holder cards t, cardsStep pool cardsPerTest s (.lease holder cards) = some t ->
      t.waiting ≠ s.waiting -> cardsPerTest ≤ t.measurementCards pool := by
  have hsound := sound_of_reachable_cards hs
  refine ⟨?_, ?_, hsound.accepted, hsound.ledger, ?_, ?_⟩
  · intro card hcard
    rw [hsound.places card]
    exact List.count_eq_one_of_mem pool.nodup hcard
  · intro card hcard
    rw [hsound.places card]
    exact List.count_eq_zero.mpr hcard
  · intro card hleased
    exact hsound.leaves_a_test hleased
  · intro holder cards t hstep hnew
    exact Cards.promise_leaves_a_test hstep hnew

namespace CardsExample

def pool : CardPool := ⟨[0, 1], by decide⟩

def start : Cards := { free := [0, 1] }

theorem start_init : (cardsMachine pool 1).init start := ⟨List.Perm.refl _, rfl⟩

end CardsExample

open CardsExample in
/-- A branch's lease of one card is released, and its card given back. -/
theorem lease_card_given_back :
    exists s, (cardsMachine pool 1).Reachable s ∧ s.taken = [1] ∧
      s.returned = [1] ∧ s.leased 1 = 0 ∧ s.places 1 = 1 := by
  have hrun : exists s, (cardsMachine pool 1).Reachable s ∧ (s.taken = [1] ∧ s.returned = [1]) :=
    Machine.Reachable.exists_of_runIf start
      [.testTake "test-1" [0], .lease "b" 1, .take ⟨"b", 1⟩ "lease-1" [1],
        .recorded ⟨"lease-1", "b", [1]⟩, .release "lease-1", .giveBack 0 [],
        .giveBack 0 [1]] start_init (by decide +kernel)
  rcases hrun with ⟨s, hs, htaken, hreturned⟩
  rcases branch_leases_conserve_cards hs with ⟨hplaces, _, _, hledger, _⟩
  have hcard := hledger 1
  refine ⟨s, hs, htaken, hreturned, by lia, hplaces 1 (by decide)⟩

open CardsExample in
/-- The sandbox of a test could not be reaped: its card is in no pool, test,
lease or held-out set. -/
theorem lost_card_is_in_no_set :
    ¬ forall s, (cardsMachine pool 1).Reachable s ->
      forall card, card ∈ pool.cards -> card ∈ s.free ∨
        (exists sandbox, sandbox ∈ s.sandboxes ∧ card ∈ sandbox.gpuIds) ∨
        (exists lease, lease ∈ s.granted ∧ card ∈ lease.gpuIds) ∨ card ∈ s.heldOut := by
  intro hall
  have hrun : exists s, (cardsMachine pool 1).Reachable s ∧
      (0 ∉ s.free ∧ s.sandboxes.rows = [] ∧ s.granted.rows = [] ∧ 0 ∉ s.heldOut) :=
    Machine.Reachable.exists_of_runIf start
      [.testTake "test-1" [0], .testEnd "test-1" false] start_init
      (by decide +kernel)
  rcases hrun with ⟨s, hs, hfree, hsandboxes, hgranted, hheld⟩
  rcases hall s hs 0 (by decide) with h | ⟨sandbox, h, _⟩ | ⟨lease, h, _⟩ | h
  · exact hfree h
  · rw [← Table.mem_rows, hsandboxes] at h
    cases h
  · rw [← Table.mem_rows, hgranted] at h
    cases h
  · exact hheld h

end Toolbox
end Hyperloom
