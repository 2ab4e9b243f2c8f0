import Hyperloom.Library.Machine
import Hyperloom.Blackboard.Claims

/-!
# Mutual exclusion of claims

Any number of handles over one claims folder, each in the middle of an
operation of its own, take their accesses of the folder in any order.  A
generation is computed from exactly the one before it because it was created
under the number after the one that was read.  A branch release does not look
at the holder again when it releases, so it can end another branch's claim.
-/

namespace Hyperloom
namespace Blackboard

open Library

/-- The claims folder and where each handle's call stands. -/
structure LeaseState where
  files : ClaimFiles
  calls : Nat -> CallPhase

def LeaseState.goto (s : LeaseState) (handle : Nat) (phase : CallPhase) : LeaseState :=
  { s with calls := fun other =>
      if other = handle then phase else s.calls other }

/-- A call begins with what it reads of the caller's clock, or takes its next
access of the folder. -/
inductive LeaseOp where
  | acquire (handle : Nat) (intent : Intent) (actionFingerprint : String) (ttlSeconds now : Rat)
  | change (handle : Nat) (key : ClaimKey) (change : Change)
  | releaseBranch (handle : Nat) (branch : String) (now : Rat)
  | advance (handle : Nat)
deriving DecidableEq

/-- The roles `_require` lets change a claim; the changes of a branch release
are begun by `release_branch`. -/
def Change.begins : Change -> Bool
  | .renew writer _ _ =>
    decide (writer.role = .specialistRuntime) || decide (writer.role = .toolbox)
  | .attach _ _ _ => true
  | .settle _ status _ => decide (status ≠ .held)
  | .release writer _ =>
    decide (writer.role = .specialistRuntime) ||
      decide (writer.role = .toolbox) || decide (writer.role = .scheduler)
  | .releaseBranch _ _ => false

def CallPhase.idle : CallPhase -> Bool
  | .ended _ => true
  | _ => false

section

variable (token : ClaimKey -> String)

def leaseStep (s : LeaseState) : LeaseOp -> Option LeaseState
  | .acquire handle intent actionFingerprint ttlSeconds now =>
    if (s.calls handle).idle then
      some (s.goto handle (.acquireList (wantedClaim intent actionFingerprint ttlSeconds now) now))
    else none
  | .change handle key change =>
    if (s.calls handle).idle && change.begins then
      some (s.goto handle (.changeList key change changeAttempts []))
    else none
  | .releaseBranch handle branch now =>
    if (s.calls handle).idle then
      some (s.goto handle (.branchList branch now))
    else none
  | .advance handle =>
    match advanceCall token s.files (s.calls handle) with
    | none => none
    | some (phase, files) => some ({ s with files := files }.goto handle phase)

def leaseMachine : Machine LeaseState LeaseOp where
  init s := s.files = [] ∧ forall handle, s.calls handle = .ended none
  step := leaseStep token

end

/-!
## What each generation is computed from
-/

/-- A generation stands under its own number.  An acquired one is held and
found nothing live at the acquirer's clock reading; a changed one is the
change of the generation before it. -/
def Follows (number : Nat) (before : Option Generation) (file : Generation) : Prop :=
  file.claim.generation = number ∧
  match file.origin with
  | .acquired now =>
    file.claim.status = .held ∧ forall p, before = some p -> isLive p.claim now = false
  | .changed change =>
    exists p changed, before = some p ∧ change.apply p.claim = .ok changed ∧
      file.claim = { changed with generation := p.claim.generation + 1 }

theorem Follows.same_holder {number : Nat} {before file : Generation}
    {change : Change} (h : Follows number (some before) file)
    (horigin : file.origin = .changed change) : file.claim.holder = before.claim.holder := by
  have hchanged := h.right
  rw [horigin] at hchanged
  rcases hchanged with ⟨p, changed, hp, happly, hclaim⟩
  cases Option.some.inj hp
  rw [hclaim]
  exact (Change.apply_ok happly).right.left

theorem Follows.ends_of_not_held {number : Nat} {before : Option Generation}
    {file : Generation} (h : Follows number before file) (hstatus : file.claim.status ≠ .held) :
    exists change, file.origin = .changed change ∧ change.ends = true := by
  have hfollows := h.right
  cases horigin : file.origin with
  | acquired now =>
    rw [horigin] at hfollows
    exact absurd hfollows.left hstatus
  | changed change =>
    rw [horigin] at hfollows
    rcases hfollows with ⟨p, changed, _, happly, hclaim⟩
    refine ⟨change, rfl, ?_⟩
    cases hends : change.ends with
    | true => rfl
    | false =>
      have hheld := Change.held_of_not_ends happly hends
      rw [hclaim] at hstatus
      exact absurd hheld hstatus

/-- What a call that is about to create a generation knows of the one it
read, and that what a listing showed is there. -/
def Knows (token : ClaimKey -> String) (files : ClaimFiles) : CallPhase -> Prop
  | .acquireList wanted _ => wanted.status = .held
  | .acquireLoad wanted _ latest =>
    wanted.status = .held ∧ forall generation, latest = some generation ->
      exists file, files.load (token wanted.key) generation = some file
  | .acquirePublish acquired now =>
    acquired.status = .held ∧
    exists seen, acquired.generation = seen + 1 ∧
      (seen = 0 ∨ exists p, files.load (token acquired.key) seen = some p ∧
        isLive p.claim now = false)
  | .changeLoad key _ _ _ latest =>
    forall generation, latest = some generation ->
      exists file, files.load (token key) generation = some file
  | .changePublish key change _ _ changed =>
    exists seen p made, files.load (token key) seen = some p ∧ changed.generation = seen + 1 ∧
      change.apply p.claim = .ok made ∧ changed = { made with generation := p.claim.generation + 1 }
  | .ended result => result ≠ some .fileMissing
  | .branchList _ _ => True
  | .changeList _ _ _ _ => True

def Extends (files more : ClaimFiles) : Prop :=
  forall name number file, files.load name number = some file -> more.load name number = some file

variable {token : ClaimKey -> String} {files : ClaimFiles} {phase : CallPhase}

theorem Knows.mono {more : ClaimFiles} (hmore : Extends files more)
    (h : Knows token files phase) : Knows token more phase := by
  cases phase with
  | acquireLoad wanted now latest =>
    refine ⟨h.left, ?_⟩
    intro generation hlatest
    rcases h.right generation hlatest with ⟨file, hfile⟩
    exact ⟨file, hmore _ _ _ hfile⟩
  | acquirePublish acquired now =>
    rcases h with ⟨hheld, seen, hgeneration, hseen⟩
    refine ⟨hheld, seen, hgeneration, ?_⟩
    rcases hseen with hzero | ⟨p, hp, hlive⟩
    · exact Or.inl hzero
    · exact Or.inr ⟨p, hmore _ _ _ hp, hlive⟩
  | changeLoad key change attempts rest latest =>
    intro generation hlatest
    rcases h generation hlatest with ⟨file, hfile⟩
    exact ⟨file, hmore _ _ _ hfile⟩
  | changePublish key change attempts rest changed =>
    rcases h with ⟨seen, p, made, hp, hgeneration, happly, hchanged⟩
    exact ⟨seen, p, made, hmore _ _ _ hp, hgeneration, happly, hchanged⟩
  | _ => exact h

theorem knows_nextChange {change : Change} {rest : List ClaimKey}
    {result : CallResult} (hresult : result ≠ .fileMissing) :
    Knows token files (nextChange change rest result) := by
  cases rest with
  | nil =>
    intro heq
    exact hresult (Option.some.inj heq)
  | cons key rest => trivial

theorem extends_publishOnce {published : ClaimFiles} {file : NumberedFile String Generation}
    (h : files.publishOnce file = some published) : Extends files published := by
  intro name number found hfound
  exact Folder.load_publishOnce_of_some h hfound

theorem exists_load_of_publishOnce_eq_none
    {file : NumberedFile String Generation} (h : files.publishOnce file = none) :
    exists taken, files.load file.name file.number = some taken := by
  unfold Folder.publishOnce at h
  cases hload : files.load file.name file.number with
  | some taken => exact ⟨taken, rfl⟩
  | none =>
    rw [hload] at h
    cases h

/-- The number in a file is the number in its name. -/
theorem generation_of_load {name : String} {number : Nat} {current : Generation}
    (hchain : files.Chain Follows) (h : files.load name number = some current) :
    current.claim.generation = number := by
  cases number with
  | zero => cases (hchain.fromOne _).symm.trans h
  | succ n => exact (hchain.follows _ n current h).left

theorem advanceCall_keeps {more : ClaimFiles} {next : CallPhase}
    (hchain : files.Chain Follows) (hknows : Knows token files phase)
    (h : advanceCall token files phase = some (next, more)) :
    more.Chain Follows ∧ Knows token more next ∧ Extends files more := by
  have hsame : Extends files files := fun _ _ _ hload => hload
  revert hknows h
  fun_cases advanceCall token files phase with (intro hknows h; try cases h)
  | case2 wanted now => exact ⟨hchain, ⟨hknows, fun _ => Folder.exists_load_of_latest⟩, hsame⟩
  | case3 wanted now => exact ⟨hchain, ⟨hknows.left, 0, rfl, Or.inl rfl⟩, hsame⟩
  | case4 wanted now generation hmissing =>
    rcases hknows.right generation rfl with ⟨current, hcurrent⟩
    cases hmissing.symm.trans hcurrent
  | case6 wanted now generation current hcurrent hlive =>
    rw [generation_of_load hchain hcurrent]
    exact ⟨hchain, ⟨hknows.left, generation, rfl,
      Or.inr ⟨current, hcurrent, Bool.eq_false_iff.mpr hlive⟩⟩, hsame⟩
  | case7 acquired now published hpublish =>
    rcases hknows with ⟨hheld, seen, hgeneration, hseen⟩
    refine ⟨?_, by simp [Knows], extends_publishOnce hpublish⟩
    apply hchain.publishOnce hgeneration ?_ ?_ hpublish
    · intro hne
      rcases hseen with hzero | ⟨p, hp, _⟩
      · exact absurd hzero hne
      · exact ⟨p, hp⟩
    · refine ⟨hgeneration, hheld, ?_⟩
      intro p hp
      rcases hseen with rfl | ⟨q, hq, hlive⟩
      · rw [hchain.fromOne] at hp
        cases hp
      · rw [hq] at hp
        rw [← Option.some.inj hp]
        exact hlive
  | case8 acquired now hpublish hmissing =>
    rcases exists_load_of_publishOnce_eq_none hpublish with ⟨taken, htaken⟩
    cases hmissing.symm.trans htaken
  | case5 | case9 => exact ⟨hchain, by simp [Knows], hsame⟩
  | case11 key change attempts rest => exact ⟨hchain, fun _ => Folder.exists_load_of_latest, hsame⟩
  | case13 key change attempts rest generation hmissing =>
    rcases hknows generation rfl with ⟨current, hcurrent⟩
    cases hmissing.symm.trans hcurrent
  | case15 key change attempts rest generation current hcurrent made happly =>
    refine ⟨hchain, ⟨generation, current, made, hcurrent, ?_, happly, rfl⟩, hsame⟩
    rw [generation_of_load hchain hcurrent]
  | case16 key change attempts rest changed published hpublish =>
    rcases hknows with ⟨seen, p, made, hp, hgeneration, happly, hchanged⟩
    refine ⟨?_, knows_nextChange (by simp), extends_publishOnce hpublish⟩
    apply hchain.publishOnce hgeneration (fun _ => ⟨p, hp⟩) ?_ hpublish
    exact ⟨hgeneration, p, made, hp, happly, hchanged⟩
  | case18 => exact ⟨hchain, trivial, hsame⟩
  | _ => exact ⟨hchain, knows_nextChange (by simp), hsame⟩

/-!
## Every reachable folder
-/

structure LeaseState.Sound (token : ClaimKey -> String) (s : LeaseState) : Prop where
  chain : s.files.Chain Follows
  knows : forall handle, Knows token s.files (s.calls handle)

variable {s : LeaseState}

theorem LeaseState.Sound.goto (hs : s.Sound token) {handle : Nat}
    (hphase : Knows token s.files phase) : (s.goto handle phase).Sound token := by
  refine ⟨hs.chain, ?_⟩
  intro other
  dsimp only [LeaseState.goto]
  by_cases hother : other = handle
  · rw [if_pos hother]
    exact hphase
  · rw [if_neg hother]
    exact hs.knows other

theorem LeaseState.Sound.step {t : LeaseState} {op : LeaseOp}
    (hs : s.Sound token) (h : leaseStep token s op = some t) : t.Sound token := by
  cases op with
  | acquire handle intent action ttl now =>
    rcases some_of_when h with ⟨_, rfl⟩
    exact hs.goto rfl
  | advance handle =>
    simp only [leaseStep] at h
    split at h
    · cases h
    rename_i phase files hadvance
    cases h
    rcases advanceCall_keeps hs.chain (hs.knows handle) hadvance with ⟨hchain, hphase, hmore⟩
    apply LeaseState.Sound.goto ?_ hphase
    exact ⟨hchain, fun other => (hs.knows other).mono hmore⟩
  | _ =>
    rcases some_of_when h with ⟨_, rfl⟩
    exact hs.goto trivial

theorem sound_of_reachable (hs : (leaseMachine token).Reachable s) : s.Sound token := by
  apply hs.invariant ?_ ?_
  · intro start hinit
    constructor
    · rw [hinit.left]
      exact Folder.Chain.empty Follows
    · intro handle
      rw [hinit.right handle]
      simp [Knows]
  · intro s op t hs _ hstep
    exact hs.step hstep

/-!
## Whose claims a branch release ends
-/

/-- A held claim that a branch release loads is still the branch's. -/
def LoadsOwn (token : ClaimKey -> String) (files : ClaimFiles) : CallPhase -> Prop
  | .changeLoad key change _ _ (some generation) =>
    (files.load (token key) generation).all (fun current =>
      decide (current.claim.status = .held -> change.ofHolder current.claim.holder = true)) = true
  | _ => True

instance : DecidablePred (LoadsOwn token files) := by
  intro phase
  unfold LoadsOwn
  split
  all_goals infer_instance

def ReleasesOwn (token : ClaimKey -> String) (s : LeaseState) : LeaseOp -> Prop
  | .advance handle => LoadsOwn token s.files (s.calls handle)
  | _ => True

instance (op : LeaseOp) : Decidable (ReleasesOwn token s op) := by
  unfold ReleasesOwn
  split
  all_goals infer_instance

/-- Whoever holds a claim that a branch release changed is that branch. -/
def OwnFiles (files : ClaimFiles) : Prop :=
  forall name n file change, files.load name n = some file -> file.origin = .changed change ->
    change.ofHolder file.claim.holder = true

def CallPhase.OwnChange : CallPhase -> Prop
  | .changePublish _ change _ _ changed => change.ofHolder changed.holder = true
  | _ => True

theorem ownChange_nextChange {change : Change} {rest : List ClaimKey} {result : CallResult} :
    (nextChange change rest result).OwnChange := by
  cases rest with
  | _ => trivial

theorem OwnFiles.publishOnce {published : ClaimFiles} {file : NumberedFile String Generation}
    (hown : OwnFiles files) (h : files.publishOnce file = some published)
    (hfile : forall change, file.value.origin = .changed change ->
      change.ofHolder file.value.claim.holder = true) : OwnFiles published := by
  intro name n found change hfound horigin
  rcases Folder.load_publishOnce_cases h hfound with hold | ⟨_, _, rfl⟩
  · exact hown name n found change hold horigin
  · exact hfile change horigin

theorem advanceCall_own {more : ClaimFiles} {next : CallPhase} (hown : OwnFiles files)
    (hphase : phase.OwnChange) (hloads : LoadsOwn token files phase)
    (h : advanceCall token files phase = some (next, more)) : OwnFiles more ∧ next.OwnChange := by
  revert hphase hloads h
  -- A publication alone changes the folder, and a load alone decides on a change.
  fun_cases advanceCall token files phase with (intro hphase hloads h; cases h)
  | case7 acquired now published hpublish => exact ⟨hown.publishOnce hpublish nofun, trivial⟩
  | case15 key change attempts rest generation current hcurrent changed happly =>
    rcases Change.apply_ok happly with ⟨hheld, hholder, _⟩
    rw [LoadsOwn, hcurrent, Option.all_some, decide_eq_true_eq] at hloads
    rw [CallPhase.OwnChange, hholder]
    exact ⟨hown, hloads hheld⟩
  | case16 key change attempts rest changed published hpublish =>
    refine ⟨hown.publishOnce hpublish ?_, ownChange_nextChange⟩
    intro other horigin
    cases horigin
    exact hphase
  | case10 | case12 | case13 | case14 | case17 => exact ⟨hown, ownChange_nextChange⟩
  | _ => exact ⟨hown, trivial⟩

structure LeaseState.Own (s : LeaseState) : Prop where
  files : OwnFiles s.files
  calls : forall handle, (s.calls handle).OwnChange

theorem LeaseState.Own.goto (hs : s.Own) {handle : Nat} (hphase : phase.OwnChange) :
    (s.goto handle phase).Own := by
  refine ⟨hs.files, ?_⟩
  intro other
  dsimp only [LeaseState.goto]
  split
  · exact hphase
  · exact hs.calls other

theorem own_of_reachable (hs : (leaseMachine token).ReachableWhere (ReleasesOwn token) s) :
    s.Own := by
  apply hs.invariant ?_ ?_
  · intro start hinit
    constructor
    · intro name n file change hload
      rw [hinit.left] at hload
      cases hload
    · intro handle
      rw [hinit.right handle]
      trivial
  · intro s op t hs hown h
    cases op with
    | advance handle =>
      simp only [leaseMachine, leaseStep] at h
      split at h
      · cases h
      rename_i phase files hadvance
      cases h
      rcases advanceCall_own hs.files (hs.calls handle) hown hadvance with ⟨hfiles, hphase⟩
      exact LeaseState.Own.goto (s := { s with files := files }) ⟨hfiles, hs.calls⟩ hphase
    | _ =>
      rcases some_of_when h with ⟨_, rfl⟩
      exact hs.goto trivial

theorem no_file_missing (hs : (leaseMachine token).Reachable s) (handle : Nat) :
    s.calls handle ≠ .ended (some .fileMissing) ∧
    forall key change attempts rest n,
      s.calls handle = .changeLoad key change attempts rest (some n) ->
      exists file, s.files.load (token key) n = some file := by
  have hknows := (sound_of_reachable hs).knows handle
  constructor
  · intro hcall
    rw [hcall] at hknows
    exact hknows rfl
  · intro key change attempts rest n hcall
    rw [hcall] at hknows
    exact hknows n rfl

def fp8Intent (branch : String) : Intent :=
  { branch := branch, parentCommit := "c", target := "attention",
    mechanism := "fp8", layer := .config, fingerprint := "i" }

theorem no_file_missing_releasing :
    exists s, (leaseMachine ClaimKey.parentCommit).Reachable s ∧
      exists file, s.files.load "c" 1 = some file := by
  rcases Machine.Reachable.exists_of_runIf (M := leaseMachine ClaimKey.parentCommit)
      (P := fun s => s.calls 0 = .changeLoad ⟨"c", "i"⟩ (.releaseBranch "a" 5) 8 [] (some 1))
      ⟨[], fun _ => .ended none⟩ [.acquire 0 (fp8Intent "a") "x" 10 0,
        .advance 0, .advance 0, .advance 0, .releaseBranch 0 "a" 5, .advance 0, .advance 0]
      ⟨rfl, fun _ => rfl⟩ (by decide +kernel) with ⟨s, hs, hcall⟩
  exact ⟨s, hs, (no_file_missing hs 0).right _ _ _ _ _ hcall⟩

theorem Follows.not_live {number : Nat} {before : Option Generation} {file p : Generation}
    {now : Rat} (h : Follows number before file) (horigin : file.origin = .acquired now)
    (hp : before = some p) : isLive p.claim now = false := by
  have hacquired := h.right
  rw [horigin] at hacquired
  exact hacquired.right p hp

/-- The generations of a token are numbered without a gap, each is computed
from exactly the one before it, and an acquire leaves a file only where the
generation before it was not live at the acquirer's clock reading.  While no
branch release loads another branch's held claim, another branch's acquire
after a successful one comes only after the first holder's own release or
settlement, or after a generation that had expired at the clock reading of the
branch that took over. -/
theorem claims_exclude_each_other {token : ClaimKey -> String} {s : LeaseState}
    (hs : (leaseMachine token).ReachableWhere (ReleasesOwn token) s) (name : String) :
    (forall n file k, s.files.load name n = some file -> 1 ≤ k -> k ≤ n ->
      exists before, s.files.load name k = some before) ∧
    (forall n file, s.files.load name n = some file ->
      1 ≤ n ∧ Follows n (s.files.load name (n - 1)) file) ∧
    (forall n file now p, s.files.load name n = some file -> file.origin = .acquired now ->
      s.files.load name (n - 1) = some p -> isLive p.claim now = false) ∧
    forall m n first other now, s.files.load name m = some first ->
      s.files.load name n = some other -> m < n ->
      (exists start, first.origin = .acquired start) -> other.origin = .acquired now ->
      other.claim.holder ≠ first.claim.holder ->
      exists k last next reading, m ≤ k ∧ k < n ∧ s.files.load name k = some last ∧
        s.files.load name (k + 1) = some next ∧ next.origin = .acquired reading ∧
        next.claim.holder ≠ first.claim.holder ∧
        (forall j file, m ≤ j -> j ≤ k -> s.files.load name j = some file ->
          file.claim.holder = first.claim.holder) ∧
        ((exists change, last.origin = .changed change ∧ change.ends = true ∧
            change.ofHolder first.claim.holder = true) ∨
          last.claim.expiresAt ≤ reading) := by
  have hchain := (sound_of_reachable hs.reachable).chain
  have hfollows : forall n file, s.files.load name n = some file ->
      1 ≤ n ∧ Follows n (s.files.load name (n - 1)) file := by
    intro n file hload
    cases n with
    | zero =>
      rw [hchain.fromOne name] at hload
      cases hload
    | succ n => exact ⟨by lia, hchain.follows name n file hload⟩
  refine ⟨?_, hfollows, ?_, ?_⟩
  · intro n file k hload hk hkn
    exact hchain.exists_load hload hk hkn
  · intro n file now p hload horigin hp
    exact (hfollows n file hload).right.not_live horigin hp
  · intro m n first other now hm hn hmn _ _ hholder
    rcases hchain.exists_change
        (fun file => file.claim.holder = first.claim.holder) hm hn hmn rfl hholder with
      ⟨k, last, next, hmk, hkn, hlast, hnext, hnot, hall⟩
    have hstep := hchain.follows name k next hnext
    have hsame := hall k last hmk (Nat.le_refl k) hlast
    rw [hlast] at hstep
    -- A change keeps the holder, so the first other holder acquired.
    cases horigin : next.origin with
    | changed change => exact absurd ((hstep.same_holder horigin).trans hsame) hnot
    | acquired reading =>
      refine ⟨k, last, next, reading, hmk, hkn, hlast, hnext, horigin, hnot, hall, ?_⟩
      by_cases hstatus : last.claim.status = .held
      · have hdead := hstep.not_live horigin rfl
        simp only [isLive, hstatus, decide_true, Bool.true_and, decide_eq_false_iff_not] at hdead
        exact Or.inr (Rat.not_lt.mp hdead)
      · rcases (hfollows k last hlast).right.ends_of_not_held hstatus with ⟨change, hchange, hends⟩
        have hown := (own_of_reachable hs).files name k last change hlast hchange
        rw [hsame] at hown
        exact Or.inl ⟨change, hchange, hends, hown⟩

/-- One branch's claim lapses at 10 and another branch takes the key over at
20: the generation it found had expired. -/
theorem claims_exclude_each_other_after_lapse :
    exists s p, (leaseMachine ClaimKey.parentCommit).ReachableWhere
        (ReleasesOwn ClaimKey.parentCommit) s ∧
      s.files.load "c" 1 = some p ∧ p.claim.holder = "a" ∧
      isLive p.claim 20 = false := by
  rcases Machine.ReachableWhere.exists_of_runIf (M := leaseMachine ClaimKey.parentCommit)
      (C := ReleasesOwn ClaimKey.parentCommit)
      (P := fun s => (exists p, p ∈ s.files.load "c" 1 ∧ p.claim.holder = "a") ∧
        exists file, file ∈ s.files.load "c" 2 ∧ file.origin = .acquired 20)
      ⟨[], fun _ => .ended none⟩
      [.acquire 0 (fp8Intent "a") "x" 10 0, .advance 0, .advance 0, .advance 0,
        .acquire 1 (fp8Intent "b") "y" 10 20, .advance 1, .advance 1, .advance 1]
      ⟨rfl, fun _ => rfl⟩ (by decide +kernel) with
    ⟨s, hs, ⟨p, hp, hholder⟩, ⟨file, hfile, horigin⟩⟩
  have hparts := claims_exclude_each_other hs "c"
  exact ⟨s, p, hs, hp, hholder, hparts.right.right.left 2 file 20 p hfile horigin hp⟩

/-- The release of branch `a` lists its lapsed claim at 20, `b` takes the key
over until 30, the release goes on and ends `b`'s claim, and `c` acquires the
key at 25. -/
theorem branch_release_ends_other_claim :
    exists s held ended taken, (leaseMachine ClaimKey.parentCommit).Reachable s ∧
      s.files.load "c" 2 = some held ∧ held.origin = .acquired 20 ∧
      held.claim.holder = "b" ∧ held.claim.expiresAt = 30 ∧
      s.files.load "c" 3 = some ended ∧ ended.origin = .changed (.releaseBranch "a" 20) ∧
      ended.claim.holder = "b" ∧ s.files.load "c" 4 = some taken ∧ taken.origin = .acquired 25 ∧
      taken.claim.holder = "c" := by
  rcases Machine.Reachable.exists_of_runIf (M := leaseMachine ClaimKey.parentCommit) (P := fun s =>
        (exists held, held ∈ s.files.load "c" 2 ∧ held.origin = .acquired 20 ∧
          held.claim.holder = "b" ∧ held.claim.expiresAt = 30) ∧
        (exists ended, ended ∈ s.files.load "c" 3 ∧
          ended.origin = .changed (.releaseBranch "a" 20) ∧ ended.claim.holder = "b") ∧
        exists taken, taken ∈ s.files.load "c" 4 ∧ taken.origin = .acquired 25 ∧
          taken.claim.holder = "c") ⟨[], fun _ => .ended none⟩
      [.acquire 0 (fp8Intent "a") "x" 10 0, .advance 0, .advance 0, .advance 0,
        .releaseBranch 2 "a" 20, .advance 2,
        .acquire 1 (fp8Intent "b") "y" 10 20, .advance 1, .advance 1, .advance 1,
        .advance 2, .advance 2, .advance 2,
        .acquire 3 (fp8Intent "c") "z" 10 25, .advance 3, .advance 3, .advance 3]
      ⟨rfl, fun _ => rfl⟩ (by decide +kernel) with
    ⟨s, hs, ⟨held, hheld⟩, ⟨ended, hended⟩, ⟨taken, htaken⟩⟩
  exact ⟨s, held, ended, taken, hs, hheld.left, hheld.right.left, hheld.right.right.left,
    hheld.right.right.right, hended.left, hended.right.left, hended.right.right, htaken⟩

end Blackboard
end Hyperloom
