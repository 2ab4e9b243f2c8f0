import Hyperloom.Library.Machine

/-!
# The workspace a candidate is made in

A candidate edits tracked files and may add files of its own.  Which untracked
files are its own is told from a snapshot of the names that were there when its
iteration opened, and anew when a campaign is resumed.  The untracked files of
before the last candidate are kept beside the code's state.
-/

namespace Hyperloom
namespace ForgeLoop

open Library

variable {path content : Type}

/-!
## The git commands
-/

structure Workspace (path content : Type) where
  head : path -> Option content
  work : path -> Option content
  staged : path -> Bool := fun _ => false

namespace Workspace

variable (w : Workspace path content)

/-- `git ls-files --others --exclude-standard`. -/
def untracked (p : path) : Bool :=
  (w.work p).isSome && (w.head p).isNone && !w.staged p

/-- `git restore --source=HEAD --staged --worktree`, which also removes the
staged files HEAD does not have. -/
def restore : Workspace path content where
  head := w.head
  work p := if (w.head p).isSome || w.staged p then w.head p else w.work p

variable (admits pre : path -> Bool)

/-- `_git_discard_all_tracked_changes` with the snapshot `pre`. -/
def discard (w : Workspace path content) : Workspace path content :=
  { w.restore with
    work := fun p =>
      if w.restore.untracked p && admits p && !pre p then none
      else w.restore.work p }

theorem discard_of_tracked {w : Workspace path content} {p : path}
    (h : ((w.head p).isSome || w.staged p) = true) :
    (w.discard admits pre).work p = w.head p := by
  have hrestore : w.restore.work p = w.head p := if_pos h
  change (if w.restore.untracked p && admits p && !pre p then none
    else w.restore.work p) = w.head p
  rw [hrestore]
  split
  · rename_i hcleaned
    simp only [untracked, Bool.and_eq_true] at hcleaned
    exact (Option.isNone_iff_eq_none.mp hcleaned.1.1.1.2).symm
  · rfl

theorem discard_of_untracked {w : Workspace path content} {p : path} (hhead : w.head p = none)
    (hstaged : w.staged p = false) : (w.discard admits pre).work p =
      if (w.work p).isSome && admits p && !pre p then none else w.work p := by
  simp [discard, untracked, restore, hhead, hstaged]

/-- The two `git add` of `_git_commit`. -/
def stage (admits : path -> Bool) (w : Workspace path content) : Workspace path content :=
  { w with staged := fun p => w.untracked p && admits p }

def commit : Workspace path content where
  head p := if (w.head p).isSome || w.staged p then w.work p else none
  work := w.work

end Workspace

/-!
## Iterations, kills and resumes
-/

inductive CandidateStage where
  | between
  | making
  | journaled
  | staged
  | killed
deriving DecidableEq

structure LoopTree (path content : Type) where
  files : Workspace path content
  pre : path -> Bool := fun _ => false
  stage : CandidateStage := .between
  before : path -> Option content

namespace LoopTree

inductive Op (path content : Type) where
  | openIteration
  | edit (p : path) (value : Option content)
  | drop
  | reject
  | journal
  | stage
  | commit
  | kill
  | resume

def step [DecidableEq path] (admits : path -> Bool) (s : LoopTree path content)
    (op : Op path content) : Option (LoopTree path content) :=
  match op, s.stage with
  | .openIteration, .between =>
    some { s with pre := s.files.untracked, stage := .making, before := s.files.work }
  | .edit p value, .making =>
    some { s with
        files := { s.files with work := Function.update s.files.work p value } }
  | .drop, .making => some { s with files := s.files.discard admits s.pre }
  | .reject, .making =>
    some { s with files := s.files.discard admits s.pre, stage := .between }
  | .journal, .making => some { s with stage := .journaled }
  | .stage, .journaled =>
    some { s with files := s.files.stage admits, stage := .staged }
  | .commit, .staged =>
    some { s with files := s.files.commit, stage := .between, before := s.files.work }
  | .kill, .journaled | .kill, .staged => some { s with stage := .killed }
  | .resume, .killed =>
    some { s with
        files := s.files.discard admits s.files.untracked
        pre := s.files.untracked, stage := .between }
  | _, _ => none

def treeMachine [DecidableEq path] (admits : path -> Bool) :
    Machine (LoopTree path content) (Op path content) where
  init s := s.stage = .between ∧ s.before = s.files.work ∧ forall p, s.files.staged p = false ∧
      ((s.files.head p).isSome = true -> s.files.work p = s.files.head p)
  step := step admits

/-!
## What a candidate leaves
-/

variable {admits pre : path -> Bool} {files : Workspace path content}
  {before : path -> Option content}

/-- The tracked files are those of HEAD, and the admitted untracked files those
of before the last candidate. -/
structure Clean (admits : path -> Bool) (files : Workspace path content)
    (before : path -> Option content) : Prop where
  tracked : forall p, (files.head p).isSome = true -> files.work p = files.head p
  unstaged : forall p, files.staged p = false
  admitted : forall p, admits p = true -> files.head p = none -> files.work p = before p

section

variable (admits : path -> Bool) (files : Workspace path content) (before : path -> Option content)

def Found (p : path) : Prop :=
  admits p = true ∧ files.head p = none ∧ before p ≠ none

variable (s : LoopTree path content)

/-- A candidate leaves the admitted untracked files it found alone, and a KEEP
is killed before its commit only if it has added none, or has staged them where
it found none. -/
def Undisturbed : Op path content -> Prop
  | .edit p _ => ¬ Found admits s.files s.before p
  | .kill =>
    match s.stage with
    | .staged => forall p, ¬ Found admits s.files s.before p
    | _ => forall p, admits p = true -> s.files.head p = none ->
      s.before p = none -> s.files.work p = none
  | _ => True

structure Making (admits pre : path -> Bool) (files : Workspace path content)
    (before : path -> Option content) : Prop where
  unstaged : forall p, files.staged p = false
  snapshot : forall p, files.head p = none -> pre p = (before p).isSome
  found : forall p, Found admits files before p -> files.work p = before p

/-- A killed KEEP that a resume undoes. -/
def Undoable : Prop :=
  forall p, admits p = true -> files.head p = none ->
    (if files.staged p then none else files.work p) = before p

def Sound : Prop :=
  match s.stage with
  | .between => Clean admits s.files s.before
  | .making | .journaled => Making admits s.pre s.files s.before
  | .staged =>
    (forall p, s.files.staged p = ((s.files.work p).isSome &&
      (s.files.head p).isNone && admits p)) ∧
    forall p, Found admits s.files s.before p -> s.files.work p = s.before p
  | .killed => Undoable admits s.files s.before

end

theorem Clean.of_discard (h : forall p, admits p = true -> files.head p = none ->
      (files.discard admits pre).work p = before p) :
    Clean admits (files.discard admits pre) before := by
  refine ⟨?_, fun _ => rfl, h⟩
  intro p hp
  apply Workspace.discard_of_tracked
  rw [show (files.head p).isSome = true from hp]
  rfl

theorem Making.discard (h : Making admits pre files before) :
    Clean admits (files.discard admits pre) before := by
  apply Clean.of_discard
  intro p hp hhead
  rw [Workspace.discard_of_untracked admits pre hhead (h.unstaged p), h.snapshot p hhead, hp]
  cases hbefore : before p with
  | none =>
    -- The candidate made the file, if it is there.
    cases files.work p <;> rfl
  | some value =>
    have hfound := h.found p ⟨hp, hhead, by rw [hbefore]; simp⟩
    rw [hfound, hbefore]
    rfl

theorem Undoable.discard (h : Undoable admits files before) :
    Clean admits (files.discard admits files.untracked) before := by
  apply Clean.of_discard
  intro p hp hhead
  rw [← h p hp hhead]
  cases hstaged : files.staged p with
  | true =>
    rw [Workspace.discard_of_tracked _ _ (by rw [hstaged, Bool.or_true]), hhead]
    rfl
  | false =>
    rw [Workspace.discard_of_untracked _ _ hhead hstaged]
    -- What is untracked is in the snapshot.
    unfold Workspace.untracked
    rw [hhead, hstaged]
    cases files.work p <;> simp

variable [DecidableEq path] {s t : LoopTree path content} {op : Op path content}

theorem Sound.step (hs : Sound admits s) (hC : Undisturbed admits s op)
    (h : s.step admits op = some t) : Sound admits t := by
  rcases s with ⟨files, pre, stage, before⟩
  cases op with
  | openIteration =>
    cases stage with
    | between =>
      cases h
      have hclean : Clean admits files before := hs
      refine ⟨hclean.unstaged, ?_, fun _ _ => rfl⟩
      intro p hhead
      simp [Workspace.untracked, hclean.unstaged p, show files.head p = none from hhead]
    | _ => cases h
  | edit p value =>
    cases stage with
    | making =>
      cases h
      have hmaking : Making admits pre files before := hs
      refine { hmaking with found := ?_ }
      intro q hfound
      have hne : q ≠ p := by
        intro heq
        rw [heq] at hfound
        exact hC hfound
      exact (Function.update_of_ne hne _ _).trans (hmaking.found q hfound)
    | _ => cases h
  | drop =>
    cases stage with
    | making =>
      cases h
      have hmaking : Making admits pre files before := hs
      exact ⟨fun _ => rfl, hmaking.snapshot,
        fun p hfound => hmaking.discard.admitted p hfound.1 hfound.2.1⟩
    | _ => cases h
  | reject =>
    cases stage with
    | making =>
      cases h
      have hmaking : Making admits pre files before := hs
      exact hmaking.discard
    | _ => cases h
  | journal =>
    cases stage with
    | making =>
      cases h
      exact hs
    | _ => cases h
  | stage =>
    cases stage with
    | journaled =>
      cases h
      have hmaking : Making admits pre files before := hs
      refine ⟨?_, hmaking.found⟩
      intro p
      simp [Workspace.stage, Workspace.untracked, hmaking.unstaged p]
    | _ => cases h
  | commit =>
    cases stage with
    | staged =>
      cases h
      refine ⟨?_, fun _ => rfl, fun _ _ _ => rfl⟩
      intro p hp
      change files.work p = if (files.head p).isSome || files.staged p then files.work p
        else none
      split
      · rfl
      · rename_i hnot
        have hnone : files.commit.head p = none := if_neg hnot
        rw [show files.commit.head p = _ from hnone] at hp
        cases hp
    | _ => cases h
  | kill =>
    cases stage with
    | journaled =>
      cases h
      have hmaking : Making admits pre files before := hs
      intro p hp hhead
      rw [hmaking.unstaged p]
      by_cases hbefore : before p = none
      · exact (hC p hp hhead hbefore).trans hbefore.symm
      · exact hmaking.found p ⟨hp, hhead, hbefore⟩
    | staged =>
      cases h
      intro p hp hhead
      have hstaged := hs.1 p
      have hbefore : before p = none := by
        by_contra hsome
        exact hC p ⟨hp, hhead, hsome⟩
      dsimp only at hstaged hhead ⊢
      rw [hbefore, hstaged, hhead, hp]
      cases files.work p <;> rfl
    | _ => cases h
  | resume =>
    cases stage with
    | killed =>
      cases h
      have hkilled : Undoable admits files before := hs
      exact hkilled.discard
    | _ => cases h

end LoopTree

open LoopTree

/-- Between two iterations of every run that leaves the admitted untracked files
alone, the tree is HEAD and the untracked files of before the last candidate. -/
theorem rejected_candidate_leaves_nothing [DecidableEq path]
    (admits : path -> Bool) {s : LoopTree path content}
    (hs : (treeMachine admits).ReachableWhere (Undisturbed admits) s)
    (hbetween : s.stage = .between) : Clean admits s.files s.before := by
  have hsound : Sound admits s := by
    apply hs.invariant ?_ ?_
    · intro start hstart
      rcases hstart with ⟨hstage, hbefore, hfiles⟩
      unfold Sound
      rw [hstage, hbefore]
      exact ⟨fun p => (hfiles p).2, fun p => (hfiles p).1, fun _ _ _ => rfl⟩
    · intro s op t hs hC hstep
      exact hs.step hC hstep
  unfold Sound at hsound
  rw [hbetween] at hsound
  exact hsound

def kernelTree : LoopTree String Nat where
  files :=
    { head := fun p => if p = "kernel.py" then some 0 else none
      work := fun p => if p = "kernel.py" then some 0 else none }
  before p := if p = "kernel.py" then some 0 else none

def admitsHeader (p : String) : Bool :=
  p == "new.h"

theorem kernelTree_init : (treeMachine admitsHeader).init kernelTree :=
  ⟨rfl, rfl, fun _ => ⟨rfl, fun _ => rfl⟩⟩

theorem header_of_rejected_removed :
    exists s : LoopTree String Nat, (treeMachine admitsHeader).ReachableWhere
        (Undisturbed admitsHeader) s ∧
      Clean admitsHeader s.files s.before ∧ s.files.work "new.h" = none := by
  have hrun : exists s, Machine.Run (treeMachine admitsHeader) (Undisturbed admitsHeader) kernelTree
      [.openIteration, .edit "new.h" (some 1), .reject] s ∧
      s.stage = .between ∧ s.files.work "new.h" = none := by
    refine ⟨_, .cons trivial rfl (.cons ?_ rfl (.cons trivial rfl (.nil _))),
      rfl, by decide +kernel⟩
    intro hfound
    exact hfound.2.2 rfl
  rcases hrun with ⟨s, hrun, hbetween, hnone⟩
  have hs : (treeMachine admitsHeader).ReachableWhere
      (Undisturbed admitsHeader) s := ⟨kernelTree, _, kernelTree_init, hrun⟩
  exact ⟨s, hs, rejected_candidate_leaves_nothing admitsHeader hs hbetween, hnone⟩

/-- A KEEP killed before its commit leaves the header it added: the resume takes
its snapshot with the header in it. -/
theorem header_of_killed_left :
    exists s : LoopTree String Nat, (treeMachine admitsHeader).Reachable s ∧
      s.stage = .between ∧ ¬ Clean admitsHeader s.files s.before := by
  rcases Machine.Reachable.exists_of_runIf
      (P := fun s => s.stage = .between ∧ s.files.head "new.h" = none ∧
        s.files.work "new.h" = some 1 ∧ s.before "new.h" = none) kernelTree
      [.openIteration, .edit "kernel.py" (some 2), .edit "new.h" (some 1),
        .journal, .kill, .resume] kernelTree_init (by decide +kernel) with
    ⟨s, hs, hbetween, hhead, hwork, hbefore⟩
  refine ⟨s, hs, hbetween, ?_⟩
  intro hclean
  have hsame := hclean.admitted "new.h" rfl hhead
  rw [hwork, hbefore] at hsame
  cases hsame

end ForgeLoop
end Hyperloom
