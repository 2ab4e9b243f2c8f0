import Hyperloom.RuleGate.Gate

/-!
# Commits between statements

What holds of the commits on the branches and the rows that name them while
calls are in progress, and how a call's next row, a new commit and a rewind
change it.
-/

namespace Hyperloom
namespace RuleGate

open Library
open Blackboard

/-!
## The rows the gate writes
-/

def GateBoard.Names (board : GateBoard) (kind : NameKind) (commit : String) : Prop :=
  exists row, row ∈ board.rows ∧ row.names = some (kind, commit)

instance (board : GateBoard) (kind : NameKind) (commit : String) :
    Decidable (board.Names kind commit) :=
  inferInstanceAs (Decidable (exists row, row ∈ board.rows ∧ row.names = some (kind, commit)))

namespace GateBoard

variable {board : GateBoard} {row : Option GateRow}

theorem writeJudgement_row {write : JudgementWrite} {digest : Option String}
    (h : board.writeJudgement write digest = .ok row) : row = some (.judgement write digest) := by
  rcases Board.exists_of_bind_ok h with ⟨test, _, hchecks⟩
  dsimp only at hchecks
  split at hchecks
  · cases hchecks
  split at hchecks
  · cases hchecks
  split at hchecks
  · cases hchecks
  · cases hchecks
  split at hchecks
  · cases hchecks
  rcases Board.exists_of_bind_ok hchecks with ⟨_, _, hrow⟩
  cases hrow
  rfl

theorem registerCase_row {fixCommit requestId : String}
    (h : board.registerCase fixCommit requestId = .ok row) :
    exists caseRef, row = some (.regression ⟨caseRef, fixCommit, requestId⟩) := by
  rcases Board.exists_of_bind_ok h with ⟨test, _, hchecks⟩
  split at hchecks
  · cases hchecks
    exact ⟨_, rfl⟩
  · cases hchecks

theorem recordLineage_row {event : LineageEvent} (h : board.recordLineage event = .ok row) :
    row = none ∨ row = some (.lineage event) := by
  rcases Board.exists_of_bind_ok h with ⟨_, _, hchecks⟩
  dsimp only at hchecks
  split at hchecks
  · cases hchecks
    exact Or.inl rfl
  · split at hchecks
    · cases hchecks
    · cases hchecks
      exact Or.inr rfl

end GateBoard

theorem names_judgement_of_none (requestId : String) (conclusion : Conclusion)
    (digest : Option String) :
    GateRow.names (.judgement ⟨requestId, conclusion, none⟩ digest) = none := by
  dsimp only [GateRow.names]
  split <;> rfl

theorem Landing.names_judgementWrite (landing : Landing) (commit : String)
    (digest : Option String) :
    GateRow.names (.judgement (landing.judgementWrite commit) digest) = some (.judged, commit) := by
  have hcommitting : landing.conclusion.committing = true := by
    unfold Landing.conclusion
    split
    · rfl
    · split <;> rfl
  simp only [GateRow.names, Landing.judgementWrite, hcommitting, if_true, Option.map_some]

variable {commit : String} {s : GateRun}

namespace GateRun

theorem write_cases (s : GateRun) (checked : Except BoardError (Option GateRow))
    (result : WriteResult) : s.write checked result = (s, true) ∨
    exists row, checked = .ok row ∧
      ((s.write checked result = (s.append row, false) ∧ result = .ok) ∨
        (s.write checked result = (s.append row, true) ∧ result = .failed true)) := by
  unfold write
  split
  · exact Or.inl rfl
  · exact Or.inr ⟨_, rfl, Or.inl ⟨rfl, rfl⟩⟩
  · exact Or.inr ⟨_, rfl, Or.inr ⟨rfl, rfl⟩⟩
  · exact Or.inl rfl

theorem append_none (s : GateRun) : s.append none = s := by
  simp [append]

theorem names_append {row : Option GateRow} {kind : NameKind} :
    (s.append row).board.Names kind commit <->
      s.board.Names kind commit ∨ exists new, row = some new ∧ new.names = some (kind, commit) := by
  constructor
  · intro h
    rcases h with ⟨old, hold, hnames⟩
    rcases List.mem_append.mp hold with hold | hnew
    · exact Or.inl ⟨old, hold, hnames⟩
    · exact Or.inr ⟨old, Option.mem_toList.mp hnew, hnames⟩
  · intro h
    rcases h with ⟨old, hold, hnames⟩ | ⟨new, hnew, hnames⟩
    · exact ⟨old, List.mem_append_left _ hold, hnames⟩
    · exact ⟨new, List.mem_append_right _ (Option.mem_toList.mpr hnew), hnames⟩

end GateRun

def GateCall.commitOf (call : GateCall) : Option String := call.landed.map Prod.snd

/-!
## What holds between statements
-/

/-- What the board says of a call's commit, by how far the call is. -/
def GateBoard.Written (board : GateBoard) : GateCall -> Prop
  | .register landing commit _ => landing.fix.isSome = true ∧ forall kind, ¬ board.Names kind commit
  | .judge landing commit _ => forall kind, board.Names kind commit ->
    kind = .cased ∧ landing.fix.isSome = true
  | .split _ commit => board.Names .judged commit
  | .rewind _ commit => forall kind, ¬ board.Names kind commit
  | _ => True

variable {call : GateCall}

theorem GateBoard.written_of_landed_none {board : GateBoard}
    (h : call.landed = none) : board.Written call := by
  cases call with
  | register landing commit digest
  | judge landing commit digest
  | split landing commit
  | rewind landing commit => cases h
  | _ => exact trivial

namespace GateRun

theorem written_append {row : Option GateRow} (h : s.board.Written call)
    (hother : forall new kind commit, row = some new ->
      new.names = some (kind, commit) -> call.commitOf ≠ some commit) :
    (s.append row).board.Written call := by
  have hold : forall kind commit, call.commitOf = some commit ->
      (s.append row).board.Names kind commit -> s.board.Names kind commit := by
    intro kind commit hcommit hnames
    rcases names_append.mp hnames with hnames | ⟨new, hrow, hnames⟩
    · exact hnames
    · exact absurd hcommit (hother new kind commit hrow hnames)
  cases call with
  | register landing commit digest =>
    refine ⟨h.1, ?_⟩
    intro kind hnames
    exact h.2 kind (hold kind commit rfl hnames)
  | judge landing commit digest =>
    intro kind hnames
    exact h kind (hold kind commit rfl hnames)
  | split landing commit => exact names_append.mpr (Or.inl h)
  | rewind landing commit =>
    intro kind hnames
    exact h kind (hold kind commit rfl hnames)
  | _ => exact trivial

def AtTop (s : GateRun) (landing : Landing) (commit : String) : Prop :=
  exists branch rest, branch ∈ s.branches ∧ branch.name = landing.branch ∧
    branch.commits = commit :: rest ∧ branch.headOf rest = landing.parent ∧ commit ≠ landing.parent

theorem AtTop.onBranch {landing : Landing} (h : s.AtTop landing commit) : s.OnBranch commit := by
  rcases h with ⟨branch, rest, hbranch, _, hcommits, _⟩
  refine ⟨branch, hbranch, ?_⟩
  rw [hcommits]
  exact List.mem_cons_self

structure Sound (s : GateRun) (calls : List GateCall) : Prop where
  nodup : forall branch, branch ∈ s.branches -> branch.commits.Nodup
  apart : forall one other commit, one ∈ s.branches -> other ∈ s.branches ->
    commit ∈ one.commits -> commit ∈ other.commits -> one = other
  root : ¬ s.OnBranch s.root
  top : forall call landing commit, call ∈ calls ->
    call.landed = some (landing, commit) -> s.AtTop landing commit
  single : (calls.filterMap GateCall.commitOf).Nodup
  named : forall kind commit, s.board.Names kind commit ->
    s.OnBranch commit ∨ (kind = .cased ∧ commit = s.root)
  judged : forall commit, s.OnBranch commit ->
    s.board.Names .judged commit ∨ exists call, call ∈ calls ∧ call.commitOf = some commit
  rewound : forall commit, commit ∈ s.rewound -> ¬ s.OnBranch commit ∧ commit ≠ s.root
  written : forall call, call ∈ calls -> s.board.Written call

namespace Sound

variable {s t : GateRun} {call : GateCall} {calls rest : List GateCall} {next : Option GateCall}

theorem initial (root : String) : Sound { root := root } [] where
  nodup branch h := absurd h (Table.not_mem_empty branch)
  apart one other commit h := absurd h (Table.not_mem_empty one)
  root h := by
    rcases h with ⟨branch, hbranch, _⟩
    exact Table.not_mem_empty branch hbranch
  top call landing commit h := by cases h
  single := List.nodup_nil
  named kind commit h := by
    rcases h with ⟨row, hrow, _⟩
    cases hrow
  judged commit h := by
    rcases h with ⟨branch, hbranch, _⟩
    exact absurd hbranch (Table.not_mem_empty branch)
  rewound commit h := by cases h
  written call h := by cases h

theorem perm (h : Sound s calls) {others : List GateCall}
    (hperm : calls.Perm others) : Sound s others where
  __ := h
  top call landing commit hcall := h.top call landing commit (hperm.mem_iff.mpr hcall)
  single := (hperm.filterMap _).nodup_iff.mp h.single
  judged commit hon := by
    rcases h.judged commit hon with hnames | ⟨call, hcall, hcommit⟩
    · exact Or.inl hnames
    · exact Or.inr ⟨call, hperm.mem_iff.mp hcall, hcommit⟩
  written call hcall := h.written call (hperm.mem_iff.mpr hcall)

theorem addCall (h : Sound s calls) (hcall : call.landed = none) : Sound s (call :: calls) where
  __ := h
  top other landing commit hother hlanded := by
    rcases List.mem_cons.mp hother with rfl | hother
    · rw [hcall] at hlanded
      cases hlanded
    · exact h.top other landing commit hother hlanded
  single := by
    rw [List.filterMap_cons, GateCall.commitOf, hcall]
    exact h.single
  judged commit hon := by
    rcases h.judged commit hon with hnames | ⟨other, hother, hmade⟩
    · exact Or.inl hnames
    · exact Or.inr ⟨other, List.mem_cons_of_mem _ hother, hmade⟩
  written other hother := by
    rcases List.mem_cons.mp hother with rfl | hother
    · exact GateBoard.written_of_landed_none hcall
    · exact h.written other hother

theorem commitOf_top (h : Sound s calls) (hcall : call ∈ calls)
    (hcommit : call.commitOf = some commit) :
    exists landing, call.landed = some (landing, commit) ∧ s.AtTop landing commit := by
  rcases Option.map_eq_some_iff.mp hcommit with ⟨landed, hlanded, heq⟩
  rcases landed with ⟨landing, made⟩
  have hmade : made = commit := heq
  rw [hmade] at hlanded
  exact ⟨landing, hlanded, h.top call landing commit hcall hlanded⟩

theorem commitOf_ne (h : Sound s (call :: rest)) {other : GateCall}
    (hother : other ∈ rest) (hcommit : call.commitOf = some commit) :
    other.commitOf ≠ some commit := by
  intro hsame
  have hsingle := h.single
  rw [List.filterMap_cons, hcommit] at hsingle
  exact (List.nodup_cons.mp hsingle).1 (List.mem_filterMap.mpr ⟨other, hother, hsame⟩)

/-- A call goes on, or ends, with at most one row about its own commit. -/
theorem advance (h : Sound s (call :: rest)) (row : Option GateRow)
    (hrow : forall new kind commit, row = some new -> new.names = some (kind, commit) ->
      call.commitOf = some commit ∨ (kind = .cased ∧ commit = s.root))
    (hnext : forall later, next = some later ->
      later.landed = call.landed ∧ (s.append row).board.Written later)
    (hend : next = none -> forall commit, call.commitOf = some commit ->
      (s.append row).board.Names .judged commit) :
    Sound (s.append row) (next.toList ++ rest) where
  __ := h
  top other landing commit hother hlanded := by
    rcases List.mem_append.mp hother with hlater | hother
    · have hsame := (hnext other (Option.mem_toList.mp hlater)).1
      exact h.top call landing commit List.mem_cons_self (hsame.symm.trans hlanded)
    · exact h.top other landing commit (List.mem_cons_of_mem _ hother) hlanded
  single := by
    have hsingle := h.single
    cases hcase : next with
    | none =>
      exact hsingle.sublist ((List.sublist_cons_self call rest).filterMap _)
    | some later =>
      have hsame : later.commitOf = call.commitOf := by
        unfold GateCall.commitOf
        rw [(hnext later hcase).1]
      have hlist : (Option.toList (some later) ++ rest).filterMap
          GateCall.commitOf = (call :: rest).filterMap GateCall.commitOf := by
        show (later :: rest).filterMap _ = _
        rw [List.filterMap_cons, List.filterMap_cons, hsame]
      rw [hlist]
      exact hsingle
  named kind commit hnames := by
    rcases names_append.mp hnames with hold | ⟨new, hnew, hnames⟩
    · exact h.named kind commit hold
    · rcases hrow new kind commit hnew hnames with hcommit | hroot
      · rcases h.commitOf_top List.mem_cons_self hcommit with ⟨_, _, htop⟩
        exact Or.inl htop.onBranch
      · exact Or.inr hroot
  judged commit hon := by
    rcases h.judged commit hon with hnames | ⟨other, hother, hcommit⟩
    · exact Or.inl (names_append.mpr (Or.inl hnames))
    · rcases List.mem_cons.mp hother with heq | hother
      · rw [heq] at hcommit
        cases hcase : next with
        | none => exact Or.inl (hend hcase commit hcommit)
        | some later =>
          have hsame : later.commitOf = call.commitOf := by
            unfold GateCall.commitOf
            rw [(hnext later hcase).1]
          exact Or.inr ⟨later, List.mem_cons_self, hsame.trans hcommit⟩
      · exact Or.inr ⟨other, List.mem_append_right _ hother, hcommit⟩
  written other hother := by
    rcases List.mem_append.mp hother with hlater | hother
    · exact (hnext other (Option.mem_toList.mp hlater)).2
    · apply written_append (h.written other (List.mem_cons_of_mem _ hother))
      intro new kind commit hnew hnames hcommit
      rcases hrow new kind commit hnew hnames with hown | ⟨_, rfl⟩
      · exact h.commitOf_ne hother hown hcommit
      · rcases h.commitOf_top (List.mem_cons_of_mem _ hother) hcommit with ⟨_, _, htop⟩
        exact h.root htop.onBranch

end Sound
end GateRun

/-!
## The repository's steps
-/

variable {branch : Branch}

theorem Branch.resetTo_parent {parent : String} {rest : List String}
    (hcommits : branch.commits = commit :: rest)
    (hhead : branch.headOf rest = parent) (hne : commit ≠ parent) :
    branch.resetTo parent = { branch with commits := rest } := by
  unfold Branch.resetTo
  cases rest with
  | nil =>
    have hbase : branch.base = parent := hhead
    have hnot : parent ∉ branch.commits := by
      rw [hcommits, List.mem_singleton]
      exact Ne.symm hne
    rw [if_neg hnot, hbase]
  | cons last rest =>
    have hlast : last = parent := hhead
    have hmem : parent ∈ branch.commits := by
      rw [hcommits, hlast]
      exact List.mem_cons_of_mem _ List.mem_cons_self
    rw [hcommits, hlast]
    simp [hne]

namespace GateRun

/-- `t` has the branches of `s` with one of them replaced. -/
structure Replaces (s t : GateRun) (old new : Branch) : Prop where
  mem : old ∈ s.branches
  name : new.name = old.name
  branches : forall found, found ∈ t.branches <->
    found = new ∨ (found ∈ s.branches ∧ found.name ≠ old.name)

namespace Replaces

variable {s t : GateRun} {old new : Branch}

def Elsewhere (s : GateRun) (branch : Branch) (commit : String) : Prop :=
  exists found, found ∈ s.branches ∧ found.name ≠ branch.name ∧ commit ∈ found.commits

variable {calls : List GateCall}

section

variable (h : Replaces s t old new)

include h

theorem onBranch_old (commit : String) :
    s.OnBranch commit <-> commit ∈ old.commits ∨ Elsewhere s old commit := by
  constructor
  · intro hon
    rcases hon with ⟨found, hfound, hcommit⟩
    by_cases hname : found.name = old.name
    · rw [Table.eq_of_key_eq hfound h.mem hname] at hcommit
      exact Or.inl hcommit
    · exact Or.inr ⟨found, hfound, hname, hcommit⟩
  · intro hon
    rcases hon with hcommit | ⟨found, hfound, _, hcommit⟩
    · exact ⟨old, h.mem, hcommit⟩
    · exact ⟨found, hfound, hcommit⟩

theorem onBranch_new (commit : String) :
    t.OnBranch commit <-> commit ∈ new.commits ∨ Elsewhere s old commit := by
  constructor
  · intro hon
    rcases hon with ⟨found, hfound, hcommit⟩
    rcases (h.branches found).mp hfound with rfl | ⟨hold, hname⟩
    · exact Or.inl hcommit
    · exact Or.inr ⟨found, hold, hname, hcommit⟩
  · intro hon
    rcases hon with hcommit | ⟨found, hfound, hname, hcommit⟩
    · exact ⟨new, (h.branches new).mpr (Or.inl rfl), hcommit⟩
    · exact ⟨found, (h.branches found).mpr (Or.inr ⟨hfound, hname⟩), hcommit⟩

theorem not_elsewhere (hs : Sound s calls)
    (hcommit : commit ∈ old.commits) : ¬ Elsewhere s old commit := by
  intro hother
  rcases hother with ⟨found, hfound, hname, hin⟩
  rw [hs.apart found old commit hfound h.mem hin hcommit] at hname
  exact hname rfl

theorem nodup (hs : Sound s calls)
    (hnew : new.commits.Nodup) (branch : Branch) (hbranch : branch ∈ t.branches) :
    branch.commits.Nodup := by
  rcases (h.branches branch).mp hbranch with rfl | ⟨hold, _⟩
  · exact hnew
  · exact hs.nodup branch hold

theorem apart (hs : Sound s calls)
    (hnew : forall commit, commit ∈ new.commits -> ¬ Elsewhere s old commit)
    (one other : Branch) (commit : String) (hone : one ∈ t.branches)
    (hother : other ∈ t.branches) (hin : commit ∈ one.commits)
    (hin' : commit ∈ other.commits) : one = other := by
  rcases (h.branches one).mp hone with heq | ⟨hold, hname⟩
  · rcases (h.branches other).mp hother with rfl | ⟨hold', hname'⟩
    · rw [heq]
    · rw [heq] at hin
      exact absurd ⟨other, hold', hname', hin'⟩ (hnew commit hin)
  · rcases (h.branches other).mp hother with rfl | ⟨hold', _⟩
    · exact absurd ⟨one, hold, hname, hin⟩ (hnew commit hin')
    · exact hs.apart one other commit hold hold' hin hin'

theorem atTop {landing : Landing}
    (htop : s.AtTop landing commit) (hname : landing.branch ≠ old.name) :
    t.AtTop landing commit := by
  rcases htop with ⟨branch, rest, hmem, hbranch, hfacts⟩
  refine ⟨branch, rest, (h.branches branch).mpr (Or.inr ⟨hmem, ?_⟩), hbranch, hfacts⟩
  rw [hbranch]
  exact hname

end

end Replaces

variable {s : GateRun} {landing : Landing} {commit : String}

theorem replaces_push (hbranch : s.branches.find? landing.branch = some branch) :
    Replaces s (s.push landing.branch commit) branch (branch.push commit) := by
  rcases Table.find?_eq_some.mp hbranch with ⟨hmem, hname⟩
  refine ⟨hmem, rfl, ?_⟩
  intro found
  unfold push
  rw [Table.mem_updateKey hmem hname, hname]

theorem replaces_takeBack {below : List String} (hmem : branch ∈ s.branches)
    (hname : branch.name = landing.branch) (hcommits : branch.commits = commit :: below)
    (hhead : branch.headOf below = landing.parent) (hne : commit ≠ landing.parent) :
    Replaces s (s.takeBack landing commit) branch { branch with commits := below } ∧
      (s.takeBack landing commit).rewound = commit :: s.rewound := by
  have hfind : s.branches.find? landing.branch = some branch :=
    Table.find?_eq_some.mpr ⟨hmem, hname⟩
  have htop : branch.head = commit := by
    rw [Branch.head, hcommits]
    rfl
  unfold takeBack
  simp only [hfind, if_pos htop]
  constructor
  · refine ⟨hmem, rfl, ?_⟩
    intro found
    rw [Table.mem_updateKey hmem hname, Branch.resetTo_parent hcommits hhead hne, hname]
  · trivial

theorem takeBack_board (s : GateRun) (landing : Landing) (commit : String) :
    (s.takeBack landing commit).board = s.board ∧ (s.takeBack landing commit).root = s.root := by
  unfold takeBack
  split
  · exact ⟨rfl, rfl⟩
  · split
    · exact ⟨rfl, rfl⟩
    · exact ⟨rfl, rfl⟩

namespace Sound

variable {rest : List GateCall}

theorem branch_ne (h : Sound s rest) (hmem : branch ∈ s.branches)
    (hcall : call ∈ rest) (hlanded : call.landed = some (landing, commit))
    (htop : branch.commits.head? ≠ some commit) : landing.branch ≠ branch.name := by
  intro hname
  rcases h.top call landing commit hcall hlanded with ⟨found, below, hfound, hbranch, hcommits, _⟩
  have hsame := Table.eq_of_key_eq hfound hmem (hbranch.trans hname)
  rw [← hsame, hcommits] at htop
  exact htop rfl

theorem takeBack (h : Sound s (.rewind landing commit :: rest)) :
    Sound (s.takeBack landing commit) rest := by
  have htop := h.top _ landing commit List.mem_cons_self rfl
  have hunnamed : forall kind, ¬ s.board.Names kind commit := h.written _ List.mem_cons_self
  have hroot : commit ≠ s.root := by
    intro heq
    rw [heq] at htop
    exact h.root htop.onBranch
  rcases htop with ⟨branch, below, hmem, hname, hcommits, hhead, hne⟩
  rcases replaces_takeBack hmem hname hcommits hhead hne with ⟨hreplaces, hrewound⟩
  rcases s.takeBack_board landing commit with ⟨hboard, hrootEq⟩
  have hnodup := h.nodup branch hmem
  rw [hcommits, List.nodup_cons] at hnodup
  have hbelow : forall other, other ∈ below -> other ∈ branch.commits := by
    intro other hother
    rw [hcommits]
    exact List.mem_cons_of_mem _ hother
  have hcommit : commit ∈ branch.commits := by
    rw [hcommits]
    exact List.mem_cons_self
  have hon : forall other, (s.takeBack landing commit).OnBranch other <->
      s.OnBranch other ∧ other ≠ commit := by
    intro other
    rw [hreplaces.onBranch_new, hreplaces.onBranch_old, hcommits, List.mem_cons]
    constructor
    · intro hother
      rcases hother with hother | hother
      · exact ⟨Or.inl (Or.inr hother), ne_of_mem_of_not_mem hother hnodup.1⟩
      · refine ⟨Or.inr hother, ?_⟩
        intro heq
        rw [heq] at hother
        exact hreplaces.not_elsewhere h hcommit hother
    · intro hother
      rcases hother with ⟨(heq | hother) | hother, hdiff⟩
      · exact absurd heq hdiff
      · exact Or.inl hother
      · exact Or.inr hother
  constructor
  · exact hreplaces.nodup h hnodup.2
  · apply hreplaces.apart h
    intro other hother
    exact hreplaces.not_elsewhere h (hbelow other hother)
  · rw [hrootEq, hon]
    exact fun hcon => h.root hcon.1
  · intro other landing' commit' hother hlanded
    have hin : other ∈ GateCall.rewind landing commit :: rest := List.mem_cons_of_mem _ hother
    apply hreplaces.atTop (h.top other landing' commit' hin hlanded)
    apply h.branch_ne hmem hin hlanded
    rw [hcommits]
    intro heq
    have hsame : other.commitOf = some commit := by
      rw [GateCall.commitOf, hlanded, Option.map_some, Option.some.inj heq]
    exact h.commitOf_ne hother rfl hsame
  · exact h.single.sublist ((List.sublist_cons_self _ rest).filterMap _)
  · rw [hboard, hrootEq]
    intro kind other hnames
    rcases h.named kind other hnames with honOther | hrooted
    · left
      rw [hon]
      refine ⟨honOther, ?_⟩
      intro heq
      rw [heq] at hnames
      exact hunnamed kind hnames
    · exact Or.inr hrooted
  · rw [hboard]
    intro other hother
    rcases (hon other).mp hother with ⟨hother, hdiff⟩
    rcases h.judged other hother with hnames | ⟨pending, hpending, hmade⟩
    · exact Or.inl hnames
    · rcases List.mem_cons.mp hpending with rfl | hpending
      · exact absurd (Option.some.inj hmade).symm hdiff
      · exact Or.inr ⟨pending, hpending, hmade⟩
  · rw [hrewound, hrootEq]
    intro other hother
    rw [hon]
    rcases List.mem_cons.mp hother with heq | hother
    · rw [heq]
      exact ⟨fun hcon => hcon.2 rfl, hroot⟩
    · rcases h.rewound other hother with ⟨hoff, hnotRoot⟩
      exact ⟨fun hcon => hoff hcon.1, hnotRoot⟩
  · rw [hboard]
    intro other hother
    exact h.written other (List.mem_cons_of_mem _ hother)

theorem push (h : Sound s rest) {next : GateCall}
    (hbranch : s.branches.find? landing.branch = some branch)
    (hhead : branch.head = landing.parent) (hparent : commit ≠ landing.parent)
    (hroot : commit ≠ s.root) (hfresh : ¬ s.OnBranch commit)
    (hsettled : forall call, call ∈ rest -> call.commitOf ≠ some landing.parent)
    (hlanded : next.landed = some (landing, commit))
    (hwritten : (forall kind, ¬ s.board.Names kind commit) -> s.board.Written next) :
    Sound (s.push landing.branch commit) (next :: rest) := by
  have hreplaces : Replaces s (s.push landing.branch commit) branch
      (branch.push commit) := replaces_push hbranch
  rcases Table.find?_eq_some.mp hbranch with ⟨hmem, hname⟩
  have hunnamed : forall kind, ¬ s.board.Names kind commit := by
    intro kind hnames
    rcases h.named kind commit hnames with hon | ⟨_, heq⟩
    · exact hfresh hon
    · exact hroot heq
  have hnot : commit ∉ branch.commits := by
    intro hin
    exact hfresh ⟨branch, hmem, hin⟩
  have hon : forall other, (s.push landing.branch commit).OnBranch other <->
      other = commit ∨ s.OnBranch other := by
    intro other
    rw [hreplaces.onBranch_new, hreplaces.onBranch_old, Branch.push, List.mem_cons, or_assoc]
  constructor
  · exact hreplaces.nodup h (List.nodup_cons.mpr ⟨hnot, h.nodup branch hmem⟩)
  · apply hreplaces.apart h
    intro other hother helse
    rcases List.mem_cons.mp hother with heq | hother
    · rw [heq] at helse
      exact hfresh ((hreplaces.onBranch_old commit).mpr (Or.inr helse))
    · exact hreplaces.not_elsewhere h hother helse
  · intro hon'
    rcases (hon s.root).mp hon' with heq | hon'
    · exact hroot heq.symm
    · exact h.root hon'
  · intro call landing' commit' hcall hlanded'
    rcases List.mem_cons.mp hcall with rfl | hcall
    · rw [hlanded] at hlanded'
      cases hlanded'
      refine ⟨branch.push commit, branch.commits, ?_, hname, rfl, hhead, hparent⟩
      exact (hreplaces.branches _).mpr (Or.inl rfl)
    · apply hreplaces.atTop (h.top call landing' commit' hcall hlanded')
      apply h.branch_ne hmem hcall hlanded'
      intro hlast
      apply hsettled call hcall
      rw [GateCall.commitOf, hlanded', ← hhead, Branch.head, Branch.headOf, hlast]
      rfl
  · have hcommit : next.commitOf = some commit := by
      rw [GateCall.commitOf, hlanded]
      rfl
    rw [List.filterMap_cons, hcommit]
    refine List.nodup_cons.mpr ⟨?_, h.single⟩
    intro hin
    rcases List.mem_filterMap.mp hin with ⟨call, hcall, hsame⟩
    rcases h.commitOf_top hcall hsame with ⟨_, _, htop⟩
    exact hfresh htop.onBranch
  · intro kind other hnames
    rcases h.named kind other hnames with honOther | hrooted
    · exact Or.inl ((hon other).mpr (Or.inr honOther))
    · exact Or.inr hrooted
  · intro other hother
    rcases (hon other).mp hother with rfl | hother
    · refine Or.inr ⟨next, List.mem_cons_self, ?_⟩
      rw [GateCall.commitOf, hlanded]
      rfl
    · rcases h.judged other hother with hnames | ⟨call, hcall, hmade⟩
      · exact Or.inl hnames
      · exact Or.inr ⟨call, List.mem_cons_of_mem _ hcall, hmade⟩
  · intro other hother
    rcases List.mem_filter.mp hother with ⟨hother, hdiff⟩
    have hdiff : other ≠ commit := of_decide_eq_true hdiff
    rcases h.rewound other hother with ⟨hoff, hnotRoot⟩
    refine ⟨?_, hnotRoot⟩
    intro hon'
    rcases (hon other).mp hon' with heq | hon'
    · exact hdiff heq
    · exact hoff hon'
  · intro call hcall
    rcases List.mem_cons.mp hcall with rfl | hcall
    · exact hwritten hunnamed
    · exact h.written call hcall

theorem setBranch (h : Sound s rest) {name base : String} {branches : Branches}
    (hold : forall branch, branch ∈ s.branches -> branch.name = name -> branch.commits = [])
    (hnew : forall branch, branch ∈ branches <->
      branch = ⟨name, base, []⟩ ∨ (branch ∈ s.branches ∧ branch.name ≠ name)) :
    Sound { s with branches := branches } rest := by
  have hon : forall commit, OnBranch { s with branches := branches } commit <->
        s.OnBranch commit := by
    intro commit
    constructor
    · intro hon
      rcases hon with ⟨branch, hbranch, hcommit⟩
      rcases (hnew branch).mp hbranch with rfl | ⟨hin, _⟩
      · cases hcommit
      · exact ⟨branch, hin, hcommit⟩
    · intro hon
      rcases hon with ⟨branch, hbranch, hcommit⟩
      refine ⟨branch, (hnew branch).mpr (Or.inr ⟨hbranch, ?_⟩), hcommit⟩
      intro hname
      rw [hold branch hbranch hname] at hcommit
      cases hcommit
  have hin : forall branch commit, branch ∈ branches ->
      commit ∈ branch.commits -> branch ∈ s.branches := by
    intro branch commit hbranch hcommit
    rcases (hnew branch).mp hbranch with rfl | ⟨hin, _⟩
    · cases hcommit
    · exact hin
  constructor
  · intro branch hbranch
    rcases (hnew branch).mp hbranch with rfl | ⟨hold, _⟩
    · exact List.nodup_nil
    · exact h.nodup branch hold
  · intro one other commit hone hother hcommit hcommit'
    exact h.apart one other commit (hin one commit hone hcommit)
      (hin other commit hother hcommit') hcommit hcommit'
  · exact fun hroot => h.root ((hon s.root).mp hroot)
  · intro call landing commit hcall hlanded
    rcases h.top call landing commit hcall hlanded with
      ⟨branch, below, hmem, hname, hcommits, hfacts⟩
    refine ⟨branch, below, (hnew branch).mpr (Or.inr ⟨hmem, ?_⟩), hname, hcommits, hfacts⟩
    intro hsame
    rw [hold branch hmem hsame] at hcommits
    cases hcommits
  · exact h.single
  · intro kind commit hnames
    rcases h.named kind commit hnames with honCommit | hroot
    · exact Or.inl ((hon commit).mpr honCommit)
    · exact Or.inr hroot
  · intro commit hcommit
    exact h.judged commit ((hon commit).mp hcommit)
  · intro commit hcommit
    rcases h.rewound commit hcommit with ⟨hoff, hroot⟩
    exact ⟨fun hcon => hoff ((hon commit).mp hcon), hroot⟩
  · exact h.written

end Sound
end GateRun
end RuleGate
end Hyperloom
