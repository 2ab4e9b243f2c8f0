import Mathlib.Data.List.Infix

/-!
# Labelled machines and their runs

A machine is a set of initial states and an executable step function whose
labels carry everything the environment decides.  A run is a list of labels
taken one after the other; a condition on the state before each step singles
out the runs whose steps all meet it.  The rules at the end turn a fact about
one step into a fact about every run.
-/

namespace Hyperloom
namespace Library

/-- A machine with executable steps; a step that is not enabled gives `none`. -/
structure Machine (state label : Type) where
  init : state -> Prop
  step : state -> label -> Option state

section

variable {state : Type} {p : Prop} [Decidable p] {s t : state}

theorem some_of_guard (h : (if p then none else some s) = some t) : ¬ p ∧ s = t := by
  rcases Option.ite_none_left_eq_some.mp h with ⟨hp, hst⟩
  exact ⟨hp, Option.some.inj hst⟩

theorem some_of_when (h : (if p then some s else none) = some t) : p ∧ s = t := by
  rcases Option.ite_none_right_eq_some.mp h with ⟨hp, hst⟩
  exact ⟨hp, Option.some.inj hst⟩

end

theorem mem_concat {α : Type} {a b : α} {l : List α} : a ∈ l ++ [b] <-> a ∈ l ∨ a = b := by
  rw [List.mem_append, List.mem_singleton]

namespace Machine

variable {state label : Type}

/-!
## Runs

`Run M C s trace t` says that the labels of `trace` lead from
`s` to `t` and that `C` holds of every state and label on the
way.
-/

inductive Run (M : Machine state label) (C : state -> label -> Prop) :
    state -> List label -> state -> Prop where
  | nil (s : state) : Run M C s [] s
  | cons {s t u : state} {a : label} {rest : List label} :
    C s a -> M.step s a = some t -> Run M C t rest u -> Run M C s (a :: rest) u

/-- The condition every step meets. -/
def Always (_ : state) (_ : label) : Prop := True

instance (s : state) (a : label) : Decidable (Always s a) := isTrue trivial

variable (M : Machine state label)

/-- States some run from an initial state reaches with all its steps in `C`. -/
def ReachableWhere (C : state -> label -> Prop) (s : state) : Prop :=
  exists start trace, M.init start ∧ Run M C start trace s

def Reachable (s : state) : Prop := ReachableWhere M Always s

/-- Execute a trace, checking the condition before each step. -/
def runIf (M : Machine state label) (C : state -> label -> Prop)
    [forall s a, Decidable (C s a)] : state -> List label -> Option state
  | s, [] => some s
  | s, a :: rest =>
    if C s a then
      match M.step s a with
      | none => none
      | some t => runIf M C t rest
    else none

variable {M : Machine state label} {C : state -> label -> Prop} {s t : state} {trace : List label}

theorem Run.of_runIf [forall s a, Decidable (C s a)]
    (h : M.runIf C s trace = some t) : Run M C s trace t := by
  induction trace generalizing s with
  | nil =>
    have hst : s = t := by simpa [runIf] using h
    rw [hst]
    exact Run.nil t
  | cons a rest ih =>
    rw [runIf] at h
    by_cases hC : C s a
    · rw [if_pos hC] at h
      cases hstep : M.step s a with
      | none =>
        rw [hstep] at h
        cases h
      | some next =>
        rw [hstep] at h
        exact Run.cons hC hstep (ih h)
    · rw [if_neg hC] at h
      cases h

theorem ReachableWhere.of_runIf [forall s a, Decidable (C s a)] {start : state}
    (hinit : M.init start) (h : M.runIf C start trace = some s) : M.ReachableWhere C s :=
  ⟨start, trace, hinit, Run.of_runIf h⟩

theorem Run.append {u : state} {first second : List label}
    (hst : Run M C s first t) (htu : Run M C t second u) : Run M C s (first ++ second) u := by
  induction hst with
  | nil s => exact htu
  | cons hC hstep _ ih => exact Run.cons hC hstep (ih htu)

/-- A fact about a run and where it leads, kept by one step more. -/
theorem Run.reverse_induction {P : List label -> state -> Prop} (hnil : P [] s)
    (hsnoc : forall trace t a u, Run M C s trace t -> P trace t -> C t a -> M.step t a = some u ->
      P (trace ++ [a]) u) (hrun : Run M C s trace t) : P trace t := by
  have hfrom : forall {u v rest}, Run M C u rest v -> forall done, Run M C s done u ->
      P done u -> P (done ++ rest) v := by
    intro u v rest hrest
    induction hrest with
    | nil =>
      intro done _ hP
      rwa [List.append_nil]
    | cons hC hstep _ ih =>
      intro done hdone hP
      rw [List.append_cons]
      exact ih _ (hdone.append (Run.cons hC hstep (Run.nil _))) (hsnoc done _ _ _ hdone hP hC hstep)
  exact hfrom hrun [] (Run.nil s) hnil

theorem ReachableWhere.step {a : label} (h : M.ReachableWhere C s) (hC : C s a)
    (hstep : M.step s a = some t) : M.ReachableWhere C t := by
  rcases h with ⟨start, trace, hstart, hrun⟩
  exact ⟨start, trace ++ [a], hstart, hrun.append (Run.cons hC hstep (Run.nil t))⟩

theorem Run.exists_of_runIf [forall s a, Decidable (C s a)] {P : state -> Prop}
    [DecidablePred P] (start : state) (trace : List label)
    (h : (M.runIf C start trace).any (fun s => decide (P s)) = true) :
    exists s, Run M C start trace s ∧ P s := by
  cases hrun : M.runIf C start trace with
  | none =>
    rw [hrun] at h
    cases h
  | some s =>
    rw [hrun] at h
    exact ⟨s, Run.of_runIf hrun, of_decide_eq_true h⟩

theorem ReachableWhere.exists_of_runIf [forall s a, Decidable (C s a)]
    {P : state -> Prop} [DecidablePred P] (start : state) (trace : List label)
    (hinit : M.init start) (h : (M.runIf C start trace).any (fun s => decide (P s)) = true) :
    exists s, M.ReachableWhere C s ∧ P s := by
  rcases Run.exists_of_runIf start trace h with ⟨s, hrun, hs⟩
  exact ⟨s, ⟨start, trace, hinit, hrun⟩, hs⟩

theorem Reachable.exists_of_runIf {P : state -> Prop} [DecidablePred P] (start : state)
    (trace : List label) (hinit : M.init start)
    (h : (M.runIf Always start trace).any (fun s => decide (P s)) = true) :
    exists s, M.Reachable s ∧ P s :=
  ReachableWhere.exists_of_runIf start trace hinit h

theorem Run.mono {D : state -> label -> Prop} (hCD : forall s a, C s a -> D s a)
    (h : Run M C s trace t) : Run M D s trace t := by
  induction h with
  | nil s => exact Run.nil s
  | cons hC hstep _ ih => exact Run.cons (hCD _ _ hC) hstep ih

theorem ReachableWhere.reachable (h : M.ReachableWhere C s) : M.Reachable s := by
  rcases h with ⟨start, trace, hstart, hrun⟩
  exact ⟨start, trace, hstart, hrun.mono (fun _ _ _ => trivial)⟩

/-!
## Induction rules

An invariant is proved of the initial states and of one step; a relation that
composes, such as an order on one component of the state, is proved of one
step and then holds between the ends of every run.
-/

variable {I : state -> Prop}

theorem Run.invariant (hstep : forall s a t, I s -> C s a -> M.step s a = some t -> I t)
    (hrun : Run M C s trace t) (hs : I s) : I t := by
  induction hrun with
  | nil s => exact hs
  | cons hC hone _ ih => exact ih (hstep _ _ _ hs hC hone)

theorem ReachableWhere.invariant (hinit : forall s, M.init s -> I s)
    (hstep : forall s a t, I s -> C s a -> M.step s a = some t -> I t)
    (hs : M.ReachableWhere C s) : I s := by
  rcases hs with ⟨start, trace, hstart, hrun⟩
  exact hrun.invariant hstep (hinit start hstart)

/-- A relation that composes holds along a run once it holds of one step,
where the steps may assume an invariant. -/
theorem Run.relates {R : state -> state -> Prop} (hrefl : forall s, R s s)
    (htrans : forall s t u, R s t -> R t u -> R s u)
    (hinv : forall s a t, I s -> C s a -> M.step s a = some t -> I t)
    (hstep : forall s a t, I s -> C s a -> M.step s a = some t -> R s t)
    (hrun : Run M C s trace t) (hs : I s) : R s t := by
  induction hrun with
  | nil s => exact hrefl s
  | cons hC hone _ ih =>
    exact htrans _ _ _ (hstep _ _ _ hs hC hone) (ih (hinv _ _ _ hs hC hone))

/-- A rank that some steps lower, and the others raise by at most `cost`, bounds
how often the first kind is taken. -/
theorem Run.countP_le (rank : state -> Nat) (lowers : label -> Bool) (cost : Nat)
    (hinv : forall s a t, I s -> C s a -> M.step s a = some t -> I t)
    (hlower : forall s a t, I s -> C s a -> lowers a = true ->
      M.step s a = some t -> rank t + 1 ≤ rank s)
    (hraise : forall s a t, I s -> C s a -> lowers a = false ->
      M.step s a = some t -> rank t ≤ rank s + cost) (hrun : Run M C s trace t) (hs : I s) :
    rank t + trace.countP lowers ≤ rank s + cost * trace.countP (fun a => !lowers a) := by
  induction hrun with
  | nil s => exact Nat.le_refl _
  | @cons s next last a rest hC hone _ ih =>
    have hrest := ih (hinv _ _ _ hs hC hone)
    cases ha : lowers a with
    | true =>
      have hfirst := hlower _ _ _ hs hC ha hone
      rw [List.countP_cons_of_pos ha, List.countP_cons_of_neg (by simp [ha])]
      lia
    | false =>
      have hfirst := hraise _ _ _ hs hC ha hone
      rw [List.countP_cons_of_neg (by simp [ha]),
        List.countP_cons_of_pos (by simp [ha]), Nat.mul_add]
      lia

/-- When each step keeps `I` exactly if it meets `C`, every state along a run
has `I` exactly if every step of the run meets `C`. -/
theorem Run.always_iff {J : state -> Prop} (hkeep : forall s a t, J s -> M.step s a = some t -> J t)
    (hstep : forall s a t, J s -> I s -> M.step s a = some t -> (I t <-> C s a))
    (hrun : Run M Always s trace t) (hJ : J s) (hI : I s) :
    (forall start u, start <+: trace -> Run M Always s start u -> I u) <-> Run M C s trace t := by
  induction hrun with
  | nil s =>
    constructor
    · intro _
      exact Run.nil s
    · intro _ start u hprefix hstart
      rw [List.prefix_nil.mp hprefix] at hstart
      cases hstart
      exact hI
  | @cons s next last a rest _ hone hrest ih =>
    have hnextJ := hkeep s a next hJ hone
    constructor
    · intro hall
      have hnextI : I next :=
        hall [a] next (List.prefix_append [a] rest) (Run.cons trivial hone (Run.nil next))
      have hC := (hstep s a next hJ hI hone).mp hnextI
      apply Run.cons hC hone
      apply (ih hnextJ hnextI).mp
      intro start u hprefix hstart
      exact hall (a :: start) u (List.cons_prefix_cons.mpr ⟨rfl, hprefix⟩)
        (Run.cons trivial hone hstart)
    · intro hwhere start u hprefix hstart
      cases hwhere with
      | cons hC hone' hrest' =>
        rcases Option.some.inj (hone.symm.trans hone') with rfl
        have hnextI := (hstep s a next hJ hI hone).mpr hC
        cases hstart with
        | nil => exact hI
        | cons _ hfirst hstart' =>
          rcases List.cons_prefix_cons.mp hprefix with ⟨rfl, hprefix'⟩
          have hsame' := Option.some.inj (hone.symm.trans hfirst)
          subst hsame'
          exact (ih hnextJ hnextI).mpr hrest' _ u hprefix' hstart'

end Machine

end Library
end Hyperloom
