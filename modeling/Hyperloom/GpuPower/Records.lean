import Hyperloom.GpuPower.Settings
import Mathlib.Algebra.Order.Group.Abs
import Mathlib.Data.List.Dedup

/-!
# What the power records say

A setting a session applied has a record with the value it had from outside,
and a record whose applied value a card reads has that value too.  How each set
and each write of a record keeps this.
-/

namespace Hyperloom
namespace GpuPower

/-!
## Readings
-/

theorem PowerValue.readsAs_self (value : PowerValue) : value.readsAs value = true := by
  cases value with
  | cap watts =>
    have hzero : |watts - watts| ≤ readingTolerance := by
      rw [sub_self]
      decide +kernel
    exact decide_eq_true hzero
  | level name => exact decide_eq_true rfl

theorem PowerValue.readsAs_comm (one other : PowerValue) :
    one.readsAs other = other.readsAs one := by
  cases one with
  | cap watts =>
    cases other with
    | cap watts' => simp only [readsAs, abs_sub_comm]
    | level name => rfl
  | level name =>
    cases other with
    | cap watts => rfl
    | level name' => simp only [readsAs, eq_comm]

namespace PowerRun

variable (s : PowerRun)

def Applied (gpu : Nat) (key : PowerKey) : Prop :=
  exists id, s.origin gpu key = .applied id

def Clean (gpu : Nat) : Prop := forall key, ¬ s.Applied gpu key

structure Recorded (s : PowerRun) : Prop where
  native : forall gpu key, ¬ s.Applied gpu key -> s.value gpu key = s.native gpu key
  applied : forall gpu key, s.Applied gpu key ->
    exists record, s.records gpu = some record ∧ record.original key = some (s.native gpu key) ∧
      record.applied key = some (s.value gpu key)
  record : forall gpu record key original want,
    s.records gpu = some record -> record.original key = some original ->
    record.applied key = some want -> original.readsAs want = false ∧
      ((s.value gpu key).readsAs want = true -> original = s.native gpu key)

/-- Targets to restore: the records have them and they are the values from
outside. -/
def Restorable (gpus : List Nat) (targets : List Target) : Prop :=
  forall target, target ∈ targets -> target.gpu ∈ gpus ∧
    target.value = s.native target.gpu target.key ∧
    exists record, s.records target.gpu = some record ∧
      record.original target.key = some target.value

def Covered (gpus : List Nat) (targets : List Target) : Prop :=
  forall gpu key, gpu ∈ gpus -> s.Applied gpu key ->
    exists target, target ∈ targets ∧ target.gpu = gpu ∧ target.key = key

/-!
## Sets and records
-/

section

variable {s : PowerRun} {gpu : Nat} {key : PowerKey} {value : PowerValue} {origin : Origin}

theorem value_put_self : (s.put gpu key value origin).value gpu key = value := by
  simp only [put, Function.update_self]

theorem origin_put_self : (s.put gpu key value origin).origin gpu key = origin := by
  simp only [put, Function.update_self]

variable {gpu' : Nat} {key' : PowerKey}

section

variable (h : ¬ (gpu' = gpu ∧ key' = key))

include h

theorem update_card_of_ne {α : Type} {f : Nat -> PowerKey -> α} {a : α} :
    Function.update f gpu (Function.update (f gpu) key a) gpu' key' = f gpu' key' := by
  by_cases hgpu : gpu' = gpu
  · have hkey : key' ≠ key := fun heq => h ⟨hgpu, heq⟩
    rw [hgpu, Function.update_self, Function.update_of_ne hkey]
  · rw [Function.update_of_ne hgpu]

theorem value_put_of_ne : (s.put gpu key value origin).value gpu' key' = s.value gpu' key' :=
  update_card_of_ne h

theorem origin_put_of_ne : (s.put gpu key value origin).origin gpu' key' = s.origin gpu' key' :=
  update_card_of_ne h

end

theorem applied_put (horigin : forall id, origin ≠ .applied id)
    (h : (s.put gpu key value origin).Applied gpu' key') :
    s.Applied gpu' key' ∧ ¬ (gpu' = gpu ∧ key' = key) := by
  rcases h with ⟨id, hid⟩
  by_cases heq : gpu' = gpu ∧ key' = key
  · rw [heq.1, heq.2, origin_put_self] at hid
    exact absurd hid (horigin id)
  · rw [origin_put_of_ne heq] at hid
    exact ⟨⟨id, hid⟩, heq⟩

theorem records_setRecord_self {record : Option PowerRecord} :
    (s.setRecord gpu record).records gpu = record :=
  Function.update_self ..

theorem records_setRecord_of_ne {record : Option PowerRecord} (h : gpu' ≠ gpu) :
    (s.setRecord gpu record).records gpu' = s.records gpu' :=
  Function.update_of_ne h ..

end

namespace Recorded

variable {s : PowerRun} {gpu : Nat}

section

variable (h : Recorded s)

include h

theorem restore {target : Target} (hvalue : target.value = s.native target.gpu target.key)
    (hrecord : exists record, s.records target.gpu = some record ∧
      record.original target.key = some target.value) :
    Recorded (s.put target.gpu target.key target.value .restored) := by
  have horigin : forall id, Origin.restored ≠ .applied id := by
    intro id heq
    cases heq
  constructor
  · intro gpu key hnot
    by_cases heq : gpu = target.gpu ∧ key = target.key
    · rw [heq.1, heq.2, value_put_self]
      exact hvalue
    · rw [value_put_of_ne heq]
      apply h.native
      intro happlied
      rcases happlied with ⟨id, hid⟩
      exact hnot ⟨id, by rw [origin_put_of_ne heq]; exact hid⟩
  · intro gpu key happlied
    rcases applied_put horigin happlied with ⟨hold, heq⟩
    rw [value_put_of_ne heq]
    exact h.applied gpu key hold
  · intro gpu record key original want hrec horig hwant
    have hfacts := h.record gpu record key original want hrec horig hwant
    refine ⟨hfacts.1, ?_⟩
    by_cases heq : gpu = target.gpu ∧ key = target.key
    · intro _
      rcases hrecord with ⟨found, hfound, horiginal⟩
      rw [heq.1] at hrec
      rw [heq.2] at horig
      have hsame : found = record := Option.some.inj (hfound.symm.trans hrec)
      rw [hsame, horig] at horiginal
      rw [heq.1, heq.2]
      exact (Option.some.inj horiginal).trans hvalue
    · rw [value_put_of_ne heq]
      exact hfacts.2

theorem apply {key : PowerKey} {want : PowerValue} (id : Nat)
    (hrecord : exists record, s.records gpu = some record ∧
      record.original key = some (s.native gpu key) ∧ record.applied key = some want) :
    Recorded (s.put gpu key want (.applied id)) := by
  rcases hrecord with ⟨found, hfound, horiginal, happlied⟩
  constructor
  · intro gpu' key' hnot
    by_cases heq : gpu' = gpu ∧ key' = key
    · rw [heq.1, heq.2] at hnot
      exact absurd ⟨id, origin_put_self⟩ hnot
    · rw [value_put_of_ne heq]
      apply h.native
      intro hold
      rcases hold with ⟨other, hother⟩
      exact hnot ⟨other, by rw [origin_put_of_ne heq]; exact hother⟩
  · intro gpu' key' hold
    by_cases heq : gpu' = gpu ∧ key' = key
    · rw [heq.1, heq.2, value_put_self]
      exact ⟨found, hfound, horiginal, happlied⟩
    · rw [value_put_of_ne heq]
      rcases hold with ⟨other, hother⟩
      rw [origin_put_of_ne heq] at hother
      exact h.applied gpu' key' ⟨other, hother⟩
  · intro gpu' record key' original want' hrec horig hwant
    have hfacts := h.record gpu' record key' original want' hrec horig hwant
    refine ⟨hfacts.1, ?_⟩
    by_cases heq : gpu' = gpu ∧ key' = key
    · intro _
      rw [heq.1] at hrec
      rw [heq.2] at horig
      have hsame : found = record := Option.some.inj (hfound.symm.trans hrec)
      rw [hsame, horig] at horiginal
      rw [heq.1, heq.2]
      exact Option.some.inj horiginal
    · rw [value_put_of_ne heq]
      exact hfacts.2

theorem setRecord (hclean : s.Clean gpu) (record : Option PowerRecord)
    (hrecord : forall new key original want, record = some new ->
      new.original key = some original -> new.applied key = some want ->
      original = s.native gpu key ∧ original.readsAs want = false) :
    Recorded (s.setRecord gpu record) := by
  constructor
  · exact h.native
  · intro gpu' key happlied
    have hne : gpu' ≠ gpu := by
      intro heq
      rw [heq] at happlied
      exact hclean key happlied
    rcases h.applied gpu' key happlied with ⟨found, hfound, hfacts⟩
    refine ⟨found, ?_, hfacts⟩
    rw [records_setRecord_of_ne hne]
    exact hfound
  · intro gpu' found key original want hfound horig hwant
    by_cases heq : gpu' = gpu
    · rw [heq, records_setRecord_self] at hfound
      have hnew := hrecord found key original want hfound horig hwant
      rw [heq]
      exact ⟨hnew.2, fun _ => hnew.1⟩
    · rw [records_setRecord_of_ne heq] at hfound
      exact h.record gpu' found key original want hfound horig hwant

theorem clear (hclean : s.Clean gpu) : Recorded (s.setRecord gpu none) := by
  apply h.setRecord hclean
  intro new key original want hnew
  cases hnew

theorem outside {key : PowerKey} {value : PowerValue}
    (hapart : forall record original want, s.records gpu = some record ->
      record.original key = some original ->
      record.applied key = some want -> value.readsAs want = false) :
    Recorded { s.put gpu key value .outside with
      native := Function.update s.native gpu (Function.update (s.native gpu) key value) } := by
  have horigin : forall id, Origin.outside ≠ .applied id := by
    intro id heq
    cases heq
  have hnative : forall gpu' key', ¬ (gpu' = gpu ∧ key' = key) ->
      Function.update s.native gpu (Function.update (s.native gpu) key value)
        gpu' key' = s.native gpu' key' := by
    intro gpu' key' hne
    exact @value_put_of_ne { s with value := s.native } gpu key value .outside gpu' key' hne
  constructor
  · intro gpu' key' hnot
    by_cases heq : gpu' = gpu ∧ key' = key
    · rw [heq.1, heq.2, value_put_self]
      simp only [Function.update_self]
    · rw [value_put_of_ne heq]
      show s.value gpu' key' = Function.update s.native gpu
        (Function.update (s.native gpu) key value) gpu' key'
      rw [hnative gpu' key' heq]
      apply h.native
      intro hold
      rcases hold with ⟨id, hid⟩
      have horig : (s.put gpu key value .outside).origin gpu' key' = .applied id := by
        rw [origin_put_of_ne heq]
        exact hid
      exact hnot ⟨id, horig⟩
  · intro gpu' key' happlied
    have happlied : (s.put gpu key value .outside).Applied gpu' key' := happlied
    rcases applied_put horigin happlied with ⟨hold, heq⟩
    show exists record, s.records gpu' = some record ∧
      record.original key' = some (Function.update s.native gpu
        (Function.update (s.native gpu) key value) gpu' key') ∧
      record.applied key' = some ((s.put gpu key value .outside).value gpu' key')
    rw [value_put_of_ne heq, hnative gpu' key' heq]
    exact h.applied gpu' key' hold
  · intro gpu' record key' original want hrec horig hwant
    have hfacts := h.record gpu' record key' original want hrec horig hwant
    refine ⟨hfacts.1, ?_⟩
    show ((s.put gpu key value .outside).value gpu' key').readsAs want = true ->
      original = Function.update s.native gpu (Function.update (s.native gpu) key value) gpu' key'
    by_cases heq : gpu' = gpu ∧ key' = key
    · rw [heq.1, heq.2, value_put_self]
      rw [heq.1] at hrec
      rw [heq.2] at horig hwant
      rw [hapart record original want hrec horig hwant]
      intro hcon
      cases hcon
    · rw [value_put_of_ne heq, hnative gpu' key' heq]
      exact hfacts.2

theorem clean_of_isBack {gpus : List Nat} {targets : List Target} {hidden : List (Nat × PowerKey)}
    (hrestorable : s.Restorable gpus targets)
    (hcovered : s.Covered gpus targets) (hgpu : gpu ∈ gpus)
    (hback : s.isBack hidden targets gpu = true) : s.Clean gpu := by
  intro key happlied
  rcases hcovered gpu key hgpu happlied with ⟨target, hmem, htgpu, htkey⟩
  have hreads := List.all_eq_true.mp hback target hmem
  rw [htgpu] at hreads
  simp only [ne_eq, not_true_eq_false, decide_false, Bool.false_or, readsBack,
    Bool.and_eq_true] at hreads
  have hvalue := (hrestorable target hmem).2.1
  rcases h.applied gpu key happlied with ⟨record, hrecord, horiginal, hwant⟩
  have hapart := (h.record gpu record key _ _ hrecord horiginal hwant).1
  rw [htgpu, htkey] at hreads hvalue
  rw [hvalue, PowerValue.readsAs_comm, hapart] at hreads
  cases hreads.2

end

end Recorded

end PowerRun
end GpuPower
end Hyperloom
