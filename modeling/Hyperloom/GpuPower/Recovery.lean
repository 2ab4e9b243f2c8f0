import Hyperloom.GpuPower.Records

/-!
# Putting the power settings back

A record is cleared only where none of its card's settings is applied any more,
and whatever a restore writes is the value from outside.  Both need that nobody
else sets a card a live session holds, or gives one the value a record names as
applied.
-/

namespace Hyperloom
namespace GpuPower

open Library

variable {session : PowerSession} {s : PowerRun} {target : Target}

namespace PowerRun

/-!
## The phases of a session
-/

def Originals (s : PowerRun) (session : PowerSession) (originals : List Target) : Prop :=
  forall target, target ∈ originals -> target.gpu ∈ session.gpus ∧
    target.value = s.native target.gpu target.key ∧
    exists want, session.declared.get target.key = some want ∧ target.value.readsAs want = false

structure Held (s : PowerRun) (session : PowerSession) (originals : List Target) : Prop where
  native : s.Originals session originals
  records : forall gpu, gpu ∈ session.gpus -> s.records gpu = some (session.record originals gpu)
  covered : s.Covered session.gpus originals

def Clearable (s : PowerRun) (gpus cards : List Nat) : Prop :=
  forall gpu, gpu ∈ cards -> gpu ∈ gpus ∧ s.Clean gpu

def PhaseSound (s : PowerRun) (session : PowerSession) : PowerPhase -> Prop
  | .leased => True
  | .clearing stale live => s.Clearable session.gpus stale ∧
    s.Restorable session.gpus live ∧ s.Covered session.gpus live ∧
    forall target, target ∈ live -> target.gpu ∉ stale
  | .restoring todo all => s.Restorable session.gpus all ∧
    s.Covered session.gpus all ∧ forall target, target ∈ todo -> target ∈ all
  | .cleared cards allBack => s.Clearable session.gpus cards ∧
    (allBack = true -> s.Clearable session.gpus session.gpus)
  | .observing => s.Clearable session.gpus session.gpus
  | .recording cards _ originals => s.Clearable session.gpus session.gpus ∧
    s.Originals session originals ∧ (forall gpu, gpu ∈ cards -> gpu ∈ session.gpus) ∧
    forall gpu, gpu ∈ session.gpus -> gpu ∉ cards ->
      s.records gpu = some (session.record originals gpu)
  | .applying todo originals => s.Held session originals ∧
    forall target, target ∈ todo -> target ∈ originals
  | .running originals => s.Held session originals
  | .puttingBack todo originals => s.Held session originals ∧
    forall target, target ∈ todo -> target ∈ originals
  | .closing cards => s.Clearable session.gpus cards

def SameCard (s t : PowerRun) (gpu : Nat) : Prop :=
  t.origin gpu = s.origin gpu ∧ t.native gpu = s.native gpu ∧ t.records gpu = s.records gpu

variable {key : PowerKey} {targets : List Target} {phase : PowerPhase} {originals : List Target}

section

variable {s t : PowerRun} {gpus : List Nat}

theorem SameCard.applied {gpu : Nat} (h : SameCard s t gpu) :
    t.Applied gpu key <-> s.Applied gpu key := by
  unfold Applied
  rw [h.1]

section

variable (hsame : forall gpu, gpu ∈ gpus -> SameCard s t gpu)

include hsame

theorem Clearable.of_same {cards : List Nat} (h : s.Clearable gpus cards) :
    t.Clearable gpus cards := by
  intro gpu hgpu
  rcases h gpu hgpu with ⟨hin, hclean⟩
  refine ⟨hin, ?_⟩
  intro key happlied
  exact hclean key ((hsame gpu hin).applied.mp happlied)

theorem Restorable.of_same (h : s.Restorable gpus targets) : t.Restorable gpus targets := by
  intro target htarget
  rcases h target htarget with ⟨hin, hfacts⟩
  refine ⟨hin, ?_⟩
  rw [(hsame target.gpu hin).2.1, (hsame target.gpu hin).2.2]
  exact hfacts

theorem Covered.of_same (h : s.Covered gpus targets) : t.Covered gpus targets := by
  intro gpu key hgpu happlied
  exact h gpu key hgpu ((hsame gpu hgpu).applied.mp happlied)

end

variable {session : PowerSession}

section

variable (hsame : forall gpu, gpu ∈ session.gpus -> SameCard s t gpu)

include hsame

theorem Originals.of_same (h : s.Originals session originals) : t.Originals session originals := by
  intro target htarget
  rcases h target htarget with ⟨hin, hfacts⟩
  refine ⟨hin, ?_⟩
  rw [(hsame target.gpu hin).2.1]
  exact hfacts

theorem Held.of_same (h : s.Held session originals) : t.Held session originals where
  native := h.native.of_same hsame
  records gpu hgpu := by
    rw [(hsame gpu hgpu).2.2]
    exact h.records gpu hgpu
  covered := h.covered.of_same hsame

theorem PhaseSound.of_same (h : s.PhaseSound session phase) : t.PhaseSound session phase := by
  cases phase with
  | leased => exact trivial
  | clearing stale live =>
    exact ⟨h.1.of_same hsame, h.2.1.of_same hsame, h.2.2.1.of_same hsame, h.2.2.2⟩
  | restoring todo all =>
    exact ⟨h.1.of_same hsame, h.2.1.of_same hsame, h.2.2⟩
  | cleared cards allBack =>
    exact ⟨h.1.of_same hsame, fun hback => (h.2 hback).of_same hsame⟩
  | observing => exact Clearable.of_same hsame h
  | recording cards truncated originals =>
    refine ⟨h.1.of_same hsame, h.2.1.of_same hsame, h.2.2.1, ?_⟩
    intro gpu hgpu hcards
    rw [(hsame gpu hgpu).2.2]
    exact h.2.2.2 gpu hgpu hcards
  | running originals => exact Held.of_same hsame h
  | closing cards => exact Clearable.of_same hsame h
  | _ => exact ⟨h.1.of_same hsame, h.2⟩

end

end

theorem PhaseSound.of_session (h : s.PhaseSound session phase) (other : PowerPhase) :
    s.PhaseSound { session with phase := other } phase := by
  cases phase with
  | applying todo originals =>
    exact ⟨{ h.1 with }, h.2⟩
  | running originals => exact { h with }
  | puttingBack todo originals =>
    exact ⟨{ h.1 with }, h.2⟩
  | _ => exact h

theorem Held.restorable (h : s.Held session originals) : s.Restorable session.gpus originals := by
  intro target htarget
  rcases h.native target htarget with ⟨hin, hvalue, _⟩
  refine ⟨hin, hvalue, _, h.records target.gpu hin, ?_⟩
  unfold PowerSession.record
  dsimp only
  cases hfind : originals.find? fun other => other.gpu = target.gpu && other.key = target.key with
  | none =>
    have hnot := List.find?_eq_none.mp hfind target htarget
    simp at hnot
  | some found =>
    have hfound := List.find?_some hfind
    simp only [Bool.and_eq_true, decide_eq_true_eq] at hfound
    have hother := (h.native found (List.mem_of_find?_eq_some hfind)).2.1
    rw [hfound.1, hfound.2, ← hvalue] at hother
    rw [Option.map_some, hother]

/-- A step of a session: only its own cards change. -/
structure Steps (s t : PowerRun) (session : PowerSession) (next : Option PowerPhase) : Prop where
  recorded : Recorded t
  frame : forall gpu, gpu ∉ session.gpus -> SameCard s t gpu
  phase : forall later, next = some later -> t.PhaseSound session later

section

variable {s t : PowerRun} {session : PowerSession} {next : Option PowerPhase} {phase : PowerPhase}

theorem Steps.goto (h : Recorded s) (hphase : s.PhaseSound session phase) :
    Steps s s session (some phase) where
  recorded := h
  frame _ _ := ⟨rfl, rfl, rfl⟩
  phase := by
    intro later hlater
    cases hlater
    exact hphase

theorem Steps.last (h : Recorded s) : Steps s s session none where
  recorded := h
  frame _ _ := ⟨rfl, rfl, rfl⟩
  phase := nofun

variable {gpu : Nat}

theorem sameCard_put {gpu' : Nat} {value : PowerValue} {origin : Origin}
    (h : gpu' ≠ gpu) : SameCard s (s.put gpu key value origin) gpu' :=
  ⟨Function.update_of_ne h .., rfl, rfl⟩

theorem sameCard_setRecord {gpu' : Nat} {record : Option PowerRecord}
    (h : gpu' ≠ gpu) : SameCard s (s.setRecord gpu record) gpu' :=
  ⟨rfl, rfl, records_setRecord_of_ne h⟩

theorem Steps.clear (h : Recorded s) (hgpu : gpu ∈ session.gpus) (hclean : s.Clean gpu)
    (hphase : (s.setRecord gpu none).PhaseSound session phase) :
    Steps s (s.setRecord gpu none) session (some phase) where
  recorded := h.clear hclean
  frame _ hother := sameCard_setRecord (ne_of_mem_of_not_mem hgpu hother).symm
  phase := by
    intro later hlater
    cases hlater
    exact hphase

theorem Steps.restore (h : Recorded s) (hrestorable : s.Restorable session.gpus targets)
    (hcovered : s.Covered session.gpus targets) (htarget : target ∈ targets)
    (took : Bool) (hphase : (s.restore target took).Restorable session.gpus targets ->
      (s.restore target took).Covered session.gpus targets ->
      (forall gpu, (s.restore target took).records gpu = s.records gpu) ->
      (s.restore target took).PhaseSound session phase) :
    Steps s (s.restore target took) session (some phase) := by
  cases took with
  | false => exact Steps.goto h (hphase hrestorable hcovered fun _ => rfl)
  | true =>
    rcases hrestorable target htarget with ⟨hin, hvalue, hrecord⟩
    constructor
    · exact h.restore hvalue hrecord
    · intro gpu hgpu
      exact sameCard_put (ne_of_mem_of_not_mem hin hgpu).symm
    · intro later hlater
      cases hlater
      refine hphase hrestorable ?_ fun _ => rfl
      intro gpu key hgpu happlied
      have horigin : forall id, Origin.restored ≠ .applied id := nofun
      exact hcovered gpu key hgpu (applied_put horigin happlied).1

/-- What `leased` reads: the settings still applied are those the records
name. -/
theorem mem_stillApplied :
    target ∈ s.stillApplied gpu <->
      target.gpu = gpu ∧ exists record want, s.records gpu = some record ∧
        record.applied target.key = some want ∧ record.original target.key = some target.value ∧
        (s.value gpu target.key).readsAs want = true := by
  unfold stillApplied
  cases hrecord : s.records gpu with
  | none => simp
  | some record =>
    simp only [List.mem_filterMap]
    constructor
    · intro h
      rcases h with ⟨key, _, hkey⟩
      split at hkey
      · rename_i want original hwant horiginal
        rcases some_of_when hkey with ⟨hreads, rfl⟩
        exact ⟨rfl, record, want, rfl, hwant, horiginal, hreads⟩
      · cases hkey
    · intro h
      rcases h with ⟨rfl, found, want, hfound, hwant, horiginal, hreads⟩
      cases hfound
      refine ⟨target.key, ?_, ?_⟩
      · cases target.key with
        | powerCapW => exact List.mem_cons_self
        | perfLevel => exact List.mem_cons_of_mem _ List.mem_cons_self
      · simp only [hwant, horiginal, hreads, if_true]

variable {answer : PowerAnswer} {todo : List Target} {cards : List Nat} {originals : List Target}

section

variable (h : Recorded s)

include h

theorem applied_stillApplied (happlied : s.Applied gpu key) :
    (⟨gpu, key, s.native gpu key⟩ : Target) ∈ s.stillApplied gpu := by
  rcases h.applied gpu key happlied with ⟨record, hrecord, horiginal, hwant⟩
  exact mem_stillApplied.mpr ⟨rfl, record, _, hrecord, hwant, horiginal, PowerValue.readsAs_self _⟩

theorem Steps.leased (hstep : s.statement session .leased answer = some (t, next)) :
    Steps s t session next := by
  have horphan : forall gpu key, gpu ∈ session.gpus -> s.Applied gpu key ->
      gpu ∈ s.orphaned session := by
    intro gpu key hgpu happlied
    rcases h.applied gpu key happlied with ⟨record, hrecord, _⟩
    refine List.mem_filter.mpr ⟨hgpu, ?_⟩
    rw [hrecord]
    rfl
  cases answer with
  | read hidden =>
    simp only [statement] at hstep
    split at hstep
    · rename_i hnone
      cases hstep
      refine Steps.goto h ?_
      intro gpu hgpu
      refine ⟨hgpu, ?_⟩
      intro key happlied
      have hin := horphan gpu key hgpu happlied
      rw [hnone] at hin
      cases hin
    · split at hstep
      · cases hstep
        exact Steps.last h
      · cases hstep
        refine Steps.goto h ?_
        constructor
        · intro gpu hgpu
          rcases List.mem_filter.mp hgpu with ⟨hin, hempty⟩
          refine ⟨List.mem_of_mem_filter hin, ?_⟩
          intro key happlied
          have hmem := applied_stillApplied h happlied
          rw [List.isEmpty_iff.mp hempty] at hmem
          cases hmem
        · constructor
          · intro target htarget
            rcases List.mem_flatMap.mp htarget with ⟨gpu, hin, hmem⟩
            rcases mem_stillApplied.mp hmem with
              ⟨hgpu, record, want, hrecord, hwant, horiginal, hreads⟩
            rw [hgpu]
            refine ⟨List.mem_of_mem_filter hin, ?_, record, hrecord, horiginal⟩
            exact (h.record gpu record target.key target.value want hrecord
              horiginal hwant).2 hreads
          · constructor
            · intro gpu key hgpu happlied
              exact ⟨_, List.mem_flatMap.mpr ⟨gpu, horphan gpu key hgpu happlied,
                applied_stillApplied h happlied⟩, rfl, rfl⟩
            · intro target htarget hstale
              rcases List.mem_flatMap.mp htarget with ⟨gpu, _, hmem⟩
              have hgpu := (mem_stillApplied.mp hmem).1
              have hempty := (List.mem_filter.mp hstale).2
              rw [hgpu] at hempty
              rw [List.isEmpty_iff.mp hempty] at hmem
              cases hmem
  | _ => cases hstep

theorem Steps.clearing {stale : List Nat} {live : List Target}
    (hphase : s.PhaseSound session (.clearing stale live))
    (hstep : s.statement session (.clearing stale live) answer =
      some (t, next)) : Steps s t session next := by
  rcases hphase with ⟨hclear, hrestorable, hcovered, hapart⟩
  cases stale with
  | nil =>
    cases answer with
    | done =>
      cases hstep
      refine Steps.goto h ?_
      split
      · rename_i hnone
        intro gpu hgpu
        refine ⟨hgpu, ?_⟩
        intro key happlied
        rcases hcovered gpu key hgpu happlied with ⟨target, htarget, _⟩
        rw [hnone] at htarget
        cases htarget
      · exact ⟨hrestorable, hcovered, fun _ hmem => hmem⟩
    | _ => cases hstep
  | cons gpu stale =>
    cases answer with
    | done =>
      cases hstep
      rcases hclear gpu List.mem_cons_self with ⟨hgpu, hclean⟩
      refine Steps.clear h hgpu hclean ?_
      refine ⟨?_, ?_, hcovered, ?_⟩
      · intro other hother
        exact hclear other (List.mem_cons_of_mem _ hother)
      · intro target htarget
        have hne : target.gpu ≠ gpu := by
          intro heq
          apply hapart target htarget
          rw [heq]
          exact List.mem_cons_self
        rw [records_setRecord_of_ne hne]
        exact hrestorable target htarget
      · intro target htarget hstale
        exact hapart target htarget (List.mem_cons_of_mem _ hstale)
    | _ => cases hstep

theorem Steps.restoring {all : List Target} (hphase : s.PhaseSound session (.restoring todo all))
    (hstep : s.statement session (.restoring todo all) answer =
      some (t, next)) : Steps s t session next := by
  rcases hphase with ⟨hrestorable, hcovered, htodo⟩
  cases answer with
  | set target took =>
    rcases some_of_when hstep with ⟨hmem, hnext⟩
    cases hnext
    apply Steps.restore h hrestorable hcovered (htodo target hmem)
    intro hrest hcov _
    exact ⟨hrest, hcov, fun other hother => htodo other (List.mem_of_mem_erase hother)⟩
  | read hidden =>
    cases todo with
    | nil =>
      cases hstep
      refine Steps.goto h ?_
      have hin : forall gpu, gpu ∈ (all.map Target.gpu).dedup -> gpu ∈ session.gpus := by
        intro gpu hgpu
        rcases List.mem_map.mp (List.mem_dedup.mp hgpu) with ⟨target, htarget, rfl⟩
        exact (hrestorable target htarget).1
      constructor
      · intro gpu hgpu
        rcases List.mem_filter.mp hgpu with ⟨hcard, hback⟩
        exact ⟨hin gpu hcard, h.clean_of_isBack hrestorable hcovered (hin gpu hcard) hback⟩
      · intro hall gpu hgpu
        refine ⟨hgpu, ?_⟩
        apply h.clean_of_isBack hrestorable hcovered hgpu
        by_cases hcard : gpu ∈ (all.map Target.gpu).dedup
        · exact List.all_eq_true.mp hall gpu hcard
        · -- A card without a target has nothing to read back.
          refine List.all_eq_true.mpr ?_
          intro target htarget
          have hne : target.gpu ≠ gpu := by
            intro heq
            apply hcard
            rw [← heq]
            exact List.mem_dedup.mpr (List.mem_map_of_mem htarget)
          simp [hne]
    | cons target todo => cases hstep
  | _ =>
    cases todo with
    | _ => cases hstep

theorem Steps.cleared {allBack : Bool} (hphase : s.PhaseSound session (.cleared cards allBack))
    (hstep : s.statement session (.cleared cards allBack) answer =
      some (t, next)) : Steps s t session next := by
  rcases hphase with ⟨hclear, hall⟩
  cases cards with
  | nil =>
    cases answer with
    | done =>
      cases hstep
      split
      · rename_i hback
        exact Steps.goto h (hall hback)
      · exact Steps.last h
    | _ => cases hstep
  | cons gpu cards =>
    cases answer with
    | done =>
      cases hstep
      rcases hclear gpu List.mem_cons_self with ⟨hgpu, hclean⟩
      refine Steps.clear h hgpu hclean ?_
      exact ⟨fun other hother =>
        hclear other (List.mem_cons_of_mem _ hother), hall⟩
    | _ => cases hstep

theorem originals_touched (hclean : s.Clearable session.gpus session.gpus)
    {hidden : List (Nat × PowerKey)}
    (hread : (s.touched hidden session).any (refused hidden) = false) :
    s.Originals session (s.touched hidden session) := by
  intro target htarget
  have hvisible := List.any_eq_false.mp hread target htarget
  rcases List.mem_flatMap.mp htarget with ⟨gpu, hgpu, hmem⟩
  rcases List.mem_filterMap.mp hmem with ⟨key, _, hkey⟩
  split at hkey
  · cases hkey
  rename_i want hwant
  rcases some_of_guard hkey with ⟨hnot, rfl⟩
  refine ⟨hgpu, h.native gpu key ((hclean gpu hgpu).2 key), want, hwant, ?_⟩
  simp only [refused, Bool.or_eq_true, decide_eq_true_eq, not_or] at hvisible
  have hreads : ¬ (s.value gpu key).readsAs want = true := fun hreads => hnot ⟨hvisible.1, hreads⟩
  exact Bool.eq_false_iff.mpr hreads

theorem Steps.observing (hclean : s.Clearable session.gpus session.gpus)
    (hstep : s.statement session .observing answer = some (t, next)) : Steps s t session next := by
  cases answer with
  | read hidden =>
    simp only [statement] at hstep
    split at hstep
    · cases hstep
      exact Steps.last h
    · rename_i hread
      cases hstep
      refine Steps.goto h ?_
      refine ⟨hclean, originals_touched h hclean
        (Bool.eq_false_iff.mpr hread), fun _ hgpu => hgpu, ?_⟩
      intro gpu hgpu hnot
      exact absurd hgpu hnot
  | _ => cases hstep

theorem Steps.recording {truncated : Bool}
    (hphase : s.PhaseSound session (.recording cards truncated originals))
    (hstep : s.statement session (.recording cards truncated originals)
      answer = some (t, next)) : Steps s t session next := by
  rcases hphase with ⟨hclean, horiginals, hcards, hwritten⟩
  have hnocover : s.Covered session.gpus originals := by
    intro gpu key hgpu happlied
    exact absurd happlied ((hclean gpu hgpu).2 key)
  cases cards with
  | nil =>
    cases answer with
    | done =>
      cases hstep
      refine Steps.goto h ?_
      refine ⟨⟨horiginals, ?_, hnocover⟩, fun _ hmem => hmem⟩
      intro gpu hgpu
      exact hwritten gpu hgpu List.not_mem_nil
    | _ => cases hstep
  | cons gpu cards =>
    have hgpu := hcards gpu List.mem_cons_self
    have hcardClean := (hclean gpu hgpu).2
    cases answer with
    | done =>
      cases truncated with
      | false =>
        cases hstep
        refine Steps.clear h hgpu hcardClean ?_
        refine ⟨hclean, horiginals, hcards, ?_⟩
        intro other hother hnot
        rw [records_setRecord_of_ne (ne_of_mem_of_not_mem List.mem_cons_self hnot).symm]
        exact hwritten other hother hnot
      | true =>
        cases hstep
        constructor
        · apply h.setRecord hcardClean
          intro new key original want hnew horiginal hwant
          cases hnew
          rcases Option.map_eq_some_iff.mp horiginal with ⟨target, hfind, rfl⟩
          have hfound := List.find?_some hfind
          simp only [Bool.and_eq_true, decide_eq_true_eq] at hfound
          rcases horiginals target (List.mem_of_find?_eq_some hfind)
            with ⟨_, hnative, declared, hdeclared, hapart⟩
          rw [hfound.1, hfound.2] at hnative
          rw [hfound.2] at hdeclared
          have hwant : session.declared.get key = some want := hwant
          rw [hdeclared] at hwant
          cases hwant
          exact ⟨hnative, hapart⟩
        · intro other hother
          exact sameCard_setRecord (ne_of_mem_of_not_mem hgpu hother).symm
        · intro later hlater
          cases hlater
          refine ⟨hclean, horiginals, ?_, ?_⟩
          · intro other hother
            exact hcards other (List.mem_cons_of_mem _ hother)
          · intro other hother hnot
            by_cases heq : other = gpu
            · rw [heq, records_setRecord_self]
            · rw [records_setRecord_of_ne heq]
              apply hwritten other hother
              intro hmem
              rcases List.mem_cons.mp hmem with hsame | hmem
              · exact heq hsame
              · exact hnot hmem
    | _ =>
      cases truncated with
      | _ => cases hstep

theorem Steps.applying (hphase : s.PhaseSound session (.applying todo originals))
    (hstep : s.statement session (.applying todo originals) answer =
      some (t, next)) : Steps s t session next := by
  rcases hphase with ⟨hheld, htodo⟩
  cases answer with
  | set target took =>
    rcases some_of_when hstep with ⟨hmem, hnext⟩
    cases hnext
    have hrest : forall other, other ∈ todo.erase target -> other ∈ originals :=
      fun other hother => htodo other (List.mem_of_mem_erase hother)
    rcases hheld.native target (htodo target hmem) with ⟨hin, hvalue, want, hwant, _⟩
    simp only [PowerRun.apply, hwant]
    cases took with
    | false =>
      exact Steps.goto h ⟨hheld, hrest⟩
    | true =>
      rcases hheld.restorable target (htodo target hmem) with ⟨_, _, record, hrecord, horiginal⟩
      have hown := hheld.records target.gpu hin
      rw [hown] at hrecord
      cases hrecord
      constructor
      · apply h.apply session.id
        rw [← hvalue]
        exact ⟨_, hown, horiginal, hwant⟩
      · intro gpu hgpu
        exact sameCard_put (ne_of_mem_of_not_mem hin hgpu).symm
      · intro later hlater
        cases hlater
        refine ⟨{ hheld with covered := ?_ }, hrest⟩
        intro gpu key hgpu happlied
        by_cases heq : gpu = target.gpu ∧ key = target.key
        · exact ⟨target, htodo target hmem, heq.1.symm, heq.2.symm⟩
        · rcases happlied with ⟨id, hid⟩
          have hid : (s.put target.gpu target.key want
              (.applied session.id)).origin gpu key = .applied id := hid
          rw [origin_put_of_ne heq] at hid
          exact hheld.covered gpu key hgpu ⟨id, hid⟩
  | raised =>
    cases todo with
    | _ =>
      cases hstep
      exact Steps.goto h ⟨hheld, fun _ hmem => hmem⟩
  | done =>
    cases todo with
    | nil =>
      cases hstep
      exact Steps.goto h hheld
    | cons target todo => cases hstep
  | read hidden =>
    cases todo with
    | _ => cases hstep

theorem Steps.puttingBack (hphase : s.PhaseSound session (.puttingBack todo originals))
    (hstep : s.statement session (.puttingBack todo originals) answer =
      some (t, next)) : Steps s t session next := by
  rcases hphase with ⟨hheld, htodo⟩
  cases answer with
  | set target took =>
    rcases some_of_when hstep with ⟨hmem, hnext⟩
    cases hnext
    apply Steps.restore h hheld.restorable hheld.covered (htodo target hmem)
    intro hrest hcov hrecords
    refine ⟨⟨?_, ?_, hcov⟩, fun other hother => htodo other (List.mem_of_mem_erase hother)⟩
    · intro other hother
      exact ⟨(hrest other hother).1, (hrest other hother).2.1, (hheld.native other hother).2.2⟩
    · intro gpu hgpu
      rw [hrecords]
      exact hheld.records gpu hgpu
  | read hidden =>
    cases todo with
    | nil =>
      cases hstep
      refine Steps.goto h ?_
      intro gpu hgpu
      rcases List.mem_filter.mp hgpu with ⟨hin, hback⟩
      exact ⟨hin, h.clean_of_isBack hheld.restorable hheld.covered hin hback⟩
    | cons target todo => cases hstep
  | _ =>
    cases todo with
    | _ => cases hstep

theorem Steps.closing (hphase : s.PhaseSound session (.closing cards))
    (hstep : s.statement session (.closing cards) answer = some (t, next)) :
    Steps s t session next := by
  have hclear : s.Clearable session.gpus cards := hphase
  cases cards with
  | nil =>
    cases answer with
    | done =>
      cases hstep
      exact Steps.last h
    | _ => cases hstep
  | cons gpu cards =>
    cases answer with
    | done =>
      cases hstep
      rcases hclear gpu List.mem_cons_self with ⟨hgpu, hclean⟩
      refine Steps.clear h hgpu hclean ?_
      exact fun other hother => hclear other (List.mem_cons_of_mem _ hother)
    | _ => cases hstep

theorem Steps.of_statement (hphase : s.PhaseSound session phase)
    (hstep : s.statement session phase answer = some (t, next)) : Steps s t session next := by
  cases phase with
  | leased => exact Steps.leased h hstep
  | clearing stale live => exact Steps.clearing h hphase hstep
  | restoring todo all => exact Steps.restoring h hphase hstep
  | cleared cards allBack => exact Steps.cleared h hphase hstep
  | observing => exact Steps.observing h hphase hstep
  | recording cards truncated originals =>
    exact Steps.recording h hphase hstep
  | applying todo originals => exact Steps.applying h hphase hstep
  | running originals =>
    cases answer with
    | done =>
      cases hstep
      exact Steps.goto h ⟨hphase, fun _ hmem => hmem⟩
    | _ => cases hstep
  | puttingBack todo originals => exact Steps.puttingBack h hphase hstep
  | closing cards => exact Steps.closing h hphase hstep

end

end

/-!
## Every run
-/

structure Sound (s : PowerRun) (sessions : List PowerSession) : Prop where
  recorded : Recorded s
  apart : sessions.Pairwise fun one other => forall gpu, gpu ∈ one.gpus -> gpu ∉ other.gpus
  phases : forall session, session ∈ sessions -> s.PhaseSound session session.phase

namespace Sound

variable {s t : PowerRun} {sessions rest : List PowerSession}

theorem perm (h : Sound s sessions) {others : List PowerSession}
    (hperm : sessions.Perm others) : Sound s others where
  __ := h
  apart := by
    refine (hperm.pairwise_iff ?_).mp h.apart
    intro one other hapart gpu hgpu hin
    exact hapart gpu hin hgpu
  phases session hsession := h.phases session (hperm.mem_iff.mpr hsession)

theorem steps {next : Option PowerPhase} (h : Sound s (session :: rest))
    (hsteps : Steps s t session next) :
    Sound t ((next.map fun phase => { session with phase := phase }).toList ++ rest) := by
  rcases List.pairwise_cons.mp h.apart with ⟨hown, hrest⟩
  have hothers : forall other, other ∈ rest -> t.PhaseSound other other.phase := by
    intro other hother
    apply (h.phases other (List.mem_cons_of_mem _ hother)).of_same
    intro gpu hgpu
    apply hsteps.frame
    intro hin
    exact hown other hother gpu hin hgpu
  cases next with
  | none => exact ⟨hsteps.recorded, hrest, hothers⟩
  | some phase =>
    refine ⟨hsteps.recorded, List.pairwise_cons.mpr ⟨hown, hrest⟩, ?_⟩
    intro other hother
    rcases List.mem_cons.mp hother with rfl | hother
    · exact (hsteps.phase phase rfl).of_session phase
    · exact hothers other hother

theorem start (h : Sound s sessions) (hphase : session.phase = .leased)
    (hapart : forall other, other ∈ sessions -> forall gpu,
      gpu ∈ session.gpus -> gpu ∉ other.gpus) :
    Sound s (session :: sessions) where
  __ := h
  apart := List.pairwise_cons.mpr ⟨hapart, h.apart⟩
  phases other hother := by
    rcases List.mem_cons.mp hother with rfl | hother
    · rw [hphase]
      exact trivial
    · exact h.phases other hother

theorem setSessions (h : Sound s sessions) (live : List PowerSession) (used : List Nat) :
    Sound { s with sessions := live, used := used } sessions where
  recorded := { h.recorded with }
  apart := h.apart
  phases session hsession := (h.phases session hsession).of_same (s := s) fun _ _ =>
    ⟨rfl, rfl, rfl⟩

end Sound

end PowerRun

/-- Nobody outside sets a card a live session holds, or gives a setting the
value its record names as applied. -/
def PowerRun.leftAlone (s : PowerRun) : PowerOp -> Bool
  | .outside gpu key value =>
    (s.sessions.all fun session => decide (gpu ∉ session.gpus)) &&
    match s.records gpu with
    | none => true
    | some record =>
      match record.original key, record.applied key with
      | some _, some want => !value.readsAs want
      | _, _ => true
  | _ => true

def LeftAlone (s : PowerRun) (op : PowerOp) : Prop := s.leftAlone op = true

instance (s : PowerRun) (op : PowerOp) : Decidable (LeftAlone s op) :=
  inferInstanceAs (Decidable (s.leftAlone op = true))

namespace PowerRun

theorem Sound.step {t : PowerRun} {op : PowerOp} (h : Sound s s.sessions)
    (hleft : LeftAlone s op) (hstep : powerStep s op = some t) : Sound t t.sessions := by
  cases op with
  | start id gpus declared =>
    rcases some_of_when hstep with ⟨hfree, rfl⟩
    have hstart : Sound s (⟨id, gpus, declared, .leased⟩ :: s.sessions) := by
      apply Sound.start h rfl
      intro other hother gpu hgpu
      have hgpus := List.all_eq_true.mp hfree.2 other hother
      exact of_decide_eq_true (List.all_eq_true.mp hgpus gpu hgpu)
    exact hstart.setSessions _ _
  | advance session answer =>
    simp only [powerStep] at hstep
    split at hstep
    · rename_i hmem
      rcases Option.map_eq_some_iff.mp hstep with ⟨after, hafter, rfl⟩
      rcases after with ⟨u, next⟩
      have hsteps := Steps.of_statement h.recorded (h.phases session hmem) hafter
      have hsound := (h.perm (List.perm_cons_erase hmem)).steps hsteps
      exact hsound.setSessions _ _
    · cases hstep
  | die session =>
    rcases some_of_when hstep with ⟨_, rfl⟩
    have hrest : Sound s (s.sessions.erase session) :=
      ⟨h.recorded, h.apart.sublist List.erase_sublist,
        fun other hother => h.phases other (List.mem_of_mem_erase hother)⟩
    exact hrest.setSessions _ _
  | outside gpu key value =>
    cases hstep
    simp only [LeftAlone, leftAlone, Bool.and_eq_true, List.all_eq_true, decide_eq_true_eq] at hleft
    rcases hleft with ⟨hfree, hapart⟩
    constructor
    · apply h.recorded.outside
      intro record original want hrecord horiginal hwant
      simp only [hrecord, horiginal, hwant, Bool.not_eq_true'] at hapart
      exact hapart
    · exact h.apart
    · intro session hsession
      apply (h.phases session hsession).of_same
      intro other hother
      have hne := ne_of_mem_of_not_mem hother (hfree session hsession)
      exact ⟨Function.update_of_ne hne .., Function.update_of_ne hne .., rfl⟩

theorem Sound.initial (value : Nat -> PowerKey -> PowerValue) :
    Sound { value := value, native := value } [] where
  recorded := by
    constructor
    · intro gpu key _
      rfl
    · intro gpu key happlied
      rcases happlied with ⟨id, hid⟩
      cases hid
    · nofun
  apart := List.Pairwise.nil
  phases session h := by cases h

theorem Sound.of_reachable (h : powerMachine.ReachableWhere LeftAlone s) : Sound s s.sessions := by
  refine h.invariant (I := fun s => Sound s s.sessions) ?_ ?_
  · intro start hinit
    rw [hinit]
    exact initial start.value
  · intro s op t hs hleft hstep
    exact hs.step hleft hstep

end PowerRun

def PowerPhase.restores : PowerPhase -> List Target
  | .clearing _ live => live
  | .restoring todo _ => todo
  | .puttingBack todo _ => todo
  | _ => []

def PowerPhase.recordings : PowerPhase -> List Target
  | .recording _ _ originals => originals
  | _ => []

theorem PowerRun.Sound.native_of_phase (h : PowerRun.Sound s s.sessions)
    (hsession : session ∈ s.sessions)
    (htarget : target ∈ session.phase.restores ∨ target ∈ session.phase.recordings) :
    target.value = s.native target.gpu target.key := by
  have hphase := h.phases session hsession
  generalize session.phase = phase at hphase htarget
  cases phase with
  | clearing stale live =>
    rcases htarget with htarget | htarget
    · exact (hphase.2.1 target htarget).2.1
    · cases htarget
  | restoring todo all =>
    rcases htarget with htarget | htarget
    · exact (hphase.1 target (hphase.2.2 target htarget)).2.1
    · cases htarget
  | recording cards truncated originals =>
    rcases htarget with htarget | htarget
    · cases htarget
    · exact (hphase.2.1 target htarget).2.1
  | puttingBack todo originals =>
    rcases htarget with htarget | htarget
    · exact (hphase.1.native target (hphase.2 target htarget)).2.1
    · cases htarget
  | _ =>
    rcases htarget with htarget | htarget
    · cases htarget
    · cases htarget

/-- Where the cards are left alone, a setting some session applied has a record
with the value it had from outside; a restore writes that value, and nothing
over a setting changed from outside; and it is what a session records. -/
theorem power_settings_recoverable {s : PowerRun} (h : powerMachine.ReachableWhere LeftAlone s) :
    (forall gpu key id, s.origin gpu key = .applied id ->
      exists record, s.records gpu = some record ∧ record.original key = some (s.native gpu key)) ∧
    (forall session target, session ∈ s.sessions -> target ∈ session.phase.restores ->
      target.value = s.native target.gpu target.key ∧
        (s.origin target.gpu target.key = .outside ->
          s.value target.gpu target.key = target.value)) ∧
    (forall session target, session ∈ s.sessions -> target ∈ session.phase.recordings ->
      target.value = s.native target.gpu target.key) := by
  have hsound := PowerRun.Sound.of_reachable h
  constructor
  · intro gpu key id happlied
    rcases hsound.recorded.applied gpu key ⟨id, happlied⟩ with ⟨record, hrecord, horiginal, _⟩
    exact ⟨record, hrecord, horiginal⟩
  · constructor
    · intro session target hsession htarget
      have hnative := hsound.native_of_phase hsession (Or.inl htarget)
      refine ⟨hnative, ?_⟩
      intro horigin
      rw [hnative]
      apply hsound.recorded.native
      intro happlied
      rcases happlied with ⟨id, hid⟩
      rw [horigin] at hid
      cases hid
    · intro session target hsession htarget
      exact hsound.native_of_phase hsession (Or.inr htarget)

/-!
## A cap set and put back
-/

def factoryValue (_ : Nat) : PowerKey -> PowerValue
  | .powerCapW => .cap 700
  | .perfLevel => .level "auto"

def capTarget : Target := ⟨0, .powerCapW, .cap 700⟩

def capSession (phase : PowerPhase) : PowerSession := ⟨1, [0], { powerCapW := some 500 }, phase⟩

def applyTrace : List PowerOp :=
  [.start 1 [0] { powerCapW := some 500 }, .advance (capSession .leased) (.read []),
    .advance (capSession .observing) (.read []),
    .advance (capSession (.recording [0] false [capTarget])) .done,
    .advance (capSession (.recording [0] true [capTarget])) .done,
    .advance (capSession (.recording [] false [capTarget])) .done,
    .advance (capSession (.applying [capTarget] [capTarget])) (.set capTarget true)]

/-- It dies, and its record has the cap of before. -/
theorem killed_session_leaves_its_record :
    exists s, powerMachine.ReachableWhere LeftAlone s ∧ s.sessions = [] ∧
      s.value 0 .powerCapW = .cap 500 ∧
      exists record, s.records 0 = some record ∧
        record.original .powerCapW = some (s.native 0 .powerCapW) := by
  have hrun := Machine.ReachableWhere.exists_of_runIf (M := powerMachine)
    (C := LeftAlone) (P := fun s => s.sessions = [] ∧ s.value 0 .powerCapW = .cap 500 ∧
      s.origin 0 .powerCapW = .applied 1) { value := factoryValue, native := factoryValue }
    (applyTrace ++ [.die (capSession (.applying [] [capTarget]))]) rfl (by decide +kernel)
  rcases hrun with ⟨s, hs, hnone, hvalue, horigin⟩
  exact ⟨s, hs, hnone, hvalue, (power_settings_recoverable hs).1 0 .powerCapW 1 horigin⟩

/-- An operator lowers the cap while the session runs; the session's end sets
it to what it was before the session. -/
theorem restore_overwrites_operator :
    exists s t, powerMachine.Reachable s ∧
      powerStep s (.advance (capSession (.puttingBack [capTarget] [capTarget]))
        (.set capTarget true)) = some t ∧
      s.origin 0 .powerCapW = .outside ∧
      s.value 0 .powerCapW = .cap 400 ∧ t.value 0 .powerCapW = .cap 700 := by
  have hrun := Machine.Reachable.exists_of_runIf (M := powerMachine)
    (P := fun s => s.origin 0 .powerCapW = .outside ∧ s.value 0 .powerCapW = .cap 400 ∧
      exists t, t ∈ powerStep s (.advance (capSession (.puttingBack [capTarget] [capTarget]))
        (.set capTarget true)) ∧ t.value 0 .powerCapW = .cap 700)
    { value := factoryValue, native := factoryValue }
    (applyTrace ++ [.advance (capSession (.applying [] [capTarget])) .done,
      .outside 0 .powerCapW (.cap 400), .advance (capSession (.running [capTarget])) .done]) rfl
    (by decide +kernel)
  rcases hrun with ⟨s, hs, horigin, hvalue, t, hstep, hover⟩
  exact ⟨s, t, hs, hstep, horigin, hvalue, hover⟩

end GpuPower
end Hyperloom
