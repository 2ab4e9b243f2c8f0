import Hyperloom.Library.Machine
import Hyperloom.Loop.Inbox

/-!
# Inbox delivery

What a turn showed is noted when its prompt is rendered, and the cursor moves
there when the turn succeeds.  A note survives a turn that fails, so a later
turn that reads nothing may move the cursor by it.
-/

namespace Hyperloom
namespace Loop

open Library Storage Bus

/-!
## The machine
-/

/-- The log and cursors, `_rendered_cursor`, the turn each role has in flight,
and the turns that succeeded, oldest first. -/
structure InboxState where
  events : EventLog
  cursors : Cursors
  renderedCursor : String -> Option Nat
  inFlight : String -> Option Turn
  delivered : List Turn

inductive InboxOp where
  | append (message : Message)
  | compose (role : String) (pending : List String)
  | succeed (role : String)
  | fail (role : String)

def setRole {value : Type} (f : String -> value) (role : String) (v : value) : String -> value :=
  fun other => if other = role then v else f other

@[simp] theorem setRole_same {value : Type} (f : String -> value)
    (role : String) (v : value) : setRole f role v role = v :=
  if_pos rfl

variable {role other : String}

theorem setRole_other {value : Type} {f : String -> value} {v : value}
    (h : other ≠ role) : setRole f role v other = f other :=
  if_neg h

def advanceRenderedCursor (s : InboxState) (role : String) : Cursors :=
  match s.renderedCursor role with
  | none => s.cursors
  | some seq => advance s.cursors role seq

def inboxStep (details : Details) (s : InboxState) : InboxOp -> Option InboxState
  | .append message =>
    match appendAndSeq s.events message with
    | .error _ => some s
    | .ok (_, events) => some { s with events := events }
  | .compose role pending =>
    match s.inFlight role with
    | some _ => none
    | none =>
      let turn := renderTurn details s.events s.cursors role pending
      some { s with
        inFlight := setRole s.inFlight role (some turn)
        renderedCursor :=
          match turn.read.getLast? with
          | none => s.renderedCursor
          | some last => setRole s.renderedCursor role (some last.seq) }
  | .succeed role =>
    match s.inFlight role with
    | none => none
    | some turn =>
      some { s with
        cursors := advanceRenderedCursor s role
        inFlight := setRole s.inFlight role none
        delivered := s.delivered ++ [turn] }
  | .fail role =>
    match s.inFlight role with
    | none => none
    | some _ => some { s with inFlight := setRole s.inFlight role none }

def inboxMachine (details : Details) : Machine InboxState InboxOp where
  init s := s.events.rows = [] ∧ (forall role, s.cursors role = 0) ∧
    (forall role, s.renderedCursor role = none) ∧
    (forall role, s.inFlight role = none) ∧ s.delivered = []
  step := inboxStep details

/-!
## What every run keeps
-/

/-- A log with newer entries: what it has beyond another has a larger number. -/
structure Grows (events later : EventLog) : Prop where
  kept : forall e, e ∈ events -> e ∈ later
  newer : forall e, e ∈ later -> e ∈ events ∨ events.log.last < e.seq
  last : events.log.last ≤ later.log.last

variable {later events : EventLog} {seq : Nat}

theorem grows_of_append {message : Message} (h : appendAndSeq events message = .ok (seq, later)) :
    Grows events later := by
  rcases appendAndSeq_ok h with ⟨topic, _, hrows, hseq, hlast⟩
  constructor
  · intro e he
    rw [← EventLog.mem_rows, hrows]
    exact List.mem_append_left _ he
  · intro e he
    rw [← EventLog.mem_rows, hrows] at he
    rcases mem_concat.mp he with hold | rfl
    · exact Or.inl hold
    · right
      show events.log.last < seq
      lia
  · lia

variable {e : Event}

theorem Grows.mem_of_le (h : Grows events later) (he : e ∈ later)
    (hle : e.seq ≤ events.log.last) : e ∈ events := by
  rcases h.newer e he with hold | hnew
  · exact hold
  · exact absurd hle (Nat.not_le.mpr hnew)

variable {turn : Turn}

theorem Accurate.of_grows {cursor : Nat} (h : Accurate events cursor turn)
    (hgrows : Grows events later) : Accurate later cursor turn where
  __ := h
  logged := fun e he => hgrows.kept e (h.logged e he)
  upTo := by
    intro a b ha hdel hafter hb hle
    have hbound := events.log.bounded b (h.logged b hb)
    exact h.upTo a b (hgrows.mem_of_le ha (hle.trans hbound)) hdel hafter hb hle

/-- A turn in flight is accurate, and if it read anything the place noted for
the role is the last it read. -/
structure InFlight (s : InboxState) (role : String) (turn : Turn) : Prop where
  role_eq : turn.role = role
  accurate : Accurate s.events (s.cursors role) turn
  noted : forall e, e ∈ turn.read -> exists last, last ∈ turn.read ∧
    s.renderedCursor role = some last.seq ∧ e.seq ≤ last.seq

/-- A turn that succeeded showed log entries in order, and the cursor of its
role is past all of them that are the role's own. -/
structure Settled (s : InboxState) (turn : Turn) : Prop where
  ordered : turn.shown.Pairwise (fun a b => a.seq < b.seq)
  logged : forall e, e ∈ turn.shown -> e ∈ s.events
  past : forall e, e ∈ turn.shown -> deliverable turn.role e = true -> e.seq ≤ s.cursors turn.role

structure Consistent (s : InboxState) : Prop where
  inFlight : forall role turn, s.inFlight role = some turn -> InFlight s role turn
  settled : forall turn, turn ∈ s.delivered -> Settled s turn
  noted : forall role seq, s.renderedCursor role = some seq ->
    exists e, e ∈ s.events ∧ deliverable role e = true ∧ e.seq = seq
  bounded : forall role, s.cursors role ≤ s.events.log.last

variable {s t : InboxState}

theorem Settled.mono (h : Settled s turn) (hevents : forall e, e ∈ s.events -> e ∈ t.events)
    (hcursor : s.cursors turn.role ≤ t.cursors turn.role) : Settled t turn where
  __ := h
  logged := fun e he => hevents e (h.logged e he)
  past := fun e he hdel => (h.past e he hdel).trans hcursor

theorem le_getLast {events : List Event} {last : Event}
    (hordered : events.Pairwise (fun a b => a.seq < b.seq))
    (hlast : events.getLast? = some last) (he : e ∈ events) : e.seq ≤ last.seq := by
  rcases List.getLast?_eq_some_iff.mp hlast with ⟨front, rfl⟩
  rcases mem_concat.mp he with hfront | rfl
  · have hlt := (List.pairwise_append.mp hordered).right.right e hfront last
      (List.mem_singleton.mpr rfl)
    exact Nat.le_of_lt hlt
  · rfl

theorem advanceRenderedCursor_other (h : other ≠ role) :
    advanceRenderedCursor s role other = s.cursors other := by
  unfold advanceRenderedCursor
  cases s.renderedCursor role with
  | none => rfl
  | some seq =>
    show advance s.cursors role seq other = s.cursors other
    rw [advance_apply, if_neg h]

theorem advanceRenderedCursor_some (h : s.renderedCursor role = some seq) :
    advanceRenderedCursor s role role = max (s.cursors role) seq := by
  unfold advanceRenderedCursor
  rw [h]
  show advance s.cursors role seq role = max (s.cursors role) seq
  rw [advance_apply, if_pos rfl]

theorem le_advanceRenderedCursor (s : InboxState) (role other : String) :
    s.cursors other ≤ advanceRenderedCursor s role other := by
  unfold advanceRenderedCursor
  cases s.renderedCursor role with
  | none => exact le_refl _
  | some seq => exact le_advance s.cursors role other seq

/-!
## Steps

One lemma for what each kind of step does, then what each keeps.
-/

def notedCursor (s : InboxState) (role : String) (turn : Turn) : String -> Option Nat :=
  match turn.read.getLast? with
  | none => s.renderedCursor
  | some last => setRole s.renderedCursor role (some last.seq)

inductive InboxEffect (details : Details) (s : InboxState) : InboxOp -> InboxState -> Prop where
  | refused (message : Message) : InboxEffect details s (.append message) s
  | appended (message : Message) (later : EventLog) : Grows s.events later ->
    InboxEffect details s (.append message) { s with events := later }
  | composed (role : String) (pending : List String) (turn : Turn) :
    turn = renderTurn details s.events s.cursors role pending -> s.inFlight role = none ->
    InboxEffect details s (.compose role pending) { s with
        inFlight := setRole s.inFlight role (some turn)
        renderedCursor := notedCursor s role turn }
  | succeeded (role : String) (turn : Turn) : s.inFlight role = some turn ->
    InboxEffect details s (.succeed role) { s with
        cursors := advanceRenderedCursor s role
        inFlight := setRole s.inFlight role none
        delivered := s.delivered ++ [turn] }
  | failed (role : String) :
    InboxEffect details s (.fail role) { s with inFlight := setRole s.inFlight role none }

variable {details : Details} {op : InboxOp}

theorem inboxStep_effect (h : inboxStep details s op = some t) : InboxEffect details s op t := by
  revert h
  fun_cases inboxStep details s op with (intro h; cases h)
  | case1 message => exact InboxEffect.refused message
  | case2 message seq later hok => exact InboxEffect.appended message later (grows_of_append hok)
  | case4 role pending hidle => exact InboxEffect.composed role pending _ rfl hidle
  | case6 role turn hturn => exact InboxEffect.succeeded role turn hturn
  | case8 role => exact InboxEffect.failed role

theorem notedCursor_other (h : other ≠ role) :
    notedCursor s role turn other = s.renderedCursor other := by
  unfold notedCursor
  cases turn.read.getLast? with
  | none => rfl
  | some last => exact setRole_other h

/-- The note of a rendering is the last message it read; one that read nothing
leaves the note of an earlier rendering. -/
theorem notedCursor_cases (s : InboxState) (role : String) (turn : Turn) :
    (turn.read = [] ∧ notedCursor s role turn role = s.renderedCursor role) ∨
    (exists last, turn.read.getLast? = some last ∧
      notedCursor s role turn role = some last.seq) := by
  unfold notedCursor
  cases hlast : turn.read.getLast? with
  | none => exact Or.inl ⟨List.getLast?_eq_none_iff.mp hlast, rfl⟩
  | some last =>
    right
    refine ⟨last, rfl, ?_⟩
    exact setRole_same s.renderedCursor role (some last.seq)

theorem inFlight_composed (details : Details) (s : InboxState) (role : String)
    (pending : List String) (turn : Turn)
    (hturn : turn = renderTurn details s.events s.cursors role pending) :
    InFlight { s with
        inFlight := setRole s.inFlight role (some turn)
        renderedCursor := notedCursor s role turn } role turn := by
  have haccurate : Accurate s.events (s.cursors role) turn := by
    rw [hturn]
    exact renderTurn_accurate details s.events s.cursors role pending
  have hread : turn.read.Pairwise (fun a b => a.seq < b.seq) := by
    rw [hturn] at haccurate ⊢
    exact haccurate.ordered.filter _
  refine ⟨by rw [hturn]; rfl, haccurate, ?_⟩
  intro e he
  rcases notedCursor_cases s role turn with ⟨hempty, _⟩ | ⟨last, hlast, hnoted⟩
  · rw [hempty] at he
    exact absurd he List.not_mem_nil
  · exact ⟨last, List.mem_of_getLast? hlast, hnoted, le_getLast hread hlast he⟩

theorem settled_succeeded (h : InFlight s role turn) :
    Settled { s with
        cursors := advanceRenderedCursor s role
        inFlight := setRole s.inFlight role none
        delivered := s.delivered ++ [turn] } turn where
  ordered := h.accurate.ordered
  logged := h.accurate.logged
  past := by
    intro e he hdel
    show e.seq ≤ advanceRenderedCursor s role turn.role
    rw [h.role_eq]
    rcases Nat.lt_or_ge (s.cursors role) e.seq with hunread | hseen
    · have hread := (h.accurate.read_iff e).mpr ⟨he, hdel, hunread⟩
      rcases h.noted e hread with ⟨last, _, hnoted, hle⟩
      rw [advanceRenderedCursor_some hnoted]
      exact hle.trans (le_max_right _ _)
    · exact hseen.trans (le_advanceRenderedCursor s role role)

theorem advanceRenderedCursor_bounded (h : Consistent s) (role other : String) :
    advanceRenderedCursor s role other ≤ s.events.log.last := by
  by_cases hother : other = role
  · rw [hother]
    cases hnoted : s.renderedCursor role with
    | none =>
      have hsame : advanceRenderedCursor s role = s.cursors := by
        unfold advanceRenderedCursor
        rw [hnoted]
      rw [hsame]
      exact h.bounded role
    | some seq =>
      rcases h.noted role seq hnoted with ⟨e, he, _, rfl⟩
      rw [advanceRenderedCursor_some hnoted]
      exact max_le (h.bounded role) (s.events.log.bounded e he)
  · rw [advanceRenderedCursor_other hother]
    exact h.bounded other

theorem consistent_composed {pending : List String} (h : Consistent s)
    (hturn : turn = renderTurn details s.events s.cursors role pending) :
    Consistent { s with
        inFlight := setRole s.inFlight role (some turn)
        renderedCursor := notedCursor s role turn } where
  __ := h
  inFlight := by
    intro other flying hflying
    by_cases hother : other = role
    · subst hother
      have hsame : some turn = some flying := by
        rw [← hflying]
        exact (setRole_same s.inFlight other (some turn)).symm
      cases hsame
      exact inFlight_composed details s other pending turn hturn
    · have hold := h.inFlight other flying ((setRole_other hother).symm.trans hflying)
      refine { hold with noted := ?_ }
      intro e he
      rcases hold.noted e he with ⟨last, hlast, hnoted, hle⟩
      exact ⟨last, hlast, (notedCursor_other hother).trans hnoted, hle⟩
  settled := fun settled hmem => (h.settled settled hmem).mono (fun _ he => he) (le_refl _)
  noted := by
    intro other seq hseq
    by_cases hother : other = role
    · subst hother
      have hflight := inFlight_composed details s other pending turn hturn
      rcases notedCursor_cases s other turn with ⟨_, hsame⟩ | ⟨last, hlast, hnew⟩
      · exact h.noted other seq (hsame.symm.trans hseq)
      · rcases (hflight.accurate.read_iff last).mp (List.mem_of_getLast? hlast)
          with ⟨hshown, hdel, _⟩
        rw [hflight.role_eq] at hdel
        exact ⟨last, hflight.accurate.logged last hshown, hdel,
          Option.some.inj (hnew.symm.trans hseq)⟩
    · exact h.noted other seq ((notedCursor_other hother).symm.trans hseq)

theorem inFlight_ended (h : Consistent s)
    (hflight : t.inFlight = setRole s.inFlight role none) (hevents : t.events = s.events)
    (hnoted : t.renderedCursor = s.renderedCursor)
    (hcursors : forall other, other ≠ role -> t.cursors other = s.cursors other) :
    forall other turn, t.inFlight other = some turn -> InFlight t other turn := by
  intro other turn hturn
  rw [hflight] at hturn
  by_cases hother : other = role
  · rw [hother, setRole_same] at hturn
    cases hturn
  · rw [setRole_other hother] at hturn
    rcases h.inFlight other turn hturn with ⟨hrole, haccurate, hlast⟩
    constructor
    · exact hrole
    · rw [hevents, hcursors other hother]
      exact haccurate
    · rw [hnoted]
      exact hlast

theorem consistent_step (h : Consistent s)
    (hstep : inboxStep details s op = some t) : Consistent t := by
  cases inboxStep_effect hstep with
  | refused message => exact h
  | appended message later hgrows =>
    constructor
    · intro role turn hturn
      rcases h.inFlight role turn hturn with ⟨hrole, haccurate, hlast⟩
      exact ⟨hrole, haccurate.of_grows hgrows, hlast⟩
    · intro turn hturn
      exact (h.settled turn hturn).mono hgrows.kept (le_refl _)
    · intro role seq hseq
      rcases h.noted role seq hseq with ⟨e, he, hdel, heq⟩
      exact ⟨e, hgrows.kept e he, hdel, heq⟩
    · intro role
      exact (h.bounded role).trans hgrows.last
  | composed role pending turn hturn hidle => exact consistent_composed h hturn
  | succeeded role turn hturn =>
    constructor
    · exact inFlight_ended h rfl rfl rfl (fun other hother => advanceRenderedCursor_other hother)
    · intro settled hmem
      rcases mem_concat.mp hmem with hold | hnew
      · exact (h.settled settled hold).mono (fun _ he => he)
          (le_advanceRenderedCursor s role settled.role)
      · rw [hnew]
        exact settled_succeeded (h.inFlight role turn hturn)
    · exact h.noted
    · exact advanceRenderedCursor_bounded h role
  | failed role =>
    exact ⟨inFlight_ended h rfl rfl rfl (fun _ _ => rfl),
      fun settled hmem => (h.settled settled hmem).mono (fun _ he => he)
        (le_refl _), h.noted, h.bounded⟩

/-!
## Delivery
-/

/-- Every message at or below a role's cursor was shown in a turn of the role
that succeeded, oldest first within a turn and from turn to turn. -/
structure Delivers (s : InboxState) : Prop where
  covered : forall role e, e ∈ s.events -> deliverable role e = true ->
    e.seq ≤ s.cursors role -> exists turn, turn ∈ s.delivered ∧ turn.role = role ∧ e ∈ turn.shown
  oldestFirst : forall turn, turn ∈ s.delivered -> turn.shown.Pairwise (fun a b => a.seq < b.seq)
  inOrder : forall (i : Nat) (turn : Turn), s.delivered[i]? = some turn ->
    forall a b, b ∈ turn.shown -> deliverable turn.role b = true ->
      a ∈ s.events -> deliverable turn.role a = true -> a.seq < b.seq ->
        exists (j : Nat) (earlier : Turn), j ≤ i ∧ s.delivered[j]? = some earlier ∧
          earlier.role = turn.role ∧ a ∈ earlier.shown

/-- A turn that read nothing succeeds only when the note it would move the
cursor to is not ahead of the cursor. -/
def FreshCursor (s : InboxState) : InboxOp -> Prop
  | .succeed role =>
    forall turn, s.inFlight role = some turn -> turn.read = [] ->
      forall seq, s.renderedCursor role = some seq -> seq ≤ s.cursors role
  | _ => True

theorem delivers_appended (hconsistent : Consistent s) (h : Delivers s)
    (hgrows : Grows s.events later) : Delivers { s with events := later } where
  __ := h
  covered := by
    intro role e he hdel hle
    have hold := hgrows.mem_of_le he (hle.trans (hconsistent.bounded role))
    exact h.covered role e hold hdel hle
  inOrder := by
    intro i turn hturn a b hb hbdel ha hadel hlt
    have hlogged := (hconsistent.settled turn (List.mem_of_getElem? hturn)).logged b hb
    have hbound := s.events.log.bounded b hlogged
    have hold := hgrows.mem_of_le ha ((Nat.le_of_lt hlt).trans hbound)
    exact h.inOrder i turn hturn a b hb hbdel hold hadel hlt

/-- With a fresh note, a turn that succeeds showed all it moves the cursor
past. -/
theorem shown_of_advanced (hflight : InFlight s role turn)
    (hfresh : turn.read = [] -> forall seq, s.renderedCursor role = some seq ->
      seq ≤ s.cursors role) (he : e ∈ s.events)
    (hdel : deliverable role e = true) (hunread : s.cursors role < e.seq)
    (hle : e.seq ≤ advanceRenderedCursor s role role) : e ∈ turn.shown := by
  cases hnoted : s.renderedCursor role with
  | none =>
    have hsame : advanceRenderedCursor s role = s.cursors := by
      unfold advanceRenderedCursor
      rw [hnoted]
    rw [hsame] at hle
    exact absurd hle (Nat.not_le.mpr hunread)
  | some seq =>
    rw [advanceRenderedCursor_some hnoted] at hle
    cases hread : turn.read with
    | nil =>
      have hbehind := hfresh hread seq hnoted
      rw [max_eq_left hbehind] at hle
      exact absurd hle (Nat.not_le.mpr hunread)
    | cons first rest =>
      have hfirst : first ∈ turn.read := by
        rw [hread]
        exact List.mem_cons_self
      rcases hflight.noted first hfirst with ⟨last, hlast, hplace, _⟩
      have hseq : seq = last.seq := Option.some.inj (hnoted.symm.trans hplace)
      rcases (hflight.accurate.read_iff last).mp hlast with ⟨hshown, _, hafter⟩
      rw [hseq, max_eq_right (Nat.le_of_lt hafter)] at hle
      have hown : deliverable turn.role e = true := by
        rw [hflight.role_eq]
        exact hdel
      exact hflight.accurate.upTo e last he hown hunread hshown hle

theorem delivers_succeeded (hconsistent : Consistent s) (h : Delivers s)
    (hturn : s.inFlight role = some turn)
    (hfresh : turn.read = [] -> forall seq, s.renderedCursor role = some seq ->
      seq ≤ s.cursors role) :
    Delivers { s with
        cursors := advanceRenderedCursor s role
        inFlight := setRole s.inFlight role none
        delivered := s.delivered ++ [turn] } where
  covered := by
    intro other e he hdel hle
    rcases Nat.lt_or_ge (s.cursors other) e.seq with hunread | hseen
    · have hflight := hconsistent.inFlight role turn hturn
      have hother : other = role := by
        apply by_contra
        intro hne
        have hsame : advanceRenderedCursor s role other = s.cursors other :=
          advanceRenderedCursor_other hne
        exact absurd (hle.trans_eq hsame) (Nat.not_le.mpr hunread)
      subst hother
      exact ⟨turn, List.mem_append_right _ (List.mem_singleton.mpr rfl), hflight.role_eq,
        shown_of_advanced hflight hfresh he hdel hunread hle⟩
    · rcases h.covered other e he hdel hseen with ⟨earlier, hmem, hrole, hshown⟩
      exact ⟨earlier, List.mem_append_left _ hmem, hrole, hshown⟩
  oldestFirst := by
    intro settled hmem
    rcases mem_concat.mp hmem with hold | hnew
    · exact h.oldestFirst settled hold
    · rw [hnew]
      exact (hconsistent.inFlight role turn hturn).accurate.ordered
  inOrder := by
    intro i settled hsettled a b hb hbdel ha hadel hlt
    have hflight := hconsistent.inFlight role turn hturn
    -- a turn before this one has its own predecessors; this one is the last
    have hlift : forall (j : Nat) (earlier : Turn), s.delivered[j]? = some earlier ->
        (s.delivered ++ [turn])[j]? = some earlier := by
      intro j earlier hj
      have hlength := (List.getElem?_eq_some_iff.mp hj).choose
      rw [List.getElem?_append_left hlength]
      exact hj
    rcases Nat.lt_or_ge i s.delivered.length with hold | hlast
    · have hsettled' : s.delivered[i]? = some settled := by
        rw [← List.getElem?_append_left hold]
        exact hsettled
      rcases h.inOrder i settled hsettled' a b hb hbdel ha hadel hlt with
        ⟨j, earlier, hj, hearlier, hrole, hshown⟩
      exact ⟨j, earlier, hj, hlift j earlier hearlier, hrole, hshown⟩
    · have hsame : settled = turn := by
        rw [List.getElem?_append_right hlast] at hsettled
        exact List.mem_singleton.mp (List.mem_of_getElem? hsettled)
      subst hsame
      rcases Nat.lt_or_ge (s.cursors role) a.seq with hunread | hseen
      · exact ⟨i, settled, le_refl _, hsettled, rfl,
          hflight.accurate.upTo a b ha hadel hunread hb (Nat.le_of_lt hlt)⟩
      · rw [hflight.role_eq] at hadel ⊢
        rcases h.covered role a ha hadel hseen with ⟨earlier, hmem, hrole, hshown⟩
        rcases List.mem_iff_getElem?.mp hmem with ⟨j, hj⟩
        have hlength := (List.getElem?_eq_some_iff.mp hj).choose
        exact ⟨j, earlier, by lia, hlift j earlier hj, hrole, hshown⟩

/-- A note ahead of the cursor that the turn did not make moves the cursor past
a message no turn showed. -/
theorem fresh_of_delivers (hconsistent : Consistent s)
    (hturn : s.inFlight role = some turn) (h : Delivers { s with
        cursors := advanceRenderedCursor s role
        inFlight := setRole s.inFlight role none
        delivered := s.delivered ++ [turn] }) (hread : turn.read = [])
    (hnoted : s.renderedCursor role = some seq) : seq ≤ s.cursors role := by
  apply by_contra
  intro hahead
  rcases hconsistent.noted role seq hnoted with ⟨e, he, hdel, hseq⟩
  have hle : e.seq ≤ advanceRenderedCursor s role role := by
    rw [advanceRenderedCursor_some hnoted, hseq]
    exact le_max_right _ _
  rcases h.covered role e he hdel hle with ⟨shower, hmem, hrole, hshown⟩
  rcases mem_concat.mp hmem with hold | hnew
  · rw [← hrole] at hdel
    have hpast := (hconsistent.settled shower hold).past e hshown hdel
    rw [hrole, hseq] at hpast
    exact hahead hpast
  · rw [hnew] at hshown hrole
    rw [← hrole] at hdel
    have hflight := hconsistent.inFlight role turn hturn
    have hmine := (hflight.accurate.read_iff e).mpr ⟨hshown, hdel, by lia⟩
    rw [hread] at hmine
    exact List.not_mem_nil hmine

theorem delivers_step (hconsistent : Consistent s) (h : Delivers s)
    (hstep : inboxStep details s op = some t) : Delivers t <-> FreshCursor s op := by
  cases inboxStep_effect hstep with
  | refused message => exact ⟨fun _ => trivial, fun _ => h⟩
  | appended message later hgrows =>
    exact ⟨fun _ => trivial, fun _ => delivers_appended hconsistent h hgrows⟩
  | succeeded role turn hturn =>
    constructor
    · intro hafter other hother hread seq hnoted
      rcases Option.some.inj (hturn.symm.trans hother) with rfl
      exact fresh_of_delivers hconsistent hturn hafter hread hnoted
    · intro hfresh
      exact delivers_succeeded hconsistent h hturn (hfresh turn hturn)
  | _ =>
    exact ⟨fun _ => trivial, fun _ => { h with }⟩

theorem init_delivers (h : (inboxMachine details).init s) : Consistent s ∧ Delivers s := by
  rcases h with ⟨hevents, hcursors, hnoted, hidle, hdelivered⟩
  have hnone : forall e, ¬ e ∈ s.events := by
    intro e he
    rw [← EventLog.mem_rows, hevents] at he
    exact List.not_mem_nil he
  constructor
  · constructor
    · intro role turn hturn
      rw [hidle] at hturn
      cases hturn
    · rw [hdelivered]
      intro turn hturn
      exact absurd hturn List.not_mem_nil
    · intro role seq hseq
      rw [hnoted] at hseq
      cases hseq
    · intro role
      rw [hcursors]
      exact Nat.zero_le _
  · constructor
    · intro role e he
      exact absurd he (hnone e)
    · rw [hdelivered]
      intro turn hturn
      exact absurd hturn List.not_mem_nil
    · intro i turn _ a b _ _ ha
      exact absurd ha (hnone a)

theorem le_cursors_step (hstep : inboxStep details s op = some t)
    (role : String) : s.cursors role ≤ t.cursors role := by
  cases inboxStep_effect hstep with
  | succeeded other turn hturn => exact le_advanceRenderedCursor s other role
  | _ => exact le_refl _

/-- Along every run the inbox delivers without loss or reordering exactly if
each turn that succeeds without having read anything finds a fresh note; the
cursors never move backwards. -/
theorem inbox_delivery (details : Details) (start s : InboxState)
    (trace : List InboxOp) (hstart : (inboxMachine details).init start)
    (hrun : (inboxMachine details).Run Machine.Always start trace s) :
    ((forall visited mid, visited <+: trace ->
      (inboxMachine details).Run Machine.Always start visited mid -> Delivers mid) <->
      (inboxMachine details).Run FreshCursor start trace s) ∧
    (forall before after rest,
      (inboxMachine details).Run Machine.Always before rest after ->
        forall role, before.cursors role ≤ after.cursors role) := by
  constructor
  · exact hrun.always_iff (J := Consistent) (I := Delivers)
      (fun _ _ _ hconsistent hstep => consistent_step hconsistent hstep)
      (fun _ _ _ hconsistent hdelivers hstep =>
        delivers_step hconsistent hdelivers hstep)
      (init_delivers hstart).left (init_delivers hstart).right
  · intro before after rest hrest role
    exact hrest.relates (I := fun _ => True) (R := fun s t => s.cursors role ≤ t.cursors role)
      (fun _ => le_refl _) (fun _ _ _ => Nat.le_trans) (fun _ _ _ _ _ _ => trivial)
      (fun _ _ _ _ _ hstep => le_cursors_step hstep role) trivial

def emptyInbox : InboxState where
  events := EventLog.empty
  cursors := fun _ => 0
  renderedCursor := fun _ => none
  inFlight := fun _ => none
  delivered := []

variable (msgId text : String)

def proposalTo : Message where
  msgId := msgId
  fromAgent := "orchestration"
  toAgent := "critic"
  topic := "proposal"
  payload := [("text", .str text)]
  ts := ⟨0⟩

def showText : Details :=
  fun _ e =>
    match Json.get? (.obj e.payload) "text" with
    | some (.str text) => " payload=" ++ text
    | _ => ""

def proposalEvent (seq : Nat) : Event :=
  (proposalTo msgId text).toEvent .proposal seq

variable (text : String)

/-- The turn that shows the proposal `p1` for the first time. -/
def firstTurn : Turn where
  role := "critic"
  shown := [proposalEvent "p1" text 1]
  read := [proposalEvent "p1" text 1]

/-- The Critic has been shown `p1`. -/
def afterFirst : InboxState where
  events :=
    { log := SeqLog.empty.append (proposalEvent "p1" text) (fun _ => rfl)
      unique := List.nodup_singleton _ }
  cursors := advance (fun _ => 0) "critic" 1
  renderedCursor := setRole (fun _ => none) "critic" (some 1)
  inFlight :=
    setRole (setRole (fun _ => none) "critic" (some (firstTurn text))) "critic" none
  delivered := [firstTurn text]

def firstTrace : List InboxOp :=
  [.append (proposalTo "p1" text), .compose "critic" [], .succeed "critic"]

theorem run_first :
    (inboxMachine showText).Run FreshCursor emptyInbox (firstTrace text) (afterFirst text) := by
  apply Machine.Run.cons trivial rfl
  apply Machine.Run.cons trivial rfl
  refine Machine.Run.cons ?_ rfl (Machine.Run.nil (afterFirst text))
  intro turn hturn hread
  have hsame : firstTurn text = turn := Option.some.inj hturn
  rw [← hsame] at hread
  cases hread

theorem inbox_delivery_first :
    Delivers (afterFirst "try") ∧ (afterFirst "try").cursors "critic" = 1 := by
  have hinit : (inboxMachine showText).init emptyInbox :=
    ⟨rfl, fun _ => rfl, fun _ => rfl, fun _ => rfl, rfl⟩
  have hrun := (run_first "try").mono (fun _ _ _ => trivial)
  have hdelivery := inbox_delivery showText emptyInbox (afterFirst "try")
    (firstTrace "try") hinit hrun
  exact ⟨hdelivery.left.mpr (run_first "try") _ _ (List.prefix_refl _) hrun, rfl⟩

/-!
A first line that fills the budget keeps every other line out.
-/

theorem fitToBudget_filled {budget : Nat} {first : String} (rest : List String)
    (h : budget ≤ first.length) :
    fitToBudget budget (first :: rest) = [String.ofList (first.toList.take budget)] := by
  have hlength : (String.ofList (first.toList.take budget)).length = budget := by
    rw [String.length_ofList, List.length_take]
    exact Nat.min_eq_left h
  unfold fitToBudget
  dsimp only
  cases rest with
  | nil => rfl
  | cons line rest =>
    rw [fitRest, if_pos (by lia)]

/-- The turn that shows `p1`, pending, and has no room for `p2`. -/
def pendingTurn : Turn where
  role := "critic"
  shown := [proposalEvent "p1" text 1]
  read := []

/-- The turn that shows `p2` and then fails. -/
def failedTurn : Turn where
  role := "critic"
  shown := [proposalEvent "p2" "" 2]
  read := [proposalEvent "p2" "" 2]

def afterFailed : InboxState where
  events :=
    { log := (afterFirst text).events.log.append (proposalEvent "p2" "") (fun _ => rfl)
      unique := by
        show ["p1", "p2"].Nodup
        decide }
  cursors := (afterFirst text).cursors
  renderedCursor := setRole (afterFirst text).renderedCursor "critic" (some 2)
  inFlight :=
    setRole (setRole (afterFirst text).inFlight "critic" (some failedTurn)) "critic" none
  delivered := [firstTurn text]

def afterPending : InboxState where
  events := (afterFailed text).events
  cursors := advance (afterFailed text).cursors "critic" 2
  renderedCursor := (afterFailed text).renderedCursor
  inFlight :=
    setRole (setRole (afterFailed text).inFlight "critic" (some (pendingTurn text))) "critic" none
  delivered := [firstTurn text, pendingTurn text]

theorem run_failed : (inboxMachine showText).Run Machine.Always (afterFirst text)
      [.append (proposalTo "p2" ""), .compose "critic" [], .fail "critic"] (afterFailed text) := by
  apply Machine.Run.cons trivial rfl
  apply Machine.Run.cons trivial rfl
  exact Machine.Run.cons trivial rfl (Machine.Run.nil (afterFailed text))

theorem renderTurn_pending {text : String} (h : inboxPromptChars ≤ text.length) :
    renderTurn showText (afterFailed text).events (afterFailed text).cursors
      "critic" ["p1"] = pendingTurn text := by
  have hfilled : inboxPromptChars ≤
      (inboxLine showText "critic" (proposalEvent "p1" text 1)).length := by
    have hline : inboxLine showText "critic" (proposalEvent "p1" text 1) =
        "  " ++ (head (proposalEvent "p1" text 1) ++ (" payload=" ++ text)) := rfl
    rw [hline]
    simp only [String.length_append]
    lia
  have hlines : inboxLines showText "critic"
      (renderedFor (afterFailed text).events (afterFailed text).cursors "critic" ["p1"]) = _ :=
    fitToBudget_filled [inboxLine showText "critic" (proposalEvent "p2" "" 2)] hfilled
  unfold renderTurn
  dsimp only
  rw [hlines]
  rfl

theorem run_pending {text : String} (h : inboxPromptChars ≤ text.length) :
    (inboxMachine showText).Run Machine.Always (afterFailed text)
      [.compose "critic" ["p1"], .succeed "critic"] (afterPending text) := by
  have hcompose : inboxStep showText (afterFailed text) (.compose "critic" ["p1"]) = some
        { afterFailed text with
          inFlight := setRole (afterFailed text).inFlight "critic" (some (pendingTurn text)) } := by
    rw [inboxStep]
    rw [renderTurn_pending h]
    rfl
  apply Machine.Run.cons trivial hcompose
  exact Machine.Run.cons trivial rfl (Machine.Run.nil (afterPending text))

/-- A turn fails after showing `p2`; the next one has room only for `p1`, still
pending, and succeeds: the cursor moves past `p2`, which no turn delivered. -/
theorem inbox_skips_message :
    exists details s, (inboxMachine details).Reachable s ∧ ¬ Delivers s := by
  let text := String.ofList (List.replicate 40000 'x')
  have hlength : inboxPromptChars ≤ text.length := by
    rw [String.length_ofList, List.length_replicate]
    exact le_refl _
  have hrun := ((run_first text).mono (fun _ _ _ => trivial)).append
    ((run_failed text).append (run_pending hlength))
  refine ⟨showText, afterPending text, ⟨emptyInbox, _,
    ⟨rfl, fun _ => rfl, fun _ => rfl, fun _ => rfl, rfl⟩, hrun⟩, ?_⟩
  intro hdelivers
  rcases hdelivers.covered "critic" (proposalEvent "p2" "" 2)
    (List.mem_append_right _ List.mem_cons_self) rfl (le_refl _) with ⟨turn, hturn, _, hshown⟩
  have honly : turn.shown = [proposalEvent "p1" text 1] := by
    rcases List.mem_cons.mp hturn with rfl | hrest
    · rfl
    · rw [List.mem_singleton.mp hrest]
      rfl
  rw [honly, List.mem_singleton] at hshown
  cases congrArg Event.seq hshown
end Loop
end Hyperloom
