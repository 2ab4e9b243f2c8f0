import Mathlib.Data.List.Sort
import Hyperloom.Library.Machine

/-!
# Settling a lane's stages

Before an iteration a lane judges what its agent declared.  The judgement goes
into `stages.json` first and, after more work that may raise, into
`directions.json`, whose harness copy is written before the file itself.  An
exception inside `settle` is swallowed: `stages.json` is not written, and the
map is saved with what was judged so far.
-/

namespace Hyperloom
namespace Arbor

open Library

/-!
## The lane's items
-/

inductive ItemStatus where
  | opened
  | done
  | killed
  | belowFloor
  | plan
deriving DecidableEq

structure StageSpec where
  id : String
  index : Nat
  after : List String := []
  /-- The item's kind closes from a booked KEEP. -/
  booked : Bool := false
  /-- The failed attempts that kill the item, 0 when there is no limit. -/
  attempts : Nat := 0
  stopMeasured : Bool := false
  stopStatus : ItemStatus := .killed
  stopsPlan : Bool := false
  stop_closes : stopStatus ≠ .opened := by decide

structure StagePlan where
  items : List StageSpec
  distinct : (items.map StageSpec.id).Nodup

inductive StageResult where
  | pass
  | fail
  | stop
deriving DecidableEq

/-- The harness's own reading of a declaration. -/
inductive StageReading where
  | pass
  | fail
  | stop
  | refused
  | notMeasured
deriving DecidableEq

/-- A STAGE line kept for `settle`. -/
structure Declaration where
  item : String
  iteration : Nat
  result : StageResult

structure LessonRow where
  iteration : Nat
  annotation : Bool := false
  invalid : Bool := false
  notMeasured : Bool := false
  keep : Bool := false
  booked : Bool := false
  win : Bool := false
  cites : List String := []

structure LaneSession where
  iteration : Nat := 0
  lessons : List LessonRow := []

structure StageAttempt where
  iteration : Nat
  harness : StageReading

structure StageRecord where
  status : ItemStatus := .opened
  attempts : List StageAttempt := []

def StageRecord.fails (rec : StageRecord) : Nat := rec.attempts.countP fun a => a.harness = .fail

/-- What `settle` works on: the map's statuses and the items' records. -/
structure StageWork where
  map : String -> ItemStatus
  records : String -> StageRecord

/-- The readings of evidence and of measured values, which no write depends
on otherwise. -/
structure StageRules where
  /-- `_refusal`, the items it comes after aside. -/
  refuses : StageSpec -> Declaration -> LessonRow -> Bool
  /-- `_stop_reading`, for a rule with a measure. -/
  stopFires : StageSpec -> Declaration -> Bool
  /-- `judge`. -/
  judge : StageSpec -> Declaration -> LessonRow -> Bool

/-- `_booked`. -/
def LessonRow.books (row : LessonRow) (id : String) : Bool :=
  row.keep && row.booked && row.win && row.cites.contains id

def verdictRow (lessons : List LessonRow) (iteration : Nat) : Option LessonRow :=
  (lessons.filter fun row => row.iteration = iteration && !row.annotation).getLast?

namespace StageRules

variable (rules : StageRules)

def reading (spec : StageSpec) (entry : Declaration) (row : LessonRow) : StageReading :=
  if spec.stopMeasured && rules.stopFires spec entry then .stop
  else if entry.result = .stop then
    if spec.stopMeasured then .refused else .stop
  else if spec.booked then
    if row.books spec.id then .pass else .fail
  else if entry.result = .fail then .fail
  else if rules.judge spec entry row then .pass
  else .fail

variable (map : String -> ItemStatus)

/-- How `_settle_one` reads a declaration of an open item. -/
def read (spec : StageSpec) (entry : Declaration) : Option LessonRow -> StageReading
  | none => .refused
  | some row =>
    let waits := spec.after.any fun a => map a != .done
    if (waits && entry.result != .stop) || rules.refuses spec entry row then
      .refused
    else if row.invalid || row.notMeasured then .notMeasured
    else rules.reading spec entry row

/-- Without a measurement a declaration is refused or set aside. -/
theorem read_unmeasured (spec : StageSpec) (entry : Declaration) {verdict : Option LessonRow}
    (h : verdict.all (fun row => row.invalid || row.notMeasured) = true) :
    rules.read map spec entry verdict = .refused ∨
      rules.read map spec entry verdict = .notMeasured := by
  cases verdict with
  | none => exact Or.inl rfl
  | some row =>
    rw [Option.all_some] at h
    dsimp only [read]
    rw [if_pos h]
    split
    · exact Or.inl rfl
    · exact Or.inr rfl

end StageRules

namespace StageWork

def close (w : StageWork) (id : String) (status : ItemStatus) : StageWork where
  map := Function.update w.map id status
  records := Function.update w.records id { w.records id with status := status }

def book (w : StageWork) (id : String) (attempt : StageAttempt) : StageWork where
  map := w.map
  records := Function.update w.records id
    { w.records id with attempts := (w.records id).attempts ++ [attempt] }

def killLater (w : StageWork) (spec : StageSpec) (later : StageSpec) : StageWork :=
  if spec.index < later.index ∧ w.map later.id = .opened then
    w.close later.id .killed
  else w

variable (plan : StagePlan)

def decideItem (w : StageWork) (spec : StageSpec) : StageReading -> StageWork
  | .pass => w.close spec.id .done
  | .fail =>
    if spec.attempts ≠ 0 ∧ spec.attempts ≤ (w.records spec.id).fails then
      w.close spec.id .killed
    else w
  | .stop =>
    let stopped := w.close spec.id spec.stopStatus
    if spec.stopsPlan then
      plan.items.foldl (fun v later => v.killLater spec later) stopped
    else stopped
  | .refused => w
  | .notMeasured => w

def record (w : StageWork) (spec : StageSpec) (attempt : StageAttempt) : StageWork :=
  (w.book spec.id attempt).decideItem plan spec attempt.harness

def settleOne (rules : StageRules) (session : LaneSession)
    (w : StageWork) (entry : Declaration) : StageWork :=
  match plan.items.find? fun spec => spec.id = entry.item with
  | none => w
  | some spec =>
    if w.map spec.id ≠ .opened then w
    else
      let row := verdictRow session.lessons entry.iteration
      w.record plan spec
        { iteration := entry.iteration
          harness := rules.read w.map spec entry row }

end StageWork

/-- Only the last row of an iteration counts. -/
def lastRows : List LessonRow -> List LessonRow
  | [] => []
  | row :: rest =>
    if rest.any fun other => other.iteration = row.iteration then
      lastRows rest
    else row :: lastRows rest

theorem lastRows_subset (rows : List LessonRow) : lastRows rows ⊆ rows := by
  induction rows with
  | nil => exact List.Subset.refl _
  | cons row rest ih =>
    unfold lastRows
    split
    · exact List.subset_cons_of_subset row ih
    · exact List.cons_subset_cons row ih

namespace StageWork

def bookedRows (w : StageWork) (start : Nat) (session : LaneSession)
    (spec : StageSpec) : List LessonRow :=
  let fresh := session.lessons.filter fun row =>
    decide (start ≤ row.iteration) && !row.annotation &&
      !(w.records spec.id).attempts.any fun a => a.iteration = row.iteration
  (lastRows fresh).insertionSort fun a b => a.iteration ≤ b.iteration

theorem mem_bookedRows {w : StageWork} {start : Nat} {session : LaneSession} {spec : StageSpec}
    {row : LessonRow} (h : row ∈ w.bookedRows start session spec) :
    row ∈ session.lessons ∧ start ≤ row.iteration ∧ row.annotation = false ∧
      forall a, a ∈ (w.records spec.id).attempts -> a.iteration ≠ row.iteration := by
  have hfresh := lastRows_subset _ ((List.mem_insertionSort _).mp h)
  rcases List.mem_filter.mp hfresh with ⟨hrow, hfresh⟩
  simp only [Bool.and_eq_true, decide_eq_true_eq, Bool.not_eq_true', List.any_eq_false] at hfresh
  exact ⟨hrow, hfresh.left.left, hfresh.left.right, hfresh.right⟩

/-- The rows of one item, until one closes it. -/
def settleRows (plan : StagePlan) (spec : StageSpec) : StageWork -> List LessonRow -> StageWork
  | w, [] => w
  | w, row :: rest =>
    if w.map spec.id ≠ .opened then w
    else if row.win && !row.invalid && row.cites.contains spec.id then
      settleRows plan spec (w.record plan spec
          { iteration := row.iteration
            harness := if row.books spec.id then .pass else .fail }) rest
    else settleRows plan spec w rest

def settleBooked (plan : StagePlan) (start : Nat) (session : LaneSession)
    (w : StageWork) (spec : StageSpec) : StageWork :=
  if spec.booked ∧ spec.after.all (fun a => w.map a = .done) then
    w.settleRows plan spec (w.bookedRows start session spec)
  else w

end StageWork

def Declaration.waits (entry : Declaration) (session : LaneSession) : Bool :=
  (verdictRow session.lessons entry.iteration).isNone &&
    decide (session.iteration < entry.iteration)

structure Lane where
  plan : StagePlan
  rules : StageRules
  start : Nat := 1

/-- The judgements of `settle`, in order: of the declarations that are due,
then of the items that close from the session's own rows. -/
def Lane.judgements (lane : Lane) (session : LaneSession) (pending : List Declaration) :
    List (StageWork -> StageWork) :=
  let due := (pending.insertionSort fun a b => a.iteration ≤ b.iteration).filter
    fun entry => !entry.waits session
  due.map (fun entry w => w.settleOne lane.plan lane.rules session entry) ++
    lane.plan.items.map fun spec w => w.settleBooked lane.plan lane.start session spec

/-- What the map and the records become. -/
def StageWork.judged (w : StageWork) (judgements : List (StageWork -> StageWork)) : StageWork :=
  judgements.foldl (fun w judge => judge w) w

/-!
## The files and the runs of a lane
-/

/-- `directions.json`. -/
structure LaneMap where
  status : String -> ItemStatus := fun _ => .opened
  closed : Bool := false

structure LaneFiles where
  file : LaneMap := {}
  copy : LaneMap := {}
  records : String -> StageRecord := fun _ => {}
  pending : List Declaration := []
  session : LaneSession := {}

/-- How far an advance gets before it is killed or raises; `raised` is one
whose `settle` swallowed an exception after some of its judgements. -/
inductive AdvanceCut where
  | early
  | settled
  | copied
  | whole
  | raised (judgements : Nat) (whole : Bool)
deriving DecidableEq

inductive LaneOp where
  /-- The session goes on: its iteration and the rows it gained. -/
  | session (iteration : Nat) (rows : List LessonRow)
  /-- `capture`. -/
  | declare (entries : List Declaration)
  | advance (cut : AdvanceCut)

namespace LaneFiles

/-- `load`: a file that differs from the harness copy is put back. -/
def loaded (s : LaneFiles) : LaneFiles := { s with file := s.copy }

def work (s : LaneFiles) : StageWork where
  map := s.copy.status
  records := s.records

def judgements (lane : Lane) (s : LaneFiles) : List (StageWork -> StageWork) :=
  lane.judgements s.session s.pending

/-- What a whole `settle` makes of the loaded map and the records. -/
def settled (lane : Lane) (s : LaneFiles) : StageWork := s.work.judged (s.judgements lane)

end LaneFiles

/-- The map as an advance saves it. -/
def Lane.mapOf (lane : Lane) (w : StageWork) : LaneMap where
  status := w.map
  closed := !lane.plan.items.isEmpty && lane.plan.items.all fun spec => w.map spec.id != .opened

namespace LaneFiles

variable (lane : Lane) (s : LaneFiles)

def saveStages : LaneFiles :=
  { s with
    records := (s.settled lane).records
    pending := s.pending.filter fun entry => entry.waits s.session }

/-- `_advance_lane`. -/
def advance (cut : AdvanceCut) : LaneFiles :=
  if s.copy.closed then s.loaded
  else
    match cut with
    | .early => s.loaded
    | .settled => s.loaded.saveStages lane
    | .copied => { s.loaded.saveStages lane with copy := lane.mapOf (s.settled lane) }
    | .whole =>
      let map := lane.mapOf (s.settled lane)
      { s.loaded.saveStages lane with copy := map, file := map }
    | .raised count whole =>
      let map := lane.mapOf (s.work.judged ((s.judgements lane).take count))
      { s.loaded with copy := map, file := if whole then map else s.copy }

def step : LaneOp -> Option LaneFiles
  | .session iteration rows =>
    some { s with
        session :=
          { iteration := iteration
            lessons := s.session.lessons ++ rows } }
  | .declare entries => some { s.loaded with pending := s.pending ++ entries }
  | .advance cut => some (s.advance lane cut)

end LaneFiles

def laneMachine (lane : Lane) : Machine LaneFiles LaneOp where
  init s := s = {}
  step := LaneFiles.step lane

/-!
## What a judgement leaves
-/

/-- The item has one status in both files, and every attempt the harness read
as a pass, a stop or the last fail has closed it. -/
structure InEffect (spec : StageSpec) (status : ItemStatus) (rec : StageRecord) : Prop where
  same : rec.status = status
  pass : forall a, a ∈ rec.attempts -> a.harness = .pass -> status = .done
  stop : forall a, a ∈ rec.attempts -> a.harness = .stop -> status = spec.stopStatus
  fails : spec.attempts ≠ 0 -> spec.attempts ≤ rec.fails -> status = .killed

/-- What the last attempt asks of the item's status. -/
def StageRecord.Decides (spec : StageSpec) (status : ItemStatus) (rec : StageRecord) :
    StageReading -> Prop
  | .pass => status = .done
  | .stop => status = spec.stopStatus
  | .fail => spec.attempts ≠ 0 -> spec.attempts ≤ rec.fails -> status = .killed
  | _ => True

def StageWork.Sound (plan : StagePlan) (w : StageWork) : Prop :=
  forall spec, spec ∈ plan.items -> InEffect spec (w.map spec.id) (w.records spec.id)

namespace InEffect

variable {spec : StageSpec} {rec : StageRecord}

/-- An open item has no deciding attempt yet, so any status may close it. -/
theorem closes (h : InEffect spec .opened rec) (status : ItemStatus) :
    InEffect spec status { rec with status := status } where
  same := rfl
  pass a ha hpass := nomatch h.pass a ha hpass
  stop a ha hstop := absurd (h.stop a ha hstop).symm spec.stop_closes
  fails hlimit hfails := nomatch h.fails hlimit hfails

theorem books (h : InEffect spec .opened rec) (a : StageAttempt) (status : ItemStatus)
    (hdecides : { rec with attempts := rec.attempts ++ [a] }.Decides spec status a.harness) :
    InEffect spec status { status := status, attempts := rec.attempts ++ [a] } where
  same := rfl
  pass b hb hread := by
    rcases mem_concat.mp hb with hold | rfl
    · exact nomatch h.pass b hold hread
    rw [hread] at hdecides
    exact hdecides
  stop b hb hread := by
    rcases mem_concat.mp hb with hold | rfl
    · exact absurd (h.stop b hold hread).symm spec.stop_closes
    rw [hread] at hdecides
    exact hdecides
  fails hlimit hfails := by
    by_cases hread : a.harness = .fail
    · rw [hread] at hdecides
      exact hdecides hlimit hfails
    · have hold : spec.attempts ≤ rec.fails := by
        simpa [StageRecord.fails, hread] using hfails
      exact nomatch h.fails hlimit hold

end InEffect

namespace StageWork

variable {plan : StagePlan} {w : StageWork} {spec : StageSpec}

theorem eq_of_id (hspec : spec ∈ plan.items) {other : StageSpec}
    (hother : other ∈ plan.items) (h : other.id = spec.id) : other = spec :=
  List.inj_on_of_nodup_map plan.distinct hother hspec h

theorem Sound.update (h : w.Sound plan) (hspec : spec ∈ plan.items)
    {status : ItemStatus} {rec : StageRecord} (hnew : InEffect spec status rec) :
    Sound plan
      { map := Function.update w.map spec.id status
        records := Function.update w.records spec.id rec } := by
  intro other hother
  by_cases hid : other.id = spec.id
  · rw [eq_of_id hspec hother hid]
    simpa using hnew
  · simpa [hid] using h other hother

theorem Sound.killLater (h : w.Sound plan) {later : StageSpec}
    (hlater : later ∈ plan.items) : (w.killLater spec later).Sound plan := by
  unfold StageWork.killLater
  split
  · rename_i hkills
    have hopen := h later hlater
    rw [hkills.right] at hopen
    exact h.update hlater (hopen.closes .killed)
  · exact h

theorem Sound.record (h : w.Sound plan) (hspec : spec ∈ plan.items)
    (hopen : w.map spec.id = .opened) (a : StageAttempt) : (w.record plan spec a).Sound plan := by
  have hitem : InEffect spec .opened (w.records spec.id) := by
    simpa only [hopen] using h spec hspec
  have hnew (status : ItemStatus) (hdecides :
      ((w.book spec.id a).records spec.id).Decides spec status a.harness) :=
    h.update hspec (hitem.books a status (by simpa [book] using hdecides))
  have hclose (status : ItemStatus) (hdecides :
      ((w.book spec.id a).records spec.id).Decides spec status a.harness) :
      ((w.book spec.id a).close spec.id status).Sound plan := by
    simpa [close, book] using hnew status hdecides
  have hbook (hdecides : ((w.book spec.id a).records spec.id).Decides spec .opened a.harness) :
      (w.book spec.id a).Sound plan := by
    have hopened := hnew .opened hdecides
    rw [← hopen, Function.update_eq_self, hopen, ← hitem.same] at hopened
    exact hopened
  unfold StageWork.record
  cases hread : a.harness with
  | pass => exact hclose .done (by rw [hread]; exact rfl)
  | fail =>
    rw [decideItem]
    split
    · exact hclose .killed (by rw [hread]; exact fun _ _ => rfl)
    · rename_i hspared
      refine hbook ?_
      rw [hread]
      exact fun hlimit hfails => absurd ⟨hlimit, hfails⟩ hspared
  | stop =>
    have hstopped := hclose spec.stopStatus (by rw [hread]; exact rfl)
    rw [decideItem]
    split
    · exact List.foldlRecOn plan.items _ hstopped fun _ hsound _ hlater => hsound.killLater hlater
    · exact hstopped
  | refused => exact hbook (by rw [hread]; trivial)
  | notMeasured => exact hbook (by rw [hread]; trivial)

theorem Sound.settleOne (h : w.Sound plan) (rules : StageRules)
    (session : LaneSession) (entry : Declaration) :
    (w.settleOne plan rules session entry).Sound plan := by
  fun_cases StageWork.settleOne plan rules session w entry with
  | case3 spec hfind hopen =>
    exact h.record (List.mem_of_find?_eq_some hfind) (not_not.mp hopen) _
  | _ => exact h

theorem Sound.settleRows (h : w.Sound plan) (hspec : spec ∈ plan.items)
    (rows : List LessonRow) : (w.settleRows plan spec rows).Sound plan := by
  fun_induction StageWork.settleRows plan spec w rows with
  | case3 w row rest hopen _ ih => exact ih (h.record hspec (not_not.mp hopen) _)
  | case4 w row rest _ _ ih => exact ih h
  | _ => exact h

theorem Sound.settleBooked (h : w.Sound plan) (hspec : spec ∈ plan.items)
    (start : Nat) (session : LaneSession) :
    (w.settleBooked plan start session spec).Sound plan := by
  unfold StageWork.settleBooked
  split
  · exact h.settleRows hspec _
  · exact h

/-- What every judgement of a lane keeps, they keep together. -/
theorem judged_keeps {lane : Lane} {session : LaneSession} {pending : List Declaration}
    {judgements : List (StageWork -> StageWork)} {P : StageWork -> Prop} (h : P w)
    (hsub : judgements ⊆ lane.judgements session pending)
    (hone : forall w entry, entry ∈ pending -> entry.waits session = false -> P w ->
      P (w.settleOne lane.plan lane.rules session entry))
    (hbooked : forall w spec, spec ∈ lane.plan.items -> P w ->
      P (w.settleBooked lane.plan lane.start session spec)) : P (w.judged judgements) := by
  refine List.foldlRecOn judgements _ h ?_
  intro w hw judge hjudge
  rcases List.mem_append.mp (hsub hjudge) with hdue | hitem
  · rcases List.mem_map.mp hdue with ⟨entry, hentry, rfl⟩
    rcases List.mem_filter.mp hentry with ⟨hmem, hwaits⟩
    exact hone w entry ((List.mem_insertionSort _).mp hmem) (by simpa using hwaits) hw
  · rcases List.mem_map.mp hitem with ⟨spec, hspec, rfl⟩
    exact hbooked w spec hspec hw

end StageWork

/-!
## No judged stage is lost
-/

namespace LaneFiles

variable {lane : Lane} {s t : LaneFiles}

/-- Nothing an advance would judge can close an item: what is due was declared
of a closed item, or in an iteration that has no measurement, and no measured
win cites an open item that is booked from such rows, unless the item has an
attempt of its iteration. -/
def NothingDecides (lane : Lane) (s : LaneFiles) : Prop :=
  (forall entry, entry ∈ s.pending -> entry.waits s.session = false ->
    s.copy.status entry.item = .opened -> (verdictRow s.session.lessons entry.iteration).all
      (fun row => row.invalid || row.notMeasured) = true) ∧
  forall spec, spec ∈ lane.plan.items -> spec.booked = true -> s.copy.status spec.id = .opened ->
    forall row, row ∈ s.session.lessons -> lane.start ≤ row.iteration -> row.annotation = false ->
      row.win = true -> row.invalid = false -> spec.id ∈ row.cites ->
      exists a, a ∈ (s.records spec.id).attempts ∧ a.iteration = row.iteration

/-- An advance that writes one of the two files alone has nothing to decide. -/
def CutQuietly (lane : Lane) (s : LaneFiles) : LaneOp -> Prop
  | .advance .settled => s.copy.closed = false -> NothingDecides lane s
  | .advance (.raised _ _) => s.copy.closed = false -> NothingDecides lane s
  | _ => True

instance (lane : Lane) (s : LaneFiles) (op : LaneOp) : Decidable (CutQuietly lane s op) := by
  unfold CutQuietly NothingDecides
  split
  all_goals infer_instance

/-- The map is the one that was loaded, and no attempt is gone. -/
def Unmoved (s : LaneFiles) (w : StageWork) : Prop :=
  w.map = s.copy.status ∧ forall id a, a ∈ (s.records id).attempts -> a ∈ (w.records id).attempts

variable {w : StageWork}

theorem Unmoved.book (h : s.Unmoved w) (id : String) (attempt : StageAttempt) :
    s.Unmoved (w.book id attempt) := by
  refine ⟨h.left, ?_⟩
  intro other a ha
  have hold := h.right other a ha
  dsimp only [StageWork.book]
  by_cases hother : other = id
  · subst hother
    rw [Function.update_self]
    exact List.mem_append_left _ hold
  · rw [Function.update_of_ne hother]
    exact hold

section

variable (hnone : NothingDecides lane s)

include hnone

theorem Unmoved.settleOne (h : s.Unmoved w) {entry : Declaration} (hentry : entry ∈ s.pending)
    (hdue : entry.waits s.session = false) :
    s.Unmoved (w.settleOne lane.plan lane.rules s.session entry) := by
  unfold StageWork.settleOne
  split
  · exact h
  rename_i spec hfind
  split
  · exact h
  rename_i hopen
  have hitem : spec.id = entry.item := by simpa using List.find?_some hfind
  rw [not_not, h.left, hitem] at hopen
  have hrow := hnone.left entry hentry hdue hopen
  dsimp only [StageWork.record]
  rcases lane.rules.read_unmeasured w.map spec entry hrow with hread | hread
  · rw [hread]
    exact h.book spec.id _
  · rw [hread]
    exact h.book spec.id _

theorem Unmoved.settleBooked (h : s.Unmoved w) {spec : StageSpec} (hspec : spec ∈ lane.plan.items) :
    s.Unmoved (w.settleBooked lane.plan lane.start s.session spec) := by
  unfold StageWork.settleBooked
  split
  · rename_i hbooks
    have hrows : forall rows, rows ⊆ w.bookedRows lane.start s.session spec ->
        w.settleRows lane.plan spec rows = w := by
      intro rows
      induction rows with
      | nil => exact fun _ => rfl
      | cons row rest ih =>
        intro hsub
        rw [List.cons_subset] at hsub
        unfold StageWork.settleRows
        split
        · rfl
        rename_i hopen
        rw [not_not, h.left] at hopen
        rw [if_neg, ih hsub.right]
        intro hcounts
        simp only [Bool.and_eq_true, Bool.not_eq_true', List.contains_iff_mem] at hcounts
        rcases StageWork.mem_bookedRows hsub.left with ⟨hrow, hstart, hplain, hseen⟩
        rcases hnone.right spec hspec hbooks.left hopen row hrow hstart hplain hcounts.left.left
          hcounts.left.right hcounts.right with ⟨a, ha, hiteration⟩
        exact hseen a (h.right _ a ha) hiteration
    rw [hrows _ (List.Subset.refl _)]
    exact h
  · exact h

theorem unmoved_judged {judgements : List (StageWork -> StageWork)}
    (hsub : judgements ⊆ s.judgements lane) : s.Unmoved (s.work.judged judgements) :=
  StageWork.judged_keeps ⟨rfl, fun _ _ ha => ha⟩ hsub
    (fun _ _ hentry hdue h => h.settleOne hnone hentry hdue)
    (fun _ _ hspec h => h.settleBooked hnone hspec)

end

def Sound (lane : Lane) (s : LaneFiles) : Prop := s.work.Sound lane.plan

theorem Sound.settled (h : Sound lane s) : (s.settled lane).Sound lane.plan :=
  StageWork.judged_keeps h (List.Subset.refl _) (fun _ _ _ _ h => h.settleOne _ _ _)
    (fun _ _ hspec h => h.settleBooked hspec _ _)

theorem Sound.advance (h : Sound lane s) (cut : AdvanceCut)
    (hcut : CutQuietly lane s (.advance cut)) : Sound lane (s.advance lane cut) := by
  unfold LaneFiles.advance
  split
  · exact h
  · rename_i hopen
    rw [Bool.not_eq_true] at hopen
    cases cut with
    | early => exact h
    | settled =>
      have hkept : (s.settled lane).map = s.copy.status :=
        (unmoved_judged (hcut hopen) (List.Subset.refl _)).left
      intro spec hspec
      have hnew := h.settled spec hspec
      rw [hkept] at hnew
      exact hnew
    | raised count whole =>
      have hkept := (unmoved_judged (hcut hopen) (List.take_subset count _)).left
      intro spec hspec
      have hold := h spec hspec
      change InEffect spec ((s.work.judged _).map spec.id) (s.records spec.id)
      rw [hkept]
      exact hold
    | _ => exact h.settled

theorem Sound.step {op : LaneOp} (h : Sound lane s)
    (hop : CutQuietly lane s op) (hs : s.step lane op = some t) : Sound lane t := by
  cases op with
  | advance cut =>
    cases hs
    exact h.advance cut hop
  | _ =>
    cases hs
    exact h

theorem Sound.init : Sound lane {} := fun _ _ =>
  { same := rfl
    pass := by simp [work]
    stop := by simp [work]
    fails := by simp [work, StageRecord.fails] }

theorem sound_of_reachable (hs : (laneMachine lane).ReachableWhere (CutQuietly lane) s) :
    Sound lane s := by
  refine hs.invariant ?_ ?_
  · intro start hstart
    rw [hstart]
    exact Sound.init
  · intro _ _ _ h hop hstep
    exact h.step hop hstep

end LaneFiles

def portLane : Lane where
  plan :=
    { items := [{ id := "m-port.s1", index := 0 }]
      distinct := by decide }
  rules :=
    { refuses := fun _ _ _ => false
      stopFires := fun _ _ => false
      judge := fun _ _ _ => true }

/-- The stage is judged in one file and open in the other, with nothing left
to judge. -/
def PortStuck (s : LaneFiles) : Prop :=
  s.pending = [] ∧ s.copy.closed = false ∧ s.copy.status "m-port.s1" = .opened ∧
    (s.records "m-port.s1").status = .done

instance (s : LaneFiles) : Decidable (PortStuck s) := by
  unfold PortStuck
  infer_instance

theorem PortStuck.advance {s : LaneFiles} (h : PortStuck s) :
    PortStuck (s.advance portLane .whole) := by
  rcases h with ⟨hpending, hopen, hmap, hrecord⟩
  have hsettled : s.settled portLane = s.work := by
    unfold LaneFiles.settled LaneFiles.judgements
    rw [hpending]
    rfl
  unfold LaneFiles.advance
  rw [hopen]
  refine ⟨?_, ?_, ?_, ?_⟩
  · simp [LaneFiles.saveStages, LaneFiles.loaded, hpending]
  · simp only [Lane.mapOf, hsettled, LaneFiles.work]
    simp [portLane, hmap]
  · simpa [Lane.mapOf, hsettled, LaneFiles.work] using hmap
  · have hsame : (s.loaded.settled portLane).records = s.records := by
      exact congrArg StageWork.records hsettled
    simpa [LaneFiles.saveStages, hsame] using hrecord

end Arbor
end Hyperloom
