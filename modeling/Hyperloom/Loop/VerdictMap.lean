import Hyperloom.Loop.ReviewVerdict
import Hyperloom.Loop.ExploreTask

/-!
# The grid the Critic's verdicts leave

A review of an explore proposal gives every variant of its grid a verdict of
its own.  The names of the variants are stripped where the grid is filtered,
those of the verdicts are not, and a blank name is dropped from the approved
ones: this module says for which grids and verdicts the task still gets the
variants that were approved or advised.
-/

namespace Hyperloom
namespace Loop

open Library Storage Bus State

/-!
## Filters
-/

theorem filter_eq_filter_iff {α : Type} {p q : α -> Bool} {l : List α} :
    l.filter p = l.filter q <-> forall a, a ∈ l -> p a = q a := by
  constructor
  · intro h a ha
    rw [Bool.eq_iff_iff]
    have hin : a ∈ l.filter p <-> a ∈ l.filter q := by rw [h]
    rw [List.mem_filter, List.mem_filter] at hin
    constructor
    · intro hp
      exact (hin.mp ⟨ha, hp⟩).right
    · intro hq
      exact (hin.mpr ⟨ha, hq⟩).right
  · exact List.filter_congr

/-!
## The reviewed grid
-/

section

variable {γ : Type}

/-- A pending explore proposal with a grid, and a review with a `verdict_map`
that the policy accepted for it. -/
structure GridReview (γ : Type) where
  rules : ReviewRules
  session : RoutingSession γ
  source : String
  pending : PendingProposal γ
  payload : Evidence
  params : Evidence
  grid : List Json
  accepted : validateReviewVerdict session.py source payload = .ok ()
  hasMap : verdictMap payload ≠ []
  explores : pending.actionName = "explore"
  hasParams : orEmpty (field pending.payload "params") = some params
  hasGrid : field params "grid" = some (.arr grid)

namespace GridReview

variable (review : GridReview γ)

def verdicts : List (String × String) :=
  heldVerdictMap review.session.py review.rules review.pending.actionName review.payload

/-- The names with the verdict approve or advise, as the Critic wrote them. -/
def approvedKeys : List String :=
  (review.verdicts.filter fun pair => proceedable pair.snd).map Prod.fst

/-- Whether the verdict on a variant is approve or advise, whatever whitespace
surrounds its name. -/
def approves : Json -> Bool
  | .obj variant =>
    review.approvedKeys.any fun key => decide (strip key = variantName review.session.py variant)
  | _ => false

/-- The proposed variants the Critic approved or advised. -/
def approvedGrid : List Json := review.grid.filter review.approves

variable (denial : Evidence -> Option PolicyDenied) (seeds : ExploreSeeds)

def routing : Routing γ where
  session := review.session.exploring denial seeds
  source := review.source
  pending := review.pending
  ruling := reviewRuling review.session.py review.rules review.pending.actionName review.payload

def withGrid (grid : List Json) : Evidence :=
  setField (proposedParams review.session review.pending review.params) "grid" (.arr grid)

/-- Whatever grids the session refuses and however it seeds them: the task's
grid is the approved one, there is no task when it is empty, and otherwise only
a GEAK review and the rule for grids keep the task away. -/
def DecidesGrid : Prop :=
  forall denial seeds s, (forall params, (review.routing denial seeds).taskParams s = some params ->
      field params "grid" = some (.arr (review.approvedGrid.map (stampPredictor seeds)))) ∧
    (review.approvedGrid = [] -> (review.routing denial seeds).taskParams s = none) ∧
    (review.approvedGrid ≠ [] -> isGeakReview review.params = false ->
      denial (review.withGrid review.approvedGrid) = none ->
      (review.routing denial seeds).taskParams s ≠ none)

def nameless : Json -> Bool
  | .obj variant => decide (variantName review.session.py variant = "")
  | _ => false

/-- The verdict on the proposal comes from blank names alone. -/
def blankRuling : Bool :=
  review.approvedKeys.all (fun key => decide (strip key = "")) &&
    proceedable (collapseVerdicts (review.verdicts.map Prod.snd))

/-- Where an approved name, stripped, is the variant's, that name is not blank
and approved as it is. -/
def matched : Json -> Bool
  | .obj variant =>
    let name := variantName review.session.py variant
    review.approvedKeys.all fun key =>
      decide (strip key ≠ name) || decide (name ∈ review.approvedKeys ∧ name ≠ "")
  | _ => true

/-- The names of the verdicts meet those of the variants. -/
def namesFit : Bool :=
  if review.blankRuling then
    !review.grid.isEmpty && review.grid.all review.nameless
  else review.grid.all review.matched

/-!
## What the ruling leaves of the grid
-/

/-- The grid the ruling leaves, `none` when it lets nothing through. -/
def ruledGrid : Option (List Json) :=
  let ruling := reviewRuling review.session.py review.rules review.pending.actionName review.payload
  let kept := review.grid.filter (keepsVariant review.session.py ruling.approvedVariantNames)
  if ruling.letsThrough then
    if ruling.approvedVariantNames.isSome ∧ kept.isEmpty then none
    else some kept
  else none

/-- What the later rules make of a grid. -/
def taskOf (grid : List Json) : Option Evidence :=
  match denial (review.withGrid grid) with
  | some _ => none
  | none => some (approvedSpec review.session review.pending
    (seedExplore seeds (review.withGrid grid))).params

variable {review : GridReview γ}

theorem grid_proposedParams (review : GridReview γ) :
    field (proposedParams review.session review.pending review.params) "grid" =
      some (.arr review.grid) := by
  unfold proposedParams
  split
  · exact review.hasGrid
  · rw [field_setDefault_of_ne (by decide)]
    exact review.hasGrid

variable {denial : Evidence -> Option PolicyDenied}

theorem grid_taskOf {seeds : ExploreSeeds} {grid : List Json} {params : Evidence}
    (h : review.taskOf denial seeds grid = some params) :
    field params "grid" = some (.arr (grid.map (stampPredictor seeds))) := by
  have hseeded : field (seedExplore seeds (review.withGrid grid)) "grid" =
      some (.arr (grid.map (stampPredictor seeds))) := by
    apply grid_seedExplore
    unfold withGrid
    rw [field_setField, if_pos rfl]
  unfold taskOf at h
  split at h
  · cases h
  · cases h
    unfold approvedSpec
    split
    · rw [field_setField, if_neg (by decide), hseeded]
    · exact hseeded

theorem filterGrid_proposedParams (review : GridReview γ) (names : Option (List String)) :
    filterGrid review.session.py names
        (proposedParams review.session review.pending review.params) =
      let kept := review.grid.filter (keepsVariant review.session.py names)
      if names.isSome ∧ kept.isEmpty then none
      else some (review.withGrid kept) := by
  unfold filterGrid
  rw [grid_proposedParams]
  rfl

theorem seedMaterializedParams_routing (review : GridReview γ)
    (denial : Evidence -> Option PolicyDenied) (seeds : ExploreSeeds)
    (names : Option (List String)) (tasks : Tasks) :
    ((seedMaterializedParams (review.routing denial seeds).session
        (review.routing denial seeds).pending names tasks (proposedParams
          (review.routing denial seeds).session (review.routing denial seeds).pending
          review.params)).toOption.map fun params =>
      (approvedSpec (review.routing denial seeds).session
        (review.routing denial seeds).pending params).params) =
      let kept := review.grid.filter (keepsVariant review.session.py names)
      if names.isSome ∧ kept.isEmpty then none
      else review.taskOf denial seeds kept := by
  have hexplores : (review.routing denial seeds).pending.actionName = "explore" := review.explores
  unfold seedMaterializedParams
  rw [if_pos hexplores]
  have hfilter : filterGrid (review.routing denial seeds).session.py names
      (proposedParams (review.routing denial seeds).session
        (review.routing denial seeds).pending review.params) = _ :=
    review.filterGrid_proposedParams names
  rw [hfilter]
  dsimp only
  split
  · rename_i hnone
    split at hnone
    · rename_i hempty
      rw [if_pos hempty]
      rfl
    · cases hnone
  · rename_i params hsome
    rcases some_of_guard hsome with ⟨hkept, rfl⟩
    rw [if_neg hkept]
    unfold taskOf
    show Option.map _ (Except.toOption (match denial _ with
      | some denied => _
      | none => _)) = _
    cases denial (review.withGrid _) with
    | _ => rfl

theorem taskParams_routing (denial : Evidence -> Option PolicyDenied)
    (seeds : ExploreSeeds) (s : RoutingState γ) :
    (review.routing denial seeds).taskParams s = if isGeakReview review.params then none
      else review.ruledGrid.bind (review.taskOf denial seeds) := by
  have hparams : orEmpty (field (review.routing denial seeds).pending.payload
      "params") = some review.params := review.hasParams
  have hscreen : isUpstreamPrPrescreen (review.routing denial seeds).pending.actionName
      (review.routing denial seeds).pending.payload = some false := by
    unfold isUpstreamPrPrescreen
    rw [if_pos]
    show review.pending.actionName ≠ "integrate_patch"
    rw [review.explores]
    decide
  unfold Routing.taskParams Routing.applyVerdictOutcome
  rw [hparams]
  dsimp only
  by_cases hgeak : isGeakReview review.params = true
  · rw [if_pos hgeak, if_pos hgeak]
    rfl
  · rw [if_neg hgeak, if_neg hgeak]
    unfold ruledGrid
    by_cases hlets : (reviewRuling review.session.py review.rules
        review.pending.actionName review.payload).letsThrough = true
    · have hroutes : (review.routing denial seeds).ruling.letsThrough = true := hlets
      have hseeds := review.seedMaterializedParams_routing denial seeds
        (review.routing denial seeds).ruling.approvedVariantNames s.tasks
      have hbind : forall (c : Prop) [Decidable c] (kept : List Json),
          (if c then none else some kept).bind (review.taskOf denial seeds) =
            if c then none else review.taskOf denial seeds kept := by
        intro c _ kept
        split
        · rfl
        · rfl
      rw [if_pos hlets, if_pos hroutes]
      unfold Routing.materializeApprovedProposal
      rw [hscreen]
      cases hseeded : seedMaterializedParams (review.routing denial seeds).session
          (review.routing denial seeds).pending
          (review.routing denial seeds).ruling.approvedVariantNames s.tasks
          (proposedParams (review.routing denial seeds).session
            (review.routing denial seeds).pending review.params) with
      | error skip | ok params =>
        rw [hseeded] at hseeds
        rw [hbind]
        exact hseeds
    · have hroutes : ¬ (review.routing denial seeds).ruling.letsThrough = true := hlets
      rw [if_neg hlets, if_neg hroutes]
      rfl

/-!
## Names that fit
-/

def unlessEmpty (grid : List Json) : Option (List Json) :=
  if grid = [] then none else some grid

theorem unlessEmpty_inj {one other : List Json} :
    unlessEmpty one = unlessEmpty other <-> one = other := by
  unfold unlessEmpty
  constructor
  · intro h
    split at h
    · rename_i hone
      split at h
      · rename_i hother
        rw [hone, hother]
      · cases h
    · split at h
      · cases h
      · exact Option.some.inj h
  · intro h
    rw [h]

theorem variantName_strip (py : Conversions γ) (variant : Evidence) :
    strip (variantName py variant) = variantName py variant := by
  unfold variantName
  split
  · rfl
  · split
    · exact strip_strip _
    · rfl

theorem mem_proceedableVariantNames {key : String} :
    key ∈ proceedableVariantNames review.verdicts <->
      key ∈ review.approvedKeys ∧ strip key ≠ "" := by
  unfold proceedableVariantNames proceedableVariants approvedKeys
  simp only [List.mem_map, List.mem_filter, Bool.and_eq_true, decide_eq_true_eq]
  constructor
  · intro h
    rcases h with ⟨pair, ⟨hin, hverdict, hname⟩, heq⟩
    exact ⟨⟨pair, ⟨hin, hverdict⟩, heq⟩, heq ▸ hname⟩
  · intro h
    rcases h with ⟨⟨pair, ⟨hin, hverdict⟩, heq⟩, hname⟩
    exact ⟨pair, ⟨hin, hverdict, heq ▸ hname⟩, heq⟩

theorem matched_obj {variant : Evidence} :
    review.matched (.obj variant) = true <->
      forall key, key ∈ review.approvedKeys -> strip key = variantName review.session.py variant ->
        variantName review.session.py variant ∈ review.approvedKeys ∧
          variantName review.session.py variant ≠ "" := by
  unfold matched
  simp only [List.all_eq_true, Bool.or_eq_true, decide_eq_true_eq]
  constructor
  · intro h key hkey hname
    rcases h key hkey with hother | hin
    · exact absurd hname hother
    · exact hin
  · intro h key hkey
    by_cases hname : strip key = variantName review.session.py variant
    · exact Or.inr (h key hkey hname)
    · exact Or.inl hname

theorem approves_obj {variant : Evidence} :
    review.approves (.obj variant) = true <->
      exists key, key ∈ review.approvedKeys ∧
        strip key = variantName review.session.py variant := by
  unfold approves
  simp only [List.any_eq_true, decide_eq_true_eq]

theorem filter_keepsVariant_iff :
    review.grid.filter (keepsVariant review.session.py
        (some (proceedableVariantNames review.verdicts))) =
      review.approvedGrid <-> review.grid.all review.matched = true := by
  unfold approvedGrid
  rw [filter_eq_filter_iff, List.all_eq_true]
  apply forall₂_congr
  intro item _
  cases item with
  | obj variant =>
    rw [Bool.eq_iff_iff, approves_obj, matched_obj]
    show (decide (_ ∈ _) = true <-> _) <-> _
    rw [decide_eq_true_eq, mem_proceedableVariantNames, variantName_strip]
    constructor
    · intro h key hkey hname
      exact h.mpr ⟨key, hkey, hname⟩
    · intro h
      constructor
      · intro hin
        exact ⟨_, hin.left, variantName_strip _ _⟩
      · intro hkey
        rcases hkey with ⟨key, hkey, hname⟩
        exact h key hkey hname
  | _ => exact iff_of_true rfl rfl

theorem collapsed (review : GridReview γ) :
    ((reviewRuling review.session.py review.rules review.pending.actionName review.payload).verdict,
      (reviewRuling review.session.py review.rules review.pending.actionName
        review.payload).approvedVariantNames) = collapseVerdictMap review.verdicts :=
  reviewRuling_of_map review.accepted review.hasMap

theorem ruledGrid_of_names (h : proceedableVariantNames review.verdicts ≠ []) :
    review.ruledGrid = unlessEmpty (review.grid.filter
      (keepsVariant review.session.py (some (proceedableVariantNames review.verdicts)))) := by
  have hcollapsed := review.collapsed
  unfold collapseVerdictMap at hcollapsed
  rw [if_pos h] at hcollapsed
  rcases Prod.mk.inj hcollapsed with ⟨hverdict, hnames⟩
  have hlets : (reviewRuling review.session.py review.rules
      review.pending.actionName review.payload).letsThrough = true := by
    rw [letsThrough_iff, hverdict]
    apply collapse_of_all
    · intro hnone
      apply h
      unfold proceedableVariantNames
      rw [List.map_eq_nil_iff.mp hnone]
      rfl
    · intro verdict hin
      rcases List.mem_map.mp hin with ⟨pair, hpair, heq⟩
      have hparts := (List.mem_filter.mp hpair).right
      rw [Bool.and_eq_true] at hparts
      exact heq ▸ hparts.left
  unfold ruledGrid unlessEmpty
  rw [if_pos hlets, hnames]
  simp only [Option.isSome_some, true_and, List.isEmpty_iff]

theorem ruledGrid_of_no_names (h : proceedableVariantNames review.verdicts = []) :
    review.ruledGrid = if proceedable (collapseVerdicts (review.verdicts.map Prod.snd)) then
        some review.grid
      else none := by
  have hcollapsed := review.collapsed
  unfold collapseVerdictMap at hcollapsed
  rw [if_neg (not_not.mpr h)] at hcollapsed
  rcases Prod.mk.inj hcollapsed with ⟨hverdict, hnames⟩
  have hall : review.grid.filter (keepsVariant review.session.py none) = review.grid := by
    apply List.filter_eq_self.mpr
    intro item _
    cases item with
    | _ => rfl
  unfold ruledGrid
  dsimp only
  rw [hnames, hall]
  by_cases hlets : proceedable (collapseVerdicts (review.verdicts.map Prod.snd)) = true
  · rw [if_pos hlets, if_pos (letsThrough_iff.mpr (hverdict ▸ hlets)), if_neg (by simp)]
  · rw [if_neg hlets, if_neg]
    intro hthrough
    exact hlets (hverdict ▸ letsThrough_iff.mp hthrough)

theorem all_blank_iff :
    review.approvedKeys.all (fun key => decide (strip key = "")) = true <->
      proceedableVariantNames review.verdicts = [] := by
  rw [List.all_eq_true, List.eq_nil_iff_forall_not_mem]
  constructor
  · intro h key hin
    have hparts := mem_proceedableVariantNames.mp hin
    exact hparts.right (of_decide_eq_true (h key hparts.left))
  · intro h key hin
    rw [decide_eq_true_eq]
    by_contra hname
    exact h key (mem_proceedableVariantNames.mpr ⟨hin, hname⟩)

theorem approves_eq_nameless (h : review.blankRuling = true) (item : Json) :
    review.approves item = review.nameless item := by
  unfold blankRuling at h
  rw [Bool.and_eq_true] at h
  have hblank : forall key, key ∈ review.approvedKeys -> strip key = "" := by
    intro key hin
    exact of_decide_eq_true (List.all_eq_true.mp h.left key hin)
  have hsome : exists key, key ∈ review.approvedKeys := by
    rcases exists_of_collapse h.right with ⟨verdict, hin, hproceeds⟩
    rcases List.mem_map.mp hin with ⟨pair, hpair, heq⟩
    exact ⟨pair.fst, List.mem_map_of_mem (List.mem_filter.mpr ⟨hpair, heq ▸ hproceeds⟩)⟩
  cases item with
  | obj variant =>
    rw [Bool.eq_iff_iff, approves_obj]
    show _ <-> decide (_ = "") = true
    rw [decide_eq_true_eq]
    constructor
    · intro hkey
      rcases hkey with ⟨key, hin, hname⟩
      rw [← hname, hblank key hin]
    · intro hname
      rcases hsome with ⟨key, hin⟩
      exact ⟨key, hin, (hblank key hin).trans hname.symm⟩
  | _ => rfl

theorem approvedGrid_eq_nil_iff (hblank : proceedableVariantNames review.verdicts = []) :
    review.approvedGrid = [] <-> review.grid.all review.matched = true := by
  have hkept : review.grid.filter (keepsVariant review.session.py (some [])) = [] := by
    apply List.filter_eq_nil_iff.mpr
    intro item _ hkeeps
    cases item with
    | obj variant =>
      have hin : variantName review.session.py variant ∈ [] := of_decide_eq_true hkeeps
      cases hin
    | _ => cases hkeeps
  rw [← filter_keepsVariant_iff, hblank, hkept]
  exact eq_comm

theorem ruledGrid_iff :
    review.ruledGrid = unlessEmpty review.approvedGrid <-> review.namesFit = true := by
  unfold namesFit
  by_cases hnames : proceedableVariantNames review.verdicts = []
  · rw [ruledGrid_of_no_names hnames]
    by_cases hlets : proceedable (collapseVerdicts (review.verdicts.map Prod.snd)) = true
    · -- the proposal goes through on blank names, with its whole grid
      have hblank : review.blankRuling = true := by
        unfold blankRuling
        rw [all_blank_iff.mpr hnames, hlets]
        rfl
      have happroved : review.approvedGrid = review.grid.filter review.nameless := by
        apply List.filter_congr
        intro item _
        exact approves_eq_nameless hblank item
      rw [if_pos hlets, if_pos hblank, happroved]
      unfold unlessEmpty
      constructor
      · intro h
        split at h
        · cases h
        rename_i hsome
        have hsame := Option.some.inj h
        rw [← hsame] at hsome
        rw [Bool.and_eq_true, Bool.not_eq_true', List.isEmpty_eq_false_iff, List.all_eq_true]
        exact ⟨hsome, List.filter_eq_self.mp hsame.symm⟩
      · intro h
        rw [Bool.and_eq_true, Bool.not_eq_true', List.isEmpty_eq_false_iff, List.all_eq_true] at h
        rw [List.filter_eq_self.mpr h.right, if_neg h.left]
    · have hblank : ¬ review.blankRuling = true := by
        unfold blankRuling
        rw [Bool.and_eq_true]
        exact fun h => hlets h.right
      rw [if_neg hlets, if_neg hblank, ← approvedGrid_eq_nil_iff hnames]
      unfold unlessEmpty
      constructor
      · intro h
        split at h
        · assumption
        · cases h
      · intro h
        rw [if_pos h]
  · have hblank : ¬ review.blankRuling = true := by
      unfold blankRuling
      rw [Bool.and_eq_true, all_blank_iff]
      exact fun h => hnames h.left
    rw [if_neg hblank, ruledGrid_of_names hnames, unlessEmpty_inj, filter_keepsVariant_iff]

/-!
## The verdicts decide the grid
-/

def plainSeeds : ExploreSeeds where
  keepThresholdPct := fun _ => .int 1
  exploreSearchCursor := .int 0
  offered := fun _ => false

theorem map_stampPredictor_plain (grid : List Json) :
    grid.map (stampPredictor plainSeeds) = grid := by
  apply List.map_id''
  intro item
  cases item with
  | _ => rfl

theorem taskOf_ne_none {seeds : ExploreSeeds} {grid : List Json}
    (h : denial (review.withGrid grid) = none) : review.taskOf denial seeds grid ≠ none := by
  unfold taskOf
  rw [h]
  exact Option.some_ne_none _

theorem decidesGrid_of_ruledGrid (h : review.ruledGrid = unlessEmpty review.approvedGrid) :
    review.DecidesGrid := by
  intro denial seeds s
  rw [taskParams_routing, h]
  unfold unlessEmpty
  by_cases hempty : review.approvedGrid = []
  · refine ⟨?_, ?_, fun hsome => absurd hempty hsome⟩
    · intro params hparams
      split at hparams
      · cases hparams
      · cases hparams
    · intro _
      split
      · rfl
      · rfl
  · rw [if_neg hempty]
    refine ⟨?_, fun hnone => absurd hnone hempty, ?_⟩
    · intro params hparams
      split at hparams
      · cases hparams
      · exact grid_taskOf hparams
    · intro _ hgeak hallowed
      rw [if_neg (by simp [hgeak])]
      exact taskOf_ne_none hallowed

theorem ruledGrid_of_decidesGrid (hgeak : isGeakReview review.params = false)
    (h : review.DecidesGrid) : review.ruledGrid = unlessEmpty review.approvedGrid := by
  have hopen := h (fun _ => none) plainSeeds ⟨EventLog.empty, Table.empty, [], .decided, none⟩
  rw [taskParams_routing, if_neg (by simp [hgeak]), map_stampPredictor_plain] at hopen
  rcases hopen with ⟨hgrid, hnone, hsome⟩
  unfold unlessEmpty
  cases hruled : review.ruledGrid with
  | none =>
    rw [hruled] at hsome
    by_cases hempty : review.approvedGrid = []
    · rw [if_pos hempty]
    · exact absurd rfl (hsome hempty hgeak rfl)
  | some grid =>
    rw [hruled] at hgrid hnone
    have htask : exists params, review.taskOf (fun _ => none) plainSeeds grid = some params :=
      Option.ne_none_iff_exists'.mp (taskOf_ne_none rfl)
    rcases htask with ⟨params, hparams⟩
    have hsame := hgrid params hparams
    rw [grid_taskOf hparams, map_stampPredictor_plain] at hsame
    cases hsame
    rw [if_neg]
    intro hempty
    have hgone := hnone hempty
    cases hgone

theorem decidesGrid_of_geak (hgeak : isGeakReview review.params = true) : review.DecidesGrid := by
  intro denial seeds s
  rw [taskParams_routing, if_pos hgeak]
  refine ⟨?_, fun _ => rfl, ?_⟩
  · nofun
  · intro _ hno
    rw [hgeak] at hno
    cases hno

end GridReview

end

namespace VerdictMapExample

def chunked : Json := .obj [("name", .str "chunked")]

def fused : Json := .obj [("name", .str "fused")]

def proposal : PendingProposal Rat where
  proposalMsgId := "9c02"
  fromAgent := "orchestration"
  actionName := "explore"
  predictedGainPct := 0
  payload := [("params", .obj [("grid", .arr [chunked, fused])])]

variable (verdicts : List (String × String))

def payload : Evidence :=
  [("target_proposal_msg_id", .str "9c02"), ("verdict_map", .obj (verdicts.map fun pair =>
      (pair.fst, .obj [("verdict", .str pair.snd)])))]

def review (haccepted : validateReviewVerdict openSession.py "critic" (payload verdicts) = .ok ())
    (hmap : verdictMap (payload verdicts) ≠ []) : GridReview Rat where
  rules := ⟨["specialist_quantitative_claim_violation"]⟩
  session := openSession
  source := "critic"
  pending := proposal
  payload := payload verdicts
  params := [("grid", .arr [chunked, fused])]
  grid := [chunked, fused]
  accepted := haccepted
  hasMap := hmap
  explores := rfl
  hasParams := rfl
  hasGrid := rfl

def plain : GridReview Rat :=
  review [("chunked", "approve"), ("fused", "reject")] (by decide +kernel) (by decide +kernel)

def spaced : GridReview Rat :=
  review [("chunked", "approve"), ("fused ", "approve")] (by decide +kernel) (by decide +kernel)

def blank : GridReview Rat :=
  review [("chunked", "reject"), ("fused", "reject"), (" ", "approve")]
    (by decide +kernel) (by decide +kernel)

def names (grid : List Json) : List String :=
  grid.map fun item =>
    match item with
    | .obj variant => variantName openSession.py variant
    | _ => ""

/-- The names in the grid of the task of a review, where no rule refuses
one. -/
def taskNames (review : GridReview Rat) : Option (List String) :=
  ((review.routing (fun _ => none) GridReview.plainSeeds).taskParams
    ⟨EventLog.empty, Table.empty, [], .decided, none⟩).bind fun params =>
      match field params "grid" with
      | some (.arr grid) => some (names grid)
      | _ => none

theorem not_decidesGrid {review : GridReview Rat} {found : List String}
    (htask : taskNames review = some found) (hother : found ≠ names review.approvedGrid) :
    ¬ review.DecidesGrid := by
  intro h
  rcases Option.bind_eq_some_iff.mp htask with ⟨params, hparams, hfound⟩
  rw [(h _ _ _).left params hparams, GridReview.map_stampPredictor_plain] at hfound
  exact hother (Option.some.inj hfound).symm

end VerdictMapExample

/-- The verdicts decide the grid exactly where their names fit; and what the
routing creates is a task with the parameters this is said of. -/
theorem verdict_map_decides_grid_iff {γ : Type} (review : GridReview γ) :
    (review.DecidesGrid <-> isGeakReview review.params = true ∨ review.namesFit = true) ∧
    (forall denial seeds s task, (review.routing denial seeds).machine.Reachable s ->
      s.stage = .created task ->
      exists before, (review.routing denial seeds).taskParams before = some task.params) := by
  constructor
  · constructor
    · intro h
      cases hgeak : isGeakReview review.params with
      | true => exact Or.inl rfl
      | false =>
        right
        apply GridReview.ruledGrid_iff.mp
        exact GridReview.ruledGrid_of_decidesGrid hgeak h
    · intro h
      rcases h with hgeak | hfit
      · exact GridReview.decidesGrid_of_geak hgeak
      · exact GridReview.decidesGrid_of_ruledGrid (GridReview.ruledGrid_iff.mpr hfit)
  · intro denial seeds s task hreach hstage
    exact Routing.taskParams_of_created hreach hstage

open VerdictMapExample in
theorem verdict_map_decides_grid_one_approved :
    names plain.approvedGrid = ["chunked"] ∧ plain.DecidesGrid := by
  constructor
  · decide +kernel
  · exact (verdict_map_decides_grid_iff plain).left.mpr (Or.inr (by decide +kernel))

open VerdictMapExample in
/-- An approved variant is missing from the task's grid, and rejected variants
are in one. -/
theorem verdicts_do_not_decide_grid :
    (names spaced.approvedGrid = ["chunked", "fused"] ∧
      taskNames spaced = some ["chunked"] ∧ ¬ spaced.DecidesGrid) ∧
    (blank.approvedGrid.isEmpty = true ∧
      taskNames blank = some ["chunked", "fused"] ∧ ¬ blank.DecidesGrid) := by
  have hspaced : taskNames spaced = some ["chunked"] := by decide +kernel
  have hblank : taskNames blank = some ["chunked", "fused"] := by
    decide +kernel
  exact ⟨⟨by decide +kernel, hspaced, not_decidesGrid hspaced (by decide +kernel)⟩,
    ⟨by decide +kernel, hblank, not_decidesGrid hblank (by decide +kernel)⟩⟩

end Loop
end Hyperloom
