import Hyperloom.Loop.Proposals

/-!
# The Critic's verdicts

What the policy accepts as a review verdict, the rule a verdict is held to, and
how the verdicts on the variants of a grid collapse into one ruling.
-/

namespace Hyperloom
namespace Loop

open Library Storage Bus State

section

variable {γ : Type} (py : Conversions γ)

/-- `str(payload.get(key) or "")`. -/
def textField (payload : Evidence) (key : String) : String :=
  match field payload key with
  | none => ""
  | some value => if truthy value then py.str value else ""

def statedVerdict (entry : Evidence) : String :=
  strip (textField py entry "verdict")

/-!
## What the policy accepts
-/

def allowedVerdicts : List String :=
  ["approve", "reject", "redirect", "advise", "needs_review"]

def reviewVerdictSources : List String := ["critic"]

/-- Why `_validate_review_verdict` denies a verdict, with what it names; an
entry that is no dictionary makes it raise. -/
inductive ReviewDenied where
  | source (role : String)
  | missingTarget
  | verdictForms
  | verdict (text : String)
  | variantVerdict (name text : String)
  | raised
deriving DecidableEq

def verdictMap (payload : Evidence) : Evidence :=
  match field payload "verdict_map" with
  | some (.obj entries) => entries
  | _ => []

def validateVariants : Evidence -> Except ReviewDenied Unit
  | [] => .ok ()
  | (name, entry) :: rest =>
    match orEmpty (some entry) with
    | none => .error .raised
    | some fields =>
      if statedVerdict py fields ∈ allowedVerdicts then
        validateVariants rest
      else .error (.variantVerdict name (statedVerdict py fields))

/-- `str(payload.get("target_proposal_msg_id", "")).strip()`. -/
def reviewTarget (payload : Evidence) : String :=
  match field payload "target_proposal_msg_id" with
  | none => ""
  | some value => strip (py.str value)

def validateReviewVerdict (role : String) (payload : Evidence) : Except ReviewDenied Unit :=
  if role ∉ reviewVerdictSources then .error (.source role)
  else if reviewTarget py payload = "" then .error .missingTarget
  else
    match field payload "verdict", verdictMap payload with
    | none, [] => .error .verdictForms
    | some _, _ :: _ => .error .verdictForms
    | some verdict, [] =>
      if strip (py.str verdict) ∈ allowedVerdicts then .ok ()
      else .error (.verdict (strip (py.str verdict)))
    | none, entries => validateVariants py entries

theorem verdict_eq_none_of_accepted {role : String} {payload : Evidence}
    (haccepted : validateReviewVerdict py role payload = .ok ())
    (hmap : verdictMap payload ≠ []) : field payload "verdict" = none := by
  unfold validateReviewVerdict at haccepted
  cases hverdict : field payload "verdict" with
  | none => rfl
  | some verdict =>
    cases hentries : verdictMap payload with
    | nil => exact absurd hentries hmap
    | cons first rest =>
      rw [hverdict, hentries] at haccepted
      split at haccepted
      · cases haccepted
      split at haccepted
      · cases haccepted
      · cases haccepted

/-!
## Holding a verdict to its rule
-/

/-- The reason codes of the rules that only ask for `advise`, sorted. -/
structure ReviewRules where
  advisoryCodes : List String

def advisoryRulesGovern (actionName : String) : Bool :=
  decide (strip actionName ∈ ["explore", "specialist"])

def backquote : Char := Char.ofNat 96

/-- The characters at which `splitlines` ends a line. -/
def lineBreak (c : Char) : Bool :=
  decide (c.toNat ∈ [10, 11, 12, 13, 28, 29, 30, 133, 8232, 8233])

def openingLine (text : String) : Option (List Char) :=
  (text.toList.splitOnP lineBreak).find? fun line => !line.all isSpace

def openingProseLines (entry : Evidence) : List (List Char) :=
  ["reasoning", "rationale"].filterMap fun key => openingLine (textField py entry key)

def dropBlanks (line : List Char) : List Char := line.dropWhile fun c => c = ' ' || c = '\t'

def dropQuote : List Char -> List Char
  | c :: rest => if c = backquote then rest else c :: rest
  | [] => []

def citesCode (line : List Char) (code : String) : Bool :=
  let opened := dropQuote (dropBlanks line)
  code.toList.isPrefixOf opened &&
    decide ((dropBlanks (dropQuote (opened.drop code.length))).head? = some ':')

variable (rules : ReviewRules)

def citedAdvisoryReasonCode (entry : Evidence) : String :=
  let explicit := strip (textField py entry "failure_reason_code")
  if explicit ≠ "" then
    if explicit ∈ rules.advisoryCodes then explicit else ""
  else
    ((openingProseLines py entry).findSome? fun line =>
      rules.advisoryCodes.find? (citesCode line)).getD ""

def statesFindings : Option Json -> Bool
  | none => false
  | some (.arr items) => items.any truthy
  | some value => truthy value

def verdictRestsOnOneGround (entry : Evidence) : Bool :=
  if statesFindings (field entry "required_evidence") then false
  else
    match field entry "risks" with
    | some (.arr risks) => decide ((risks.filter truthy).length ≤ 1)
    | risks => !statesFindings risks

def batchStatesFindings (payload : Evidence) : Bool :=
  ["required_evidence", "risks"].any fun key => statesFindings (field payload key)

def inheritableReasonCode (payload : Evidence) : String :=
  let code := strip (textField py payload "failure_reason_code")
  if code ∈ rules.advisoryCodes then "" else code

def verdictMapEntryGrounds (payload : Evidence) : Json -> Evidence
  | .obj entry =>
    let code := inheritableReasonCode py rules payload
    if (field entry "failure_reason_code").any truthy ∨ code = "" then entry
    else setField entry "failure_reason_code" (.str code)
  | _ => []

variable (actionName : String)

def verdictHeldToItsRule (entry : Evidence) : String :=
  let verdict := statedVerdict py entry
  if verdict ≠ "reject" then verdict
  else if !advisoryRulesGovern actionName then verdict
  else if !verdictRestsOnOneGround entry then verdict
  else if citedAdvisoryReasonCode py rules entry ≠ "" then "advise"
  else verdict

def verdictMapEntryHeldToItsRule (payload : Evidence) (entry : Json) : String :=
  let grounds := verdictMapEntryGrounds py rules payload entry
  if batchStatesFindings payload then statedVerdict py grounds
  else verdictHeldToItsRule py rules actionName grounds

def heldVerdictMap (payload : Evidence) : List (String × String) :=
  (verdictMap payload).map fun pair =>
    (pair.fst, verdictMapEntryHeldToItsRule py rules actionName payload pair.snd)

end

/-!
## Collapsing the verdicts on a grid
-/

def verdictCollapseOrder : List String :=
  ["approve", "reject", "advise", "needs_review"]

def collapseVerdicts (present : List String) : String :=
  (verdictCollapseOrder.find? fun verdict => verdict ∈ present).getD "needs_review"

/-- `verdict in _PROCEEDABLE_VERDICTS`. -/
def proceedable (verdict : String) : Bool :=
  decide (verdict ∈ ["approve", "advise"])

variable (held : List (String × String))

def proceedableVariants : List (String × String) :=
  held.filter fun pair => proceedable pair.snd && decide (strip pair.fst ≠ "")

def proceedableVariantNames : List String :=
  (proceedableVariants held).map Prod.fst

def collapseVerdictMap : String × Option (List String) :=
  if proceedableVariantNames held ≠ [] then
    (collapseVerdicts ((proceedableVariants held).map Prod.snd),
      some (proceedableVariantNames held))
  else (collapseVerdicts (held.map Prod.snd), none)

/-- The ruling `_handle_review_verdict` makes of a review of a pending
proposal. -/
def reviewRuling {γ : Type} (py : Conversions γ) (rules : ReviewRules)
    (actionName : String) (payload : Evidence) : CriticRuling :=
  let verdict := verdictHeldToItsRule py rules actionName payload
  let collapsed :=
    if verdict = "" ∧ verdictMap payload ≠ [] then
      collapseVerdictMap (heldVerdictMap py rules actionName payload)
    else (verdict, none)
  { verdict := collapsed.fst
    reasoning := textField py payload "reasoning"
    approvedVariantNames := collapsed.snd
    payload := payload }

theorem proceedable_eq_true {verdict : String} :
    proceedable verdict = true <-> verdict = "approve" ∨ verdict = "advise" := by
  unfold proceedable
  rw [decide_eq_true_eq, List.mem_cons, List.mem_singleton]

theorem letsThrough_iff {ruling : CriticRuling} :
    ruling.letsThrough = true <-> proceedable ruling.verdict = true := by
  unfold CriticRuling.letsThrough
  rw [proceedable_eq_true, Bool.or_eq_true, decide_eq_true_eq, decide_eq_true_eq]

theorem exists_of_collapse {present : List String}
    (h : proceedable (collapseVerdicts present) = true) :
    exists verdict, verdict ∈ present ∧ proceedable verdict = true := by
  unfold collapseVerdicts at h
  cases hfind : verdictCollapseOrder.find? fun verdict => decide (verdict ∈ present) with
  | none =>
    rw [hfind] at h
    exact absurd h (by decide)
  | some verdict =>
    rw [hfind] at h
    have hin := List.find?_some hfind
    exact ⟨verdict, of_decide_eq_true hin, h⟩

theorem collapse_of_all {present : List String} (hne : present ≠ [])
    (hall : forall verdict, verdict ∈ present -> proceedable verdict = true) :
    proceedable (collapseVerdicts present) = true := by
  unfold collapseVerdicts verdictCollapseOrder
  have hreject : "reject" ∉ present := by
    intro hin
    exact absurd (hall "reject" hin) (by decide)
  by_cases happrove : "approve" ∈ present
  · rw [List.find?_cons_of_pos (p := fun verdict => decide (verdict ∈ present))
      (decide_eq_true happrove)]
    decide
  · have hadvise : "advise" ∈ present := by
      rcases List.exists_mem_of_ne_nil present hne with ⟨verdict, hin⟩
      rcases proceedable_eq_true.mp (hall verdict hin) with heq | heq
      · exact absurd (heq ▸ hin) happrove
      · exact heq ▸ hin
    rw [List.find?_cons_of_neg (by simpa using happrove),
      List.find?_cons_of_neg (by simpa using hreject),
      List.find?_cons_of_pos (p := fun verdict => decide (verdict ∈ present))
        (decide_eq_true hadvise)]
    decide

theorem reviewRuling_of_map {γ : Type} {py : Conversions γ}
    {rules : ReviewRules} {actionName role : String} {payload : Evidence}
    (haccepted : validateReviewVerdict py role payload = .ok ()) (hmap : verdictMap payload ≠ []) :
    ((reviewRuling py rules actionName payload).verdict,
      (reviewRuling py rules actionName payload).approvedVariantNames) =
      collapseVerdictMap (heldVerdictMap py rules actionName payload) := by
  have hstated : statedVerdict py payload = "" := by
    unfold statedVerdict textField
    rw [verdict_eq_none_of_accepted py haccepted hmap]
    rfl
  have hsingle : verdictHeldToItsRule py rules actionName payload = "" := by
    unfold verdictHeldToItsRule
    rw [hstated]
    rfl
  unfold reviewRuling
  dsimp only
  rw [if_pos ⟨hsingle, hmap⟩]

end Loop
end Hyperloom
