import Mathlib.Data.Finset.Insert
import Mathlib.Data.Multiset.Sort
import Mathlib.Data.String.Basic
import Hyperloom.Library.Dict

/-!
# The weights' precision along a chain of launches

Two launches are compared setting by setting.  A change of the load format or
of its loader's extra config counts only where one of the launches loads in
another format than those that differ in speed alone.
-/

namespace Hyperloom
namespace Toolbox

/-- What a launch gives one setting: its distinct values and, of two or more,
the one in effect. -/
structure PrecisionSetting where
  values : Finset (List String)
  inEffect : Option (List String) := none
deriving DecidableEq

/-- The settings a launch makes, by name. -/
abbrev PrecisionSettings := List (String × PrecisionSetting)

def speedOnlyLoadFormats : List String :=
  ["auto", "pt", "safetensors", "npcache", "fastsafetensors"]

def loadFormat : String := "--load-format"

def speedOnlyWhereLoadedSo : List String := [loadFormat, "--model-loader-extra-config"]

def shownValue (value : List String) : String :=
  let words := " ".intercalate (value.map fun word => if word = "" then "''" else word)
  if words = "" then "(on)" else words

def shown : Option PrecisionSetting -> String
  | none => "(not set)"
  | some setting =>
    let values := " | ".intercalate ((setting.values.val.map shownValue).sort (· ≤ ·))
    match setting.inEffect with
    | none => values
    | some value => values ++ " (" ++ shownValue value ++ " in effect)"

def isSpeedOnly : List String -> Bool
  | [word] => word.toLower ∈ speedOnlyLoadFormats
  | _ => false

/-- `_speed_only`, for one launch. -/
def speedOnly (launch : PrecisionSettings) : Bool :=
  match launch.lookup loadFormat with
  | none => true
  | some setting => decide (forall value, value ∈ setting.values -> isSpeedOnly value = true)

variable (old new : PrecisionSettings)

/-- Whether the comparison reports a setting. -/
def reports (name : String) : Bool :=
  old.lookup name ≠ new.lookup name &&
    !(speedOnlyWhereLoadedSo.contains name && [old, new].all speedOnly)

/-- `weight_precision_changes`, of the settings that `_settings` reads. -/
def weightPrecisionChanges : List String :=
  ((Library.unionNames old new).filter (reports old new)).map fun name =>
    name ++ ": " ++ shown (old.lookup name) ++ " -> " ++ shown (new.lookup name)

variable {a b c : PrecisionSettings} {name : String}

theorem changes_eq_nil_iff :
    weightPrecisionChanges a b = [] <-> forall name, reports a b name = false := by
  unfold weightPrecisionChanges
  rw [List.map_eq_nil_iff, List.filter_eq_nil_iff]
  constructor
  · intro h name
    by_cases hsame : a.lookup name = b.lookup name
    · simp [reports, hsame]
    · exact Bool.eq_false_iff.mpr (h name (Library.mem_unionNames_of_lookup_ne hsame))
  · intro h name _
    exact Bool.eq_false_iff.mp (h name)

theorem reports_eq_false : reports a b name = false <-> a.lookup name = b.lookup name ∨
      (name ∈ speedOnlyWhereLoadedSo ∧ speedOnly a = true ∧ speedOnly b = true) := by
  simp only [reports, Bool.and_eq_false_iff, decide_eq_false_iff_not, ne_eq, not_not,
    Bool.not_eq_false', Bool.and_eq_true, List.contains_iff_mem, List.all_cons, List.all_nil,
    Bool.and_true]

theorem speedOnly_congr (h : a.lookup loadFormat = b.lookup loadFormat) :
    speedOnly a = speedOnly b := by
  unfold speedOnly
  rw [h]

/-- The load format itself is one of the settings that may change: a launch
that loads for speed only stays among such launches. -/
theorem speedOnly_of_unchanged (h : weightPrecisionChanges a b = [])
    (ha : speedOnly a = true) : speedOnly b = true := by
  rcases reports_eq_false.mp (changes_eq_nil_iff.mp h loadFormat) with hsame | ⟨_, _, hb⟩
  · rw [← speedOnly_congr hsame]
    exact ha
  · exact hb

theorem unchanged_refl (a : PrecisionSettings) : weightPrecisionChanges a a = [] := by
  rw [changes_eq_nil_iff]
  intro name
  exact reports_eq_false.mpr (Or.inl rfl)

theorem unchanged_symm (h : weightPrecisionChanges a b = []) : weightPrecisionChanges b a = [] := by
  rw [changes_eq_nil_iff] at h ⊢
  intro name
  rcases reports_eq_false.mp (h name) with hsame | ⟨hname, ha, hb⟩
  · exact reports_eq_false.mpr (Or.inl hsame.symm)
  · exact reports_eq_false.mpr (Or.inr ⟨hname, hb, ha⟩)

theorem unchanged_trans (hab : weightPrecisionChanges a b = [])
    (hbc : weightPrecisionChanges b c = []) : weightPrecisionChanges a c = [] := by
  rw [changes_eq_nil_iff]
  intro name
  rcases reports_eq_false.mp (changes_eq_nil_iff.mp hab name) with hfirst | ⟨hname, ha, hb⟩
  · rcases reports_eq_false.mp (changes_eq_nil_iff.mp hbc name) with hsecond | ⟨hname, hb, hc⟩
    · exact reports_eq_false.mpr (Or.inl (hfirst.trans hsecond))
    · have ha := speedOnly_of_unchanged (unchanged_symm hab) hb
      exact reports_eq_false.mpr (Or.inr ⟨hname, ha, hc⟩)
  · exact reports_eq_false.mpr (Or.inr ⟨hname, ha, speedOnly_of_unchanged hbc hb⟩)

/-- Launches of one session, however their settings are read: to report no
change is an equivalence, and no chain of such launches drifts. -/
theorem precision_keeps_along_chain {launch : Type} (settings : launch -> PrecisionSettings) :
    Equivalence (fun before after =>
      weightPrecisionChanges (settings before) (settings after) = []) ∧
    forall (first : launch) (chain : List launch),
      List.IsChain (fun before after =>
        weightPrecisionChanges (settings before) (settings after) = []) (first :: chain) ->
      forall last, (first :: chain).getLast? = some last ->
        weightPrecisionChanges (settings first) (settings last) = [] := by
  refine ⟨⟨fun _ => unchanged_refl _, unchanged_symm, unchanged_trans⟩, ?_⟩
  intro first chain
  induction chain generalizing first with
  | nil =>
    intro _ last hlast
    cases hlast
    exact unchanged_refl _
  | cons next rest ih =>
    intro hchain last hlast
    rw [List.isChain_cons_cons] at hchain
    rw [List.getLast?_cons_cons] at hlast
    exact unchanged_trans hchain.left (ih next hchain.right last hlast)

/-- From one load format over none at all to another. -/
theorem load_format_changed_for_speed :
    weightPrecisionChanges [(loadFormat, ⟨{["safetensors"]}, none⟩)]
      [(loadFormat, ⟨{["PT"]}, none⟩)] = [] :=
  (precision_keeps_along_chain id).right _ [[], [(loadFormat, ⟨{["PT"]}, none⟩)]]
    (.cons_cons (by decide +kernel) (.cons_cons (by decide +kernel) (.singleton _))) _ rfl

end Toolbox
end Hyperloom
