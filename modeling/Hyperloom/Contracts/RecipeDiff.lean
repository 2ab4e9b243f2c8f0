import Hyperloom.Library.Dict
import Hyperloom.Library.Whitespace
import Hyperloom.Blackboard.Records

/-!
# The difference of two recipes

`diff` compares what two recipes launch, the sets of their patches and the
digests of their kernels.  An explore whose recipe does not differ from its
parent's is refused.
-/

namespace Hyperloom
namespace Contracts

open Library

/-!
## Flags
-/

/-- A flag's parts, the latest value of a flag first. -/
abbrev FlagParts := List (String × List String)

/-- One token: a flag with its inline value, or a further part of the last. -/
def readToken : String × FlagParts -> String -> String × FlagParts
  | (flag, values), token =>
    if ['-', '-'].isPrefixOf token.toList then
      let name := String.ofList (token.toList.takeWhile (· ≠ '='))
      let inline := String.ofList ((token.toList.dropWhile (· ≠ '=')).drop 1)
      (name, (name, if inline = "" then [] else [inline]) :: values)
    else (flag, (flag, (values.lookup flag).getD [] ++ [token]) :: values)

/-- `_flag_values`, for server arguments split into tokens. -/
def flagValues (tokens : List String) : List (String × String) :=
  (tokens.foldl readToken ("", [])).2.map fun entry =>
    (entry.1, String.ofList ([' '].intercalate (entry.2.map String.toList)))

/-- `REMOVED`. -/
def removed : String := "<removed>"

structure LaunchConfig where
  serverArgs : List String := []
  envs : List (String × String) := []
  removeArgs : List String := []
  /-- Shell control characters are refused. -/
  safe : forall token, token ∈ serverArgs -> '<' ∉ token.toList
  /-- No option is both set and removed. -/
  apart : forall name, name ∈ removeArgs -> (flagValues serverArgs).lookup name = none

/-- `_launch_values`; a flag that is set comes before one that is removed. -/
def LaunchConfig.values (launch : LaunchConfig) : List (String × String) :=
  flagValues launch.serverArgs ++ launch.removeArgs.map (·, removed)

/-!
## Recipes
-/

/-- `_path`: a normal relative path below the root. -/
def underRoot (root path : String) : Bool :=
  let parts := path.toList.splitOn '/'
  strip path = path && !path.toList.contains '\\' && parts.head? = some root.toList &&
    2 ≤ parts.length && parts.all fun part => part ∉ [[], ['.'], ['.', '.']]

structure PatchRef where
  path : String
  sha256 : String
  rooted : underRoot "patch" path = true

structure ComponentPatches where
  component : String
  upstreamRef : String
  patches : List PatchRef := []
  paths : (patches.map PatchRef.path).Nodup

def ComponentPatches.stack (component : ComponentPatches) : List String :=
  component.patches.map PatchRef.sha256

inductive KernelKind where
  | gemm
  | fusion
  | rewrite
deriving DecidableEq

structure KernelArtifact (μ : Type) where
  kind : KernelKind
  target : String
  ref : String
  sha256 : String
  metadata : μ
  rooted : underRoot "kernel" ref = true
deriving DecidableEq

structure Recipe (μ : Type) where
  baseImageDigest : String
  launch : LaunchConfig
  components : List ComponentPatches := []
  kernels : List (KernelArtifact μ) := []
  runtimeSnapshot : Option String := none
  unexpressed : List String := []
  names : (components.map ComponentPatches.component).Nodup
  slots : (kernels.map fun artifact => (artifact.kind, artifact.target)).Nodup
  files : (kernels.map KernelArtifact.ref).Nodup

structure ValueChange where
  name : String
  before : Option String
  after : Option String

def valueChanges (before after : List (String × String)) : List ValueChange :=
  ((unionNames before after).filter fun name => before.lookup name ≠ after.lookup name).map
    fun name => ⟨name, before.lookup name, after.lookup name⟩

namespace Recipe

variable {μ : Type} (recipe : Recipe μ)

def component (name : String) : Option ComponentPatches :=
  recipe.components.find? fun component => component.component = name

/-- The patches of a component, in order. -/
def stack (name : String) : List String :=
  ((recipe.component name).map ComponentPatches.stack).getD []

def patchHashes : List String :=
  recipe.components.flatMap ComponentPatches.stack

def refs : List (String × String) :=
  recipe.components.map fun c => (c.component, c.upstreamRef)

def kernelHashes : List String := recipe.kernels.map KernelArtifact.sha256

end Recipe

structure RecipeDiff where
  args : List ValueChange
  envs : List ValueChange
  refs : List ValueChange
  patchesOnlyInFirst : List String
  patchesOnlyInSecond : List String
  kernelsOnlyInFirst : List String
  kernelsOnlyInSecond : List String
  baseImageChanged : Bool
  unexpressedOnlyInFirst : List String
  unexpressedOnlyInSecond : List String

def RecipeDiff.isEmpty (d : RecipeDiff) : Bool :=
  d.args.isEmpty && d.envs.isEmpty && d.refs.isEmpty && d.patchesOnlyInFirst.isEmpty &&
    d.patchesOnlyInSecond.isEmpty && d.kernelsOnlyInFirst.isEmpty &&
    d.kernelsOnlyInSecond.isEmpty && !d.baseImageChanged &&
    d.unexpressedOnlyInFirst.isEmpty && d.unexpressedOnlyInSecond.isEmpty

def onlyIn (first second : List String) : List String := first.filter (· ∉ second)

variable {μ : Type}

def diff (first second : Recipe μ) : RecipeDiff where
  args := valueChanges first.launch.values second.launch.values
  envs := valueChanges first.launch.envs second.launch.envs
  refs := valueChanges first.refs second.refs
  patchesOnlyInFirst := onlyIn first.patchHashes second.patchHashes
  patchesOnlyInSecond := onlyIn second.patchHashes first.patchHashes
  kernelsOnlyInFirst := onlyIn first.kernelHashes second.kernelHashes
  kernelsOnlyInSecond := onlyIn second.kernelHashes first.kernelHashes
  baseImageChanged := (first.baseImageDigest, first.runtimeSnapshot) ≠
    (second.baseImageDigest, second.runtimeSnapshot)
  unexpressedOnlyInFirst := onlyIn first.unexpressed second.unexpressed
  unexpressedOnlyInSecond := onlyIn second.unexpressed first.unexpressed

/-- `_check_explore_changes_the_parent` refuses. -/
def refusedAsUnchanged (purpose : Blackboard.Purpose) (parent candidate : Recipe μ) : Bool :=
  purpose = .explore && (diff parent candidate).isEmpty

/-- The two recipes are the same measured thing. -/
structure SameMeasured (a b : Recipe μ) : Prop where
  flags : forall name, (flagValues a.launch.serverArgs).lookup name =
    (flagValues b.launch.serverArgs).lookup name
  envs : forall name, a.launch.envs.lookup name = b.launch.envs.lookup name
  removals : forall name, name ∈ a.launch.removeArgs <-> name ∈ b.launch.removeArgs
  patches : forall name, a.stack name = b.stack name
  kernels : forall artifact, artifact ∈ a.kernels <-> artifact ∈ b.kernels

/-- What `diff` compares is the same in both. -/
structure SeenAlike (a b : Recipe μ) : Prop where
  flags : forall name, (flagValues a.launch.serverArgs).lookup name =
    (flagValues b.launch.serverArgs).lookup name
  envs : forall name, a.launch.envs.lookup name = b.launch.envs.lookup name
  removals : forall name, name ∈ a.launch.removeArgs <-> name ∈ b.launch.removeArgs
  refs : forall name, a.refs.lookup name = b.refs.lookup name
  patches : forall hash, hash ∈ a.patchHashes <-> hash ∈ b.patchHashes
  kernels : forall hash, hash ∈ a.kernelHashes <-> hash ∈ b.kernelHashes
  image : a.baseImageDigest = b.baseImageDigest ∧ a.runtimeSnapshot = b.runtimeSnapshot
  unexpressed : forall text, text ∈ a.unexpressed <-> text ∈ b.unexpressed

/-- The patches both have stand in the same components and the same order, and
a kernel file both have is loaded as the same artifact. -/
structure CommonAlike (a b : Recipe μ) : Prop where
  patches : forall name, (a.stack name).filter (· ∈ b.patchHashes) =
    (b.stack name).filter (· ∈ a.patchHashes)
  kernels : forall artifact, artifact.sha256 ∈ a.kernelHashes ->
    artifact.sha256 ∈ b.kernelHashes -> (artifact ∈ a.kernels <-> artifact ∈ b.kernels)

/-!
## Values
-/

theorem mem_intercalate {c : Char} {parts : List (List Char)}
    (h : c ∈ [' '].intercalate parts) (hc : c ≠ ' ') : exists part, part ∈ parts ∧ c ∈ part := by
  induction parts with
  | nil => nomatch h
  | cons first rest ih =>
    cases rest with
    | nil => exact ⟨first, .head _, by simpa [List.intercalate] using h⟩
    | cons second more =>
      change c ∈ first ++ ([' '] ++ [' '].intercalate (second :: more)) at h
      rcases List.mem_append.1 h with hfirst | hrest
      · exact ⟨first, .head _, hfirst⟩
      · rcases ih (by simpa [hc] using hrest) with ⟨part, hpart, hin⟩
        exact ⟨part, .tail _ hpart, hin⟩

/-- No part has the character that only the mark of a removal has. -/
def Plain (values : FlagParts) : Prop :=
  forall entry part, entry ∈ values -> part ∈ entry.2 -> '<' ∉ part.toList

theorem Plain.readToken {flag : String} {values : FlagParts} (h : Plain values) {token : String}
    (htoken : '<' ∉ token.toList) : Plain (readToken (flag, values) token).2 := by
  have hcons : forall {name parts}, (forall part, part ∈ parts -> '<' ∉ part.toList) ->
      Plain ((name, parts) :: values) := by
    intro name parts hparts entry part hentry hpart
    rcases List.mem_cons.1 hentry with rfl | hold
    · exact hparts part hpart
    · exact h entry part hold hpart
  simp only [Contracts.readToken]
  split
  · apply hcons
    intro part hpart
    split at hpart
    · nomatch hpart
    · rw [List.mem_singleton.1 hpart, String.toList_ofList]
      intro hin
      exact htoken ((List.dropWhile_suffix _).subset (List.mem_of_mem_drop hin))
  · apply hcons
    intro part hpart
    rcases List.mem_append.1 hpart with hold | hnew
    · cases hlook : values.lookup flag with
      | none => simp [hlook] at hold
      | some parts =>
        rw [hlook] at hold
        exact h (flag, parts) part (mem_of_lookup hlook) hold
    · exact List.mem_singleton.1 hnew ▸ htoken

theorem plain_foldl {tokens : List String}
    (htokens : forall token, token ∈ tokens -> '<' ∉ token.toList) :
    forall {acc : String × FlagParts}, Plain acc.2 -> Plain (tokens.foldl readToken acc).2 := by
  induction tokens with
  | nil => exact id
  | cons token rest ih =>
    intro (flag, values) hacc
    exact ih (fun t ht => htokens t (.tail _ ht)) (hacc.readToken (htokens token (.head _)))

variable (launch : LaunchConfig)

theorem LaunchConfig.value_ne_removed {name value : String}
    (h : (flagValues launch.serverArgs).lookup name = some value) : value ≠ removed := by
  rcases List.mem_map.1 (mem_of_lookup h) with ⟨entry, hentry, heq⟩
  intro hvalue
  have hin : '<' ∈ value.toList := by rw [hvalue]; decide
  rw [← (Prod.mk.inj heq).2, String.toList_ofList] at hin
  rcases mem_intercalate hin (by decide) with ⟨chars, hchars, hin⟩
  rcases List.mem_map.1 hchars with ⟨part, hpart, rfl⟩
  have hplain : Plain ([] : FlagParts) := fun _ _ hentry => nomatch hentry
  exact plain_foldl launch.safe hplain entry part hentry hpart hin

theorem lookup_removed (names : List String) (name : String) :
    (names.map (·, removed)).lookup name = if name ∈ names then some removed else none := by
  induction names with
  | nil => rfl
  | cons first rest ih =>
    by_cases h : name = first
    · simp [h]
    · simp [List.lookup_cons, beq_false_of_ne h, h, ih]

theorem LaunchConfig.lookup_flag {name value : String} :
    (flagValues launch.serverArgs).lookup name = some value <->
      launch.values.lookup name = some value ∧ value ≠ removed := by
  unfold values
  rw [List.lookup_append, lookup_removed]
  constructor
  · intro h
    exact ⟨by rw [h]; rfl, launch.value_ne_removed h⟩
  · intro h
    rcases h with ⟨h, hne⟩
    rcases Option.or_eq_some_iff.1 h with hflag | ⟨_, hremoved⟩
    · exact hflag
    · rw [Option.ite_none_right_eq_some] at hremoved
      exact absurd (Option.some.inj hremoved.2).symm hne

theorem LaunchConfig.mem_removeArgs {name : String} :
    name ∈ launch.removeArgs <-> launch.values.lookup name = some removed := by
  unfold values
  rw [List.lookup_append, lookup_removed]
  constructor
  · intro h
    rw [launch.apart name h, if_pos h]
    rfl
  · intro h
    rcases Option.or_eq_some_iff.1 h with hflag | ⟨_, hremoved⟩
    · exact absurd rfl (launch.value_ne_removed hflag)
    · rw [Option.ite_none_right_eq_some] at hremoved
      exact hremoved.1

theorem LaunchConfig.lookup_values_iff {one two : LaunchConfig} :
    (forall name, one.values.lookup name = two.values.lookup name) <->
      (forall name, (flagValues one.serverArgs).lookup name =
        (flagValues two.serverArgs).lookup name) ∧
      forall name, name ∈ one.removeArgs <-> name ∈ two.removeArgs := by
  constructor
  · intro h
    constructor
    · intro name
      apply Option.ext
      intro value
      rw [one.lookup_flag, two.lookup_flag, h]
    · intro name
      rw [one.mem_removeArgs, two.mem_removeArgs, h]
  · intro h name
    unfold values
    rw [List.lookup_append, List.lookup_append, lookup_removed, lookup_removed, h.1]
    simp only [h.2]

theorem valueChanges_eq_nil {before after : List (String × String)} :
    valueChanges before after = [] <-> forall name, before.lookup name = after.lookup name := by
  unfold valueChanges
  rw [List.map_eq_nil_iff, List.filter_eq_nil_iff]
  constructor
  · intro h name
    by_contra hne
    exact h name (mem_unionNames_of_lookup_ne hne) (decide_eq_true hne)
  · intro h name _ hne
    exact of_decide_eq_true hne (h name)

/-!
## Empty differences
-/

theorem onlyIn_eq_nil {first second : List String} :
    onlyIn first second = [] <-> forall x, x ∈ first -> x ∈ second := by
  unfold onlyIn
  rw [List.filter_eq_nil_iff]
  simp

theorem stack_subset (recipe : Recipe μ) (name : String) :
    recipe.stack name ⊆ recipe.patchHashes := by
  unfold Recipe.stack
  cases hfound : recipe.component name with
  | none => exact List.nil_subset _
  | some component =>
    intro hash hhash
    exact List.mem_flatMap.2 ⟨component, List.mem_of_find?_eq_some hfound, hhash⟩

variable {a b : Recipe μ}

theorem diff_isEmpty : (diff a b).isEmpty = true <-> SeenAlike a b := by
  simp only [RecipeDiff.isEmpty, diff, Bool.and_eq_true, List.isEmpty_iff, valueChanges_eq_nil,
    onlyIn_eq_nil, LaunchConfig.lookup_values_iff, Bool.not_eq_true', decide_eq_false_iff_not,
    not_not, Prod.mk.injEq, ne_eq]
  constructor
  · rintro ⟨⟨⟨⟨⟨⟨⟨⟨⟨hargs, henvs⟩, hrefs⟩, hpatches⟩, hpatches'⟩, hkernels⟩, hkernels'⟩, himage⟩,
      hrest⟩, hrest'⟩
    exact ⟨hargs.1, henvs, hargs.2, hrefs, fun x => ⟨hpatches x, hpatches' x⟩,
      fun x => ⟨hkernels x, hkernels' x⟩, himage, fun x => ⟨hrest x, hrest' x⟩⟩
  · intro h
    exact ⟨⟨⟨⟨⟨⟨⟨⟨⟨⟨h.flags, h.removals⟩, h.envs⟩, h.refs⟩, fun x => (h.patches x).1⟩,
      fun x => (h.patches x).2⟩, fun x => (h.kernels x).1⟩, fun x => (h.kernels x).2⟩, h.image⟩,
      fun x => (h.unexpressed x).1⟩, fun x => (h.unexpressed x).2⟩

/-- Of recipes that `diff` does not tell apart, those are the same measured
thing whose common patches and kernels are alike. -/
theorem SeenAlike.sameMeasured_iff (h : SeenAlike a b) : SameMeasured a b <-> CommonAlike a b := by
  have hfirst : forall name, (a.stack name).filter (· ∈ b.patchHashes) = a.stack name := fun name =>
    List.filter_eq_self.2 fun _ hx => decide_eq_true ((h.patches _).1 (stack_subset a name hx))
  have hsecond : forall name, (b.stack name).filter (· ∈ a.patchHashes) = b.stack name :=
    fun name =>
      List.filter_eq_self.2 fun _ hx => decide_eq_true ((h.patches _).2 (stack_subset b name hx))
  constructor
  · intro hsame
    refine ⟨?_, fun artifact _ _ => hsame.kernels artifact⟩
    intro name
    rw [hfirst, hsecond, hsame.patches name]
  · intro hcommon
    refine ⟨h.flags, h.envs, h.removals, ?_, ?_⟩
    · intro name
      rw [← hfirst, ← hsecond]
      exact hcommon.patches name
    · intro artifact
      constructor
      · intro hin
        have hhash : artifact.sha256 ∈ a.kernelHashes := List.mem_map_of_mem hin
        exact (hcommon.kernels artifact hhash ((h.kernels _).1 hhash)).1 hin
      · intro hin
        have hhash : artifact.sha256 ∈ b.kernelHashes := List.mem_map_of_mem hin
        exact (hcommon.kernels artifact ((h.kernels _).2 hhash) hhash).2 hin

theorem refused_iff {purpose : Blackboard.Purpose} :
    refusedAsUnchanged purpose a b = true <-> purpose = .explore ∧ SeenAlike a b := by
  rw [refusedAsUnchanged, Bool.and_eq_true, decide_eq_true_eq, diff_isEmpty]

/-- An empty difference means the same measured thing, and no request that
changes it is refused as unchanged, exactly where recipes alike in all that
`diff` compares have their common patches and kernels alike. -/
theorem unchanged_is_measured (a b : Recipe μ) :
    (((diff a b).isEmpty = true -> SameMeasured a b) <-> (SeenAlike a b -> CommonAlike a b)) ∧
      ((forall purpose, ¬ SameMeasured a b -> refusedAsUnchanged purpose a b = false) <->
        (SeenAlike a b -> CommonAlike a b)) := by
  constructor
  · rw [diff_isEmpty]
    exact forall_congr' SeenAlike.sameMeasured_iff
  · constructor
    · intro h hseen
      rw [← hseen.sameMeasured_iff]
      by_contra hdiffers
      have hrefused := refused_iff.2 ⟨rfl, hseen⟩
      rw [h .explore hdiffers] at hrefused
      cases hrefused
    · intro h purpose hdiffers
      rw [Bool.eq_false_iff]
      intro hrefused
      have hseen := (refused_iff.1 hrefused).2
      exact hdiffers (hseen.sameMeasured_iff.2 (h hseen))

def patch (path : String) (digit : Char) (rooted : underRoot "patch" path = true) : PatchRef :=
  ⟨path, String.ofList (List.replicate 64 digit), rooted⟩

def gemm (env : String) : KernelArtifact String :=
  ⟨.gemm, "gemm", "kernel/gemm.co", String.ofList (List.replicate 64 'c'), env, by decide +kernel⟩

def vllm (patches : List PatchRef) (paths : (patches.map PatchRef.path).Nodup) : ComponentPatches :=
  ⟨"vllm", String.ofList (List.replicate 40 'd'), patches, paths⟩

def sample (env : String) (components : List ComponentPatches)
    (names : (components.map ComponentPatches.component).Nodup) : Recipe String where
  baseImageDigest := "sha256:" ++ String.ofList (List.replicate 64 'e')
  launch := ⟨[], [], [], by simp, by simp⟩
  components := components
  kernels := [gemm env]
  names := names
  slots := List.nodup_singleton _
  files := List.nodup_singleton _

theorem added_patch_accepted :
    let added := patch "patch/a.patch" 'a' (by decide +kernel)
    let parent := sample "GEMM" [] (by decide)
    let candidate := sample "GEMM" [vllm [added] (by decide)] (by decide)
    refusedAsUnchanged .explore parent candidate = false := by
  intro added parent candidate
  refine (unchanged_is_measured parent candidate).2.2 ?_ .explore ?_
  · intro hseen
    exact absurd ((hseen.patches added.sha256).2 (by decide +kernel)) (by decide +kernel)
  · intro hsame
    exact absurd (hsame.patches "vllm") (by decide +kernel)

/-- An explore that loads a kernel through another variable, and one that puts
the same patches in another order, are refused as unchanged. -/
theorem changed_recipe_refused :
    let first := patch "patch/a.patch" 'a' (by decide +kernel)
    let second := patch "patch/b.patch" 'b' (by decide +kernel)
    let parent := sample "GEMM" [vllm [first, second] (by decide)] (by decide)
    let reloaded := sample "OTHER" [vllm [first, second] (by decide)] (by decide)
    let reordered := sample "GEMM" [vllm [second, first] (by decide)] (by decide)
    (refusedAsUnchanged .explore parent reloaded = true ∧ ¬ SameMeasured parent reloaded) ∧
      refusedAsUnchanged .explore parent reordered = true ∧ ¬ SameMeasured parent reordered := by
  intro first second parent reloaded reordered
  refine ⟨⟨by decide +kernel, ?_⟩, by decide +kernel, ?_⟩
  · intro hsame
    exact absurd ((hsame.kernels (gemm "GEMM")).1 (.head _)) (by decide +kernel)
  · intro hsame
    exact absurd (hsame.patches "vllm") (by decide +kernel)

end Contracts
end Hyperloom
