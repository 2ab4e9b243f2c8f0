import Mathlib.Data.List.Sigma
import Mathlib.Data.String.Basic
import Mathlib.Data.Sum.Order
import Mathlib.Algebra.Order.Ring.Rat
import Hyperloom.Library.SeqLog

/-!
# The union of two kernel tables

Two tables of one variable become one table with one row to a shape, in the
numeric order of the shapes.
-/

namespace Hyperloom
namespace Toolbox

open Library

/-- `_Table`, with what `_read` checks of it. -/
structure KernelTable where
  header : List String
  rows : List (List String)
  columns : header.Nodup
  wide : forall row, row ∈ rows -> row.length = header.length

/-- How a cell is compared, and the finite `float` of a text. -/
structure CellReading where
  cell : String -> String
  float : String -> Option Rat

/-- A shape and its row. -/
abbrev ShapeRow := Sigma fun _ : List String => List String

inductive KernelRowsError where
  | mixed (firstOnly secondOnly : Bool)
  | columns (left right : List String)
  | noShapeKey
  | repeated (which : String) (shape : List (String × String))
  | conflict (shapes : List (List (String × String)))
deriving DecidableEq

variable (table : KernelTable) (reading : CellReading)

/-- The table's rows, each with its cells in the order of `header`. -/
def KernelTable.entries (header key : List String) : List ShapeRow :=
  table.rows.map fun original =>
    let row := header.map fun name => original.getD (table.header.idxOf name) ""
    ⟨key.map fun name => reading.cell (row.getD (header.idxOf name) ""), row⟩

/-- `_by_shape`. -/
def KernelTable.byShape (header key : List String)
    (which : String) : Except KernelRowsError (List ShapeRow) :=
  let shapes := (table.entries reading header key).keys
  if shapes.Nodup then .ok (table.entries reading header key)
  else
    let again := shapes.zipIdx.find? fun (shape, i) => shape ∈ shapes.take i
    .error (.repeated which (key.zip (again.elim [] Prod.fst)))

/-- A row is set as the new one, or as the smaller of the two. -/
def unite : List ShapeRow -> ShapeRow -> List ShapeRow
  | [], row => [row]
  | held :: rest, row =>
    if held.1 = row.1 then ⟨held.1, min held.2 row.2⟩ :: rest else held :: unite rest row

variable (reading : CellReading)

def shapeOrder (shape : List String) : List (Lex (Rat ⊕ String)) :=
  shape.map fun value => toLex ((reading.float value).elim (.inr value) .inl)

def inOrder (merged : List ShapeRow) : List ShapeRow :=
  merged.insertionSort fun a b => shapeOrder reading a.1 ≤ shapeOrder reading b.1

def conflicts (left right : List ShapeRow) : List ShapeRow :=
  right.filter fun row =>
    (left.dlookup row.1).any fun held => held.map reading.cell ≠ row.2.map reading.cell

/-- `union_rows`, of the key the install gives for a header: the header and the
rows with their shapes. -/
def unionRows (shapeKey : List String -> List String)
    (first second : KernelTable) (rowsOnly : Bool × Bool) :
    Except KernelRowsError (List String × List ShapeRow) :=
  let header := min first.header second.header
  let key := shapeKey header
  if rowsOnly.1 ≠ rowsOnly.2 then .error (.mixed rowsOnly.1 rowsOnly.2)
  else if ¬ (first.header ⊆ second.header ∧ second.header ⊆ first.header) then
    .error (.columns first.header second.header)
  else if key = [] then .error .noShapeKey
  else do
    let left <- first.byShape reading header key "first"
    let right <- second.byShape reading header key "second"
    -- A shape comes once in `right`, so what it meets is a row of `left`.
    let clashing := inOrder reading (conflicts reading left right)
    if clashing ≠ [] then .error (.conflict (clashing.map fun row => key.zip row.1))
    else .ok (header, inOrder reading (right.foldl unite left))

variable {left right : List ShapeRow} {reading : CellReading} {shape : List String}

theorem dlookup_unite (row : ShapeRow) :
    (unite left row).dlookup shape =
      if shape = row.1 then Option.merge min (left.dlookup shape) (some row.2)
      else left.dlookup shape := by
  rcases row with ⟨key, row⟩
  induction left with
  | nil =>
    by_cases hkey : shape = key
    · subst hkey
      simp [unite]
    · simp [unite, hkey, List.dlookup_cons_ne]
  | cons held rest ih =>
    rcases held with ⟨name, held⟩
    rw [unite]
    split
    · rename_i hkey
      cases hkey
      by_cases hname : shape = key
      · subst hname
        simp
      · simp [hname, List.dlookup_cons_ne]
    · rename_i hkey
      by_cases hname : shape = name
      · subst hname
        rw [if_neg hkey, List.dlookup_cons_eq, List.dlookup_cons_eq]
      · rw [List.dlookup_cons_ne _ _ hname, List.dlookup_cons_ne _ _ hname, ih]

theorem keys_unite (left : List ShapeRow) (row : ShapeRow) :
    (unite left row).keys = left.keys ++ if row.1 ∈ left.keys then [] else [row.1] := by
  induction left with
  | nil => rfl
  | cons held rest ih =>
    rw [unite]
    split
    · rename_i hkey
      simp [hkey]
    · rename_i hkey
      rw [List.keys_cons, List.keys_cons, ih]
      simp [Ne.symm hkey]

/-- The shapes of the second table that the first does not have. -/
def onlySecond (left right : List ShapeRow) : List (List String) :=
  right.keys.filter (· ∉ left.keys)

theorem keys_union (hright : right.NodupKeys) :
    (right.foldl unite left).keys = left.keys ++ onlySecond left right := by
  induction right generalizing left with
  | nil => simp [onlySecond]
  | cons row rest ih =>
    rw [List.nodupKeys_cons] at hright
    rw [List.foldl_cons, ih hright.right, keys_unite, List.append_assoc, onlySecond, onlySecond,
      List.keys_cons, List.filter_cons]
    have hrest : rest.keys.filter (fun shape => decide (shape ∉ (unite left row).keys)) =
        rest.keys.filter (· ∉ left.keys) := by
      apply List.filter_congr
      intro shape hshape
      have hne : shape ≠ row.1 := fun heq => hright.left (heq ▸ hshape)
      rw [keys_unite]
      split
      · simp
      · simp [hne]
    rw [hrest]
    split
    · rename_i hold
      simp [hold]
    · rename_i hnew
      simp [hnew]

theorem nodupKeys_union (hleft : left.NodupKeys) (hright : right.NodupKeys) :
    (right.foldl unite left).NodupKeys := by
  change List.Nodup _ at hleft hright ⊢
  rw [keys_union hright]
  refine List.nodup_append.mpr ⟨hleft, hright.filter _, ?_⟩
  intro shape hold other hnew heq
  exact of_decide_eq_true (List.mem_filter.mp hnew).right (heq ▸ hold)

theorem dlookup_union (hright : right.NodupKeys) :
    (right.foldl unite left).dlookup shape =
      Option.merge min (left.dlookup shape) (right.dlookup shape) := by
  induction right generalizing left with
  | nil => simp
  | cons row rest ih =>
    rw [List.nodupKeys_cons] at hright
    rw [List.foldl_cons, ih hright.right, dlookup_unite]
    split
    · rename_i hshape
      subst hshape
      rw [List.dlookup_eq_none.mpr hright.left, Option.merge_none_right]
      exact congrArg _ (List.dlookup_cons_eq rest row.1 row.2).symm
    · rename_i hshape
      rw [List.dlookup_cons_ne rest row hshape]

theorem conflicts_eq_nil (hright : right.NodupKeys) :
    conflicts reading left right = [] <-> forall shape held row, held ∈ left.dlookup shape ->
      row ∈ right.dlookup shape -> held.map reading.cell = row.map reading.cell := by
  unfold conflicts
  rw [List.filter_eq_nil_iff]
  constructor
  · intro h shape held row hheld hrow
    have hno := h _ ((List.mem_dlookup_iff hright).mp hrow)
    rw [Option.mem_def.mp hheld] at hno
    simpa using hno
  · intro h row hrow hclash
    rcases (Option.any_eq_true _ _).mp hclash with ⟨held, hheld, hne⟩
    exact of_decide_eq_true hne (h row.1 held row.2 hheld ((List.mem_dlookup_iff hright).mpr hrow))

section

variable (reading : CellReading) (shapeKey : List String -> List String)

/-- The union is made, under a header. -/
structure Unites (a b : KernelTable) (rowsOnly : Bool × Bool) (header : List String) : Prop where
  only : rowsOnly.1 = rowsOnly.2
  columns : a.header ⊆ b.header ∧ b.header ⊆ a.header
  first : header = min a.header b.header
  key : shapeKey header ≠ []
  left : (a.entries reading header (shapeKey header)).NodupKeys
  right : (b.entries reading header (shapeKey header)).NodupKeys
  agree : forall shape held row,
    held ∈ (a.entries reading header (shapeKey header)).dlookup shape ->
    row ∈ (b.entries reading header (shapeKey header)).dlookup shape ->
    held.map reading.cell = row.map reading.cell

end

variable {shapeKey : List String -> List String} {a b : KernelTable} {rowsOnly : Bool × Bool}
  {header : List String} {rows : List ShapeRow}

theorem unionRows_eq_ok :
    unionRows reading shapeKey a b rowsOnly = .ok (header, rows) <->
      Unites reading shapeKey a b rowsOnly header ∧
      rows = inOrder reading ((b.entries reading header (shapeKey header)).foldl unite
        (a.entries reading header (shapeKey header))) := by
  have hsort : forall rows, inOrder reading rows = [] <-> rows = [] := by
    intro rows
    rw [← List.length_eq_zero_iff, inOrder, List.length_insertionSort, List.length_eq_zero_iff]
  unfold unionRows KernelTable.byShape
  constructor
  · intro h
    dsimp only at h
    split at h
    · cases h
    rename_i honly
    split at h
    · cases h
    rename_i hcolumns
    split at h
    · cases h
    rename_i hkey
    split at h
    · rename_i hleft
      split at h
      · rename_i hright
        change (if _ then _ else _) = _ at h
        split at h
        · cases h
        rename_i hclash
        cases h
        rw [not_not, hsort, conflicts_eq_nil hright] at hclash
        exact ⟨⟨not_not.mp honly, not_not.mp hcolumns, rfl, hkey, hleft, hright, hclash⟩, rfl⟩
      · cases h
    · cases h
  · intro h
    rcases h with ⟨⟨honly, hcolumns, rfl, hkey, hleft, hright, hagree⟩, rfl⟩
    have hclash := (hsort _).mpr ((conflicts_eq_nil hright).mpr hagree)
    change List.Nodup _ at hleft hright
    dsimp only
    rw [if_neg (not_not.mpr honly), if_neg (not_not.mpr hcolumns), if_neg hkey, if_pos hleft,
      if_pos hright]
    exact if_neg (not_not.mpr hclash)

theorem merge_min_comm (x y : Option (List String)) :
    Option.merge min x y = Option.merge min y x := by
  cases x <;> cases y <;> simp [min_comm]

def KernelTable.Reordered (a b : KernelTable) : Prop := b.header = a.header ∧ b.rows.Perm a.rows

theorem KernelTable.Reordered.entries {key : List String} (h : a.Reordered b) :
    (b.entries reading header key).Perm (a.entries reading header key) := by
  unfold KernelTable.entries
  rw [h.left]
  exact h.right.map _

theorem Unites.swap (h : Unites reading shapeKey a b rowsOnly header) :
    Unites reading shapeKey b a rowsOnly.swap header where
  only := h.only.symm
  columns := h.columns.symm
  first := h.first.trans (min_comm _ _)
  key := h.key
  left := h.right
  right := h.left
  agree shape held row hheld hrow := (h.agree shape row held hrow hheld).symm

theorem Unites.reorder {c d : KernelTable} (h : Unites reading shapeKey a b rowsOnly header)
    (hc : a.Reordered c) (hd : b.Reordered d) : Unites reading shapeKey c d rowsOnly header where
  __ := h
  columns := hc.left ▸ hd.left ▸ h.columns
  first := hc.left ▸ hd.left ▸ h.first
  left := (List.perm_nodupKeys hc.entries).mpr h.left
  right := (List.perm_nodupKeys hd.entries).mpr h.right
  agree := by
    intro shape held row hheld hrow
    rw [← List.perm_dlookup shape h.left hc.entries.symm] at hheld
    rw [← List.perm_dlookup shape h.right hd.entries.symm] at hrow
    exact h.agree shape held row hheld hrow

theorem perm_inOrder (reading : CellReading) (rows : List ShapeRow) :
    (inOrder reading rows).Perm rows :=
  List.perm_insertionSort _ rows

/-- No two shapes come at the same place. -/
def Untied (reading : CellReading) (shapes : List (List String)) : Prop :=
  forall shape tied, shape ∈ shapes -> tied ∈ shapes ->
    shapeOrder reading shape = shapeOrder reading tied -> shape = tied

variable (table : KernelTable)

def KernelTable.reversed : KernelTable where
  header := table.header
  rows := table.rows.reverse
  columns := table.columns
  wide := fun row hrow => table.wide row (List.mem_reverse.mp hrow)

theorem KernelTable.reordered_reversed : table.Reordered table.reversed :=
  ⟨rfl, List.reverse_perm _⟩

theorem KernelTable.keys_reversed {key : List String} :
    (a.reversed.entries reading header key).keys = (a.entries reading header key).keys.reverse := by
  unfold entries reversed List.keys
  rw [List.map_reverse, List.map_reverse]

theorem eq_of_eq_reverse {α : Type} {l : List α} (hnodup : l.Nodup) (h : l = l.reverse) {x y : α}
    (hx : x ∈ l) (hy : y ∈ l) : x = y := by
  match l with
  | [] => cases hx
  | [z] => rw [List.mem_singleton.mp hx, List.mem_singleton.mp hy]
  | z :: w :: rest =>
    -- The first is the last, which stands behind it.
    have hlast : (w :: rest).getLast? = some z := by
      have hfirst := congrArg List.head? h
      rw [List.head?_reverse, List.getLast?_cons_cons] at hfirst
      exact hfirst.symm
    exact absurd (List.mem_of_getLast? hlast) (List.nodup_cons.mp hnodup).left

section

variable {left' right' : List ShapeRow}

/-- Unions that sort alike have the tied shapes in the same order. -/
theorem filter_keys_of_inOrder (hright : right.NodupKeys) (hright' : right'.NodupKeys)
    (h : inOrder reading (right'.foldl unite left') = inOrder reading (right.foldl unite left))
    (place : List (Lex (Rat ⊕ String))) :
    (left'.keys ++ onlySecond left' right').filter (shapeOrder reading · = place) =
      (left.keys ++ onlySecond left right).filter (shapeOrder reading · = place) := by
  have hsame := congrArg List.keys (insertionSort_eq_iff.mp h place)
  rw [← keys_union hright, ← keys_union hright']
  simpa only [List.keys, List.filter_map, Function.comp_def] using hsame

/-- In a union the shapes of the first table come first. -/
theorem pairwise_union (left : List ShapeRow) (hright : right.NodupKeys) :
    (right.foldl unite left).Pairwise fun one two => two.1 ∈ left.keys -> one.1 ∈ left.keys := by
  have hkeys : ((right.foldl unite left).keys).Pairwise fun one two =>
      two ∈ left.keys -> one ∈ left.keys := by
    rw [keys_union hright, List.pairwise_append]
    refine ⟨?_, ?_, ?_⟩
    · exact List.pairwise_of_forall_mem_list fun one hone _ _ _ => hone
    · apply List.pairwise_of_forall_mem_list
      intro one _ two htwo hin
      exact absurd hin (of_decide_eq_true (List.mem_filter.mp htwo).right)
    · intro one hone _ _ _
      exact hone
  exact List.pairwise_map.mp hkeys

end

/-- Two unions that set each shape alike have the same rows, in the same order
where no two shapes of the first table tie and no two that only the second
has. -/
theorem inOrder_alike (reading : CellReading) {left' right' : List ShapeRow}
    (hleft : left.NodupKeys) (hright : right.NodupKeys) (hleft' : left'.NodupKeys)
    (hright' : right'.NodupKeys)
    (h : forall shape, (right'.foldl unite left').dlookup shape =
      (right.foldl unite left).dlookup shape) :
    (inOrder reading (right'.foldl unite left')).Perm (inOrder reading (right.foldl unite left)) ∧
      ((forall shape, shape ∈ left'.keys <-> shape ∈ left.keys) -> Untied reading left.keys ->
        Untied reading (onlySecond left right) ->
        inOrder reading (right'.foldl unite left') = inOrder reading (right.foldl unite left)) := by
  have hnodup := nodupKeys_union hleft hright
  have hperm : (right'.foldl unite left').Perm (right.foldl unite left) :=
    List.lookup_ext (nodupKeys_union hleft' hright') hnodup fun shape _ => by rw [h shape]
  refine ⟨((perm_inOrder reading _).trans hperm).trans (perm_inOrder reading _).symm, ?_⟩
  intro hsame hfirst hsecond
  apply insertionSort_eq_iff.mpr
  intro place
  have hfiltered := (pairwise_union left' hright').filter
    (fun row => shapeOrder reading row.1 = place)
  simp only [hsame] at hfiltered
  refine (hperm.filter _).eq_of_pairwise ?_ hfiltered ((pairwise_union left hright).filter _)
  intro one two hone htwo hle hge
  rcases List.mem_filter.mp (((hperm.filter _).subset hone)) with ⟨hone, hplace⟩
  rcases List.mem_filter.mp htwo with ⟨htwo, hplace'⟩
  have htie : shapeOrder reading one.1 = shapeOrder reading two.1 :=
    (of_decide_eq_true hplace).trans (of_decide_eq_true hplace').symm
  have hkey : forall row, row ∈ right.foldl unite left -> row.1 ∉ left.keys ->
      row.1 ∈ onlySecond left right := by
    intro row hrow hnot
    have hin := List.mem_keys_of_mem hrow
    rw [keys_union hright] at hin
    exact (List.mem_append.mp hin).resolve_left hnot
  refine hnodup.eq_of_fst_eq hone htwo ?_
  by_cases hin : one.1 ∈ left.keys
  · exact hfirst _ _ hin (hge hin) htie
  · exact hsecond _ _ (hkey one hone hin) (hkey two htwo fun h => hin (hle h)) htie

theorem untied_of_reverse {shapes : List (List String)} (before after : List (List String))
    (hnodup : shapes.Nodup)
    (h : forall place, (before ++ shapes.reverse ++ after).filter (shapeOrder reading · = place) =
      (before ++ shapes ++ after).filter (shapeOrder reading · = place)) :
    Untied reading shapes := by
  intro shape tied hshape htied htie
  have hclass := h (shapeOrder reading shape)
  simp only [List.filter_append, List.filter_reverse, List.append_cancel_right_eq,
    List.append_cancel_left_eq] at hclass
  refine eq_of_eq_reverse (hnodup.filter _) hclass.symm (List.mem_filter.mpr ⟨hshape, by simp⟩)
    (List.mem_filter.mpr ⟨htied, by simp [htie]⟩)

/-- For every reading of cells and numbers: the union has the shapes of both
tables, each once and with the smaller of its rows; swapped and reordered
tables give the same rows.  They come in the same order whatever the order in
the tables exactly if no two shapes of the first table tie, and no two that
only the second has. -/
theorem union_rows_order_free {rows : List ShapeRow}
    (h : unionRows reading shapeKey a b rowsOnly = .ok (header, rows)) :
    let left := a.entries reading header (shapeKey header)
    let right := b.entries reading header (shapeKey header)
    rows.NodupKeys ∧
    (forall shape, shape ∈ rows.keys <-> shape ∈ left.keys ∨ shape ∈ right.keys) ∧
    (forall shape, rows.dlookup shape =
      Option.merge min (left.dlookup shape) (right.dlookup shape)) ∧
    (exists swapped, unionRows reading shapeKey b a rowsOnly.swap = .ok (header, swapped) ∧
      swapped.Perm rows) ∧
    (forall c d : KernelTable, a.Reordered c -> b.Reordered d ->
      exists other, unionRows reading shapeKey c d rowsOnly = .ok (header, other) ∧
        other.Perm rows) ∧
    ((forall c d : KernelTable, a.Reordered c -> b.Reordered d ->
        unionRows reading shapeKey c d rowsOnly = .ok (header, rows)) <->
      Untied reading left.keys ∧ Untied reading (onlySecond left right)) := by
  intro left right
  rcases unionRows_eq_ok.mp h with ⟨hunites, rfl⟩
  have hnodup : (right.foldl unite left).NodupKeys := nodupKeys_union hunites.left hunites.right
  have hrows := (List.perm_nodupKeys (perm_inOrder reading (right.foldl unite left))).mpr hnodup
  have hlookup : forall shape, (inOrder reading (right.foldl unite left)).dlookup shape =
      Option.merge min (left.dlookup shape) (right.dlookup shape) := by
    intro shape
    rw [List.perm_dlookup shape hrows (perm_inOrder reading _), dlookup_union hunites.right]
  have hreorder : forall c d : KernelTable, a.Reordered c -> b.Reordered d ->
      exists other, unionRows reading shapeKey c d rowsOnly = .ok (header, other) ∧
        other.Perm (inOrder reading (right.foldl unite left)) ∧
        (Untied reading left.keys -> Untied reading (onlySecond left right) ->
          other = inOrder reading (right.foldl unite left)) := by
    intro c d hc hd
    have hother := hunites.reorder hc hd
    have halike := inOrder_alike reading hunites.left hunites.right hother.left hother.right ?_
    · refine ⟨_, unionRows_eq_ok.mpr ⟨hother, rfl⟩, halike.left, halike.right ?_⟩
      intro shape
      exact (hc.entries.map Sigma.fst).mem_iff
    · intro shape
      rw [dlookup_union hother.right, dlookup_union hunites.right,
        List.perm_dlookup shape hother.left hc.entries,
        List.perm_dlookup shape hother.right hd.entries]
  refine ⟨hrows, ?_, hlookup, ?_, ?_, ?_⟩
  · intro shape
    rw [← List.dlookup_isSome, ← List.dlookup_isSome, ← List.dlookup_isSome, hlookup]
    simp
  · refine ⟨_, unionRows_eq_ok.mpr ⟨hunites.swap, rfl⟩, ?_⟩
    refine (inOrder_alike reading hunites.left hunites.right hunites.right hunites.left ?_).left
    intro shape
    rw [dlookup_union hunites.left, dlookup_union hunites.right, merge_min_comm]
  · intro c d hc hd
    rcases hreorder c d hc hd with ⟨other, hother, hperm, _⟩
    exact ⟨other, hother, hperm⟩
  · constructor
    · intro hall
      constructor
      · have hfirst := hall _ b a.reordered_reversed ⟨rfl, .refl _⟩
        rcases unionRows_eq_ok.mp hfirst with ⟨hother, hsame⟩
        have hclasses := filter_keys_of_inOrder hunites.right hother.right hsame.symm
        have honly : onlySecond (a.reversed.entries reading header (shapeKey header)) right =
            onlySecond left right := by
          simp [onlySecond, KernelTable.keys_reversed, left]
        rw [KernelTable.keys_reversed, honly] at hclasses
        exact untied_of_reverse [] _ hunites.left hclasses
      · have hsecond := hall a _ ⟨rfl, .refl _⟩ b.reordered_reversed
        rcases unionRows_eq_ok.mp hsecond with ⟨hother, hsame⟩
        have hclasses := filter_keys_of_inOrder hunites.right hother.right hsame.symm
        have honly : onlySecond left (b.reversed.entries reading header (shapeKey header)) =
            (onlySecond left right).reverse := by
          rw [onlySecond, KernelTable.keys_reversed, List.filter_reverse, onlySecond]
        rw [honly] at hclasses
        refine untied_of_reverse left.keys [] (hunites.right.filter _) ?_
        simpa using hclasses
    · intro huntied c d hc hd
      rcases hreorder c d hc hd with ⟨other, hother, _, hsame⟩
      rw [hother, hsame huntied.left huntied.right]

/-!
## Numbers a double does not tell apart
-/

/-- `float` of an integer: the nearest double, of two the even one. -/
def toDouble (n : Nat) : Nat :=
  let unit := 2 ^ (n.log2 - 52)
  let below := n / unit
  unit * if unit < 2 * (n % unit) ∨ unit = 2 * (n % unit) ∧ below % 2 = 1 then below + 1 else below

def decimal (text : String) : Option Nat :=
  if text = "" ∨ text.toList.any (!·.isDigit) then none
  else some (text.toList.foldl (fun n c => 10 * n + (c.toNat - '0'.toNat)) 0)

/-- Cells of decimal digits, as they are read. -/
def decimals : CellReading where
  cell text :=
    match decimal text, text.toList.dropWhile (· = '0') with
    | none, _ => text
    | some _, [] => "0"
    | some _, digits => String.ofList digits
  float text := (decimal text).map fun n => toDouble n

def oneColumn (cells : List String) : KernelTable where
  header := ["M"]
  rows := cells.map fun cell => [cell]
  columns := List.nodup_singleton "M"
  wide := by simp

/-- Of two tied shapes the one that comes first in its table is written
first. -/
theorem tied_shapes_in_row_order :
    exists a b c : KernelTable, a.Reordered c ∧ exists rows other,
      unionRows decimals id a b (false, false) = .ok (["M"], rows) ∧
      unionRows decimals id c b (false, false) = .ok (["M"], other) ∧
      rows.map Sigma.snd = [["9007199254740992"], ["9007199254740993"]] ∧
      other.map Sigma.snd = [["9007199254740993"], ["9007199254740992"]] := by
  refine ⟨oneColumn ["9007199254740992", "9007199254740993"], oneColumn [],
    oneColumn ["9007199254740993", "9007199254740992"], ⟨rfl, .swap ..⟩,
    [⟨["9007199254740992"], ["9007199254740992"]⟩, ⟨["9007199254740993"], ["9007199254740993"]⟩],
    [⟨["9007199254740993"], ["9007199254740993"]⟩, ⟨["9007199254740992"], ["9007199254740992"]⟩],
    by decide +kernel, by decide +kernel, rfl, rfl⟩

/-- A shape that both tables have, written in two ways, comes once. -/
theorem shape_of_both_kept_once :
    exists swapped, unionRows decimals id (oneColumn ["64"]) (oneColumn ["8", "064"])
        (true, true) = .ok (["M"], swapped) ∧
      swapped.Perm [⟨["8"], ["8"]⟩, ⟨["64"], ["064"]⟩] := by
  have h : unionRows decimals id (oneColumn ["8", "064"]) (oneColumn ["64"]) (true, true) =
      .ok (["M"], [⟨["8"], ["8"]⟩, ⟨["64"], ["064"]⟩]) := by
    decide +kernel
  exact (union_rows_order_free h).2.2.2.1

end Toolbox
end Hyperloom
