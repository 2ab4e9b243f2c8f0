import Mathlib.Data.Countable.Basic
import Mathlib.Data.List.DropRight
import Mathlib.Logic.Equiv.List

/-!
# Files of lines

An append-only file of records, one line each.  A write may stop after any
prefix of its line, so a file is read as its complete lines and a torn tail.
What a line means is a format: a record's line has no newline, reads back as
the record, and no proper part of it reads back as anything.
-/

namespace Hyperloom
namespace Library

abbrev Text := List Char

/-!
## Lines
-/

variable (c : Char)

def pushChar : List Text × Text -> List Text × Text
  | (lines, tail) =>
    if c = '\n' then ([] :: lines, tail)
    else
      match lines with
      | [] => ([], c :: tail)
      | line :: lines => ((c :: line) :: lines, tail)

/-- The complete lines of a text and what follows the last newline. -/
def readLines : Text -> List Text × Text
  | [] => ([], [])
  | c :: rest => pushChar c (readLines rest)

variable (text : Text)

def completeLines : List Text := (readLines text).1

def tornTail : Text := (readLines text).2

/-- The text up to its last newline. -/
def wholeLines : Text := text.rdropWhile (· ≠ '\n')

theorem pushChar_append (lines : List Text) (tail part : Text) : pushChar c (lines, tail ++ part) =
      ((pushChar c (lines, tail)).1, (pushChar c (lines, tail)).2 ++ part) := by
  unfold pushChar
  by_cases hc : c = '\n'
  · simp [hc]
  · cases lines with
    | _ => simp [hc]

theorem pushChar_close (lines : List Text) (tail : Text) : pushChar c (lines ++ [tail], []) =
      ((pushChar c (lines, tail)).1 ++ [(pushChar c (lines, tail)).2], []) := by
  unfold pushChar
  by_cases hc : c = '\n'
  · simp [hc]
  · cases lines with
    | _ => simp [hc]

theorem readLines_plain {part : Text} (hplain : '\n' ∉ part) : readLines part = ([], part) := by
  induction part with
  | nil => rfl
  | cons c part ih =>
    have hc : c ≠ '\n' := by
      intro hc
      exact hplain (hc ▸ List.mem_cons_self)
    rw [readLines, ih fun hmem => hplain (List.mem_cons_of_mem _ hmem)]
    simp [pushChar, hc]

theorem readLines_append_plain {part : Text} (hplain : '\n' ∉ part) :
    readLines (text ++ part) = (completeLines text, tornTail text ++ part) := by
  induction text with
  | nil => exact readLines_plain hplain
  | cons c text ih =>
    rw [List.cons_append, readLines, ih, pushChar_append]
    rfl

theorem readLines_append_newline :
    readLines (text ++ ['\n']) = (completeLines text ++ [tornTail text], []) := by
  induction text with
  | nil => rfl
  | cons c text ih =>
    rw [List.cons_append, readLines, ih, pushChar_close]
    rfl

section

variable {text part : Text}

theorem completeLines_append_plain (hplain : '\n' ∉ part) :
    completeLines (text ++ part) = completeLines text := by
  rw [completeLines, readLines_append_plain text hplain]

theorem tornTail_append_plain (hplain : '\n' ∉ part) :
    tornTail (text ++ part) = tornTail text ++ part := by
  rw [tornTail, readLines_append_plain text hplain]

theorem completeLines_append_line (hplain : '\n' ∉ part) :
    completeLines (text ++ (part ++ ['\n'])) = completeLines text ++ [tornTail text ++ part] := by
  rw [← List.append_assoc, completeLines, readLines_append_newline,
    completeLines_append_plain hplain, tornTail_append_plain hplain]

theorem tornTail_append_line : tornTail (text ++ (part ++ ['\n'])) = [] := by
  rw [← List.append_assoc, tornTail, readLines_append_newline]

end

variable (text : Text)

theorem readLines_wholeLines : readLines (wholeLines text) = (completeLines text, []) := by
  unfold wholeLines
  -- From the end of the text, one character at a time.
  induction text using List.reverseRecOn with
  | nil => rfl
  | append_singleton text c ih =>
    by_cases hc : c = '\n'
    · rw [hc, List.rdropWhile_concat_neg _ _ _ (by simp),
        readLines_append_newline, completeLines.eq_1 (text ++ ['\n']), readLines_append_newline]
    · rw [List.rdropWhile_concat_pos _ _ _ (by simpa using hc), ih,
        completeLines_append_plain (by simpa using Ne.symm hc)]

theorem completeLines_wholeLines : completeLines (wholeLines text) = completeLines text := by
  rw [completeLines, readLines_wholeLines]

theorem tornTail_wholeLines : tornTail (wholeLines text) = [] := by
  rw [tornTail, readLines_wholeLines]

/-!
## Formats
-/

/-- How a record is written as a line and read back. -/
structure LineFormat (α : Type) where
  render : α -> Text
  parse : Text -> Option α
  plain : forall a, '\n' ∉ render a
  parse_render : forall a, parse (render a) = some a
  parse_cut : forall a part, part <+: render a -> part ≠ render a -> parse part = none

namespace LineFormat

variable {α : Type} (format : LineFormat α)

def line (a : α) : Text := format.render a ++ ['\n']

/-- The records of the complete lines; a line that does not read back is
skipped. -/
def records (text : Text) : List α :=
  (completeLines text).filterMap format.parse

/-- The records a reader finds that takes the last line as it is, ended or
not. -/
def rows (text : Text) : List α :=
  format.records text ++ if tornTail text = [] then [] else (format.parse (tornTail text)).toList

variable {format : LineFormat α} {text part : Text} {a : α}

theorem plain_of_part (h : part <+: format.render a) : '\n' ∉ part := by
  intro hmem
  exact format.plain a (h.subset hmem)

variable {b : α}

theorem render_ne_nil (hab : a ≠ b) : format.render a ≠ [] := by
  intro hnil
  have hparse := format.parse_render a
  by_cases hb : format.render b = []
  · rw [hnil, ← hb, format.parse_render b] at hparse
    exact hab (Option.some.inj hparse).symm
  · rw [hnil, format.parse_cut b [] List.nil_prefix (Ne.symm hb)] at hparse
    cases hparse

theorem prefix_line_cases (h : part <+: format.line a) :
    part <+: format.render a ∨ part = format.line a := by
  rcases List.prefix_concat_iff.mp h with hall | hpart
  · exact Or.inr hall
  · exact Or.inl hpart

theorem records_append_line (hwhole : tornTail text = []) (a : α) :
    format.records (text ++ format.line a) = format.records text ++ [a] := by
  rw [records, line, completeLines_append_line (format.plain a),
    List.filterMap_append, hwhole, List.nil_append, records]
  simp [format.parse_render a]

theorem tornTail_line (a : α) : tornTail (text ++ format.line a) = [] := tornTail_append_line

theorem records_append_part (h : part <+: format.render a) :
    format.records (text ++ part) = format.records text := by
  rw [records, completeLines_append_plain (plain_of_part h), records]

theorem records_wholeLines : format.records (wholeLines text) = format.records text := by
  rw [records, completeLines_wholeLines, records]

theorem rows_of_whole (hwhole : tornTail text = []) : format.rows text = format.records text := by
  rw [rows, if_pos hwhole, List.append_nil]

/-- Of a torn line a reader finds nothing, or the record of a line that lacks
only its newline. -/
theorem rows_of_torn (h : tornTail text <+: format.render a) :
    format.rows text = format.records text ∨
      (tornTail text = format.render a ∧ format.rows text = format.records text ++ [a]) := by
  by_cases hnil : tornTail text = []
  · exact Or.inl (rows_of_whole hnil)
  · by_cases hall : tornTail text = format.render a
    · right
      refine ⟨hall, ?_⟩
      rw [rows, if_neg hnil, hall, format.parse_render a]
      rfl
    · left
      rw [rows, format.parse_cut a _ h hall]
      simp

end LineFormat

/-!
## A format for every countable type
-/

namespace BracedLine

/-- A number between braces, in unary. -/
def braced (n : Nat) : Text := '{' :: (List.replicate n '1' ++ ['}'])

theorem newline_notMem (n : Nat) : '\n' ∉ braced n := by
  simp [braced]

/-- The number a line holds. -/
def number (text : Text) : Option Nat :=
  if text = braced (text.length - 2) then some (text.length - 2) else none

theorem number_braced (n : Nat) : number (braced n) = some n := by
  simp [number, braced]

theorem number_of_ne {text : Text} (h : forall n, text ≠ braced n) : number text = none :=
  if_neg (h _)

end BracedLine

open BracedLine in
/-- Each record is written as its number, those of a list first: their lines
and what is read from them can be computed. -/
noncomputable def LineFormat.numbering {α : Type} [DecidableEq α] [Countable α]
    (first : List α) : LineFormat α :=
  letI := Encodable.ofCountable α
  { render := fun a => braced (first.idxOf a + if a ∈ first then 0 else Encodable.encode a)
    parse := fun text => (number text).bind fun n =>
      first[n]?.or (Encodable.decode (n - first.length))
    plain := fun a => newline_notMem _
    parse_render := by
      intro a
      rw [number_braced, Option.bind_some]
      by_cases ha : a ∈ first
      · rw [if_pos ha, Nat.add_zero, List.getElem?_idxOf ha]
        rfl
      · rw [if_neg ha, List.idxOf_of_notMem ha, List.getElem?_eq_none (Nat.le_add_right _ _),
          Nat.add_sub_cancel_left]
        exact Encodable.encodek a
    parse_cut := by
      intro a part hprefix hne
      rw [number_of_ne]
      · rfl
      intro n hn
      -- Only the whole line closes its brace.
      change part <+: ('{' :: List.replicate _ '1') ++ ['}'] at hprefix
      rcases List.prefix_concat_iff.mp hprefix with hall | hpart
      · exact hne hall
      · have hclose := hpart.subset (hn ▸ (by simp [braced] : '}' ∈ braced n))
        simp at hclose }

instance countableString : Countable String := by
  apply Function.Injective.countable (f := fun s => s.toList.map Char.toNat)
  intro a b h
  apply String.toList_injective
  exact List.map_injective_iff.mpr (fun _ _ hc => Char.toNat_inj.mp hc) h

/-!
## What survives

Of a list of writes with whether each was acknowledged: every acknowledged
item, and any of the others, in their order.
-/

inductive Survives {α : Type} : List (α × Bool) -> List α -> Prop where
  | nil : Survives [] []
  | keep (a : α) (acknowledged : Bool) {writes : List (α × Bool)} {kept : List α} :
    Survives writes kept -> Survives ((a, acknowledged) :: writes) (a :: kept)
  | drop (a : α) {writes : List (α × Bool)} {kept : List α} :
    Survives writes kept -> Survives ((a, false) :: writes) kept

theorem Survives.append {α : Type} {first second : List (α × Bool)}
    {kept more : List α} (hfirst : Survives first kept) (hsecond : Survives second more) :
    Survives (first ++ second) (kept ++ more) := by
  induction hfirst with
  | nil => exact hsecond
  | keep a acknowledged _ ih => exact Survives.keep a acknowledged ih
  | drop a _ ih => exact Survives.drop a ih

end Library
end Hyperloom
