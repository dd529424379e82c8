import Mathlib.Data.List.DropRight
import Mathlib.Data.List.Nodup

/-!
# Texts

What utils/tools.cpp does with texts, over characters of any kind: cutting a text at a separator, and trimming it.

`explodeString` stops at a limit; with no more parts than that it cuts at every separator (`explodeString_eq`).
-/

namespace Moonlight

namespace Texts

variable {α : Type} [DecidableEq α]

/-- `explodeString`, with a separator of one character. -/
def explodeString (separator : α) : (limit : Nat) → List α → List (List α)
  | 0, inString => [inString]
  | limit + 1, inString =>
    if separator ∈ inString then
      inString.take (inString.idxOf separator) ::
        explodeString separator limit (inString.drop (inString.idxOf separator + 1))
    else [inString]

def trim_left (t : α) (source : List α) : List α := source.dropWhile (· == t)

def trim_right (t : α) (source : List α) : List α := source.rdropWhile (· == t)

/-- `trimString`, whose character is the space. -/
def trimString (space : α) (str : List α) : List α := trim_left space (trim_right space str)

/-- `getFirstLine`. -/
def getFirstLine (newline : α) (str : List α) : List α := str.takeWhile (· != newline)

theorem idxOf_separator {separator : α} {before after : List α} (h : separator ∉ before) :
    (before ++ separator :: after).idxOf separator = before.length := by
  rw [List.idxOf_append_of_notMem h, List.idxOf_cons_self, Nat.add_zero]

omit [DecidableEq α] in
theorem drop_separator (separator : α) (before after : List α) :
    (before ++ separator :: after).drop (before.length + 1) = after := by
  rw [← List.drop_drop, List.drop_left, List.drop_succ_cons, List.drop_zero]

theorem explodeString_eq (separator : α) (limit : Nat) (inString : List α)
    (h : (inString.splitOn separator).length ≤ limit + 1) :
    explodeString separator limit inString = inString.splitOn separator := by
  induction limit generalizing inString with
  | zero =>
    rw [explodeString]
    by_cases hmem : separator ∈ inString
    · exfalso
      obtain ⟨before, after, rfl, hno⟩ := List.eq_append_cons_of_mem hmem
      rw [List.splitOn_append_cons_self_of_not_mem hno, List.length_cons] at h
      have hnone := Nat.le_zero.mp (Nat.le_of_succ_le_succ h)
      exact List.splitOn_ne_nil separator after (List.length_eq_zero_iff.mp hnone)
    · exact (List.splitOn_eq_singleton hmem).symm
  | succ limit ih =>
    rw [explodeString]
    split
    · rename_i hmem
      obtain ⟨before, after, rfl, hno⟩ := List.eq_append_cons_of_mem hmem
      rw [List.splitOn_append_cons_self_of_not_mem hno] at h ⊢
      rw [idxOf_separator hno, List.take_left, drop_separator, ih after (Nat.le_of_succ_le_succ h)]
    · rename_i hmem
      exact (List.splitOn_eq_singleton hmem).symm

theorem trim_left_eq_self {t : α} {source : List α} (h : source.head? ≠ some t) : trim_left t source = source := by
  cases source with
  | nil => rfl
  | cons c rest =>
    refine List.dropWhile_cons_of_neg fun heq => h ?_
    rw [List.head?_cons, beq_iff_eq.mp heq]

theorem trim_right_eq_self {t : α} {source : List α} (h : source.getLast? ≠ some t) :
    trim_right t source = source := by
  refine List.rdropWhile_eq_self_iff.mpr fun hne heq => h ?_
  rw [List.getLast?_eq_some_getLast hne, beq_iff_eq.mp heq]

theorem trimString_trimString (space : α) (str : List α) :
    trimString space (trimString space str) = trimString space str := by
  have hright : trim_right space (trimString space str) = trimString space str := by
    refine List.rdropWhile_eq_self_iff.mpr fun hne => ?_
    -- what is left at the end is the end of the text without its blanks
    have hsuffix : trimString space str <:+ trim_right space str := List.dropWhile_suffix _
    rw [hsuffix.getLast hne]
    exact List.rdropWhile_last_not (fun c => c == space) str _
  rw [trimString, hright]
  exact List.dropWhile_idempotent _ _

theorem length_trimString_le (space : α) (line : List α) : (trimString space line).length ≤ line.length :=
  (List.dropWhile_suffix _).length_le.trans (List.rdropWhile_prefix _ _).length_le

end Texts

end Moonlight
