import Mathlib.Order.Lattice

/-!
# Scans for the best

A scan goes through a list and keeps the element with the least key so far, together with that key. It starts with a
choice and a value. If the value is the key of the choice, the scan ends with a least element of all (`scan_least`). If
it is not, the first choice is only given up for an element below the value: the scan is right about the elements that
it looks at, and knows nothing about the one it starts with (`scan_eq_start`, `scan_beats`).
-/

namespace Scan

variable {α β : Type*} [LinearOrder β]

/-- A choice, and the value to fall below. -/
abbrev Best (α β : Type*) := α × β

def look (key : α → β) (best : Best α β) (a : α) : Best α β := if key a < best.2 then (a, key a) else best

def scan (key : α → β) (start : Best α β) (l : List α) : Best α β := l.foldl (look key) start

variable {key : α → β} {start : Best α β} {l : List α}

theorem scan_le (key : α → β) (start : Best α β) (l : List α) :
    (scan key start l).2 ≤ start.2 ∧ ∀ a ∈ l, (scan key start l).2 ≤ key a := by
  induction l generalizing start with
  | nil => exact ⟨le_rfl, List.forall_mem_nil _⟩
  | cons b l ih =>
    have hlook : (look key start b).2 ≤ start.2 ∧ (look key start b).2 ≤ key b := by
      rw [look]
      split
      · rename_i hlt
        exact ⟨hlt.le, le_rfl⟩
      · rename_i hge
        exact ⟨le_rfl, not_lt.mp hge⟩
    obtain ⟨hstart, hall⟩ := ih (look key start b)
    exact ⟨hstart.trans hlook.1, List.forall_mem_cons.mpr ⟨hstart.trans hlook.2, hall⟩⟩

theorem scan_start_or_mem (key : α → β) (start : Best α β) (l : List α) :
    scan key start l = start ∨ ∃ a ∈ l, key a < start.2 ∧ scan key start l = (a, key a) := by
  induction l generalizing start with
  | nil => exact Or.inl rfl
  | cons b l ih =>
    by_cases hlt : key b < start.2
    · have hlook : look key start b = (b, key b) := if_pos hlt
      refine Or.inr ?_
      rw [scan, List.foldl_cons, hlook]
      rcases ih (b, key b) with heq | ⟨a, ha, hbelow, heq⟩
      · exact ⟨b, List.mem_cons_self, hlt, heq⟩
      · exact ⟨a, List.mem_cons_of_mem b ha, hbelow.trans hlt, heq⟩
    · have hlook : look key start b = start := if_neg hlt
      rw [scan, List.foldl_cons, hlook]
      refine (ih start).imp_right ?_
      rintro ⟨a, ha, hbelow, heq⟩
      exact ⟨a, List.mem_cons_of_mem b ha, hbelow, heq⟩

theorem scan_mem (key : α → β) (first : α) (value : β) (l : List α) :
    (scan key (first, value) l).1 ∈ first :: l := by
  rcases scan_start_or_mem key (first, value) l with heq | ⟨a, ha, -, heq⟩
  · rw [heq]
    exact List.mem_cons_self
  · rw [heq]
    exact List.mem_cons_of_mem first ha

/-- **A scan that starts with the key of its first choice ends with a least element.** -/
theorem scan_least (key : α → β) (first : α) (l : List α) :
    ∀ a ∈ first :: l, key (scan key (first, key first) l).1 ≤ key a := by
  have hkey : key (scan key (first, key first) l).1 = (scan key (first, key first) l).2 := by
    rcases scan_start_or_mem key (first, key first) l with heq | ⟨a, -, -, heq⟩
    · rw [heq]
    · rw [heq]
  obtain ⟨hfirst, hall⟩ := scan_le key (first, key first) l
  rw [hkey]
  exact List.forall_mem_cons.mpr ⟨hfirst, hall⟩

theorem scan_eq_start (h : ∀ a ∈ l, start.2 ≤ key a) : scan key start l = start := by
  refine (scan_start_or_mem key start l).resolve_right ?_
  rintro ⟨a, ha, hbelow, -⟩
  exact absurd hbelow (not_lt.mpr (h a ha))

theorem scan_beats {a : α} (ha : a ∈ l) (hbelow : key a < start.2) :
    (scan key start l).1 ∈ l ∧ key (scan key start l).1 < start.2 ∧ ∀ b ∈ l, key (scan key start l).1 ≤ key b := by
  have hle := scan_le key start l
  rcases scan_start_or_mem key start l with heq | ⟨b, hb, hless, heq⟩
  · rw [heq] at hle
    exact absurd hbelow (not_lt.mpr (hle.2 a ha))
  · rw [heq] at hle ⊢
    exact ⟨hb, hless, hle.2⟩

end Scan
