import Mathlib.Algebra.Order.Ring.Int
import Mathlib.Data.List.Nodup

/-!
# Shifting an array in place

Loops that move the entries of an array by one place, within the array itself, and loops that write single
entries. An array is a function on the integers; the places behind its ends are there but never looked at.
Moving entries up goes from the end of the array to its start, and moving them down goes the other way, so
that no entry is overwritten before it is read: `up_apply` and `down_apply` say what becomes of each.

* `interval` — the values of a counter that runs from one bound to another;
* `mapAt` — a loop that changes one entry in each round;
* `foldl_keeps`, `foldl_reaches` — what no round touches stays after a loop as it was, and what one round
  brings about and no round undoes holds.
-/

namespace Shifts

/-- The values of `for (i = lo; i <= hi; ++i)`. -/
def interval (lo hi : Int) : List Int := (List.range (hi + 1 - lo).toNat).map fun (k : Nat) => lo + (k : Int)

theorem mem_interval {lo hi i : Int} : i ∈ interval lo hi ↔ lo ≤ i ∧ i ≤ hi := by
  unfold interval
  rw [List.mem_map]
  constructor
  · rintro ⟨k, hk, rfl⟩
    have := List.mem_range.mp hk
    omega
  · rintro ⟨hlo, hhi⟩
    exact ⟨(i - lo).toNat, List.mem_range.mpr (by omega), by omega⟩

theorem nodup_interval (lo hi : Int) : (interval lo hi).Nodup := by
  refine List.Nodup.map (fun i j h => ?_) List.nodup_range
  omega

variable {β : Type}

/-- `for (i = n; --i >= 0;) a[i + 1] = a[i];` -/
def up (n : Nat) (a : Int → β) : Int → β :=
  (List.range n).reverse.foldl (fun a (i : Nat) => Function.update a (i + 1) (a i)) a

/-- `for (i = 0; i <= n - 1; ++i) a[i] = a[i + 1];` -/
def down (n : Nat) (a : Int → β) : Int → β :=
  (List.range n).foldl (fun a (i : Nat) => Function.update a i (a (i + 1))) a

theorem up_apply (n : Nat) (a : Int → β) (i : Int) : up n a i = if 0 < i ∧ i ≤ n then a (i - 1) else a i := by
  induction n generalizing a with
  | zero =>
    rw [if_neg (by omega)]
    rfl
  | succ n ih =>
    have hup : up (n + 1) a = up n (Function.update a (n + 1) (a n)) := by
      unfold up
      rw [List.range_succ, List.reverse_concat, List.foldl_cons]
    rw [hup, ih]
    by_cases hi : i = n + 1
    · -- the last entry is written first, and not again
      subst hi
      rw [if_neg (by omega), if_pos (by omega), Function.update_self, add_sub_cancel_right]
    · by_cases h : 0 < i ∧ i ≤ n
      · rw [if_pos h, if_pos (by omega), Function.update_of_ne (by omega)]
      · rw [if_neg h, if_neg (by omega), Function.update_of_ne hi]

theorem down_apply (n : Nat) (a : Int → β) (i : Int) :
    down n a i = if 0 ≤ i ∧ i < n then a (i + 1) else a i := by
  induction n generalizing i with
  | zero =>
    rw [if_neg (by omega)]
    rfl
  | succ n ih =>
    have hdown : down (n + 1) a = Function.update (down n a) n (down n a (n + 1)) := by
      unfold down
      rw [List.range_succ, List.foldl_append, List.foldl_cons, List.foldl_nil]
    rw [hdown]
    by_cases hi : i = n
    · -- the entry behind has not been written yet
      subst hi
      rw [Function.update_self, ih, if_neg (by omega), if_pos (by omega)]
    · rw [Function.update_of_ne hi, ih]
      by_cases h : 0 ≤ i ∧ i < n
      · rw [if_pos h, if_pos (by omega)]
      · rw [if_neg h, if_neg (by omega)]

/-- `for (i : is) a[i] = f(a[i]);` -/
def mapAt (f : β → β) (is : List Int) (a : Int → β) : Int → β :=
  is.foldl (fun a i => Function.update a i (f (a i))) a

theorem mapAt_apply (f : β → β) {is : List Int} (his : is.Nodup) (a : Int → β) (i : Int) :
    mapAt f is a i = if i ∈ is then f (a i) else a i := by
  induction is generalizing a with
  | nil => exact (if_neg List.not_mem_nil).symm
  | cons j is ih =>
    obtain ⟨hj, his⟩ := List.nodup_cons.mp his
    have heach : mapAt f (j :: is) a = mapAt f is (Function.update a j (f (a j))) := rfl
    rw [heach, ih his]
    by_cases hi : i = j
    · subst hi
      rw [if_neg hj, if_pos List.mem_cons_self, Function.update_self]
    · rw [Function.update_of_ne hi]
      by_cases h : i ∈ is
      · rw [if_pos h, if_pos (List.mem_cons_of_mem j h)]
      · rw [if_neg h, if_neg fun h' => (List.mem_cons.mp h').elim hi h]

theorem foldl_keeps {σ ι : Type} {body : σ → ι → σ} {f : σ → β} (h : ∀ s i, f (body s i) = f s) (l : List ι)
    (s : σ) : f (l.foldl body s) = f s := by
  induction l generalizing s with
  | nil => rfl
  | cons i l ih => rw [List.foldl_cons, ih, h]

theorem foldl_reaches {σ ι : Type} {body : σ → ι → σ} {P Q : σ → Prop} (hQ : ∀ s j, Q s → Q (body s j))
    (hkeep : ∀ s j, Q s → P s → P (body s j)) {l : List ι} {i : ι} (hi : i ∈ l)
    (hreach : ∀ s, Q s → P (body s i)) {s : σ} (hs : Q s) : P (l.foldl body s) := by
  have hrest : ∀ (l : List ι) s, Q s → P s → P (l.foldl body s) := by
    intro l
    induction l with
    | nil => exact fun s _ h => h
    | cons j l ih => exact fun s hs h => ih _ (hQ s j hs) (hkeep s j hs h)
  induction l generalizing s with
  | nil => exact absurd hi List.not_mem_nil
  | cons j l ih =>
    rcases List.mem_cons.mp hi with rfl | hi
    · exact hrest l _ (hQ s i hs) (hreach s hs)
    · exact ih hi (hQ s j hs)

end Shifts
