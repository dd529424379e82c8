import Mathlib.Data.List.Basic

/-!
# Cells with runs of empty ones

A row of cells, some of which are empty and the others hold things, sent as bytes. The things of a cell are
written one after another; a marker, the two bytes `n` and `0xFF`, ends the things of a cell and says that the next
`n` cells are empty. The sender keeps the length of the run of empty cells in a counter that is one behind
where no cell with things has come before, and starts anew there when a run is as long as a byte can tell.

`decode_encode` — a receiver that can split off one thing at a time gets every cell back, and no byte is left.
-/

namespace SkipRuns

abbrev Bytes := List UInt8

def marker (n : UInt8) : Bytes := [n, 0xFF]

/-! ### The sender -/

/-- The marker of the run so far, if there is one, is written before the things of a cell; the counter is -1 where
there is no run. -/
def encodeCell (skip : Int) : Option (List Bytes) → Bytes × Int
  | some things => ((if skip ≥ 0 then marker (UInt8.ofInt skip) else []) ++ things.flatten, 0)
  | none => if skip = 0xFE then (marker 0xFF, -1) else ([], skip + 1)

def encode (skip : Int) : List (Option (List Bytes)) → Bytes
  | [] => if skip ≥ 0 then marker (UInt8.ofInt skip) else []
  | cell :: cells => (encodeCell skip cell).1 ++ encode (encodeCell skip cell).2 cells

/-! ### The receiver -/

variable (read : Bytes → Option (Bytes × Bytes))

/-- The things before a marker or before the end, the number of the marker, and what is behind it. Of the bytes
there are, each thing takes some, so their number is fuel enough. -/
def readThings : Nat → Bytes → List Bytes × Nat × Bytes
  | 0, bytes => ([], 0, bytes)
  | fuel + 1, bytes =>
    match bytes with
    | [] => ([], 0, [])
    | [n] => ([], 0, [n])
    | n :: tag :: rest =>
      if tag = 0xFF then ([], n.toNat, rest)
      else
        match read bytes with
        | none => ([], 0, bytes)
        | some (thing, rest) =>
          let next := readThings fuel rest
          (thing :: next.1, next.2)

/-- The things of so many cells, with the number of empty cells that are known to come, and what is left. -/
def decode : Nat → Nat → Bytes → List (List Bytes) × Bytes
  | 0, _, bytes => ([], bytes)
  | cells + 1, counter, bytes =>
    if counter > 0 then
      let next := decode cells (counter - 1) bytes
      ([] :: next.1, next.2)
    else
      let (things, counter, bytes) := readThings read bytes.length bytes
      let next := decode cells counter bytes
      (things :: next.1, next.2)

/-- The receiver splits the thing off whatever comes behind it, and it does not begin like a marker. -/
structure Readable (thing : Bytes) : Prop where
  read_append : ∀ rest, read (thing ++ rest) = some (thing, rest)
  not_marker : ∃ first second rest, thing = first :: second :: rest ∧ second ≠ 0xFF

variable {read}

theorem readThings_marker (fuel : Nat) (n : UInt8) (rest : Bytes) :
    readThings read (fuel + 1) (marker n ++ rest) = ([], n.toNat, rest) := rfl

theorem readThings_cons {thing : Bytes} (h : Readable read thing) (fuel : Nat) (rest : Bytes) :
    readThings read (fuel + 1) (thing ++ rest) =
      (thing :: (readThings read fuel rest).1, (readThings read fuel rest).2) := by
  have hread := h.read_append rest
  obtain ⟨first, second, more, rfl, hne⟩ := h.not_marker
  rw [List.cons_append, List.cons_append] at hread ⊢
  rw [readThings, if_neg hne, hread]

theorem length_of_readable {things : List Bytes} (h : ∀ thing ∈ things, Readable read thing) :
    things.length ≤ things.flatten.length := by
  induction things with
  | nil => exact Nat.le_refl _
  | cons thing things ih =>
    obtain ⟨first, second, rest, rfl, -⟩ := (h _ List.mem_cons_self).not_marker
    have hle := ih fun thing hthing => h thing (List.mem_cons_of_mem _ hthing)
    rw [List.flatten_cons, List.length_append, List.length_cons, List.length_cons, List.length_cons]
    omega

theorem readThings_flatten {things : List Bytes} (h : ∀ thing ∈ things, Readable read thing) {fuel : Nat}
    (hfuel : things.length < fuel) (n : UInt8) (rest : Bytes) :
    readThings read fuel (things.flatten ++ (marker n ++ rest)) = (things, n.toNat, rest) := by
  induction things generalizing fuel with
  | nil =>
    obtain ⟨fuel, rfl⟩ := Nat.exists_eq_succ_of_ne_zero (Nat.ne_of_gt hfuel)
    exact readThings_marker fuel n rest
  | cons thing things ih =>
    obtain ⟨fuel, rfl⟩ := Nat.exists_eq_succ_of_ne_zero (Nat.ne_of_gt (Nat.zero_lt_of_lt hfuel))
    rw [List.flatten_cons, List.append_assoc, Nat.succ_eq_add_one, readThings_cons (h _ List.mem_cons_self),
      ih (fun thing hthing => h thing (List.mem_cons_of_mem _ hthing)) (Nat.lt_of_succ_lt_succ hfuel)]

/-! ### One after the other -/

theorem decode_replicate (read : Bytes → Option (Bytes × Bytes)) (counter cells : Nat) (bytes : Bytes) :
    decode read (counter + cells) counter bytes =
      (List.replicate counter [] ++ (decode read cells 0 bytes).1, (decode read cells 0 bytes).2) := by
  induction counter with
  | zero => rw [Nat.zero_add, List.replicate_zero, List.nil_append]
  | succ counter ih =>
    rw [Nat.add_right_comm, decode, if_pos (Nat.succ_pos counter), Nat.add_sub_cancel, ih, List.replicate_succ]
    rfl

theorem decode_things (things : List Bytes) (h : ∀ thing ∈ things, Readable read thing) (cells : Nat) (n : UInt8)
    (rest : Bytes) :
    decode read (cells + 1) 0 (things.flatten ++ (marker n ++ rest)) =
      (things :: (decode read cells n.toNat rest).1, (decode read cells n.toNat rest).2) := by
  have hfuel : things.length < (things.flatten ++ (marker n ++ rest)).length := by
    have hle := length_of_readable h
    have hmarker : (marker n).length = 2 := rfl
    rw [List.length_append, List.length_append, hmarker]
    omega
  rw [decode, if_neg (Nat.lt_irrefl 0), readThings_flatten h hfuel]

/-- What the receiver makes of a cell. -/
def received (cell : Option (List Bytes)) : List Bytes := cell.getD []

/-- All cells as the receiver is to get them. -/
def Decodes (read : Bytes → Option (Bytes × Bytes)) (counter cells : Nat) (bytes : Bytes)
    (things : List (List Bytes)) : Prop :=
  decode read cells counter bytes = (things, [])

theorem toNat_ofInt {skip : Nat} (h : skip ≤ 0xFF) : (UInt8.ofInt skip).toNat = skip := by
  unfold UInt8.ofInt
  rw [UInt8.toNat_ofNat']
  omega

/-- The invariant of the sender. With a run of `skip` cells behind a cell with things, the next bytes are a marker
behind which the receiver finds the run and the other cells; with no run, it finds the other cells. -/
theorem decodes_encode {cells : List (Option (List Bytes))}
    (h : ∀ things, some things ∈ cells → ∀ thing ∈ things, Readable read thing) :
    (∀ skip : Nat, skip ≤ 0xFE → ∃ n rest, encode skip cells = marker n ++ rest ∧
        Decodes read n.toNat (skip + cells.length) rest (List.replicate skip [] ++ cells.map received)) ∧
      Decodes read 0 cells.length (encode (-1) cells) (cells.map received) := by
  induction cells with
  | nil =>
    refine ⟨fun skip hskip => ?_, rfl⟩
    refine ⟨UInt8.ofInt skip, [], ?_, ?_⟩
    · rw [encode, if_pos (Int.natCast_nonneg skip), List.append_nil]
    · rw [Decodes, toNat_ofInt (Nat.le_succ_of_le hskip), List.length_nil, decode_replicate]
      rfl
  | cons cell cells ih =>
    obtain ⟨ihrun, ihnone⟩ := ih fun things hthings => h things (List.mem_cons_of_mem _ hthings)
    obtain ⟨n, rest, hencode, hdecodes⟩ := ihrun 0 (Nat.zero_le _)
    rw [Nat.zero_add, List.replicate_zero, List.nil_append] at hdecodes
    cases cell with
    | none =>
      refine ⟨fun skip hskip => ?_, ?_⟩
      · by_cases hfull : skip = 0xFE
        · -- the run is as long as a byte can tell
          have hint : (skip : Int) = 0xFE := congrArg Nat.cast hfull
          have hn : (0xFF : UInt8).toNat = skip + 1 := by
            rw [hfull]
            rfl
          refine ⟨0xFF, encode (-1) cells, ?_, ?_⟩
          · rw [encode, encodeCell, if_pos hint]
          · have hreplicate := decode_replicate read (skip + 1) cells.length (encode (-1) cells)
            rw [ihnone, List.replicate_succ', List.append_assoc] at hreplicate
            rw [Decodes, hn, List.length_cons, ← Nat.add_assoc, Nat.add_right_comm]
            exact hreplicate
        · obtain ⟨n, rest, hencode, hdecodes⟩ := ihrun (skip + 1) (by omega)
          have hne : ¬ (skip : Int) = 0xFE := fun heq => hfull (Int.ofNat.inj heq)
          refine ⟨n, rest, ?_, ?_⟩
          · rw [encode, encodeCell, if_neg hne]
            exact hencode
          · rw [List.length_cons, ← Nat.add_assoc, Nat.add_right_comm]
            rw [List.replicate_succ', List.append_assoc] at hdecodes
            exact hdecodes
      · -- a marker at the place of a cell: the cell is empty
        have hthings := decode_things [] (nofun : ∀ thing ∈ [], Readable read thing) cells.length n rest
        rw [hdecodes] at hthings
        change Decodes read 0 (cells.length + 1) (encode 0 cells) _
        rw [Decodes, show encode 0 cells = _ from hencode]
        exact hthings
    | some things =>
      have hthings := decode_things things (h things List.mem_cons_self) cells.length n rest
      rw [hdecodes, ← show encode 0 cells = _ from hencode] at hthings
      refine ⟨fun skip hskip => ?_, ?_⟩
      · refine ⟨UInt8.ofInt skip, things.flatten ++ encode 0 cells, ?_, ?_⟩
        · rw [encode, encodeCell, if_pos (Int.natCast_nonneg skip), List.append_assoc]
        · rw [Decodes, toNat_ofInt (Nat.le_succ_of_le hskip), decode_replicate, List.length_cons, hthings]
          rfl
      · change Decodes read 0 (cells.length + 1) (things.flatten ++ encode 0 cells) _
        exact hthings

/-- **The codec.** -/
theorem decode_encode {cells : List (Option (List Bytes))}
    (h : ∀ things, some things ∈ cells → ∀ thing ∈ things, Readable read thing) :
    decode read cells.length 0 (encode (-1) cells) = (cells.map received, []) := (decodes_encode h).2

/-! ### Lengths -/

theorem length_readThings (h : ∀ bytes thing rest, read bytes = some (thing, rest) → bytes = thing ++ rest)
    (fuel : Nat) (bytes : Bytes) :
    (readThings read fuel bytes).1.flatten.length + (readThings read fuel bytes).2.2.length ≤ bytes.length := by
  induction fuel generalizing bytes with
  | zero => exact Nat.le_of_eq (Nat.zero_add _)
  | succ fuel ih =>
    match bytes with
    | [] => exact Nat.le_refl 0
    | [n] => exact Nat.le_refl 1
    | n :: tag :: rest =>
      unfold readThings
      dsimp only
      split
      · change 0 + rest.length ≤ rest.length + 1 + 1
        omega
      · split
        · exact Nat.le_of_eq (Nat.zero_add _)
        next thing rest hread =>
          have hle := ih rest
          rw [h _ _ _ hread, List.flatten_cons, List.length_append, List.length_append, Nat.add_assoc]
          exact Nat.add_le_add_left hle _

theorem length_decode (h : ∀ bytes thing rest, read bytes = some (thing, rest) → bytes = thing ++ rest)
    (cells counter : Nat) (bytes : Bytes) :
    (decode read cells counter bytes).1.flatten.flatten.length ≤ bytes.length := by
  induction cells generalizing counter bytes with
  | zero => exact Nat.zero_le _
  | succ cells ih =>
    unfold decode
    split
    · exact ih (counter - 1) bytes
    · have hthings := length_readThings h bytes.length bytes
      have hrest := ih (readThings read bytes.length bytes).2.1 (readThings read bytes.length bytes).2.2
      change (_ :: _).flatten.flatten.length ≤ _
      rw [List.flatten_cons, List.flatten_append, List.length_append]
      exact Nat.le_trans (Nat.add_le_add_left hrest _) hthings

end SkipRuns
