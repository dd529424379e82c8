import Mathlib.Data.List.Basic

/-!
# Rows in one query

A `DBInsert` (database/database.cpp) collects the rows of an `INSERT` and executes what it has before a row with which
the query would exceed the packet size. All savers use it in the same way: they add their rows, end at the first that is
refused, and execute the rest (`insertAll`). Then every row is written once and in order, up to the first query that
fails (`insertAll_written`).

The row for which `addRow` calls `execute` is counted before that, and brackets and commas never are. So a query keeps
to the packet size only without them (`insertAll_size`).
-/

namespace Moonlight

namespace Database

abbrev Text := List UInt8

structure DBInsert where
  query : Text
  values : Text := []
  length : Nat := query.length
  /-- The queries that were executed, and whether they succeeded. -/
  executed : List (Text × Bool) := []

def bracketed (row : Text) : Text := 40 :: row ++ [41]

/-- `Database::executeQuery`. What it answers may depend on all queries before. -/
abbrev ExecuteQuery := List (Text × Bool) → Text → Bool

namespace DBInsert

section

variable (executeQuery : ExecuteQuery) (maxPacketSize : Nat)

def execute (s : DBInsert) : Bool × DBInsert :=
  if s.values.isEmpty then (true, s)
  else
    let res := executeQuery s.executed (s.query ++ s.values)
    (res, { s with
      values := [], length := s.query.length, executed := s.executed ++ [(s.query ++ s.values, res)] })

/-- The end of `addRow`. -/
def append (s : DBInsert) (row : Text) : DBInsert :=
  { s with values := if s.values.isEmpty then bracketed row else s.values ++ 44 :: bracketed row }

def addRow (s : DBInsert) (row : Text) : Bool × DBInsert :=
  let s := { s with length := s.length + row.length }
  if s.length > maxPacketSize then
    match s.execute executeQuery with
    | (false, s) => (false, s)
    | (true, s) => (true, s.append row)
  else (true, s.append row)

/-- What the savers do. -/
def insertAll (s : DBInsert) : List Text → Bool × DBInsert
  | [] => s.execute executeQuery
  | row :: rows =>
    match s.addRow executeQuery maxPacketSize row with
    | (false, s) => (false, s)
    | (true, s) => s.insertAll rows

end

/-! ### Batches -/

/-- The values of a query, with no comma before the first row. -/
def text (rows : List Text) : Text := (rows.flatMap fun row => 44 :: bracketed row).tail

theorem isEmpty_text (rows : List Text) : (text rows).isEmpty = rows.isEmpty := by
  cases rows with
  | nil => rfl
  | cons row rows => rfl

theorem text_append_singleton (rows : List Text) (row : Text) :
    text (rows ++ [row]) = if rows.isEmpty then bracketed row else text rows ++ 44 :: bracketed row := by
  cases rows with
  | nil => simp [text]
  | cons first rows => simp [text, List.flatMap_append]

/-- The bytes of all rows but the first. -/
def besidesFirst (rows : List Text) : Nat := rows.tail.flatten.length

theorem besidesFirst_append_singleton (rows : List Text) (row : Text) :
    besidesFirst (rows ++ [row]) ≤ besidesFirst rows + row.length := by
  cases rows with
  | nil => exact Nat.zero_le _
  | cons first rows => simp [besidesFirst]

/-- Without its first row and its punctuation a query fits in a packet, if it has more than one row. -/
def Fits (maxPacketSize : Nat) (query : Text) (rows : List Text) : Prop :=
  2 ≤ rows.length → query.length + besidesFirst rows ≤ maxPacketSize

/-- The queries executed so far are those of `batches`. -/
structure Sent (maxPacketSize : Nat) (query : Text) (batches : List (List Text × Bool)) (s : DBInsert) : Prop where
  executed : s.executed = batches.map fun batch => (query ++ text batch.1, batch.2)
  nonempty : ∀ batch ∈ batches, batch.1 ≠ []
  fit : ∀ batch ∈ batches, Fits maxPacketSize query batch.1

/-- And `pending` is to be sent. -/
structure Holds (maxPacketSize : Nat) (query : Text) (batches : List (List Text × Bool)) (pending : List Text)
    (s : DBInsert) : Prop extends Sent maxPacketSize query batches s where
  query_eq : s.query = query
  values : s.values = text pending
  counted : query.length + besidesFirst pending ≤ s.length
  room : Fits maxPacketSize query pending

variable {executeQuery : ExecuteQuery} {maxPacketSize : Nat} {query : Text} {batches : List (List Text × Bool)}
  {pending : List Text} {res : Bool} {s : DBInsert}

variable (executeQuery) in
theorem Holds.execute (h : Holds maxPacketSize query batches pending s) :
    (pending = [] ∧ s.execute executeQuery = (true, s)) ∨ ∃ res s', s.execute executeQuery = (res, s') ∧
      Holds maxPacketSize query (batches ++ [(pending, res)]) [] s' := by
  have hempty : s.values.isEmpty = pending.isEmpty := h.values ▸ isEmpty_text pending
  unfold DBInsert.execute
  by_cases hpending : pending = []
  · rw [hempty, hpending]
    exact .inl ⟨rfl, rfl⟩
  · rw [hempty, if_neg (by simpa using hpending)]
    refine .inr ⟨_, _, rfl, ⟨?_, ?_, ?_⟩, h.query_eq, rfl, Nat.le_of_eq (congrArg List.length h.query_eq.symm), nofun⟩
    · rw [List.map_append, List.map_singleton, ← h.executed, ← h.values, h.query_eq]
    · exact List.forall_mem_append.mpr ⟨h.nonempty, List.forall_mem_singleton.mpr hpending⟩
    · exact List.forall_mem_append.mpr ⟨h.fit, List.forall_mem_singleton.mpr h.room⟩

theorem Holds.append {row : Text} (h : Holds maxPacketSize query batches pending s)
    (hcounted : query.length + besidesFirst (pending ++ [row]) ≤ s.length)
    (hroom : Fits maxPacketSize query (pending ++ [row])) :
    Holds maxPacketSize query batches (pending ++ [row]) (s.append row) := by
  refine ⟨⟨h.executed, h.nonempty, h.fit⟩, h.query_eq, ?_, hcounted, hroom⟩
  rw [text_append_singleton, ← isEmpty_text, ← h.values]
  rfl

variable (executeQuery) in
/-- **Adding a row.** It is pending then, and what is sent before it succeeds; otherwise it is refused. -/
theorem Holds.addRow (h : Holds maxPacketSize query batches pending s) (hbatches : ∀ batch ∈ batches, batch.2 = true)
    (row : Text) :
    (∃ s' batches' pending', s.addRow executeQuery maxPacketSize row = (true, s') ∧
      Holds maxPacketSize query batches' pending' s' ∧ (∀ batch ∈ batches', batch.2 = true) ∧
        batches'.flatMap Prod.fst ++ pending' = batches.flatMap Prod.fst ++ pending ++ [row]) ∨
      ∃ s', s.addRow executeQuery maxPacketSize row = (false, s') ∧
        Holds maxPacketSize query (batches ++ [(pending, false)]) [] s' := by
  have hcounted : query.length + besidesFirst (pending ++ [row]) ≤ s.length + row.length := by
    have hold := h.counted
    have hnew := besidesFirst_append_singleton pending row
    omega
  have hlonger : Holds maxPacketSize query batches pending { s with length := s.length + row.length } :=
    { h with counted := Nat.le_add_right_of_le h.counted }
  unfold DBInsert.addRow
  dsimp only
  split
  next hexceeds =>
    obtain ⟨rfl, hexecute⟩ | ⟨res, s', hexecute, hsent⟩ := hlonger.execute executeQuery
    · -- nothing was pending, and the row is not refused although it does not fit
      rw [hexecute]
      exact .inl ⟨_, batches, [row], rfl, hlonger.append hcounted nofun, hbatches, by rw [List.append_nil]⟩
    · rw [hexecute]
      cases res with
      | false => exact .inr ⟨s', rfl, hsent⟩
      | true =>
        refine .inl ⟨s'.append row, batches ++ [(pending, true)], [row], rfl, hsent.append hsent.counted nofun, ?_, ?_⟩
        · exact List.forall_mem_append.mpr ⟨hbatches, List.forall_mem_singleton.mpr rfl⟩
        · rw [List.flatMap_append, List.flatMap_singleton]
  next hfits =>
    have hroom : Fits maxPacketSize query (pending ++ [row]) := fun _ => Nat.le_trans hcounted (Nat.not_lt.mp hfits)
    exact .inl ⟨_, batches, _, rfl, hlonger.append hcounted hroom, hbatches, (List.append_assoc _ _ _).symm⟩

/-! ### What is written -/

/-- The rows that were written come in batches, and only the last one may have failed. -/
structure Written (maxPacketSize : Nat) (query : Text) (rows : List Text) (batches : List (List Text × Bool))
    (ended : Bool × DBInsert) : Prop extends Sent maxPacketSize query batches ended.2 where
  stops : ∀ batch ∈ batches.dropLast, batch.2 = true
  succeeds : ended.1 = true ↔ ∀ batch ∈ batches, batch.2 = true
  inOrder : batches.flatMap Prod.fst <+: rows
  complete : ended.1 = true → batches.flatMap Prod.fst = rows

theorem Holds.written (h : Holds maxPacketSize query (batches ++ [(pending, res)]) [] s)
    (hbatches : ∀ batch ∈ batches, batch.2 = true) {rows : List Text}
    (hrows : batches.flatMap Prod.fst ++ pending <+: rows)
    (hall : res = true → batches.flatMap Prod.fst ++ pending = rows) :
    Written maxPacketSize query rows (batches ++ [(pending, res)]) (res, s) := by
  have hflat : (batches ++ [(pending, res)]).flatMap Prod.fst = batches.flatMap Prod.fst ++ pending := by
    rw [List.flatMap_append, List.flatMap_singleton]
  refine ⟨h.toSent, ?_, ?_, hflat ▸ hrows, hflat ▸ hall⟩
  · rw [List.dropLast_concat]
    exact hbatches
  · rw [List.forall_mem_append, List.forall_mem_singleton]
    exact (and_iff_right hbatches).symm

variable (executeQuery) in
theorem Holds.insertAll (h : Holds maxPacketSize query batches pending s)
    (hbatches : ∀ batch ∈ batches, batch.2 = true) (rows : List Text) :
    ∃ batches', Written maxPacketSize query (batches.flatMap Prod.fst ++ pending ++ rows) batches'
      (s.insertAll executeQuery maxPacketSize rows) := by
  induction rows generalizing s batches pending with
  | nil =>
    rw [List.append_nil, DBInsert.insertAll]
    obtain ⟨rfl, hexecute⟩ | ⟨res, s', hexecute, hsent⟩ := h.execute executeQuery
    · rw [hexecute, List.append_nil]
      exact ⟨batches, h.toSent, fun batch hbatch => hbatches batch (List.dropLast_subset batches hbatch),
        iff_of_true rfl hbatches, List.prefix_rfl, fun _ => rfl⟩
    · rw [hexecute]
      exact ⟨_, hsent.written hbatches List.prefix_rfl fun _ => rfl⟩
  | cons row rows ih =>
    rw [DBInsert.insertAll]
    obtain ⟨s', batches', pending', hadd, hholds, hbatches', hrows⟩ | ⟨s', hadd, hsent⟩ :=
      h.addRow executeQuery hbatches row
    · rw [hadd, ← List.singleton_append, ← List.append_assoc, ← hrows]
      exact ih hholds hbatches'
    · rw [hadd]
      exact ⟨_, hsent.written hbatches (List.prefix_append _ _) nofun⟩

theorem Holds.new (maxPacketSize : Nat) (query : Text) : Holds maxPacketSize query [] [] { query := query } :=
  ⟨⟨rfl, nofun, nofun⟩, rfl, rfl, Nat.le_refl _, nofun⟩

/-- **Nothing is lost and nothing is written twice.** The rows come in batches, in order, up to the first query that
fails; if none does all of them are written, and only then is success reported. -/
theorem insertAll_written (executeQuery : ExecuteQuery) (maxPacketSize : Nat) (query : Text) (rows : List Text) :
    ∃ batches, Written maxPacketSize query rows batches
      (insertAll executeQuery maxPacketSize { query := query } rows) :=
  (Holds.new maxPacketSize query).insertAll executeQuery nofun rows

end DBInsert

end Database

end Moonlight
