import Mathlib.Data.Finset.Sort
import Mathlib.Data.UInt
import Moonlight.Map.Map

/-!
# The creatures a client knows

A `ProtocolGame` (server/network/protocol/protocolgame.cpp) describes a creature in full only the first time, and
keeps the ids it has described in `knownCreatureSet`, of which a client can remember 1300. When there are
more, `checkCreatureAsKnown` gives up one of the others that is out of sight and tells the client which.

Server and client stay in step as long as the id that is given up is another one than the one just described
(`run_inStep_iff`). The loop that looks for it does not see to that, other than the lines behind it.

The set is iterated in the order of its hash table, which may be any; it is an argument of each call, as are the
creatures that exist and the player at that time.
-/

namespace Moonlight.ProtocolGame

open Maps (Position)

abbrev CreatureId := UInt32

abbrev PartyRef := Nat

/-- A creature, with what is asked of it. `party` is there if it is a player, and is that player's party. -/
structure Creature where
  party : Option (Option PartyRef) := none
  removed : Bool := false
  ghostMode : Bool := false
  invisible : Bool := false
  position : Position

/-- The player of the client. -/
structure Player where
  id : CreatureId
  party : Option PartyRef := none
  groupAccess : Bool := false
  senseInvisibility : Bool := false
  position : Position

/-- The creatures of the game by their ids, and the player of the client. -/
structure World where
  player : Player
  creatures : CreatureId → Option Creature

def Player.canSeeInvisibility (player : Player) : Bool := player.senseInvisibility || player.groupAccess

def Player.canSeeCreature (player : Player) (id : CreatureId) (creature : Creature) : Bool :=
  if id = player.id then true
  else if creature.ghostMode && !player.groupAccess then false
  else if creature.party.isNone && !player.canSeeInvisibility && creature.invisible then false
  else true

/-- `ProtocolGame::canSee`, for a position. -/
def Player.canSee (player : Player) (pos : Position) : Bool :=
  let myPos := player.position
  let myZ : Int := myPos.z.toNat
  let x : Int := pos.x.toNat
  let y : Int := pos.y.toNat
  let z : Int := pos.z.toNat
  let offsetz := myZ - z
  if myZ ≤ 7 ∧ z > 7 then false
  else if myZ ≥ 8 ∧ (myZ - z).natAbs > 2 then false
  else
    decide (x ≥ myPos.x.toNat - 8 + offsetz ∧ x ≤ myPos.x.toNat + 9 + offsetz ∧
      y ≥ myPos.y.toNat - 6 + offsetz ∧ y ≤ myPos.y.toNat + 7 + offsetz)

namespace World

variable (world : World)

/-- `ProtocolGame::canSee`, for the creature with an id. -/
def canSee (id : CreatureId) : Bool :=
  match world.creatures id with
  | none => false
  | some creature =>
    if creature.removed then false
    else if !world.player.canSeeCreature id creature then false
    else world.player.canSee creature.position

/-- The loop of `checkCreatureAsKnown` stops at this id: it may be given up. -/
def mayForget (id : CreatureId) : Bool :=
  match (world.creatures id).bind Creature.party with
  | some party => world.player.party != party && !world.canSee id
  | none => !world.canSee id

end World

/-- An order in which a hash set is iterated. -/
structure HashOrder where
  toList : Finset CreatureId → List CreatureId
  nodup : ∀ s, (toList s).Nodup
  mem : ∀ s id, id ∈ toList s ↔ id ∈ s

/-- The first element, but the second one if the first is `id`. -/
def firstBut (id : CreatureId) : List CreatureId → Option CreatureId
  | [] => none
  | first :: rest => if first = id then rest.head? else some first

/-- `removedKnown` is not written if the creature is known. -/
structure Check where
  known : Bool
  removedKnown : Option CreatureId

def checkCreatureAsKnown (world : World) (order : HashOrder) (knownCreatureSet : Finset CreatureId)
    (id : CreatureId) : Check × Finset CreatureId :=
  if id ∈ knownCreatureSet then (⟨true, none⟩, knownCreatureSet)
  else
    let knownCreatureSet := insert id knownCreatureSet
    if knownCreatureSet.card > 1300 then
      -- the id itself is in the set already, so the loop may stop at it
      match (order.toList knownCreatureSet).find? world.mayForget with
      | some it => (⟨false, some it⟩, knownCreatureSet.erase it)
      | none =>
        -- the lines behind the loop do leave it out
        match firstBut id (order.toList knownCreatureSet) with
        | some it => (⟨false, some it⟩, knownCreatureSet.erase it)
        | none => (⟨false, none⟩, knownCreatureSet)
    else (⟨false, some 0⟩, knownCreatureSet)

/-- What a client makes of the description of a creature. -/
def clientDescribed (client : Finset CreatureId) (id : CreatureId) (check : Check) : Finset CreatureId :=
  if check.known then client
  else
    match check.removedKnown with
    -- the reference was not written to
    | none => insert id client
    | some removedKnown =>
      if removedKnown ≠ 0 then (insert id client).erase removedKnown else insert id client

/-! ### Server and client -/

/-- The ids the server takes the client to know, and those it does know. -/
structure Session where
  knownCreatureSet : Finset CreatureId := ∅
  client : Finset CreatureId := ∅

/-- A creature is described. -/
structure Describe where
  id : CreatureId
  world : World
  order : HashOrder

namespace Session

def check (s : Session) (call : Describe) : Check :=
  (checkCreatureAsKnown call.world call.order s.knownCreatureSet call.id).1

def step (s : Session) (call : Describe) : Session where
  knownCreatureSet := (checkCreatureAsKnown call.world call.order s.knownCreatureSet call.id).2
  client := clientDescribed s.client call.id (s.check call)

/-- What is promised of a call. -/
structure InStep (s : Session) (call : Describe) : Prop where
  bounded : (s.step call).knownCreatureSet.card ≤ 1300
  described : call.id ∈ (s.step call).knownCreatureSet
  removed : ∀ removedKnown, (s.check call).removedKnown = some removedKnown →
    removedKnown = 0 ∨ removedKnown ≠ call.id ∧ removedKnown ∈ s.knownCreatureSet
  client : (s.step call).knownCreatureSet = (s.step call).client

/-- If the id is new and there is no room for it, the first id in the order of the table that may be given up is
another one, and the one that is given up, here or as the first of all others, is not the 0 that stands for none. -/
def Spares (s : Session) (call : Describe) : Prop :=
  call.id ∉ s.knownCreatureSet → s.knownCreatureSet.card ≥ 1300 →
    let ids := call.order.toList (insert call.id s.knownCreatureSet)
    ids.find? call.world.mayForget ≠ some call.id ∧ ids.find? call.world.mayForget ≠ some 0 ∧
      (ids.find? call.world.mayForget = none → firstBut call.id ids ≠ some 0)

end Session

/-! ### One call -/

theorem firstBut_eq_some {id v : CreatureId} {ids : List CreatureId} (hnodup : ids.Nodup)
    (h : firstBut id ids = some v) : v ∈ ids ∧ v ≠ id := by
  cases ids with
  | nil => cases h
  | cons first rest =>
    change (if first = id then rest.head? else some first) = some v at h
    split at h
    next hfirst =>
      have hmem : v ∈ rest := List.mem_of_head? h
      refine ⟨List.mem_cons_of_mem _ hmem, ?_⟩
      rintro rfl
      exact (List.nodup_cons.mp hnodup).1 (hfirst ▸ hmem)
    next hfirst =>
      cases h
      exact ⟨List.mem_cons_self, hfirst⟩

theorem firstBut_isSome (id : CreatureId) {ids : List CreatureId} (h : 1 < ids.length) :
    ∃ v, firstBut id ids = some v := by
  match ids, h with
  | first :: second :: rest, _ =>
    change ∃ v, (if first = id then some second else some first) = some v
    split
    · exact ⟨second, rfl⟩
    · exact ⟨first, rfl⟩

theorem HashOrder.length (order : HashOrder) (s : Finset CreatureId) : (order.toList s).length = s.card := by
  have hset : (order.toList s).toFinset = s := by
    ext id
    rw [List.mem_toFinset, order.mem]
  rw [← List.toFinset_card_of_nodup (order.nodup s), hset]

variable (world : World) (order : HashOrder) {known : Finset CreatureId} {id : CreatureId}

theorem check_of_mem (h : id ∈ known) :
    checkCreatureAsKnown world order known id = (⟨true, none⟩, known) := if_pos h

theorem check_of_room (h : id ∉ known) (hroom : known.card < 1300) :
    checkCreatureAsKnown world order known id = (⟨false, some 0⟩, insert id known) := by
  unfold checkCreatureAsKnown
  rw [if_neg h]
  dsimp only
  rw [if_neg (by rw [Finset.card_insert_of_notMem h]; exact Nat.not_lt.mpr hroom)]

theorem check_of_full (h : id ∉ known) (hfull : 1300 ≤ known.card) :
    ∃ v ∈ insert id known,
      checkCreatureAsKnown world order known id = (⟨false, some v⟩, (insert id known).erase v) ∧
      ((order.toList (insert id known)).find? world.mayForget = some v ∨
        (order.toList (insert id known)).find? world.mayForget = none ∧
          firstBut id (order.toList (insert id known)) = some v) := by
  have hcard : 1300 < (insert id known).card := by
    rw [Finset.card_insert_of_notMem h]
    exact Nat.lt_succ_of_le hfull
  unfold checkCreatureAsKnown
  rw [if_neg h]
  dsimp only
  rw [if_pos hcard]
  cases hfind : (order.toList (insert id known)).find? world.mayForget with
  | some v =>
    exact ⟨v, (order.mem _ v).mp (List.mem_of_find?_eq_some hfind), rfl, .inl rfl⟩
  | none =>
    -- among more than 1300 ids there is another one
    have hlength : 1 < (order.toList (insert id known)).length := by
      rw [order.length]
      exact Nat.lt_trans (by decide) hcard
    obtain ⟨v, hv⟩ := firstBut_isSome id hlength
    refine ⟨v, (order.mem _ v).mp (firstBut_eq_some (order.nodup _) hv).1, ?_, .inr ⟨rfl, hv⟩⟩
    dsimp only
    rw [hv]

namespace Session

/-- The client remembers no more than it can, and the same ids as the server. -/
structure Inv (s : Session) : Prop where
  bounded : s.knownCreatureSet.card ≤ 1300
  client : s.knownCreatureSet = s.client

theorem inv_new : Inv {} := ⟨Nat.zero_le _, rfl⟩

variable {s : Session}

theorem Inv.inStep_of_mem (h : Inv s) {call : Describe} (hmem : call.id ∈ s.knownCreatureSet) :
    InStep s call := by
  have hcheck := check_of_mem call.world call.order hmem
  have hstep : s.step call = s := by
    unfold step check clientDescribed
    rw [hcheck]
    rfl
  refine ⟨?_, ?_, ?_, ?_⟩
  · rw [hstep]
    exact h.bounded
  · rw [hstep]
    exact hmem
  · unfold check
    rw [hcheck]
    exact nofun
  · rw [hstep]
    exact h.client

theorem Inv.inStep_of_room (h : Inv s) {call : Describe} (hnew : call.id ∉ s.knownCreatureSet)
    (hroom : s.knownCreatureSet.card < 1300) : InStep s call := by
  have hcheck := check_of_room call.world call.order hnew hroom
  have hstep : s.step call =
      { knownCreatureSet := insert call.id s.knownCreatureSet, client := insert call.id s.client } := by
    unfold step check clientDescribed
    rw [hcheck]
    rfl
  refine ⟨?_, ?_, ?_, ?_⟩
  · rw [hstep, Finset.card_insert_of_notMem hnew]
    exact hroom
  · rw [hstep]
    exact Finset.mem_insert_self _ _
  · unfold check
    rw [hcheck]
    exact fun removedKnown hremoved => .inl (Option.some.inj hremoved).symm
  · rw [hstep, h.client]

theorem Inv.inStep_iff_of_full (h : Inv s) {call : Describe} (hnew : call.id ∉ s.knownCreatureSet)
    {v : CreatureId} (hv : v ∈ insert call.id s.knownCreatureSet)
    (hcheck : checkCreatureAsKnown call.world call.order s.knownCreatureSet call.id =
      (⟨false, some v⟩, (insert call.id s.knownCreatureSet).erase v)) :
    InStep s call ↔ v ≠ call.id ∧ v ≠ 0 := by
  have hknown : (s.step call).knownCreatureSet = (insert call.id s.knownCreatureSet).erase v :=
    congrArg Prod.snd hcheck
  have hclient : (s.step call).client =
      if v ≠ 0 then (insert call.id s.client).erase v else insert call.id s.client := by
    unfold step check clientDescribed
    rw [hcheck]
    rfl
  constructor
  · intro hinStep
    refine ⟨?_, ?_⟩
    · rintro rfl
      -- the creature that was described would be unknown at once
      have hdescribed := hinStep.described
      rw [hknown] at hdescribed
      exact Finset.notMem_erase _ _ hdescribed
    · rintro rfl
      -- the client is not told to forget the id 0
      have hsame := hinStep.client
      rw [hknown, hclient, if_neg (not_not_intro rfl), ← h.client] at hsame
      exact Finset.notMem_erase _ _ (hsame ▸ hv)
  · rintro ⟨hne, hzero⟩
    refine ⟨?_, ?_, ?_, ?_⟩
    -- one id comes and one goes
    · rw [hknown, Finset.card_erase_of_mem hv, Finset.card_insert_of_notMem hnew, Nat.add_sub_cancel]
      exact h.bounded
    · rw [hknown]
      exact Finset.mem_erase.mpr ⟨hne.symm, Finset.mem_insert_self _ _⟩
    · intro removedKnown hremoved
      unfold check at hremoved
      rw [hcheck] at hremoved
      cases hremoved
      exact .inr ⟨hne, (Finset.mem_insert.mp hv).resolve_left hne⟩
    · rw [hknown, hclient, if_pos hzero, h.client]

theorem Inv.inStep_iff (h : Inv s) (call : Describe) : InStep s call ↔ Spares s call := by
  -- a known id, a new id with room for it, and a new id without
  by_cases hmem : call.id ∈ s.knownCreatureSet
  · exact iff_of_true (h.inStep_of_mem hmem) fun hnew => absurd hmem hnew
  by_cases hroom : s.knownCreatureSet.card < 1300
  · exact iff_of_true (h.inStep_of_room hmem hroom) fun _ hfull => absurd hroom (Nat.not_lt.mpr hfull)
  have hfull : 1300 ≤ s.knownCreatureSet.card := Nat.not_lt.mp hroom
  obtain ⟨v, hv, hcheck, hvictim⟩ := check_of_full call.world call.order hmem hfull
  rw [h.inStep_iff_of_full hmem hv hcheck]
  constructor
  · rintro ⟨hne, hzero⟩ - -
    dsimp only
    rcases hvictim with hfind | ⟨hfind, hfirst⟩
    · rw [hfind]
      exact ⟨fun heq => hne (Option.some.inj heq), fun heq => hzero (Option.some.inj heq), nofun⟩
    · rw [hfind, hfirst]
      exact ⟨nofun, nofun, fun _ heq => hzero (Option.some.inj heq)⟩
  · intro hspares
    obtain ⟨hself, hzero, hfirstZero⟩ := hspares hmem hfull
    rcases hvictim with hfind | ⟨hfind, hfirst⟩
    · rw [hfind] at hself hzero
      exact ⟨fun heq => hself (congrArg some heq), fun heq => hzero (congrArg some heq)⟩
    · refine ⟨(firstBut_eq_some (call.order.nodup _) hfirst).2, fun heq => hfirstZero hfind ?_⟩
      rw [hfirst, heq]

theorem inv_of_inStep {call : Describe} (h : InStep s call) : Inv (s.step call) := ⟨h.bounded, h.client⟩

/-- **Server and client.** In a run of calls from a new session, every call keeps what is promised of it
precisely if every call spares the id it describes. -/
theorem run_inStep_iff (calls : List Describe) :
    Runs.Meets step InStep {} calls ↔ Runs.Meets step Spares {} calls :=
  Runs.meets_congr_of_keep (fun _ _ _ hg => inv_of_inStep hg) (fun _ call h => h.inStep_iff call) inv_new calls

theorem run_knows (calls : List Describe) (hnodup : (calls.map Describe.id).Nodup) (hroom : calls.length ≤ 1300) :
    (Runs.run step {} calls).knownCreatureSet = (calls.map Describe.id).toFinset := by
  induction calls using List.reverseRecOn with
  | nil => rfl
  | append_singleton calls call ih =>
    rw [List.map_append] at hnodup
    rw [List.length_append] at hroom
    obtain ⟨hcalls, -, hdisjoint⟩ := List.nodup_append.mp hnodup
    have hknown := ih hcalls (Nat.le_of_succ_le hroom)
    have hcard : (Runs.run step {} calls).knownCreatureSet.card = calls.length := by
      rw [hknown, List.toFinset_card_of_nodup hcalls, List.length_map]
    have hnew : call.id ∉ (Runs.run step {} calls).knownCreatureSet := by
      rw [hknown, List.mem_toFinset]
      exact fun hmem => hdisjoint _ hmem _ List.mem_cons_self rfl
    -- no id has been given up so far, so the new one is unknown and there is room
    have hcheck := check_of_room call.world call.order hnew (hcard ▸ hroom)
    rw [Runs.run_append, Runs.run_cons, Runs.run_nil, List.map_append, List.toFinset_append, ← hknown]
    change (checkCreatureAsKnown _ _ _ _).2 = _
    rw [hcheck, Finset.union_comm]
    rfl

theorem not_inStep_of_first {s : Session} {call : Describe} (hnew : call.id ∉ s.knownCreatureSet)
    (hfull : s.knownCreatureSet.card = 1300)
    (hfirst : ∀ ids, call.id ∈ ids → (call.order.toList ids).find? call.world.mayForget = some call.id) :
    ¬ InStep s call := by
  intro hinStep
  obtain ⟨v, -, hcheck, hvictim⟩ := check_of_full call.world call.order hnew hfull.ge
  rw [hfirst _ (Finset.mem_insert_self _ _)] at hvictim
  -- the loop stops at the new id
  have hv : v = call.id := by
    rcases hvictim with heq | ⟨hnone, -⟩
    · exact (Option.some.inj heq).symm
    · contradiction
  have hdescribed := hinStep.described
  change _ ∈ (checkCreatureAsKnown _ _ _ _).2 at hdescribed
  rw [hcheck, hv] at hdescribed
  exact Finset.notMem_erase _ _ hdescribed

theorem not_meets_of_first {calls : List Describe} {call : Describe}
    (hnodup : ((calls ++ [call]).map Describe.id).Nodup) (hlength : calls.length = 1300)
    (hfirst : ∀ ids, call.id ∈ ids → (call.order.toList ids).find? call.world.mayForget = some call.id) :
    ¬ Runs.Meets step InStep {} (calls ++ [call]) := by
  rw [Runs.meets_append]
  rintro ⟨-, hlast, -⟩
  rw [List.map_append] at hnodup
  obtain ⟨hcalls, -, hdisjoint⟩ := List.nodup_append.mp hnodup
  have hknown := run_knows _ hcalls hlength.le
  refine not_inStep_of_first ?_ ?_ hfirst hlast
  · rw [hknown, List.mem_toFinset]
    exact fun hmem => hdisjoint _ hmem _ List.mem_cons_self rfl
  · rw [hknown, List.toFinset_card_of_nodup hcalls, List.length_map, hlength]

end Session

/-- A hash table in which the ids come in order, but the newest one comes first. -/
def newestFirst (newest : CreatureId) : HashOrder where
  toList s := if newest ∈ s then newest :: (s.erase newest).sort (· ≤ ·) else s.sort (· ≤ ·)
  nodup s := by
    split
    · refine List.nodup_cons.mpr ⟨?_, Finset.sort_nodup _ _⟩
      rw [Finset.mem_sort]
      exact Finset.notMem_erase _ _
    · exact Finset.sort_nodup _ _
  mem s id := by
    split
    next hnewest =>
      rw [List.mem_cons, Finset.mem_sort, Finset.mem_erase]
      constructor
      · rintro (rfl | ⟨-, hid⟩)
        · exact hnewest
        · exact hid
      · intro hid
        by_cases heq : id = newest
        · exact .inl heq
        · exact .inr ⟨heq, hid⟩
    next => exact Finset.mem_sort _

/-- A player, and a monster out of sight. -/
def farMonster : World where
  player := { id := 0x10000001, position := ⟨100, 100, 7⟩ }
  creatures id := if id = 0x40000515 then some { position := ⟨200, 200, 7⟩ } else none

def describe (k : Nat) : Describe := ⟨UInt32.ofNat (0x40000001 + k), farMonster, newestFirst 0x40000515⟩

/-- As many creatures as a client remembers, and then the monster. -/
def describeMany : List Describe := (List.range 1301).map describe

theorem describe_nodup : ((List.range 1301).map fun k => (describe k).id).Nodup := by
  refine List.Nodup.map_on (fun k hk k' hk' heq => ?_) List.nodup_range
  rw [List.mem_range] at hk hk'
  have hnat : (0x40000001 + k) % 2 ^ 32 = (0x40000001 + k') % 2 ^ 32 := congrArg UInt32.toNat heq
  omega

/-- The monster is the first one that may be given up. -/
theorem describeMany_not_inStep : ¬ Runs.Meets Session.step Session.InStep {} describeMany := by
  have hsplit : describeMany = (List.range 1300).map describe ++ [describe 1300] := by
    unfold describeMany
    rw [List.range_succ, List.map_append, List.map_singleton]
  have hids : (((List.range 1300).map describe ++ [describe 1300]).map Describe.id).Nodup := by
    rw [← hsplit, describeMany, List.map_map]
    exact describe_nodup
  rw [hsplit]
  refine Session.not_meets_of_first hids ?_ fun ids hids => ?_
  · rw [List.length_map, List.length_range]
  -- its own id comes first in the table
  · have horder : (describe 1300).order.toList ids =
        (describe 1300).id :: (ids.erase (describe 1300).id).sort (· ≤ ·) := if_pos hids
    rw [horder]
    exact List.find?_cons_of_pos (by decide)

end Moonlight.ProtocolGame
