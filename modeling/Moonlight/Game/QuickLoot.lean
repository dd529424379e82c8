import Moonlight.Game.LootWalk

/-!
# Quick loot

`Game::internalQuickLootItem` (game/game.cpp) moves an item from a corpse to the loot containers, where one that has no
room for all of it may still take some, and keeps count of what is left in `remainderCount`. It takes away from that
what `internalMoveItem` gives back for the item that was moved. If all that a container takes joins a stack, that is the
item in the corpse, with what is left of it; if only some does, it is the item for the others.

`quickLoot_iff` says that the count is right, and that no container is left out, exactly when in every round nothing
joins a stack, or all of the item does, or half of it does and nothing else moves.
-/

namespace Moonlight

namespace Cylinders

open RoseTree LootContainers

/-- An item in a corpse, and who loots it. -/
structure Haul where
  looter : Looter
  category : ObjectCategory := OBJECTCATEGORY_DEFAULT
  item : RoseTree Thing
  corpse : Nat
  /-- `HouseTile::queryRemove` does not find the item of a corpse on the tile. -/
  inHouse : Bool := false
  /-- The pointers from here on are free. -/
  clone : Nat
  sound : ∀ slot t, looter.player.inventory slot = some t → Walk.Sound t
  refs : (looter.player.held.map Thing.ref).Nodup
  count_pos : 0 < item.label.item.count.toNat

/-- What the loop changes. -/
structure Looting where
  player : Player
  item : RoseTree Thing
  inCorpse : Bool := true
  remainderCount : UInt32
  clone : Nat

/-- The pieces that are still in the corpse. -/
def Looting.left (l : Looting) : Nat := if l.inCorpse then l.item.label.item.count.toNat else 0

/-- A round of the loop; `taken` is taken away from `remainderCount`. -/
structure Round where
  lootContainer : Nat
  before : Looting
  ret : ReturnValue
  taken : UInt32 := 0
  after : Looting

/-- What quick loot says, what it leaves, and what its rounds were. -/
structure Looted where
  ret : ReturnValue
  looting : Looting
  rounds : List Round

namespace Haul

variable (s : Setting) (h : Haul)

/-- What decides a move to a container. -/
def verdict (l : Looting) (c : Spot) : Verdict :=
  let item : Arrival := { thing := l.item, parent := some h.corpse }
  let thing := l.item.label
  let count := thing.getItemCount
  let dest := Player.descend item Player.MAP_MAX_LAYERS c { index := INDEX_WHEREEVER } 0
  -- "silently ignore move"
  if dest.toItem.any (·.ref == thing.ref) then .stops .NOERROR
  else
    -- no container asks for an exchange
    match l.player.queryAddAt s item dest.toCylinder dest.index count dest.flags with
    | .NOERROR =>
      let (retMaxCount, maxQueryCount) := l.player.queryMaxCountAt s item dest.toCylinder dest.index count dest.flags
      if retMaxCount ≠ .NOERROR ∧ maxQueryCount = 0 then .stops retMaxCount
      else
        let m := if thing.type.stackable then min count maxQueryCount else maxQueryCount
        match queryRemove thing m dest.flags with
        | .NOERROR =>
          if h.inHouse then .stops .NOTPOSSIBLE
          else .moves dest m (if thing.type.stackable ∧ maxQueryCount < count then retMaxCount else .NOERROR)
        | ret => .stops ret
    | ret => .stops ret

end Haul

/-- `removeThing`, of so many pieces: what stays of the item. -/
def remaining (thing : Thing) (m : UInt32) : Option Thing :=
  if thing.type.stackable ∧ m ≠ thing.getItemCount then some (thing.setItemCount (thing.getItemCount - m)) else none

/-- The item that `internalMoveItem` gives back if `n` of the `m` pieces that move join a stack. -/
def givenBack (thing : Thing) (m n : UInt32) : Thing :=
  if thing.type.stackable ∧ m - n ≠ 0 then thing.setItemCount (m - n) else (remaining thing m).getD thing

namespace Haul

variable (s : Setting) (h : Haul)

/-- `Game::internalMoveItem` from the corpse to a container. -/
def internalMoveItem (l : Looting) (c : Spot) : ReturnValue × Option Thing × Looting :=
  match h.verdict s l c with
  | .stops ret => (ret, none, l)
  | .moves dest m ret =>
    let thing := l.item.label
    (ret, some (givenBack thing m (l.player.join thing dest m).2),
      { l with
        player := (l.player.receive l.item dest m l.clone).1
        item := .node ((remaining thing m).getD thing) l.item.children
        inCorpse := (remaining thing m).isSome
        clone := l.clone + 1 })

/-- The item is offered to a container of the inventory. -/
def offer (l : Looting) (lootContainer : Nat) : Round :=
  match l.player.placeOf lootContainer with
  | none => { lootContainer, before := l, ret := .NOTPOSSIBLE, after := l }
  | some c =>
    let (ret, moveItem, moved) := h.internalMoveItem s l c
    let taken := (moveItem.map Thing.getItemCount).getD 0
    { lootContainer, before := l, ret, taken, after := { moved with remainderCount := l.remainderCount - taken } }

/-- The `do` loop. -/
def lootLoop (l : Looting) (walk : Walk) : Looted :=
  let round := h.offer s l walk.lootContainer
  let here : Looted := ⟨round.ret, round.after, [round]⟩
  if round.ret ≠ .CONTAINERNOTENOUGHROOM then here
  else
    match _h : walk.next h.looter.fallback with
    | none => here
    | some walk' =>
      -- `while (remainderCount != 0)`
      if round.after.remainderCount ≠ 0 then
        let rest := lootLoop round.after walk'
        { rest with rounds := round :: rest.rounds }
      else here
termination_by walk.rank h.looter.fallback
decreasing_by exact Walk.next_rank _h

def looting (player : Player) : Looting where
  player := player
  item := h.item
  remainderCount := h.item.label.getItemCount
  clone := h.clone

/-- `Game::internalQuickLootItem`. -/
def internalQuickLootItem : Looted :=
  match h.looter.lootStart h.category with
  | none => ⟨.NOTPOSSIBLE, h.looting h.looter.player, []⟩
  | some (looter, walk) => h.lootLoop s (h.looting looter.player) walk

/-! ### What it should do -/

/-- The containers that quick loot could use: the loot container and those in it, and the backpack and those in it as a
fallback. -/
def usable : List Nat :=
  let fallback := (h.looter.fallback.map Walk.containersIn).getD []
  match h.looter.getLootContainer h.category with
  | some lootContainer =>
    ((h.looter.player.placeOf lootContainer).map fun c => Walk.containersIn c.here).getD [] ++ fallback
  | none => fallback

/-- The count is that of the pieces in the corpse, and got there without wrapping around. A container is left out only
if another takes all that is left, or turns it down for something else than room. -/
structure Right : Prop where
  counts : ∀ round ∈ (h.internalQuickLootItem s).rounds,
    round.taken ≤ round.before.remainderCount ∧ round.after.remainderCount.toNat = round.after.left
  thorough : (h.internalQuickLootItem s).ret = .CONTAINERNOTENOUGHROOM ∨
      (h.internalQuickLootItem s).ret = .NOERROR ∧ (h.internalQuickLootItem s).looting.left ≠ 0 →
    ∀ ref ∈ h.usable, ∃ round ∈ (h.internalQuickLootItem s).rounds,
      round.lootContainer = ref ∧ round.ret = .CONTAINERNOTENOUGHROOM

/-- Of a stack, nothing joins another one in the container, or all that moves does, which is the whole stack or half of
it. -/
def Fits (l : Looting) (lootContainer : Nat) : Prop :=
  match l.player.placeOf lootContainer with
  | none => True
  | some c =>
    match h.verdict s l c with
    | .stops _ => True
    | .moves dest m _ =>
      let count := l.item.label.getItemCount.toNat
      let n := (l.player.join l.item.label dest m).2.toNat
      l.item.label.type.stackable = true → n = 0 ∨ n = m.toNat ∧ (n = count ∨ n + n = count)

/-! ### A round -/

section

variable {s : Setting} {h : Haul} {l : Looting}

theorem queryMaxCountIn_lt {p : Player} {item : Arrival} {c : Spot} {index : Int} {count flags : UInt32}
    (hlt : (p.queryMaxCountIn s item flags c index count).2 < count) :
    (p.queryMaxCountIn s item flags c index count).1 = .CONTAINERNOTENOUGHROOM ∨
      item.thing.label.type.stackable = false := by
  rw [Player.queryMaxCountIn] at hlt ⊢
  split at hlt
  · refine absurd hlt (UInt32.not_lt.mpr ?_)
    show count ≤ if 1 ≤ count then count else 1
    split
    · exact UInt32.le_refl _
    · rename_i hle
      exact UInt32.le_of_lt (UInt32.not_le.mp hle)
  rename_i hlimit
  rw [if_neg hlimit]
  split
  · rename_i hstackable
    rw [if_pos hstackable] at hlt
    dsimp only at hlt ⊢
    rw [if_pos hlt]
    exact Or.inl rfl
  · rename_i hsingle
    exact Or.inr (Bool.eq_false_of_not_eq_true hsingle)

theorem descend_here (item : Arrival) (c : Spot) :
    (∃ d, (Player.descend item Player.MAP_MAX_LAYERS c { index := INDEX_WHEREEVER } 0).toCylinder = .container d) ∧
      ∀ t, (Player.descend item Player.MAP_MAX_LAYERS c { index := INDEX_WHEREEVER } 0).toItem = some t →
        t.ref ≠ item.thing.label.ref := by
  obtain ⟨hnext, hstacks⟩ := Player.queryDestination_here c item
  have hstays : Player.descend item Player.MAP_MAX_LAYERS c { index := INDEX_WHEREEVER } 0 =
      ⟨.container c, (c.queryDestination item 0 INDEX_WHEREEVER none).index,
        (c.queryDestination item 0 INDEX_WHEREEVER none).destItem, 0⟩ := by
    rw [Player.descend]
    dsimp only
    rw [hnext]
  rw [hstays]
  exact ⟨⟨c, rfl⟩, fun t ht => (hstacks t ht).2⟩

/-- What is said of a move: a stack moves as a whole, or a part of it does and there is no room for the rest. -/
structure Moves (l : Looting) (m : UInt32) (ret : ReturnValue) : Prop where
  ne_zero : m ≠ 0
  le : l.item.label.type.stackable = true → m ≤ l.item.label.getItemCount
  all : l.item.label.type.stackable = false ∨ m = l.item.label.getItemCount → ret = .NOERROR
  part : l.item.label.type.stackable = true → m ≠ l.item.label.getItemCount → ret = .CONTAINERNOTENOUGHROOM

theorem verdict_moves {c : Spot} {dest : Player.Resolved} {m : UInt32} {ret : ReturnValue}
    (hverdict : h.verdict s l c = .moves dest m ret) : Moves l m ret := by
  obtain ⟨⟨d, hd⟩, -⟩ := descend_here { thing := l.item, parent := some h.corpse } c
  rw [verdict] at hverdict
  dsimp only at hverdict
  generalize Player.descend { thing := l.item, parent := some h.corpse } Player.MAP_MAX_LAYERS c
    { index := INDEX_WHEREEVER } 0 = found at hd hverdict
  split at hverdict
  · cases hverdict
  split at hverdict
  · have hpart : (l.player.queryMaxCountAt s { thing := l.item, parent := some h.corpse } found.toCylinder found.index
        l.item.label.getItemCount found.flags).2 < l.item.label.getItemCount →
        (l.player.queryMaxCountAt s { thing := l.item, parent := some h.corpse } found.toCylinder found.index
          l.item.label.getItemCount found.flags).1 = .CONTAINERNOTENOUGHROOM ∨ l.item.label.type.stackable = false := by
      rw [hd]
      exact queryMaxCountIn_lt
    generalize l.player.queryMaxCountAt s { thing := l.item, parent := some h.corpse } found.toCylinder found.index
      l.item.label.getItemCount found.flags = answer at hpart hverdict
    split at hverdict
    · cases hverdict
    split at hverdict
    · rename_i hremove
      split at hverdict
      · cases hverdict
      obtain ⟨-, rfl, rfl⟩ := Verdict.moves.inj hverdict
      have hstack (hstackable : l.item.label.type.stackable = true) : (if l.item.label.type.stackable = true then
          min l.item.label.getItemCount answer.2 else answer.2) = min l.item.label.getItemCount answer.2 :=
        if_pos hstackable
      refine ⟨fun hzero => ?_, fun hstackable => ?_, fun hwhole => if_neg ?_, fun hstackable hne => ?_⟩
      · exact queryRemove_eq_noerror hremove hzero
      · rw [hstack hstackable]
        exact min_le_count _ _
      · rintro ⟨hstackable, hlt⟩
        rcases hwhole with hsingle | heq
        · rw [hsingle] at hstackable
          cases hstackable
        · rw [hstack hstackable] at heq
          exact not_lt_of_min_eq heq hlt
      · rw [hstack hstackable] at hne
        have hlt : answer.2 < l.item.label.getItemCount := not_not.mp fun hnot => hne (if_pos (UInt32.not_lt.mp hnot))
        rw [if_pos ⟨hstackable, hlt⟩]
        refine (hpart hlt).resolve_right ?_
        rw [hstackable]
        exact nofun
    · cases hverdict
  · cases hverdict

theorem verdict_stops {c : Spot} {ret : ReturnValue} (hverdict : h.verdict s l c = .stops ret) : ret ≠ .NOERROR := by
  obtain ⟨-, hother⟩ := descend_here { thing := l.item, parent := some h.corpse } c
  rw [verdict] at hverdict
  dsimp only at hverdict
  generalize Player.descend { thing := l.item, parent := some h.corpse } Player.MAP_MAX_LAYERS c
    { index := INDEX_WHEREEVER } 0 = found at hother hverdict
  split at hverdict
  · -- the item is not where it goes to
    rename_i hself
    obtain ⟨t, ht, hsame⟩ := (Option.any_eq_true _ _).mp hself
    exact absurd (beq_iff_eq.mp hsame) (hother t ht)
  split at hverdict
  · split at hverdict
    · rename_i hfull
      rw [← Verdict.stops.inj hverdict]
      exact hfull.1
    split at hverdict
    · split at hverdict
      · rw [← Verdict.stops.inj hverdict]
        exact nofun
      · cases hverdict
    · rename_i hremove
      rw [← Verdict.stops.inj hverdict]
      exact hremove
  · rename_i hadd
    rw [← Verdict.stops.inj hverdict]
    exact hadd

/-- The loop goes on with an item that is still in the corpse, and its count is right. -/
structure Good (l : Looting) : Prop where
  inCorpse : l.inCorpse = true
  pos : 0 < l.item.label.item.count.toNat
  counts : l.remainderCount = l.item.label.getItemCount

theorem remaining_count {thing : Thing} {m : UInt32} (hstackable : thing.type.stackable = true)
    (hle : m ≤ thing.getItemCount) :
    ((remaining thing m).map fun t => t.item.count.toNat).getD 0 = thing.getItemCount.toNat - m.toNat ∧
      ((remaining thing m).getD thing).getItemCount.toNat =
        if m = thing.getItemCount then thing.getItemCount.toNat else thing.getItemCount.toNat - m.toNat := by
  have hleft := UInt32.toNat_sub_of_le _ _ hle
  rw [remaining]
  by_cases hwhole : m = thing.getItemCount
  · rw [if_neg fun hboth => hboth.2 hwhole, if_pos hwhole, hwhole, Nat.sub_self]
    exact ⟨rfl, rfl⟩
  · have hbyte := thing.item.count.toNat_lt
    have hcount := Player.toNat_getItemCount thing
    have hnew := Player.toNat_setItemCount thing (by omega : (thing.getItemCount - m).toNat < 256)
    rw [if_pos ⟨hstackable, hwhole⟩, if_neg hwhole, ← hleft]
    refine ⟨hnew, ?_⟩
    rw [Option.getD_some, Player.toNat_getItemCount, hnew]

theorem givenBack_count {thing : Thing} {m n : UInt32} (hstackable : thing.type.stackable = true)
    (hle : m ≤ thing.getItemCount) (hn : n.toNat ≤ m.toNat) :
    (givenBack thing m n).getItemCount.toNat =
      if n = m then if m = thing.getItemCount then thing.getItemCount.toNat else thing.getItemCount.toNat - m.toNat
      else m.toNat - n.toNat := by
  rw [givenBack]
  by_cases heq : n = m
  · rw [heq, UInt32.sub_self, if_neg fun hboth => hboth.2 rfl, if_pos rfl]
    exact (remaining_count hstackable hle).2
  · have hnew := UInt32.toNat_sub_of_le m n (UInt32.le_iff_toNat_le.mpr hn)
    have hsome : m - n ≠ 0 := by
      intro hzero
      rw [hzero, UInt32.toNat_zero] at hnew
      exact heq (UInt32.toNat_inj.mp (by omega))
    have hm := UInt32.le_iff_toNat_le.mp hle
    have hbyte := thing.item.count.toNat_lt
    rw [Player.toNat_getItemCount] at hm
    rw [if_pos ⟨hstackable, hsome⟩, if_neg heq, Player.toNat_getItemCount,
      Player.toNat_setItemCount thing (by omega), hnew]

theorem givenBack_spec {thing : Thing} {m n : UInt32} (hne : m ≠ 0)
    (hle : thing.type.stackable = true → m ≤ thing.getItemCount) (hn : n.toNat ≤ m.toNat) :
    (givenBack thing m n).getItemCount ≤ thing.getItemCount ∧
      ((thing.getItemCount - (givenBack thing m n).getItemCount).toNat =
          (((remaining thing m).map fun t => t.item.count.toNat).getD 0) ↔
        (thing.type.stackable = true → n.toNat = 0 ∨ n.toNat = m.toNat ∧
          (n.toNat = thing.getItemCount.toNat ∨ n.toNat + n.toNat = thing.getItemCount.toNat))) := by
  cases hstackable : thing.type.stackable with
  | false =>
    have hsingle : ¬ thing.type.stackable = true := hstackable ▸ Bool.false_ne_true
    rw [givenBack, if_neg fun hboth => hsingle hboth.1, remaining, if_neg fun hboth => hsingle hboth.1]
    refine ⟨UInt32.le_refl _, iff_of_true ?_ nofun⟩
    show (thing.getItemCount - thing.getItemCount).toNat = 0
    rw [UInt32.sub_self, UInt32.toNat_zero]
  | true =>
    have hpos : 0 < m.toNat := Nat.pos_of_ne_zero fun hzero => hne (UInt32.toNat_inj.mp hzero)
    have hm := UInt32.le_iff_toNat_le.mp (hle hstackable)
    have htaken := givenBack_count hstackable (hle hstackable) hn
    have hall : m = thing.getItemCount ↔ m.toNat = thing.getItemCount.toNat := UInt32.toNat_inj.symm
    have hsame : n = m ↔ n.toNat = m.toNat := UInt32.toNat_inj.symm
    have hatMost : (givenBack thing m n).getItemCount.toNat ≤ thing.getItemCount.toNat := by
      rw [htaken]
      split
      · split
        · omega
        · omega
      · omega
    have hrest := UInt32.toNat_sub_of_le _ _ (UInt32.le_iff_toNat_le.mpr hatMost)
    refine ⟨UInt32.le_iff_toNat_le.mpr hatMost, ?_⟩
    rw [(remaining_count hstackable (hle hstackable)).1, hrest, htaken]
    by_cases hjoin : n = m
    · rw [if_pos hjoin]
      have hjoin' := hsame.mp hjoin
      by_cases hwhole : m = thing.getItemCount
      · rw [if_pos hwhole]
        have hwhole' := hall.mp hwhole
        exact iff_of_true (by omega) fun _ => Or.inr ⟨hjoin', Or.inl (hjoin'.trans hwhole')⟩
      · -- some of it stays, and that is what is taken for the pieces that have moved
        rw [if_neg hwhole]
        have hwhole' := hall.not.mp hwhole
        constructor
        · intro hhalf _
          exact Or.inr ⟨hjoin', Or.inr (by omega)⟩
        · intro hfits
          have hcases := hfits rfl
          omega
    · rw [if_neg hjoin]
      have hjoin' := hsame.not.mp hjoin
      constructor
      · intro hcount _
        exact Or.inl (by omega)
      · intro hfits
        have hcases := hfits rfl
        omega

/-- What a round leaves: the count is right if and only if the pieces fit. -/
structure Leaves (s : Setting) (h : Haul) (l : Looting) (ref : Nat) (round : Round) : Prop where
  before : round.before = l ∧ round.lootContainer = ref
  taken_le : round.taken ≤ l.remainderCount
  counts_iff : round.after.remainderCount.toNat = round.after.left ↔ h.Fits s l ref
  noerror : round.ret = .NOERROR → round.after.left = 0
  goes_on : round.ret = .CONTAINERNOTENOUGHROOM →
    round.after.inCorpse = true ∧ 0 < round.after.item.label.item.count.toNat

theorem left_of_good (hl : Good l) : l.left = l.remainderCount.toNat := by
  rw [Looting.left, hl.inCorpse, if_pos rfl, hl.counts, Player.toNat_getItemCount]

theorem offer_leaves (hl : Good l) (ref : Nat) : Leaves s h l ref (h.offer s l ref) := by
  have hstill := left_of_good hl
  rw [offer]
  cases hplace : l.player.placeOf ref with
  | none =>
    refine ⟨⟨rfl, rfl⟩, UInt32.zero_le, ?_, nofun, nofun⟩
    rw [Fits, hplace]
    exact iff_of_true hstill.symm trivial
  | some c =>
    dsimp only
    rw [internalMoveItem]
    cases hverdict : h.verdict s l c with
    | stops ret =>
      refine ⟨⟨rfl, rfl⟩, UInt32.zero_le, ?_, fun hret => absurd hret (verdict_stops hverdict), fun _ =>
        ⟨hl.inCorpse, hl.pos⟩⟩
      rw [Fits, hplace]
      dsimp only
      rw [hverdict]
      refine iff_of_true ?_ trivial
      show (l.remainderCount - 0).toNat = l.left
      rw [UInt32.sub_zero]
      exact hstill.symm
    | moves dest m ret =>
      obtain ⟨hne, hle, hall, hpart⟩ := verdict_moves hverdict
      obtain ⟨htaken, hiff⟩ := givenBack_spec hne hle
        (UInt32.le_iff_toNat_le.mp (l.player.join_le l.item.label dest m))
      have hsome (hret : ret ≠ .NOERROR) : l.item.label.type.stackable = true ∧ m ≠ l.item.label.getItemCount := by
        refine ⟨?_, fun hwhole => hret (hall (Or.inr hwhole))⟩
        by_contra hsingle
        exact hret (hall (Or.inl (Bool.eq_false_of_not_eq_true hsingle)))
      refine ⟨⟨rfl, rfl⟩, ?_, ?_, fun hret => ?_, fun hret => ?_⟩
      · rw [hl.counts]
        exact htaken
      · rw [Fits, hplace]
        dsimp only
        rw [hverdict, hl.counts]
        refine Iff.trans ?_ hiff
        cases remaining l.item.label m with
        | none => exact Iff.rfl
        | some t => exact Iff.rfl
      · -- nothing has been said of a rest, so there is none
        have hnone : remaining l.item.label m = none := by
          refine if_neg fun hboth => ?_
          have hret' : ret = .NOERROR := hret
          rw [hpart hboth.1 hboth.2] at hret'
          cases hret'
        dsimp only
        rw [hnone]
        rfl
      · -- the loop goes on only with a rest of a stack
        have hret' : ret ≠ .NOERROR := by
          have heq : ret = .CONTAINERNOTENOUGHROOM := hret
          rw [heq]
          exact nofun
        obtain ⟨hstackable, hrest⟩ := hsome hret'
        have hremaining : remaining l.item.label m =
            some (l.item.label.setItemCount (l.item.label.getItemCount - m)) := if_pos ⟨hstackable, hrest⟩
        dsimp only
        rw [hremaining]
        refine ⟨rfl, ?_⟩
        show 0 < (l.item.label.setItemCount (l.item.label.getItemCount - m)).item.count.toNat
        have hsub := UInt32.toNat_sub_of_le _ _ (hle hstackable)
        have hm := UInt32.le_iff_toNat_le.mp (hle hstackable)
        have hrest' : m.toNat ≠ l.item.label.getItemCount.toNat := fun heq => hrest (UInt32.toNat_inj.mp heq)
        have hbyte := l.item.label.item.count.toNat_lt
        rw [Player.toNat_getItemCount] at hsub hm hrest'
        rw [Player.toNat_setItemCount _ (by omega)]
        omega

/-! ### All rounds -/

/-- The count is right in a round, and has not wrapped around. -/
def Counts (round : Round) : Prop :=
  round.taken ≤ round.before.remainderCount ∧ round.after.remainderCount.toNat = round.after.left

/-- What the rounds come to, where `containers` are all that could be offered the item. -/
structure Settled (s : Setting) (h : Haul) (containers : List Nat) (o : Looted) : Prop where
  iff : (∀ round ∈ o.rounds, Counts round) ↔ ∀ round ∈ o.rounds, h.Fits s round.before round.lootContainer
  noerror : (∀ round ∈ o.rounds, h.Fits s round.before round.lootContainer) → o.ret = .NOERROR → o.looting.left = 0
  thorough : (∀ round ∈ o.rounds, h.Fits s round.before round.lootContainer) → o.ret = .CONTAINERNOTENOUGHROOM →
    ∀ ref ∈ containers, ∃ round ∈ o.rounds, round.lootContainer = ref ∧ round.ret = .CONTAINERNOTENOUGHROOM

theorem Leaves.counts {ref : Nat} {round : Round} (hround : Leaves s h l ref round) :
    Counts round ↔ h.Fits s round.before round.lootContainer := by
  obtain ⟨⟨rfl, rfl⟩, htaken, hiff, -, -⟩ := hround
  rw [Counts, hiff, and_iff_right htaken]

theorem settled_of_round {ref : Nat} {round : Round} (hround : Leaves s h l ref round) {containers : List Nat}
    (hlast : Counts round → round.ret = .CONTAINERNOTENOUGHROOM → containers = [ref]) :
    Settled s h containers ⟨round.ret, round.after, [round]⟩ := by
  refine ⟨?_, fun _ => hround.noerror, fun hfits hret ref' href' => ?_⟩
  · rw [List.forall_mem_singleton, List.forall_mem_singleton]
    exact hround.counts
  · rw [hlast (hround.counts.mpr (hfits round (List.mem_singleton_self _))) hret] at href'
    obtain rfl := List.mem_singleton.mp href'
    exact ⟨round, List.mem_singleton_self _, hround.before.2, hret⟩

theorem Leaves.good {ref : Nat} {round : Round} (hround : Leaves s h l ref round) (hcounts : Counts round)
    (hret : round.ret = .CONTAINERNOTENOUGHROOM) : Good round.after := by
  obtain ⟨hinCorpse, hpos⟩ := hround.goes_on hret
  refine ⟨hinCorpse, hpos, UInt32.toNat_inj.mp ?_⟩
  rw [hcounts.2, Looting.left, hinCorpse, if_pos rfl, Player.toNat_getItemCount]

/-- **As long as the pieces fit, the count is right and no container is left out.** -/
theorem lootLoop_settled {l : Looting} (hl : Good l) (walk : Walk) :
    Settled s h (walk.chain h.looter.fallback) (h.lootLoop s l walk) := by
  have hround := @offer_leaves s h l hl walk.lootContainer
  rw [lootLoop]
  generalize h.offer s l walk.lootContainer = round at hround ⊢
  dsimp only
  split
  · rename_i hends
    exact settled_of_round hround fun _ hret => absurd hret hends
  rename_i hret
  rw [ne_eq, not_not] at hret
  split
  · rename_i hnext
    exact settled_of_round hround fun _ _ => Walk.chain_of_none hnext
  rename_i walk' hnext
  split
  · by_cases hcounts : Counts round
    · obtain ⟨hiff, hnoerror, hthorough⟩ := lootLoop_settled (hround.good hcounts hret) walk'
      have hfits := hround.counts.mp hcounts
      refine ⟨?_, fun hall => ?_, fun hall hlast ref href => ?_⟩
      · rw [List.forall_mem_cons, List.forall_mem_cons, and_iff_right hcounts, and_iff_right hfits]
        exact hiff
      · exact hnoerror (List.forall_mem_cons.mp hall).2
      · rw [Walk.chain_of_some hnext] at href
        rcases List.mem_cons.mp href with rfl | href
        · exact ⟨round, List.mem_cons_self, hround.before.2, hret⟩
        · obtain ⟨round', hmem, htried⟩ := hthorough (List.forall_mem_cons.mp hall).2 hlast ref href
          exact ⟨round', List.mem_cons_of_mem _ hmem, htried⟩
    · -- once the count is wrong nothing is promised
      have hmisfit := hround.counts.not.mp hcounts
      refine ⟨iff_of_false ?_ ?_, fun hall => ?_, fun hall => ?_⟩
      · exact fun hall => hcounts (List.forall_mem_cons.mp hall).1
      · exact fun hall => hmisfit (List.forall_mem_cons.mp hall).1
      · exact absurd (List.forall_mem_cons.mp hall).1 hmisfit
      · exact absurd (List.forall_mem_cons.mp hall).1 hmisfit
  · -- the loop does not end with pieces left while the count is right
    rename_i hzero
    rw [ne_eq, not_not] at hzero
    refine settled_of_round hround fun hcounts _ => ?_
    obtain ⟨-, hpos, hsame⟩ := hround.good hcounts hret
    rw [hzero] at hsame
    have hcount := Player.toNat_getItemCount round.after.item.label
    rw [← hsame, UInt32.toNat_zero] at hcount
    omega
termination_by walk.rank h.looter.fallback
decreasing_by exact Walk.next_rank ‹_›

/-! ### Quick loot as a whole -/

theorem mem_chain_of_usable {looter : Looter} {walk : Walk}
    (hstart : h.looter.lootStart h.category = some (looter, walk)) {ref : Nat} (href : ref ∈ h.usable) :
    ref ∈ walk.chain h.looter.fallback := by
  have hbackpack (backpack : RoseTree Thing) (hsome : h.looter.fallback = some backpack) : Walk.Sound backpack := by
    rw [Looter.fallback] at hsome
    split at hsome
    · exact h.sound _ _ (Option.filter_eq_some_iff.mp hsome).1
    · cases hsome
  have hfallback (hmem : ref ∈ (h.looter.fallback.map Walk.containersIn).getD []) :
      ∃ backpack, h.looter.fallback = some backpack ∧ ref ∈ Walk.containersIn backpack := by
    cases hsome : h.looter.fallback with
    | none =>
      rw [hsome] at hmem
      cases hmem
    | some backpack =>
      rw [hsome] at hmem
      exact ⟨backpack, rfl, hmem⟩
  rw [usable] at href
  rw [Looter.lootStart] at hstart
  cases hcontainer : h.looter.getLootContainer h.category with
  | none =>
    rw [hcontainer] at href hstart
    obtain ⟨backpack, hsome, hmem⟩ := hfallback href
    rw [hsome] at hstart
    obtain ⟨-, rfl⟩ := Prod.mk.inj (Option.some.inj hstart)
    exact (Walk.mem_chain (hbackpack backpack hsome) true).1 hmem
  | some lootContainer =>
    rw [hcontainer] at href hstart
    obtain ⟨c, hc, heq⟩ := Option.map_eq_some_iff.mp hstart
    obtain ⟨-, rfl⟩ := Prod.mk.inj heq
    dsimp only at href
    rw [hc] at href
    obtain ⟨slot, -, -, hslot⟩ := Player.holds_placeOf hc
    have hsound : Walk.Sound c.here := all_of_plug (h.sound _ _ hslot)
    rcases List.mem_append.mp href with hmem | hmem
    · exact (Walk.mem_chain hsound false).1 hmem
    · obtain ⟨backpack, hsome, hmem⟩ := hfallback hmem
      exact (Walk.mem_chain hsound false).2 rfl backpack hsome (hbackpack backpack hsome) hmem

end

/-- **Quick loot counts right and leaves no container out exactly when in every round the pieces fit.** -/
theorem quickLoot_iff (s : Setting) (h : Haul) :
    h.Right s ↔ ∀ round ∈ (h.internalQuickLootItem s).rounds, h.Fits s round.before round.lootContainer := by
  cases hstart : h.looter.lootStart h.category with
  | none =>
    have hnone : h.internalQuickLootItem s = ⟨.NOTPOSSIBLE, h.looting h.looter.player, []⟩ := by
      rw [internalQuickLootItem, hstart]
    rw [hnone]
    refine iff_of_true ⟨?_, ?_⟩ (List.forall_mem_nil _)
    · rw [hnone]
      exact List.forall_mem_nil _
    · rw [hnone]
      rintro (hret | ⟨hret, -⟩)
      · cases hret
      · cases hret
  | some start =>
    obtain ⟨looter, walk⟩ := start
    have hgood : Good (h.looting looter.player) := ⟨rfl, h.count_pos, rfl⟩
    have hloop : h.internalQuickLootItem s = h.lootLoop s (h.looting looter.player) walk := by
      rw [internalQuickLootItem, hstart]
    obtain ⟨hiff, hnoerror, hthorough⟩ := @lootLoop_settled s h _ hgood walk
    rw [← hloop] at hiff hnoerror hthorough
    constructor
    · exact fun hright => hiff.mp hright.counts
    · intro hfits
      refine ⟨hiff.mpr hfits, ?_⟩
      rintro (hret | ⟨hret, hleft⟩)
      · exact fun ref href => hthorough hfits hret ref (mem_chain_of_usable hstart href)
      · exact absurd (hnoerror hfits hret) hleft

/-! ### Coins that are left behind -/

def coins (ref : Nat) (count : UInt8) : RoseTree Thing :=
  .node { ref, item := { id := 3031, count }, type := { stackable := true, slotPosition := 48 } } []

def bag (ref : Nat) (maxSize : UInt16) (held : List (RoseTree Thing)) : RoseTree Thing :=
  .node { ref, item := { id := 2853 }, container := some { maxSize } } held

/-- Bags with room for ten coins, for forty, and for all of them. -/
def bags : RoseTree Thing := bag 0 3 [bag 1 1 [coins 4 90], bag 2 1 [coins 5 60], bag 3 8 []]

def sixtyCoins : Haul where
  looter :=
    { player := { inventory := fun slot => if slot = CONST_SLOT_BACKPACK then some bags else none }
      quickLootContainers := fun _ => some 0 }
  item := coins 6 60
  corpse := 7
  clone := 8
  sound slot t ht := by
    replace ht : (if slot = CONST_SLOT_BACKPACK then some bags else none) = some t := ht
    split at ht
    · obtain rfl := Option.some.inj ht
      exact ⟨nofun, ⟨nofun, ⟨fun _ => rfl, trivial⟩, trivial⟩, ⟨nofun, ⟨fun _ => rfl, trivial⟩, trivial⟩,
        ⟨nofun, trivial⟩, trivial⟩
    · cases ht
  refs := by decide
  count_pos := by decide

/-- The first bag takes ten coins, which are taken for fifty, and the second one forty, which are taken for the other
ten. Ten coins stay behind, and nothing is put into the bag that is empty. -/
theorem sixtyCoins_rounds :
    (sixtyCoins.internalQuickLootItem usual).ret = .CONTAINERNOTENOUGHROOM ∧ sixtyCoins.usable = [0, 1, 2, 3] ∧
      (sixtyCoins.internalQuickLootItem usual).rounds.map
          (fun round => (round.lootContainer, round.after.remainderCount, round.after.left)) =
        [(0, 60, 60), (1, 10, 50), (2, 0, 10)] := by
  decide +kernel

theorem sixtyCoins_left_behind : ¬ sixtyCoins.Right usual := by
  obtain ⟨hret, husable, hrounds⟩ := sixtyCoins_rounds
  intro hright
  have hempty : 3 ∈ sixtyCoins.usable := by
    rw [husable]
    decide
  obtain ⟨round, hmem, href, -⟩ := hright.thorough (Or.inl hret) 3 hempty
  have hround := List.mem_map_of_mem (f := fun round => (round.lootContainer, round.after.remainderCount,
    round.after.left)) hmem
  rw [hrounds, href] at hround
  simp at hround

end Haul

end Cylinders

end Moonlight
