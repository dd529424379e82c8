import Moonlight.Lib.Capped
import Moonlight.Map.TileItems
import Moonlight.Network.KnownCreatures

/-!
# What is described of a tile

A client shows at most ten things of a tile: the ground, the items on top, the creatures the player can see, the
newest one last, and the other items. `ProtocolGame::GetTileDescription` (protocolgame.cpp) sends them, and later
updates name a thing by its position among them, which `Tile::getStackposOfItem` and `getStackposOfCreature`
(tile.cpp) count anew.

On the tile of the player, room is kept for the player, who may take the place of another creature there. So long
as all things fit (`TileView.agrees`), the functions agree: what is described is the list of visible things up
to the tenth, and a position is an index of this list.
-/

namespace Moonlight.ProtocolGame

open Maps (Position)

deriving instance DecidableEq for Place

/-- A thing of a tile that is described. -/
inductive Described where
  | item (place : Place)
  | creature (id : CreatureId)
  deriving DecidableEq

/-- A tile, where it is, and the creatures on it. Its items are in order, no creature is there twice, and the
player is among them if it is the player's tile. -/
structure TileView (types : TileItemTypes) (player : Player) where
  tile : Tile
  position : Position
  creatures : List (CreatureId × Creature) := []
  ordered : tile.Ordered types
  nodup : (creatures.map Prod.fst).Nodup
  player_mem : position = player.position → player.id ∈ creatures.map Prod.fst

/-- The places of the items on top, in the order of the vector. -/
def topItems (tile : Tile) : List Place :=
  (List.range tile.getTopItemCount).map fun k => .item (tile.downItemCount + k)

def downItems (tile : Tile) : List Place := (List.range tile.downItemCount).map .item

/-! ### The description -/

/-- What a loop has described, the count then, and whether the function has returned. -/
structure Loop where
  described : List Described
  count : Nat
  returned : Bool

def Loop.cons (thing : Described) (loop : Loop) : Loop := { loop with described := thing :: loop.described }

/-- The items on top; `own` says that it is the tile of the player. -/
def describeTopItems (own : Bool) : List Place → Nat → Loop
  | [], count => ⟨[], count, false⟩
  | it :: rest, count =>
    let count := count + 1
    -- the last place is kept for the player
    if count = 9 ∧ own then ⟨[.item it], count, false⟩
    -- the function returns here, without the creatures
    else if count = 10 then ⟨[.item it], count, true⟩
    else (describeTopItems own rest count).cons (.item it)

def describeCreatures (player : Player) (own : Bool) : List (CreatureId × Creature) → Bool → Nat → Loop
  | [], _, count => ⟨[], count, false⟩
  | creature :: rest, playerAdded, count =>
    if !player.canSeeCreature creature.1 creature.2 then describeCreatures player own rest playerAdded count
    else
      -- the last place goes to the player, whoever's turn it is
      let id := if own ∧ count = 9 ∧ !playerAdded then player.id else creature.1
      let playerAdded := if id = player.id then true else playerAdded
      let count := count + 1
      if count = 10 then ⟨[.creature id], count, true⟩
      else (describeCreatures player own rest playerAdded count).cons (.creature id)

variable {types : TileItemTypes} {player : Player}

namespace TileView

variable (view : TileView types player)

/-- It is the tile of the player. -/
def own : Bool := view.position = player.position

def groundDescription : List Described := if view.tile.ground.isSome then [.item .ground] else []

def GetTileDescription : List Described :=
  let ground := view.groundDescription
  let top := describeTopItems view.own (topItems view.tile) ground.length
  if top.returned then ground ++ top.described
  else
    let creatures := describeCreatures player view.own view.creatures.reverse false top.count
    if creatures.returned then ground ++ top.described ++ creatures.described
    else
      ground ++ top.described ++ creatures.described ++
        (Capped.walk 10 (downItems view.tile) creatures.count).map .item

/-! ### The positions -/

def isAlwaysOnTop (place : Place) : Bool :=
  match view.tile.thingAt place with
  | none => false
  | some item => (types item.item.id).alwaysOnTop

/-- The creatures before the items that lie on the ground are counted; none if there are too many. -/
def countCreatures (player : Player) : List (CreatureId × Creature) → Nat → Option Nat
  | [], n => some n
  | creature :: rest, n =>
    if player.canSeeCreature creature.1 creature.2 then
      if n + 1 ≥ 10 then none else countCreatures player rest (n + 1)
    else countCreatures player rest n

/-- None is the position -1. -/
def getStackposOfItem (item : Place) : Option Nat :=
  let n := if view.tile.ground.isSome then 1 else 0
  if view.tile.ground.isSome ∧ item = .ground then some 0
  -- an item on top that is not found is not found further on, either
  else if view.isAlwaysOnTop item then Capped.search 10 item (topItems view.tile) n
  else
    let n := n + view.tile.getTopItemCount
    if n ≥ 10 then none
    else
      match countCreatures player view.creatures n with
      | none => none
      | some n => Capped.search 10 item (downItems view.tile) n

def findCreature (player : Player) (id : CreatureId) : List (CreatureId × Creature) → Nat → Option Nat
  | [], _ => none
  | creature :: rest, n =>
    if creature.1 = id then some n
    else if player.canSeeCreature creature.1 creature.2 then
      if n + 1 ≥ 10 then none else findCreature player id rest (n + 1)
    else findCreature player id rest n

def getStackposOfCreature (id : CreatureId) : Option Nat :=
  let n := (if view.tile.ground.isSome then 1 else 0) + view.tile.getTopItemCount
  if n ≥ 10 then none else findCreature player id view.creatures.reverse n

/-! ### The visible things -/

/-- The ids of the creatures the player can see, in the order they are described. -/
def visibleIds (player : Player) (creatures : List (CreatureId × Creature)) : List CreatureId :=
  (creatures.filter fun creature => player.canSeeCreature creature.1 creature.2).map Prod.fst

/-- All visible things on the tile. -/
def visible : List Described :=
  view.groundDescription ++ (topItems view.tile).map .item ++
    (visibleIds player view.creatures.reverse).map .creature ++ (downItems view.tile).map .item

end TileView

/-! ### The loops -/

/-- The result of a loop that describes things from a count on, until there are ten. -/
structure Loop.Describes (loop : Loop) (things : List Described) (count : Nat) : Prop where
  described_eq : loop.described = things.take (10 - count)
  count_eq : loop.count = min 10 (count + things.length)
  returned_iff : loop.returned = true ↔ 10 ≤ count + things.length

namespace Loop.Describes

variable {loop : Loop} {things : List Described} {count : Nat} {thing : Described}

theorem nil (h : count < 10) : Loop.Describes ⟨[], count, false⟩ [] count where
  described_eq := List.take_nil.symm
  count_eq := (Nat.min_eq_right h.le).symm
  returned_iff := iff_of_false Bool.false_ne_true (Nat.not_le.mpr h)

theorem last (h : count + 1 = 10) (things : List Described) :
    Loop.Describes ⟨[thing], count + 1, true⟩ (thing :: things) count where
  described_eq := by
    have hone : 10 - count = 1 := by omega
    rw [hone]
    rfl
  count_eq := by
    change count + 1 = _
    rw [List.length_cons]
    omega
  returned_iff := iff_of_true rfl (by rw [List.length_cons]; omega)

theorem cons (hloop : loop.Describes things (count + 1)) (h : count + 1 < 10) :
    (loop.cons thing).Describes (thing :: things) count where
  described_eq := by
    have hsub : 10 - count = 10 - (count + 1) + 1 := by omega
    rw [hsub, List.take_succ_cons, ← hloop.described_eq]
    rfl
  count_eq := by
    change loop.count = _
    rw [hloop.count_eq, List.length_cons]
    omega
  returned_iff := by
    change loop.returned = true ↔ _
    rw [hloop.returned_iff, List.length_cons]
    omega

end Loop.Describes

theorem describeTopItems_describes {own : Bool} {places : List Place} {count : Nat} (h : count < 10)
    (hown : own = true → count + places.length ≤ 9) :
    (describeTopItems own places count).Describes (places.map .item) count := by
  induction places generalizing count with
  | nil => exact .nil h
  | cons it rest ih =>
    unfold describeTopItems
    dsimp only
    split
    next hbreak =>
      -- the loop ends here, but there is nothing left, either
      have hlen := hown hbreak.2
      rw [List.length_cons] at hlen
      have hrest : rest = [] := List.length_eq_zero_iff.mp (by omega)
      subst hrest
      have hlast : Loop.Describes ⟨[], count + 1, false⟩ [] (count + 1) := .nil (by omega)
      exact hlast.cons (by omega)
    · split
      next hfull => exact .last hfull _
      next hroom =>
        -- with one item less to go, there is still room for the player
        refine (ih (by omega) fun htrue => ?_).cons (by omega)
        have hlen := hown htrue
        rw [List.length_cons] at hlen
        omega

namespace TileView

variable {creatures : List (CreatureId × Creature)} {creature : CreatureId × Creature}

theorem visibleIds_cons_of_seen (creatures : List (CreatureId × Creature))
    (h : player.canSeeCreature creature.1 creature.2 = true) :
    visibleIds player (creature :: creatures) = creature.1 :: visibleIds player creatures := by
  rw [visibleIds, List.filter_cons, if_pos h]
  rfl

theorem visibleIds_cons_of_hidden (creatures : List (CreatureId × Creature))
    (h : ¬ player.canSeeCreature creature.1 creature.2 = true) :
    visibleIds player (creature :: creatures) = visibleIds player creatures := by
  rw [visibleIds, List.filter_cons, if_neg h]
  rfl

theorem mem_of_visibleIds {id : CreatureId} (h : id ∈ visibleIds player creatures) :
    id ∈ creatures.map Prod.fst := by
  obtain ⟨creature, hmem, rfl⟩ := List.mem_map.mp h
  exact List.mem_map_of_mem (List.mem_of_mem_filter hmem)

theorem player_visible (h : player.id ∈ creatures.map Prod.fst) : player.id ∈ visibleIds player creatures := by
  obtain ⟨creature, hmem, heq⟩ := List.mem_map.mp h
  have hsees : player.canSeeCreature creature.1 creature.2 = true := by
    unfold Player.canSeeCreature
    rw [if_pos heq]
  rw [← heq]
  exact List.mem_map_of_mem (List.mem_filter.mpr ⟨hmem, hsees⟩)

end TileView

open TileView

theorem describeCreatures_describes {own : Bool} {creatures : List (CreatureId × Creature)} {playerAdded : Bool}
    {count : Nat} (h : count < 10)
    (hown : own = true → count + (visibleIds player creatures).length ≤ 10 ∧
      (playerAdded = true ∨ player.id ∈ visibleIds player creatures)) :
    (describeCreatures player own creatures playerAdded count).Describes
      ((visibleIds player creatures).map .creature) count := by
  induction creatures generalizing playerAdded count with
  | nil => exact .nil h
  | cons creature rest ih =>
    unfold describeCreatures
    split
    next hhidden =>
      rw [Bool.not_eq_true'] at hhidden
      have hids := visibleIds_cons_of_hidden rest (Bool.eq_false_iff.mp hhidden)
      rw [hids] at hown ⊢
      exact ih h hown
    next hseen =>
      rw [Bool.not_eq_true', Bool.not_eq_false] at hseen
      have hids := visibleIds_cons_of_seen rest hseen
      rw [hids] at hown ⊢
      have hid : (if own = true ∧ count = 9 ∧ (!playerAdded) = true then player.id else creature.1) =
          creature.1 := by
        split
        next hplace =>
          -- the last thing there is room for is also the last one: it is the player
          obtain ⟨hfits, hadded⟩ := hown hplace.1
          rw [List.length_cons, hplace.2.1] at hfits
          have hrest : visibleIds player rest = [] := List.length_eq_zero_iff.mp (by omega)
          have hplayer := hadded.resolve_left (Bool.eq_false_iff.mp (Bool.not_eq_true' _ ▸ hplace.2.2))
          rw [hrest, List.mem_singleton] at hplayer
          exact hplayer
        · rfl
      -- so nobody is described in place of somebody else
      rw [hid]
      dsimp only
      split
      next hfull => exact .last hfull _
      next hroom =>
        refine (ih (by omega) fun htrue => ?_).cons (by omega)
        obtain ⟨hfits, hadded⟩ := hown htrue
        rw [List.length_cons] at hfits
        refine ⟨by omega, ?_⟩
        split
        · exact .inl rfl
        next hne =>
          refine hadded.imp_right fun hmem => ?_
          exact (List.mem_cons.mp hmem).resolve_left (Ne.symm hne)

namespace TileView

variable (view : TileView types player)

theorem groundDescription_length_le : view.groundDescription.length ≤ 1 := by
  unfold groundDescription
  split
  · exact Nat.le_refl 1
  · exact Nat.zero_le 1

theorem player_visible_of_own (h : view.own = true) :
    player.id ∈ visibleIds player view.creatures.reverse := by
  refine player_visible ?_
  rw [List.map_reverse, List.mem_reverse]
  exact view.player_mem (of_decide_eq_true h)

theorem visible_length : view.visible.length = view.groundDescription.length + (topItems view.tile).length +
    (visibleIds player view.creatures.reverse).length + (downItems view.tile).length := by
  unfold visible
  simp only [List.length_append, List.length_map]

theorem take_append_of_fits {l l' : List Described} (h : l.length ≤ 10) :
    (l ++ l').take 10 = l ++ l'.take (10 - l.length) := by
  rw [List.take_append, List.take_of_length_le h]

theorem describeTopItems_visible (h : view.own = true → view.visible.length ≤ 10) :
    (describeTopItems view.own (topItems view.tile) view.groundDescription.length).Describes
      ((topItems view.tile).map .item) view.groundDescription.length := by
  have hground := view.groundDescription_length_le
  refine describeTopItems_describes (by omega) fun hown => ?_
  -- there is room for the player behind the items on top
  have hpos := List.length_pos_of_mem (view.player_visible_of_own hown)
  have hfits := h hown
  rw [visible_length] at hfits
  omega

/-- **The description.** On another tile than that of the player, or if all of them fit, the first ten visible
things are described. -/
theorem GetTileDescription_eq (h : view.own = true → view.visible.length ≤ 10) :
    view.GetTileDescription = view.visible.take 10 := by
  have hground := view.groundDescription_length_le
  have htop := view.describeTopItems_visible h
  have htopLength : (view.groundDescription ++ (topItems view.tile).map Described.item).length =
      view.groundDescription.length + (topItems view.tile).length := by
    rw [List.length_append, List.length_map]
  have hreturned := htop.returned_iff
  rw [List.length_map] at hreturned
  unfold GetTileDescription visible
  dsimp only
  split
  next hreturn =>
    have hfull := hreturned.mp hreturn
    rw [htop.described_eq, List.append_assoc, List.take_append_of_le_length (by omega),
      take_append_of_fits (by omega)]
  next hroom =>
    have hfits := Nat.not_le.mp (mt hreturned.mpr hroom)
    have htopDescribed : (describeTopItems view.own (topItems view.tile)
        view.groundDescription.length).described = (topItems view.tile).map .item := by
      rw [htop.described_eq, List.take_of_length_le (by rw [List.length_map]; omega)]
    have htopCount : (describeTopItems view.own (topItems view.tile) view.groundDescription.length).count =
        view.groundDescription.length + (topItems view.tile).length := by
      rw [htop.count_eq, List.length_map]
      exact Nat.min_eq_right hfits.le
    have hcreatures : (describeCreatures player view.own view.creatures.reverse false
        (view.groundDescription.length + (topItems view.tile).length)).Describes
        ((visibleIds player view.creatures.reverse).map .creature)
        (view.groundDescription.length + (topItems view.tile).length) := by
      refine describeCreatures_describes hfits fun hown => ?_
      have hall := h hown
      rw [visible_length] at hall
      exact ⟨by omega, .inr (view.player_visible_of_own hown)⟩
    have hreturned := hcreatures.returned_iff
    rw [List.length_map] at hreturned
    rw [htopDescribed, htopCount]
    split
    next hreturn =>
      have hfull := hreturned.mp hreturn
      rw [hcreatures.described_eq, List.take_append_of_le_length, take_append_of_fits, htopLength]
      · rw [htopLength]
        exact hfits.le
      · rw [List.length_append, htopLength, List.length_map]
        exact hfull
    next hroom =>
      have hfits := Nat.not_le.mp (mt hreturned.mpr hroom)
      have hcreaturesDescribed : (describeCreatures player view.own view.creatures.reverse false
          (view.groundDescription.length + (topItems view.tile).length)).described =
          (visibleIds player view.creatures.reverse).map .creature := by
        rw [hcreatures.described_eq, List.take_of_length_le (by rw [List.length_map]; omega)]
      have hcount : (describeCreatures player view.own view.creatures.reverse false
          (view.groundDescription.length + (topItems view.tile).length)).count =
          view.groundDescription.length + (topItems view.tile).length +
            (visibleIds player view.creatures.reverse).length := by
        rw [hcreatures.count_eq, List.length_map]
        exact Nat.min_eq_right hfits.le
      -- ground, items on top and creatures fit, and the other items fill up what is left
      rw [hcreaturesDescribed, hcount, Capped.walk_eq_take hfits, take_append_of_fits]
      · rw [List.length_append, htopLength, List.length_map, List.map_take]
      · rw [List.length_append, htopLength, List.length_map]
        exact hfits.le

/-! ### What is described is there -/

theorem mem_groundDescription {thing : Described} (h : thing ∈ view.groundDescription) :
    thing = .item .ground ∧ view.tile.ground.isSome = true := by
  unfold groundDescription at h
  split at h
  next hsome => exact ⟨List.mem_singleton.mp h, hsome⟩
  · exact absurd h List.not_mem_nil

theorem mem_describeTopItems {own : Bool} {places : List Place} {count : Nat} {thing : Described}
    (h : thing ∈ (describeTopItems own places count).described) : ∃ place ∈ places, thing = .item place := by
  induction places generalizing count with
  | nil => exact absurd h List.not_mem_nil
  | cons it rest ih =>
    have hhead : ∃ place ∈ it :: rest, Described.item it = .item place := ⟨it, List.mem_cons_self, rfl⟩
    unfold describeTopItems at h
    dsimp only at h
    split at h
    · rwa [List.mem_singleton.mp h]
    · split at h
      · rwa [List.mem_singleton.mp h]
      · obtain rfl | hrest := List.mem_cons.mp h
        · exact hhead
        · exact (ih hrest).imp fun place hplace => ⟨List.mem_cons_of_mem _ hplace.1, hplace.2⟩

theorem mem_describeCreatures {own : Bool} {creatures : List (CreatureId × Creature)} {playerAdded : Bool}
    {count : Nat} {thing : Described}
    (h : thing ∈ (describeCreatures player own creatures playerAdded count).described) :
    ∃ id, thing = .creature id := by
  induction creatures generalizing playerAdded count with
  | nil => exact absurd h List.not_mem_nil
  | cons creature rest ih =>
    unfold describeCreatures at h
    dsimp only at h
    split at h
    · exact ih h
    · split at h
      · exact ⟨_, List.mem_singleton.mp h⟩
      · obtain rfl | hrest := List.mem_cons.mp h
        · exact ⟨_, rfl⟩
        · exact ih hrest

theorem thingAt_topItems {place : Place} (h : place ∈ topItems view.tile) :
    (view.tile.thingAt place).isSome = true := by
  obtain ⟨k, hk, rfl⟩ := List.mem_map.mp h
  have hlt := List.mem_range.mp hk
  unfold Tile.getTopItemCount at hlt
  change (view.tile.items[_]?).isSome = true
  rw [isSome_getElem?]
  omega

theorem thingAt_downItems {place : Place} (h : place ∈ downItems view.tile) :
    (view.tile.thingAt place).isSome = true := by
  obtain ⟨k, hk, rfl⟩ := List.mem_map.mp h
  change (view.tile.items[k]?).isSome = true
  rw [isSome_getElem?]
  exact Nat.lt_of_lt_of_le (List.mem_range.mp hk) view.ordered.count

theorem thingAt_isSome {place : Place} (h : Described.item place ∈ view.GetTileDescription) :
    (view.tile.thingAt place).isSome = true := by
  have hground : Described.item place ∈ view.groundDescription → (view.tile.thingAt place).isSome = true := by
    intro hmem
    obtain ⟨heq, hsome⟩ := view.mem_groundDescription hmem
    cases heq
    exact hsome
  have htop : Described.item place ∈ (describeTopItems view.own (topItems view.tile)
      view.groundDescription.length).described → (view.tile.thingAt place).isSome = true := by
    intro hmem
    obtain ⟨_, hplace, heq⟩ := mem_describeTopItems hmem
    cases heq
    exact view.thingAt_topItems hplace
  -- an item is described in each part but that of the creatures
  have hcreatures : ∀ count, Described.item place ∉
      (describeCreatures player view.own view.creatures.reverse false count).described := by
    intro count hmem
    obtain ⟨id, heq⟩ := mem_describeCreatures hmem
    cases heq
  have hdown : ∀ count, Described.item place ∈ (Capped.walk 10 (downItems view.tile) count).map .item →
      (view.tile.thingAt place).isSome = true := by
    intro count hmem
    obtain ⟨_, hplace, heq⟩ := List.mem_map.mp hmem
    cases heq
    exact view.thingAt_downItems (Capped.mem_of_mem_walk hplace)
  unfold GetTileDescription at h
  dsimp only at h
  split at h
  · exact (List.mem_append.mp h).elim hground htop
  · have hfirst := fun hmem => (List.mem_append.mp hmem).elim hground htop
    split at h
    · exact (List.mem_append.mp h).elim hfirst fun hmem => absurd hmem (hcreatures _)
    · refine (List.mem_append.mp h).elim (fun hmem => ?_) (hdown _)
      exact (List.mem_append.mp hmem).elim hfirst fun hmem => absurd hmem (hcreatures _)

/-! ### Positions and indices -/

theorem getElem?_middle {α : Type} {a b c : List α} {t : α} {k : Nat} (ha : t ∉ a) (hc : t ∉ c) :
    (a ++ b ++ c)[k]? = some t ↔ a.length ≤ k ∧ b[k - a.length]? = some t := by
  constructor
  · intro hget
    by_cases hfirst : k < a.length
    · rw [List.append_assoc, List.getElem?_append_left hfirst] at hget
      exact absurd (List.mem_of_getElem? hget) ha
    have hle := Nat.not_lt.mp hfirst
    refine ⟨hle, ?_⟩
    by_cases hsecond : k < (a ++ b).length
    · rwa [List.getElem?_append_left hsecond, List.getElem?_append_right hle] at hget
    · rw [List.getElem?_append_right (Nat.not_lt.mp hsecond)] at hget
      exact absurd (List.mem_of_getElem? hget) hc
  · rintro ⟨hle, hget⟩
    have hlt : k < (a ++ b).length := by
      have hlt := (List.getElem?_eq_some_iff.mp hget).1
      rw [List.length_append]
      omega
    rw [List.getElem?_append_left hlt, List.getElem?_append_right hle, hget]

theorem getElem?_map_iff {α β : Type} {f : α → β} (hf : Function.Injective f) {l : List α} {a : α} {k : Nat} :
    (l.map f)[k]? = some (f a) ↔ l[k]? = some a := by
  rw [List.getElem?_map, ← Option.map_some, (Option.map_injective hf).eq_iff]

theorem item_injective : Function.Injective Described.item := fun _ _ => Described.item.inj

theorem creature_injective : Function.Injective Described.creature := fun _ _ => Described.creature.inj

theorem mem_topItems {tile : Tile} {i : Nat} :
    Place.item i ∈ topItems tile ↔ tile.downItemCount ≤ i ∧ i - tile.downItemCount < tile.getTopItemCount := by
  unfold topItems
  rw [List.mem_map]
  constructor
  · rintro ⟨k, hk, heq⟩
    cases heq
    rw [Nat.add_sub_cancel_left]
    exact ⟨Nat.le_add_right _ _, List.mem_range.mp hk⟩
  · rintro ⟨hle, hlt⟩
    refine ⟨i - tile.downItemCount, List.mem_range.mpr hlt, ?_⟩
    rw [Nat.add_sub_cancel' hle]

theorem mem_downItems {tile : Tile} {i : Nat} : Place.item i ∈ downItems tile ↔ i < tile.downItemCount := by
  unfold downItems
  rw [List.mem_map]
  constructor
  · rintro ⟨k, hk, heq⟩
    cases heq
    exact List.mem_range.mp hk
  · exact fun hlt => ⟨i, List.mem_range.mpr hlt, rfl⟩

theorem ground_notMem_topItems (tile : Tile) : Place.ground ∉ topItems tile := by
  intro hmem
  obtain ⟨k, -, heq⟩ := List.mem_map.mp hmem
  cases heq

theorem ground_notMem_downItems (tile : Tile) : Place.ground ∉ downItems tile := by
  intro hmem
  obtain ⟨k, -, heq⟩ := List.mem_map.mp hmem
  cases heq

theorem topItems_nodup (tile : Tile) : (topItems tile).Nodup := by
  refine List.Nodup.map (fun k k' heq => ?_) List.nodup_range
  exact Nat.add_left_cancel (Place.item.inj heq)

theorem downItems_nodup (tile : Tile) : (downItems tile).Nodup :=
  List.Nodup.map (fun _ _ heq => Place.item.inj heq) List.nodup_range

theorem item_notMem_creatures {ids : List CreatureId} {place : Place} :
    Described.item place ∉ ids.map Described.creature := by
  intro hmem
  obtain ⟨id, -, heq⟩ := List.mem_map.mp hmem
  cases heq

theorem creature_notMem_items {places : List Place} {id : CreatureId} :
    Described.creature id ∉ places.map Described.item := by
  intro hmem
  obtain ⟨it, -, heq⟩ := List.mem_map.mp hmem
  cases heq

theorem item_notMem_groundDescription {i : Nat} : Described.item (.item i) ∉ view.groundDescription :=
  fun hmem => nomatch (view.mem_groundDescription hmem).1

theorem creature_notMem_groundDescription {id : CreatureId} :
    Described.creature id ∉ view.groundDescription :=
  fun hmem => nomatch (view.mem_groundDescription hmem).1

theorem groundDescription_length :
    view.groundDescription.length = if view.tile.ground.isSome then 1 else 0 := by
  unfold groundDescription
  split <;> rfl

/-! ### The three kinds of things -/

theorem visible_ground (h : view.tile.ground.isSome = true) {k : Nat} :
    view.visible[k]? = some (.item .ground) ↔ k = 0 := by
  -- the ground is alone in the first part
  have hparts : view.visible = [] ++ [Described.item .ground] ++ ((topItems view.tile).map .item ++
      ((visibleIds player view.creatures.reverse).map .creature ++ (downItems view.tile).map .item)) := by
    unfold visible groundDescription
    rw [if_pos h]
    simp only [List.append_assoc, List.nil_append]
  rw [hparts, getElem?_middle List.not_mem_nil]
  · constructor
    · rintro ⟨-, hget⟩
      exact Nat.lt_one_iff.mp (List.getElem?_eq_some_iff.mp hget).1
    · rintro rfl
      exact ⟨Nat.le_refl _, rfl⟩
  · rw [List.mem_append, List.mem_append, List.mem_map_of_injective item_injective,
      List.mem_map_of_injective item_injective]
    rintro (hmem | hmem | hmem)
    · exact ground_notMem_topItems _ hmem
    · exact item_notMem_creatures hmem
    · exact ground_notMem_downItems _ hmem

theorem visible_topItem {i k : Nat} (h : view.tile.downItemCount ≤ i) :
    view.visible[k]? = some (.item (.item i)) ↔
      view.groundDescription.length ≤ k ∧
        (topItems view.tile)[k - view.groundDescription.length]? = some (.item i) := by
  have hparts : view.visible = view.groundDescription ++ (topItems view.tile).map .item ++
      ((visibleIds player view.creatures.reverse).map .creature ++ (downItems view.tile).map .item) := by
    unfold visible
    simp only [List.append_assoc]
  rw [hparts, getElem?_middle view.item_notMem_groundDescription, getElem?_map_iff item_injective]
  rw [List.mem_append, List.mem_map_of_injective item_injective, mem_downItems]
  rintro (hmem | hlt)
  · exact item_notMem_creatures hmem
  · exact absurd hlt (Nat.not_lt.mpr h)

theorem visible_downItem {i k : Nat} (h : i < view.tile.downItemCount) :
    view.visible[k]? = some (.item (.item i)) ↔
      view.groundDescription.length + (topItems view.tile).length +
          (visibleIds player view.creatures.reverse).length ≤ k ∧
        (downItems view.tile)[k - (view.groundDescription.length + (topItems view.tile).length +
          (visibleIds player view.creatures.reverse).length)]? = some (.item i) := by
  have hparts : view.visible = (view.groundDescription ++ (topItems view.tile).map .item ++
      (visibleIds player view.creatures.reverse).map .creature) ++ (downItems view.tile).map .item ++ [] := by
    unfold visible
    rw [List.append_nil]
  rw [hparts, getElem?_middle _ List.not_mem_nil, getElem?_map_iff item_injective, List.length_append,
    List.length_append, List.length_map, List.length_map]
  rw [List.mem_append, List.mem_append, List.mem_map_of_injective item_injective, mem_topItems]
  rintro ((hmem | ⟨hle, -⟩) | hmem)
  · exact view.item_notMem_groundDescription hmem
  · exact absurd h (Nat.not_lt.mpr hle)
  · exact item_notMem_creatures hmem

theorem visible_creature {id : CreatureId} {k : Nat} :
    view.visible[k]? = some (.creature id) ↔
      view.groundDescription.length + (topItems view.tile).length ≤ k ∧
        (visibleIds player view.creatures.reverse)[k - (view.groundDescription.length +
          (topItems view.tile).length)]? = some id := by
  unfold visible
  rw [getElem?_middle _ creature_notMem_items, getElem?_map_iff creature_injective, List.length_append, List.length_map]
  rw [List.mem_append]
  rintro (hmem | hmem)
  · exact view.creature_notMem_groundDescription hmem
  · exact creature_notMem_items hmem

/-! ### The counting loops -/

theorem countCreatures_eq {creatures : List (CreatureId × Creature)} {n : Nat} (h : n < 10) :
    countCreatures player creatures n =
      if n + (visibleIds player creatures).length < 10 then some (n + (visibleIds player creatures).length)
      else none := by
  induction creatures generalizing n with
  | nil => exact (if_pos h).symm
  | cons creature rest ih =>
    unfold countCreatures
    split
    next hseen =>
      rw [visibleIds_cons_of_seen rest hseen, List.length_cons]
      split
      next hfull => rw [if_neg (by omega)]
      next hroom => rw [ih (by omega), Nat.add_right_comm, Nat.add_assoc]
    -- a creature that is not seen is not counted
    next hhidden => rw [visibleIds_cons_of_hidden rest hhidden, ih h]

theorem findCreature_eq {creatures : List (CreatureId × Creature)} {id : CreatureId} {n : Nat}
    (hnodup : (creatures.map Prod.fst).Nodup) (hid : id ∈ visibleIds player creatures) :
    findCreature player id creatures n = Capped.search 10 id (visibleIds player creatures) n := by
  induction creatures generalizing n with
  | nil => cases hid
  | cons creature rest ih =>
    obtain ⟨hfresh, hrest⟩ := List.nodup_cons.mp hnodup
    unfold findCreature
    by_cases hseen : player.canSeeCreature creature.1 creature.2 = true
    · rw [visibleIds_cons_of_seen rest hseen] at hid ⊢
      rw [Capped.search, if_pos hseen]
      split
      · rfl
      next hne =>
        split
        · rfl
        · exact ih hrest ((List.mem_cons.mp hid).resolve_left (Ne.symm hne))
    · rw [visibleIds_cons_of_hidden rest hseen] at hid ⊢
      -- the creature looked for can be seen, so it is another one
      have hne : creature.1 ≠ id := by
        rintro rfl
        exact hfresh (mem_of_visibleIds hid)
      rw [if_neg hne, if_neg hseen]
      exact ih hrest hid

theorem visibleIds_reverse (creatures : List (CreatureId × Creature)) :
    visibleIds player creatures.reverse = (visibleIds player creatures).reverse := by
  unfold visibleIds
  rw [List.filter_reverse, List.map_reverse]

theorem visibleIds_nodup {creatures : List (CreatureId × Creature)} (h : (creatures.map Prod.fst).Nodup) :
    (visibleIds player creatures).Nodup := h.sublist (List.filter_sublist.map _)

theorem topItems_length (tile : Tile) : (topItems tile).length = tile.getTopItemCount := by
  rw [topItems, List.length_map, List.length_range]

variable {view}

theorem isAlwaysOnTop_iff {i : Nat} (hx : (view.tile.thingAt (.item i)).isSome = true) :
    view.isAlwaysOnTop (.item i) = true ↔ view.tile.downItemCount ≤ i := by
  obtain ⟨x, hx⟩ := Option.isSome_iff_exists.mp hx
  unfold isAlwaysOnTop
  rw [hx]
  exact view.ordered.isTop_iff hx

/-- **The position of an item** is its index among the visible things, if it is one of the first ten. -/
theorem getStackposOfItem_eq_some_iff {place : Place} (hx : (view.tile.thingAt place).isSome = true) {k : Nat} :
    view.getStackposOfItem place = some k ↔ k < 10 ∧ view.visible[k]? = some (.item place) := by
  have hground := view.groundDescription_length
  have hle := view.groundDescription_length_le
  have htops := topItems_length view.tile
  unfold getStackposOfItem
  dsimp only
  cases place with
  | ground =>
    have hsome : view.tile.ground.isSome = true := hx
    rw [if_pos ⟨hsome, rfl⟩, view.visible_ground hsome, Option.some_inj]
    constructor
    · rintro rfl
      exact ⟨by decide, rfl⟩
    · rintro ⟨-, rfl⟩
      rfl
  | item i =>
    rw [if_neg (fun h => nomatch h.2), ← hground]
    by_cases htop : view.tile.downItemCount ≤ i
    · rw [if_pos ((isAlwaysOnTop_iff hx).mpr htop), view.visible_topItem htop,
        Capped.search_eq_some_iff (topItems_nodup _) (by omega), and_left_comm]
    · have hdown : i < view.tile.downItemCount := Nat.not_le.mp htop
      rw [if_neg (mt (isAlwaysOnTop_iff hx).mp htop), view.visible_downItem hdown, ← htops]
      -- the creatures are counted in another order than they are described in
      have hvisible : (visibleIds player view.creatures.reverse).length =
          (visibleIds player view.creatures).length := by
        rw [visibleIds_reverse, List.length_reverse]
      rw [hvisible]
      split
      next hfull => exact iff_of_false (Option.some_ne_none k).symm fun h => absurd h.1 (by omega)
      next hroom =>
        -- the loop over the creatures gives up, or goes on to the items below
        rw [countCreatures_eq (Nat.not_le.mp hroom)]
        by_cases hfits : view.groundDescription.length + (topItems view.tile).length +
            (visibleIds player view.creatures).length < 10
        · rw [if_pos hfits]
          dsimp only
          rw [Capped.search_eq_some_iff (downItems_nodup _) hfits, and_left_comm]
        · rw [if_neg hfits]
          exact iff_of_false (Option.some_ne_none k).symm fun h => absurd h.1 (by omega)

/-- **The position of a creature**, if the player can see it. -/
theorem getStackposOfCreature_eq_some_iff {id : CreatureId} (hid : id ∈ visibleIds player view.creatures)
    {k : Nat} :
    view.getStackposOfCreature id = some k ↔ k < 10 ∧ view.visible[k]? = some (.creature id) := by
  have hnodup : (view.creatures.reverse.map Prod.fst).Nodup := by
    rw [List.map_reverse]
    exact List.nodup_reverse.mpr view.nodup
  have hmem : id ∈ visibleIds player view.creatures.reverse := by
    rw [visibleIds_reverse]
    exact List.mem_reverse.mpr hid
  unfold getStackposOfCreature
  dsimp only
  rw [view.visible_creature, ← view.groundDescription_length, ← topItems_length]
  split
  next hfull => exact iff_of_false nofun fun h => absurd h.1 (by omega)
  next hroom =>
    rw [findCreature_eq hnodup hmem,
      Capped.search_eq_some_iff (visibleIds_nodup hnodup) (Nat.not_le.mp hroom), and_left_comm]

end TileView

/-! ### The tile of the player -/

/-- A loop has described so many things, of which a creature is so many. -/
structure Loop.Counts (loop : Loop) (count : Nat) (id : CreatureId) (times : Nat) : Prop where
  count_eq : loop.count = count + loop.described.length
  times_eq : loop.described.count (.creature id) = times

namespace Loop.Counts

variable {loop : Loop} {count times : Nat} {id : CreatureId}

theorem cons (h : loop.Counts (count + 1) id times) (thing : Described) :
    (loop.cons thing).Counts count id (times + if thing == .creature id then 1 else 0) where
  count_eq := by
    change loop.count = count + (loop.described.length + 1)
    rw [h.count_eq]
    omega
  times_eq := by
    change List.count _ (thing :: loop.described) = _
    rw [List.count_cons, h.times_eq]

end Loop.Counts

theorem describeTopItems_own (places : List Place) {count : Nat} (h : count ≤ 8) (id : CreatureId) :
    (describeTopItems true places count).Counts count id 0 ∧
      (describeTopItems true places count).returned = false ∧
      (describeTopItems true places count).count ≤ 9 := by
  induction places generalizing count with
  | nil => exact ⟨⟨rfl, rfl⟩, rfl, Nat.le_succ_of_le h⟩
  | cons it rest ih =>
    unfold describeTopItems
    dsimp only
    split
    next hbreak => exact ⟨⟨rfl, rfl⟩, rfl, hbreak.1.le⟩
    next hgo =>
      have hne : count + 1 ≠ 9 := fun heq => hgo ⟨heq, rfl⟩
      have hnext : count + 1 ≤ 8 := by omega
      -- the count never gets to 10, as the loop ends at 9
      rw [if_neg (by omega)]
      obtain ⟨hcounts, hreturned, hle⟩ := ih hnext
      exact ⟨hcounts.cons (.item it), hreturned, hle⟩

theorem describeCreatures_own {creatures : List (CreatureId × Creature)} {playerAdded : Bool} {count : Nat}
    (h : count ≤ 9) (hnodup : (creatures.map Prod.fst).Nodup)
    (hplayer : player.id ∈ visibleIds player creatures ↔ playerAdded = false) :
    (describeCreatures player true creatures playerAdded count).Counts count player.id
        (if playerAdded then 0 else 1) ∧
      (describeCreatures player true creatures playerAdded count).count ≤ 10 ∧
      ((describeCreatures player true creatures playerAdded count).returned = false →
        (describeCreatures player true creatures playerAdded count).count ≤ 9) := by
  induction creatures generalizing playerAdded count with
  | nil =>
    -- the player is on the tile, so has been among the creatures before
    have hadded : playerAdded = true := by
      by_contra hne
      exact absurd (hplayer.mpr (Bool.eq_false_iff.mpr hne)) List.not_mem_nil
    subst hadded
    exact ⟨⟨rfl, rfl⟩, Nat.le_succ_of_le h, fun _ => h⟩
  | cons creature rest ih =>
    obtain ⟨hfresh, hrest⟩ := List.nodup_cons.mp hnodup
    unfold describeCreatures
    split
    next hhidden =>
      rw [Bool.not_eq_true'] at hhidden
      rw [visibleIds_cons_of_hidden rest (Bool.eq_false_iff.mp hhidden)] at hplayer
      exact ih h hrest hplayer
    next hseen =>
      rw [Bool.not_eq_true', Bool.not_eq_false] at hseen
      rw [visibleIds_cons_of_seen rest hseen] at hplayer
      dsimp only
      by_cases hlast : count = 9
      · -- there is room for one more, which is the player if there was none before
        subst hlast
        rw [if_pos rfl]
        refine ⟨⟨rfl, ?_⟩, Nat.le_refl _, fun hreturned => nomatch hreturned⟩
        cases playerAdded with
        | false => simp
        | true =>
          have hne : creature.1 ≠ player.id := by
            intro heq
            exact Bool.noConfusion (hplayer.mp (heq ▸ List.mem_cons_self))
          simp [hne]
      · have hid : (if true = true ∧ count = 9 ∧ (!playerAdded) = true then player.id else creature.1) =
            creature.1 := if_neg fun hplace => hlast hplace.2.1
        rw [hid, if_neg (by omega)]
        -- the player comes once, now or later
        have hplayer' : player.id ∈ visibleIds player rest ↔
            (if creature.1 = player.id then true else playerAdded) = false := by
          split
          next heq =>
            refine iff_of_false (fun hmem => hfresh ?_) nofun
            exact heq ▸ mem_of_visibleIds hmem
          next hne =>
            rw [← hplayer, List.mem_cons]
            exact (or_iff_right (Ne.symm hne)).symm
        have hnext : count + 1 ≤ 9 := by omega
        obtain ⟨hcounts, hle, hreturned⟩ := ih hnext hrest hplayer'
        refine ⟨?_, hle, hreturned⟩
        have hcons := hcounts.cons (.creature creature.1)
        have htimes : ((if (if creature.1 = player.id then true else playerAdded) = true then 0 else 1) +
            if Described.creature creature.1 == .creature player.id then 1 else 0) =
            if playerAdded = true then 0 else 1 := by
          by_cases heq : creature.1 = player.id
          · have hadded : playerAdded = false := hplayer.mp (heq ▸ List.mem_cons_self)
            simp [heq, hadded]
          · simp [heq]
        rwa [htimes] at hcons

namespace TileView

variable (view : TileView types player)

theorem count_groundDescription (id : CreatureId) : view.groundDescription.count (.creature id) = 0 :=
  List.count_eq_zero.mpr view.creature_notMem_groundDescription

theorem count_map_item (places : List Place) (id : CreatureId) :
    (places.map Described.item).count (.creature id) = 0 := List.count_eq_zero.mpr creature_notMem_items

theorem GetTileDescription_own (h : view.own = true) :
    view.GetTileDescription.length ≤ 10 ∧ view.GetTileDescription.count (.creature player.id) = 1 := by
  have hground := view.groundDescription_length_le
  have hnodup : (view.creatures.reverse.map Prod.fst).Nodup := by
    rw [List.map_reverse]
    exact List.nodup_reverse.mpr view.nodup
  obtain ⟨htop, htopReturned, htopCount⟩ := describeTopItems_own (topItems view.tile)
    (Nat.le_trans hground (by decide)) player.id
  have hplayer : player.id ∈ visibleIds player view.creatures.reverse ↔ false = false :=
    iff_of_true (view.player_visible_of_own h) rfl
  obtain ⟨hcreatures, hle, hreturned⟩ := describeCreatures_own htopCount hnodup hplayer
  have htopLength := htop.count_eq
  have hlength := hcreatures.count_eq
  rw [if_neg Bool.false_ne_true] at hcreatures
  unfold GetTileDescription
  dsimp only
  rw [h, htopReturned, if_neg Bool.false_ne_true]
  split
  · refine ⟨?_, ?_⟩
    · rw [List.length_append, List.length_append]
      omega
    · rw [List.count_append, List.count_append, view.count_groundDescription, htop.times_eq, hcreatures.times_eq]
  next hgo =>
    have hroom := hreturned (Bool.eq_false_iff.mpr hgo)
    refine ⟨?_, ?_⟩
    · rw [List.length_append, List.length_append, List.length_append, List.length_map,
        Capped.walk_eq_take (by omega), List.length_take]
      omega
    · rw [List.count_append, List.count_append, List.count_append, view.count_groundDescription, htop.times_eq,
        hcreatures.times_eq, count_map_item]

/-- What the two sides agree on. -/
structure Agrees : Prop where
  bounded : view.GetTileDescription.length ≤ 10
  player_once : view.own = true → view.GetTileDescription.count (.creature player.id) = 1
  items : view.own = false ∨ view.visible.length ≤ 10 →
    ∀ place, (view.tile.thingAt place).isSome = true →
      (∀ k, view.getStackposOfItem place = some k ↔ view.GetTileDescription[k]? = some (.item place)) ∧
        (view.getStackposOfItem place = none ↔ .item place ∉ view.GetTileDescription)
  creatures : view.own = false ∨ view.visible.length ≤ 10 →
    ∀ id ∈ visibleIds player view.creatures,
      (∀ k, view.getStackposOfCreature id = some k ↔ view.GetTileDescription[k]? = some (.creature id)) ∧
        (view.getStackposOfCreature id = none ↔ .creature id ∉ view.GetTileDescription)

theorem getElem?_take_iff {things : List Described} {thing : Described} {k : Nat} :
    (things.take 10)[k]? = some thing ↔ k < 10 ∧ things[k]? = some thing := by
  rw [List.getElem?_take]
  split
  next hlt => exact (and_iff_right hlt).symm
  next hge => exact iff_of_false nofun fun h => hge h.1

theorem position_none_iff {position : Option Nat} {things : List Described} {thing : Described}
    (h : ∀ k, position = some k ↔ things[k]? = some thing) : position = none ↔ thing ∉ things := by
  rw [Option.eq_none_iff_forall_ne_some, List.mem_iff_getElem?, not_exists]
  exact forall_congr' fun k => not_congr (h k)

/-- **Positions.** For every player and every tile. -/
theorem agrees : view.Agrees := by
  have hdescription : view.own = false ∨ view.visible.length ≤ 10 →
      view.GetTileDescription = view.visible.take 10 := by
    intro h
    refine view.GetTileDescription_eq fun hown => h.resolve_left ?_
    rw [hown]
    exact Bool.noConfusion
  refine ⟨?_, fun h => (view.GetTileDescription_own h).2, fun h place hx => ?_, fun h id hid => ?_⟩
  -- on another tile the ten first things are described, and no more
  · cases hown : view.own with
    | true => exact (view.GetTileDescription_own hown).1
    | false =>
      rw [hdescription (.inl hown), List.length_take]
      exact Nat.min_le_left _ _
  · have hindex : ∀ k, view.getStackposOfItem place = some k ↔
        view.GetTileDescription[k]? = some (.item place) := by
      intro k
      rw [getStackposOfItem_eq_some_iff hx, hdescription h, getElem?_take_iff]
    exact ⟨hindex, position_none_iff hindex⟩
  · have hindex : ∀ k, view.getStackposOfCreature id = some k ↔
        view.GetTileDescription[k]? = some (.creature id) := by
      intro k
      rw [getStackposOfCreature_eq_some_iff hid, hdescription h, getElem?_take_iff]
    exact ⟨hindex, position_none_iff hindex⟩

end TileView

end Moonlight.ProtocolGame
