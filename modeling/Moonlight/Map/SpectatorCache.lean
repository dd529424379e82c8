import Moonlight.Map.Spectators

/-!
# The spectator cache

`Map::getSpectators` keeps the answers of searches over the whole viewport and all floors in two caches,
one for players and one for all creatures. A search for players may also be answered from the cache of
all creatures. Whatever puts a creature on a tile or takes it off clears both caches; `setTile` does not.

A call is `Transparent` if the caller ends up with what it held and what the search would have found
(`fresh`). The caches hold what the search would find as long as they are filled with nothing else
(`Coherent`), but a call stores the caller's whole set: creatures it held before are served to later
callers. `calls_transparent` says that all calls of a run are transparent if every call that stores
starts with a set the search would find anyway, an empty one for example; `held_creature_is_served` is a
run that breaks this. `Map::moveCreature` collects the spectators of two positions in one set, and so
stores too many at the new one, but it clears the caches before anyone can ask.
-/

namespace Moonlight.Maps

open Words

/-- `maxViewportX` and `maxViewportY`. -/
def maxViewport : Int := 11

/-- The arguments of `getSpectators` besides the set. -/
structure Query where
  centerPos : Position
  multifloor : Bool := false
  onlyPlayers : Bool := false
  minRangeX : Int := 0
  maxRangeX : Int := 0
  minRangeY : Int := 0
  maxRangeY : Int := 0

namespace Query

/-- The floors searched. -/
def minRangeZ (q : Query) : Int :=
  if q.multifloor then
    if q.centerPos.z > 7 then max (q.centerPos.z.toNat - 2) 0 else 0
  else q.centerPos.z.toNat

def maxRangeZ (q : Query) : Int :=
  if q.multifloor then
    if q.centerPos.z > 7 then min (q.centerPos.z.toNat + 2) (MAP_MAX_LAYERS.toNat - 1)
    else if q.centerPos.z = 6 then 8
    else if q.centerPos.z = 7 then 9
    else 7
  else q.centerPos.z.toNat

/-- The ranges searched; a range of 0 stands for the viewport. -/
def ranges (q : Query) : Ranges where
  minRangeX := if q.minRangeX = 0 then -maxViewport else toInt32 (-q.minRangeX)
  maxRangeX := if q.maxRangeX = 0 then maxViewport else q.maxRangeX
  minRangeY := if q.minRangeY = 0 then -maxViewport else toInt32 (-q.minRangeY)
  maxRangeY := if q.maxRangeY = 0 then maxViewport else q.maxRangeY
  minRangeZ := q.minRangeZ
  maxRangeZ := q.maxRangeZ

/-- The searches whose answers are kept. -/
def cacheable (q : Query) : Bool :=
  q.ranges.minRangeX == -maxViewport && q.ranges.maxRangeX == maxViewport &&
    q.ranges.minRangeY == -maxViewport && q.ranges.maxRangeY == maxViewport && q.multifloor

end Query

/-- `std::map<Position, SpectatorHashSet>`. -/
abbrev SpectatorCache := Position → Option (List CreatureRef)

structure CachedMap where
  map : Map
  spectatorCache : SpectatorCache
  playersSpectatorCache : SpectatorCache

namespace CachedMap

def empty : CachedMap := ⟨Map.empty, fun _ => none, fun _ => none⟩

def clearSpectatorCache (s : CachedMap) : CachedMap :=
  { s with spectatorCache := fun _ => none, playersSpectatorCache := fun _ => none }

variable (isPlayer : Players)

/-- The answer the caches have for a search, if they have one. -/
def cached (s : CachedMap) (q : Query) : Option (List CreatureRef) :=
  if q.cacheable then
    match (if q.onlyPlayers then s.playersSpectatorCache q.centerPos else none) with
    | some found => some found
    | none =>
      match s.spectatorCache q.centerPos with
      | some found => some (if q.onlyPlayers then found.filter isPlayer else found)
      | none => none
  else none

/-- Keep the answer of a search. -/
def store (s : CachedMap) (q : Query) (spectators : List CreatureRef) : CachedMap :=
  if q.onlyPlayers then
    { s with playersSpectatorCache := Function.update s.playersSpectatorCache q.centerPos (some spectators) }
  else { s with spectatorCache := Function.update s.spectatorCache q.centerPos (some spectators) }

/-- `getSpectators`: the caller's set afterwards, and the caches. -/
def getSpectators (s : CachedMap) (q : Query) (spectators : List CreatureRef) :
    List CreatureRef × CachedMap :=
  if q.centerPos.z ≥ MAP_MAX_LAYERS then (spectators, s)
  else
    match s.cached isPlayer q with
    | some found => (if spectators.isEmpty then found else spectators ∪ found, s)
    | none =>
      let spectators := getSpectatorsInternal s.map q.centerPos q.ranges q.onlyPlayers spectators
      -- `cacheResult`: the whole set of the caller is kept
      (spectators, if q.cacheable then s.store q spectators else s)

/-! ### The operations -/

/-- The two searches of `Map::moveCreature`, around the old and the new position. -/
def moveQuery (pos : Position) : Query := { centerPos := pos, multifloor := true }

def moveCreature (s : CachedMap) (c : CreatureRef) (newPos : Position) : CachedMap :=
  match s.map.position c with
  | none => s
  | some oldPos =>
    if s.map.hasTile newPos then
      let (spectators, s) := s.getSpectators isPlayer (moveQuery oldPos) []
      let (_, s) := s.getSpectators isPlayer (moveQuery newPos) spectators
      -- `oldTile.removeThing` and `newTile.addThing` clear the caches
      { s with map := s.map.moveCreature isPlayer c newPos }.clearSpectatorCache
    else s

/-- `Tile::internalAddThing` clears the caches. -/
def placeCreature (s : CachedMap) (c : CreatureRef) (dest : Position) : CachedMap :=
  if s.map.hasTile dest ∧ s.map.position c = none then
    { s with map := s.map.placeCreature isPlayer c dest }.clearSpectatorCache
  else s

/-- `Tile::removeThing` clears the caches. -/
def removeCreature (s : CachedMap) (c : CreatureRef) : CachedMap :=
  match s.map.position c with
  | none => s
  | some _ => { s with map := s.map.removeCreature isPlayer c }.clearSpectatorCache

end CachedMap

inductive CacheOp where
  | map (op : Op)
  | getSpectators (q : Query) (spectators : List CreatureRef)

section

variable (isPlayer : Players)

def CachedMap.step (s : CachedMap) : CacheOp → CachedMap
  | .map (.setTile x y z) => { s with map := s.map.setTile x y z }
  | .map (.placeCreature c dest) => s.placeCreature isPlayer c dest
  | .map (.moveCreature c newPos) => s.moveCreature isPlayer c newPos
  | .map (.removeCreature c) => s.removeCreature isPlayer c
  | .getSpectators q spectators => (s.getSpectators isPlayer q spectators).2

/-- A call of `getSpectators`: where it was made and what it left with the caller. -/
structure Call where
  state : CachedMap
  query : Query
  held : List CreatureRef
  result : List CreatureRef

/-- The call of `getSpectators` with these arguments. -/
def CachedMap.call (s : CachedMap) (q : Query) (held : List CreatureRef) : Call :=
  ⟨s, q, held, (s.getSpectators isPlayer q held).1⟩

/-- The calls an operation makes. -/
def CachedMap.calls (s : CachedMap) : CacheOp → List Call
  | .map (.moveCreature c newPos) =>
    match s.map.position c with
    | none => []
    | some oldPos =>
      if s.map.hasTile newPos then
        let first := s.getSpectators isPlayer (moveQuery oldPos) []
        [s.call isPlayer (moveQuery oldPos) [], first.2.call isPlayer (moveQuery newPos) first.1]
      else []
  | .map _ => []
  | .getSpectators q held => [s.call isPlayer q held]

end

/-- What the search finds, without a cache. -/
def fresh (m : Map) (q : Query) : List CreatureRef :=
  if q.centerPos.z ≥ MAP_MAX_LAYERS then []
  else getSpectatorsInternal m q.centerPos q.ranges q.onlyPlayers []

/-- **The caller cannot tell the caches are there.** -/
def Call.Transparent (k : Call) : Prop :=
  ∀ c, c ∈ k.result ↔ c ∈ k.held ∨ c ∈ fresh k.state.map k.query

/-- A call that will store what it finds. -/
def CachedMap.Stores (isPlayer : Players) (s : CachedMap) (q : Query) : Prop :=
  q.centerPos.z < MAP_MAX_LAYERS ∧ q.cacheable = true ∧ s.cached isPlayer q = none

/-- A call that stores holds nothing the search would not find. -/
def StoresFresh (isPlayer : Players) (s : CachedMap) : CacheOp → Prop
  | .map _ => True
  | .getSpectators q held => s.Stores isPlayer q → ∀ c ∈ held, c ∈ fresh s.map q

/-! ### Searches of the whole viewport -/

/-- The search whose answer is kept for a position. -/
def viewport (pos : Position) (onlyPlayers : Bool) : Query :=
  { centerPos := pos, multifloor := true, onlyPlayers := onlyPlayers }

theorem ranges_of_cacheable {q : Query} (h : q.cacheable = true) :
    q.ranges = (viewport q.centerPos q.onlyPlayers).ranges := by
  unfold Query.cacheable at h
  simp only [Bool.and_eq_true, beq_iff_eq] at h
  obtain ⟨⟨⟨⟨hx₁, hx₂⟩, hy₁⟩, hy₂⟩, hmulti⟩ := h
  have hz₁ : q.ranges.minRangeZ = (viewport q.centerPos q.onlyPlayers).minRangeZ := by
    show q.minRangeZ = _
    unfold Query.minRangeZ viewport
    rw [hmulti]
  have hz₂ : q.ranges.maxRangeZ = (viewport q.centerPos q.onlyPlayers).maxRangeZ := by
    show q.maxRangeZ = _
    unfold Query.maxRangeZ viewport
    rw [hmulti]
  calc q.ranges
      = ⟨q.ranges.minRangeX, q.ranges.maxRangeX, q.ranges.minRangeY, q.ranges.maxRangeY,
          q.ranges.minRangeZ, q.ranges.maxRangeZ⟩ := rfl
    _ = (viewport q.centerPos q.onlyPlayers).ranges := by
        rw [hx₁, hx₂, hy₁, hy₂, hz₁, hz₂]
        rfl

theorem fresh_of_cacheable {q : Query} (h : q.cacheable = true) (m : Map) :
    fresh m q = fresh m (viewport q.centerPos q.onlyPlayers) := by
  unfold fresh
  rw [ranges_of_cacheable h]
  rfl

theorem fits_viewport (pos : Position) (onlyPlayers : Bool) :
    Fits pos (viewport pos onlyPlayers).ranges := by
  have hx := pos.x.toNat_lt
  have hy := pos.y.toNat_lt
  have hz := pos.z.toNat_lt
  have hmin : 0 ≤ (viewport pos onlyPlayers).minRangeZ ∧
      (viewport pos onlyPlayers).minRangeZ ≤ 255 := by
    unfold Query.minRangeZ viewport
    by_cases h7 : pos.z > 7
    · simp only [h7, if_true]
      omega
    · simp only [h7, if_true, if_false]
      omega
  have hmax : 0 ≤ (viewport pos onlyPlayers).maxRangeZ ∧
      (viewport pos onlyPlayers).maxRangeZ ≤ 255 := by
    have hlayers : MAP_MAX_LAYERS.toNat = 16 := rfl
    unfold Query.maxRangeZ viewport
    rw [hlayers]
    by_cases h7 : pos.z > 7
    · simp only [h7, if_true]
      omega
    · by_cases h6 : pos.z = 6 <;> by_cases h7' : pos.z = 7 <;> simp [h6, h7, h7']
  simp only [Query.ranges, viewport, maxViewport, if_true] at hmin hmax ⊢
  constructor <;> (unfold FitsInt32; dsimp only; omega)

section

variable {isPlayer : Players} {m m' : Map}

theorem mem_fresh_viewport (hl : Linked m) (hp : Placed isPlayer m) (pos : Position) (onlyPlayers : Bool)
    (c : CreatureRef) :
    c ∈ fresh m (viewport pos onlyPlayers) ↔
      pos.z < MAP_MAX_LAYERS ∧ ∃ p, m.position c = some p ∧
        InRange pos (viewport pos false).ranges p ∧ (onlyPlayers = true → isPlayer c = true) := by
  unfold fresh
  by_cases hz : pos.z < MAP_MAX_LAYERS
  · rw [if_neg (show ¬ (viewport pos onlyPlayers).centerPos.z ≥ MAP_MAX_LAYERS from UInt8.not_le.mpr hz)]
    refine (mem_getSpectatorsInternal hl hp (fits_viewport pos onlyPlayers) [] c).trans ?_
    simp only [List.not_mem_nil, false_or, hz, true_and]
    rfl
  · rw [if_pos (show (viewport pos onlyPlayers).centerPos.z ≥ MAP_MAX_LAYERS from UInt8.not_lt.mp hz)]
    simp [hz]

theorem mem_fresh_players (hl : Linked m) (hp : Placed isPlayer m) (pos : Position) (c : CreatureRef) :
    c ∈ fresh m (viewport pos true) ↔ c ∈ fresh m (viewport pos false) ∧ isPlayer c = true := by
  rw [mem_fresh_viewport hl hp, mem_fresh_viewport hl hp]
  constructor
  · rintro ⟨hz, p, hpos, hin, hplayer⟩
    exact ⟨⟨hz, p, hpos, hin, fun h => nomatch h⟩, hplayer rfl⟩
  · rintro ⟨⟨hz, p, hpos, hin, -⟩, hplayer⟩
    exact ⟨hz, p, hpos, hin, fun _ => hplayer⟩

end

/-! ### What the caches hold -/

/-- **The caches hold what the search would find.** -/
structure Coherent (isPlayer : Players) (s : CachedMap) : Prop where
  linked : Linked s.map
  placed : Placed isPlayer s.map
  all : ∀ {pos found}, s.spectatorCache pos = some found →
    ∀ c, c ∈ found ↔ c ∈ fresh s.map (viewport pos false)
  players : ∀ {pos found}, s.playersSpectatorCache pos = some found →
    ∀ c, c ∈ found ↔ c ∈ fresh s.map (viewport pos true)

section

variable {isPlayer : Players} {s : CachedMap}

theorem Coherent.of_clear {m : Map} (hl : Linked m) (hp : Placed isPlayer m) :
    Coherent isPlayer { s with map := m }.clearSpectatorCache where
  linked := hl
  placed := hp
  all := fun h => nomatch h
  players := fun h => nomatch h

theorem empty_coherent : Coherent isPlayer CachedMap.empty where
  linked := empty_linked
  placed := empty_placed
  all := fun h => nomatch h
  players := fun h => nomatch h

theorem Coherent.mem_cached (h : Coherent isPlayer s) {q : Query} {found : List CreatureRef}
    (hcached : s.cached isPlayer q = some found) (c : CreatureRef) : c ∈ found ↔ c ∈ fresh s.map q := by
  unfold CachedMap.cached at hcached
  split at hcached
  case isFalse => cases hcached
  case isTrue hq =>
    rw [fresh_of_cacheable hq]
    cases honly : q.onlyPlayers with
    | false =>
      rw [honly] at hcached
      cases hall : s.spectatorCache q.centerPos with
      | none => simp [hall] at hcached
      | some found' =>
        obtain rfl : found' = found := by simpa [hall] using hcached
        exact h.all hall c
    | true =>
      rw [honly] at hcached
      cases hplayers : s.playersSpectatorCache q.centerPos with
      | some found' =>
        obtain rfl : found' = found := by simpa [hplayers] using hcached
        exact h.players hplayers c
      | none =>
        -- the fallback: the players among the creatures kept for this position
        cases hall : s.spectatorCache q.centerPos with
        | none => simp [hplayers, hall] at hcached
        | some found' =>
          obtain rfl : found'.filter isPlayer = found := by simpa [hplayers, hall] using hcached
          rw [List.mem_filter, h.all hall, mem_fresh_players h.linked h.placed]

/-- **A call is transparent where the caches are coherent.** -/
theorem Coherent.transparent (h : Coherent isPlayer s) (q : Query) (held : List CreatureRef) :
    (s.call isPlayer q held).Transparent := by
  intro c
  show c ∈ (s.getSpectators isPlayer q held).1 ↔ c ∈ held ∨ c ∈ fresh s.map q
  unfold CachedMap.getSpectators
  split
  case isTrue hz =>
    unfold fresh
    rw [if_pos hz]
    simp
  case isFalse hz =>
    cases hcached : s.cached isPlayer q with
    | some found =>
      rw [← h.mem_cached hcached]
      by_cases hempty : held.isEmpty = true
      · obtain rfl : held = [] := by simpa using hempty
        simp
      · simp only [hempty, Bool.false_eq_true, if_false]
        exact List.mem_union_iff
    | none =>
      unfold fresh
      rw [if_neg hz]
      exact mem_getSpectatorsInternal_held h.linked held c

/-! ### Runs -/

theorem getSpectators_map (q : Query) (held : List CreatureRef) :
    (s.getSpectators isPlayer q held).2.map = s.map := by
  unfold CachedMap.getSpectators
  split
  · rfl
  · split
    · rfl
    · dsimp only
      split
      · unfold CachedMap.store
        split <;> rfl
      · rfl

variable (isPlayer s) in
theorem getSpectators_cases (q : Query) (held : List CreatureRef) :
    (s.getSpectators isPlayer q held).2 = s ∨ (s.Stores isPlayer q ∧
      (s.getSpectators isPlayer q held).2 =
        s.store q (getSpectatorsInternal s.map q.centerPos q.ranges q.onlyPlayers held)) := by
  unfold CachedMap.getSpectators
  split
  case isTrue => exact .inl rfl
  case isFalse hz =>
    cases hcached : s.cached isPlayer q with
    | some found => exact .inl rfl
    | none =>
      by_cases hq : q.cacheable = true
      · refine .inr ⟨⟨UInt8.not_le.mp hz, hq, hcached⟩, ?_⟩
        simp only [hq, if_true]
      · refine .inl ?_
        simp only [hq]
        rfl

theorem Coherent.store (h : Coherent isPlayer s) {q : Query} (hq : s.Stores isPlayer q)
    {held : List CreatureRef} (hheld : ∀ c ∈ held, c ∈ fresh s.map q) :
    Coherent isPlayer (s.store q (getSpectatorsInternal s.map q.centerPos q.ranges q.onlyPlayers held)) := by
  have hmem : ∀ c, c ∈ getSpectatorsInternal s.map q.centerPos q.ranges q.onlyPlayers held ↔
      c ∈ fresh s.map (viewport q.centerPos q.onlyPlayers) := by
    intro c
    rw [mem_getSpectatorsInternal_held h.linked, ← fresh_of_cacheable hq.2.1]
    have hfresh : fresh s.map q = getSpectatorsInternal s.map q.centerPos q.ranges q.onlyPlayers [] :=
      if_neg (UInt8.not_le.mpr hq.1)
    rw [← hfresh]
    exact ⟨fun hc => hc.elim (hheld c) id, .inr⟩
  unfold CachedMap.store
  cases honly : q.onlyPlayers with
  | true =>
    refine ⟨h.linked, h.placed, h.all, ?_⟩
    intro pos found hfound c
    by_cases hpos : pos = q.centerPos
    · subst hpos
      rw [honly] at hmem
      obtain rfl : getSpectatorsInternal s.map q.centerPos q.ranges true held = found := by
        simpa using hfound
      exact hmem c
    · exact h.players (by simpa [hpos] using hfound) c
  | false =>
    refine ⟨h.linked, h.placed, ?_, h.players⟩
    intro pos found hfound c
    by_cases hpos : pos = q.centerPos
    · subst hpos
      rw [honly] at hmem
      obtain rfl : getSpectatorsInternal s.map q.centerPos q.ranges false held = found := by
        simpa using hfound
      exact hmem c
    · exact h.all (by simpa [hpos] using hfound) c

theorem Coherent.getSpectators (h : Coherent isPlayer s) {q : Query} {held : List CreatureRef}
    (hheld : s.Stores isPlayer q → ∀ c ∈ held, c ∈ fresh s.map q) :
    Coherent isPlayer (s.getSpectators isPlayer q held).2 := by
  obtain heq | ⟨hstores, heq⟩ := getSpectators_cases isPlayer s q held
  · rw [heq]
    exact h
  · rw [heq]
    exact h.store hstores (hheld hstores)

theorem Coherent.setTile (h : Coherent isPlayer s) (x y : UInt16) (z : UInt8) :
    Coherent isPlayer { s with map := s.map.setTile x y z } := by
  obtain ⟨hl, hp⟩ : Linked (s.map.setTile x y z) ∧ Placed isPlayer (s.map.setTile x y z) :=
    step_linked_placed s.map (.setTile x y z) ⟨h.linked, h.placed⟩
  have hpos : (s.map.setTile x y z).position = s.map.position := by
    unfold Map.setTile
    split
    · rfl
    · unfold Map.modifyLeaf Map.createLeaf
      dsimp only
      split <;> rfl
  have hfresh : ∀ pos only c, c ∈ fresh s.map (viewport pos only) ↔
      c ∈ fresh (s.map.setTile x y z) (viewport pos only) := by
    intro pos only c
    rw [mem_fresh_viewport h.linked h.placed, mem_fresh_viewport hl hp, hpos]
  refine ⟨hl, hp, ?_, ?_⟩
  · intro pos found hfound c
    exact (h.all hfound c).trans (hfresh pos false c)
  · intro pos found hfound c
    exact (h.players hfound c).trans (hfresh pos true c)

/-- **The caches stay coherent.** -/
theorem Coherent.step (h : Coherent isPlayer s) {op : CacheOp} (hop : StoresFresh isPlayer s op) :
    Coherent isPlayer (s.step isPlayer op) := by
  have hmap : ∀ op, Linked (Maps.step isPlayer s.map op) ∧ Placed isPlayer (Maps.step isPlayer s.map op) :=
    fun op => step_linked_placed s.map op ⟨h.linked, h.placed⟩
  cases op with
  | getSpectators q held => exact h.getSpectators hop
  | map op =>
    cases op with
    | setTile x y z => exact h.setTile x y z
    | placeCreature c dest =>
      show Coherent isPlayer (s.placeCreature isPlayer c dest)
      unfold CachedMap.placeCreature
      split
      · exact .of_clear (hmap (.placeCreature c dest)).1 (hmap (.placeCreature c dest)).2
      · exact h
    | removeCreature c =>
      show Coherent isPlayer (s.removeCreature isPlayer c)
      unfold CachedMap.removeCreature
      split
      · exact h
      · exact .of_clear (hmap (.removeCreature c)).1 (hmap (.removeCreature c)).2
    | moveCreature c newPos =>
      show Coherent isPlayer (s.moveCreature isPlayer c newPos)
      unfold CachedMap.moveCreature
      split
      · exact h
      · split
        · -- whatever the two searches stored is cleared
          dsimp only
          rw [getSpectators_map, getSpectators_map]
          exact .of_clear (hmap (.moveCreature c newPos)).1 (hmap (.moveCreature c newPos)).2
        · exact h

theorem Coherent.calls (h : Coherent isPlayer s) (op : CacheOp) {k : Call}
    (hk : k ∈ s.calls isPlayer op) : k.Transparent := by
  unfold CachedMap.calls at hk
  split at hk
  case h_1 c newPos =>
    split at hk
    · cases hk
    case h_2 oldPos _ =>
      split at hk
      · -- the first search starts with nothing, so the second one meets coherent caches as well
        have hfirst : Coherent isPlayer (s.getSpectators isPlayer (CachedMap.moveQuery oldPos) []).2 :=
          h.getSpectators fun _ c hc => nomatch hc
        rcases List.mem_pair.mp hk with rfl | rfl
        · exact h.transparent _ _
        · exact hfirst.transparent _ _
      · cases hk
  case h_2 => cases hk
  case h_3 q held =>
    obtain rfl := List.mem_singleton.mp hk
    exact h.transparent q held

end

/-- **Cache transparency.** If every call that stores holds nothing but what the search finds, every call
of the run is transparent. -/
theorem calls_transparent (isPlayer : Players) (ops pre : List CacheOp) (op : CacheOp)
    (hops : Runs.Meets (CachedMap.step isPlayer) (StoresFresh isPlayer) CachedMap.empty ops)
    (hpre : pre ++ [op] <+: ops) :
    ∀ k ∈ (Runs.run (CachedMap.step isPlayer) CachedMap.empty pre).calls isPlayer op, k.Transparent := by
  obtain ⟨post, rfl⟩ := hpre
  have hmeets := (Runs.meets_append.mp (Runs.meets_append.mp hops).1).1
  have hinv : Coherent isPlayer (Runs.run (CachedMap.step isPlayer) CachedMap.empty pre) :=
    Runs.run_invariant (fun _ _ h hop => h.step hop) empty_coherent hmeets
  exact fun k hk => hinv.calls op hk

/-- The creatures of `sampleRun`, and a search around the first one by a caller that holds `held`. -/
def searchRun (held : List CreatureRef) : List CacheOp :=
  sampleRun.map .map ++ [.getSpectators (viewport ⟨0, 0, 7⟩ false) held]

/-- A search around a creature, answered from the cache a first search filled. -/
theorem second_search_transparent :
    ((Runs.run (CachedMap.step (· == 2)) CachedMap.empty (searchRun [])).call (· == 2)
      (viewport ⟨0, 0, 7⟩ true) [2]).Transparent := by
  refine calls_transparent (· == 2) (searchRun [] ++ [.getSpectators (viewport ⟨0, 0, 7⟩ true) [2]])
    (searchRun []) (.getSpectators (viewport ⟨0, 0, 7⟩ true) [2]) ?_ (List.prefix_refl _) _
    (List.mem_singleton.mpr rfl)
  refine Runs.meets_append.mpr ⟨Runs.meets_append.mpr ⟨?_, ?_⟩, ?_⟩
  · exact ⟨trivial, trivial, trivial, trivial, trivial⟩
  · exact ⟨fun _ c hc => (nomatch hc), trivial⟩
  · -- the second search is answered from the cache and stores nothing
    refine ⟨?_, trivial⟩
    rintro ⟨-, -, hnone⟩
    exact absurd hnone (by decide)

/-- **A held creature is served.** The caller of the first search holds creature 2, twenty tiles away; the
next caller holds nothing and is given creature 2. -/
theorem held_creature_is_served :
    ¬ ((Runs.run (CachedMap.step (· == 2)) CachedMap.empty (searchRun [2])).call (· == 2)
      (viewport ⟨0, 0, 7⟩ false) []).Transparent := by
  intro h
  have hserved := (h 2).mp (by decide)
  exact absurd hserved (by decide)

end Moonlight.Maps
