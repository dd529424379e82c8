import Mathlib.Data.UInt
import Moonlight.Lib.Runs

/-!
# Guilds

A `Guild` (creatures/players/grouping/guild.cpp) lists its members who are online, and each player has a pointer to
a guild. Players are entered when they appear in the game, are taken out when they leave it, and change from one
list to another with `Player::setGuild` (creatures/players/player.cpp). A guild from which the last member is taken
is deleted.

`Lists` says who is listed where, for any relation; each function changes the relation in one place. That the
relation is the pointers of the players in the game is what `run_exact_iff` is about: `setGuild` gives up half way
if the new guild has no rank to begin with, and then the player stays on the list of the old one.

A guild is a reference into `State.objects`, which has no object for one that has been deleted; a function that
follows such a reference has no result. Guilds that nobody has been a member of since they were loaded are left out,
as are their names, messages and balances.
-/

namespace Moonlight.Guilds

abbrev PlayerRef := Nat

abbrev GuildRef := Nat

structure GuildRank where
  id : UInt32
  level : UInt8
  deriving DecidableEq, Repr

structure Guild where
  id : UInt32
  ranks : List GuildRank := []
  membersOnline : List PlayerRef := []

namespace Guild

def getRankById (g : Guild) (rankId : UInt32) : Option GuildRank := g.ranks.find? (·.id = rankId)

def getRankByLevel (g : Guild) (level : UInt8) : Option GuildRank := g.ranks.find? (·.level = level)

def addRank (g : Guild) (rank : GuildRank) : Guild := { g with ranks := g.ranks ++ [rank] }

end Guild

structure Player where
  guild : Option GuildRef := none
  guildRank : Option GuildRank := none
  guildNick : String := ""

structure State where
  inGame : PlayerRef → Bool
  players : PlayerRef → Player
  objects : GuildRef → Option Guild
  /-- `Game::guilds`. -/
  guilds : UInt32 → Option GuildRef
  /-- The next guild that `new` allocates. -/
  next : GuildRef

/-- What `IOLoginData::loadPlayer` finds about the guild of a player: its id, the rank of the player and the
nickname, and the ranks with which the guild is loaded if it is not there yet. -/
structure Membership where
  guildId : UInt32
  rank : GuildRank
  nick : String
  ranks : List GuildRank

namespace State

def setPlayer (s : State) (player : PlayerRef) (self : Player) : State :=
  { s with players := Function.update s.players player self }

/-- Write the object of a guild, or delete it. -/
def store (s : State) (this : GuildRef) (g : Option Guild) : State :=
  { s with objects := Function.update s.objects this g }

def setInGame (s : State) (player : PlayerRef) (value : Bool) : State :=
  { s with inGame := Function.update s.inGame player value }

/-! ### Guild -/

def addMember (s : State) (this : GuildRef) (player : PlayerRef) : Option State :=
  (s.objects this).map fun g => s.store this (some { g with membersOnline := g.membersOnline ++ [player] })

def removeGuild (s : State) (guildId : UInt32) : State :=
  { s with guilds := Function.update s.guilds guildId none }

def removeMember (s : State) (this : GuildRef) (player : PlayerRef) : Option State :=
  (s.objects this).map fun g =>
    let membersOnline := g.membersOnline.filter (· ≠ player)
    -- the guild is deleted here, whoever else has a pointer to it
    if membersOnline.isEmpty then (s.removeGuild g.id).store this none
    else s.store this (some { g with membersOnline := membersOnline })

/-! ### Player -/

/-- `removeMember` of a guild, if there is one. -/
def leave (s : State) (guild : Option GuildRef) (player : PlayerRef) : Option State :=
  match guild with
  | none => some s
  | some guild => s.removeMember guild player

def setGuild (s : State) (player : PlayerRef) (newGuild : Option GuildRef) : Option State :=
  if newGuild = (s.players player).guild then some s
  else
    let oldGuild := (s.players player).guild
    -- nickname, guild and rank are cleared before anything is known about the new guild
    let s := s.setPlayer player {}
    match newGuild with
    | none => s.leave oldGuild player
    | some newGuild =>
      (s.objects newGuild).bind fun g =>
        match g.getRankByLevel 1 with
        -- a guild without a rank of level 1 is an error, and the player is left in no guild
        | none => some s
        | some rank =>
          let s := s.setPlayer player { guild := some newGuild, guildRank := some rank }
          -- the old guild comes last, since it may be deleted
          (s.addMember newGuild player).bind fun s => s.leave oldGuild player

/-- `new Guild`, entered with `addGuild`. -/
def addGuild (s : State) (guildId : UInt32) (ranks : List GuildRank) : State :=
  { s with
    objects := Function.update s.objects s.next (some { id := guildId, ranks := ranks })
    guilds := Function.update s.guilds guildId (some s.next)
    next := s.next + 1 }

/-- The guild of a player is found, or loaded. -/
def loadGuild (s : State) (m : Membership) : State × GuildRef :=
  match s.guilds m.guildId with
  | some guild => (s, guild)
  | none => (s.addGuild m.guildId m.ranks, s.next)

/-- The rank of the player is added to the guild if it is not one of its ranks. -/
def loadRank (s : State) (this : GuildRef) (rank : GuildRank) : Option State :=
  (s.objects this).map fun g =>
    match g.getRankById rank.id with
    | some _ => s
    | none => s.store this (some (g.addRank rank))

def loadPlayer (s : State) (player : PlayerRef) : Option Membership → Option State
  | none => some (s.setPlayer player {})
  | some m =>
    let (s, guild) := s.loadGuild m
    (s.loadRank guild m.rank).map fun s =>
      s.setPlayer player { guild := some guild, guildRank := some m.rank, guildNick := m.nick }

def onCreatureAppear (s : State) (player : PlayerRef) : Option State :=
  match (s.players player).guild with
  | none => some s
  | some guild => s.addMember guild player

def onRemoveCreature (s : State) (player : PlayerRef) : Option State :=
  s.leave (s.players player).guild player

end State

inductive Event where
  /-- A player is loaded and appears in the game. -/
  | login (player : PlayerRef) (membership : Option Membership)
  | logout (player : PlayerRef)
  /-- A script sets the guild to the one with an id, or to none. -/
  | setGuild (player : PlayerRef) (guildId : Option UInt32)

namespace State

def login (s : State) (player : PlayerRef) (membership : Option Membership) : Option State :=
  if s.inGame player then some s
  else (s.loadPlayer player membership).bind fun s => (s.setInGame player true).onCreatureAppear player

def logout (s : State) (player : PlayerRef) : Option State :=
  if !s.inGame player then some s
  else (s.onRemoveCreature player).map fun s => s.setInGame player false

end State

def event (s : State) : Event → Option State
  | .login player membership => s.login player membership
  | .logout player => s.logout player
  | .setGuild player guildId => s.setGuild player (guildId.bind s.guilds)

def step (s : Option State) (e : Event) : Option State := s.bind (event · e)

/-- Nobody is in the game. -/
def State.start : State := ⟨fun _ => false, fun _ => {}, fun _ => none, fun _ => none, 0⟩

/-- **The membership lists are exact.** -/
structure Exact (s : State) : Prop where
  once : ∀ G g, s.objects G = some g → ∀ p,
    g.membersOnline.count p = if s.inGame p = true ∧ (s.players p).guild = some G then 1 else 0
  /-- A guild with no online member is removed. -/
  not_empty : ∀ G g, s.objects G = some g → g.membersOnline ≠ []
  guilds : ∀ id G, s.guilds id = some G → ∃ g, s.objects G = some g ∧ g.id = id
  /-- Nobody in the game refers to a removed guild. -/
  live : ∀ p G, s.inGame p = true → (s.players p).guild = some G → ∃ g, s.objects G = some g

/-- A player of the guild starts with this rank. -/
def State.hasFirstRank (s : State) (G : GuildRef) : Bool :=
  ((s.objects G).bind fun g => g.getRankByLevel 1).isSome

/-- Where `setGuild` changes anything: a guild without a first rank is given to nobody who has a guild, and if the
player is not in the game, the player is entered nowhere and has no guild that was deleted. -/
def Proper (o : Option State) : Event → Prop
  | .setGuild player guildId => ∀ s, o = some s →
    let newGuild := guildId.bind s.guilds
    let oldGuild := (s.players player).guild
    newGuild = oldGuild ∨
      match newGuild with
      | some G =>
        if s.hasFirstRank G then s.inGame player = true else s.inGame player = true → oldGuild = none
      | none => s.inGame player = true ∨ ∀ G, oldGuild = some G → s.objects G ≠ none
  | _ => True

/-! ### Who is listed -/

/-- Who is listed where, each player once. There may be one guild that has been loaded and is still vacant. -/
structure Lists (s : State) (vacant : Option GuildRef) (listed : PlayerRef → GuildRef → Prop) : Prop where
  nodup : ∀ G g, s.objects G = some g → g.membersOnline.Nodup
  mem_iff : ∀ G g, s.objects G = some g → ∀ p, p ∈ g.membersOnline ↔ listed p G
  not_empty : ∀ G g, s.objects G = some g → vacant ≠ some G → g.membersOnline ≠ []
  live : ∀ p G, listed p G → ∃ g, s.objects G = some g
  guilds_iff : ∀ id G, s.guilds id = some G ↔ ∃ g, s.objects G = some g ∧ g.id = id
  fresh : ∀ G, s.next ≤ G → s.objects G = none

namespace Lists

variable {s : State} {vacant vacant' : Option GuildRef} {listed listed' : PlayerRef → GuildRef → Prop}
  {p : PlayerRef} {this : GuildRef} {g g' : Guild}

theorem start : Lists State.start none fun _ _ => False where
  nodup _ _ h := nomatch h
  mem_iff _ _ h := nomatch h
  not_empty _ _ h := nomatch h
  live _ _ h := h.elim
  guilds_iff _ _ := ⟨fun h => (nomatch h), fun ⟨_, h, _⟩ => nomatch h⟩
  fresh _ _ := rfl

theorem congr (h : Lists s vacant listed) (hiff : ∀ p G, listed p G ↔ listed' p G) : Lists s vacant listed' := by
  have heq : listed = listed' := funext fun p => funext fun G => propext (hiff p G)
  exact heq ▸ h

theorem setPlayer (h : Lists s vacant listed) (p : PlayerRef) (self : Player) :
    Lists (s.setPlayer p self) vacant listed :=
  ⟨h.nodup, h.mem_iff, h.not_empty, h.live, h.guilds_iff, h.fresh⟩

theorem setInGame (h : Lists s vacant listed) (p : PlayerRef) (value : Bool) :
    Lists (s.setInGame p value) vacant listed :=
  ⟨h.nodup, h.mem_iff, h.not_empty, h.live, h.guilds_iff, h.fresh⟩

theorem replace (h : Lists s vacant listed) (hg : s.objects this = some g) (hid : g'.id = g.id)
    (hnodup : g'.membersOnline.Nodup) (hne : vacant' ≠ some this → g'.membersOnline ≠ [])
    (hvacant : ∀ G, G ≠ this → vacant' ≠ some G → vacant ≠ some G)
    (hmem : ∀ q, q ∈ g'.membersOnline ↔ listed' q this)
    (hothers : ∀ q G, G ≠ this → (listed' q G ↔ listed q G)) :
    Lists (s.store this (some g')) vacant' listed' := by
  have hthis : (s.store this (some g')).objects this = some g' := Function.update_self _ _ _
  have hother : ∀ G, G ≠ this → (s.store this (some g')).objects G = s.objects G :=
    fun G hG => Function.update_of_ne hG _ _
  -- each time: the guild itself, and the others, which are as they were
  refine ⟨?_, ?_, ?_, ?_, ?_, ?_⟩
  · intro G g₁ hg₁
    by_cases hG : G = this
    · subst hG
      cases hthis.symm.trans hg₁
      exact hnodup
    · exact h.nodup G g₁ ((hother G hG).symm.trans hg₁)
  · intro G g₁ hg₁ q
    by_cases hG : G = this
    · subst hG
      cases hthis.symm.trans hg₁
      exact hmem q
    · rw [hothers q G hG]
      exact h.mem_iff G g₁ ((hother G hG).symm.trans hg₁) q
  · intro G g₁ hg₁ hfull
    by_cases hG : G = this
    · subst hG
      cases hthis.symm.trans hg₁
      exact hne hfull
    · exact h.not_empty G g₁ ((hother G hG).symm.trans hg₁) (hvacant G hG hfull)
  · intro q G hlisted
    by_cases hG : G = this
    · subst hG
      exact ⟨g', hthis⟩
    · rw [hother G hG]
      exact h.live q G ((hothers q G hG).mp hlisted)
  · intro id G
    change s.guilds id = some G ↔ _
    -- the registered id is that of the old object
    rw [h.guilds_iff id G]
    by_cases hG : G = this
    · subst hG
      rw [hthis, hg]
      constructor
      · rintro ⟨_, ⟨⟩, hgid⟩
        exact ⟨g', rfl, hid.trans hgid⟩
      · rintro ⟨_, ⟨⟩, hgid⟩
        exact ⟨g, rfl, hid.symm.trans hgid⟩
    · rw [hother G hG]
  · intro G hG
    have hne : G ≠ this := by
      rintro rfl
      cases hg.symm.trans (h.fresh G hG)
    exact (hother G hne).trans (h.fresh G hG)

theorem addMember (h : Lists s vacant listed) (hg : s.objects this = some g)
    (hvacant : ∀ G, vacant = some G → G = this) (hp : ¬ listed p this) :
    ∃ s', s.addMember this p = some s' ∧ s'.players = s.players ∧ s'.inGame = s.inGame ∧
      Lists s' none fun q G => listed q G ∨ q = p ∧ G = this := by
  unfold State.addMember
  rw [hg]
  refine ⟨_, rfl, rfl, rfl, h.replace hg rfl ?_ ?_ ?_ ?_ ?_⟩
  · refine List.nodup_append.mpr ⟨h.nodup this g hg, List.pairwise_singleton _ p, ?_⟩
    rintro q hq q' hq' rfl
    rw [List.mem_singleton.mp hq'] at hq
    exact hp ((h.mem_iff this g hg p).mp hq)
  · exact fun _ => List.append_ne_nil_of_right_ne_nil _ (List.cons_ne_nil _ _)
  · exact fun G hG _ heq => hG (hvacant G heq)
  · intro q
    rw [List.mem_append, List.mem_singleton, h.mem_iff this g hg q, and_iff_left rfl]
  · exact fun q G hG => or_iff_left fun heq => hG heq.2

theorem delete (h : Lists s none listed) (hg : s.objects this = some g) (hnobody : ∀ q, ¬ listed' q this)
    (hothers : ∀ q G, G ≠ this → (listed' q G ↔ listed q G)) :
    Lists ((s.removeGuild g.id).store this none) none listed' := by
  have hthis : ((s.removeGuild g.id).store this none).objects this = none := Function.update_self _ _ _
  have hother : ∀ G, G ≠ this → ((s.removeGuild g.id).store this none).objects G = s.objects G :=
    fun G hG => Function.update_of_ne hG _ _
  -- what is there afterwards is another guild, unchanged
  have hlive : ∀ {G g₁}, ((s.removeGuild g.id).store this none).objects G = some g₁ →
      G ≠ this ∧ s.objects G = some g₁ := by
    intro G g₁ hg₁
    have hG : G ≠ this := by
      rintro rfl
      cases hthis.symm.trans hg₁
    exact ⟨hG, (hother G hG).symm.trans hg₁⟩
  refine ⟨?_, ?_, ?_, ?_, ?_, ?_⟩
  · exact fun G g₁ hg₁ => h.nodup G g₁ (hlive hg₁).2
  · intro G g₁ hg₁ q
    rw [hothers q G (hlive hg₁).1]
    exact h.mem_iff G g₁ (hlive hg₁).2 q
  · exact fun G g₁ hg₁ => h.not_empty G g₁ (hlive hg₁).2
  · intro q G hlisted
    have hG : G ≠ this := by
      rintro rfl
      exact hnobody q hlisted
    rw [hother G hG]
    exact h.live q G ((hothers q G hG).mp hlisted)
  · intro id G
    change Function.update s.guilds g.id none id = some G ↔ _
    by_cases hid : id = g.id
    · subst hid
      rw [Function.update_self]
      refine iff_of_false nofun ?_
      -- the id belongs to the deleted guild
      rintro ⟨g₁, hg₁, hgid⟩
      have hregistered := (h.guilds_iff g.id G).mpr ⟨g₁, (hlive hg₁).2, hgid⟩
      cases hregistered.symm.trans ((h.guilds_iff g.id this).mpr ⟨g, hg, rfl⟩)
      exact (hlive hg₁).1 rfl
    · rw [Function.update_of_ne hid, h.guilds_iff id G]
      constructor
      · rintro ⟨g₁, hg₁, hgid⟩
        have hG : G ≠ this := by
          rintro rfl
          cases hg.symm.trans hg₁
          exact hid hgid.symm
        exact ⟨g₁, (hother G hG).trans hg₁, hgid⟩
      · rintro ⟨g₁, hg₁, hgid⟩
        exact ⟨g₁, (hlive hg₁).2, hgid⟩
  · intro G hG
    by_cases hGthis : G = this
    · rw [hGthis]
      exact hthis
    · exact (hother G hGthis).trans (h.fresh G hG)

theorem removeMember (h : Lists s none listed) (hg : s.objects this = some g) (p : PlayerRef) :
    ∃ s', s.removeMember this p = some s' ∧ s'.players = s.players ∧ s'.inGame = s.inGame ∧
      Lists s' none fun q G => listed q G ∧ ¬ (q = p ∧ G = this) := by
  have hmem : ∀ q, q ∈ g.membersOnline.filter (· ≠ p) ↔ listed q this ∧ ¬ (q = p ∧ this = this) := by
    intro q
    rw [List.mem_filter, h.mem_iff this g hg q, decide_eq_true_iff, and_iff_left (a := q = p) rfl]
  have hothers : ∀ q G, G ≠ this → (listed q G ∧ ¬ (q = p ∧ G = this) ↔ listed q G) :=
    fun q G hG => and_iff_left fun heq => hG heq.2
  unfold State.removeMember
  rw [hg, Option.map_some]
  refine ⟨_, rfl, ?_, ?_, ?_⟩
  · dsimp only
    split
    · rfl
    · rfl
  · dsimp only
    split
    · rfl
    · rfl
  · dsimp only
    split
    next hempty =>
      -- nobody is left
      refine h.delete hg (fun q hq => ?_) hothers
      have hin := (hmem q).mpr hq
      rw [List.isEmpty_iff.mp hempty] at hin
      exact List.not_mem_nil hin
    next hrest =>
      exact h.replace hg rfl ((h.nodup this g hg).filter _) (fun _ hnil => hrest (List.isEmpty_iff.mpr hnil))
        (fun _ _ => id) hmem hothers

theorem addGuild (h : Lists s none listed) {guildId : UInt32} (hnone : s.guilds guildId = none)
    (ranks : List GuildRank) : Lists (s.addGuild guildId ranks) (some s.next) listed := by
  have hnew : (s.addGuild guildId ranks).objects s.next = some { id := guildId, ranks := ranks } :=
    Function.update_self _ _ _
  have hother : ∀ G, G ≠ s.next → (s.addGuild guildId ranks).objects G = s.objects G :=
    fun G hG => Function.update_of_ne hG _ _
  have hunused : s.objects s.next = none := h.fresh _ (Nat.le_refl _)
  -- nobody can be listed in a guild that was not there
  have hnobody : ∀ q, ¬ listed q s.next := by
    intro q hq
    obtain ⟨g, hg⟩ := h.live q _ hq
    cases hg.symm.trans hunused
  refine ⟨?_, ?_, ?_, ?_, ?_, ?_⟩
  · intro G g hg
    by_cases hG : G = s.next
    · subst hG
      cases hnew.symm.trans hg
      exact List.nodup_nil
    · exact h.nodup G g ((hother G hG).symm.trans hg)
  · intro G g hg q
    by_cases hG : G = s.next
    · subst hG
      cases hnew.symm.trans hg
      exact iff_of_false List.not_mem_nil (hnobody q)
    · exact h.mem_iff G g ((hother G hG).symm.trans hg) q
  · intro G g hg hfull
    have hG : G ≠ s.next := fun heq => hfull (congrArg some heq.symm)
    exact h.not_empty G g ((hother G hG).symm.trans hg) nofun
  · intro q G hlisted
    have hG : G ≠ s.next := by
      rintro rfl
      exact hnobody q hlisted
    rw [hother G hG]
    exact h.live q G hlisted
  · intro id G
    change Function.update s.guilds guildId (some s.next) id = some G ↔ _
    by_cases hG : G = s.next
    · subst hG
      rw [hnew]
      by_cases hid : id = guildId
      · subst hid
        rw [Function.update_self]
        exact iff_of_true rfl ⟨_, rfl, rfl⟩
      · rw [Function.update_of_ne hid, h.guilds_iff id s.next, hunused]
        refine iff_of_false (fun ⟨_, hg, _⟩ => nomatch hg) ?_
        rintro ⟨_, ⟨⟩, hgid⟩
        exact hid hgid.symm
    · rw [hother G hG, ← h.guilds_iff id G]
      by_cases hid : id = guildId
      · subst hid
        rw [Function.update_self, hnone]
        exact iff_of_false (fun heq => hG (Option.some.inj heq).symm) nofun
      · rw [Function.update_of_ne hid]
  · intro G hG
    have hle : s.next + 1 ≤ G := hG
    exact (hother G (Nat.ne_of_gt hle)).trans (h.fresh G (Nat.le_of_succ_le hle))

theorem loadRank (h : Lists s vacant listed) (hg : s.objects this = some g) (rank : GuildRank) :
    ∃ s', s.loadRank this rank = some s' ∧ s'.players = s.players ∧ s'.inGame = s.inGame ∧
      (∃ g', s'.objects this = some g') ∧ Lists s' vacant listed := by
  unfold State.loadRank
  rw [hg, Option.map_some]
  cases g.getRankById rank.id with
  | some _ => exact ⟨s, rfl, rfl, rfl, ⟨g, hg⟩, h⟩
  | none =>
    exact ⟨_, rfl, rfl, rfl, ⟨_, Function.update_self _ _ _⟩,
      h.replace hg rfl (h.nodup this g hg) (h.not_empty this g hg) (fun _ _ => id) (h.mem_iff this g hg)
        fun _ _ _ => Iff.rfl⟩

end Lists

/-! ### The events -/

/-- The player is in the game and has a pointer to the guild. -/
def Pointers (s : State) (p : PlayerRef) (G : GuildRef) : Prop :=
  s.inGame p = true ∧ (s.players p).guild = some G

/-- The lists are the pointers of the players in the game. -/
def Inv (s : State) : Prop := Lists s none (Pointers s)

theorem start_inv : Inv State.start :=
  Lists.start.congr fun _ _ => iff_of_false id fun h => nomatch h.1

section Events

variable {s : State} {p : PlayerRef}

theorem pointers_setPlayer_self (s : State) (p : PlayerRef) (self : Player) (G : GuildRef) :
    Pointers (s.setPlayer p self) p G ↔ s.inGame p = true ∧ self.guild = some G := by
  unfold Pointers State.setPlayer
  dsimp only
  rw [Function.update_self]

theorem pointers_setPlayer_of_ne {q : PlayerRef} (hq : q ≠ p) (self : Player) (G : GuildRef) :
    Pointers (s.setPlayer p self) q G ↔ Pointers s q G := by
  unfold Pointers State.setPlayer
  dsimp only
  rw [Function.update_of_ne hq]

theorem pointers_setInGame_self (s : State) (p : PlayerRef) (value : Bool) (G : GuildRef) :
    Pointers (s.setInGame p value) p G ↔ value = true ∧ (s.players p).guild = some G := by
  unfold Pointers State.setInGame
  dsimp only
  rw [Function.update_self]

theorem pointers_setInGame_of_ne {q : PlayerRef} (hq : q ≠ p) (value : Bool) (G : GuildRef) :
    Pointers (s.setInGame p value) q G ↔ Pointers s q G := by
  unfold Pointers State.setInGame
  dsimp only
  rw [Function.update_of_ne hq]

theorem Inv.exact (h : Inv s) : Exact s where
  once G g hg p := by
    split
    next hp => exact List.count_eq_one_of_mem (h.nodup G g hg) ((h.mem_iff G g hg p).mpr hp)
    next hp => exact List.count_eq_zero_of_not_mem fun hmem => hp ((h.mem_iff G g hg p).mp hmem)
  not_empty G g hg := h.not_empty G g hg nofun
  guilds id G hG := (h.guilds_iff id G).mp hG
  live p G hp hG := h.live p G ⟨hp, hG⟩

theorem Exact.pointers_of_mem (h : Exact s) {G : GuildRef} {g : Guild} (hg : s.objects G = some g)
    (hp : p ∈ g.membersOnline) : Pointers s p G := by
  have honce := h.once G g hg p
  split at honce
  next hpointers => exact hpointers
  next => exact absurd hp (List.count_eq_zero.mp honce)

/-- What an operation keeps. -/
def Keeps (o : Option State) : Prop := ∃ s, o = some s ∧ Inv s

theorem Inv.keeps (h : Inv s) : Keeps (some s) := ⟨s, rfl, h⟩

theorem keeps_appear (hgone : s.inGame p = false) {s' : State} {vacant : Option GuildRef} {G : GuildRef}
    {g : Guild} (hlists : Lists s' vacant (Pointers s)) (hplayers : s'.players = s.players)
    (hgame : s'.inGame = s.inGame) (hg : s'.objects G = some g) (hvacant : ∀ H, vacant = some H → H = G)
    {self : Player} (hself : self.guild = some G) :
    Keeps (((s'.setPlayer p self).setInGame p true).onCreatureAppear p) := by
  have hguild : ((s'.setPlayer p self).players p).guild = some G := by
    change (Function.update s'.players p self p).guild = some G
    rw [Function.update_self, hself]
  have hguild' : (((s'.setPlayer p self).setInGame p true).players p).guild = some G := hguild
  -- a player who is not in the game is on no list
  have hnew : ¬ Pointers s p G := fun hp => Bool.eq_false_iff.mp hgone hp.1
  obtain ⟨t, ht, htplayers, htgame, htlists⟩ :=
    ((hlists.setPlayer p self).setInGame p true).addMember hg hvacant hnew
  unfold State.onCreatureAppear
  rw [hguild']
  refine ⟨t, ht, htlists.congr fun q H => ?_⟩
  have hpointers : Pointers t q H ↔ Pointers ((s'.setPlayer p self).setInGame p true) q H := by
    unfold Pointers
    rw [htplayers, htgame]
  rw [hpointers]
  by_cases hq : q = p
  · subst hq
    rw [pointers_setInGame_self, hguild]
    constructor
    · rintro (hold | ⟨-, rfl⟩)
      · exact absurd hold.1 (Bool.eq_false_iff.mp hgone)
      · exact ⟨rfl, rfl⟩
    · rintro ⟨-, heq⟩
      exact .inr ⟨rfl, (Option.some.inj heq).symm⟩
  · rw [pointers_setInGame_of_ne hq, pointers_setPlayer_of_ne hq, or_iff_left fun heq => hq heq.1]
    unfold Pointers
    rw [hplayers, hgame]

theorem Inv.login (h : Inv s) (p : PlayerRef) (membership : Option Membership) :
    Keeps (s.login p membership) := by
  unfold State.login
  split
  · exact h.keeps
  next hgone =>
    have hgone := Bool.eq_false_iff.mpr hgone
    cases membership with
    | none =>
      have hguild : ((s.setPlayer p {}).players p).guild = none := by
        change (Function.update s.players p {} p).guild = none
        rw [Function.update_self]
      have hguild' : (((s.setPlayer p {}).setInGame p true).players p).guild = none := hguild
      unfold State.loadPlayer State.onCreatureAppear
      rw [Option.bind_some, hguild']
      refine ⟨_, rfl, ((h.setPlayer p {}).setInGame p true).congr fun q H => ?_⟩
      by_cases hq : q = p
      · subst hq
        rw [pointers_setInGame_self, hguild]
        exact iff_of_false (fun hold => Bool.eq_false_iff.mp hgone hold.1) fun hnone => nomatch hnone.2
      · rw [pointers_setInGame_of_ne hq, pointers_setPlayer_of_ne hq]
    | some m =>
      unfold State.loadPlayer
      cases hfound : s.guilds m.guildId with
      | some G =>
        obtain ⟨g, hg, -⟩ := (h.guilds_iff m.guildId G).mp hfound
        -- a guild that is there already
        obtain ⟨t, ht, hplayers, hgame, ⟨g', hg'⟩, hlists⟩ := h.loadRank hg m.rank
        have hload : s.loadGuild m = (s, G) := by
          unfold State.loadGuild
          rw [hfound]
        dsimp only
        rw [hload]
        dsimp only
        rw [ht, Option.map_some, Option.bind_some]
        exact keeps_appear hgone hlists hplayers hgame hg' nofun rfl
      | none =>
        obtain ⟨t, ht, hplayers, hgame, ⟨g', hg'⟩, hlists⟩ :=
          -- the guild is loaded, and vacant until the player is entered
          (h.addGuild hfound m.ranks).loadRank (Function.update_self _ _ _) m.rank
        have hload : s.loadGuild m = (s.addGuild m.guildId m.ranks, s.next) := by
          unfold State.loadGuild
          rw [hfound]
        dsimp only
        rw [hload]
        dsimp only
        rw [ht, Option.map_some, Option.bind_some]
        exact keeps_appear hgone hlists hplayers hgame hg' (fun H heq => (Option.some.inj heq).symm) rfl

theorem Lists.leave {listed : PlayerRef → GuildRef → Prop} (h : Lists s none listed) {guild : Option GuildRef}
    (hlive : ∀ G, guild = some G → ∃ g, s.objects G = some g) (p : PlayerRef) :
    ∃ s', s.leave guild p = some s' ∧ s'.players = s.players ∧ s'.inGame = s.inGame ∧
      Lists s' none fun q G => listed q G ∧ ¬ (q = p ∧ guild = some G) := by
  cases guild with
  | none => exact ⟨s, rfl, rfl, rfl, h.congr fun q G => (and_iff_left fun heq => nomatch heq.2).symm⟩
  | some this =>
    obtain ⟨g, hg⟩ := hlive this rfl
    obtain ⟨s', hs', hplayers, hgame, hlists⟩ := h.removeMember hg p
    refine ⟨s', hs', hplayers, hgame, hlists.congr fun q G => ?_⟩
    rw [Option.some_inj, eq_comm (a := G)]

theorem Inv.logout (h : Inv s) (p : PlayerRef) : Keeps (s.logout p) := by
  unfold State.logout State.onRemoveCreature
  split
  · exact h.keeps
  next hgame =>
    rw [Bool.not_eq_true', Bool.not_eq_false] at hgame
    obtain ⟨t, ht, hplayers, hinGame, hlists⟩ := h.leave (fun G hG => h.live p G ⟨hgame, hG⟩) p
    rw [ht, Option.map_some]
    refine ⟨_, rfl, (hlists.setInGame p false).congr fun q G => ?_⟩
    -- the player is no longer in the game, and off the list
    by_cases hq : q = p
    · subst hq
      rw [pointers_setInGame_self]
      refine iff_of_false ?_ fun hnone => nomatch hnone.1
      rintro ⟨hold, hstays⟩
      exact hstays ⟨rfl, hold.2⟩
    · rw [pointers_setInGame_of_ne hq, and_iff_left fun heq => hq heq.1]
      unfold Pointers
      rw [hplayers, hinGame]

/-! ### Another guild -/

theorem pointers_congr {s' : State} (hplayers : s'.players = s.players) (hgame : s'.inGame = s.inGame) :
    Pointers s' = Pointers s := by
  unfold Pointers
  rw [hplayers, hgame]

theorem Inv.leaveGuild (h : Inv s) (hlive : ∀ G, (s.players p).guild = some G → ∃ g, s.objects G = some g) :
    Keeps ((s.setPlayer p {}).leave (s.players p).guild p) := by
  obtain ⟨t, ht, hplayers, hgame, hlists⟩ := (h.setPlayer p {}).leave hlive p
  refine ⟨t, ht, ?_⟩
  unfold Inv
  rw [pointers_congr hplayers hgame]
  refine hlists.congr fun q G => ?_
  by_cases hq : q = p
  · subst hq
    rw [pointers_setPlayer_self]
    exact iff_of_false (fun hold => hold.2 ⟨rfl, hold.1.2⟩) fun hnone => nomatch hnone.2
  · rw [pointers_setPlayer_of_ne hq, and_iff_left fun heq => hq heq.1]

theorem Inv.clearGuild (h : Inv s) (hnone : s.inGame p = true → (s.players p).guild = none) :
    Inv (s.setPlayer p {}) := by
  refine (h.setPlayer p {}).congr fun q G => ?_
  by_cases hq : q = p
  · subst hq
    rw [pointers_setPlayer_self]
    refine iff_of_false (fun hold => ?_) fun hnone => nomatch hnone.2
    cases (hnone hold.1).symm.trans hold.2
  · rw [pointers_setPlayer_of_ne hq]

theorem Inv.changeGuild (h : Inv s) (hgame : s.inGame p = true) {N : GuildRef} {g : Guild}
    (hg : s.objects N = some g) (hne : (s.players p).guild ≠ some N) {self : Player} (hself : self.guild = some N) :
    Keeps ((((s.setPlayer p {}).setPlayer p self).addMember N p).bind fun t => t.leave (s.players p).guild p) := by
  obtain ⟨t, ht, hplayers, hinGame, hlists⟩ :=
    ((h.setPlayer p {}).setPlayer p self).addMember hg nofun fun hold => hne hold.2
  -- the player is still listed in the old guild, so that is not deleted yet
  have hlive : ∀ G, (s.players p).guild = some G → ∃ g, t.objects G = some g :=
    fun G hG => hlists.live p G (.inl ⟨hgame, hG⟩)
  obtain ⟨u, hu, huplayers, huinGame, hulists⟩ := hlists.leave hlive p
  refine ⟨u, ?_, ?_⟩
  · rw [ht, Option.bind_some, hu]
  · unfold Inv
    rw [pointers_congr (huplayers.trans hplayers) (huinGame.trans hinGame)]
    refine hulists.congr fun q G => ?_
    by_cases hq : q = p
    · subst hq
      rw [pointers_setPlayer_self, hself]
      constructor
      · rintro ⟨hold | ⟨-, rfl⟩, hstays⟩
        · exact absurd ⟨rfl, hold.2⟩ hstays
        · exact ⟨hgame, rfl⟩
      · rintro ⟨-, heq⟩
        cases heq
        exact ⟨.inr ⟨rfl, rfl⟩, fun hold => hne hold.2⟩
    · rw [pointers_setPlayer_of_ne hq, pointers_setPlayer_of_ne hq, and_iff_left fun heq => hq heq.1,
        or_iff_left fun heq => hq heq.1]

theorem hasFirstRank_eq {N : GuildRef} {g : Guild} (hg : s.objects N = some g) :
    s.hasFirstRank N = (g.getRankByLevel 1).isSome := by
  unfold State.hasFirstRank
  rw [hg, Option.bind_some]

theorem Inv.setGuild (h : Inv s) {guildId : Option UInt32} (hproper : Proper (some s) (.setGuild p guildId)) :
    Keeps (s.setGuild p (guildId.bind s.guilds)) := by
  unfold State.setGuild
  split
  · exact h.keeps
  next hne =>
    have hcase := (hproper s rfl).resolve_left hne
    dsimp only
    cases hnew : guildId.bind s.guilds with
    | none =>
      rw [hnew] at hcase
      refine h.leaveGuild fun G hG => ?_
      obtain hgame | hlive := hcase
      · exact h.live p G ⟨hgame, hG⟩
      · exact Option.ne_none_iff_exists'.mp (hlive G hG)
    | some N =>
      rw [hnew] at hne hcase
      obtain ⟨id, -, hid⟩ := Option.bind_eq_some_iff.mp hnew
      obtain ⟨g, hg, -⟩ := (h.guilds_iff id N).mp hid
      dsimp only at hcase ⊢
      rw [hasFirstRank_eq hg] at hcase
      -- the new guild is registered, so it is not a deleted one
      have hobject : (s.setPlayer p {}).objects N = some g := hg
      rw [hobject, Option.bind_some]
      cases hrank : g.getRankByLevel 1 with
      | none =>
        rw [hrank] at hcase
        exact (h.clearGuild hcase).keeps
      | some rank =>
        rw [hrank] at hcase
        exact h.changeGuild hcase hg (fun heq => hne heq.symm) rfl

theorem leave_other {guild : Option GuildRef} {N : GuildRef} {s' : State} (h : s.leave guild p = some s')
    (hne : guild ≠ some N) : s'.objects N = s.objects N ∧ s'.inGame = s.inGame := by
  cases guild with
  | none =>
    cases h
    exact ⟨rfl, rfl⟩
  | some this =>
    have hN : N ≠ this := fun heq => hne (congrArg some heq.symm)
    unfold State.leave State.removeMember at h
    obtain ⟨g, -, rfl⟩ := Option.map_eq_some_iff.mp h
    dsimp only
    split
    · exact ⟨Function.update_of_ne hN _ _, rfl⟩
    · exact ⟨Function.update_of_ne hN _ _, rfl⟩

theorem Inv.proper_of_exact (h : Inv s) {s' : State} {guildId : Option UInt32}
    (hs' : s.setGuild p (guildId.bind s.guilds) = some s') (hexact : Exact s') :
    Proper (some s) (.setGuild p guildId) := by
  rintro _ ⟨⟩
  refine or_iff_not_imp_left.mpr fun hne => ?_
  unfold State.setGuild at hs'
  rw [if_neg hne] at hs'
  cases hnew : guildId.bind s.guilds with
  | none =>
    rw [hnew] at hs'
    -- the list of a deleted guild cannot be changed
    refine .inr fun G hG hdead => ?_
    rw [hG] at hs'
    unfold State.leave State.removeMember at hs'
    have hobject : (s.setPlayer p {}).objects G = none := hdead
    dsimp only at hs'
    rw [hobject] at hs'
    cases hs'
  | some N =>
    rw [hnew] at hne hs'
    obtain ⟨id, -, hid⟩ := Option.bind_eq_some_iff.mp hnew
    obtain ⟨g, hg, -⟩ := (h.guilds_iff id N).mp hid
    have hobject : (s.setPlayer p {}).objects N = some g := hg
    dsimp only at hs' ⊢
    rw [hasFirstRank_eq hg]
    rw [hobject, Option.bind_some] at hs'
    cases hrank : g.getRankByLevel 1 with
    | none =>
      rw [hrank] at hs'
      cases hs'
      intro hgame
      by_contra hold
      -- the player is still listed, but points nowhere
      obtain ⟨O, hO⟩ := Option.ne_none_iff_exists'.mp hold
      obtain ⟨o, ho⟩ := h.live p O ⟨hgame, hO⟩
      have hmem := (h.mem_iff O o ho p).mpr ⟨hgame, hO⟩
      have hpointers := hexact.pointers_of_mem (G := O) ho hmem
      rw [pointers_setPlayer_self] at hpointers
      cases hpointers.2
    | some rank =>
      rw [hrank] at hs'
      dsimp only at hs'
      unfold State.addMember at hs'
      have hobject : ((s.setPlayer p {}).setPlayer p { guild := some N, guildRank := some rank }).objects N =
          some g := hg
      rw [hobject, Option.map_some, Option.bind_some] at hs'
      obtain ⟨hkept, hgame⟩ := leave_other hs' fun heq => hne heq.symm
      -- the player is listed now
      have hlisted := hkept.trans (Function.update_self _ _ _)
      have hpointers := hexact.pointers_of_mem hlisted (List.mem_append_right _ List.mem_cons_self)
      have hs := hpointers.1
      rw [hgame] at hs
      exact hs

end Events

/-! ### Runs -/

/-- **The lists are exact all along a run precisely when `setGuild` is used properly.** -/
theorem run_exact_iff (es : List Event) :
    (∀ pre, pre <+: es → ∃ s, Runs.run step (some State.start) pre = some s ∧ Exact s) ↔
      Runs.Meets step Proper (some State.start) es := by
  have hobs : ∀ o, Keeps o → ∃ s, o = some s ∧ Exact s := by
    rintro _ ⟨s, rfl, h⟩
    exact ⟨s, rfl, h.exact⟩
  have hkeep : ∀ o e, Keeps o → Proper o e → Keeps (step o e) := by
    rintro _ e ⟨s, rfl, h⟩ hproper
    cases e with
    | login p membership => exact h.login p membership
    | logout p => exact h.logout p
    | setGuild p guildId => exact h.setGuild hproper
  have hshow : ∀ o e, Keeps o → (∃ s, step o e = some s ∧ Exact s) → Proper o e := by
    rintro _ e ⟨s, rfl, h⟩ ⟨s', hs', hexact⟩
    cases e with
    | login p membership => trivial
    | logout p => trivial
    | setGuild p guildId => exact h.proper_of_exact hs' hexact
  exact Runs.forall_prefix_iff_meets_of (P := fun o => ∃ s, o = some s ∧ Exact s) hobs hkeep hshow
    ⟨_, rfl, start_inv⟩

/-- A guild whose only rank is the leader's, at level 3. -/
def leadersOnly (guildId : UInt32) : Membership := ⟨guildId, ⟨guildId, 3⟩, "", [⟨guildId, 3⟩]⟩

/-- A player who is given a guild without a first rank stays on the list of the old guild, and after logging out
as well. -/
theorem firstRank_missing :
    ∃ s, Runs.run step (some State.start)
      [.login 1 (some (leadersOnly 7)), .login 2 (some (leadersOnly 8)), .setGuild 1 (some 8), .logout 1] = some s ∧
      (s.objects 0).map Guild.membersOnline = some [1] ∧ ¬ Exact s := by
  refine ⟨_, rfl, rfl, fun hexact => ?_⟩
  have hpointers := hexact.pointers_of_mem (p := 1) (G := 0) rfl List.mem_cons_self
  cases hpointers.1

end Moonlight.Guilds
