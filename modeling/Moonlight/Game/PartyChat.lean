import Mathlib.Data.Finset.Basic
import Moonlight.Game.PartyOutcome

/-!
# Party chat

The chat channels of the parties are kept by `Chat` (creatures/interactions/chat.cpp) under the party they belong
to, and are found through the party of the player who asks. A player who leaves a party, or whose party is
disbanded, has the channel closed (`Player::sendClosePrivate`, called in creatures/players/grouping/party.cpp), but
only after the player has lost the party, so the channel is not found and the player stays in it.

`closing_does_nothing` and what follows from it say that no request changes a channel at all. So the channels stay
confidential precisely as long as nobody leaves a party while in its channel, and no party ends that has one
(`confidential_iff_quiet`).

The objects of removed players can still be asked for their party.
-/

namespace Moonlight.Grouping

/-- The parties, and the users of each channel in `Chat::partyChannels`. -/
structure Chat where
  game : State
  partyChannels : PartyRef → Option (Finset PlayerRef)

namespace Chat

/-! ### Channels -/

/-- `getChannel` of `CHANNEL_PARTY`: the party, and the users of its channel. -/
def getChannel (c : Chat) (player : PlayerRef) : Option (PartyRef × Finset PlayerRef) :=
  match (c.game.players player).party with
  | none => none
  | some party => (c.partyChannels party).map (party, ·)

/-- Store a channel with its users, or delete it. -/
def put (c : Chat) (party : PartyRef) (users : Option (Finset PlayerRef)) : Chat :=
  { c with partyChannels := Function.update c.partyChannels party users }

def createChannel (c : Chat) (player : PlayerRef) : Chat :=
  match c.getChannel player, (c.game.players player).party with
  | none, some party => c.put party (some ∅)
  | _, _ => c

def deleteChannel (c : Chat) (player : PlayerRef) : Chat :=
  match c.getChannel player with
  | none => c
  | some (party, _) => c.put party none

def addUserToChannel (c : Chat) (player : PlayerRef) : Chat :=
  match c.getChannel player with
  | none => c
  | some (party, users) => c.put party (some (insert player users))

variable (guid : PlayerRef → UInt32)

/-- The channel of a party has owner 0. -/
def removeUserFromChannel (c : Chat) (player : PlayerRef) : Chat :=
  match c.getChannel player with
  | none => c
  | some (party, users) =>
    if player ∉ users then c
    else
      let c := c.put party (some (users.erase player))
      -- the owner of a private channel takes it along
      if 0 = guid player then c.deleteChannel player else c

def removeUserFromAllChannels (c : Chat) (player : PlayerRef) : Chat :=
  { c with partyChannels := fun party => (c.partyChannels party).map (·.erase player) }

/-- The players who get the text; none if there is no channel to talk to. -/
def talkToChannel (c : Chat) (player : PlayerRef) : Option (Finset PlayerRef) :=
  match c.getChannel player with
  | none => none
  | some (_, users) => if player ∉ users then none else some users

/-- `sendClosePrivate(CHANNEL_PARTY)`. -/
def sendClosePrivate (c : Chat) (player : PlayerRef) : Chat := c.removeUserFromChannel guid player

/-! ### Parties -/

/-- What is done to the parties alone. -/
def inGame (c : Chat) (f : State → State) : Chat := { c with game := f c.game }

def tryInGame (c : Chat) (f : State → Option State) : Option Chat :=
  (f c.game).map fun game => { c with game := game }

def disband (c : Chat) (this : PartyRef) : Option Chat :=
  (c.game.parties this).map fun p =>
    -- the pointer to the party is cleared first, here and for each member
    let c := (c.inGame (·.setParty p.leader none)).sendClosePrivate guid p.leader
    let c := p.inviteList.foldl (fun c invitee => c.inGame (·.removePartyInvitation invitee this)) c
    let c := p.memberList.foldl
      (fun c member => (c.inGame (·.setParty member none)).sendClosePrivate guid member) c
    c.inGame (·.store this none)

def leaveParty (c : Chat) (this : PartyRef) (player : PlayerRef) : Option Chat :=
  (c.game.parties this).bind fun p =>
    if (c.game.players player).party ≠ some this ∧ p.leader ≠ player then some c
    else
      (c.game.leaveLeader this p player).bind fun (s, missingLeader) =>
      (s.parties this).bind fun p =>
        let p := { p with memberList := p.memberList.erase player }
        -- here, too, the pointer is cleared before the channel is closed
        let c : Chat := { c with game := (s.store this (some p)).setParty player none }
        let c := c.sendClosePrivate guid player
        if missingLeader || p.empty then c.disband guid this else some c

def removeInvite (c : Chat) (this : PartyRef) (player : PlayerRef) (removeFromPlayer : Bool) : Option Chat :=
  (c.game.parties this).bind fun p =>
    if player ∉ p.inviteList then some c
    else
      let p := { p with inviteList := p.inviteList.erase player }
      let c := c.inGame (·.store this (some p))
      let c := if removeFromPlayer then c.inGame (·.removePartyInvitation player this) else c
      if p.empty then c.disband guid this else some c

def clearPartyInvitations (c : Chat) (player : PlayerRef) : Option Chat :=
  ((c.game.players player).invitePartyList.foldlM
    (fun (c : Chat) party => c.removeInvite guid party player false) c).map
    fun c => c.inGame (·.setInvites player [])

def playerRevokePartyInvitation (c : Chat) (player invitedPlayer : PlayerRef) : Option Chat :=
  if !c.game.inGame player then some c
  else
    match (c.game.players player).party with
    | none => some c
    | some party =>
      (c.game.parties party).bind fun p =>
        if p.leader ≠ player then some c
        else if !c.game.inGame invitedPlayer then some c
        else
          (c.game.isInviting player invitedPlayer).bind fun inviting =>
          if !inviting then some c else c.removeInvite guid party invitedPlayer true

def playerLeaveParty (c : Chat) (player : PlayerRef) (infight : Bool) : Option Chat :=
  if !c.game.inGame player then some c
  else
    match (c.game.players player).party with
    | none => some c
    | some party => if infight then some c else c.leaveParty guid party player

def request (c : Chat) : Request → Option Chat
  | .playerInviteToParty player invitedPlayer => c.tryInGame (·.playerInviteToParty player invitedPlayer)
  | .playerJoinParty player leader => c.tryInGame (·.playerJoinParty player leader)
  | .playerRevokePartyInvitation player invitedPlayer => c.playerRevokePartyInvitation guid player invitedPlayer
  | .playerPassPartyLeadership player newLeader => c.tryInGame (·.playerPassPartyLeadership player newLeader)
  | .playerLeaveParty player infight => c.playerLeaveParty guid player infight
  | .clearPartyInvitations player => c.clearPartyInvitations guid player

/-- A script disbands the party of a player. -/
def disbandParty (c : Chat) (player : PlayerRef) : Option Chat :=
  match (c.game.players player).party with
  | none => some c
  | some party => c.disband guid party

/-- `Player::onRemoveCreature`. -/
def removeCreature (c : Chat) (player : PlayerRef) : Option Chat :=
  if !c.game.inGame player then some c
  else (c.clearPartyInvitations guid player).map fun c =>
    -- all channels are gone through, those of parties as well
    (c.removeUserFromAllChannels player).inGame
      fun s => { s with inGame := Function.update s.inGame player false }

/-- `getChannelList` creates the channel of a party. -/
def playerRequestChannels (c : Chat) (player : PlayerRef) : Chat :=
  if !c.game.inGame player then c else c.createChannel player

def playerOpenChannel (c : Chat) (player : PlayerRef) : Chat :=
  if !c.game.inGame player then c else c.addUserToChannel player

def playerCloseChannel (c : Chat) (player : PlayerRef) : Chat :=
  if !c.game.inGame player then c else c.removeUserFromChannel guid player

end Chat

inductive ChatEvent where
  | request (r : Request)
  | disbandParty (player : PlayerRef)
  | removeCreature (player : PlayerRef)
  | playerRequestChannels (player : PlayerRef)
  | playerOpenChannel (player : PlayerRef)
  | playerCloseChannel (player : PlayerRef)
  /-- The player connects anew. -/
  | connect (player : PlayerRef)

namespace Chat

variable (guid : PlayerRef → UInt32)

def start (inGame : PlayerRef → Bool) : Chat := ⟨State.start inGame, fun _ => none⟩

def event (c : Chat) : ChatEvent → Option Chat
  | .request r => c.request guid r
  | .disbandParty player => c.disbandParty guid player
  | .removeCreature player => c.removeCreature guid player
  | .playerRequestChannels player => some (c.playerRequestChannels player)
  | .playerOpenChannel player => some (c.playerOpenChannel player)
  | .playerCloseChannel player => some (c.playerCloseChannel guid player)
  | .connect player => some (c.removeUserFromAllChannels player)

def step (c : Option Chat) (e : ChatEvent) : Option Chat := c.bind (event guid · e)

/-- **Party chat is confidential.** -/
structure Confidential (c : Chat) : Prop where
  users : ∀ P users, c.partyChannels P = some users →
    ∃ p, c.game.parties P = some p ∧ ∀ q ∈ users, q = p.leader ∨ q ∈ p.memberList
  talk : ∀ player users, c.talkToChannel player = some users →
    ∃ P p, (c.game.players player).party = some P ∧ c.game.parties P = some p ∧
      ∀ q ∈ users, q = p.leader ∨ q ∈ p.memberList

end Chat

/-- The player leaves the party. -/
def Leaves (s : State) : ChatEvent → PartyRef → PlayerRef → Prop
  | .request (.playerLeaveParty player infight), P, q =>
    s.inGame player = true ∧ infight = false ∧ (s.players player).party = some P ∧ q = player
  | _, _, _ => False

/-- The party ends. -/
def Ends (s : State) : ChatEvent → PartyRef → Prop
  | .request (.playerLeaveParty player infight), P =>
    s.inGame player = true ∧ infight = false ∧ (s.players player).party = some P ∧
      ∃ p, s.parties P = some p ∧ p.EndsWithout player
  | .request (.playerRevokePartyInvitation player invitedPlayer), P =>
    s.inGame player = true ∧ s.inGame invitedPlayer = true ∧ (s.players player).party = some P ∧
      ∃ p, s.parties P = some p ∧ p.leader = player ∧ p.IsOnlyInvite invitedPlayer
  | .request (.clearPartyInvitations player), P => ∃ p, s.parties P = some p ∧ p.IsOnlyInvite player
  | .removeCreature player, P =>
    s.inGame player = true ∧ ∃ p, s.parties P = some p ∧ p.IsOnlyInvite player
  | .disbandParty player, P => (s.players player).party = some P
  | _, _ => False

/-- No party ends that has a channel, and nobody leaves a party while in its channel. -/
def Chat.Quiet (o : Option Chat) (e : ChatEvent) : Prop :=
  ∀ c, o = some c → ∀ P users, c.partyChannels P = some users →
    ¬ Ends c.game e P ∧ ∀ q ∈ users, ¬ Leaves c.game e P q

namespace Chat

variable (guid : PlayerRef → UInt32)

/-! ### The closing of the channel -/

theorem closing_does_nothing {c : Chat} {player : PlayerRef} (h : (c.game.players player).party = none) :
    c.sendClosePrivate guid player = c := by
  unfold sendClosePrivate removeUserFromChannel getChannel
  rw [h]

theorem close_setParty (c : Chat) (player : PlayerRef) :
    (c.inGame (·.setParty player none)).sendClosePrivate guid player = c.inGame (·.setParty player none) := by
  refine closing_does_nothing guid ?_
  change ((c.game.setParty player none).players player).party = none
  rw [setParty_players, if_pos rfl]

theorem foldl_inGame {α : Type} (f : State → α → State) (l : List α) (c : Chat) :
    l.foldl (fun c x => c.inGame (f · x)) c = c.inGame (l.foldl f ·) := by
  induction l generalizing c with
  | nil => rfl
  -- what is done to the parties one by one is done to them at once
  | cons x l ih => exact ih (c.inGame (f · x))

theorem disband_eq (c : Chat) (this : PartyRef) :
    c.disband guid this = c.tryInGame (·.disband this) := by
  unfold disband tryInGame State.disband
  rw [Option.map_map]
  refine Option.map_congr fun p _ => ?_
  -- no channel is closed, so all that is left concerns the parties
  simp only [close_setParty, foldl_inGame]
  rfl

theorem leaveParty_eq (c : Chat) (this : PartyRef) (player : PlayerRef) :
    c.leaveParty guid this player = c.tryInGame (·.leaveParty this player) := by
  unfold leaveParty
  -- nor is that of the player who leaves
  have hclose : ∀ s : State, ({ c with game := s.setParty player none } : Chat).sendClosePrivate guid player =
      { c with game := s.setParty player none } :=
    fun s => close_setParty guid { c with game := s } player
  simp only [hclose, disband_eq]
  unfold tryInGame State.leaveParty
  rw [Option.map_bind]
  refine Option.bind_congr fun p _ => ?_
  split
  next hstays => rw [Function.comp, if_pos hstays]; rfl
  next hleaves =>
    rw [Function.comp, if_neg hleaves, Option.map_bind]
    refine Option.bind_congr fun r _ => ?_
    rw [Function.comp, Option.map_bind]
    refine Option.bind_congr fun p _ => ?_
    dsimp only [Function.comp]
    split
    · rfl
    · rfl

theorem removeInvite_eq (c : Chat) (this : PartyRef) (player : PlayerRef) (removeFromPlayer : Bool) :
    c.removeInvite guid this player removeFromPlayer =
      c.tryInGame (·.removeInvite this player removeFromPlayer) := by
  unfold removeInvite
  simp only [disband_eq]
  unfold tryInGame State.removeInvite
  rw [Option.map_bind]
  refine Option.bind_congr fun p _ => ?_
  split
  next hnew => rw [Function.comp, if_pos hnew]; rfl
  next hinvited =>
    rw [Function.comp, if_neg hinvited]
    cases removeFromPlayer with
    | true =>
      dsimp only
      split
      · rfl
      · rfl
    | false =>
      dsimp only
      split
      · rfl
      · rfl

theorem foldlM_tryInGame {α : Type} (f : State → α → Option State) (l : List α) (c : Chat) :
    l.foldlM (fun c x => c.tryInGame (f · x)) c = c.tryInGame (l.foldlM f ·) := by
  induction l generalizing c with
  | nil => rfl
  | cons x l ih =>
    unfold tryInGame at ih ⊢
    simp only [List.foldlM_cons]
    cases f c.game x with
    | none => rfl
    | some s => exact ih { c with game := s }

theorem clearPartyInvitations_eq (c : Chat) (player : PlayerRef) :
    c.clearPartyInvitations guid player = c.tryInGame (·.clearPartyInvitations player) := by
  unfold clearPartyInvitations
  simp only [removeInvite_eq, foldlM_tryInGame]
  unfold tryInGame State.clearPartyInvitations
  rw [Option.map_map, Option.map_map]
  rfl

theorem playerRevokePartyInvitation_eq (c : Chat) (player invitedPlayer : PlayerRef) :
    c.playerRevokePartyInvitation guid player invitedPlayer =
      c.tryInGame (·.playerRevokePartyInvitation player invitedPlayer) := by
  unfold playerRevokePartyInvitation
  simp only [removeInvite_eq]
  unfold tryInGame State.playerRevokePartyInvitation
  dsimp only
  split
  · rfl
  cases (c.game.players player).party with
  | none => rfl
  | some party =>
    dsimp only
    rw [Option.map_bind]
    refine Option.bind_congr fun p _ => ?_
    dsimp only [Function.comp]
    split
    · rfl
    split
    · rfl
    rw [Option.map_bind]
    refine Option.bind_congr fun inviting _ => ?_
    dsimp only [Function.comp]
    split
    · rfl
    · rfl

theorem playerLeaveParty_eq (c : Chat) (player : PlayerRef) (infight : Bool) :
    c.playerLeaveParty guid player infight = c.tryInGame (·.playerLeaveParty player infight) := by
  unfold playerLeaveParty
  simp only [leaveParty_eq]
  unfold tryInGame State.playerLeaveParty
  dsimp only
  split
  · rfl
  cases (c.game.players player).party with
  | none => rfl
  | some party =>
    dsimp only
    split
    · rfl
    · rfl

/-- **No request changes a channel.** -/
theorem request_eq (c : Chat) (r : Request) : c.request guid r = c.tryInGame (Grouping.request · r) := by
  cases r with
  | playerInviteToParty player invitedPlayer => rfl
  | playerJoinParty player leader => rfl
  | playerRevokePartyInvitation player invitedPlayer =>
    exact playerRevokePartyInvitation_eq guid c player invitedPlayer
  | playerPassPartyLeadership player newLeader => rfl
  | playerLeaveParty player infight => exact playerLeaveParty_eq guid c player infight
  | clearPartyInvitations player => exact clearPartyInvitations_eq guid c player

end Chat

/-! ### What a request does to the parties -/

theorem Outcome.same (s : State) : Outcome s s (fun _ => False) (fun _ _ => False) :=
  .of_parties_eq rfl (fun _ _ _ => id) fun _ _ _ _ _ => id

theorem playerInviteToParty_outcome {s s' : State} (hinv : Inv s.allIn) {player invitedPlayer : PlayerRef}
    (h : s.playerInviteToParty player invitedPlayer = some s') :
    Outcome s s' (fun _ => False) (fun _ _ => False) := by
  unfold State.playerInviteToParty at h
  split at h
  · cases h
    exact .same s
  split at h
  · cases h
    exact .same s
  split at h
  · cases h
    exact .same s
  obtain ⟨inviting, -, h⟩ := Option.bind_eq_some_iff.mp h
  split at h
  · cases h
    exact .same s
  split at h
  · cases h
    exact .same s
  split at h
  · -- the new party has a reference that no party had before
    have hinvite := invitePlayer_outcome h
    have hlive : ∀ P p, s.parties P = some p → (s.newParty player).parties P = some p := by
      intro P p hp
      refine (Function.update_of_ne ?_ _ _).trans hp
      rintro rfl
      cases hp.symm.trans (hinv.fresh _ (Nat.le_refl _))
    exact ⟨fun _ _ _ hend => hend.elim, fun P p hp => hinvite.kept P p (hlive P p hp)⟩
  · obtain ⟨p, -, h⟩ := Option.bind_eq_some_iff.mp h
    split at h
    · cases h
      exact .same s
    · exact invitePlayer_outcome h

theorem playerJoinParty_outcome {s s' : State} {player leader : PlayerRef}
    (h : s.playerJoinParty player leader = some s') : Outcome s s' (fun _ => False) (fun _ _ => False) := by
  unfold State.playerJoinParty at h
  split at h
  · cases h
    exact .same s
  split at h
  · cases h
    exact .same s
  obtain ⟨inviting, -, h⟩ := Option.bind_eq_some_iff.mp h
  split at h
  · cases h
    exact .same s
  split at h
  · cases h
    exact .same s
  obtain ⟨p, -, h⟩ := Option.bind_eq_some_iff.mp h
  split at h
  · cases h
    exact .same s
  split at h
  · cases h
    exact .same s
  · exact joinParty_outcome h

theorem playerPassPartyLeadership_outcome {s s' : State} (hinv : Inv s.allIn) {player newLeader : PlayerRef}
    (h : s.playerPassPartyLeadership player newLeader = some s') :
    Outcome s s' (fun _ => False) (fun _ _ => False) := by
  unfold State.playerPassPartyLeadership at h
  split at h
  · cases h
    exact .same s
  split at h
  · cases h
    exact .same s
  obtain ⟨p, -, h⟩ := Option.bind_eq_some_iff.mp h
  split at h
  · cases h
    exact .same s
  split at h
  · cases h
    exact .same s
  split at h
  · cases h
    exact .same s
  · exact passPartyLeadership_outcome hinv h

theorem playerLeaveParty_outcome {s s' : State} (hinv : Inv s.allIn) {player : PlayerRef} {infight : Bool}
    (h : s.playerLeaveParty player infight = some s') :
    Outcome s s' (Ends s (.request (.playerLeaveParty player infight)))
      (Leaves s (.request (.playerLeaveParty player infight))) := by
  -- where the request is refused
  have hidle : (s.inGame player = true → ∀ this, (s.players player).party = some this → infight = true) →
      Outcome s s (Ends s (.request (.playerLeaveParty player infight)))
        (Leaves s (.request (.playerLeaveParty player infight))) := by
    intro hidle
    refine .of_parties_eq rfl ?_ ?_
    · rintro P p - ⟨hgame, hpeace, hparty, -⟩
      rw [hidle hgame P hparty] at hpeace
      cases hpeace
    · rintro P p - q - ⟨hgame, hpeace, hparty, -⟩
      rw [hidle hgame P hparty] at hpeace
      cases hpeace
  unfold State.playerLeaveParty at h
  split at h
  next hgone =>
    cases h
    rw [Bool.not_eq_true'] at hgone
    exact hidle fun hgame => absurd hgame (Bool.eq_false_iff.mp hgone)
  next hgame =>
    rw [Bool.not_eq_true', Bool.not_eq_false] at hgame
    split at h
    next hnone =>
      cases h
      exact hidle fun _ this hparty => nomatch hnone.symm.trans hparty
    next this hparty =>
      split at h
      next hfight =>
        cases h
        exact hidle fun _ _ _ => hfight
      next hpeace =>
        -- only the party of the player changes: it ends, or it loses the player
        obtain ⟨p, hp, hroster⟩ := hinv.live_of_party hparty
        obtain ⟨r, hparties, hend, hkept⟩ := leaveParty_parties hinv hp hroster h
        obtain ⟨hr, hothers⟩ := others_of_update hparties
        refine .one hothers ?_ ?_ ?_ ?_
        · exact fun P hends => Option.some.inj (hends.2.2.1.symm.trans hparty)
        · exact fun P q hleaves => Option.some.inj (hleaves.2.2.1.symm.trans hparty)
        · rintro ⟨-, -, -, p', hp', hends⟩
          cases hp.symm.trans hp'
          rw [hr]
          exact hend.mpr hends
        · intro p' hp' hstays
          cases hp.symm.trans hp'
          have hsome : r ≠ none := fun hnone =>
            hstays ⟨hgame, Bool.eq_false_iff.mpr hpeace, hparty, p, hp, hend.mp hnone⟩
          obtain ⟨p', rfl⟩ := Option.ne_none_iff_exists'.mp hsome
          refine ⟨p', hr, fun q hq => (hkept p' rfl q hq).trans (not_congr ?_)⟩
          exact ⟨fun heq => ⟨hgame, Bool.eq_false_iff.mpr hpeace, hparty, heq⟩, fun hleaves => hleaves.2.2.2⟩

theorem playerRevokePartyInvitation_outcome {s s' : State} {player invitedPlayer : PlayerRef}
    (h : s.playerRevokePartyInvitation player invitedPlayer = some s') :
    Outcome s s' (Ends s (.request (.playerRevokePartyInvitation player invitedPlayer))) (fun _ _ => False) := by
  -- where the request is refused
  have hidle : (∀ P, ¬ Ends s (.request (.playerRevokePartyInvitation player invitedPlayer)) P) →
      Outcome s s (Ends s (.request (.playerRevokePartyInvitation player invitedPlayer))) (fun _ _ => False) :=
    fun hidle => .of_parties_eq rfl (fun P _ _ => hidle P) fun _ _ _ _ _ => id
  unfold State.playerRevokePartyInvitation at h
  split at h
  next hgone =>
    cases h
    rw [Bool.not_eq_true'] at hgone
    exact hidle fun P hends => Bool.eq_false_iff.mp hgone hends.1
  next hgame =>
    rw [Bool.not_eq_true', Bool.not_eq_false] at hgame
    split at h
    next hnone =>
      cases h
      exact hidle fun P hends => nomatch hnone.symm.trans hends.2.2.1
    next this hparty =>
      obtain ⟨p, hp, h⟩ := Option.bind_eq_some_iff.mp h
      -- if a party ends, it is this one
      have hthis : ∀ P, Ends s (.request (.playerRevokePartyInvitation player invitedPlayer)) P →
          P = this ∧ p.leader = player ∧ p.IsOnlyInvite invitedPlayer := by
        rintro P ⟨-, -, hP, p', hp', hleader, honly⟩
        cases hP.symm.trans hparty
        cases hp.symm.trans hp'
        exact ⟨rfl, hleader, honly⟩
      split at h
      next hleader =>
        cases h
        exact hidle fun P hends => hleader (hthis P hends).2.1
      next hleader =>
        split at h
        next hgone =>
          cases h
          rw [Bool.not_eq_true'] at hgone
          exact hidle fun P hends => Bool.eq_false_iff.mp hgone hends.2.1
        next hinvitedGame =>
          rw [Bool.not_eq_true', Bool.not_eq_false] at hinvitedGame
          obtain ⟨inviting, hinviting, h⟩ := Option.bind_eq_some_iff.mp h
          unfold State.isInviting at hinviting
          rw [hparty] at hinviting
          dsimp only at hinviting
          rw [hp, Option.map_some] at hinviting
          cases hinviting
          split at h
          next hnot =>
            cases h
            refine hidle fun P hends => ?_
            obtain ⟨-, hlead, -, hinvites⟩ := hthis P hends
            simp [hlead, Party.isPlayerInvited, hinvites] at hnot
          next =>
            -- the invitation was there; without it the party may be empty
            obtain ⟨r, hparties, hend, hroster⟩ := removeInvite_parties hp h
            obtain ⟨hr, hothers⟩ := others_of_update hparties
            refine .one hothers (fun P hends => (hthis P hends).1) (fun _ _ hleave => hleave.elim) ?_ ?_
            · intro hends
              rw [hr]
              exact hend.mpr (hthis this hends).2.2
            · intro p' hp' hstays
              cases hp.symm.trans hp'
              have hsome : r ≠ none := fun hnone =>
                hstays ⟨hgame, hinvitedGame, hparty, p, hp, not_not.mp hleader, hend.mp hnone⟩
              obtain ⟨p', rfl⟩ := Option.ne_none_iff_exists'.mp hsome
              refine ⟨p', hr, fun q hq => iff_of_true ?_ id⟩
              rw [hroster p' rfl]
              exact hq

theorem request_outcome {s s' : State} (hinv : Inv s.allIn) {r : Request} (h : Grouping.request s r = some s') :
    Outcome s s' (Ends s (.request r)) (Leaves s (.request r)) := by
  cases r with
  | playerInviteToParty player invitedPlayer => exact playerInviteToParty_outcome hinv h
  | playerJoinParty player leader => exact playerJoinParty_outcome h
  | playerRevokePartyInvitation player invitedPlayer => exact playerRevokePartyInvitation_outcome h
  | playerPassPartyLeadership player newLeader => exact playerPassPartyLeadership_outcome hinv h
  | playerLeaveParty player infight => exact playerLeaveParty_outcome hinv h
  | clearPartyInvitations player => exact clearPartyInvitations_outcome hinv h

theorem request_allIn_inv {s : State} (hinv : Inv s.allIn) (r : Request) :
    ∃ s', Grouping.request s r = some s' ∧ Inv s'.allIn := by
  obtain hnone | hall := request_allIn s r
  · exact ⟨s, hnone, hinv⟩
  · obtain ⟨_, ht, hinv'⟩ := hinv.request r
    rw [hall] at ht
    obtain ⟨s', hs', rfl⟩ := Option.map_eq_some_iff.mp ht
    exact ⟨s', hs', hinv'⟩

theorem clearPartyInvitations_allIn_inv {s : State} (hinv : Inv s.allIn) (player : PlayerRef) :
    ∃ s', s.clearPartyInvitations player = some s' ∧ Inv s'.allIn :=
  request_allIn_inv hinv (.clearPartyInvitations player)

theorem disband_allIn_inv {s : State} (hinv : Inv s.allIn) {this : PartyRef} {p : Party}
    (hp : s.parties this = some p) : ∃ s', s.disband this = some s' ∧ Inv s'.allIn := by
  have hforget : s.allIn.disband this = some (s.allIn.forget this) :=
    disband_eq_forget hp (fun q => (hinv.roster_iff hp q).mp) (fun q hq => .inl ((hinv.roster_iff hp q).mpr hq))
      fun q => (hinv.invited_iff hp q).mp
  -- what holds with all players in the game holds of the state itself
  rw [disband_allIn] at hforget
  obtain ⟨s', hs', heq⟩ := Option.map_eq_some_iff.mp hforget
  refine ⟨s', hs', ?_⟩
  rw [heq]
  exact hinv.forget hp

namespace Chat

/-! ### The channels -/

/-- The parties are in step, and a channel belongs to a party, and its users to the party as well. -/
structure Inv (c : Chat) : Prop where
  sound : Grouping.Inv c.game.allIn
  users : ∀ P users, c.partyChannels P = some users →
    ∃ p, c.game.parties P = some p ∧ ∀ q ∈ users, q ∈ p.roster

theorem start_inv (inGame : PlayerRef → Bool) : (start inGame).Inv where
  sound := Grouping.start_inv _
  users _ _ h := nomatch h

variable {c : Chat}

theorem getChannel_eq_some_iff {player : PlayerRef} {P : PartyRef} {users : Finset PlayerRef} :
    c.getChannel player = some (P, users) ↔
      (c.game.players player).party = some P ∧ c.partyChannels P = some users := by
  unfold getChannel
  cases (c.game.players player).party with
  | none => exact iff_of_false nofun fun h => nomatch h.1
  | some party =>
    dsimp only
    rw [Option.map_eq_some_iff]
    constructor
    · rintro ⟨users', hchannel, heq⟩
      cases heq
      exact ⟨rfl, hchannel⟩
    · rintro ⟨heq, hchannel⟩
      cases heq
      exact ⟨users, hchannel, rfl⟩

theorem Inv.confidential (h : c.Inv) : c.Confidential where
  users P users hchannel := by
    obtain ⟨p, hp, hroster⟩ := h.users P users hchannel
    exact ⟨p, hp, fun q hq => List.mem_cons.mp (hroster q hq)⟩
  talk player users htalk := by
    unfold talkToChannel at htalk
    split at htalk
    · cases htalk
    next P users' hfound =>
      split at htalk
      · cases htalk
      · cases htalk
        obtain ⟨hparty, hchannel⟩ := getChannel_eq_some_iff.mp hfound
        obtain ⟨p, hp, hroster⟩ := h.users P users hchannel
        exact ⟨P, p, hparty, hp, fun q hq => List.mem_cons.mp (hroster q hq)⟩

theorem Inv.of_outcome (h : c.Inv) (c' : Chat) {ends : PartyRef → Prop} {leaves : PartyRef → PlayerRef → Prop}
    (houtcome : Outcome c.game c'.game ends leaves) (hsound : Grouping.Inv c'.game.allIn)
    (hchannels : ∀ P users', c'.partyChannels P = some users' →
      ∃ users, c.partyChannels P = some users ∧ users' ⊆ users)
    (hquiet : ∀ P users, c.partyChannels P = some users → ¬ ends P ∧ ∀ q ∈ users, ¬ leaves P q) : c'.Inv where
  sound := hsound
  users P users' hchannel' := by
    obtain ⟨users, hchannel, hsub⟩ := hchannels P users' hchannel'
    obtain ⟨p, hp, hroster⟩ := h.users P users hchannel
    obtain ⟨hgoes, hstay⟩ := hquiet P users hchannel
    obtain ⟨p', hp', hkept⟩ := houtcome.kept P p hp hgoes
    exact ⟨p', hp', fun q hq => (hkept q (hroster q (hsub hq))).mpr (hstay q (hsub hq))⟩

theorem Inv.quiet_of_outcome (h : c.Inv) (c' : Chat) {ends : PartyRef → Prop}
    {leaves : PartyRef → PlayerRef → Prop} (houtcome : Outcome c.game c'.game ends leaves)
    (hchannels : ∀ P users, c.partyChannels P = some users →
      ∃ users', c'.partyChannels P = some users' ∧ ∀ q ∈ users, leaves P q → q ∈ users')
    (hconf : c'.Confidential) {P : PartyRef} {users : Finset PlayerRef} (hchannel : c.partyChannels P = some users) :
    ¬ ends P ∧ ∀ q ∈ users, ¬ leaves P q := by
  obtain ⟨users', hchannel', hkept⟩ := hchannels P users hchannel
  obtain ⟨p, hp, hroster⟩ := h.users P users hchannel
  obtain ⟨p', hp', hmembers⟩ := hconf.users P users' hchannel'
  have hgoes : ¬ ends P := fun hend => nomatch (houtcome.ended P p hp hend).symm.trans hp'
  refine ⟨hgoes, fun q hq hleave => ?_⟩
  obtain ⟨p'', hp'', hiff⟩ := houtcome.kept P p hp hgoes
  cases hp'.symm.trans hp''
  -- a user who left the party, and not the channel, is no member
  exact (hiff q (hroster q hq)).mp (List.mem_cons.mpr (hmembers q (hkept q hq hleave))) hleave

/-! ### One event -/

variable (guid : PlayerRef → UInt32)

theorem Inv.of_game_eq (h : c.Inv) {c' : Chat} (hgame : c'.game = c.game)
    (husers : ∀ P users', c'.partyChannels P = some users' →
      ∃ p, c.game.parties P = some p ∧ ∀ q ∈ users', q ∈ p.roster) : c'.Inv where
  sound := hgame ▸ h.sound
  users := hgame ▸ husers

theorem Inv.put (h : c.Inv) {P : PartyRef} {users : Option (Finset PlayerRef)}
    (husers : ∀ users', users = some users' → ∃ p, c.game.parties P = some p ∧ ∀ q ∈ users', q ∈ p.roster) :
    (c.put P users).Inv := by
  refine h.of_game_eq rfl fun P' users' hchannel => ?_
  change Function.update c.partyChannels P users P' = some users' at hchannel
  by_cases hP : P' = P
  · subst hP
    rw [Function.update_self] at hchannel
    exact husers users' hchannel
  · rw [Function.update_of_ne hP] at hchannel
    exact h.users P' users' hchannel

theorem Inv.playerRequestChannels (h : c.Inv) (player : PlayerRef) : (c.playerRequestChannels player).Inv := by
  unfold Chat.playerRequestChannels
  split
  · exact h
  · unfold createChannel
    split
    next party _ hparty =>
      obtain ⟨p, hp, -⟩ := h.sound.live_of_party hparty
      refine h.put fun users' husers' => ⟨p, hp, fun q hq => ?_⟩
      cases husers'
      exact absurd hq (Finset.notMem_empty q)
    · exact h

theorem Inv.playerOpenChannel (h : c.Inv) (player : PlayerRef) : (c.playerOpenChannel player).Inv := by
  unfold Chat.playerOpenChannel
  split
  · exact h
  · unfold addUserToChannel
    split
    · exact h
    next party users hfound =>
      obtain ⟨hparty, hchannel⟩ := getChannel_eq_some_iff.mp hfound
      obtain ⟨p, hp, hroster⟩ := h.users party users hchannel
      refine h.put fun users' husers' => ⟨p, hp, fun q hq => ?_⟩
      cases husers'
      obtain rfl | hmem := Finset.mem_insert.mp hq
      -- the new user, whose party it is
      · exact (h.sound.roster_iff hp q).mp hparty
      · exact hroster q hmem

theorem Inv.playerCloseChannel (h : c.Inv) (player : PlayerRef) : (c.playerCloseChannel guid player).Inv := by
  unfold Chat.playerCloseChannel
  split
  · exact h
  · unfold removeUserFromChannel
    split
    · exact h
    next party users hfound =>
      split
      · exact h
      · obtain ⟨hparty, hchannel⟩ := getChannel_eq_some_iff.mp hfound
        obtain ⟨p, hp, hroster⟩ := h.users party users hchannel
        have hput : (c.put party (some (users.erase player))).Inv := by
          refine h.put fun users' husers' => ⟨p, hp, fun q hq => ?_⟩
          cases husers'
          exact hroster q (Finset.mem_of_mem_erase hq)
        dsimp only
        split
        · unfold deleteChannel
          split
          · exact hput
          · exact hput.put nofun
        · exact hput

theorem removeUserFromAllChannels_eq_some_iff {player : PlayerRef} {P : PartyRef} {users' : Finset PlayerRef} :
    (c.removeUserFromAllChannels player).partyChannels P = some users' ↔
      ∃ users, c.partyChannels P = some users ∧ users.erase player = users' :=
  Option.map_eq_some_iff

theorem Inv.removeUserFromAllChannels (h : c.Inv) (player : PlayerRef) :
    (c.removeUserFromAllChannels player).Inv := by
  refine h.of_game_eq rfl fun P users' hchannel' => ?_
  obtain ⟨users, hchannel, rfl⟩ := removeUserFromAllChannels_eq_some_iff.mp hchannel'
  obtain ⟨p, hp, hroster⟩ := h.users P users hchannel
  exact ⟨p, hp, fun q hq => hroster q (Finset.mem_of_mem_erase hq)⟩

theorem Inv.tryInGame (h : c.Inv) {f : State → Option State} {s' : State} (hf : f c.game = some s')
    (hsound : Grouping.Inv s'.allIn) {e : ChatEvent}
    (houtcome : Outcome c.game s' (Ends c.game e) (Leaves c.game e)) :
    ∃ c', c.tryInGame f = some c' ∧ (Quiet (some c) e → c'.Inv) ∧ (c'.Confidential → Quiet (some c) e) := by
  have hc' : c.tryInGame f = some { c with game := s' } := by
    unfold Chat.tryInGame
    rw [hf]
    rfl
  refine ⟨_, hc', fun hquiet => ?_, fun hconf => ?_⟩
  · exact h.of_outcome { c with game := s' } houtcome hsound
      (fun P users hchannel => ⟨users, hchannel, Finset.Subset.refl _⟩) (hquiet c rfl)
  · rintro _ ⟨⟩ P users hchannel
    exact h.quiet_of_outcome { c with game := s' } houtcome
      (fun P users hchannel => ⟨users, hchannel, fun q hq _ => hq⟩) hconf hchannel

theorem Inv.disbandParty (h : c.Inv) (player : PlayerRef) :
    ∃ c', c.disbandParty guid player = some c' ∧ (Quiet (some c) (.disbandParty player) → c'.Inv) ∧
      (c'.Confidential → Quiet (some c) (.disbandParty player)) := by
  unfold Chat.disbandParty
  cases hparty : (c.game.players player).party with
  | none =>
    refine ⟨c, rfl, fun _ => h, fun _ => ?_⟩
    rintro _ ⟨⟩ P users -
    exact ⟨fun hend => (nomatch hparty.symm.trans hend), fun _ _ => id⟩
  | some this =>
    obtain ⟨p, hp, -⟩ := h.sound.live_of_party hparty
    obtain ⟨s', hs', hsound⟩ := disband_allIn_inv h.sound hp
    dsimp only
    rw [disband_eq]
    refine h.tryInGame hs' hsound ?_
    -- one party ends, and no other one changes
    obtain ⟨hnone, hothers⟩ := others_of_update (disband_parties hs')
    have hthis : ∀ P, Ends c.game (.disbandParty player) P → P = this :=
      fun P hend => Option.some.inj (hend.symm.trans hparty)
    exact .one hothers hthis (fun _ _ hleave => hleave.elim) (fun _ => hnone)
      fun p hp hstays => absurd hparty hstays

theorem Inv.removeCreature (h : c.Inv) (player : PlayerRef) :
    ∃ c', c.removeCreature guid player = some c' ∧ (Quiet (some c) (.removeCreature player) → c'.Inv) ∧
      (c'.Confidential → Quiet (some c) (.removeCreature player)) := by
  unfold Chat.removeCreature
  split
  next hgone =>
    rw [Bool.not_eq_true'] at hgone
    refine ⟨c, rfl, fun _ => h, fun _ => ?_⟩
    rintro _ ⟨⟩ P users -
    exact ⟨fun hend => Bool.eq_false_iff.mp hgone hend.1, fun _ _ => id⟩
  next hgame =>
    rw [Bool.not_eq_true', Bool.not_eq_false] at hgame
    obtain ⟨s', hs', hsound⟩ := clearPartyInvitations_allIn_inv h.sound player
    have hcleared := clearPartyInvitations_outcome h.sound hs'
    have houtcome : Outcome c.game s' (Ends c.game (.removeCreature player))
        (Leaves c.game (.removeCreature player)) :=
      hcleared.congr (fun _ _ _ => (and_iff_right hgame).symm) fun _ _ _ _ _ => Iff.rfl
    rw [clearPartyInvitations_eq]
    unfold Chat.tryInGame
    dsimp only
    rw [hs', Option.map_some, Option.map_some]
    refine ⟨_, rfl, fun hquiet => ?_, fun hconf => ?_⟩
    -- the player stays in the party, but in no channel
    · refine h.of_outcome _ ⟨houtcome.ended, houtcome.kept⟩ hsound (fun P users' hchannel' => ?_) (hquiet c rfl)
      obtain ⟨users, hchannel, rfl⟩ := removeUserFromAllChannels_eq_some_iff.mp hchannel'
      exact ⟨users, hchannel, Finset.erase_subset _ _⟩
    · rintro _ ⟨⟩ P users hchannel
      refine h.quiet_of_outcome _ ⟨houtcome.ended, houtcome.kept⟩ (fun P users hchannel => ?_) hconf hchannel
      exact ⟨users.erase player, removeUserFromAllChannels_eq_some_iff.mpr ⟨users, hchannel, rfl⟩,
        fun _ _ hleave => hleave.elim⟩

theorem quiet_of_idle {e : ChatEvent} (hends : ∀ s P, ¬ Ends s e P) (hleaves : ∀ s P q, ¬ Leaves s e P q)
    (o : Option Chat) : Quiet o e :=
  fun _ _ _ _ _ => ⟨hends _ _, fun _ _ => hleaves _ _ _⟩

theorem Inv.event (h : c.Inv) (e : ChatEvent) :
    ∃ c', c.event guid e = some c' ∧ (Quiet (some c) e → c'.Inv) ∧ (c'.Confidential → Quiet (some c) e) := by
  cases e with
  | request r =>
    obtain ⟨s', hs', hsound⟩ := request_allIn_inv h.sound r
    change ∃ c', c.request guid r = some c' ∧ _
    rw [request_eq]
    exact h.tryInGame hs' hsound (request_outcome h.sound hs')
  | disbandParty player => exact h.disbandParty guid player
  | removeCreature player => exact h.removeCreature guid player
  | playerRequestChannels player =>
    exact ⟨_, rfl, fun _ => h.playerRequestChannels player,
      fun _ => quiet_of_idle (fun _ _ => id) (fun _ _ _ => id) _⟩
  | playerOpenChannel player =>
    exact ⟨_, rfl, fun _ => h.playerOpenChannel player,
      fun _ => quiet_of_idle (fun _ _ => id) (fun _ _ _ => id) _⟩
  | playerCloseChannel player =>
    exact ⟨_, rfl, fun _ => h.playerCloseChannel guid player,
      fun _ => quiet_of_idle (fun _ _ => id) (fun _ _ _ => id) _⟩
  | connect player =>
    exact ⟨_, rfl, fun _ => h.removeUserFromAllChannels player,
      fun _ => quiet_of_idle (fun _ _ => id) (fun _ _ _ => id) _⟩

/-- **Party chat is confidential all along a run precisely when it is quiet.** -/
theorem confidential_iff_quiet (inGame : PlayerRef → Bool) (es : List ChatEvent) :
    (∀ pre, pre <+: es → ∃ c, Runs.run (step guid) (some (start inGame)) pre = some c ∧ c.Confidential) ↔
      Runs.Meets (step guid) Quiet (some (start inGame)) es := by
  have hobs : ∀ o : Option Chat, (∃ c, o = some c ∧ c.Inv) → ∃ c, o = some c ∧ c.Confidential := by
    rintro _ ⟨c, rfl, h⟩
    exact ⟨c, rfl, h.confidential⟩
  have hkeep : ∀ (o : Option Chat) (e : ChatEvent), (∃ c, o = some c ∧ c.Inv) → Quiet o e →
      ∃ c, step guid o e = some c ∧ c.Inv := by
    rintro _ e ⟨c, rfl, h⟩ hquiet
    obtain ⟨c', hc', hinv, -⟩ := h.event guid e
    exact ⟨c', hc', hinv hquiet⟩
  have hshow : ∀ (o : Option Chat) (e : ChatEvent), (∃ c, o = some c ∧ c.Inv) →
      (∃ c, step guid o e = some c ∧ c.Confidential) → Quiet o e := by
    rintro _ e ⟨c, rfl, h⟩ ⟨c'', hc'', hconf⟩
    obtain ⟨c', hc', -, hquiet⟩ := h.event guid e
    cases hc'.symm.trans hc''
    exact hquiet hconf
  exact Runs.forall_prefix_iff_meets_of (P := fun o => ∃ c, o = some c ∧ Confidential c) hobs hkeep hshow
    ⟨_, rfl, start_inv inGame⟩

/-- A member who has left the party, and its channel as well by all appearances, hears what the leader says. -/
theorem leaver_hears :
    ∃ c, Runs.run (step fun _ => 1) (some (start fun _ => true))
      [.request (.playerInviteToParty 1 2), .request (.playerJoinParty 2 1),
        .request (.playerInviteToParty 1 3), .request (.playerJoinParty 3 1),
        .playerRequestChannels 1, .playerOpenChannel 1, .playerOpenChannel 2,
        .request (.playerLeaveParty 2 false)] = some c ∧
      c.talkToChannel 1 = some {2, 1} ∧ (c.game.players 2).party = none ∧ ¬ c.Confidential := by
  refine ⟨_, rfl, rfl, rfl, fun hconf => ?_⟩
  obtain ⟨p, hp, hroster⟩ := hconf.users 0 {2, 1} rfl
  cases hp
  -- the party is that of 1 and 3
  have hmember := hroster 2 (Finset.mem_insert_self _ _)
  revert hmember
  decide

end Chat

end Moonlight.Grouping
