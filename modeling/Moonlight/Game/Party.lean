import Mathlib.Data.List.Perm.Basic
import Moonlight.Lib.Runs

/-!
# Parties

Who is in a party is stored four times: as the party of the player, as the leader and the members of the
party, as the invited players of the party, and as the parties a player is invited to
(creatures/players/grouping/party.cpp, creatures/players/player.cpp). The requests of the players
(game/game.cpp) update the four by hand and call each other: a leader who leaves passes the leadership
on, and the last invitation that is removed disbands the party, whose object is then deleted.

A party is a reference into `State.parties`; `none` there is a party that is not allocated or has been
deleted. Every function that dereferences a party returns `none` when there is no object behind the
reference, so that a run which touches a deleted party has no state.

`requests_consistent` says that this does not happen, and that the four stay in step. The proof has two parts.
A request replaces the record of one party and the references to it (`Inv.replace`); disbanding removes
both (`forget`), whatever was already removed on the way there (`disband_eq_forget`).

The hooks of the scripts (`Party:onJoin`, `Party:onLeave`, `Party:onDisband`) let everything pass. What is
sent to the clients and the shared experience are left out.
-/

namespace Moonlight.Grouping

abbrev PlayerRef := Nat

abbrev PartyRef := Nat

structure Party where
  leader : PlayerRef
  memberList : List PlayerRef := []
  inviteList : List PlayerRef := []
  deriving DecidableEq, Repr

namespace Party

def empty (p : Party) : Bool := p.memberList.isEmpty && p.inviteList.isEmpty

def isPlayerInvited (p : Party) (player : PlayerRef) : Bool := p.inviteList.contains player

/-- The leader and the members. -/
def roster (p : Party) : List PlayerRef := p.leader :: p.memberList

/-- Everyone the party refers to. -/
def everyone (p : Party) : List PlayerRef := p.roster ++ p.inviteList

end Party

@[ext] structure PlayerParty where
  party : Option PartyRef := none
  invitePartyList : List PartyRef := []
  deriving DecidableEq, Repr

structure State where
  /-- The players `getPlayerByID` finds. -/
  inGame : PlayerRef → Bool
  players : PlayerRef → PlayerParty
  parties : PartyRef → Option Party
  /-- The next party that `new` allocates. -/
  next : PartyRef

/-- Nobody is in a party. -/
def State.start (inGame : PlayerRef → Bool) : State := ⟨inGame, fun _ => {}, fun _ => none, 0⟩

namespace State

/-! ### Player -/

def setParty (s : State) (player : PlayerRef) (newParty : Option PartyRef) : State :=
  { s with players := Function.update s.players player { s.players player with party := newParty } }

def setInvites (s : State) (player : PlayerRef) (invitePartyList : List PartyRef) : State :=
  let self := { s.players player with invitePartyList }
  { s with players := Function.update s.players player self }

def addPartyInvitation (s : State) (player : PlayerRef) (newParty : PartyRef) : State :=
  if newParty ∈ (s.players player).invitePartyList then s
  else s.setInvites player (newParty :: (s.players player).invitePartyList)

def removePartyInvitation (s : State) (player : PlayerRef) (remParty : PartyRef) : State :=
  s.setInvites player ((s.players player).invitePartyList.filter (· ≠ remParty))

def isInviting (s : State) (self player : PlayerRef) : Option Bool :=
  match (s.players self).party with
  | none => some false
  | some party => (s.parties party).map fun p => p.leader = self && p.isPlayerInvited player

def isPartner (s : State) (self player : PlayerRef) : Bool :=
  (s.players self).party.isSome && player ≠ self && (s.players self).party = (s.players player).party

/-! ### Party -/

/-- Write the object of a party, or delete it. -/
def store (s : State) (this : PartyRef) (p : Option Party) : State :=
  { s with parties := Function.update s.parties this p }

def disband (s : State) (this : PartyRef) : Option State :=
  (s.parties this).map fun p =>
    let s := s.setParty p.leader none
    let s := p.inviteList.foldl (fun s invitee => s.removePartyInvitation invitee this) s
    let s := p.memberList.foldl (fun s member => s.setParty member none) s
    s.store this none

def passPartyLeadership (s : State) (this : PartyRef) (player : PlayerRef) : Option State :=
  (s.parties this).map fun p =>
    if p.leader = player ∨ (s.players player).party ≠ some this then s
    else s.store this
      (some { p with leader := player, memberList := p.leader :: p.memberList.erase player })

/-- The first part of `leaveParty`: a leader passes the leadership on, unless the party ends. Returns
`missingLeader`. -/
def leaveLeader (s : State) (this : PartyRef) (p : Party) (player : PlayerRef) : Option (State × Bool) :=
  if p.leader = player then
    match p.memberList with
    | [] => some (s, true)
    | front :: _ =>
      if p.memberList.length = 1 ∧ p.inviteList = [] then some (s, true)
      else (s.passPartyLeadership this front).map (·, false)
  else some (s, false)

def leaveParty (s : State) (this : PartyRef) (player : PlayerRef) : Option State :=
  (s.parties this).bind fun p =>
    if (s.players player).party ≠ some this ∧ p.leader ≠ player then some s
    else
      (s.leaveLeader this p player).bind fun (s, missingLeader) =>
      (s.parties this).bind fun p =>
        let p := { p with memberList := p.memberList.erase player }
        let s := (s.store this (some p)).setParty player none
        if missingLeader || p.empty then s.disband this else some s

def joinParty (s : State) (this : PartyRef) (player : PlayerRef) : Option State :=
  (s.parties this).map fun p =>
    if player ∉ p.inviteList then s
    else
      let s := s.store this (some { p with
        inviteList := p.inviteList.erase player, memberList := p.memberList ++ [player] })
      (s.setParty player (some this)).removePartyInvitation player this

def removeInvite (s : State) (this : PartyRef) (player : PlayerRef) (removeFromPlayer : Bool) :
    Option State :=
  (s.parties this).bind fun p =>
    if player ∉ p.inviteList then some s
    else
      let p := { p with inviteList := p.inviteList.erase player }
      let s := s.store this (some p)
      let s := if removeFromPlayer then s.removePartyInvitation player this else s
      if p.empty then s.disband this else some s

def invitePlayer (s : State) (this : PartyRef) (player : PlayerRef) : Option State :=
  (s.parties this).map fun p =>
    if p.isPlayerInvited player then s
    else
      (s.store this (some { p with inviteList := p.inviteList ++ [player] })).addPartyInvitation player this

def clearPartyInvitations (s : State) (player : PlayerRef) : Option State :=
  ((s.players player).invitePartyList.foldlM (fun (s : State) party => s.removeInvite party player false) s).map
    fun s => s.setInvites player []

/-- `new Party(leader)`. -/
def newParty (s : State) (leader : PlayerRef) : State :=
  ({ s with next := s.next + 1 }.store s.next (some { leader })).setParty leader (some s.next)

/-! ### Game -/

def playerInviteToParty (s : State) (player invitedPlayer : PlayerRef) : Option State :=
  if player = invitedPlayer then some s
  else if !s.inGame player then some s
  else if !s.inGame invitedPlayer then some s
  else
    (s.isInviting invitedPlayer player).bind fun inviting =>
    if inviting then some s
    else if (s.players invitedPlayer).party.isSome then some s
    else
      match (s.players player).party with
      | none => (s.newParty player).invitePlayer s.next invitedPlayer
      | some party =>
        (s.parties party).bind fun p =>
          if p.leader ≠ player then some s else s.invitePlayer party invitedPlayer

def playerJoinParty (s : State) (player leader : PlayerRef) : Option State :=
  if !s.inGame player then some s
  else if !s.inGame leader then some s
  else
    (s.isInviting leader player).bind fun inviting =>
    if !inviting then some s
    else
      match (s.players leader).party with
      | none => some s
      | some party =>
        (s.parties party).bind fun p =>
          if p.leader ≠ leader then some s
          else if (s.players player).party.isSome then some s
          else s.joinParty party player

def playerRevokePartyInvitation (s : State) (player invitedPlayer : PlayerRef) : Option State :=
  if !s.inGame player then some s
  else
    match (s.players player).party with
    | none => some s
    | some party =>
      (s.parties party).bind fun p =>
        if p.leader ≠ player then some s
        else if !s.inGame invitedPlayer then some s
        else
          (s.isInviting player invitedPlayer).bind fun inviting =>
          if !inviting then some s else s.removeInvite party invitedPlayer true

def playerPassPartyLeadership (s : State) (player newLeader : PlayerRef) : Option State :=
  if !s.inGame player then some s
  else
    match (s.players player).party with
    | none => some s
    | some party =>
      (s.parties party).bind fun p =>
        if p.leader ≠ player then some s
        else if !s.inGame newLeader then some s
        else if !s.isPartner player newLeader then some s
        else s.passPartyLeadership party newLeader

/-- `infight` is `hasCondition(CONDITION_INFIGHT)`. -/
def playerLeaveParty (s : State) (player : PlayerRef) (infight : Bool) : Option State :=
  if !s.inGame player then some s
  else
    match (s.players player).party with
    | none => some s
    | some party => if infight then some s else s.leaveParty party player

end State

inductive Request where
  | playerInviteToParty (player invitedPlayer : PlayerRef)
  | playerJoinParty (player leader : PlayerRef)
  | playerRevokePartyInvitation (player invitedPlayer : PlayerRef)
  | playerPassPartyLeadership (player newLeader : PlayerRef)
  | playerLeaveParty (player : PlayerRef) (infight : Bool)
  | clearPartyInvitations (player : PlayerRef)

def request (s : State) : Request → Option State
  | .playerInviteToParty player invitedPlayer => s.playerInviteToParty player invitedPlayer
  | .playerJoinParty player leader => s.playerJoinParty player leader
  | .playerRevokePartyInvitation player invitedPlayer => s.playerRevokePartyInvitation player invitedPlayer
  | .playerPassPartyLeadership player newLeader => s.playerPassPartyLeadership player newLeader
  | .playerLeaveParty player infight => s.playerLeaveParty player infight
  | .clearPartyInvitations player => s.clearPartyInvitations player

/-- One request after the other, until one dereferences a deleted party. -/
def step (s : Option State) (r : Request) : Option State := s.bind (request · r)

/-- **The four records of a party are in step.** -/
structure Consistent (s : State) : Prop where
  party_iff : ∀ P p, s.parties P = some p →
    ∀ q, (s.players q).party = some P ↔ q = p.leader ∨ q ∈ p.memberList
  memberList_nodup : ∀ P p, s.parties P = some p → p.memberList.Nodup
  inviteList_nodup : ∀ P p, s.parties P = some p → p.inviteList.Nodup
  leader_not_member : ∀ P p, s.parties P = some p → p.leader ∉ p.memberList
  member_not_invited : ∀ P p, s.parties P = some p → ∀ q ∈ p.memberList, q ∉ p.inviteList
  invite_iff : ∀ P p, s.parties P = some p → ∀ q, q ∈ p.inviteList ↔ P ∈ (s.players q).invitePartyList
  /-- Nobody refers to a disbanded party. -/
  party_live : ∀ q P, (s.players q).party = some P ∨ P ∈ (s.players q).invitePartyList → s.parties P ≠ none

/-- A party as the requests leave it. -/
structure Party.Proper (inGame : PlayerRef → Bool) (p : Party) : Prop where
  nodup : p.everyone.Nodup
  not_empty : p.empty = false
  alive : ∀ q ∈ p.everyone, inGame q = true

/-- What the requests maintain: every party is proper, and the references of the players are those that
the parties list. -/
structure Inv (s : State) : Prop where
  proper : ∀ {P p}, s.parties P = some p → p.Proper s.inGame
  party_iff : ∀ P q, (s.players q).party = some P ↔ ∃ p, s.parties P = some p ∧ q ∈ p.roster
  invite_iff : ∀ P q, P ∈ (s.players q).invitePartyList ↔ ∃ p, s.parties P = some p ∧ q ∈ p.inviteList
  invites_nodup : ∀ q, (s.players q).invitePartyList.Nodup
  fresh : ∀ P, s.next ≤ P → s.parties P = none

theorem start_inv (inGame : PlayerRef → Bool) : Inv (State.start inGame) where
  proper := fun h => nomatch h
  party_iff := fun _ _ => ⟨fun h => (nomatch h), fun ⟨_, h, _⟩ => nomatch h⟩
  invite_iff := fun _ _ => ⟨fun h => (nomatch h), fun ⟨_, h, _⟩ => nomatch h⟩
  invites_nodup := fun _ => List.nodup_nil
  fresh := fun _ _ => rfl

theorem Inv.roster_iff {s : State} (h : Inv s) {P : PartyRef} {p : Party} (hp : s.parties P = some p)
    (q : PlayerRef) : (s.players q).party = some P ↔ q ∈ p.roster := by
  rw [h.party_iff, hp]
  exact ⟨fun ⟨_, he, hq⟩ => Option.some.inj he ▸ hq, fun hq => ⟨p, rfl, hq⟩⟩

theorem Inv.invited_iff {s : State} (h : Inv s) {P : PartyRef} {p : Party} (hp : s.parties P = some p)
    (q : PlayerRef) : P ∈ (s.players q).invitePartyList ↔ q ∈ p.inviteList := by
  rw [h.invite_iff, hp]
  exact ⟨fun ⟨_, he, hq⟩ => Option.some.inj he ▸ hq, fun hq => ⟨p, rfl, hq⟩⟩

theorem Inv.live_of_party {s : State} (h : Inv s) {P : PartyRef} {q : PlayerRef}
    (hq : (s.players q).party = some P) : ∃ p, s.parties P = some p ∧ q ∈ p.roster :=
  (h.party_iff P q).mp hq

theorem Inv.consistent {s : State} (h : Inv s) : Consistent s where
  party_iff := fun P p hp q => by
    rw [h.roster_iff hp, Party.roster, List.mem_cons]
  memberList_nodup := fun P p hp =>
    (List.nodup_cons.mp (List.nodup_append.mp (h.proper hp).nodup).1).2
  inviteList_nodup := fun P p hp => (List.nodup_append.mp (h.proper hp).nodup).2.1
  leader_not_member := fun P p hp =>
    (List.nodup_cons.mp (List.nodup_append.mp (h.proper hp).nodup).1).1
  member_not_invited := fun P p hp q hq hinv =>
    (List.nodup_append.mp (h.proper hp).nodup).2.2 q (List.mem_cons_of_mem _ hq) q hinv rfl
  invite_iff := fun P p hp q => (h.invited_iff hp q).symm
  party_live := by
    rintro q P (hq | hq) hnone
    · obtain ⟨p, hp, -⟩ := (h.party_iff P q).mp hq
      rw [hp] at hnone
      cases hnone
    · obtain ⟨p, hp, -⟩ := (h.invite_iff P q).mp hq
      rw [hp] at hnone
      cases hnone

/-! ### One party at a time -/

/-- **A request concerns one party.** Its record is replaced (or deleted, or created), and so are the
references to it. -/
theorem Inv.replace {s s' : State} (h : Inv s) {this : PartyRef} {r : Option Party}
    (hgame : s'.inGame = s.inGame) (hnext : s.next ≤ s'.next) (hthis : this < s'.next)
    (hparties : ∀ P, s'.parties P = if P = this then r else s.parties P)
    (hproper : ∀ p, r = some p → p.Proper s.inGame)
    (hparty : ∀ q, (s'.players q).party = some this ↔ ∃ p, r = some p ∧ q ∈ p.roster)
    (hothers : ∀ q P, P ≠ this → ((s'.players q).party = some P ↔ (s.players q).party = some P))
    (hinvite : ∀ q, this ∈ (s'.players q).invitePartyList ↔ ∃ p, r = some p ∧ q ∈ p.inviteList)
    (hinvites : ∀ q P, P ≠ this →
      (P ∈ (s'.players q).invitePartyList ↔ P ∈ (s.players q).invitePartyList))
    (hnodup : ∀ q, (s'.players q).invitePartyList.Nodup) : Inv s' := by
  have hat : s'.parties this = r := by rw [hparties, if_pos rfl]
  have hne : ∀ {P}, P ≠ this → s'.parties P = s.parties P := fun hP => by rw [hparties, if_neg hP]
  refine ⟨?_, ?_, ?_, hnodup, ?_⟩
  · intro P p hp
    rw [hgame]
    by_cases hP : P = this
    · rw [hP, hat] at hp
      exact hproper p hp
    · rw [hne hP] at hp
      exact h.proper hp
  · intro P q
    by_cases hP : P = this
    · rw [hP, hat]
      exact hparty q
    · rw [hne hP, hothers q P hP]
      exact h.party_iff P q
  · intro P q
    by_cases hP : P = this
    · rw [hP, hat]
      exact hinvite q
    · rw [hne hP, hinvites q P hP]
      exact h.invite_iff P q
  · intro P hP
    have hPne : P ≠ this := Nat.ne_of_gt (Nat.lt_of_lt_of_le hthis hP)
    rw [hne hPne]
    exact h.fresh P (Nat.le_trans hnext hP)

theorem Inv.rewrite {s s' : State} (h : Inv s) {this : PartyRef} {p : Party}
    (hgame : s'.inGame = s.inGame) (hnext : s.next ≤ s'.next) (hthis : this < s'.next)
    (hparties : ∀ P, s'.parties P = if P = this then some p else s.parties P) (hproper : p.Proper s.inGame)
    (hparty : ∀ q, (s'.players q).party = some this ↔ q ∈ p.roster)
    (hothers : ∀ q P, P ≠ this → ((s'.players q).party = some P ↔ (s.players q).party = some P))
    (hinvite : ∀ q, this ∈ (s'.players q).invitePartyList ↔ q ∈ p.inviteList)
    (hinvites : ∀ q P, P ≠ this →
      (P ∈ (s'.players q).invitePartyList ↔ P ∈ (s.players q).invitePartyList))
    (hnodup : ∀ q, (s'.players q).invitePartyList.Nodup) : Inv s' := by
  have hsome : ∀ {Q : Party → Prop}, (∃ p', some p = some p' ∧ Q p') ↔ Q p :=
    ⟨fun ⟨_, he, hQ⟩ => Option.some.inj he ▸ hQ, fun hQ => ⟨p, rfl, hQ⟩⟩
  refine h.replace hgame hnext hthis hparties ?_ (fun q => (hparty q).trans (hsome (Q := (q ∈ ·.roster))).symm)
    hothers (fun q => (hinvite q).trans (hsome (Q := (q ∈ ·.inviteList))).symm) hinvites hnodup
  rintro p' ⟨⟩
  exact hproper

theorem Inv.lt_next {s : State} (h : Inv s) {P : PartyRef} {p : Party} (hp : s.parties P = some p) :
    P < s.next := by
  by_contra hP
  rw [h.fresh P (Nat.not_lt.mp hP)] at hp
  cases hp

/-! ### Disbanding -/

theorem setParty_players (s : State) (p q : PlayerRef) (P : Option PartyRef) :
    (s.setParty p P).players q = if q = p then { s.players p with party := P } else s.players q :=
  Function.update_apply _ _ _ _

theorem setInvites_players (s : State) (p q : PlayerRef) (l : List PartyRef) :
    (s.setInvites p l).players q = if q = p then { s.players p with invitePartyList := l } else s.players q :=
  Function.update_apply _ _ _ _

/-- A player without the references to a party. -/
def PlayerParty.forget (t : PlayerParty) (this : PartyRef) : PlayerParty :=
  ⟨if t.party = some this then none else t.party, t.invitePartyList.filter (· ≠ this)⟩

/-- The state without a party: neither the object nor a reference to it. -/
def State.forget (s : State) (this : PartyRef) : State :=
  { s with players := fun q => (s.players q).forget this }.store this none

theorem foldl_removePartyInvitation (l : List PlayerRef) (this : PartyRef) (s : State) :
    l.foldl (fun s invitee => s.removePartyInvitation invitee this) s = { s with players := fun q =>
      if q ∈ l then { s.players q with
        invitePartyList := (s.players q).invitePartyList.filter (· ≠ this) } else s.players q } := by
  induction l generalizing s with
  | nil => simp
  | cons p l ih =>
    rw [List.foldl_cons, ih]
    refine congrArg (State.mk s.inGame · s.parties s.next) (funext fun q => ?_)
    unfold State.removePartyInvitation
    rw [setInvites_players]
    by_cases hqp : q = p
    · subst hqp
      simp
    · simp [hqp]

theorem foldl_setParty (l : List PlayerRef) (s : State) :
    l.foldl (fun s member => s.setParty member none) s = { s with players := fun q =>
      if q ∈ l then { s.players q with party := none } else s.players q } := by
  induction l generalizing s with
  | nil => simp
  | cons p l ih =>
    rw [List.foldl_cons, ih]
    refine congrArg (State.mk s.inGame · s.parties s.next) (funext fun q => ?_)
    rw [setParty_players]
    by_cases hqp : q = p
    · subst hqp
      simp
    · simp [hqp]

/-- **Disbanding forgets the party**, if its lists still name everyone who refers to it. -/
theorem disband_eq_forget {s : State} {this : PartyRef} {p : Party} (hp : s.parties this = some p)
    (hparty : ∀ q, (s.players q).party = some this → q ∈ p.roster)
    (hroster : ∀ q ∈ p.roster, (s.players q).party = some this ∨ (s.players q).party = none)
    (hinvite : ∀ q, this ∈ (s.players q).invitePartyList → q ∈ p.inviteList) :
    s.disband this = some (s.forget this) := by
  unfold State.disband
  rw [hp, Option.map_some]
  dsimp only
  rw [foldl_removePartyInvitation, foldl_setParty]
  refine congrArg some (congrArg (State.mk s.inGame · _ s.next) (funext fun q => ?_))
  dsimp only
  rw [setParty_players]
  have hmem : q ∈ p.roster ↔ q = p.leader ∨ q ∈ p.memberList := List.mem_cons
  apply PlayerParty.ext
  · -- whoever is on the roster has no party now, and nobody else had this one
    have hleft : q ∈ p.roster → ((s.players q).forget this).party = none := by
      intro hq
      unfold PlayerParty.forget
      rcases hroster q hq with he | he <;> simp [he]
    have hstay : q ∉ p.roster → ((s.players q).forget this).party = (s.players q).party :=
      fun hq => if_neg fun he => hq (hparty q he)
    by_cases hm : q ∈ p.memberList
    · rw [hleft (hmem.mpr (.inr hm)), if_pos hm]
    · rw [if_neg hm]
      by_cases hl : q = p.leader
      · rw [hleft (hmem.mpr (.inl hl)), if_pos hl]
        split <;> rfl
      · rw [hstay (fun hq => (hmem.mp hq).elim hl hm), if_neg hl]
        split <;> rfl
  · have hinvited : q ∉ p.inviteList →
        (s.players q).invitePartyList.filter (· ≠ this) = (s.players q).invitePartyList := by
      intro hq
      refine List.filter_eq_self.mpr fun P hP => decide_eq_true ?_
      rintro rfl
      exact hq (hinvite q hP)
    have hsame : (if q = p.leader then { s.players p.leader with party := none } else s.players q).invitePartyList =
        (s.players q).invitePartyList := by
      split
      next hl => rw [hl]
      next => rfl
    unfold PlayerParty.forget
    by_cases hi : q ∈ p.inviteList
    · simp only [if_pos hi, ← hsame]
      split <;> rfl
    · refine Eq.trans ?_ (hinvited hi).symm
      rw [if_neg hi]
      split <;> exact hsame

theorem forget_store (s : State) (this : PartyRef) (r : Option Party) :
    (s.store this r).forget this = s.forget this :=
  congrArg (State.mk s.inGame _ · s.next) (Function.update_idem _ _ _)

theorem forget_setParty {s : State} {this : PartyRef} {p : PlayerRef}
    (hp : (s.players p).party = some this) : (s.setParty p none).forget this = s.forget this := by
  refine congrArg (State.mk s.inGame · _ s.next) (funext fun q => ?_)
  dsimp only
  rw [setParty_players]
  by_cases hq : q = p
  · subst hq
    simp [PlayerParty.forget, hp]
  · rw [if_neg hq]

theorem forget_removePartyInvitation (s : State) (this : PartyRef) (p : PlayerRef) :
    (s.removePartyInvitation p this).forget this = s.forget this := by
  refine congrArg (State.mk s.inGame · _ s.next) (funext fun q => ?_)
  unfold State.removePartyInvitation
  dsimp only
  rw [setInvites_players]
  by_cases hq : q = p
  · subst hq
    simp [PlayerParty.forget]
  · rw [if_neg hq]

theorem Inv.forget {s : State} (h : Inv s) {this : PartyRef} {p : Party} (hp : s.parties this = some p) :
    Inv (s.forget this) := by
  refine h.replace (r := none) rfl (Nat.le_refl _) (h.lt_next hp)
    (fun P => Function.update_apply _ _ _ _) (fun _ he => nomatch he) ?_ ?_ ?_ ?_ ?_
  · intro q
    refine ⟨fun he => ?_, fun ⟨_, he, _⟩ => nomatch he⟩
    dsimp only [State.forget, State.store, PlayerParty.forget] at he
    split at he
    · cases he
    next hne => exact (hne he).elim
  · intro q P hP
    dsimp only [State.forget, State.store, PlayerParty.forget]
    split
    next hthis =>
      rw [hthis]
      exact ⟨fun he => (nomatch he), fun he => (hP (Option.some.inj he).symm).elim⟩
    · exact Iff.rfl
  · intro q
    refine ⟨fun he => ?_, fun ⟨_, he, _⟩ => nomatch he⟩
    exact (of_decide_eq_true (List.mem_filter.mp he).2 rfl).elim
  · intro q P hP
    dsimp only [State.forget, State.store, PlayerParty.forget]
    rw [List.mem_filter]
    exact ⟨fun he => he.1, fun he => ⟨he, decide_eq_true hP⟩⟩
  · intro q
    exact (h.invites_nodup q).filter _

/-! ### The operations -/

/-- The operation goes through and keeps the invariant. -/
def Keeps (o : Option State) : Prop := ∃ s, o = some s ∧ Inv s

theorem Inv.keeps {s : State} (h : Inv s) : Keeps (some s) := ⟨s, rfl, h⟩

theorem Party.Proper.of_perm {inGame : PlayerRef → Bool} {p p' : Party} (h : p.Proper inGame)
    (hperm : p'.everyone.Perm p.everyone) (hne : p'.empty = false) : p'.Proper inGame where
  nodup := hperm.nodup_iff.mpr h.nodup
  not_empty := hne
  alive := fun q hq => h.alive q (hperm.mem_iff.mp hq)

theorem Party.Proper.of_sublist {inGame : PlayerRef → Bool} {p p' : Party} (h : p.Proper inGame)
    (hsub : p'.everyone.Sublist p.everyone) (hne : p'.empty = false) : p'.Proper inGame where
  nodup := h.nodup.sublist hsub
  not_empty := hne
  alive := fun q hq => h.alive q (hsub.subset hq)

theorem Inv.leader_ne {s : State} (h : Inv s) {this : PartyRef} {p : Party} (hp : s.parties this = some p)
    {q : PlayerRef} (hq : q ∈ p.memberList) : q ≠ p.leader := by
  rintro rfl
  exact h.consistent.leader_not_member this p hp hq

theorem Inv.passPartyLeadership_eq {s : State} (h : Inv s) {this : PartyRef} {p : Party}
    (hp : s.parties this = some p) {q : PlayerRef} (hq : q ∈ p.memberList) :
    s.passPartyLeadership this q = some (s.store this
      (some { p with leader := q, memberList := p.leader :: p.memberList.erase q })) := by
  unfold State.passPartyLeadership
  rw [hp, Option.map_some, if_neg]
  rintro (he | he)
  · exact h.leader_ne hp hq he.symm
  · exact he ((h.roster_iff hp q).mpr (List.mem_cons_of_mem _ hq))

theorem Inv.passPartyLeadership {s : State} (h : Inv s) {this : PartyRef} {p : Party}
    (hp : s.parties this = some p) (q : PlayerRef) : Keeps (s.passPartyLeadership this q) := by
  unfold State.passPartyLeadership
  rw [hp, Option.map_some]
  split
  · exact h.keeps
  next hq =>
  obtain ⟨hne, hparty⟩ := not_or.mp hq
  have hroster : q ∈ p.roster := (h.roster_iff hp q).mp (not_not.mp hparty)
  have hmem : q ∈ p.memberList := (List.mem_cons.mp hroster).resolve_left (Ne.symm hne)
  have hperm : (q :: p.leader :: p.memberList.erase q).Perm p.roster :=
    (List.Perm.swap _ _ _).trans ((List.perm_cons_erase hmem).symm.cons _)
  exact ⟨_, rfl, h.rewrite rfl (Nat.le_refl _) (h.lt_next hp) (fun P => Function.update_apply _ _ _ _)
    ((h.proper hp).of_perm (hperm.append_right _) rfl)
    (fun r => (h.roster_iff hp r).trans hperm.mem_iff.symm) (fun _ _ _ => Iff.rfl) (h.invited_iff (p := p) hp)
    (fun _ _ _ => Iff.rfl) h.invites_nodup⟩

theorem mem_filter_ne {l : List PartyRef} {this P : PartyRef} (hP : P ≠ this) :
    P ∈ l.filter (· ≠ this) ↔ P ∈ l :=
  List.mem_filter.trans ⟨fun he => he.1, fun he => ⟨he, decide_eq_true hP⟩⟩

theorem not_mem_filter_ne (l : List PartyRef) (this : PartyRef) : this ∉ l.filter (· ≠ this) :=
  fun he => of_decide_eq_true (List.mem_filter.mp he).2 rfl

theorem Inv.joinParty {s : State} (h : Inv s) {this : PartyRef} {p : Party} (hp : s.parties this = some p)
    {q : PlayerRef} (hfree : (s.players q).party = none) : Keeps (s.joinParty this q) := by
  unfold State.joinParty
  rw [hp, Option.map_some]
  dsimp only
  split
  · exact h.keeps
  next hq =>
  have hmem : q ∈ p.inviteList := not_not.mp hq
  have hnodup : p.inviteList.Nodup := (List.nodup_append.mp (h.proper hp).nodup).2.1
  have hperm : (p.roster ++ [q] ++ p.inviteList.erase q).Perm p.everyone := by
    rw [List.append_assoc]
    exact (List.perm_cons_erase hmem).symm.append_left _
  -- only `q` changes: it joins, and the invitation is gone
  have hplayers : ∀ r, ((((s.store this (some { p with
      inviteList := p.inviteList.erase q, memberList := p.memberList ++ [q] })).setParty q
        (some this)).removePartyInvitation q this).players r) =
      if r = q then ⟨some this, (s.players q).invitePartyList.filter (· ≠ this)⟩ else s.players r := by
    intro r
    unfold State.removePartyInvitation
    rw [setInvites_players, setParty_players, setParty_players, if_pos rfl]
    split <;> rfl
  refine ⟨_, rfl, h.rewrite rfl (Nat.le_refl _) (h.lt_next hp) (fun P => Function.update_apply _ _ _ _)
    ((h.proper hp).of_perm hperm ?_) ?_ ?_ ?_ ?_ ?_⟩
  · simp [Party.empty]
  · intro r
    have hroster := h.roster_iff hp r
    rw [hplayers]
    unfold Party.roster at hroster ⊢
    rw [← List.cons_append, List.mem_append, List.mem_singleton, ← hroster]
    split
    next hr => exact ⟨fun _ => .inr hr, fun _ => rfl⟩
    next hr => exact ⟨.inl, fun he => he.resolve_right hr⟩
  · intro r P hP
    rw [hplayers]
    split
    next hr =>
      rw [hr, hfree]
      exact ⟨fun he => (hP (Option.some.inj he).symm).elim, fun he => nomatch he⟩
    next => exact Iff.rfl
  · intro r
    rw [hplayers, hnodup.mem_erase_iff, ← h.invited_iff hp r]
    split
    next hr => exact ⟨fun he => (not_mem_filter_ne _ _ he).elim, fun he => (he.1 hr).elim⟩
    next hr => exact ⟨fun he => ⟨hr, he⟩, fun he => he.2⟩
  · intro r P hP
    rw [hplayers]
    split
    next hr => rw [hr]; exact mem_filter_ne hP
    next => exact Iff.rfl
  · intro r
    rw [hplayers]
    split
    · exact (h.invites_nodup q).filter _
    · exact h.invites_nodup r

theorem removePartyInvitation_players (s : State) (p r : PlayerRef) (this : PartyRef) :
    (s.removePartyInvitation p this).players r = if r = p then
      ⟨(s.players p).party, (s.players p).invitePartyList.filter (· ≠ this)⟩ else s.players r :=
  setInvites_players s p r _

theorem Inv.removeInvite {s : State} (h : Inv s) {this : PartyRef} {p : Party}
    (hp : s.parties this = some p) (q : PlayerRef) : Keeps (s.removeInvite this q true) := by
  unfold State.removeInvite
  rw [hp, Option.bind_some]
  split
  · exact h.keeps
  dsimp only
  rw [if_pos rfl]
  have hnodup : p.inviteList.Nodup := (List.nodup_append.mp (h.proper hp).nodup).2.1
  have hparty : ∀ r, (((s.store this (some { p with inviteList := p.inviteList.erase q
      })).removePartyInvitation q this).players r).party = (s.players r).party := by
    intro r
    rw [removePartyInvitation_players]
    split
    next hr => rw [hr]; rfl
    next => rfl
  have hinvite : ∀ r, this ∈ (((s.store this (some { p with inviteList := p.inviteList.erase q
      })).removePartyInvitation q this).players r).invitePartyList ↔ r ∈ p.inviteList.erase q := by
    intro r
    rw [removePartyInvitation_players, hnodup.mem_erase_iff, ← h.invited_iff hp r]
    split
    next hr => exact ⟨fun he => (not_mem_filter_ne _ _ he).elim, fun he => (he.1 hr).elim⟩
    next hr => exact ⟨fun he => ⟨hr, he⟩, fun he => he.2⟩
  split
  · rw [disband_eq_forget (Function.update_self _ _ _), forget_removePartyInvitation, forget_store]
    · exact ⟨_, rfl, h.forget hp⟩
    · intro r hr
      rw [hparty] at hr
      exact (h.roster_iff hp r).mp hr
    · intro r hr
      rw [hparty]
      exact .inl ((h.roster_iff hp r).mpr hr)
    · exact fun r => (hinvite r).mp
  next hne =>
    refine ⟨_, rfl, h.rewrite rfl (Nat.le_refl _) (h.lt_next hp) (fun P => Function.update_apply _ _ _ _)
      ((h.proper hp).of_sublist (List.erase_sublist.append_left _) (Bool.not_eq_true _ ▸ hne)) ?_ ?_ hinvite
      ?_ ?_⟩
    · intro r
      rw [hparty]
      exact h.roster_iff hp r
    · intro r P _
      rw [hparty]
    · intro r P hP
      rw [removePartyInvitation_players]
      split
      next hr => rw [hr]; exact mem_filter_ne hP
      next => exact Iff.rfl
    · intro r
      rw [removePartyInvitation_players]
      split
      · exact (h.invites_nodup q).filter _
      · exact h.invites_nodup r

theorem Party.Proper.invite {inGame : PlayerRef → Bool} {p : Party} (hnodup : p.everyone.Nodup)
    (halive : ∀ q ∈ p.everyone, inGame q = true) {q : PlayerRef} (hq : inGame q = true)
    (hnew : q ∉ p.everyone) : Party.Proper inGame { p with inviteList := p.inviteList ++ [q] } where
  nodup := by
    show (p.roster ++ (p.inviteList ++ [q])).Nodup
    rw [← List.append_assoc]
    refine List.nodup_append.mpr ⟨hnodup, List.pairwise_singleton _ q, ?_⟩
    rintro r hr r' hr' rfl
    rw [List.mem_singleton.mp hr'] at hr
    exact hnew hr
  not_empty := by simp [Party.empty]
  alive := by
    intro r hr
    change r ∈ p.roster ++ (p.inviteList ++ [q]) at hr
    rw [← List.append_assoc, List.mem_append, List.mem_singleton] at hr
    rcases hr with hr | rfl
    · exact halive r hr
    · exact hq

theorem Inv.not_mem_everyone {s : State} (h : Inv s) {this : PartyRef} {p : Party}
    (hp : s.parties this = some p) {q : PlayerRef} (hfree : (s.players q).party = none)
    (hnew : q ∉ p.inviteList) : q ∉ p.everyone := by
  intro hq
  rcases List.mem_append.mp hq with hr | hi
  · rw [(h.roster_iff hp q).mpr hr] at hfree
    cases hfree
  · exact hnew hi

theorem Inv.addPartyInvitation {s t : State} (h : Inv s) {this : PartyRef} {p : Party} {q : PlayerRef}
    (hgame : t.inGame = s.inGame) (hnext : s.next ≤ t.next) (hthis : this < t.next)
    (hparties : ∀ P, t.parties P =
      if P = this then some { p with inviteList := p.inviteList ++ [q] } else s.parties P)
    (hproper : Party.Proper s.inGame { p with inviteList := p.inviteList ++ [q] })
    (hparty : ∀ r, (t.players r).party = some this ↔ r ∈ p.roster)
    (hothers : ∀ r P, P ≠ this → ((t.players r).party = some P ↔ (s.players r).party = some P))
    (hlists : ∀ r, (t.players r).invitePartyList = (s.players r).invitePartyList)
    (hinvite : ∀ r, this ∈ (s.players r).invitePartyList ↔ r ∈ p.inviteList) (hnew : q ∉ p.inviteList) :
    Inv (t.addPartyInvitation q this) := by
  have hlist : this ∉ (t.players q).invitePartyList := by
    rw [hlists, hinvite]
    exact hnew
  have hadd : t.addPartyInvitation q this = t.setInvites q (this :: (t.players q).invitePartyList) :=
    if_neg hlist
  have hparty' : ∀ r, ((t.addPartyInvitation q this).players r).party = (t.players r).party := by
    intro r
    rw [hadd, setInvites_players]
    split
    next hr => rw [hr]
    next => rfl
  have hinvites : ∀ r, ((t.addPartyInvitation q this).players r).invitePartyList =
      if r = q then this :: (s.players q).invitePartyList else (s.players r).invitePartyList := by
    intro r
    rw [hadd, setInvites_players, ← hlists, ← hlists]
    split <;> rfl
  refine h.rewrite (by rw [hadd]; exact hgame) (by rw [hadd]; exact hnext) (by rw [hadd]; exact hthis)
    (by rw [hadd]; exact hparties) hproper ?_ ?_ ?_ ?_ ?_
  · intro r
    rw [hparty']
    exact hparty r
  · intro r P hP
    rw [hparty']
    exact hothers r P hP
  · intro r
    rw [hinvites, List.mem_append, List.mem_singleton, ← hinvite r]
    split
    next hr => exact ⟨fun _ => .inr hr, fun _ => List.mem_cons_self⟩
    next hr => exact ⟨.inl, fun he => he.resolve_right hr⟩
  · intro r P hP
    rw [hinvites]
    split
    next hr => rw [hr]; exact List.mem_cons.trans ⟨fun he => he.resolve_left hP, .inr⟩
    next => exact Iff.rfl
  · intro r
    rw [hinvites]
    split
    · rw [hlists] at hlist
      exact List.nodup_cons.mpr ⟨hlist, h.invites_nodup q⟩
    · exact h.invites_nodup r

theorem Inv.invitePlayer {s : State} (h : Inv s) {this : PartyRef} {p : Party} (hp : s.parties this = some p)
    {q : PlayerRef} (hgame : s.inGame q = true) (hfree : (s.players q).party = none) :
    Keeps (s.invitePlayer this q) := by
  unfold State.invitePlayer
  rw [hp, Option.map_some]
  split
  · exact h.keeps
  next hq =>
  have hnew : q ∉ p.inviteList := fun hmem => hq (List.contains_iff_mem.mpr hmem)
  exact ⟨_, rfl, h.addPartyInvitation rfl (Nat.le_refl _) (h.lt_next hp)
    (fun P => Function.update_apply _ _ _ _)
    (.invite (h.proper hp).nodup (h.proper hp).alive hgame (h.not_mem_everyone hp hfree hnew))
    (h.roster_iff hp) (fun _ _ _ => Iff.rfl) (fun _ => rfl) (h.invited_iff hp) hnew⟩

theorem Inv.newParty_invitePlayer {s : State} (h : Inv s) {p q : PlayerRef} (hne : p ≠ q)
    (hp : s.inGame p = true) (hq : s.inGame q = true) (hfree : (s.players p).party = none) :
    Keeps ((s.newParty p).invitePlayer s.next q) := by
  have hobject : (s.newParty p).parties s.next = some { leader := p } := Function.update_self _ _ _
  have hnone : s.parties s.next = none := h.fresh _ (Nat.le_refl _)
  unfold State.invitePlayer
  rw [hobject, Option.map_some, if_neg (by simp [Party.isPlayerInvited])]
  have hparty : ∀ r, ((s.newParty p).players r).party =
      if r = p then some s.next else (s.players r).party := by
    intro r
    unfold State.newParty
    rw [setParty_players]
    split <;> rfl
  -- nobody refers to an object that was not there
  have hunused : ∀ r, (s.players r).party ≠ some s.next := by
    intro r hr
    obtain ⟨p', hp', -⟩ := h.live_of_party hr
    rw [hnone] at hp'
    cases hp'
  have hunlisted : ∀ r, s.next ∉ (s.players r).invitePartyList := by
    intro r hr
    obtain ⟨p', hp', -⟩ := (h.invite_iff s.next r).mp hr
    rw [hnone] at hp'
    cases hp'
  refine ⟨_, rfl, h.addPartyInvitation (p := { leader := p }) rfl (Nat.le_succ _) (Nat.lt_succ_self _)
    ?_ ?_ ?_ ?_ ?_ ?_ ?_⟩
  · intro P
    refine (Function.update_apply _ _ _ _).trans ?_
    split
    · rfl
    next hP => exact (Function.update_apply _ _ _ _).trans (if_neg hP)
  · refine .invite ?_ ?_ hq ?_
    · exact List.pairwise_singleton _ p
    · intro r hr
      rw [List.mem_singleton.mp hr]
      exact hp
    · exact fun hr => hne (List.mem_singleton.mp hr).symm
  · intro r
    refine Iff.trans ?_ List.mem_singleton.symm
    show ((s.newParty p).players r).party = some s.next ↔ r = p
    rw [hparty]
    split
    next hr => exact ⟨fun _ => hr, fun _ => rfl⟩
    next hr => exact ⟨fun he => (hunused r he).elim, fun he => (hr he).elim⟩
  · intro r P hP
    show ((s.newParty p).players r).party = some P ↔ _
    rw [hparty]
    split
    next hr =>
      rw [hr, hfree]
      exact ⟨fun he => (hP (Option.some.inj he).symm).elim, fun he => nomatch he⟩
    next => exact Iff.rfl
  · intro r
    show ((s.newParty p).players r).invitePartyList = _
    unfold State.newParty
    rw [setParty_players]
    split
    next hr => rw [hr]; rfl
    next => rfl
  · exact fun r => ⟨fun he => (hunlisted r he).elim, fun he => nomatch he⟩
  · exact fun he => nomatch he

theorem Inv.leave {s : State} (h : Inv s) {this : PartyRef} {p : Party} (hp : s.parties this = some p)
    {q : PlayerRef} (hq : (s.players q).party = some this) (missingLeader : Bool)
    (hleader : p.leader = q → missingLeader = true) :
    Keeps (if missingLeader || ({ p with memberList := p.memberList.erase q } : Party).empty then
      ((s.store this (some { p with memberList := p.memberList.erase q })).setParty q none).disband this
      else some ((s.store this (some { p with memberList := p.memberList.erase q })).setParty q none)) := by
  have hnodup : p.roster.Nodup := (List.nodup_append.mp (h.proper hp).nodup).1
  have hmembers : p.memberList.Nodup := (List.nodup_cons.mp hnodup).2
  have hparty : ∀ r, (((s.store this (some { p with memberList := p.memberList.erase q })).setParty q
      none).players r).party = if r = q then none else (s.players r).party := by
    intro r
    rw [setParty_players]
    split <;> rfl
  have hlists : ∀ r, (((s.store this (some { p with memberList := p.memberList.erase q })).setParty q
      none).players r).invitePartyList = (s.players r).invitePartyList := by
    intro r
    rw [setParty_players]
    split
    next hr => rw [hr]; rfl
    next => rfl
  -- the new roster is the old one without `q`, but for a leader who goes
  have hroster : ∀ r, r ≠ q → (r ∈ p.leader :: p.memberList.erase q ↔ r ∈ p.roster) := by
    intro r hr
    rw [List.mem_cons, hmembers.mem_erase_iff]
    exact ⟨fun he => List.mem_cons.mpr (he.imp_right And.right),
      fun he => (List.mem_cons.mp he).imp_right fun hm => ⟨hr, hm⟩⟩
  split
  · rw [disband_eq_forget (Function.update_self _ _ _), forget_setParty, forget_store]
    · exact ⟨_, rfl, h.forget hp⟩
    · exact hq
    · intro r hr
      rw [hparty] at hr
      split at hr
      · cases hr
      next hne => exact (hroster r hne).mpr ((h.roster_iff hp r).mp hr)
    · intro r hr
      rw [hparty]
      split
      · exact .inr rfl
      next hne => exact .inl ((h.roster_iff hp r).mpr ((hroster r hne).mp hr))
    · intro r hr
      rw [hlists] at hr
      exact (h.invited_iff hp r).mp hr
  next hgo =>
    rw [Bool.or_eq_true, not_or] at hgo
    have hne : p.leader ≠ q := fun he => hgo.1 (hleader he)
    refine ⟨_, rfl, h.rewrite rfl (Nat.le_refl _) (h.lt_next hp) (fun P => Function.update_apply _ _ _ _)
      ((h.proper hp).of_sublist ((List.erase_sublist.cons_cons _).append_right _) (Bool.not_eq_true _ ▸ hgo.2))
      ?_ ?_ ?_ ?_ ?_⟩
    · intro r
      rw [hparty]
      split
      next hr =>
        refine ⟨fun he => (nomatch he), fun he => ?_⟩
        rw [hr] at he
        rcases List.mem_cons.mp he with he | he
        · exact (hne he.symm).elim
        · exact ((hmembers.mem_erase_iff.mp he).1 rfl).elim
      next hr => exact (h.roster_iff hp r).trans (hroster r hr).symm
    · intro r P hP
      rw [hparty]
      split
      next hr =>
        rw [hr, hq]
        exact ⟨fun he => (nomatch he), fun he => (hP (Option.some.inj he).symm).elim⟩
      next => exact Iff.rfl
    · intro r
      rw [hlists]
      exact h.invited_iff hp r
    · intro r P _
      rw [hlists]
    · intro r
      rw [hlists]
      exact h.invites_nodup r

theorem Inv.leaveParty {s : State} (h : Inv s) {this : PartyRef} {q : PlayerRef}
    (hq : (s.players q).party = some this) : Keeps (s.leaveParty this q) := by
  obtain ⟨p, hp, hroster⟩ := h.live_of_party hq
  unfold State.leaveParty
  rw [hp, Option.bind_some, if_neg (fun he => he.1 hq)]
  unfold State.leaveLeader
  split
  next hleader =>
    split
    next hnone =>
      rw [Option.bind_some]
      dsimp only
      rw [hp, Option.bind_some]
      exact h.leave hp hq true fun _ => rfl
    next front rest hmembers =>
      split
      · rw [Option.bind_some]
        dsimp only
        rw [hp, Option.bind_some]
        exact h.leave hp hq true fun _ => rfl
      · -- the first member leads now, and the old leader leaves as a member
        have hfront : front ∈ p.memberList := hmembers ▸ List.mem_cons_self
        have hpass := h.passPartyLeadership_eq hp hfront
        obtain ⟨s', hs', h'⟩ := h.passPartyLeadership hp front
        obtain rfl : _ = s' := Option.some.inj (hpass.symm.trans hs')
        have hobject : (s.store this (some { p with
            leader := front, memberList := p.leader :: p.memberList.erase front })).parties this = _ :=
          Function.update_self _ _ _
        rw [hpass, Option.map_some, Option.bind_some]
        dsimp only
        rw [hobject, Option.bind_some]
        refine h'.leave hobject hq false fun he => ?_
        rw [← hleader] at he
        exact (h.leader_ne hp hfront he).elim
  next hmember =>
    rw [Option.bind_some]
    dsimp only
    rw [hp, Option.bind_some]
    exact h.leave hp hq false fun he => (hmember he).elim

/-! ### Clearing the invitations of a player -/

theorem setInvites_setParty_comm (s : State) (p q : PlayerRef) (l : List PartyRef) (P : Option PartyRef) :
    (s.setInvites q l).setParty p P = (s.setParty p P).setInvites q l := by
  refine congrArg (State.mk s.inGame · s.parties s.next) (funext fun r => ?_)
  show ((s.setInvites q l).setParty p P).players r = ((s.setParty p P).setInvites q l).players r
  rw [setParty_players, setInvites_players, setInvites_players, setInvites_players, setParty_players,
    setParty_players]
  by_cases hrp : r = p
  · rw [if_pos hrp, if_pos hrp]
    by_cases hpq : p = q
    · rw [if_pos hpq, if_pos (hrp.trans hpq), if_pos hpq.symm, hpq]
    · rw [if_neg hpq, if_neg (hrp ▸ hpq)]
  · rw [if_neg hrp, if_neg hrp]
    by_cases hrq : r = q
    · rw [if_pos hrq, if_pos hrq, if_neg (hrq ▸ hrp)]
    · rw [if_neg hrq, if_neg hrq]

theorem disband_setInvites {s : State} {this : PartyRef} {p : Party} (hp : s.parties this = some p)
    (hnone : p.inviteList = []) (q : PlayerRef) (l : List PartyRef) :
    (s.setInvites q l).disband this = (s.disband this).map (·.setInvites q l) := by
  have hfold : ∀ (ms : List PlayerRef) (s : State),
      ms.foldl (fun s member => s.setParty member none) (s.setInvites q l) =
        (ms.foldl (fun s member => s.setParty member none) s).setInvites q l := by
    intro ms
    induction ms with
    | nil => exact fun _ => rfl
    | cons m ms ih =>
      intro s
      rw [List.foldl_cons, List.foldl_cons, setInvites_setParty_comm, ih]
  have hp' : (s.setInvites q l).parties this = some p := hp
  unfold State.disband
  rw [hp, hp', Option.map_some, Option.map_some, Option.map_some, hnone]
  dsimp only [List.foldl_nil]
  rw [setInvites_setParty_comm, hfold]
  rfl

/-- **The loop of `clearPartyInvitations`** leaves the list it iterates alone. It is as if every round also
removed the party from the list. -/
theorem removeInvite_false {s : State} {this : PartyRef} {p : Party} (hp : s.parties this = some p)
    {q : PlayerRef} (hq : q ∈ p.inviteList) {rest : List PartyRef} (hrest : this ∉ rest) :
    (s.removeInvite this q false).map (·.setInvites q rest) =
      (s.setInvites q (this :: rest)).removeInvite this q true := by
  have hp' : (s.setInvites q (this :: rest)).parties this = some p := hp
  have hfilter : (this :: rest).filter (· ≠ this) = rest := by
    rw [List.filter_cons_of_neg (by simp)]
    refine List.filter_eq_self.mpr fun P hP => decide_eq_true ?_
    rintro rfl
    exact hrest hP
  have hremove : ∀ s' : State, (s'.setInvites q (this :: rest)).removePartyInvitation q this =
      s'.setInvites q rest := by
    intro s'
    unfold State.removePartyInvitation
    rw [setInvites_players, if_pos rfl, hfilter]
    unfold State.setInvites
    dsimp only
    rw [Function.update_self, Function.update_idem]
  unfold State.removeInvite
  rw [hp, hp', Option.bind_some, Option.bind_some, if_neg (not_not.mpr hq), if_neg (not_not.mpr hq)]
  dsimp only
  rw [if_neg Bool.false_ne_true, if_pos rfl]
  have hstore : ((s.setInvites q (this :: rest)).store this
      (some { p with inviteList := p.inviteList.erase q })).removePartyInvitation q this =
      (s.store this (some { p with inviteList := p.inviteList.erase q })).setInvites q rest :=
    hremove (s.store this (some { p with inviteList := p.inviteList.erase q }))
  rw [hstore]
  split
  next hempty =>
    refine (disband_setInvites (p := { p with inviteList := p.inviteList.erase q })
      (Function.update_self _ _ _) ?_ q rest).symm
    exact List.isEmpty_iff.mp (Bool.and_eq_true_iff.mp hempty).2
  next => rfl

theorem Inv.clearPartyInvitations {s : State} (h : Inv s) (q : PlayerRef) :
    Keeps (s.clearPartyInvitations q) := by
  -- the induction is on the rest of the list; the invariant holds once the list is cut down to it
  have hloop : ∀ (l : List PartyRef) (s : State), Inv (s.setInvites q l) →
      ∃ s', l.foldlM (fun (s : State) party => s.removeInvite party q false) s = some s' ∧
        Inv (s'.setInvites q []) := by
    intro l
    induction l with
    | nil => exact fun s h => ⟨s, rfl, h⟩
    | cons this rest ih =>
      intro s h
      have hself : (s.setInvites q (this :: rest)).players q = ⟨(s.players q).party, this :: rest⟩ := by
        rw [setInvites_players, if_pos rfl]
      have hnodup := h.invites_nodup q
      rw [hself] at hnodup
      have hmem := h.invite_iff this q
      rw [hself] at hmem
      obtain ⟨p, hp, hq⟩ := hmem.mp List.mem_cons_self
      obtain ⟨s₁, hs₁, h₁⟩ := h.removeInvite hp q
      rw [← removeInvite_false (s := s) hp hq (List.nodup_cons.mp hnodup).1] at hs₁
      obtain ⟨s', hs', rfl⟩ := Option.map_eq_some_iff.mp hs₁
      obtain ⟨s'', hs'', h''⟩ := ih s' h₁
      refine ⟨s'', ?_, h''⟩
      rw [List.foldlM_cons]
      simp only [hs']
      exact hs''
  have hself : s.setInvites q (s.players q).invitePartyList = s :=
    congrArg (State.mk s.inGame · s.parties s.next) (Function.update_eq_self _ _)
  obtain ⟨s', hs', h'⟩ := hloop (s.players q).invitePartyList s (hself.symm ▸ h)
  unfold State.clearPartyInvitations
  rw [hs', Option.map_some]
  exact ⟨_, rfl, h'⟩

/-! ### The requests -/

theorem Inv.isInviting {s : State} (h : Inv s) (p q : PlayerRef) : ∃ b, s.isInviting p q = some b := by
  unfold State.isInviting
  split
  · exact ⟨_, rfl⟩
  next P hP =>
    obtain ⟨r, hr, -⟩ := h.live_of_party hP
    rw [hr]
    exact ⟨_, rfl⟩

theorem Inv.playerInviteToParty {s : State} (h : Inv s) (p q : PlayerRef) :
    Keeps (s.playerInviteToParty p q) := by
  unfold State.playerInviteToParty
  split
  · exact h.keeps
  next hne =>
  split
  · exact h.keeps
  next hp =>
  split
  · exact h.keeps
  next hq =>
  have hp' : s.inGame p = true := by simpa using hp
  have hq' : s.inGame q = true := by simpa using hq
  obtain ⟨b, hb⟩ := h.isInviting q p
  rw [hb, Option.bind_some]
  split
  · exact h.keeps
  split
  · exact h.keeps
  next hfree =>
  have hfree' : (s.players q).party = none := Option.not_isSome_iff_eq_none.mp hfree
  split
  next hnone => exact h.newParty_invitePlayer hne hp' hq' hnone
  next P hP =>
    obtain ⟨r, hr, -⟩ := h.live_of_party hP
    rw [hr, Option.bind_some]
    split
    · exact h.keeps
    · exact h.invitePlayer hr hq' hfree'

theorem Inv.playerJoinParty {s : State} (h : Inv s) (p l : PlayerRef) : Keeps (s.playerJoinParty p l) := by
  unfold State.playerJoinParty
  split
  · exact h.keeps
  split
  · exact h.keeps
  obtain ⟨b, hb⟩ := h.isInviting l p
  rw [hb, Option.bind_some]
  split
  · exact h.keeps
  split
  · exact h.keeps
  next P hP =>
  obtain ⟨r, hr, -⟩ := h.live_of_party hP
  rw [hr, Option.bind_some]
  split
  · exact h.keeps
  split
  · exact h.keeps
  next hfree => exact h.joinParty hr (Option.not_isSome_iff_eq_none.mp hfree)

theorem Inv.playerRevokePartyInvitation {s : State} (h : Inv s) (p q : PlayerRef) :
    Keeps (s.playerRevokePartyInvitation p q) := by
  unfold State.playerRevokePartyInvitation
  split
  · exact h.keeps
  split
  · exact h.keeps
  next P hP =>
  obtain ⟨r, hr, -⟩ := h.live_of_party hP
  rw [hr, Option.bind_some]
  split
  · exact h.keeps
  split
  · exact h.keeps
  obtain ⟨b, hb⟩ := h.isInviting p q
  rw [hb, Option.bind_some]
  split
  · exact h.keeps
  · exact h.removeInvite hr q

theorem Inv.playerPassPartyLeadership {s : State} (h : Inv s) (p q : PlayerRef) :
    Keeps (s.playerPassPartyLeadership p q) := by
  unfold State.playerPassPartyLeadership
  split
  · exact h.keeps
  split
  · exact h.keeps
  next P hP =>
  obtain ⟨r, hr, -⟩ := h.live_of_party hP
  rw [hr, Option.bind_some]
  split
  · exact h.keeps
  split
  · exact h.keeps
  split
  · exact h.keeps
  · exact h.passPartyLeadership hr q

theorem Inv.playerLeaveParty {s : State} (h : Inv s) (p : PlayerRef) (infight : Bool) :
    Keeps (s.playerLeaveParty p infight) := by
  unfold State.playerLeaveParty
  split
  · exact h.keeps
  split
  · exact h.keeps
  next P hP =>
  split
  · exact h.keeps
  · exact h.leaveParty hP

theorem Inv.request {s : State} (h : Inv s) (r : Request) : Keeps (request s r) := by
  cases r with
  | playerInviteToParty p q => exact h.playerInviteToParty p q
  | playerJoinParty p l => exact h.playerJoinParty p l
  | playerRevokePartyInvitation p q => exact h.playerRevokePartyInvitation p q
  | playerPassPartyLeadership p q => exact h.playerPassPartyLeadership p q
  | playerLeaveParty p infight => exact h.playerLeaveParty p infight
  | clearPartyInvitations p => exact h.clearPartyInvitations p

/-- **In every run of requests the parties are consistent**, and no deleted party is dereferenced. -/
theorem requests_consistent (inGame : PlayerRef → Bool) (rs : List Request) :
    ∃ s, Runs.run step (some (State.start inGame)) rs = some s ∧ Consistent s := by
  have hkeeps : Keeps (Runs.run step (some (State.start inGame)) rs) := by
    refine Runs.run_invariant_of_forall ?_ (start_inv inGame).keeps rs
    rintro _ r ⟨s, rfl, h⟩
    exact h.request r
  obtain ⟨s, hs, h⟩ := hkeeps
  exact ⟨s, hs, h.consistent⟩

end Moonlight.Grouping
