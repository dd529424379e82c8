import Moonlight.Game.Party

/-!
# What becomes of a party

What the requests do to the objects of the parties, whoever of their people is still in the game. A party ends
(`Party.EndsWithout`, `Party.IsOnlyInvite`), or it keeps everyone on its roster but the one who leaves (`Outcome`).

The invariant of the parties asks for all their people to be in the game, which no longer holds when a member has
been removed from it. But the operations do not depend on who is (`request_allIn`), so it can be used all the same,
of the state in which everybody is.
-/

namespace Moonlight.Grouping

/-- The party ends if this player leaves it. -/
def Party.EndsWithout (p : Party) (player : PlayerRef) : Prop :=
  let rest := p.roster.erase player
  rest = [] ∨ rest.length = 1 ∧ p.inviteList = []

/-- All that keeps the party going is the invitation of this player. -/
def Party.IsOnlyInvite (p : Party) (player : PlayerRef) : Prop := p.memberList = [] ∧ p.inviteList = [player]

/-! ### Players who are gone -/

/-- The same parties, with all players in the game. The invariant of the parties holds of it even when members have
been removed, since nothing but the requests themselves asks whether a player is in the game. -/
abbrev State.allIn (s : State) : State := { s with inGame := fun _ => true }

theorem disband_allIn (s : State) (this : PartyRef) :
    s.allIn.disband this = (s.disband this).map State.allIn := by
  unfold State.disband
  rw [Option.map_map]
  refine Option.map_congr fun p _ => ?_
  dsimp only [Function.comp]
  rw [foldl_removePartyInvitation, foldl_setParty, foldl_removePartyInvitation, foldl_setParty]
  rfl

theorem passPartyLeadership_allIn (s : State) (this : PartyRef) (player : PlayerRef) :
    s.allIn.passPartyLeadership this player = (s.passPartyLeadership this player).map State.allIn := by
  unfold State.passPartyLeadership
  rw [Option.map_map]
  refine Option.map_congr fun p _ => ?_
  dsimp only [Function.comp]
  by_cases h : p.leader = player ∨ (s.players player).party ≠ some this
  · rw [if_pos h, if_pos h]
  · rw [if_neg h, if_neg h]
    rfl

theorem leaveLeader_allIn (s : State) (this : PartyRef) (p : Party) (player : PlayerRef) :
    s.allIn.leaveLeader this p player = (s.leaveLeader this p player).map fun r => (r.1.allIn, r.2) := by
  unfold State.leaveLeader
  split
  · split
    · rfl
    · split
      · rfl
      · rw [passPartyLeadership_allIn, Option.map_map, Option.map_map]
        rfl
  · rfl

theorem leaveParty_allIn (s : State) (this : PartyRef) (player : PlayerRef) :
    s.allIn.leaveParty this player = (s.leaveParty this player).map State.allIn := by
  unfold State.leaveParty
  rw [Option.map_bind]
  refine Option.bind_congr fun p _ => ?_
  dsimp only [Function.comp]
  by_cases h : (s.players player).party ≠ some this ∧ p.leader ≠ player
  · rw [if_pos h, if_pos h]
    rfl
  · rw [if_neg h, if_neg h, leaveLeader_allIn, Option.bind_map, Option.map_bind]
    refine Option.bind_congr fun r _ => ?_
    dsimp only [Function.comp]
    rw [Option.map_bind]
    refine Option.bind_congr fun p _ => ?_
    dsimp only [Function.comp]
    split
    -- the last step disbands the party, or not
    · exact disband_allIn ((r.1.store this _).setParty player none) this
    · rfl

theorem removeInvite_allIn (s : State) (this : PartyRef) (player : PlayerRef) (removeFromPlayer : Bool) :
    s.allIn.removeInvite this player removeFromPlayer =
      (s.removeInvite this player removeFromPlayer).map State.allIn := by
  unfold State.removeInvite
  rw [Option.map_bind]
  refine Option.bind_congr fun p _ => ?_
  dsimp only [Function.comp]
  split
  · rfl
  · cases removeFromPlayer with
    | true =>
      split
      · exact disband_allIn ((s.store this _).removePartyInvitation player this) this
      · rfl
    | false =>
      split
      · exact disband_allIn (s.store this _) this
      · rfl

theorem clearPartyInvitations_allIn (s : State) (player : PlayerRef) :
    s.allIn.clearPartyInvitations player = (s.clearPartyInvitations player).map State.allIn := by
  -- the loop over the invitations, for any list of them
  have hloop : ∀ (l : List PartyRef) (s : State),
      l.foldlM (fun (s : State) party => s.removeInvite party player false) s.allIn =
        (l.foldlM (fun (s : State) party => s.removeInvite party player false) s).map State.allIn := by
    intro l
    induction l with
    | nil => exact fun _ => rfl
    | cons this l ih =>
      intro s
      rw [List.foldlM_cons, List.foldlM_cons, removeInvite_allIn]
      cases s.removeInvite this player false with
      | none => rfl
      | some s => exact ih s
  unfold State.clearPartyInvitations
  have hlist : s.allIn.players = s.players := rfl
  rw [hlist, hloop, Option.map_map, Option.map_map]
  rfl

theorem joinParty_allIn (s : State) (this : PartyRef) (player : PlayerRef) :
    s.allIn.joinParty this player = (s.joinParty this player).map State.allIn := by
  unfold State.joinParty
  rw [Option.map_map]
  refine Option.map_congr fun p _ => ?_
  dsimp only [Function.comp]
  split
  · rfl
  · rfl

theorem addPartyInvitation_allIn (s : State) (player : PlayerRef) (newParty : PartyRef) :
    s.allIn.addPartyInvitation player newParty = (s.addPartyInvitation player newParty).allIn := by
  unfold State.addPartyInvitation
  by_cases h : newParty ∈ (s.players player).invitePartyList
  · rw [if_pos h, if_pos h]
  · rw [if_neg h, if_neg h]
    rfl

theorem invitePlayer_allIn (s : State) (this : PartyRef) (player : PlayerRef) :
    s.allIn.invitePlayer this player = (s.invitePlayer this player).map State.allIn := by
  unfold State.invitePlayer
  rw [Option.map_map]
  refine Option.map_congr fun p _ => ?_
  dsimp only [Function.comp]
  split
  · rfl
  · exact addPartyInvitation_allIn (s.store this _) player this

/-- A request does nothing, or does what it would do if all players were in the game. -/
abbrev State.SameAllIn (s : State) (request : State → Option State) : Prop :=
  request s = some s ∨ request s.allIn = (request s).map State.allIn

theorem playerInviteToParty_allIn (s : State) (player invitedPlayer : PlayerRef) :
    s.SameAllIn (·.playerInviteToParty player invitedPlayer) := by
  unfold State.SameAllIn State.playerInviteToParty
  dsimp only
  by_cases hself : player = invitedPlayer
  · exact .inl (if_pos hself)
  by_cases hp : s.inGame player = true
  · by_cases hq : s.inGame invitedPlayer = true
    · right
      have hinviting : s.allIn.isInviting invitedPlayer player = s.isInviting invitedPlayer player := rfl
      simp only [hself, hp, hq, Bool.not_true, Bool.false_eq_true, ↓reduceIte, hinviting, Option.map_bind]
      refine Option.bind_congr fun inviting _ => ?_
      dsimp only [Function.comp]
      split
      · rfl
      by_cases hparty : (s.players invitedPlayer).party.isSome = true
      · rw [if_pos hparty, if_pos hparty]
        rfl
      rw [if_neg hparty, if_neg hparty]
      cases (s.players player).party with
      | none => exact invitePlayer_allIn (s.newParty player) s.next invitedPlayer
      | some party =>
        dsimp only
        rw [Option.map_bind]
        refine Option.bind_congr fun p _ => ?_
        dsimp only [Function.comp]
        split
        · rfl
        · exact invitePlayer_allIn s party invitedPlayer
    · simp only [hq, Bool.not_false, ↓reduceIte, ite_self, true_or]
  · simp only [hp, Bool.not_false, ↓reduceIte, ite_self, true_or]

theorem playerJoinParty_allIn (s : State) (player leader : PlayerRef) :
    s.SameAllIn (·.playerJoinParty player leader) := by
  unfold State.SameAllIn State.playerJoinParty
  dsimp only
  by_cases hp : s.inGame player = true
  · by_cases hq : s.inGame leader = true
    · right
      have hinviting : s.allIn.isInviting leader player = s.isInviting leader player := rfl
      simp only [hp, hq, Bool.not_true, Bool.false_eq_true, ↓reduceIte, hinviting, Option.map_bind]
      refine Option.bind_congr fun inviting _ => ?_
      dsimp only [Function.comp]
      split
      · rfl
      cases (s.players leader).party with
      | none => rfl
      | some party =>
        dsimp only
        rw [Option.map_bind]
        refine Option.bind_congr fun p _ => ?_
        dsimp only [Function.comp]
        split
        · rfl
        by_cases hparty : (s.players player).party.isSome = true
        · rw [if_pos hparty, if_pos hparty]
          rfl
        · rw [if_neg hparty, if_neg hparty]
          exact joinParty_allIn s party player
    · simp only [hq, Bool.not_false, ↓reduceIte, ite_self, true_or]
  · simp only [hp, Bool.not_false, ↓reduceIte, true_or]

theorem playerRevokePartyInvitation_allIn (s : State) (player invitedPlayer : PlayerRef) :
    s.SameAllIn (·.playerRevokePartyInvitation player invitedPlayer) := by
  unfold State.SameAllIn State.playerRevokePartyInvitation
  dsimp only
  by_cases hp : s.inGame player = true
  · have hinviting : s.allIn.isInviting player invitedPlayer = s.isInviting player invitedPlayer := rfl
    simp only [hp, Bool.not_true, Bool.false_eq_true, ↓reduceIte, hinviting]
    cases (s.players player).party with
    | none => exact .inr rfl
    | some party =>
      by_cases hq : s.inGame invitedPlayer = true
      · right
        simp only [hq, Bool.not_true, Bool.false_eq_true, ↓reduceIte]
        rw [Option.map_bind]
        refine Option.bind_congr fun p _ => ?_
        dsimp only [Function.comp]
        split
        · rfl
        rw [Option.map_bind]
        refine Option.bind_congr fun inviting _ => ?_
        dsimp only [Function.comp]
        split
        · rfl
        · exact removeInvite_allIn s party invitedPlayer true
      · simp only [hq, Bool.not_false, ↓reduceIte, ite_self]
        -- refused, unless the party is no more
        cases s.parties party with
        | none => exact .inr rfl
        | some p => exact .inl rfl
  · simp only [hp, Bool.not_false, ↓reduceIte, true_or]

theorem playerPassPartyLeadership_allIn (s : State) (player newLeader : PlayerRef) :
    s.SameAllIn (·.playerPassPartyLeadership player newLeader) := by
  unfold State.SameAllIn State.playerPassPartyLeadership
  dsimp only
  by_cases hp : s.inGame player = true
  · have hpartner : s.allIn.isPartner player newLeader = s.isPartner player newLeader := rfl
    simp only [hp, Bool.not_true, Bool.false_eq_true, ↓reduceIte, hpartner]
    cases (s.players player).party with
    | none => exact .inr rfl
    | some party =>
      by_cases hq : s.inGame newLeader = true
      · right
        simp only [hq, Bool.not_true, Bool.false_eq_true, ↓reduceIte]
        rw [Option.map_bind]
        refine Option.bind_congr fun p _ => ?_
        dsimp only [Function.comp]
        split
        · rfl
        cases s.isPartner player newLeader with
        | true => exact passPartyLeadership_allIn s party newLeader
        | false => rfl
      · simp only [hq, Bool.not_false, ↓reduceIte, ite_self]
        cases s.parties party with
        | none => exact .inr rfl
        | some p => exact .inl rfl
  · simp only [hp, Bool.not_false, ↓reduceIte, true_or]

theorem playerLeaveParty_allIn (s : State) (player : PlayerRef) (infight : Bool) :
    s.SameAllIn (·.playerLeaveParty player infight) := by
  unfold State.SameAllIn State.playerLeaveParty
  dsimp only
  by_cases hp : s.inGame player = true
  · right
    simp only [hp, Bool.not_true, Bool.false_eq_true, ↓reduceIte]
    cases (s.players player).party with
    | none => rfl
    | some party =>
      dsimp only
      split
      · rfl
      · exact leaveParty_allIn s party player
  · simp only [hp, Bool.not_false, ↓reduceIte, true_or]

theorem request_allIn (s : State) (r : Request) :
    Grouping.request s r = some s ∨ Grouping.request s.allIn r = (Grouping.request s r).map State.allIn := by
  cases r with
  | playerInviteToParty player invitedPlayer => exact playerInviteToParty_allIn s player invitedPlayer
  | playerJoinParty player leader => exact playerJoinParty_allIn s player leader
  | playerRevokePartyInvitation player invitedPlayer => exact playerRevokePartyInvitation_allIn s player invitedPlayer
  | playerPassPartyLeadership player newLeader => exact playerPassPartyLeadership_allIn s player newLeader
  | playerLeaveParty player infight => exact playerLeaveParty_allIn s player infight
  | clearPartyInvitations player => exact .inr (clearPartyInvitations_allIn s player)

/-! ### What becomes of the parties -/

/-- Some parties end, and the others keep everyone but those who leave. -/
structure Outcome (s s' : State) (ends : PartyRef → Prop) (leaves : PartyRef → PlayerRef → Prop) : Prop where
  ended : ∀ P p, s.parties P = some p → ends P → s'.parties P = none
  kept : ∀ P p, s.parties P = some p → ¬ ends P →
    ∃ p', s'.parties P = some p' ∧ ∀ q ∈ p.roster, (q ∈ p'.roster ↔ ¬ leaves P q)

namespace Outcome

variable {s s' : State} {ends ends' : PartyRef → Prop} {leaves leaves' : PartyRef → PlayerRef → Prop}

theorem of_parties_eq (hparties : s'.parties = s.parties) (hends : ∀ P p, s.parties P = some p → ¬ ends P)
    (hleaves : ∀ P p, s.parties P = some p → ∀ q ∈ p.roster, ¬ leaves P q) : Outcome s s' ends leaves where
  ended P p hp hend := absurd hend (hends P p hp)
  kept P p hp _ := ⟨p, by rw [hparties, hp], fun q hq => iff_of_true hq (hleaves P p hp q hq)⟩

theorem one {this : PartyRef} (hothers : ∀ P, P ≠ this → s'.parties P = s.parties P)
    (hends : ∀ P, ends P → P = this) (hleaves : ∀ P q, leaves P q → P = this)
    (hended : ends this → s'.parties this = none)
    (hkept : ∀ p, s.parties this = some p → ¬ ends this →
      ∃ p', s'.parties this = some p' ∧ ∀ q ∈ p.roster, (q ∈ p'.roster ↔ ¬ leaves this q)) :
    Outcome s s' ends leaves where
  ended P p _ hend := by
    cases hends P hend
    exact hended hend
  kept P p hp hend := by
    by_cases hP : P = this
    · subst hP
      exact hkept p hp hend
    -- another party, which nobody leaves
    · exact ⟨p, (hothers P hP).trans hp, fun q hq => iff_of_true hq fun hleave => hP (hleaves P q hleave)⟩

theorem congr (h : Outcome s s' ends leaves) (hends : ∀ P p, s.parties P = some p → (ends P ↔ ends' P))
    (hleaves : ∀ P p, s.parties P = some p → ∀ q ∈ p.roster, (leaves P q ↔ leaves' P q)) :
    Outcome s s' ends' leaves' where
  ended P p hp hend := h.ended P p hp ((hends P p hp).mpr hend)
  kept P p hp hend := by
    obtain ⟨p', hp', hroster⟩ := h.kept P p hp fun hend' => hend ((hends P p hp).mp hend')
    exact ⟨p', hp', fun q hq => (hroster q hq).trans (not_congr (hleaves P p hp q hq))⟩

end Outcome

theorem outcome_store {s s' : State} (this : PartyRef) (p' : Party)
    (hothers : ∀ P, P ≠ this → s'.parties P = s.parties P) (hthis : s'.parties this = some p')
    (hroster : ∀ p, s.parties this = some p → ∀ q ∈ p.roster, q ∈ p'.roster) :
    Outcome s s' (fun _ => False) (fun _ _ => False) :=
  .one hothers (fun _ hend => hend.elim) (fun _ _ hleave => hleave.elim) (fun hend => hend.elim)
    fun p hp _ => ⟨p', hthis, fun q hq => iff_of_true (hroster p hp q hq) id⟩

theorem disband_parties {s s' : State} {this : PartyRef} (h : s.disband this = some s') :
    s'.parties = Function.update s.parties this none := by
  unfold State.disband at h
  obtain ⟨p, -, rfl⟩ := Option.map_eq_some_iff.mp h
  dsimp only
  rw [foldl_removePartyInvitation, foldl_setParty]
  rfl

theorem invitePlayer_outcome {s s' : State} {this : PartyRef} {q : PlayerRef}
    (h : s.invitePlayer this q = some s') : Outcome s s' (fun _ => False) (fun _ _ => False) := by
  unfold State.invitePlayer at h
  obtain ⟨p, hp, rfl⟩ := Option.map_eq_some_iff.mp h
  split
  · exact .of_parties_eq rfl (fun _ _ _ => id) fun _ _ _ _ _ => id
  · have hparties : ∀ t : State, (t.addPartyInvitation q this).parties = t.parties := by
      intro t
      unfold State.addPartyInvitation
      split
      · rfl
      · rfl
    refine outcome_store this { p with inviteList := p.inviteList ++ [q] } ?_ ?_ ?_
    · intro P hP
      rw [hparties]
      exact Function.update_of_ne hP _ _
    · rw [hparties]
      exact Function.update_self _ _ _
    · intro p' hp' r hr
      cases hp.symm.trans hp'
      exact hr

theorem joinParty_outcome {s s' : State} {this : PartyRef} {q : PlayerRef}
    (h : s.joinParty this q = some s') : Outcome s s' (fun _ => False) (fun _ _ => False) := by
  unfold State.joinParty at h
  obtain ⟨p, hp, rfl⟩ := Option.map_eq_some_iff.mp h
  split
  · exact .of_parties_eq rfl (fun _ _ _ => id) fun _ _ _ _ _ => id
  · refine outcome_store this
      { p with inviteList := p.inviteList.erase q, memberList := p.memberList ++ [q] } ?_ ?_ ?_
    · exact fun P hP => Function.update_of_ne hP _ _
    · exact Function.update_self _ _ _
    · intro p' hp' r hr
      cases hp.symm.trans hp'
      exact List.mem_append_left [q] hr

theorem passPartyLeadership_outcome {s s' : State} (hinv : Inv s.allIn) {this : PartyRef} {q : PlayerRef}
    (h : s.passPartyLeadership this q = some s') : Outcome s s' (fun _ => False) (fun _ _ => False) := by
  unfold State.passPartyLeadership at h
  obtain ⟨p, hp, rfl⟩ := Option.map_eq_some_iff.mp h
  split
  · exact .of_parties_eq rfl (fun _ _ _ => id) fun _ _ _ _ _ => id
  next hpasses =>
    obtain ⟨hne, hparty⟩ := not_or.mp hpasses
    have hmem : q ∈ p.memberList :=
      (List.mem_cons.mp ((hinv.roster_iff hp q).mp (not_not.mp hparty))).resolve_left (Ne.symm hne)
    refine outcome_store this { p with leader := q, memberList := p.leader :: p.memberList.erase q } ?_ ?_ ?_
    · exact fun P hP => Function.update_of_ne hP _ _
    · exact Function.update_self _ _ _
    · intro p' hp' r hr
      cases hp.symm.trans hp'
      -- the old leader becomes a member
      have hperm : (q :: p.leader :: p.memberList.erase q).Perm p.roster :=
        (List.Perm.swap _ _ _).trans ((List.perm_cons_erase hmem).symm.cons _)
      exact hperm.mem_iff.mpr hr

theorem others_of_update {s s' : State} {this : PartyRef} {r : Option Party}
    (h : s'.parties = Function.update s.parties this r) :
    s'.parties this = r ∧ ∀ P, P ≠ this → s'.parties P = s.parties P := by
  rw [h]
  exact ⟨Function.update_self _ _ _, fun P hP => Function.update_of_ne hP _ _⟩

theorem leaving_parties {s s' : State} {this : PartyRef} {p : Party} {q : PlayerRef} {missingLeader : Bool}
    (h : (if missingLeader || p.empty then ((s.store this (some p)).setParty q none).disband this
      else some ((s.store this (some p)).setParty q none)) = some s') :
    s'.parties = Function.update s.parties this (if missingLeader || p.empty then none else some p) := by
  split at h
  next hend =>
    rw [disband_parties h, if_pos hend]
    exact Function.update_idem _ _ _
  next hstays =>
    cases h
    rw [if_neg hstays]
    rfl

theorem empty_iff (p : Party) : p.empty = true ↔ p.memberList = [] ∧ p.inviteList = [] := by
  unfold Party.empty
  rw [Bool.and_eq_true, List.isEmpty_iff, List.isEmpty_iff]

theorem passPartyLeadership_front {s : State} (hinv : Inv s.allIn) {this : PartyRef} {p : Party}
    (hp : s.parties this = some p) {front : PlayerRef} {rest : List PlayerRef} (hlist : p.memberList = front :: rest) :
    s.passPartyLeadership this front =
      some (s.store this (some { p with leader := front, memberList := p.leader :: rest })) := by
  have hfront : front ∈ p.memberList := by
    rw [hlist]
    exact List.mem_cons_self
  unfold State.passPartyLeadership
  rw [hp, Option.map_some, if_neg, hlist, List.erase_cons_head]
  rintro (heq | hother)
  · exact hinv.leader_ne hp hfront heq.symm
  · exact hother ((hinv.roster_iff hp front).mpr (List.mem_cons_of_mem _ hfront))

theorem leader_leaves {s s' : State} (hinv : Inv s.allIn) {this : PartyRef} {p : Party} {q : PlayerRef}
    (hp : s.parties this = some p) (hparty : (s.players q).party = some this) (hlead : p.leader = q)
    (hleader : p.leader ∉ p.memberList) (h : s.leaveParty this q = some s') :
    ∃ r : Option Party, s'.parties = Function.update s.parties this r ∧ (r = none ↔ p.EndsWithout q) ∧
      ∀ p', r = some p' → ∀ u ∈ p.roster, (u ∈ p'.roster ↔ u ≠ q) := by
  unfold State.leaveParty at h
  rw [hp, Option.bind_some, if_neg fun hnot => hnot.1 hparty] at h
  unfold State.leaveLeader at h
  subst hlead
  have hrest : p.roster.erase p.leader = p.memberList := List.erase_cons_head _ _
  rw [if_pos rfl] at h
  cases hlist : p.memberList with
  | nil =>
    -- a leader alone ends the party
    rw [hlist] at h
    dsimp only at h
    rw [Option.bind_some, hp, Option.bind_some] at h
    refine ⟨none, leaving_parties h, iff_of_true rfl (.inl ?_), nofun⟩
    rw [hrest, hlist]
  | cons front rest =>
    rw [hlist] at h
    dsimp only at h
    split at h
    next hend =>
      rw [Option.bind_some, hp, Option.bind_some] at h
      refine ⟨none, leaving_parties h, iff_of_true rfl (.inr ?_), nofun⟩
      rw [hrest, hlist]
      exact hend
    next hstays =>
      -- the first member leads the party
      have hpass := passPartyLeadership_front hinv hp hlist
      have hobject : (s.store this (some { p with leader := front, memberList := p.leader :: rest })).parties this =
          some { p with leader := front, memberList := p.leader :: rest } := Function.update_self _ _ _
      rw [hpass, Option.map_some, Option.bind_some, hobject, Option.bind_some, List.erase_cons_head] at h
      have hparties := leaving_parties h
      -- it would have ended before if it were empty now
      have hempty : ¬ ({ p with leader := front, memberList := rest } : Party).empty = true := by
        rw [empty_iff]
        rintro ⟨hnil, hinvites⟩
        refine hstays ⟨?_, hinvites⟩
        rw [show rest = [] from hnil]
        rfl
      rw [Bool.false_or, if_neg hempty] at hparties
      refine ⟨_, hparties.trans (Function.update_idem _ _ _), iff_of_false nofun ?_, ?_⟩
      · unfold Party.EndsWithout
        rw [hrest, hlist]
        rintro (hnil | hone)
        · cases hnil
        · exact hstays hone
      · rintro _ ⟨⟩ u hu
        change u ∈ front :: rest ↔ u ≠ p.leader
        rw [← hlist]
        constructor
        · exact fun hmem heq => hleader (heq ▸ hmem)
        · exact (List.mem_cons.mp hu).resolve_left

theorem member_leaves {s s' : State} {this : PartyRef} {p : Party} {q : PlayerRef}
    (hp : s.parties this = some p) (hparty : (s.players q).party = some this) (hlead : p.leader ≠ q)
    (hmembers : p.memberList.Nodup) (h : s.leaveParty this q = some s') :
    ∃ r : Option Party, s'.parties = Function.update s.parties this r ∧ (r = none ↔ p.EndsWithout q) ∧
      ∀ p', r = some p' → ∀ u ∈ p.roster, (u ∈ p'.roster ↔ u ≠ q) := by
  unfold State.leaveParty at h
  rw [hp, Option.bind_some, if_neg fun hnot => hnot.1 hparty] at h
  unfold State.leaveLeader at h
  have hrest : p.roster.erase q = p.leader :: p.memberList.erase q := List.erase_cons_tail (by simpa using hlead)
  rw [if_neg hlead, Option.bind_some] at h
  dsimp only at h
  rw [hp, Option.bind_some] at h
  have hparties := leaving_parties h
  rw [Bool.false_or] at hparties
  refine ⟨_, hparties, ?_, ?_⟩
  -- the party without the member, if that is not empty
  · have hnone : (if ({ p with memberList := p.memberList.erase q } : Party).empty then none
        else some { p with memberList := p.memberList.erase q }) = none ↔
          ({ p with memberList := p.memberList.erase q } : Party).empty = true := by
      split
      next hempty => exact iff_of_true rfl hempty
      next hstays => exact iff_of_false nofun hstays
    rw [hnone, empty_iff]
    unfold Party.EndsWithout
    rw [hrest]
    dsimp only
    rw [List.length_cons, Nat.succ_inj, List.length_eq_zero_iff]
    exact ⟨.inr, fun hend => hend.resolve_left nofun⟩
  · intro p' hp' u hu
    split at hp'
    · cases hp'
    · cases hp'
      change u ∈ p.leader :: p.memberList.erase q ↔ u ≠ q
      rw [List.mem_cons, hmembers.mem_erase_iff]
      constructor
      · rintro (rfl | hother)
        · exact hlead
        · exact hother.1
      · exact fun hne => (List.mem_cons.mp hu).imp_right fun hmem => ⟨hne, hmem⟩

theorem leaveParty_parties {s s' : State} (hinv : Inv s.allIn) {this : PartyRef} {p : Party} {q : PlayerRef}
    (hp : s.parties this = some p) (hq : q ∈ p.roster) (h : s.leaveParty this q = some s') :
    ∃ r : Option Party, s'.parties = Function.update s.parties this r ∧ (r = none ↔ p.EndsWithout q) ∧
      ∀ p', r = some p' → ∀ u ∈ p.roster, (u ∈ p'.roster ↔ u ≠ q) := by
  have hparty : (s.players q).party = some this := (hinv.roster_iff hp q).mpr hq
  have hnodup : p.roster.Nodup := (List.nodup_append.mp (hinv.proper hp).nodup).1
  obtain ⟨hleader, hmembers⟩ := List.nodup_cons.mp hnodup
  by_cases hlead : p.leader = q
  · exact leader_leaves hinv hp hparty hlead hleader h
  · exact member_leaves hp hparty hlead hmembers h

theorem removeInvite_parties {s s' : State} {this : PartyRef} {p : Party} {q : PlayerRef} {removeFromPlayer : Bool}
    (hp : s.parties this = some p) (h : s.removeInvite this q removeFromPlayer = some s') :
    ∃ r : Option Party, s'.parties = Function.update s.parties this r ∧
      (r = none ↔ p.IsOnlyInvite q) ∧ ∀ p', r = some p' → p'.roster = p.roster := by
  unfold State.removeInvite at h
  rw [hp, Option.bind_some] at h
  split at h
  next hnew =>
    cases h
    refine ⟨some p, ?_, iff_of_false nofun ?_, fun p' hp' => by cases hp'; rfl⟩
    · rw [← hp, Function.update_eq_self]
    · rintro ⟨-, hinvites⟩
      exact hnew (hinvites ▸ List.mem_singleton_self q)
  next hinvited =>
    have hstore : ∀ t : State, (t.removePartyInvitation q this).parties = t.parties := fun _ => rfl
    -- the list is empty afterwards if it was this one invitation
    have herase : p.inviteList.erase q = [] ↔ p.inviteList = [q] := by
      constructor
      · intro hnil
        have hperm := List.perm_cons_erase (not_not.mp hinvited)
        rw [hnil] at hperm
        exact List.perm_singleton.mp hperm
      · intro hone
        rw [hone, List.erase_cons_head]
    have hempty : ({ p with inviteList := p.inviteList.erase q } : Party).empty = true ↔ p.IsOnlyInvite q := by
      rw [empty_iff]
      exact and_congr_right fun _ => herase
    dsimp only at h
    split at h
    next hend =>
      refine ⟨none, ?_, iff_of_true rfl (hempty.mp hend), nofun⟩
      rw [disband_parties h]
      cases removeFromPlayer with
      | true => exact Function.update_idem _ _ _
      | false => exact Function.update_idem _ _ _
    next hstays =>
      cases h
      refine ⟨some { p with inviteList := p.inviteList.erase q }, ?_,
        iff_of_false nofun fun honly => hstays (hempty.mpr honly), fun p' hp' => by cases hp'; rfl⟩
      cases removeFromPlayer with
      | true => rfl
      | false => rfl

theorem foldlM_removeInvite_outcome {q : PlayerRef} {l : List PartyRef} (hl : l.Nodup) {s s' : State}
    (h : l.foldlM (fun (s : State) party => s.removeInvite party q false) s = some s') :
    Outcome s s' (fun P => P ∈ l ∧ ∃ p, s.parties P = some p ∧ p.IsOnlyInvite q) (fun _ _ => False) ∧
      ∀ P, P ∉ l → s'.parties P = s.parties P := by
  induction l generalizing s with
  | nil =>
    cases h
    exact ⟨.of_parties_eq rfl (fun _ _ _ hend => List.not_mem_nil hend.1) fun _ _ _ _ _ => id, fun _ _ => rfl⟩
  | cons this l ih =>
    obtain ⟨hthis, hl⟩ := List.nodup_cons.mp hl
    rw [List.foldlM_cons] at h
    obtain ⟨s₁, h₁, h₂⟩ := Option.bind_eq_some_iff.mp h
    have hlive : ∃ p, s.parties this = some p := by
      unfold State.removeInvite at h₁
      obtain ⟨p, hp, -⟩ := Option.bind_eq_some_iff.mp h₁
      exact ⟨p, hp⟩
    obtain ⟨p, hp⟩ := hlive
    obtain ⟨r, hparties, hend, hroster⟩ := removeInvite_parties hp h₁
    obtain ⟨hr, hothers⟩ := others_of_update hparties
    -- the rest of the loop leaves this party alone, and what it does to the others is known by induction
    obtain ⟨hrest, hsame⟩ := ih hl h₂
    have hfirst : s'.parties this = r := (hsame this hthis).trans hr
    refine ⟨⟨?_, ?_⟩, ?_⟩
    · rintro P p' hp' ⟨hmem, honly⟩
      by_cases hP : P = this
      · subst hP
        obtain ⟨p', hp', honly⟩ := honly
        cases hp.symm.trans hp'
        rw [hfirst]
        exact hend.mpr honly
      · rw [← hothers P hP] at hp' honly
        exact hrest.ended P p' hp' ⟨(List.mem_cons.mp hmem).resolve_left hP, honly⟩
    · intro P p' hp' hstays
      by_cases hP : P = this
      · subst hP
        cases hp.symm.trans hp'
        have hsome : r ≠ none := fun hnone => hstays ⟨List.mem_cons_self, p, hp, hend.mp hnone⟩
        obtain ⟨p', rfl⟩ := Option.ne_none_iff_exists'.mp hsome
        refine ⟨p', hfirst, fun u hu => iff_of_true ?_ id⟩
        rw [hroster p' rfl]
        exact hu
      · rw [← hothers P hP] at hp'
        refine hrest.kept P p' hp' fun hlast => hstays ⟨List.mem_cons_of_mem _ hlast.1, ?_⟩
        rw [← hothers P hP]
        exact hlast.2
    · intro P hP
      obtain ⟨hPthis, hPl⟩ := not_or.mp (mt List.mem_cons.mpr hP)
      exact (hsame P hPl).trans (hothers P hPthis)

theorem clearPartyInvitations_outcome {s s' : State} (hinv : Inv s.allIn) {q : PlayerRef}
    (h : s.clearPartyInvitations q = some s') :
    Outcome s s' (fun P => ∃ p, s.parties P = some p ∧ p.IsOnlyInvite q) (fun _ _ => False) := by
  unfold State.clearPartyInvitations at h
  obtain ⟨s₁, h₁, rfl⟩ := Option.map_eq_some_iff.mp h
  have hloop := (foldlM_removeInvite_outcome (hinv.invites_nodup q) h₁).1
  have hcleared : Outcome s (s₁.setInvites q []) (fun P => P ∈ (s.players q).invitePartyList ∧
      ∃ p, s.parties P = some p ∧ p.IsOnlyInvite q) (fun _ _ => False) := ⟨hloop.ended, hloop.kept⟩
  refine hcleared.congr (fun P p hp => and_iff_right_of_imp ?_) fun _ _ _ _ _ => Iff.rfl
  rintro ⟨p', hp', -, hinvites⟩
  -- whoever is on the list of a party has it on the own list
  refine (hinv.invited_iff hp' q).mpr ?_
  rw [hinvites]
  exact List.mem_singleton_self q

end Moonlight.Grouping
