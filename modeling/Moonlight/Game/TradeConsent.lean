import Mathlib.Data.List.Induction
import Moonlight.Game.Trade

/-!
# Consent in trades

A trade moves items only after both players have accepted. What a player accepts, though, is whatever the
partner offers by the time of the transfer: the accept is a trade state, the partner's counter offer does
not reset it, and a player who has made an offer may accept at once. `blind_accept_transfers` is the run in
which the first player accepts before the second one has offered anything.

`transfers_informed` says that this is the only way: in a run in which nobody accepts on top of an own offer
while the partner has none, both players of a transfer accepted after both offers were in place. An accept
without an own offer needs no condition, since it shuts the player out from offering.

The proof carries two facts along a run: whoever has offered and accepted has a partner who has offered
(`Answered`), and behind every such accept is a moment when the two offers were in place.
-/

namespace Moonlight.Trade

/-- An accept of `r` that takes effect. -/
def Accepts (s : State) (r : PlayerRef) : Op → Prop
  | .playerAcceptTrade p reachable _ _ =>
    p = r ∧ reachable = true ∧ (s.players r).tradePartner ≠ none ∧
      ((s.players r).tradeState = .ACKNOWLEDGE ∨ (s.players r).tradeState = .INITIATED)
  | _ => False

/-- Both offers are in place: `i` by `p` and `j` by `q`. -/
structure Offered (s : State) (p q : PlayerRef) (i j : ItemRef) : Prop where
  partner : (s.players p).tradePartner = some q
  partner' : (s.players q).tradePartner = some p
  item : (s.players p).tradeItem = some i
  item' : (s.players q).tradeItem = some j

/-- The accept of `p` that makes `playerAcceptTrade` move the two items. -/
structure Transfers (s : State) (op : Op) (p q : PlayerRef) (i j : ItemRef) : Prop where
  accepts : Accepts s p op
  hook : ∀ r reachable hook closes, op = .playerAcceptTrade r reachable hook closes → hook = true
  offered : Offered s p q i j
  accepted : (s.players q).tradeState = .ACCEPT

/-- **Informed consent.** After both offers were in place `q` accepted; the accept of `p` is the one that
follows `ops`. -/
def Informed (ops : List Op) (p q : PlayerRef) (i j : ItemRef) : Prop :=
  ∃ before between op after, ops = before ++ between ++ op :: after ∧
    Offered (Runs.run step State.empty before) p q i j ∧
    Accepts (Runs.run step State.empty (before ++ between)) q op

/-- Nobody accepts on top of an own offer while the partner has none. -/
def NotBlind (s : State) : Op → Prop
  | .playerAcceptTrade p reachable _ _ =>
    reachable = true → (s.players p).tradeState = .INITIATED →
      ∀ q, (s.players p).tradePartner = some q → (s.players q).tradeItem ≠ none
  | _ => True

/-! ### What a step does to a player -/

theorem internalCloseTrade_player (s : State) (p r : PlayerRef) :
    (s.internalCloseTrade p).players r = s.players r ∨ (s.internalCloseTrade p).players r = {} := by
  unfold State.internalCloseTrade
  split
  · split
    · exact .inl rfl
    · rw [leave_players]
      split
      · exact .inr rfl
      · exact .inl rfl
  · split
    · exact .inl rfl
    · rw [leave_players, leave_players]
      split
      · exact .inr rfl
      · split
        · exact .inr rfl
        · exact .inl rfl

theorem foldl_close_player (closes : List PlayerRef) (s : State) (r : PlayerRef) :
    (closes.foldl State.internalCloseTrade s).players r = s.players r ∨
      (closes.foldl State.internalCloseTrade s).players r = {} := by
  induction closes generalizing s with
  | nil => exact .inl rfl
  | cons p ps ih =>
    rcases ih (s.internalCloseTrade p) with h | h
    · rw [List.foldl_cons, h]
      exact internalCloseTrade_player s p r
    · exact .inr h

theorem completeTrade_player (s : State) (p q : PlayerRef) (closes : List PlayerRef) (r : PlayerRef) :
    (s.completeTrade p q closes).players r = {} ∨
      (r ≠ p ∧ r ≠ q ∧ (s.completeTrade p q closes).players r = s.players r) := by
  unfold State.completeTrade
  dsimp only
  rw [set_players, set_players]
  by_cases hrq : r = q
  · exact .inl (if_pos hrq)
  by_cases hrp : r = p
  · rw [if_neg hrq]
    exact .inl (if_pos hrp)
  rw [if_neg hrq, if_neg hrp]
  rcases foldl_close_player closes ((((s.setTradeState p .TRANSFER).setTradeState q .TRANSFER).erase
    (s.players p).tradeItem).erase (s.players q).tradeItem) r with h | h
  · refine .inr ⟨hrp, hrq, h.trans ?_⟩
    rw [erase_players, erase_players, setTradeState_players, if_neg hrq, setTradeState_players, if_neg hrp]
  · exact .inl h

theorem internalStartTrade_player {s : State} (h : Inv s) {p q : PlayerRef} (hne : q ≠ p) (item : ItemRef)
    (r : PlayerRef) :
    (s.internalStartTrade p q item).players r = s.players r ∨
      ((s.players r).tradeItem = none ∧ ((s.internalStartTrade p q item).players r).tradeState ≠ .ACCEPT) := by
  unfold State.internalStartTrade
  dsimp only
  split
  · exact .inl rfl
  next hp =>
  split
  · exact .inl rfl
  have hfree : (s.players p).tradeState = .NONE ∨ (s.players p).tradeState = .ACKNOWLEDGE := by
    by_contra hbusy
    exact hp ⟨fun he => hbusy (.inl he), fun he => hbusy (.inr he.1)⟩
  split
  next hqfree =>
    rw [set_players, set_players]
    by_cases hrq : r = q
    · rw [if_pos hrq, hrq]
      rw [set_players, if_neg hne] at hqfree
      exact .inr ⟨h.no_offer q (.inl hqfree), fun he => nomatch he⟩
    · rw [if_neg hrq, set_players]
      by_cases hrp : r = p
      · rw [if_pos hrp, hrp]
        exact .inr ⟨h.no_offer p hfree, fun he => nomatch he⟩
      · rw [if_neg hrp]
        exact .inl rfl
  next =>
    rw [set_players]
    by_cases hrp : r = p
    · rw [if_pos hrp, hrp]
      exact .inr ⟨h.no_offer p hfree, fun he => nomatch he⟩
    · rw [if_neg hrp]
      exact .inl rfl

/-- **What a step does to a player**: nothing; the trade ends; the player accepts; or the player starts
with an offer, or is asked, having offered nothing so far. -/
theorem step_player {s : State} (h : Inv s) (op : Op) (r : PlayerRef) :
    (step s op).players r = s.players r ∨ (step s op).players r = {} ∨
      (Accepts s r op ∧ step s op = s.setTradeState r .ACCEPT) ∨
      ((s.players r).tradeItem = none ∧ ((step s op).players r).tradeState ≠ .ACCEPT) := by
  cases op with
  | internalCloseTrade p =>
    rcases internalCloseTrade_player s p r with hr | hr
    · exact .inl hr
    · exact .inr (.inl hr)
  | playerRequestTrade p q item related checks =>
    show (s.playerRequestTrade p q item related checks).players r = _ ∨ _
    unfold step State.playerRequestTrade
    dsimp only
    split
    · exact .inl rfl
    next hne =>
    split
    · exact .inl rfl
    split
    · rcases internalStartTrade_player h hne item r with hr | hr
      · exact .inl hr
      · exact .inr (.inr (.inr hr))
    · exact .inl rfl
  | playerAcceptTrade p reachable hook closes =>
    show (s.playerAcceptTrade p reachable hook closes).players r = _ ∨ _
    unfold step State.playerAcceptTrade
    dsimp only
    split
    · exact .inl rfl
    next hstate =>
    split
    · exact .inl rfl
    next q hpq =>
    split
    · exact .inl rfl
    next hreach =>
    have hbusy : (s.players p).tradeState = .ACKNOWLEDGE ∨ (s.players p).tradeState = .INITIATED := by
      by_contra hno
      exact hstate ⟨fun he => hno (.inl he), fun he => hno (.inr he)⟩
    have hset : ∀ r', r' ≠ p → (s.setTradeState p .ACCEPT).players r' = s.players r' := by
      intro r' hr'
      rw [setTradeState_players, if_neg hr']
    split
    · split
      · -- the two players of the trade are reset
        rcases completeTrade_player (s.setTradeState p .ACCEPT) p q closes r with hr | ⟨hrp, -, hr⟩
        · exact .inr (.inl hr)
        · exact .inl (hr.trans (hset r hrp))
      · by_cases hrp : r = p
        · -- the trade of `p` is closed, since nobody is in a transfer
          have haccept : Inv (s.setTradeState p .ACCEPT) := by
            refine h.setTradeState ?_ (fun e => nomatch e) (fun e => nomatch e) (fun e => nomatch e)
            intro hnone
            rw [(h.partner_none_iff p).mpr hnone] at hpq
            cases hpq
          have hpartner : ((s.setTradeState p .ACCEPT).players p).tradePartner = some q := by
            rw [setTradeState_tradePartner]
            exact hpq
          refine .inr (.inl ?_)
          unfold State.internalCloseTrade
          rw [hpartner]
          dsimp only
          rw [if_neg (by rintro (ht | ht) <;> exact haccept.not_transfer _ ht), leave_players, hrp]
          split
          · rfl
          · rw [leave_players, if_pos rfl]
        · rcases internalCloseTrade_player (s.setTradeState p .ACCEPT) p r with hr | hr
          · exact .inl (hr.trans (hset r hrp))
          · exact .inr (.inl hr)
    next hother =>
      by_cases hrp : r = p
      · subst hrp
        refine .inr (.inr (.inl ⟨⟨rfl, by simpa using hreach, ?_, hbusy⟩, ?_⟩))
        · rw [hpq]
          exact fun he => nomatch he
        · rfl
      · exact .inl (hset r hrp)

/-! ### Behind an accept are two offers -/

/-- Whoever has offered and accepted has a partner who has offered. -/
def Answered (s : State) : Prop :=
  ∀ p q i, (s.players p).tradeState = .ACCEPT → (s.players p).tradePartner = some q →
    (s.players p).tradeItem = some i → (s.players q).tradeItem ≠ none

theorem empty_answered : Answered State.empty := fun _ _ _ h => nomatch h

theorem Answered.step {s : State} (h : Inv s) (ha : Answered s) {op : Op} (hop : NotBlind s op) :
    Answered (step s op) := by
  intro p q i hstate hpartner hitem
  rcases step_player h op p with hp | hp | ⟨haccepts, heq⟩ | ⟨-, hp⟩
  · -- the accept is an old one, and the offer of `q` does not go away alone
    rw [hp] at hstate hpartner hitem
    have hq := ha p q i hstate hpartner hitem
    rcases step_player h op q with hq' | hq' | ⟨-, heq⟩ | ⟨hq', -⟩
    · rwa [hq']
    · have hback := (h.step op).symm ((congrArg _ hp).trans hpartner)
      rw [hq'] at hback
      cases hback
    · rwa [heq, setTradeState_tradeItem]
    · exact (hq hq').elim
  · rw [hp] at hstate
    cases hstate
  · rw [heq, setTradeState_tradePartner] at hpartner
    rw [heq, setTradeState_tradeItem] at hitem
    rw [heq, setTradeState_tradeItem]
    cases op with
    | playerAcceptTrade p' reachable hook closes =>
      obtain ⟨rfl, hreach, -, hack | hinit⟩ := haccepts
      · rw [h.no_offer p' (.inr hack)] at hitem
        cases hitem
      · exact hop hreach hinit q hpartner
    | playerRequestTrade => exact haccepts.elim
    | internalCloseTrade => exact haccepts.elim
  · exact (hp hstate).elim

/-- An accept that stands now was given when the two offers of now were in place. -/
def Backed (ops : List Op) : Prop :=
  ∀ p q i j, ((Runs.run step State.empty ops).players q).tradeState = .ACCEPT →
    Offered (Runs.run step State.empty ops) p q i j → Informed ops p q i j

theorem Informed.snoc {ops : List Op} {p q : PlayerRef} {i j : ItemRef} (h : Informed ops p q i j)
    (op : Op) : Informed (ops ++ [op]) p q i j := by
  obtain ⟨before, between, op', after, rfl, hoffered, haccepts⟩ := h
  refine ⟨before, between, op', after ++ [op], ?_, hoffered, haccepts⟩
  rw [List.append_assoc, List.cons_append]

theorem Backed.snoc {ops : List Op} (h : Inv (Runs.run step State.empty ops))
    (ha : Answered (Runs.run step State.empty ops)) (hb : Backed ops) (op : Op) : Backed (ops ++ [op]) := by
  intro p q i j hstate hoffered
  rw [Runs.run_append] at hstate hoffered
  generalize hs : Runs.run step State.empty ops = s at h ha hstate hoffered
  change ((step s op).players q).tradeState = .ACCEPT at hstate
  change Offered (step s op) p q i j at hoffered
  obtain ⟨hp, hq, hi, hj⟩ := hoffered
  -- both offers were there before, and nobody accepted since
  have hold : ((step s op).players q = s.players q) → Offered s p q i j → Informed (ops ++ [op]) p q i j := by
    intro hsame hoff
    rw [← hs] at hoff
    refine (hb p q i j ?_ hoff).snoc op
    rw [hs, ← hsame]
    exact hstate
  rcases step_player h op q with hsame | hgone | ⟨haccepts, heq⟩ | ⟨-, hno⟩
  · rw [hsame] at hstate hq hj
    rcases step_player h op p with hp' | hp' | ⟨-, heq⟩ | ⟨hp', -⟩
    · rw [hp'] at hp hi
      exact hold hsame ⟨hp, hq, hi, hj⟩
    · rw [hp'] at hp
      cases hp
    · rw [heq, setTradeState_tradePartner] at hp
      rw [heq, setTradeState_tradeItem] at hi
      exact hold hsame ⟨hp, hq, hi, hj⟩
    · exact (ha q p j hstate hq hj hp').elim
  · rw [hgone] at hstate
    cases hstate
  · -- this is the accept, on top of the two offers
    rw [heq, setTradeState_tradePartner] at hp hq
    rw [heq, setTradeState_tradeItem] at hi hj
    refine ⟨ops, [], op, [], by rw [List.append_nil], ?_, ?_⟩
    · rw [hs]
      exact ⟨hp, hq, hi, hj⟩
    · rw [List.append_nil, hs]
      exact haccepts
  · exact (hno hstate).elim

theorem backed_of_meets {ops : List Op} (hops : Runs.Meets step NotBlind State.empty ops) :
    Inv (Runs.run step State.empty ops) ∧ Answered (Runs.run step State.empty ops) ∧ Backed ops := by
  induction ops using List.reverseRecOn with
  | nil => exact ⟨empty_inv, empty_answered, fun _ _ _ _ hstate => nomatch hstate⟩
  | append_singleton ops op ih =>
    obtain ⟨hpre, hop, -⟩ := Runs.meets_append.mp hops
    obtain ⟨hinv, hans, hback⟩ := ih hpre
    refine ⟨?_, ?_, hback.snoc hinv hans op⟩
    · rw [Runs.run_append]
      exact hinv.step op
    · rw [Runs.run_append]
      exact hans.step hinv hop

/-- **Transfers need informed consent**, in every run in which nobody accepts on top of an own offer while
the partner has none: whenever an accept moves the items, the other player had accepted after both offers
were in place, and so does this one. -/
theorem transfers_informed (ops : List Op) (hops : Runs.Meets step NotBlind State.empty ops) :
    ∀ pre op, pre ++ [op] <+: ops → ∀ p q i j, Transfers (Runs.run step State.empty pre) op p q i j →
      Informed pre p q i j ∧ Accepts (Runs.run step State.empty pre) p op := by
  intro pre op hpre p q i j ht
  obtain ⟨post, rfl⟩ := hpre
  rw [List.append_assoc] at hops
  obtain ⟨-, -, hback⟩ := backed_of_meets (Runs.meets_append.mp hops).1
  exact ⟨hback p q i j ht.accepted ht.offered, ht.accepts⟩

/-- An offer of `item` by `p` to `q`, with nothing in its way. -/
def offer (p q : PlayerRef) (item : ItemRef) : Op := .playerRequestTrade p q item (fun _ => false) true

/-- An accept with nothing in its way. -/
def accept (p : PlayerRef) : Op := .playerAcceptTrade p true true []

theorem offered_then_accepted_informed :
    Runs.Meets step NotBlind State.empty [offer 1 2 10, offer 2 1 20, accept 1, accept 2] ∧
    Transfers (Runs.run step State.empty [offer 1 2 10, offer 2 1 20, accept 1]) (accept 2) 2 1 20 10 ∧
    Informed [offer 1 2 10, offer 2 1 20, accept 1] 2 1 20 10 := by
  have hmeets : Runs.Meets step NotBlind State.empty [offer 1 2 10, offer 2 1 20, accept 1, accept 2] := by
    refine ⟨trivial, trivial, ?_, ?_, trivial⟩
    · intro _ _ q hq
      obtain rfl : (2 : PlayerRef) = q := Option.some.inj hq
      exact fun he => nomatch he
    · intro _ _ q hq
      obtain rfl : (1 : PlayerRef) = q := Option.some.inj hq
      exact fun he => nomatch he
  have ht : Transfers (Runs.run step State.empty [offer 1 2 10, offer 2 1 20, accept 1]) (accept 2) 2 1 20 10 := by
    refine ⟨⟨rfl, rfl, fun he => (nomatch he), .inr rfl⟩, ?_, ⟨rfl, rfl, rfl, rfl⟩, rfl⟩
    rintro _ _ _ _ ⟨⟩
    rfl
  exact ⟨hmeets, ht, (transfers_informed _ hmeets _ _ List.prefix_rfl _ _ _ _ ht).1⟩

/-- The first player accepts before the second one has offered anything, and the items are moved. -/
theorem blind_accept_transfers :
    Transfers (Runs.run step State.empty [offer 1 2 10, accept 1, offer 2 1 20]) (accept 2) 2 1 20 10 ∧
    ¬ Informed [offer 1 2 10, accept 1, offer 2 1 20] 2 1 20 10 := by
  constructor
  · refine ⟨⟨rfl, rfl, fun he => (nomatch he), .inr rfl⟩, ?_, ⟨rfl, rfl, rfl, rfl⟩, rfl⟩
    rintro _ _ _ _ ⟨⟩
    rfl
  · rintro ⟨before, between, op, after, hops, hoffered, -⟩
    -- an accept follows `before`, so at most two steps come before it, and `2` has offered nothing yet
    have hlen : before.length = 0 ∨ before.length = 1 ∨ before.length = 2 := by
      have hlength := congrArg List.length hops
      simp only [List.length_append, List.length_cons, List.length_nil] at hlength
      omega
    have hbefore : before = [offer 1 2 10, accept 1, offer 2 1 20].take before.length := by
      rw [hops, List.append_assoc, List.take_left]
    have hnone : ((Runs.run step State.empty before).players 2).tradeItem = none := by
      rw [hbefore]
      rcases hlen with hlen | hlen | hlen <;> rw [hlen] <;> rfl
    rw [hoffered.item] at hnone
    cases hnone

end Moonlight.Trade
