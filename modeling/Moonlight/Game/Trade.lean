import Moonlight.Lib.Runs

/-!
# Trades between players

A trade is kept in three fields on each of the two players (`tradeState`, `tradePartner`, `tradeItem`) and
in `Game::tradeItems`, the map of the items on offer (game/game.cpp). `playerRequestTrade` opens a trade or
answers one with a counter offer, `playerAcceptTrade` accepts, and once both have accepted moves the items;
`internalCloseTrade` ends a trade and is called from many places, also while the items of another trade
are being moved.

`run_consistent` says that the three functions keep the fields and the map in step in every run
(`Consistent`). A trade touches its two players only, so everything follows from what it means to take two
partners out of the state (`dissolve`): closing a trade and completing one both come down to that. While
items are moved the two players are in `TRADE_TRANSFER`, where nothing can close their trade
(`Pending`).

Where the players stand, what the items hold, and what the script hooks answer are parameters of a request;
the calls of `internalCloseTrade` made while items are moved are a list of players.
-/

namespace Moonlight.Trade

abbrev PlayerRef := Nat

abbrev ItemRef := Nat

inductive TradeState where
  | NONE
  | INITIATED
  | ACCEPT
  | ACKNOWLEDGE
  | TRANSFER
  deriving DecidableEq, Repr

structure PlayerTrade where
  tradeState : TradeState := .NONE
  tradePartner : Option PlayerRef := none
  tradeItem : Option ItemRef := none
  deriving DecidableEq, Repr

structure State where
  players : PlayerRef → PlayerTrade
  tradeItems : List (ItemRef × PlayerRef)

/-- Nobody trades. -/
def State.empty : State := ⟨fun _ => {}, []⟩

namespace State

def set (s : State) (p : PlayerRef) (t : PlayerTrade) : State :=
  { s with players := Function.update s.players p t }

def setTradeState (s : State) (p : PlayerRef) (state : TradeState) : State :=
  s.set p { s.players p with tradeState := state }

/-- Erase an offer from the map, if there is one. -/
def erase (s : State) (tradeItem : Option ItemRef) : State :=
  match tradeItem with
  | none => s
  | some item => { s with tradeItems := s.tradeItems.filter fun e => e.1 ≠ item }

def internalStartTrade (s : State) (player tradePartner : PlayerRef) (tradeItem : ItemRef) : State :=
  let p := s.players player
  let q := s.players tradePartner
  if p.tradeState ≠ .NONE ∧ ¬ (p.tradeState = .ACKNOWLEDGE ∧ p.tradePartner = some tradePartner) then s
  else if q.tradeState ≠ .NONE ∧ q.tradePartner ≠ some player then s
  else
    let s := s.set player ⟨.INITIATED, some tradePartner, some tradeItem⟩
    let s := { s with tradeItems :=
      (tradeItem, player) :: s.tradeItems.filter fun e => e.1 ≠ tradeItem }
    if (s.players tradePartner).tradeState = .NONE then
      s.set tradePartner
        { s.players tradePartner with tradeState := .ACKNOWLEDGE, tradePartner := some player }
    else s

/-- `playerRequestTrade`. `related` are the items that hold the offered one or are held by it, and `checks`
is the outcome of the remaining checks: the distance, the item, its position and the hook. -/
def playerRequestTrade (s : State) (player tradePartner : PlayerRef) (tradeItem : ItemRef)
    (related : ItemRef → Bool) (checks : Bool) : State :=
  if tradePartner = player then s
  else if s.tradeItems.any fun e => e.1 = tradeItem ∨ related e.1 then s
  else if checks then s.internalStartTrade player tradePartner tradeItem
  else s

/-- A player leaves a trade: the offer is erased and the three fields are reset. -/
def leave (s : State) (p : PlayerRef) : State := (s.erase (s.players p).tradeItem).set p {}

def internalCloseTrade (s : State) (player : PlayerRef) : State :=
  match (s.players player).tradePartner with
  | none => if (s.players player).tradeState = .TRANSFER then s else s.leave player
  | some tradePartner =>
    if (s.players tradePartner).tradeState = .TRANSFER ∨ (s.players player).tradeState = .TRANSFER then s
    else (s.leave player).leave tradePartner

/-- The second half of `playerAcceptTrade`, once both players have accepted. `closes` are the calls of
`internalCloseTrade` made while the items are moved. -/
def completeTrade (s : State) (player tradePartner : PlayerRef) (closes : List PlayerRef) : State :=
  let tradeItem1 := (s.players player).tradeItem
  let tradeItem2 := (s.players tradePartner).tradeItem
  let s := (s.setTradeState player .TRANSFER).setTradeState tradePartner .TRANSFER
  let s := (s.erase tradeItem1).erase tradeItem2
  let s := closes.foldl internalCloseTrade s
  (s.set player {}).set tradePartner {}

/-- `playerAcceptTrade`. `reachable` is `canThrowObjectTo`, `hook` is `eventPlayerOnTradeAccept`. -/
def playerAcceptTrade (s : State) (player : PlayerRef) (reachable hook : Bool) (closes : List PlayerRef) :
    State :=
  let p := s.players player
  if p.tradeState ≠ .ACKNOWLEDGE ∧ p.tradeState ≠ .INITIATED then s
  else
    match p.tradePartner with
    | none => s
    | some tradePartner =>
      if !reachable then s
      else
        let s := s.setTradeState player .ACCEPT
        if (s.players tradePartner).tradeState = .ACCEPT then
          if hook then s.completeTrade player tradePartner closes else s.internalCloseTrade player
        else s

end State

inductive Op where
  | playerRequestTrade (player tradePartner : PlayerRef) (tradeItem : ItemRef)
      (related : ItemRef → Bool) (checks : Bool)
  | playerAcceptTrade (player : PlayerRef) (reachable hook : Bool) (closes : List PlayerRef)
  | internalCloseTrade (player : PlayerRef)

def step (s : State) : Op → State
  | .playerRequestTrade player tradePartner tradeItem related checks =>
    s.playerRequestTrade player tradePartner tradeItem related checks
  | .playerAcceptTrade player reachable hook closes => s.playerAcceptTrade player reachable hook closes
  | .internalCloseTrade player => s.internalCloseTrade player

/-- **The fields of the players and the map of offers are in step.** -/
structure Consistent (s : State) : Prop where
  /-- Partners are partners of each other. -/
  symm : ∀ p q, (s.players p).tradePartner = some q ↔ (s.players q).tradePartner = some p
  /-- A player without a partner is one that does not trade. -/
  partner_none_iff : ∀ p, (s.players p).tradePartner = none ↔ (s.players p).tradeState = .NONE
  /-- Nobody is left in a transfer. -/
  not_transfer : ∀ p, (s.players p).tradeState ≠ .TRANSFER
  /-- The items on offer are the items of the players in a trade. -/
  mem_keys_iff : ∀ item, item ∈ s.tradeItems.map Prod.fst ↔
    ∃ p, (s.players p).tradeState ≠ .NONE ∧ (s.players p).tradeItem = some item
  /-- An item is offered by one player. -/
  offer_unique : ∀ p q item, (s.players p).tradeItem = some item → (s.players q).tradeItem = some item → p = q

/-- What the operations maintain: the observed invariant, and what they rely on themselves. -/
structure Inv (s : State) : Prop where
  symm : ∀ {p q}, (s.players p).tradePartner = some q → (s.players q).tradePartner = some p
  irrefl : ∀ p, (s.players p).tradePartner ≠ some p
  partner_none_iff : ∀ p, (s.players p).tradePartner = none ↔ (s.players p).tradeState = .NONE
  not_transfer : ∀ p, (s.players p).tradeState ≠ .TRANSFER
  /-- The map says who offers an item. -/
  offers : ∀ item p, (item, p) ∈ s.tradeItems ↔ (s.players p).tradeItem = some item
  offer_unique : ∀ {p q item}, (item, p) ∈ s.tradeItems → (item, q) ∈ s.tradeItems → p = q
  /-- A player who does not trade, or was only asked, offers nothing. -/
  no_offer : ∀ p, (s.players p).tradeState = .NONE ∨ (s.players p).tradeState = .ACKNOWLEDGE →
    (s.players p).tradeItem = none

theorem Inv.consistent {s : State} (h : Inv s) : Consistent s where
  symm := fun _ _ => ⟨h.symm, h.symm⟩
  partner_none_iff := h.partner_none_iff
  not_transfer := h.not_transfer
  mem_keys_iff := by
    intro item
    rw [List.mem_map]
    constructor
    · rintro ⟨⟨item', p⟩, hmem, rfl⟩
      have hoffer := (h.offers item' p).mp hmem
      refine ⟨p, fun hnone => ?_, hoffer⟩
      rw [h.no_offer p (.inl hnone)] at hoffer
      cases hoffer
    · rintro ⟨p, -, hoffer⟩
      exact ⟨(item, p), (h.offers item p).mpr hoffer, rfl⟩
  offer_unique := fun p q item hp hq =>
    h.offer_unique ((h.offers item p).mpr hp) ((h.offers item q).mpr hq)

theorem empty_inv : Inv State.empty where
  symm := fun h => nomatch h
  irrefl := fun _ h => nomatch h
  partner_none_iff := fun _ => ⟨fun _ => rfl, fun _ => rfl⟩
  not_transfer := fun _ h => nomatch h
  offers := fun _ _ => ⟨fun h => (nomatch h), fun h => nomatch h⟩
  offer_unique := fun h => nomatch h
  no_offer := fun _ _ => rfl

/-! ### Taking two partners out -/

/-- Both players reset, and the offers of the others kept. -/
structure Dissolves (s : State) (p q : PlayerRef) (s' : State) : Prop where
  players : ∀ r, s'.players r = if r = p ∨ r = q then {} else s.players r
  tradeItems : ∀ e, e ∈ s'.tradeItems ↔ e ∈ s.tradeItems ∧ e.2 ≠ p ∧ e.2 ≠ q

/-- **A trade touches its two players only.** Without them the others are as consistent as before; `p = q`
takes out a player who has no partner. -/
theorem Inv.dissolve {s s' : State} (h : Inv s) {p q : PlayerRef} (hs' : Dissolves s p q s')
    (hpq : ∀ r, r ≠ p → r ≠ q → (s.players r).tradePartner ≠ some p ∧ (s.players r).tradePartner ≠ some q) :
    Inv s' := by
  have hout : ∀ {r}, r = p ∨ r = q → s'.players r = {} := fun hr => by rw [hs'.players, if_pos hr]
  have hin : ∀ {r}, ¬ (r = p ∨ r = q) → s'.players r = s.players r := fun hr => by
    rw [hs'.players, if_neg hr]
  refine ⟨?_, ?_, ?_, ?_, ?_, ?_, ?_⟩
  · intro r r' hr
    by_cases hmem : r = p ∨ r = q
    · rw [hout hmem] at hr
      cases hr
    · rw [hin hmem] at hr
      have hne : ¬ (r' = p ∨ r' = q) := by
        rintro (rfl | rfl)
        · exact (hpq r (fun e => hmem (.inl e)) (fun e => hmem (.inr e))).1 hr
        · exact (hpq r (fun e => hmem (.inl e)) (fun e => hmem (.inr e))).2 hr
      rw [hin hne]
      exact h.symm hr
  · intro r
    by_cases hmem : r = p ∨ r = q
    · rw [hout hmem]
      exact fun hr => nomatch hr
    · rw [hin hmem]
      exact h.irrefl r
  · intro r
    by_cases hmem : r = p ∨ r = q
    · rw [hout hmem]
      exact ⟨fun _ => rfl, fun _ => rfl⟩
    · rw [hin hmem]
      exact h.partner_none_iff r
  · intro r
    by_cases hmem : r = p ∨ r = q
    · rw [hout hmem]
      exact fun hr => nomatch hr
    · rw [hin hmem]
      exact h.not_transfer r
  · intro item r
    rw [hs'.tradeItems]
    by_cases hmem : r = p ∨ r = q
    · rw [hout hmem]
      constructor
      · rintro ⟨-, hp, hq⟩
        exact (hmem.elim hp hq).elim
      · exact fun hr => nomatch hr
    · rw [hin hmem, h.offers]
      exact ⟨fun hr => hr.1, fun hr => ⟨hr, fun e => hmem (.inl e), fun e => hmem (.inr e)⟩⟩
  · intro r r' item hr hr'
    exact h.offer_unique ((hs'.tradeItems _).mp hr).1 ((hs'.tradeItems _).mp hr').1
  · intro r hr
    by_cases hmem : r = p ∨ r = q
    · rw [hout hmem]
    · rw [hin hmem] at hr ⊢
      exact h.no_offer r hr

theorem set_players (s : State) (p r : PlayerRef) (t : PlayerTrade) :
    (s.set p t).players r = if r = p then t else s.players r :=
  Function.update_apply _ _ _ _

@[simp] theorem erase_players (s : State) (o : Option ItemRef) : (s.erase o).players = s.players := by
  cases o <;> rfl

theorem mem_erase (s : State) (o : Option ItemRef) (e : ItemRef × PlayerRef) :
    e ∈ (s.erase o).tradeItems ↔ e ∈ s.tradeItems ∧ o ≠ some e.1 := by
  cases o with
  | none => simp [State.erase]
  | some item =>
    simp only [State.erase, List.mem_filter, decide_eq_true_eq, ne_eq, Option.some.injEq]
    exact and_congr_right fun _ => not_congr eq_comm

theorem leave_players (s : State) (p r : PlayerRef) :
    (s.leave p).players r = if r = p then {} else s.players r := by
  unfold State.leave
  rw [set_players, erase_players]

theorem mem_leave (s : State) (p : PlayerRef) (e : ItemRef × PlayerRef) :
    e ∈ (s.leave p).tradeItems ↔ e ∈ s.tradeItems ∧ (s.players p).tradeItem ≠ some e.1 :=
  mem_erase s _ e

theorem Inv.offer_iff {s : State} (h : Inv s) {e : ItemRef × PlayerRef} (he : e ∈ s.tradeItems)
    (p : PlayerRef) : (s.players p).tradeItem = some e.1 ↔ e.2 = p := by
  constructor
  · intro hp
    exact h.offer_unique he ((h.offers e.1 p).mpr hp)
  · rintro rfl
    exact (h.offers e.1 e.2).mp he

theorem Inv.mem_erase_two {s : State} (h : Inv s) (p q : PlayerRef) (e : ItemRef × PlayerRef) :
    (e ∈ s.tradeItems ∧ (s.players p).tradeItem ≠ some e.1) ∧ (s.players q).tradeItem ≠ some e.1 ↔
      e ∈ s.tradeItems ∧ e.2 ≠ p ∧ e.2 ≠ q := by
  constructor
  · rintro ⟨⟨he, hp⟩, hq⟩
    exact ⟨he, fun e' => hp ((h.offer_iff he p).mpr e'), fun e' => hq ((h.offer_iff he q).mpr e')⟩
  · rintro ⟨he, hp, hq⟩
    exact ⟨⟨he, fun e' => hp ((h.offer_iff he p).mp e')⟩, fun e' => hq ((h.offer_iff he q).mp e')⟩

theorem Inv.others_elsewhere {s : State} (h : Inv s) {p q : PlayerRef}
    (hpq : (s.players p).tradePartner = some q) (r : PlayerRef) (hp : r ≠ p) (hq : r ≠ q) :
    (s.players r).tradePartner ≠ some p ∧ (s.players r).tradePartner ≠ some q := by
  constructor
  · intro hr
    have hrp := h.symm hr
    rw [hpq] at hrp
    cases hrp
    exact hq rfl
  · intro hr
    have hrq := h.symm hr
    rw [h.symm hpq] at hrq
    cases hrq
    exact hp rfl

theorem Inv.internalCloseTrade {s : State} (h : Inv s) (p : PlayerRef) : Inv (s.internalCloseTrade p) := by
  unfold State.internalCloseTrade
  split
  case h_1 hnone =>
    rw [if_neg (h.not_transfer p)]
    refine h.dissolve (p := p) (q := p) ⟨?_, ?_⟩ ?_
    · intro r
      rw [leave_players]
      simp only [or_self]
    · intro e
      rw [mem_leave, ← h.mem_erase_two p p e]
      exact ⟨fun he => ⟨he, he.2⟩, fun he => he.1⟩
    · intro r _ _
      have hne : (s.players r).tradePartner ≠ some p := by
        intro hr
        rw [h.symm hr] at hnone
        cases hnone
      exact ⟨hne, hne⟩
  case h_2 q hq =>
    rw [if_neg (by rintro (ht | ht) <;> exact h.not_transfer _ ht)]
    have hne : q ≠ p := by
      rintro rfl
      exact h.irrefl q hq
    refine h.dissolve (p := p) (q := q) ⟨?_, ?_⟩ (h.others_elsewhere hq)
    · intro r
      rw [leave_players, leave_players]
      by_cases hrq : r = q
      · rw [if_pos hrq, if_pos (.inr hrq)]
      · by_cases hrp : r = p
        · rw [if_neg hrq, if_pos hrp, if_pos (.inl hrp)]
        · rw [if_neg hrq, if_neg hrp, if_neg (not_or.mpr ⟨hrp, hrq⟩)]
    · intro e
      rw [mem_leave, mem_leave, leave_players, if_neg hne]
      exact h.mem_erase_two p q e

/-! ### Requests -/

theorem setTradeState_players (s : State) (p r : PlayerRef) (state : TradeState) :
    (s.setTradeState p state).players r =
      if r = p then { s.players p with tradeState := state } else s.players r :=
  set_players s p r _

@[simp] theorem setTradeState_tradePartner (s : State) (p r : PlayerRef) (state : TradeState) :
    ((s.setTradeState p state).players r).tradePartner = (s.players r).tradePartner := by
  rw [setTradeState_players]
  split
  next hr => rw [hr]
  next => rfl

@[simp] theorem setTradeState_tradeItem (s : State) (p r : PlayerRef) (state : TradeState) :
    ((s.setTradeState p state).players r).tradeItem = (s.players r).tradeItem := by
  rw [setTradeState_players]
  split
  next hr => rw [hr]
  next => rfl

theorem Inv.setTradeState {s : State} (h : Inv s) {p : PlayerRef} {state : TradeState}
    (hp : (s.players p).tradeState ≠ .NONE) (hnone : state ≠ .NONE) (htransfer : state ≠ .TRANSFER)
    (hack : state ≠ .ACKNOWLEDGE) : Inv (s.setTradeState p state) := by
  refine ⟨?_, ?_, ?_, ?_, ?_, ?_, ?_⟩
  · intro r r' hr
    rw [setTradeState_tradePartner] at hr ⊢
    exact h.symm hr
  · intro r
    rw [setTradeState_tradePartner]
    exact h.irrefl r
  · intro r
    rw [setTradeState_tradePartner, h.partner_none_iff, setTradeState_players]
    by_cases hr : r = p
    · rw [if_pos hr, hr]
      exact ⟨fun he => (hp he).elim, fun he => (hnone he).elim⟩
    · rw [if_neg hr]
  · intro r
    rw [setTradeState_players]
    split
    · exact htransfer
    · exact h.not_transfer r
  · intro item r
    rw [setTradeState_tradeItem]
    exact h.offers item r
  · exact h.offer_unique
  · intro r hr
    rw [setTradeState_tradeItem]
    rw [setTradeState_players] at hr
    split at hr
    · exact (hr.elim hnone hack).elim
    · exact h.no_offer r hr

/-- **An offer is put on the table.** The player joins `q`, who asks for it or has already offered; `t` is
what the fields of `q` become. -/
theorem Inv.join {s s' : State} (h : Inv s) {p q : PlayerRef} {item : ItemRef} {t : PlayerTrade}
    (hne : q ≠ p) (hnew : ∀ e ∈ s.tradeItems, e.1 ≠ item) (hnone : (s.players p).tradeItem = none)
    (hothers : ∀ r, r ≠ p → r ≠ q → (s.players r).tradePartner ≠ some p ∧ (s.players r).tradePartner ≠ some q)
    (hpartner : t.tradePartner = some p) (hitem : t.tradeItem = (s.players q).tradeItem)
    (hstate : t.tradeState ≠ .NONE) (htransfer : t.tradeState ≠ .TRANSFER)
    (hack : t.tradeState = .ACKNOWLEDGE → t.tradeItem = none)
    (hplayers : ∀ r, s'.players r =
      if r = p then ⟨.INITIATED, some q, some item⟩ else if r = q then t else s.players r)
    (hitems : ∀ e, e ∈ s'.tradeItems ↔ e = (item, p) ∨ e ∈ s.tradeItems) : Inv s' := by
  have hp : s'.players p = ⟨.INITIATED, some q, some item⟩ := by rw [hplayers, if_pos rfl]
  have hq : s'.players q = t := by rw [hplayers, if_neg hne, if_pos rfl]
  have hr : ∀ {r}, r ≠ p → r ≠ q → s'.players r = s.players r := fun hrp hrq => by
    rw [hplayers, if_neg hrp, if_neg hrq]
  -- the two partners, and everybody else
  have hcases : ∀ r, r = p ∨ r = q ∨ (r ≠ p ∧ r ≠ q) := by
    intro r
    by_cases hrp : r = p
    · exact .inl hrp
    · by_cases hrq : r = q
      · exact .inr (.inl hrq)
      · exact .inr (.inr ⟨hrp, hrq⟩)
  have hoffer : ∀ r i, r ≠ p → ((s'.players r).tradeItem = some i ↔ (s.players r).tradeItem = some i) := by
    intro r i hrp
    by_cases hrq : r = q
    · rw [hrq, hq, hitem]
    · rw [hr hrp hrq]
  refine ⟨?_, ?_, ?_, ?_, ?_, ?_, ?_⟩
  · intro r r' hrr'
    rcases hcases r with rfl | rfl | ⟨hrp, hrq⟩
    · rw [hp] at hrr'
      cases hrr'
      rw [hq]
      exact hpartner
    · rw [hq, hpartner] at hrr'
      cases hrr'
      rw [hp]
    · rw [hr hrp hrq] at hrr'
      obtain ⟨h₁, h₂⟩ := hothers r hrp hrq
      have hr'p : r' ≠ p := by
        rintro rfl
        exact h₁ hrr'
      have hr'q : r' ≠ q := by
        rintro rfl
        exact h₂ hrr'
      rw [hr hr'p hr'q]
      exact h.symm hrr'
  · intro r
    rcases hcases r with rfl | rfl | ⟨hrp, hrq⟩
    · rw [hp]
      exact fun he => hne (Option.some.inj he)
    · rw [hq, hpartner]
      exact fun he => hne (Option.some.inj he).symm
    · rw [hr hrp hrq]
      exact h.irrefl r
  · intro r
    rcases hcases r with rfl | rfl | ⟨hrp, hrq⟩
    · rw [hp]
      exact ⟨fun he => (nomatch he), fun he => nomatch he⟩
    · rw [hq, hpartner]
      exact ⟨fun he => (nomatch he), fun he => (hstate he).elim⟩
    · rw [hr hrp hrq]
      exact h.partner_none_iff r
  · intro r
    rcases hcases r with rfl | rfl | ⟨hrp, hrq⟩
    · rw [hp]
      exact fun he => nomatch he
    · rw [hq]
      exact htransfer
    · rw [hr hrp hrq]
      exact h.not_transfer r
  · intro i r
    rw [hitems, h.offers]
    by_cases hrp : r = p
    · subst hrp
      rw [hp, hnone]
      constructor
      · rintro (he | he)
        · rw [(Prod.mk.inj he).1]
        · cases he
      · intro he
        exact .inl (by rw [Option.some.inj he])
    · rw [hoffer r i hrp]
      exact ⟨fun he => he.elim (fun he => (hrp (Prod.mk.inj he).2).elim) id, .inr⟩
  · intro r r' i hri hr'i
    rcases (hitems _).mp hri with he | he <;> rcases (hitems _).mp hr'i with he' | he'
    · rw [(Prod.mk.inj he).2, (Prod.mk.inj he').2]
    · exact (hnew _ he' (Prod.mk.inj he).1).elim
    · exact (hnew _ he (Prod.mk.inj he').1).elim
    · exact h.offer_unique he he'
  · intro r hstate'
    rcases hcases r with rfl | rfl | ⟨hrp, hrq⟩
    · rw [hp] at hstate'
      rcases hstate' with he | he <;> cases he
    · rw [hq] at hstate' ⊢
      exact hstate'.elim (fun he => (hstate he).elim) hack
    · rw [hr hrp hrq] at hstate' ⊢
      exact h.no_offer r hstate'

theorem Inv.internalStartTrade {s : State} (h : Inv s) {p q : PlayerRef} {item : ItemRef} (hne : q ≠ p)
    (hnew : ∀ e ∈ s.tradeItems, e.1 ≠ item) : Inv (s.internalStartTrade p q item) := by
  have hitems : ∀ e, e ∈ (item, p) :: s.tradeItems.filter (fun e => e.1 ≠ item) ↔
      e = (item, p) ∨ e ∈ s.tradeItems := by
    intro e
    rw [List.mem_cons, List.mem_filter]
    exact or_congr_right ⟨fun he => he.1, fun he => ⟨he, decide_eq_true (hnew e he)⟩⟩
  unfold State.internalStartTrade
  dsimp only
  split
  · exact h
  next hp =>
  split
  · exact h
  next hq =>
  have hstate : ((s.set p ⟨.INITIATED, some q, some item⟩).players q).tradeState =
      (s.players q).tradeState := by rw [set_players, if_neg hne]
  -- the player is free, or was asked by this partner
  by_cases hfree : (s.players p).tradeState = .NONE
  · have hpnone := (h.partner_none_iff p).mpr hfree
    have hqfree : (s.players q).tradeState = .NONE := by
      by_contra hqn
      have hqp : (s.players q).tradePartner = some p := by
        by_contra hqp
        exact hq ⟨hqn, hqp⟩
      rw [h.symm hqp] at hpnone
      cases hpnone
    have hqnone := (h.partner_none_iff q).mpr hqfree
    rw [if_pos (hstate.trans hqfree)]
    refine h.join hne hnew (h.no_offer p (.inl hfree)) ?_ rfl ?_ (fun he => nomatch he)
      (fun he => nomatch he) ?_ ?_ hitems
      (t := { s.players q with tradeState := .ACKNOWLEDGE, tradePartner := some p })
    · intro r _ _
      constructor
      · intro hr
        rw [h.symm hr] at hpnone
        cases hpnone
      · intro hr
        rw [h.symm hr] at hqnone
        cases hqnone
    · rfl
    · intro _
      exact h.no_offer q (.inl hqfree)
    · intro r
      rw [set_players, set_players, set_players, if_neg hne]
      by_cases hrp : r = p
      · rw [if_pos hrp, if_neg (by rw [hrp]; exact hne.symm), if_pos hrp]
      · rw [if_neg hrp, if_neg hrp]
  · have hasked : (s.players p).tradeState = .ACKNOWLEDGE ∧ (s.players p).tradePartner = some q := by
      by_contra hasked
      exact hp ⟨hfree, hasked⟩
    have hqp := h.symm hasked.2
    have hqbusy : (s.players q).tradeState ≠ .NONE := by
      intro hqn
      rw [(h.partner_none_iff q).mpr hqn] at hqp
      cases hqp
    rw [if_neg (by rw [hstate]; exact hqbusy)]
    refine h.join hne hnew (h.no_offer p (.inr hasked.1)) (h.others_elsewhere hasked.2) hqp rfl hqbusy
      (h.not_transfer q) (fun hack => h.no_offer q (.inr hack)) ?_ hitems
    intro r
    refine (set_players s p r _).trans ?_
    by_cases hrq : r = q
    · rw [if_pos hrq, hrq]
    · rw [if_neg hrq]

theorem Inv.playerRequestTrade {s : State} (h : Inv s) (p q : PlayerRef) (item : ItemRef)
    (related : ItemRef → Bool) (checks : Bool) : Inv (s.playerRequestTrade p q item related checks) := by
  unfold State.playerRequestTrade
  split
  · exact h
  next hne =>
  split
  · exact h
  next hany =>
  split
  · refine h.internalStartTrade hne ?_
    intro e he heq
    refine hany (List.any_eq_true.mpr ⟨e, he, decide_eq_true (.inl heq)⟩)
  · exact h

/-! ### Completing a trade -/

/-- Items are being moved: the two players are in `TRADE_TRANSFER`, their offers are off the map, and
without the two the state is a proper one. -/
structure Pending (s : State) (p q : PlayerRef) : Prop where
  inv : Inv ((s.set p {}).set q {})
  player : (s.players p).tradeState = .TRANSFER ∧ (s.players p).tradePartner = some q
  partner : (s.players q).tradeState = .TRANSFER ∧ (s.players q).tradePartner = some p

theorem leave_set_comm (s : State) {r p : PlayerRef} (hne : r ≠ p) (t : PlayerTrade) :
    (s.leave r).set p t = (s.set p t).leave r := by
  have hitem : ((s.set p t).players r).tradeItem = (s.players r).tradeItem := by
    rw [set_players, if_neg hne]
  unfold State.leave
  rw [hitem]
  cases (s.players r).tradeItem <;> exact congrArg (State.mk · _) (Function.update_comm hne _ _ _)

/-- **Nothing reaches into a transfer.** A call of `internalCloseTrade` made meanwhile ends the trade of
others, or does nothing. -/
theorem Pending.internalCloseTrade {s : State} {p q : PlayerRef} (h : Pending s p q) (r : PlayerRef) :
    Pending (s.internalCloseTrade r) p q := by
  by_cases hrp : r = p
  · subst hrp
    unfold State.internalCloseTrade
    rw [h.player.2]
    simp only [h.partner.1, true_or, if_true]
    exact h
  by_cases hrq : r = q
  · subst hrq
    unfold State.internalCloseTrade
    rw [h.partner.2]
    simp only [h.player.1, true_or, if_true]
    exact h
  -- the others look the same with and without the two
  have hsame : ∀ {r'}, r' ≠ p → r' ≠ q → ((s.set p {}).set q {}).players r' = s.players r' := by
    intro r' h₁ h₂
    rw [set_players, if_neg h₂, set_players, if_neg h₁]
  have hclose : ((s.internalCloseTrade r).set p {}).set q {} =
      ((s.set p {}).set q {}).internalCloseTrade r ∧
      (s.internalCloseTrade r).players p = s.players p ∧
      (s.internalCloseTrade r).players q = s.players q := by
    unfold State.internalCloseTrade
    rw [hsame hrp hrq]
    cases hpartner : (s.players r).tradePartner with
    | none =>
      dsimp only
      split
      · exact ⟨rfl, rfl, rfl⟩
      · refine ⟨?_, ?_, ?_⟩
        · rw [leave_set_comm _ hrp, leave_set_comm _ hrq]
        · rw [leave_players, if_neg (Ne.symm hrp)]
        · rw [leave_players, if_neg (Ne.symm hrq)]
    | some r' =>
      have hback := h.inv.symm ((congrArg _ (hsame hrp hrq)).trans hpartner)
      have hr'p : r' ≠ p := by
        rintro rfl
        rw [set_players] at hback
        split at hback
        · cases hback
        · rw [set_players, if_pos rfl] at hback
          cases hback
      have hr'q : r' ≠ q := by
        rintro rfl
        rw [set_players, if_pos rfl] at hback
        cases hback
      dsimp only
      rw [hsame hr'p hr'q]
      split
      · exact ⟨rfl, rfl, rfl⟩
      · refine ⟨?_, ?_, ?_⟩
        · rw [leave_set_comm _ hr'p, leave_set_comm _ hrp, leave_set_comm _ hr'q, leave_set_comm _ hrq]
        · rw [leave_players, if_neg (Ne.symm hr'p), leave_players, if_neg (Ne.symm hrp)]
        · rw [leave_players, if_neg (Ne.symm hr'q), leave_players, if_neg (Ne.symm hrq)]
  obtain ⟨heq, hp, hq⟩ := hclose
  refine ⟨?_, ?_, ?_⟩
  · rw [heq]
    exact h.inv.internalCloseTrade r
  · rw [hp]
    exact h.player
  · rw [hq]
    exact h.partner

theorem Pending.foldl {s : State} {p q : PlayerRef} (h : Pending s p q) (closes : List PlayerRef) :
    Pending (closes.foldl State.internalCloseTrade s) p q := by
  induction closes generalizing s with
  | nil => exact h
  | cons r rs ih => exact ih (h.internalCloseTrade r)

theorem Inv.completeTrade {s : State} (h : Inv s) {p q : PlayerRef}
    (hpq : (s.players p).tradePartner = some q) (closes : List PlayerRef) :
    Inv (s.completeTrade p q closes) := by
  have hne : q ≠ p := by
    rintro rfl
    exact h.irrefl q hpq
  have hplayers : ∀ r, ((((s.setTradeState p .TRANSFER).setTradeState q .TRANSFER).erase
      (s.players p).tradeItem).erase (s.players q).tradeItem).players r =
      if r = q then { s.players q with tradeState := .TRANSFER }
      else if r = p then { s.players p with tradeState := .TRANSFER } else s.players r := by
    intro r
    rw [erase_players, erase_players, setTradeState_players, setTradeState_players, setTradeState_players,
      if_neg hne]
  have hpending : Pending ((((s.setTradeState p .TRANSFER).setTradeState q .TRANSFER).erase
      (s.players p).tradeItem).erase (s.players q).tradeItem) p q := by
    refine ⟨?_, ?_, ?_⟩
    · refine h.dissolve (p := p) (q := q) ⟨?_, ?_⟩ (h.others_elsewhere hpq)
      · intro r
        rw [set_players, set_players, hplayers]
        by_cases hrq : r = q
        · rw [if_pos hrq, if_pos (.inr hrq)]
        · by_cases hrp : r = p
          · rw [if_neg hrq, if_pos hrp, if_pos (.inl hrp)]
          · rw [if_neg hrq, if_neg hrp, if_neg hrq, if_neg hrp, if_neg (not_or.mpr ⟨hrp, hrq⟩)]
      · intro e
        rw [← h.mem_erase_two p q e]
        exact (mem_erase _ _ e).trans (and_congr_left fun _ => mem_erase _ _ e)
    · rw [hplayers, if_neg (Ne.symm hne), if_pos rfl]
      exact ⟨rfl, hpq⟩
    · rw [hplayers, if_pos rfl]
      exact ⟨rfl, h.symm hpq⟩
  exact (hpending.foldl closes).inv

theorem Inv.playerAcceptTrade {s : State} (h : Inv s) (p : PlayerRef) (reachable hook : Bool)
    (closes : List PlayerRef) : Inv (s.playerAcceptTrade p reachable hook closes) := by
  unfold State.playerAcceptTrade
  dsimp only
  split
  · exact h
  next hstate =>
  split
  · exact h
  next q hpq =>
  split
  · exact h
  have hbusy : (s.players p).tradeState ≠ .NONE := by
    intro hnone
    rw [(h.partner_none_iff p).mpr hnone] at hpq
    cases hpq
  have haccept : Inv (s.setTradeState p .ACCEPT) :=
    h.setTradeState hbusy (fun e => nomatch e) (fun e => nomatch e) (fun e => nomatch e)
  have hpartner : ((s.setTradeState p .ACCEPT).players p).tradePartner = some q := by
    rw [setTradeState_tradePartner]
    exact hpq
  split
  · split
    · exact haccept.completeTrade hpartner closes
    · exact haccept.internalCloseTrade p
  · exact haccept

theorem Inv.step {s : State} (h : Inv s) (op : Op) : Inv (step s op) := by
  cases op with
  | playerRequestTrade p q item related checks => exact h.playerRequestTrade p q item related checks
  | playerAcceptTrade p reachable hook closes => exact h.playerAcceptTrade p reachable hook closes
  | internalCloseTrade p => exact h.internalCloseTrade p

/-- **In every run the trades are consistent.** -/
theorem run_consistent (ops : List Op) : Consistent (Runs.run step State.empty ops) :=
  (Runs.run_invariant_of_forall (fun _ op h => h.step op) empty_inv ops).consistent

end Moonlight.Trade
