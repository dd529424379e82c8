import Moonlight.Map.TileItems

/-!
# Charges of weapons

What a use takes from a weapon in a slot of a player: `Weapon::onUsedWeapon` (items/weapons/weapons.cpp), and where a
combat is to use charges, `Combat::getCombatDamage` and `ValueCallback::getMinMaxValues` (creatures/combat/combat.cpp).
All of them leave it to `Game::transformItem`, which takes a count of zero for the last charge: the item is removed, or
what it decays to is put in its place.

Combats hand on one charge less. `onUsedWeapon` assigns a condition to its number of charges, so it always hands on
zero, and `usableExactly_iff` says that a weapon then lasts for its number of charges only if that is one.

What a use costs the player besides is left out, and so are the scripts that the slots have for items.
-/

namespace Moonlight

namespace WeaponCharges

/-- What has become of a weapon: it is in its slot, or gone, with another item in its place or none. -/
inductive Hand where
  | holds (weapon : TileItem)
  | gone (newItem : Option TileItem)

/-- `WeaponAction_t`. -/
inductive WeaponAction where
  | NONE
  | REMOVECOUNT
  | REMOVECHARGE
  | MOVE
  deriving DecidableEq, Repr

/-- The fields of a `Weapon` that decide about the item. -/
structure Weapon where
  action : WeaponAction
  breakChance : UInt8

structure Config where
  REMOVE_WEAPON_AMMO : Bool
  REMOVE_WEAPON_CHARGES : Bool

section

variable (types : TileItemTypes)

/-- `Game::internalRemoveItem`, for the whole item. -/
def internalRemoveItem (x : TileItem) : Hand :=
  if x.item.count = 0 ∨ ¬ x.canRemove then .holds x else .gone none

/-- `Game::transformItem` of an item in a slot; what the call of itself gives is the argument `again`. -/
def transformOnce (again : Hand) (x : TileItem) (newId : UInt16) (newCount : Int) : Hand :=
  if x.item.id = newId ∧
      (newCount = -1 ∨ newCount = (x.item.getSubType types.items).toNat ∧ newCount ≠ 0) then .holds x
  else if !x.canTransform then .holds x
  else
    let newType := types newId
    let curType := types x.item.id
    if newType.id = 0 then .holds x
    -- it is taken out, and `Player::addThing` without a slot does nothing
    else if curType.alwaysOnTop ≠ newType.alwaysOnTop then .gone none
    else if curType.type = newType.type then
      if newCount = 0 ∧ (curType.stackable ∨ x.item.hasAttribute .CHARGES) then
        if curType.stackable then internalRemoveItem x
        else
          let newItemId := if curType.id = newType.id then curType.decayTo else newId.toNat
          if newItemId < 0 then internalRemoveItem x
          else if newItemId ≠ newId.toNat then
            match TileItem.create types (UInt16.ofInt newItemId) 1 with
            | none => .holds x
            | some newItem => .gone (some newItem)
          else again
      else
        let count := x.item.getSubType types.items
        let item :=
          if curType.id ≠ newType.id ∧ newType.group ≠ curType.group then x.item.setDefaultSubtype types.items
          else x.item
        let itemId := if curType.id ≠ newType.id then newId else x.item.id
        let count := if newCount ≠ -1 ∧ newType.hasSubType then UInt16.ofInt newCount else count
        .holds { x with item := (item.setID types.items itemId).setSubType types.items count }
    else
      match TileItem.create types newId (if newCount = -1 then 0 else UInt16.ofInt newCount) with
      | none => .holds x
      | some newItem => .gone (some newItem)

def transformItem (x : TileItem) (newId : UInt16) (newCount : Int) : Hand :=
  transformOnce types (transformOnce types (.holds x) x newId (-1)) x newId newCount

/-- `Weapon::decrementItemCount`. -/
def decrementItemCount (x : TileItem) : Hand :=
  if 1 < x.item.count then transformItem types x x.item.id (x.item.count.toNat - 1) else internalRemoveItem x

/-- `Weapon::onUsedWeapon`, what it does to the item; `roll` is the random number, and `moved` what is left of an item
when one of it lies on the tile. -/
def onUsedWeapon (config : Config) (weapon : Weapon) (roll : Nat) (moved : TileItem → Hand) (x : TileItem) : Hand :=
  if weapon.breakChance ≠ 0 ∧ roll ≤ weapon.breakChance.toNat then decrementItemCount types x
  else
    match weapon.action with
    | .REMOVECOUNT => if config.REMOVE_WEAPON_AMMO then decrementItemCount types x else .holds x
    | .REMOVECHARGE =>
      -- the whole condition is the number
      let charges : UInt16 := if x.item.getCharges ≠ 0 ∧ config.REMOVE_WEAPON_CHARGES then 1 else 0
      if charges ≠ 0 then transformItem types x x.item.id (charges.toNat - 1) else .holds x
    | .MOVE => moved x
    | .NONE => .holds x

/-- What a combat with `useCharges` does to the tool. -/
def useCharge (useCharges : Bool) (tool : TileItem) : Hand :=
  if useCharges then
    let charges := tool.item.getCharges
    if charges ≠ 0 then transformItem types tool tool.item.id (charges.toNat - 1) else .holds tool
  else .holds tool

/-- `Combat::getCombatDamage`, what it does to the tool. -/
def getCombatDamage (useCharges : Bool) (tool : TileItem) : Hand := useCharge types useCharges tool

/-- `ValueCallback::getMinMaxValues`, what it does to the tool. -/
def getMinMaxValues (useCharges : Bool) (tool : TileItem) : Hand := useCharge types useCharges tool

end

/-! ### Uses one after the other -/

/-- A weapon that is gone is not used again. -/
def useAgain (use : TileItem → Hand) : Hand → Hand
  | .holds x => use x
  | .gone newItem => .gone newItem

def uses (use : TileItem → Hand) : Nat → Hand → Hand
  | 0, hand => hand
  | n + 1, hand => uses use n (useAgain use hand)

/-- There are so many charges left in the weapon. -/
def Left (x : TileItem) (n : Nat) (hand : Hand) : Prop :=
  ∃ x', hand = .holds x' ∧ x'.item.id = x.item.id ∧ x'.item.getCharges.toNat = n

def Gone (hand : Hand) : Prop := ∃ newItem, hand = .gone newItem

/-- A weapon loses a charge with each use, and with the last one it is gone. -/
def UsableExactly (use : TileItem → Hand) (x : TileItem) : Prop :=
  (∀ n < x.item.getCharges.toNat, Left x (x.item.getCharges.toNat - n) (uses use n (.holds x))) ∧
    Gone (uses use x.item.getCharges.toNat (.holds x))

theorem usableExactly_one {use : TileItem → Hand} {x : TileItem} (h : x.item.getCharges.toNat = 1) :
    UsableExactly use x ↔ Gone (use x) := by
  rw [UsableExactly, h]
  constructor
  · intro huses
    exact huses.2
  · intro hgone
    refine ⟨fun n hn => ?_, hgone⟩
    rw [Nat.lt_one_iff.mp hn]
    exact ⟨x, rfl, rfl, h⟩

theorem usableExactly_left {use : TileItem → Hand} {x x' : TileItem} (huse : use x = .holds x')
    (hid : x'.item.id = x.item.id) (h : x.item.getCharges.toNat = x'.item.getCharges.toNat + 1) :
    UsableExactly use x ↔ UsableExactly use x' := by
  have hstep (n : Nat) : uses use (n + 1) (.holds x) = uses use n (.holds x') := by rw [uses, useAgain, huse]
  have hleft (n : Nat) (hand : Hand) : Left x n hand ↔ Left x' n hand := by rw [Left, Left, hid]
  rw [UsableExactly, UsableExactly, h]
  constructor
  · rintro ⟨huses, hgone⟩
    refine ⟨fun n hn => ?_, hstep _ ▸ hgone⟩
    have hlater := huses (n + 1) (by omega)
    rwa [hstep, Nat.add_sub_add_right, hleft] at hlater
  · rintro ⟨huses, hgone⟩
    refine ⟨fun n hn => ?_, (hstep _).symm ▸ hgone⟩
    cases n with
    | zero => exact ⟨x, rfl, rfl, h⟩
    | succ n =>
      rw [hstep, Nat.add_sub_add_right, hleft]
      exact huses n (by omega)

theorem UsableExactly.first {use : TileItem → Hand} {x : TileItem} (h : UsableExactly use x)
    (hcharges : 1 < x.item.getCharges.toNat) : Left x (x.item.getCharges.toNat - 1) (use x) := h.1 1 hcharges

/-! ### What a use does -/

section

variable (types : TileItemTypes)

/-- An item that is transformed when its last charge is used is gone then: it can be removed, or it decays to an item
of another type. -/
def Ends (x : TileItem) : Prop :=
  x.canTransform = true ∧ (types x.item.id).id ≠ 0 ∧
    if (types x.item.id).stackable ∨ (types x.item.id).decayTo < 0 then x.item.count ≠ 0 ∧ x.canRemove = true
    else (types x.item.id).decayTo ≠ x.item.id.toNat ∧
      (TileItem.create types (UInt16.ofInt (types x.item.id).decayTo) 1).isSome = true

/-- The items of a type have charges for a subtype. -/
def IsCharged (id : UInt16) : Prop :=
  let it := types.items id
  it.isFluidContainer = false ∧ it.isSplash = false ∧ it.stackable = false ∧ it.charges ≠ 0

end

section

variable {types : TileItemTypes} {x : TileItem}

theorem hasAttribute_of_charges (h : x.item.getCharges ≠ 0) : x.item.hasAttribute .CHARGES = true := by
  rw [Item.hasAttribute_eq]
  cases hlookup : x.item.lookup .CHARGES with
  | some value => rfl
  | none =>
    refine absurd ?_ h
    rw [Item.getCharges, Item.getIntAttr_eq, hlookup]
    rfl

theorem getCharges_setIntAttr (item : Item) {type : ItemAttrTypes} (htype : ItemAttrTypes.CHARGES ≠ type)
    (hint : type.isIntAttrType = true) (n : Int) : (item.setIntAttr type n).getCharges = item.getCharges := by
  rw [Item.getCharges, Item.getIntAttr_setIntAttr_of_ne item hint n htype, Item.getCharges]

theorem getCharges_removeAttribute (item : Item) {type : ItemAttrTypes} (htype : ItemAttrTypes.CHARGES ≠ type) :
    (item.removeAttribute type).getCharges = item.getCharges := by
  rw [Item.getCharges, Item.getIntAttr_removeAttribute_of_ne item htype, Item.getCharges]

theorem getCharges_setDecaying (item : Item) (state : ItemDecayState) :
    (item.setDecaying state).getCharges = item.getCharges ∧ (item.setDecaying state).count = item.count := by
  rw [Item.setDecaying]
  split
  · rw [getCharges_removeAttribute _ (by decide), getCharges_setIntAttr _ (by decide) (by decide)]
    exact ⟨rfl, rfl⟩
  · rw [getCharges_setIntAttr _ (by decide) (by decide)]
    exact ⟨rfl, rfl⟩

theorem getCharges_setID (items : Items) (item : Item) (newid : UInt16) :
    (item.setID items newid).getCharges = item.getCharges ∧ (item.setID items newid).count = item.count := by
  have hstop (item : Item) (it : ItemType) (n : ℕ) :
      (item.stopForType it n).getCharges = item.getCharges ∧ (item.stopForType it n).count = item.count := by
    rw [Item.stopForType]
    split
    · rw [getCharges_removeAttribute _ (by decide)]
      split
      · exact getCharges_setDecaying item _
      · exact ⟨rfl, rfl⟩
    · exact ⟨rfl, rfl⟩
  have hdrop (item : Item) :
      item.dropCorpseOwner.getCharges = item.getCharges ∧ item.dropCorpseOwner.count = item.count := by
    rw [Item.dropCorpseOwner]
    split
    · exact ⟨rfl, rfl⟩
    · exact ⟨getCharges_removeAttribute item (by decide), rfl⟩
  obtain ⟨hstopCharges, hstopCount⟩ :=
    hstop { item with id := newid } (items newid) ((items newid).decayTime * 1000 % 2 ^ 32)
  obtain ⟨hdropCharges, hdropCount⟩ :=
    hdrop ({ item with id := newid }.stopForType (items newid) ((items newid).decayTime * 1000 % 2 ^ 32))
  have hcharges := hdropCharges.trans hstopCharges
  have hcount := hdropCount.trans hstopCount
  rw [Item.setID]
  split
  · rw [Item.setDuration, getCharges_setIntAttr _ (by decide) (by decide)]
    exact ⟨(getCharges_setDecaying _ _).1.trans hcharges, (getCharges_setDecaying _ _).2.trans hcount⟩
  · exact ⟨hcharges, hcount⟩

theorem getCharges_setSubType {item : Item} (h : ¬ IsCharged types item.id) (n : UInt16) :
    (item.setSubType types.items n).getCharges = item.getCharges := by
  rw [Item.setSubType]
  split
  · exact getCharges_setIntAttr item (by decide) (by decide) _
  · rename_i hfluid
    split
    · rfl
    · rename_i hstack
      split
      · rename_i hcharges
        rw [Bool.or_eq_true, not_or, Bool.not_eq_true, Bool.not_eq_true] at hfluid
        exact absurd ⟨hfluid.1, hfluid.2, by simpa using hstack, by simpa using hcharges⟩ h
      · rfl

theorem setSubType_charged {item : Item} (h : IsCharged types item.id) (n : UInt16) :
    item.setSubType types.items n = item.setCharges n := by
  obtain ⟨hfluid, hsplash, hstack, hcharges⟩ := h
  rw [Item.setSubType]
  simp [hfluid, hsplash, hstack, hcharges]

theorem getSubType_charged {item : Item} (h : IsCharged types item.id) :
    item.getSubType types.items = item.getCharges := by
  obtain ⟨hfluid, hsplash, hstack, hcharges⟩ := h
  rw [Item.getSubType]
  simp [hfluid, hsplash, hstack, hcharges]

theorem getCharges_setCharges (item : Item) (n : UInt16) : (item.setCharges n).getCharges = n := by
  rw [Item.setCharges, Item.getCharges, Item.getIntAttr_setIntAttr_self item (by decide)]
  exact Words.uint16_ofInt n

theorem toNat_ofInt {n : ℕ} (h : n < 2 ^ 16) : (UInt16.ofInt n).toNat = n := by
  rw [UInt16.ofInt, UInt16.toNat_ofNat']
  omega

/-- What `transformItem` does with an item that keeps its id and is used up. -/
def useUp (types : TileItemTypes) (x : TileItem) : Hand :=
  if (types x.item.id).stackable ∨ (types x.item.id).decayTo < 0 then internalRemoveItem x
  else if (types x.item.id).decayTo ≠ x.item.id.toNat then
    match TileItem.create types (UInt16.ofInt (types x.item.id).decayTo) 1 with
    | none => .holds x
    | some newItem => .gone (some newItem)
  else .holds x

theorem transformOnce_same (again : Hand) : transformOnce types again x x.item.id (-1) = .holds x := by
  rw [transformOnce, if_pos ⟨rfl, .inl rfl⟩]

theorem transformItem_self {newCount : Int} (hcount : newCount ≠ -1)
    (hnew : newCount = (x.item.getSubType types.items).toNat → newCount = 0) :
    transformItem types x x.item.id newCount =
      if x.canTransform = false ∨ (types x.item.id).id = 0 then .holds x
      else if newCount = 0 ∧ ((types x.item.id).stackable ∨ x.item.hasAttribute .CHARGES) then useUp types x
      else .holds { x with
        item := (x.item.setID types.items x.item.id).setSubType types.items
          (if (types x.item.id).hasSubType then UInt16.ofInt newCount else x.item.getSubType types.items) } := by
  have hchange : ¬ (x.item.id = x.item.id ∧
      (newCount = -1 ∨ newCount = (x.item.getSubType types.items).toNat ∧ newCount ≠ 0)) := by
    rintro ⟨-, hminus | ⟨hsub, hzero⟩⟩
    · exact hcount hminus
    · exact hzero (hnew hsub)
  rw [transformItem, transformOnce_same, transformOnce, if_neg hchange]
  cases htransform : x.canTransform with
  | false => rfl
  | true =>
    by_cases hknown : (types x.item.id).id = 0
    · rw [if_neg nofun, if_pos (Or.inr hknown)]
      exact if_pos hknown
    · have hgoes : ¬ (true = false ∨ (types x.item.id).id = 0) := by
        rintro (h | h)
        · cases h
        · exact hknown h
      rw [if_neg nofun, if_neg hgoes]
      dsimp only
      rw [if_neg hknown, if_neg (not_not.mpr rfl), if_pos rfl]
      by_cases hzero : newCount = 0 ∧ ((types x.item.id).stackable ∨ x.item.hasAttribute .CHARGES)
      · rw [if_pos hzero, if_pos hzero, useUp, if_pos rfl]
        by_cases hstack : (types x.item.id).stackable = true
        · rw [if_pos hstack, if_pos (Or.inl hstack)]
        · rw [if_neg hstack]
          by_cases hdecay : (types x.item.id).decayTo < 0
          · rw [if_pos hdecay, if_pos (Or.inr hdecay)]
          · rw [if_neg hdecay, if_neg (not_or.mpr ⟨hstack, hdecay⟩)]
      · rw [if_neg hzero, if_neg hzero, if_neg (fun h => h.1 rfl), if_neg (not_not.mpr rfl)]
        simp [hcount]

theorem useUp_cases (htransform : x.canTransform = true) (hknown : (types x.item.id).id ≠ 0) :
    Ends types x ∧ Gone (useUp types x) ∨ ¬ Ends types x ∧ useUp types x = .holds x := by
  rw [Ends, useUp]
  by_cases hremoved : (types x.item.id).stackable = true ∨ (types x.item.id).decayTo < 0
  · rw [if_pos hremoved, if_pos hremoved, internalRemoveItem]
    by_cases hstays : x.item.count = 0 ∨ ¬ x.canRemove = true
    · rw [if_pos hstays]
      refine .inr ⟨fun hends => ?_, rfl⟩
      rcases hstays with hcount | hremove
      · exact hends.2.2.1 hcount
      · exact hremove hends.2.2.2
    · rw [if_neg hstays]
      rw [not_or, not_not] at hstays
      exact .inl ⟨⟨htransform, hknown, hstays⟩, none, rfl⟩
  · rw [if_neg hremoved, if_neg hremoved]
    by_cases hother : (types x.item.id).decayTo ≠ x.item.id.toNat
    · rw [if_pos hother]
      cases hcreate : TileItem.create types (UInt16.ofInt (types x.item.id).decayTo) 1 with
      | none => exact .inr ⟨fun hends => Bool.noConfusion hends.2.2.2, rfl⟩
      | some newItem => exact .inl ⟨⟨htransform, hknown, hother, rfl⟩, some newItem, rfl⟩
    · rw [if_neg hother]
      exact .inr ⟨fun hends => hother hends.2.2.1, rfl⟩

theorem transformItem_zero (h : x.item.getCharges ≠ 0) :
    Ends types x ∧ Gone (transformItem types x x.item.id 0) ∨
      ¬ Ends types x ∧ transformItem types x x.item.id 0 = .holds x := by
  rw [transformItem_self (by decide) fun _ => rfl]
  by_cases hstays : x.canTransform = false ∨ (types x.item.id).id = 0
  · rw [if_pos hstays]
    refine .inr ⟨fun hends => ?_, rfl⟩
    rcases hstays with htransform | hunknown
    · exact Bool.noConfusion (htransform.symm.trans hends.1)
    · exact hends.2.1 hunknown
  · rw [if_neg hstays, if_pos ⟨rfl, .inr (hasAttribute_of_charges h)⟩]
    rw [not_or, Bool.not_eq_false] at hstays
    exact useUp_cases hstays.1 hstays.2

theorem ends_congr {x' : TileItem} (hid : x'.item.id = x.item.id) (hcount : x'.item.count = x.item.count)
    (htransform : x'.canTransform = x.canTransform) (hremove : x'.canRemove = x.canRemove) :
    Ends types x' ↔ Ends types x := by
  rw [Ends, Ends, hid, hcount, htransform, hremove]

theorem transformItem_charged {n : ℕ} (hn : 0 < n) (h : x.item.getCharges.toNat = n + 1)
    (htransform : x.canTransform = true) (hknown : (types x.item.id).id ≠ 0) (hcharged : IsCharged types x.item.id) :
    ∃ x', transformItem types x x.item.id n = .holds x' ∧ x'.item.id = x.item.id ∧
      x'.item.getCharges.toNat = n ∧ (Ends types x' ↔ Ends types x) := by
  have hlt : n < 2 ^ 16 := by
    have := x.item.getCharges.toNat_lt
    omega
  have hsub : x.item.getSubType types.items = x.item.getCharges := getSubType_charged hcharged
  have hgoes : ¬ (x.canTransform = false ∨ (types x.item.id).id = 0) := by
    rw [htransform]
    rintro (h | h)
    · cases h
    · exact hknown h
  have hleft : ¬ ((n : Int) = 0 ∧ ((types x.item.id).stackable = true ∨ x.item.hasAttribute .CHARGES = true)) := by
    rintro ⟨hzero, -⟩
    omega
  have hsubType : (types x.item.id).hasSubType = true := by
    obtain ⟨-, -, -, hcharges⟩ := hcharged
    rw [ItemType.hasSubType, Bool.or_eq_true]
    exact .inr (bne_iff_ne.mpr hcharges)
  have hid : (x.item.setID types.items x.item.id).id = x.item.id := Item.setID_id _ _ _
  rw [transformItem_self (by omega) (by rw [hsub, h]; omega), if_neg hgoes, if_neg hleft, if_pos hsubType,
    setSubType_charged (by rwa [hid])]
  refine ⟨_, rfl, hid, ?_, ?_⟩
  · dsimp only
    rw [getCharges_setCharges, toNat_ofInt hlt]
  · have hcount := (getCharges_setID types.items x.item x.item.id).2
    exact ends_congr hid hcount rfl rfl

theorem charged_of_left {n : ℕ} (hn : 0 < n) (h : x.item.getCharges.toNat = n + 1)
    (hleft : Left x n (transformItem types x x.item.id n)) :
    x.canTransform = true ∧ (types x.item.id).id ≠ 0 ∧ IsCharged types x.item.id := by
  -- otherwise the weapon that is left has all its charges
  have hkeeps {x' : TileItem} (hresult : transformItem types x x.item.id n = .holds x')
      (hcharges : x'.item.getCharges = x.item.getCharges) : False := by
    obtain ⟨x'', hhand, -, hn'⟩ := hleft
    cases hresult.symm.trans hhand
    rw [hcharges] at hn'
    omega
  by_cases hsub : (n : Int) = (x.item.getSubType types.items).toNat
  · refine (hkeeps ?_ rfl).elim
    rw [transformItem, transformOnce, if_pos ⟨rfl, .inr ⟨hsub, by omega⟩⟩]
  · have hself := @transformItem_self types x n (by omega) fun heq => absurd heq hsub
    by_cases hstays : x.canTransform = false ∨ (types x.item.id).id = 0
    · rw [if_pos hstays] at hself
      exact (hkeeps hself rfl).elim
    · rw [if_neg hstays, if_neg fun hzero => by omega] at hself
      rw [not_or, Bool.not_eq_false] at hstays
      refine ⟨hstays.1, hstays.2, ?_⟩
      by_contra hcharged
      refine hkeeps hself ?_
      have hid : (x.item.setID types.items x.item.id).id = x.item.id := Item.setID_id _ _ _
      show (Item.setSubType types.items _ _).getCharges = _
      rw [getCharges_setSubType (by rwa [hid]), (getCharges_setID types.items x.item x.item.id).1]

/-! ### When the uses come out -/

theorem usableExactly_useCharge_iff (h : x.item.getCharges ≠ 0) : UsableExactly (useCharge types true) x ↔
    (1 < x.item.getCharges.toNat → IsCharged types x.item.id) ∧ Ends types x := by
  have huse (y : TileItem) (hy : y.item.getCharges ≠ 0) :
      useCharge types true y = transformItem types y y.item.id (y.item.getCharges.toNat - 1) := by
    rw [useCharge, if_pos rfl]
    exact if_pos hy
  generalize hn : x.item.getCharges.toNat = n at *
  induction n generalizing x with
  | zero => exact absurd (UInt16.toNat_inj.mp hn) h
  | succ n ih =>
    rcases Nat.eq_zero_or_pos n with rfl | hpos
    · rw [usableExactly_one hn, huse x h, hn]
      have hone : ¬ 1 < 0 + 1 := by omega
      rcases @transformItem_zero types x h with ⟨hends, hgone⟩ | ⟨hends, hholds⟩
      · exact iff_of_true hgone ⟨fun hlt => absurd hlt hone, hends⟩
      · refine iff_of_false ?_ fun hright => hends hright.2
        show ¬ Gone (transformItem types x x.item.id 0)
        rw [hholds]
        rintro ⟨newItem, heq⟩
        cases heq
    · have hcast : ((n + 1 : ℕ) : Int) - 1 = n := by omega
      have hfirst : useCharge types true x = transformItem types x x.item.id n := by rw [huse x h, hn, hcast]
      by_cases hright : x.canTransform = true ∧ (types x.item.id).id ≠ 0 ∧ IsCharged types x.item.id
      · obtain ⟨htransform, hknown, hcharged⟩ := hright
        obtain ⟨x', hresult, hid, hn', hends⟩ := transformItem_charged hpos hn htransform hknown hcharged
        have hleft : x'.item.getCharges ≠ 0 := by
          intro hzero
          rw [hzero] at hn'
          exact hpos.ne hn'
        refine (usableExactly_left (hfirst.trans hresult) hid (by rw [hn, hn'])).trans ((ih hleft hn').trans ?_)
        rw [hid, hends]
        exact ⟨fun hlater => ⟨fun _ => hcharged, hlater.2⟩, fun hnow => ⟨fun _ => hcharged, hnow.2⟩⟩
      · refine iff_of_false (fun huses => hright ?_) fun hends => hright ?_
        · have hleft := huses.first (by omega)
          rw [hfirst, hn] at hleft
          exact charged_of_left hpos hn hleft
        · exact ⟨hends.2.1, hends.2.2.1, hends.1 (by omega)⟩

theorem usableExactly_onUsedWeapon_iff {config : Config} (hconfig : config.REMOVE_WEAPON_CHARGES = true)
    {weapon : Weapon} (haction : weapon.action = .REMOVECHARGE) {roll : ℕ}
    (hbreak : ¬ (weapon.breakChance ≠ 0 ∧ roll ≤ weapon.breakChance.toNat)) (moved : TileItem → Hand)
    (h : x.item.getCharges ≠ 0) : UsableExactly (onUsedWeapon types config weapon roll moved) x ↔
      x.item.getCharges.toNat = 1 ∧ Ends types x := by
  have huse : onUsedWeapon types config weapon roll moved x = transformItem types x x.item.id 0 := by
    rw [onUsedWeapon, if_neg hbreak, haction]
    have hcharges : (if x.item.getCharges ≠ 0 ∧ config.REMOVE_WEAPON_CHARGES = true then (1 : UInt16) else 0) = 1 :=
      if_pos ⟨h, hconfig⟩
    dsimp only
    rw [hcharges]
    rfl
  have hcases := @transformItem_zero types x h
  by_cases hone : x.item.getCharges.toNat = 1
  · rw [usableExactly_one hone, huse]
    rcases hcases with ⟨hends, hgone⟩ | ⟨hends, hholds⟩
    · exact iff_of_true hgone ⟨hone, hends⟩
    · refine iff_of_false ?_ fun hright => hends hright.2
      rw [hholds]
      rintro ⟨newItem, heq⟩
      cases heq
  · refine iff_of_false (fun huses => ?_) fun hright => hone hright.1
    have hpos : 0 < x.item.getCharges.toNat := Nat.pos_of_ne_zero fun hzero => h (UInt16.toNat_inj.mp hzero)
    obtain ⟨x', hhand, -, hn'⟩ := huses.first (by omega)
    rw [huse] at hhand
    rcases hcases with ⟨-, newItem, hgone⟩ | ⟨-, hholds⟩
    · cases hgone.symm.trans hhand
    · cases hholds.symm.trans hhand
      omega

/-- **When weapons last for their charges.** -/
theorem usableExactly_iff {config : Config} (hconfig : config.REMOVE_WEAPON_CHARGES = true) {weapon : Weapon}
    (haction : weapon.action = .REMOVECHARGE) {roll : ℕ}
    (hbreak : ¬ (weapon.breakChance ≠ 0 ∧ roll ≤ weapon.breakChance.toNat)) (moved : TileItem → Hand)
    (h : x.item.getCharges ≠ 0) :
    (UsableExactly (onUsedWeapon types config weapon roll moved) x ∧ UsableExactly (getCombatDamage types true) x ∧
        UsableExactly (getMinMaxValues types true) x ↔ x.item.getCharges.toNat = 1 ∧ Ends types x) ∧
      (UsableExactly (getCombatDamage types true) x ↔
        (1 < x.item.getCharges.toNat → IsCharged types x.item.id) ∧ Ends types x) ∧
      (UsableExactly (getMinMaxValues types true) x ↔
        (1 < x.item.getCharges.toNat → IsCharged types x.item.id) ∧ Ends types x) := by
  have hweapon := @usableExactly_onUsedWeapon_iff types x _ hconfig _ haction _ hbreak moved h
  have hcombat : UsableExactly (getCombatDamage types true) x ↔ _ := usableExactly_useCharge_iff h
  have hcallback : UsableExactly (getMinMaxValues types true) x ↔ _ := usableExactly_useCharge_iff h
  refine ⟨?_, hcombat, hcallback⟩
  rw [hweapon, hcombat, hcallback]
  constructor
  · intro hall
    exact hall.1
  · rintro ⟨hone, hends⟩
    have hlast : 1 < x.item.getCharges.toNat → IsCharged types x.item.id := by
      rw [hone]
      intro hlt
      omega
    exact ⟨⟨hone, hends⟩, ⟨hlast, hends⟩, hlast, hends⟩

end

/-- A weapon with charges. -/
def swordTypes : TileItemTypes := fun id => { id := id, type := .NONE, charges := 3 }

def sword (charges : UInt16) : TileItem := { item := ({ id := 7774 } : Item).setCharges charges }

def removing : Config := ⟨true, true⟩

def swordWeapon : Weapon := ⟨.REMOVECHARGE, 0⟩

theorem sword_ends : Ends swordTypes (sword 1) := ⟨rfl, by decide, by decide⟩

theorem usableExactly_iff_sword :
    UsableExactly (onUsedWeapon swordTypes removing swordWeapon 0 .holds) (sword 1) :=
  ((usableExactly_iff rfl rfl (by decide) .holds (by decide)).1.mpr ⟨by decide, sword_ends⟩).1

/-- A weapon with three charges is gone after one use. -/
theorem sword_not_usableExactly : ¬ ∀ (types : TileItemTypes) (config : Config) (weapon : Weapon) (roll : ℕ)
    (moved : TileItem → Hand) (x : TileItem), config.REMOVE_WEAPON_CHARGES = true → weapon.action = .REMOVECHARGE →
      ¬ (weapon.breakChance ≠ 0 ∧ roll ≤ weapon.breakChance.toNat) → x.item.getCharges ≠ 0 →
        UsableExactly (onUsedWeapon types config weapon roll moved) x ∧
          UsableExactly (getCombatDamage types true) x ∧ UsableExactly (getMinMaxValues types true) x := by
  intro h
  have hsword := (h swordTypes removing swordWeapon 0 .holds (sword 3) rfl rfl (by decide) (by decide)).1
  rw [usableExactly_onUsedWeapon_iff rfl rfl (by decide) .holds (by decide)] at hsword
  exact absurd hsword.1 (by decide)

end WeaponCharges

end Moonlight
