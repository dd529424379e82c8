import Moonlight.Items.AttributeLaws
import Moonlight.Items.InboxTransfer
import Moonlight.Utils.Texts

/-!
# Mailboxes

`Mailbox::sendItem` (items/containers/mailbox/mailbox.cpp) moves a parcel or a letter from the tile of a mailbox into
the inbox of the player whose name is on it, and stamps it there. A player who is not online is loaded for that and
saved.

Only the move may fail, and nothing has happened before it: `transformItem` stamps an item where it is, since the types
of stamped mail are those of the mail itself but for their ids (`Stamps`). So mail is delivered once or not at all
(`sendItem_once`), in the same way online and offline.
-/

namespace Moonlight

namespace Mailbox

open RoseTree InboxTransfer
open Texts (trimString getFirstLine)

abbrev ITEM_PARCEL : UInt16 := 3503

abbrev ITEM_PARCEL_STAMPED : UInt16 := 3504

abbrev ITEM_LETTER : UInt16 := 3505

abbrev ITEM_LETTER_STAMPED : UInt16 := 3506

abbrev ITEM_LABEL : UInt16 := 3507

def getText (item : Item) : Bytes := item.getStrAttr .TEXT

def getWriter (item : Item) : Bytes := item.getStrAttr .WRITER

def getDate (item : Item) : Int := item.getIntAttr .DATE

def canSend (a : Article) : Bool := a.item.id == ITEM_PARCEL || a.item.id == ITEM_LETTER

/-! ### Who receives it -/

mutual

/-- `Mailbox::getReceiver`. -/
def getReceiver : RoseTree Article → Option Bytes
  | .node a held =>
    if a.isContainer then labelReceiver held
    else if getText a.item = [] then none
    else some (trimString 32 (getFirstLine 10 (getText a.item)))

/-- The loop over the items of a container. -/
def labelReceiver : List (RoseTree Article) → Option Bytes
  | [] => none
  | t :: itemlist =>
    if t.label.item.id = ITEM_LABEL then
      match getReceiver t with
      | some name => some name
      | none => labelReceiver itemlist
    else labelReceiver itemlist

end

mutual

/-- The texts of an item that is no container, or of the labels in it. -/
def texts : RoseTree Article → List Bytes
  | .node a held => if a.isContainer then labelTexts held else [getText a.item]

def labelTexts : List (RoseTree Article) → List Bytes
  | [] => []
  | t :: itemlist => if t.label.item.id = ITEM_LABEL then texts t ++ labelTexts itemlist else labelTexts itemlist

end

/-- The name in the first line of a text. -/
def nameOn (text : Bytes) : Bytes := trimString 32 (getFirstLine 10 text)

mutual

theorem getReceiver_eq (t : RoseTree Article) :
    getReceiver t = ((texts t).find? fun text => text ≠ []).map nameOn := by
  obtain ⟨a, held⟩ := t
  rw [getReceiver, texts]
  split
  · exact labelReceiver_eq held
  · by_cases htext : getText a.item = []
    · rw [if_pos htext, htext]
      rfl
    · have hfind : [getText a.item].find? (fun text => text ≠ []) = some (getText a.item) :=
        List.find?_cons_of_pos (decide_eq_true htext)
      rw [if_neg htext, hfind]
      rfl

theorem labelReceiver_eq (itemlist : List (RoseTree Article)) :
    labelReceiver itemlist = ((labelTexts itemlist).find? fun text => text ≠ []).map nameOn := by
  cases itemlist with
  | nil =>
    rw [labelReceiver, labelTexts]
    rfl
  | cons t itemlist =>
    rw [labelReceiver, labelTexts, labelReceiver_eq itemlist, getReceiver_eq t]
    split
    · rw [List.find?_append]
      cases (texts t).find? fun text => text ≠ [] with
      | none => rfl
      | some text => rfl
    · rfl

end

/-! ### The players -/

def sameName (name name' : Bytes) : Bool :=
  ItemAttributes.toLowerCaseString name == ItemAttributes.toLowerCaseString name'

/-- A player, or what is loaded of one. -/
structure Addressee where
  name : Bytes
  inbox : RoseTree Article

/-- The inbox of the player with a name becomes another one. -/
def Addressee.update (name : Bytes) (inbox : RoseTree Article) (p : Addressee) : Addressee :=
  if sameName p.name name then { p with inbox } else p

theorem Addressee.update_name (name : Bytes) (inbox : RoseTree Article) (p : Addressee) :
    (p.update name inbox).name = p.name := by
  rw [update]
  split
  · rfl
  · rfl

/-- What loads and saves players, faithfully. -/
structure Database (D : Type) where
  loadPlayerByName : D → Bytes → Option Addressee
  savePlayer : Addressee → D → D
  load_name : ∀ d name p, loadPlayerByName d name = some p → sameName p.name name = true
  load_save : ∀ d name p, (loadPlayerByName d name).isSome = true → sameName p.name name = true →
    loadPlayerByName (savePlayer p d) name = some p
  load_save_other : ∀ d name p, sameName p.name name = false →
    loadPlayerByName (savePlayer p d) name = loadPlayerByName d name

/-- The tile of a mailbox, the players who are online and what is saved of all players. -/
structure World (D : Type) where
  tile : List (RoseTree Article)
  online : List Addressee
  database : D
  /-- `setDate` has 32 bits. -/
  dates : ∀ t ∈ tile, Words.FitsInt32 (getDate t.label.item)
  /-- Only doors do not transform. -/
  transformable : ∀ t ∈ tile, canSend t.label = true → t.label.canTransform = true
  names : ∀ p ∈ online, ∀ q ∈ online, sameName p.name q.name = true → p = q

variable {D : Type} (db : Database D) (types : WareTypes)

/-- `Game::getPlayerByName`. -/
def getPlayerByName (online : List Addressee) (name : Bytes) : Option Addressee :=
  if name = [] then none else online.find? fun p => sameName p.name name

namespace World

variable (w : World D)

/-- `removeThing` of the tile. -/
def removeThing (item : RoseTree Article) : World D :=
  { w with
    tile := w.tile.filter fun t => t.label.ref ≠ item.label.ref
    dates := fun t ht => w.dates t (List.mem_filter.mp ht).1
    transformable := fun t ht => w.transformable t (List.mem_filter.mp ht).1 }

/-- The inbox of a player who is online changes. -/
def setInbox (player : Addressee) (inbox : RoseTree Article) : World D :=
  { w with
    online := w.online.map (Addressee.update player.name inbox)
    names := by
      rw [List.forall_mem_map]
      intro p hp
      rw [List.forall_mem_map]
      intro q hq hsame
      rw [Addressee.update_name, Addressee.update_name] at hsame
      rw [w.names p hp q hq hsame] }

/-- The inbox of the player with a name: of the one who is online, or else the one that is saved. -/
def inboxOf (name : Bytes) : Option (RoseTree Article) :=
  match getPlayerByName w.online name with
  | some player => some player.inbox
  | none => (db.loadPlayerByName w.database name).map Addressee.inbox

end World

/-! ### Sending -/

/-- What `sendItem` reads of a letter that someone has written: writer, date and text. -/
def writing (now : Int) (item : Item) : Bytes × Int × Bytes :=
  if item.id = ITEM_LETTER ∧ getWriter item ≠ [] then (getWriter item, getDate item, getText item) else ([], now, [])

/-- What is written on a stamped letter. -/
def write (writing : Bytes × Int × Bytes) (a : Article) : Article :=
  if a.item.id = ITEM_LETTER_STAMPED ∧ writing.1 ≠ [] then
    { a with
      item := ((a.item.setStrAttr .WRITER writing.1).setIntAttr .DATE (Words.toInt32 writing.2.1)).setStrAttr .TEXT
        writing.2.2 }
  else a

/-- What an item has become once it is in the inbox, as the first one there: `newItem`, if there is one. Of a stack a
clone has been moved, and what is left of the stack is nowhere. -/
def stamp (fresh : Nat) (now : Int) (item : RoseTree Article) : RoseTree Article :=
  if (types item.label.item.id).stackable then item
  else
    let write := write (writing now item.label.item)
    match transformItem types fresh item.label (item.label.item.id + 1) with
    | .same => .node (write item.label) item.children
    | .readded a => .node (write a) item.children
    | .updated a => .node (write a) item.children
    | .replaced newItem => .node (write newItem) []
    | .failed => item

/-- `Mailbox::sendItem`, at the time `now`. -/
def sendItem (fresh : Nat) (now : Int) (w : World D) (item : RoseTree Article) : Bool × World D :=
  match getReceiver item with
  | none => (false, w)
  | some receiver =>
    if receiver = [] then (false, w)
    else
      match getPlayerByName w.online receiver with
      | some player =>
        match queryMove types player.inbox item false with
        | .NOERROR => (true, (w.removeThing item).setInbox player (addThing player.inbox (stamp types fresh now item)))
        | _ => (false, w)
      | none =>
        match db.loadPlayerByName w.database receiver with
        | none => (false, w)
        | some tmpPlayer =>
          match queryMove types tmpPlayer.inbox item false with
          | .NOERROR =>
            let inbox := addThing tmpPlayer.inbox (stamp types fresh now item)
            (true, { w.removeThing item with database := db.savePlayer { tmpPlayer with inbox } w.database })
          | _ => (false, w)

/-! ### The stamp -/

/-- What is true of the types of mail. -/
structure Stamps (types : WareTypes) : Prop where
  parcel : Updates types ITEM_PARCEL ITEM_PARCEL_STAMPED
  letter : Updates types ITEM_LETTER ITEM_LETTER_STAMPED
  single : (types ITEM_PARCEL).stackable = false ∧ (types ITEM_LETTER).stackable = false

/-- Stamped mail: the same item with the next id and the same contents, and with the same writing. -/
structure Stamped (item stamped : RoseTree Article) : Prop where
  ref : stamped.label.ref = item.label.ref
  id : stamped.label.item.id = item.label.item.id + 1
  contents : stamped.children = item.children
  letter : item.label.item.id = ITEM_LETTER → getWriter item.label.item ≠ [] →
    getText stamped.label.item = getText item.label.item ∧ getWriter stamped.label.item = getWriter item.label.item ∧
      getDate stamped.label.item = getDate item.label.item

theorem getStrAttr_setStrAttr_self {item : Item} {type : ItemAttrTypes} (h : type.isStrAttrType = true)
    {value : Bytes} (hvalue : item.getStrAttr type = value) : (item.setStrAttr type value).getStrAttr type = value := by
  by_cases hempty : value = []
  · have hlookup : (item.setStrAttr type value).lookup type = item.lookup type := by
      rw [hempty, Item.setStrAttr, ItemAttributes.setStrAttr_nil]
      exact item.lookup_getAttributes type
    rw [Item.getStrAttr_eq, hlookup, ← Item.getStrAttr_eq, hvalue]
  · rw [Item.getStrAttr_eq, Item.lookup_setStrAttr item h hempty, if_pos rfl, if_pos h]
    rfl

theorem getStrAttr_setStrAttr_of_ne (item : Item) {type t : ItemAttrTypes} (value : Bytes) (h : t ≠ type) :
    (item.setStrAttr type value).getStrAttr t = item.getStrAttr t := by
  rw [Item.getStrAttr_eq, Item.getStrAttr_eq, Item.lookup_setStrAttr_of_ne item value h]

theorem getStrAttr_setIntAttr (item : Item) {type t : ItemAttrTypes} (value : Int) (h : t ≠ type) :
    (item.setIntAttr type value).getStrAttr t = item.getStrAttr t := by
  rw [Item.getStrAttr_eq, Item.getStrAttr_eq, Item.lookup_setIntAttr_of_ne item value h]

theorem write_frame (writing : Bytes × Int × Bytes) (a : Article) :
    (write writing a).ref = a.ref ∧ (write writing a).item.id = a.item.id := by
  rw [write]
  split
  · exact ⟨rfl, rfl⟩
  · exact ⟨rfl, rfl⟩

theorem write_writing {item : Item} {now : Int} {a : Article} (hid : item.id = ITEM_LETTER)
    (hwriter : getWriter item ≠ []) (hdate : Words.FitsInt32 (getDate item)) (ha : a.item.id = ITEM_LETTER_STAMPED)
    (htext : getText a.item = getText item) :
    getText (write (writing now item) a).item = getText item ∧
      getWriter (write (writing now item) a).item = getWriter item ∧
        getDate (write (writing now item) a).item = getDate item := by
  have hwriting : writing now item = (getWriter item, getDate item, getText item) := if_pos ⟨hid, hwriter⟩
  rw [hwriting, write, if_pos ⟨ha, hwriter⟩]
  dsimp only
  refine ⟨?_, ?_, ?_⟩
  · refine getStrAttr_setStrAttr_self (by decide) ?_
    rw [getStrAttr_setIntAttr _ _ (by decide), getStrAttr_setStrAttr_of_ne _ _ (by decide)]
    exact htext
  · rw [getWriter, getStrAttr_setStrAttr_of_ne _ _ (by decide), getStrAttr_setIntAttr _ _ (by decide),
      Item.getStrAttr_eq, Item.lookup_setStrAttr _ (by decide) hwriter, if_pos rfl, if_pos (by decide)]
    rfl
  · rw [getDate, Item.getIntAttr_eq, Item.lookup_setStrAttr_of_ne _ _ (by decide), ← Item.getIntAttr_eq,
      Item.getIntAttr_setIntAttr_self _ (by decide), Words.toInt32_of_fits hdate]

variable {types}

theorem Stamps.updates (h : Stamps types) {a : Article} (hsend : canSend a = true) :
    Updates types a.item.id (a.item.id + 1) ∧ (types a.item.id).stackable = false := by
  rw [canSend, Bool.or_eq_true, beq_iff_eq, beq_iff_eq] at hsend
  rcases hsend with hid | hid
  · rw [hid]
    exact ⟨h.parcel, h.single.1⟩
  · rw [hid]
    exact ⟨h.letter, h.single.2⟩

/-- **Mail is stamped where it is.** -/
theorem stamped_stamp (h : Stamps types) (fresh : Nat) (now : Int) {item : RoseTree Article}
    (hsend : canSend item.label = true) (hcan : item.label.canTransform = true)
    (hdate : Words.FitsInt32 (getDate item.label.item)) : Stamped item (stamp types fresh now item) := by
  obtain ⟨hupdates, hsingle⟩ := h.updates hsend
  have hne : item.label.item.id ≠ item.label.item.id + 1 :=
    fun heq => hupdates.other (congrArg (fun i => (types i).id) heq)
  obtain ⟨new, htransform, hid, hkept⟩ := transformItem_updated fresh hne hcan hupdates
  have hstamp : stamp types fresh now item =
      .node (write (writing now item.label.item) { item.label with item := new }) item.children := by
    rw [stamp, if_neg (by rw [hsingle]; exact Bool.false_ne_true), htransform]
  rw [hstamp]
  refine ⟨(write_frame _ _).1, (write_frame _ _).2.trans hid, rfl, fun hletter hwriter => ?_⟩
  refine write_writing hletter hwriter hdate ?_ ?_
  · rw [hid, hletter]
    rfl
  · rw [getText, getText, Item.getStrAttr_eq, Item.getStrAttr_eq, hkept .TEXT (by decide)]

/-! ### One inbox -/

theorem sameName_iff {name name' : Bytes} :
    sameName name name' = true ↔ ItemAttributes.toLowerCaseString name = ItemAttributes.toLowerCaseString name' :=
  beq_iff_eq

theorem sameName_self (name : Bytes) : sameName name name = true := sameName_iff.mpr rfl

theorem sameName_of {name name' name'' : Bytes} (h : sameName name name' = true) (h' : sameName name name'' = true) :
    sameName name' name'' = true :=
  sameName_iff.mpr ((sameName_iff.mp h).symm.trans (sameName_iff.mp h'))

theorem getPlayerByName_some {online : List Addressee} {name : Bytes} {player : Addressee}
    (h : getPlayerByName online name = some player) : player ∈ online ∧ sameName player.name name = true := by
  rw [getPlayerByName] at h
  split at h
  · contradiction
  · exact ⟨List.mem_of_find?_eq_some h, @List.find?_some _ (fun p : Addressee => sameName p.name name) _ _ h⟩

theorem getPlayerByName_map (online : List Addressee) (name' : Bytes) (inbox : RoseTree Article) (name : Bytes) :
    getPlayerByName (online.map (Addressee.update name' inbox)) name =
      (getPlayerByName online name).map (Addressee.update name' inbox) := by
  rw [getPlayerByName, getPlayerByName]
  split
  · rfl
  · have hname : (fun p => sameName p.name name) ∘ Addressee.update name' inbox = fun p => sameName p.name name := by
      funext p
      exact congrArg (sameName · name) (Addressee.update_name name' inbox p)
    rw [List.find?_map, hname]

namespace World

variable (w : World D) {name : Bytes}

/-- What an inbox holds after a delivery, which has nothing to do with whether its owner is online. -/
structure PutIn (w' : World D) (name : Bytes) (inbox : RoseTree Article) : Prop where
  named : w'.inboxOf db name = some inbox
  others : ∀ other, sameName name other = false → w'.inboxOf db other = w.inboxOf db other

variable {w db}

theorem putIn_online {player : Addressee} (h : getPlayerByName w.online name = some player) (item : RoseTree Article)
    (inbox : RoseTree Article) : w.PutIn db ((w.removeThing item).setInbox player inbox) name inbox := by
  obtain ⟨-, hsame⟩ := getPlayerByName_some h
  have hfind (other : Bytes) : getPlayerByName ((w.removeThing item).setInbox player inbox).online other =
      (getPlayerByName w.online other).map (Addressee.update player.name inbox) :=
    getPlayerByName_map w.online player.name inbox other
  refine ⟨?_, fun other hother => ?_⟩
  · rw [inboxOf, hfind, h, Option.map_some, Addressee.update, if_pos (sameName_self _)]
  · rw [inboxOf, hfind, inboxOf]
    cases hfound : getPlayerByName w.online other with
    | none => rfl
    | some p =>
      -- the one who is found is not the one who receives
      have hne : sameName p.name player.name = false := by
        refine Bool.eq_false_iff.mpr fun heq => Bool.false_ne_true (hother.symm.trans ?_)
        have hplayer := sameName_of heq (getPlayerByName_some hfound).2
        exact sameName_of hsame hplayer
      rw [Option.map_some, Addressee.update, if_neg (Bool.eq_false_iff.mp hne)]

theorem putIn_offline {tmpPlayer : Addressee} (h : getPlayerByName w.online name = none)
    (hload : db.loadPlayerByName w.database name = some tmpPlayer) (item inbox : RoseTree Article) :
    w.PutIn db { w.removeThing item with database := db.savePlayer { tmpPlayer with inbox } w.database } name
      inbox := by
  have hsame := db.load_name _ _ _ hload
  refine ⟨?_, fun other hother => ?_⟩
  · have hsave := db.load_save w.database name { tmpPlayer with inbox } (by rw [hload]; rfl) hsame
    have honline : getPlayerByName (w.removeThing item).online name = none := h
    rw [inboxOf]
    dsimp only
    rw [honline, hsave]
    rfl
  · have hne : sameName tmpPlayer.name other = false := by
      refine Bool.eq_false_iff.mpr fun heq => Bool.false_ne_true (hother.symm.trans ?_)
      exact sameName_of hsame heq
    have hsave := db.load_save_other w.database other { tmpPlayer with inbox } hne
    rw [inboxOf, inboxOf]
    dsimp only
    rw [hsave]
    rfl

end World

/-! ### Once or not at all -/

/-- An item can be sent to the player with a name, whose inbox accepts it. -/
structure Receives (types : WareTypes) (w : World D) (item : RoseTree Article) (name : Bytes)
    (inbox : RoseTree Article) : Prop where
  receiver : getReceiver item = some name
  nonempty : name ≠ []
  place : w.inboxOf db name = some inbox
  accepts : queryMove types inbox item false = .NOERROR

/-- An item goes from the tile into one inbox, that of the player who is named on it. -/
structure Delivered (w w' : World D) (item sent : RoseTree Article) (name : Bytes) (inbox : RoseTree Article) :
    Prop where
  named : ∃ text, (texts item).find? (fun text => text ≠ []) = some text ∧ nameOn text = name
  tile : w'.tile = w.tile.filter fun t => t.label.ref ≠ item.label.ref
  before : w.inboxOf db name = some inbox
  after : w.PutIn db w' name (addThing inbox sent)

variable {db} {w : World D} {item : RoseTree Article}

theorem sendItem_delivers (fresh : Nat) (now : Int) {name : Bytes} {inbox : RoseTree Article}
    (h : Receives db types w item name inbox) :
    (sendItem db types fresh now w item).1 = true ∧
      Delivered db w (sendItem db types fresh now w item).2 item (stamp types fresh now item) name inbox := by
  have hnamed : ∃ text, (texts item).find? (fun text => text ≠ []) = some text ∧ nameOn text = name :=
    Option.map_eq_some_iff.mp ((getReceiver_eq item).symm.trans h.receiver)
  have hinbox := h.place
  rw [World.inboxOf] at hinbox
  rw [sendItem, h.receiver]
  dsimp only
  rw [if_neg h.nonempty]
  cases hplayer : getPlayerByName w.online name with
  | some player =>
    rw [hplayer] at hinbox
    obtain rfl : player.inbox = inbox := Option.some.inj hinbox
    dsimp only
    rw [h.accepts]
    exact ⟨rfl, hnamed, rfl, h.place, World.putIn_online hplayer item _⟩
  | none =>
    rw [hplayer] at hinbox
    obtain ⟨tmpPlayer, hload, rfl⟩ := Option.map_eq_some_iff.mp hinbox
    dsimp only
    rw [hload]
    dsimp only
    rw [h.accepts]
    exact ⟨rfl, hnamed, rfl, h.place, World.putIn_offline hplayer hload item _⟩

theorem sendItem_fails (fresh : Nat) (now : Int) (h : ¬ ∃ name inbox, Receives db types w item name inbox) :
    sendItem db types fresh now w item = (false, w) := by
  rw [sendItem]
  split
  · rfl
  · next receiver hreceiver =>
    by_cases hempty : receiver = []
    · exact if_pos hempty
    · rw [if_neg hempty]
      split
      · next player hplayer =>
        split
        · next hmove =>
          exfalso
          refine h ⟨receiver, player.inbox, hreceiver, hempty, ?_, hmove⟩
          rw [World.inboxOf, hplayer]
        · rfl
      · next hplayer =>
        split
        · rfl
        · next tmpPlayer hload =>
          split
          · next hmove =>
            exfalso
            refine h ⟨receiver, tmpPlayer.inbox, hreceiver, hempty, ?_, hmove⟩
            rw [World.inboxOf, hplayer, hload]
            rfl
          · rfl

/-- **Mail is delivered once or not at all**: into the inbox of the player on it, as the same mail with a stamp, and
whether the player is online makes no difference. -/
theorem sendItem_once (h : Stamps types) (fresh : Nat) (now : Int) (hmem : item ∈ w.tile)
    (hsend : canSend item.label = true) :
    (sendItem db types fresh now w item = (false, w) ∨
        (sendItem db types fresh now w item).1 = true ∧ Stamped item (stamp types fresh now item) ∧
          ∃ name inbox, Delivered db w (sendItem db types fresh now w item).2 item (stamp types fresh now item) name
            inbox) ∧
      ∀ w' : World D, w'.inboxOf db = w.inboxOf db →
        (sendItem db types fresh now w' item).1 = (sendItem db types fresh now w item).1 ∧
          ∀ name, getReceiver item = some name →
            (sendItem db types fresh now w' item).2.inboxOf db name =
              (sendItem db types fresh now w item).2.inboxOf db name := by
  have hstamped := stamped_stamp h fresh now hsend (w.transformable item hmem hsend) (w.dates item hmem)
  by_cases hreceives : ∃ name inbox, Receives db types w item name inbox
  · obtain ⟨name, inbox, hreceives⟩ := hreceives
    obtain ⟨htrue, hdelivered⟩ := sendItem_delivers fresh now hreceives
    refine ⟨Or.inr ⟨htrue, hstamped, name, inbox, hdelivered⟩, fun w' hsame => ?_⟩
    have hreceives' : Receives db types w' item name inbox :=
      { hreceives with place := (congrFun hsame name).trans hreceives.place }
    obtain ⟨htrue', hdelivered'⟩ := sendItem_delivers fresh now hreceives'
    refine ⟨htrue'.trans htrue.symm, fun name' hname' => ?_⟩
    obtain rfl : name = name' := Option.some.inj (hreceives.receiver.symm.trans hname')
    exact hdelivered'.after.named.trans hdelivered.after.named.symm
  · have hfails := sendItem_fails fresh now hreceives
    refine ⟨Or.inl hfails, fun w' hsame => ?_⟩
    have hreceives' : ¬ ∃ name inbox, Receives db types w' item name inbox := by
      rintro ⟨name, inbox, h'⟩
      exact hreceives ⟨name, inbox, { h' with place := (congrFun hsame name).symm.trans h'.place }⟩
    rw [hfails, sendItem_fails fresh now hreceives']
    exact ⟨rfl, fun name _ => congrFun hsame name⟩

/-! ### A letter -/

/-- Players saved in a list, the last ones first. -/
def archive : Database (List Addressee) where
  loadPlayerByName d name := d.find? fun p => sameName p.name name
  savePlayer p d := p :: d
  load_name _ name _ h := @List.find?_some _ (fun p : Addressee => sameName p.name name) _ _ h
  load_save _ name _ _ h := @List.find?_cons_of_pos _ (fun p : Addressee => sameName p.name name) _ _ h
  load_save_other _ name _ h :=
    @List.find?_cons_of_neg _ (fun p : Addressee => sameName p.name name) _ _ (Bool.eq_false_iff.mp h)

def mailTypes : WareTypes := fun id =>
  if id = ITEM_PARCEL ∨ id = ITEM_PARCEL_STAMPED then
    { id, group := .CONTAINER, type := .CONTAINER, pickupable := true, moveable := true }
  else { id, pickupable := true, moveable := true }

theorem mailTypes_stamps : Stamps mailTypes where
  parcel := ⟨by decide, by decide, by decide, by decide⟩
  letter := ⟨by decide, by decide, by decide, by decide⟩
  single := by decide

/-- A letter to `Al`, in lower case, with a second line. -/
def letter : RoseTree Article :=
  let item := { id := ITEM_LETTER : Item }.setStrAttr .TEXT [97, 108, 32, 10, 72, 105]
  .node { item := (item.setStrAttr .WRITER [66, 111]).setIntAttr .DATE 1600000000, ref := 1 } []

def emptyInbox : RoseTree Article := .node { item := { id := 12902 }, ref := 0, isContainer := true } []

def office : World (List Addressee) where
  tile := [letter]
  online := []
  database := [{ name := [65, 108], inbox := emptyInbox }]
  dates t ht := by
    rw [List.mem_singleton.mp ht, Words.FitsInt32]
    decide
  transformable t ht _ := by
    rw [List.mem_singleton.mp ht]
    rfl
  names := fun p hp => absurd hp List.not_mem_nil

theorem office_receives : Receives archive mailTypes office letter [97, 108] emptyInbox where
  receiver := rfl
  nonempty := by decide
  place := rfl
  accepts := by
    have hcount : Container.getItemHoldingCount Article.isContainer emptyInbox = 0 := by
      rw [Container.getItemHoldingCount, ContainerIterator.forEach, dif_neg (by decide)]
      rfl
    rw [queryMove, queryAdd, hcount]
    decide

theorem letter_once :
    Stamped letter (stamp mailTypes 2 1700000000 letter) ∧ ∃ name inbox,
      Delivered archive office (sendItem archive mailTypes 2 1700000000 office letter).2 letter
        (stamp mailTypes 2 1700000000 letter) name inbox := by
  have hsent := (sendItem_delivers 2 1700000000 office_receives).1
  have hnot : sendItem archive mailTypes 2 1700000000 office letter ≠ (false, office) := by
    intro heq
    rw [heq] at hsent
    exact Bool.false_ne_true hsent
  have honce := (@sendItem_once _ archive mailTypes office letter mailTypes_stamps 2 1700000000
    List.mem_cons_self (by decide)).1
  exact (honce.resolve_left hnot).2

end Mailbox

end Moonlight
