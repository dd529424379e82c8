import Mathlib.Data.UInt
import Moonlight.Utils.Texts

/-!
# Access lists of houses

The text of an `AccessList` (map/house/house.cpp) grants access line by line: to everyone, to a player, to a guild or to
a rank of a guild. `parseList` looks up what a line names and keeps the ids, and `isInList` looks for those of a player.

Of a line with a rank, the last character of the rank's name is cut off (`classify`), and names of ranks are compared in
the case that they have, with a text in lower case. So a line grants access to a rank if it names the rank with one more
character (`isInList_iff`), and `isInList_named_iff` says when that is what the line says.

The names of players and guilds are looked up in the database, which is exact and knows no case.
-/

namespace Moonlight

namespace AccessList

open Texts (explodeString trim_left trim_right idxOf_separator drop_separator)

abbrev Text := List Char

/-- `trimString`. -/
def trimString (str : Text) : Text := Texts.trimString ' ' str

/-- The four calls of `parseList` that trim a line. -/
def trimLine (line : Text) : Text := trimString (trim_right '\t' (trim_left '\t' (trimString line)))

def toLowerCaseString (source : Text) : Text := source.map Char.toLower

/-! ### What is looked up -/

structure GuildRank where
  id : UInt32
  name : Text
  deriving DecidableEq

structure Guild where
  name : Text
  ranks : List GuildRank
  deriving DecidableEq

/-- A player, with the guild and the rank in it. -/
structure Player where
  guid : UInt32
  name : Text
  online : Bool := false
  membership : Option (Guild × GuildRank) := none
  deriving DecidableEq

/-- The players and the guilds, with what the keys of the database say: ids are no two times the same, and no more are
names, in whatever case. Names of ranks are different within a guild. -/
structure World where
  players : List Player
  guilds : List Guild
  guid_ne_zero : ∀ p ∈ players, p.guid ≠ 0
  guids : ∀ p ∈ players, ∀ p' ∈ players, p.guid = p'.guid → p = p'
  names : ∀ p ∈ players, ∀ p' ∈ players, toLowerCaseString p.name = toLowerCaseString p'.name → p = p'
  guildNames : ∀ g ∈ guilds, ∀ g' ∈ guilds, toLowerCaseString g.name = toLowerCaseString g'.name → g = g'
  rankIds : ∀ g ∈ guilds, ∀ g' ∈ guilds, ∀ r ∈ g.ranks, ∀ r' ∈ g'.ranks, r.id = r'.id → g = g' ∧ r = r'
  rankNames : ∀ g ∈ guilds, ∀ r ∈ g.ranks, ∀ r' ∈ g.ranks, r.name = r'.name → r = r'
  members : ∀ p ∈ players, ∀ m ∈ p.membership, m.1 ∈ guilds ∧ m.2 ∈ m.1.ranks

/-- Names that are the same in lower case. -/
def sameName (name : Text) (name' : Text) : Bool := toLowerCaseString name == toLowerCaseString name'

variable (w : World)

/-- Among the players that are online. -/
def getPlayerByName (name : Text) : Option Player :=
  if name = [] then none else w.players.find? fun p => p.online && sameName p.name name

def getGuidByName (name : Text) : UInt32 :=
  ((w.players.find? fun p => sameName p.name name).map Player.guid).getD 0

def getGuildByName (name : Text) : Option Guild := w.guilds.find? fun g => sameName g.name name

def Guild.getRankByName (guild : Guild) (name : Text) : Option GuildRank := guild.ranks.find? fun r => r.name == name

/-! ### The list -/

/-- An `AccessList`. -/
structure Access where
  list : Text := []
  playerList : List UInt32 := []
  guildRankList : List UInt32 := []
  allowEveryone : Bool := false

namespace Access

variable (a : Access)

def addPlayer (name : Text) : Access :=
  match getPlayerByName w name with
  | some player => { a with playerList := player.guid :: a.playerList }
  | none =>
    let guid := getGuidByName w name
    if guid ≠ 0 then { a with playerList := guid :: a.playerList } else a

def addGuild (name : Text) : Access :=
  match getGuildByName w name with
  | some guild => { a with guildRankList := guild.ranks.map GuildRank.id ++ a.guildRankList }
  | none => a

def addGuildRank (name guildName : Text) : Access :=
  match getGuildByName w guildName with
  | some guild =>
    match guild.getRankByName name with
    | some rank => { a with guildRankList := rank.id :: a.guildRankList }
    | none => a
  | none => a

end Access

/-- What a line is taken for. -/
inductive Entry where
  | nothing
  | everyone
  | player (name : Text)
  | guild (name : Text)
  | guildRank (name guildName : Text)
  deriving DecidableEq

def NETWORKMESSAGE_PLAYERNAME_MAXLENGTH : Nat := 30

/-- A line without outer blanks. -/
def classify (line : Text) : Entry :=
  if line = [] ∨ line.head? = some '#' ∨ line.length > 100 then .nothing
  else
    let line := toLowerCaseString line
    if '@' ∈ line then
      let at_pos := line.idxOf '@'
      if at_pos = 0 then .guild (line.drop 1) else .guildRank (line.take (at_pos - 1)) (line.drop (at_pos + 1))
    else if line = ['*'] then .everyone
    else if line.any fun c => c ∈ ['!', '*', '?'] then .nothing
    else if line.length ≤ NETWORKMESSAGE_PLAYERNAME_MAXLENGTH then .player line
    else .nothing

def Access.add (a : Access) : Entry → Access
  | .nothing => a
  | .everyone => { a with allowEveryone := true }
  | .player name => a.addPlayer w name
  | .guild name => a.addGuild w name
  | .guildRank name guildName => a.addGuildRank w name guildName

/-- `AccessList::parseList`, which forgets what the list was before. -/
def parseList (list : Text) : Access :=
  if list = [] then { list }
  else (explodeString '\n' 100 list).foldl (fun a line => a.add w (classify (trimLine line))) { list }

def Access.isInList (a : Access) (player : Player) : Bool :=
  a.allowEveryone || a.playerList.contains player.guid ||
    player.membership.any fun m => a.guildRankList.contains m.2.id

/-! ### What an entry grants -/

/-- Whom an entry is about. -/
def Entry.Grants (player : Player) : Entry → Prop
  | .nothing => False
  | .everyone => True
  | .player name => sameName player.name name = true
  | .guild name => ∃ m ∈ player.membership, sameName m.1.name name = true
  | .guildRank name guildName => ∃ m ∈ player.membership, m.2.name = name ∧ sameName m.1.name guildName = true

theorem sameName_iff {name name' : Text} :
    sameName name name' = true ↔ toLowerCaseString name = toLowerCaseString name' := beq_iff_eq

theorem isInList_iff_or (a : Access) (player : Player) : a.isInList player = true ↔
    (a.allowEveryone = true ∨ player.guid ∈ a.playerList) ∨ ∃ m ∈ player.membership, m.2.id ∈ a.guildRankList := by
  rw [Access.isInList, Bool.or_eq_true, Bool.or_eq_true, List.contains_iff_mem, Option.any_eq_true]
  simp only [List.contains_iff_mem, Option.mem_def]

variable {w} {player : Player}

theorem guid_eq_iff (hplayer : player ∈ w.players) {found : Player} (hfound : found ∈ w.players) {name : Text}
    (hname : sameName found.name name = true) : player.guid = found.guid ↔ sameName player.name name = true := by
  constructor
  · intro hguid
    rw [w.guids player hplayer found hfound hguid]
    exact hname
  · intro hsame
    have hnames := (sameName_iff.mp hsame).trans (sameName_iff.mp hname).symm
    rw [w.names player hplayer found hfound hnames]

theorem isInList_addPlayer (hplayer : player ∈ w.players) (a : Access) (name : Text) :
    (a.addPlayer w name).isInList player = true ↔ a.isInList player = true ∨ sameName player.name name = true := by
  have hinsert {found : Player} (hfound : found ∈ w.players) (hname : sameName found.name name = true) :
      ({ a with playerList := found.guid :: a.playerList } : Access).isInList player = true ↔
        a.isInList player = true ∨ sameName player.name name = true := by
    rw [isInList_iff_or, isInList_iff_or, ← guid_eq_iff hplayer hfound hname]
    dsimp only
    rw [List.mem_cons]
    simp only [or_assoc, or_left_comm, or_comm]
  rw [Access.addPlayer]
  cases honline : getPlayerByName w name with
  | some found =>
    rw [getPlayerByName] at honline
    split at honline
    · cases honline
    · have hmatch := List.find?_some honline
      rw [Bool.and_eq_true] at hmatch
      exact hinsert (List.mem_of_find?_eq_some honline) hmatch.2
  | none =>
    dsimp only
    rw [getGuidByName]
    cases hfind : w.players.find? fun p => sameName p.name name with
    | some found =>
      have hfound := List.mem_of_find?_eq_some hfind
      rw [Option.map_some, Option.getD_some, if_pos (w.guid_ne_zero found hfound)]
      exact hinsert hfound (List.find?_some (p := fun p : Player => sameName p.name name) hfind)
    | none =>
      rw [Option.map_none, Option.getD_none, if_neg (not_not.mpr rfl)]
      exact (or_iff_left (List.find?_eq_none.mp hfind player hplayer)).symm

theorem getGuildByName_some {name : Text} {guild : Guild} (h : getGuildByName w name = some guild) :
    guild ∈ w.guilds ∧ sameName guild.name name = true :=
  ⟨List.mem_of_find?_eq_some h, List.find?_some (p := fun g : Guild => sameName g.name name) h⟩

theorem guild_eq_iff (hplayer : player ∈ w.players) {m : Guild × GuildRank} (hm : m ∈ player.membership) {name : Text}
    {guild : Guild} (h : getGuildByName w name = some guild) : m.1 = guild ↔ sameName m.1.name name = true := by
  obtain ⟨hguild, hname⟩ := getGuildByName_some h
  constructor
  · rintro rfl
    exact hname
  · intro hsame
    have hnames := (sameName_iff.mp hsame).trans (sameName_iff.mp hname).symm
    exact w.guildNames m.1 (w.members player hplayer m hm).1 guild hguild hnames

theorem not_sameName_of_none (hplayer : player ∈ w.players) {m : Guild × GuildRank} (hm : m ∈ player.membership)
    {name : Text} (h : getGuildByName w name = none) : ¬sameName m.1.name name = true :=
  List.find?_eq_none.mp h m.1 (w.members player hplayer m hm).1

theorem isInList_append_ranks (a : Access) (ids : List UInt32) :
    ({ a with guildRankList := ids ++ a.guildRankList } : Access).isInList player = true ↔
      a.isInList player = true ∨ ∃ m ∈ player.membership, m.2.id ∈ ids := by
  rw [isInList_iff_or, isInList_iff_or]
  dsimp only
  simp only [List.mem_append, and_or_left, exists_or, or_assoc, or_left_comm, or_comm]

theorem isInList_addGuild (hplayer : player ∈ w.players) (a : Access) (name : Text) :
    (a.addGuild w name).isInList player = true ↔
      a.isInList player = true ∨ ∃ m ∈ player.membership, sameName m.1.name name = true := by
  rw [Access.addGuild]
  cases hguild : getGuildByName w name with
  | none =>
    refine (or_iff_left ?_).symm
    rintro ⟨m, hm, hsame⟩
    exact not_sameName_of_none hplayer hm hguild hsame
  | some guild =>
    dsimp only
    rw [isInList_append_ranks]
    refine or_congr_right (exists_congr fun m => and_congr_right fun hm => ?_)
    rw [← guild_eq_iff hplayer hm hguild, List.mem_map]
    obtain ⟨hmember, hrank⟩ := w.members player hplayer m hm
    constructor
    · rintro ⟨r, hr, hid⟩
      exact (w.rankIds m.1 hmember guild (getGuildByName_some hguild).1 m.2 hrank r hr hid.symm).1
    · rintro rfl
      exact ⟨m.2, hrank, rfl⟩

theorem isInList_addGuildRank (hplayer : player ∈ w.players) (a : Access) (name guildName : Text) :
    (a.addGuildRank w name guildName).isInList player = true ↔ a.isInList player = true ∨
      ∃ m ∈ player.membership, m.2.name = name ∧ sameName m.1.name guildName = true := by
  rw [Access.addGuildRank]
  cases hguild : getGuildByName w guildName with
  | none =>
    refine (or_iff_left ?_).symm
    rintro ⟨m, hm, -, hsame⟩
    exact not_sameName_of_none hplayer hm hguild hsame
  | some guild =>
    have hguild' := (getGuildByName_some hguild).1
    dsimp only
    cases hfind : guild.getRankByName name with
    | none =>
      refine (or_iff_left ?_).symm
      rintro ⟨m, hm, hname, hsame⟩
      obtain rfl := (guild_eq_iff hplayer hm hguild).mpr hsame
      exact List.find?_eq_none.mp hfind m.2 (w.members player hplayer m hm).2 (beq_iff_eq.mpr hname)
    | some rank =>
      have hrank := List.mem_of_find?_eq_some hfind
      have hname : rank.name = name :=
        beq_iff_eq.mp (List.find?_some (p := fun r : GuildRank => r.name == name) hfind)
      refine (@isInList_append_ranks player a [rank.id]).trans ?_
      refine or_congr_right (exists_congr fun m => and_congr_right fun hm => ?_)
      rw [← guild_eq_iff hplayer hm hguild, List.mem_singleton]
      obtain ⟨hmember, hmrank⟩ := w.members player hplayer m hm
      constructor
      · intro hid
        obtain ⟨hsame, heq⟩ := w.rankIds m.1 hmember guild hguild' m.2 hmrank rank hrank hid
        exact ⟨heq ▸ hname, hsame⟩
      · rintro ⟨hname', rfl⟩
        rw [w.rankNames m.1 hmember m.2 hmrank rank hrank (hname'.trans hname.symm)]

/-- **What is added, grants access to those whom it is about, and to nobody else.** -/
theorem isInList_add (hplayer : player ∈ w.players) (a : Access) (entry : Entry) :
    (a.add w entry).isInList player = true ↔ a.isInList player = true ∨ entry.Grants player := by
  cases entry with
  | nothing => exact (or_iff_left id).symm
  | everyone =>
    refine iff_of_true ?_ (Or.inr trivial)
    rw [isInList_iff_or]
    exact Or.inl (Or.inl rfl)
  | player name => exact isInList_addPlayer hplayer a name
  | guild name => exact isInList_addGuild hplayer a name
  | guildRank name guildName => exact isInList_addGuildRank hplayer a name guildName

theorem isInList_foldl (hplayer : player ∈ w.players) (lines : List Text) (a : Access) :
    (lines.foldl (fun a line => a.add w (classify (trimLine line))) a).isInList player = true ↔
      a.isInList player = true ∨ ∃ line ∈ lines, (classify (trimLine line)).Grants player := by
  induction lines generalizing a with
  | nil =>
    refine (or_iff_left ?_).symm
    rintro ⟨line, hline, -⟩
    cases hline
  | cons line lines ih =>
    rw [List.foldl_cons, ih, isInList_add hplayer, List.exists_mem_cons_iff, or_assoc]

/-! ### What a line says -/

/-- A name that is not taken for something else. -/
structure Ordinary (line : Text) : Prop where
  nonempty : line ≠ []
  no_comment : line.head? ≠ some '#'
  no_at : '@' ∉ toLowerCaseString line
  no_wildcard : ∀ c ∈ toLowerCaseString line, c ∉ ['!', '*', '?']
  length_le : line.length ≤ NETWORKMESSAGE_PLAYERNAME_MAXLENGTH

/-- A line that says whom it is about, in one of the ways that the code understands. -/
def Plain (player : Player) (line : Text) : Prop :=
  toLowerCaseString line = ['*'] ∨
    (toLowerCaseString line = toLowerCaseString player.name ∧ Ordinary line) ∨
    ∃ m ∈ player.membership, toLowerCaseString line = '@' :: toLowerCaseString m.1.name

/-- A line with the rank of a player, followed by one more character. -/
def Cut (player : Player) (line : Text) : Prop :=
  ∃ m ∈ player.membership, ∃ c, c ≠ '@' ∧ '@' ∉ m.2.name ∧ line.head? ≠ some '#' ∧
    toLowerCaseString line = m.2.name ++ c :: '@' :: toLowerCaseString m.1.name

/-- A line with the rank of a player, or with a name that the code does not take for one. -/
def Other (player : Player) (line : Text) : Prop :=
  (toLowerCaseString line = toLowerCaseString player.name ∧ ¬Ordinary line) ∨
    ∃ m ∈ player.membership, toLowerCaseString line =
      toLowerCaseString m.2.name ++ '@' :: toLowerCaseString m.1.name

/-- A line that names everyone, the player, the guild of the player or the rank in it. -/
def Named (player : Player) (line : Text) : Prop :=
  toLowerCaseString line = ['*'] ∨ toLowerCaseString line = toLowerCaseString player.name ∨
    (∃ m ∈ player.membership, toLowerCaseString line = '@' :: toLowerCaseString m.1.name) ∨
    ∃ m ∈ player.membership, toLowerCaseString line =
      toLowerCaseString m.2.name ++ '@' :: toLowerCaseString m.1.name

theorem named_iff (player : Player) (line : Text) : Named player line ↔ Plain player line ∨ Other player line := by
  rw [Named, Plain, Other]
  by_cases hname : toLowerCaseString line = toLowerCaseString player.name
  · by_cases hordinary : Ordinary line
    · simp only [hname, hordinary, true_and, true_or, or_true]
    · simp only [hname, hordinary, and_false, true_and, not_false_eq_true, false_or, true_or, or_true]
  · simp only [hname, false_and, false_or, or_assoc]

theorem toLower_toLower (c : Char) : c.toLower.toLower = c.toLower := by
  by_cases h : c.val ≥ 'A'.val ∧ c.val ≤ 'Z'.val
  · have hlo := UInt32.le_iff_toNat_le.mp h.1
    have hhi := UInt32.le_iff_toNat_le.mp h.2
    have hval : c.toLower.val = c.val + ('a'.val - 'A'.val) := congrArg Char.val (dif_pos h)
    have hnot : ¬(c.toLower.val ≥ 'A'.val ∧ c.toLower.val ≤ 'Z'.val) := by
      rintro ⟨-, hle⟩
      rw [hval, UInt32.le_iff_toNat_le, UInt32.toNat_add] at hle
      have hA : 'A'.val.toNat = 65 := rfl
      have hZ : 'Z'.val.toNat = 90 := rfl
      have hstep : ('a'.val - 'A'.val).toNat = 32 := rfl
      omega
    exact dif_neg hnot
  · have hsame : c.toLower = c := dif_neg h
    rw [hsame, hsame]

theorem toLowerCaseString_idem (name : Text) :
    toLowerCaseString (toLowerCaseString name) = toLowerCaseString name := by
  rw [toLowerCaseString, toLowerCaseString, List.map_map]
  exact List.map_congr_left fun c _ => toLower_toLower c

theorem toLowerCaseString_of_subset {line part : Text} (h : part ⊆ toLowerCaseString line) :
    toLowerCaseString part = part := by
  have hpart : ∀ c ∈ part, c.toLower = c := by
    intro c hc
    obtain ⟨d, -, rfl⟩ := List.mem_map.mp (h hc)
    exact toLower_toLower d
  rw [toLowerCaseString]
  exact (List.map_congr_left hpart).trans (List.map_id part)

theorem append_at_inj {before after before' after' : Text} (h : '@' ∉ before) (h' : '@' ∉ before')
    (heq : before ++ '@' :: after = before' ++ '@' :: after') : before = before' ∧ after = after' := by
  have hlength : before.length = before'.length := by rw [← idxOf_separator h, heq, idxOf_separator h']
  obtain ⟨hbefore, hafter⟩ := List.append_inj heq hlength
  exact ⟨hbefore, (List.cons.inj hafter).2⟩

theorem not_plain_or_cut {player : Player} {line : Text} (h : line = [] ∨ line.head? = some '#') :
    ¬(Plain player line ∨ Cut player line) := by
  have hhead : ∀ c rest, toLowerCaseString line = c :: rest → c = '#' := by
    intro c rest heq
    rcases h with rfl | hcomment
    · cases heq
    · obtain ⟨rest', rfl⟩ := List.head?_eq_some_iff.mp hcomment
      exact (List.cons.inj heq).1.symm
  rintro ((heveryone | ⟨-, hordinary⟩ | ⟨m, -, hguild⟩) | ⟨m, -, c, -, -, hcomment, hrank⟩)
  · exact absurd (hhead _ _ heveryone) (by decide)
  · exact h.elim hordinary.nonempty hordinary.no_comment
  · exact absurd (hhead _ _ hguild) (by decide)
  · rcases h with rfl | hcomment'
    · have hlength := congrArg List.length hrank
      rw [List.length_append, List.length_cons] at hlength
      exact absurd hlength (Nat.ne_of_lt (Nat.lt_of_lt_of_le (Nat.succ_pos _) (Nat.le_add_left _ _)))
    · exact hcomment hcomment'

theorem grants_guild_iff {player : Player} {line after : Text} (hline : toLowerCaseString line = '@' :: after) :
    (Entry.guild after).Grants player ↔ Plain player line ∨ Cut player line := by
  have hafter : toLowerCaseString after = after := by
    refine @toLowerCaseString_of_subset line after ?_
    rw [hline]
    exact List.subset_cons_self '@' after
  constructor
  · rintro ⟨m, hm, hsame⟩
    refine Or.inl (Or.inr (Or.inr ⟨m, hm, ?_⟩))
    rw [hline, sameName_iff.mp hsame, hafter]
  · rintro ((heveryone | ⟨-, hordinary⟩ | ⟨m, hm, hguild⟩) | ⟨m, -, c, hc, hno, -, hrank⟩)
    · rw [hline] at heveryone
      exact absurd (List.cons.inj heveryone).1 (by decide)
    · exact absurd (hline ▸ List.mem_cons_self) hordinary.no_at
    · refine ⟨m, hm, sameName_iff.mpr ?_⟩
      rw [hafter]
      exact (List.cons.inj (hline.symm.trans hguild)).2.symm
    · -- neither the rank nor the character after it is the separator
      exfalso
      rw [hline] at hrank
      cases hname : m.2.name with
      | nil =>
        rw [hname] at hrank
        exact hc (List.cons.inj hrank).1.symm
      | cons d rest =>
        rw [hname] at hrank hno
        exact hno ((List.cons.inj hrank).1 ▸ List.mem_cons_self)

theorem grants_guildRank_iff {player : Player} {line before after : Text} (hbefore : before ≠ [])
    (hno : '@' ∉ before) (hcomment : line.head? ≠ some '#') (hline : toLowerCaseString line = before ++ '@' :: after) :
    (Entry.guildRank before.dropLast after).Grants player ↔ Plain player line ∨ Cut player line := by
  have hafter : toLowerCaseString after = after := by
    refine @toLowerCaseString_of_subset line after ?_
    rw [hline]
    exact List.Subset.trans (List.subset_cons_self '@' after) (List.subset_append_right before _)
  have hsplit : before.dropLast ++ [before.getLast hbefore] = before := List.dropLast_concat_getLast hbefore
  constructor
  · rintro ⟨m, hm, hname, hsame⟩
    refine Or.inr ⟨m, hm, before.getLast hbefore, ?_, ?_, hcomment, ?_⟩
    · exact fun heq => hno (heq ▸ List.getLast_mem hbefore)
    · rw [hname]
      exact fun hmem => hno (List.dropLast_subset before hmem)
    · calc toLowerCaseString line
          = before ++ '@' :: after := hline
        _ = m.2.name ++ [before.getLast hbefore] ++ '@' :: after := by
            rw [hname]
            exact congrArg (· ++ '@' :: after) hsplit.symm
        _ = m.2.name ++ before.getLast hbefore :: '@' :: toLowerCaseString m.1.name := by
            rw [List.append_assoc, sameName_iff.mp hsame, hafter]
            rfl
  · rintro ((heveryone | ⟨-, hordinary⟩ | ⟨m, hm, hguild⟩) | ⟨m, hm, c, hc, hno', -, hrank⟩)
    · rw [hline] at heveryone
      have hmem : '@' ∈ ['*'] := heveryone ▸ List.mem_append_right before List.mem_cons_self
      exact absurd hmem (by decide)
    · exact absurd (hline ▸ List.mem_append_right before List.mem_cons_self) hordinary.no_at
    · have hempty := (append_at_inj hno List.not_mem_nil (hline.symm.trans hguild)).1
      exact absurd hempty hbefore
    · have hrank' : before ++ '@' :: after = (m.2.name ++ [c]) ++ '@' :: toLowerCaseString m.1.name := by
        rw [List.append_assoc]
        exact hline.symm.trans hrank
      obtain ⟨hsame, hguild⟩ := append_at_inj hno (by
        rw [List.mem_append, List.mem_singleton]
        exact not_or.mpr ⟨hno', hc.symm⟩) hrank'
      refine ⟨m, hm, ?_, sameName_iff.mpr ?_⟩
      · rw [hsame, List.dropLast_concat]
      · rw [hafter, hguild]

theorem plain_or_cut_iff {player : Player} {line : Text} (hno : '@' ∉ toLowerCaseString line) :
    Plain player line ∨ Cut player line ↔ toLowerCaseString line = ['*'] ∨
      toLowerCaseString line = toLowerCaseString player.name ∧ Ordinary line := by
  constructor
  · rintro ((heveryone | hname | ⟨m, -, hguild⟩) | ⟨m, -, c, -, -, -, hrank⟩)
    · exact Or.inl heveryone
    · exact Or.inr hname
    · rw [hguild] at hno
      exact absurd List.mem_cons_self hno
    · rw [hrank] at hno
      exact absurd (List.mem_append_right _ (List.mem_cons_of_mem c List.mem_cons_self)) hno
  · rintro (heveryone | hname)
    · exact Or.inl (Or.inl heveryone)
    · exact Or.inl (Or.inr (Or.inl hname))

/-- **What a line is taken for, is about the player if it is plain, or if it has the rank with one more character.** -/
theorem grants_classify_iff (player : Player) {line : Text} (hlength : line.length ≤ 100) :
    (classify line).Grants player ↔ Plain player line ∨ Cut player line := by
  rw [classify]
  split
  · rename_i hskip
    have hskip' : line = [] ∨ line.head? = some '#' :=
      hskip.imp_right fun hrest => hrest.resolve_right (not_lt.mpr hlength)
    exact iff_of_false id (not_plain_or_cut hskip')
  · rename_i hline
    obtain ⟨hnonempty, hrest⟩ := not_or.mp hline
    have hcomment := (not_or.mp hrest).1
    dsimp only
    split
    · rename_i hat
      obtain ⟨before, after, hsplit, hno⟩ := List.eq_append_cons_of_mem hat
      rw [hsplit, idxOf_separator hno]
      by_cases hbefore : before = []
      · subst hbefore
        exact grants_guild_iff hsplit
      · have hpos : before.length ≠ 0 := fun hzero => hbefore (List.length_eq_zero_iff.mp hzero)
        have htake : (before ++ '@' :: after).take (before.length - 1) = before.dropLast := by
          rw [List.take_append_of_le_length (Nat.sub_le _ _), List.dropLast_eq_take]
        rw [if_neg hpos, htake, drop_separator]
        exact grants_guildRank_iff hbefore hno hcomment hsplit
    · rename_i hno
      rw [plain_or_cut_iff hno]
      have hlower : (toLowerCaseString line).length = line.length := List.length_map _
      split
      · rename_i heveryone
        exact iff_of_true trivial (Or.inl heveryone)
      rename_i heveryone
      rw [or_iff_right heveryone]
      split
      · rename_i hwild
        refine iff_of_false id ?_
        rintro ⟨-, hordinary⟩
        obtain ⟨c, hc, hmem⟩ := List.any_eq_true.mp hwild
        exact hordinary.no_wildcard c hc (decide_eq_true_iff.mp hmem)
      rename_i htame
      split
      · rename_i hshort
        have hordinary : Ordinary line := by
          refine ⟨hnonempty, hcomment, hno, fun c hc hmem => ?_, hlower ▸ hshort⟩
          exact htame (List.any_eq_true.mpr ⟨c, hc, decide_eq_true hmem⟩)
        rw [and_iff_left hordinary]
        show sameName player.name (toLowerCaseString line) = true ↔ _
        rw [sameName_iff, toLowerCaseString_idem]
        exact eq_comm
      · rename_i hlong
        exact iff_of_false id fun hboth => hlong (hlower ▸ hboth.2.length_le)

/-! ### The lines of a list -/

theorem trimLine_eq {line : Text} (hhead : (trimString line).head? ≠ some '\t')
    (hlast : (trimString line).getLast? ≠ some '\t') : trimLine line = trimString line := by
  rw [trimLine, Texts.trim_left_eq_self hhead, Texts.trim_right_eq_self hlast]
  exact Texts.trimString_trimString ' ' line

/-- A list with lines that are short enough, not too many, and with no blanks around them but spaces. -/
structure Regular (list : Text) : Prop where
  count_le : (list.splitOn '\n').length ≤ 100
  length_le : ∀ line ∈ list.splitOn '\n', line.length ≤ 100
  head_ne : ∀ line ∈ list.splitOn '\n', (trimString line).head? ≠ some '\t'
  getLast_ne : ∀ line ∈ list.splitOn '\n', (trimString line).getLast? ≠ some '\t'

theorem parseList_eq (w : World) (list : Text) : parseList w list =
    (explodeString '\n' 100 list).foldl (fun a line => a.add w (classify (trimLine line))) { list } := by
  rw [parseList]
  split
  · subst list
    rfl
  · rfl

/-- **A player is in the list if a line is plain, or has the rank of the player with one more character.** -/
theorem isInList_iff (hplayer : player ∈ w.players) {list : Text} (h : Regular list) :
    (parseList w list).isInList player = true ↔
      (∃ line ∈ list.splitOn '\n', Plain player (trimString line)) ∨
        ∃ line ∈ list.splitOn '\n', Cut player (trimString line) := by
  have hgrants : ∀ line ∈ list.splitOn '\n', (classify (trimLine line)).Grants player ↔
      Plain player (trimString line) ∨ Cut player (trimString line) := by
    intro line hline
    rw [trimLine_eq (h.head_ne line hline) (h.getLast_ne line hline)]
    exact grants_classify_iff player ((Texts.length_trimString_le ' ' line).trans (h.length_le line hline))
  have hempty : ¬({ list } : Access).isInList player = true := by
    rw [isInList_iff_or]
    rintro ((heveryone | hmem) | ⟨m, -, hmem⟩)
    · cases heveryone
    · cases hmem
    · cases hmem
  calc (parseList w list).isInList player = true
      ↔ ∃ line ∈ list.splitOn '\n', (classify (trimLine line)).Grants player := by
        rw [parseList_eq, Texts.explodeString_eq '\n' 100 list (Nat.le_succ_of_le h.count_le), isInList_foldl hplayer,
          or_iff_right hempty]
    _ ↔ ∃ line ∈ list.splitOn '\n', Plain player (trimString line) ∨ Cut player (trimString line) :=
        exists_congr fun line => and_congr_right (hgrants line)
    _ ↔ _ := by
        simp only [and_or_left, exists_or]

/-- **The list grants access to a player if and only if a line names the player, exactly when a line is plain, or lines
with the rank and one more character are there just as lines that name the player otherwise.** -/
theorem isInList_named_iff (w : World) (player : Player) (hplayer : player ∈ w.players) (list : Text)
    (h : Regular list) :
    ((parseList w list).isInList player = true ↔
        ∃ line ∈ list.splitOn '\n', Named player (trimString line)) ↔
      (∃ line ∈ list.splitOn '\n', Plain player (trimString line)) ∨
        ((∃ line ∈ list.splitOn '\n', Cut player (trimString line)) ↔
          ∃ line ∈ list.splitOn '\n', Other player (trimString line)) := by
  have hnamed : (∃ line ∈ list.splitOn '\n', Named player (trimString line)) ↔
      (∃ line ∈ list.splitOn '\n', Plain player (trimString line)) ∨
        ∃ line ∈ list.splitOn '\n', Other player (trimString line) := by
    simp only [named_iff, and_or_left, exists_or]
  rw [isInList_iff hplayer h, hnamed]
  by_cases hplain : ∃ line ∈ list.splitOn '\n', Plain player (trimString line)
  · exact iff_of_true (iff_of_true (Or.inl hplain) (Or.inl hplain)) (Or.inl hplain)
  · rw [or_iff_right hplain, or_iff_right hplain, or_iff_right hplain]

/-! ### The leader of the kings -/

/-- A guild with one rank. -/
def kings : Guild := { name := "Kings".toList, ranks := [{ id := 1, name := "leader".toList }] }

def leader : Player :=
  { guid := 1, name := "Arthur".toList, membership := some (kings, { id := 1, name := "leader".toList }) }

def kingdom : World where
  players := [leader]
  guilds := [kings]
  guid_ne_zero := by decide
  guids := by decide
  names := by decide
  guildNames := by decide
  rankIds := by decide
  rankNames := by decide
  members := by decide

theorem regular_named : Regular "arthur".toList :=
  ⟨by decide, by decide, by decide, by decide⟩

/-- The name of the leader is enough. -/
theorem leader_named :
    ((parseList kingdom "arthur".toList).isInList leader = true ↔
        ∃ line ∈ "arthur".toList.splitOn '\n', Named leader (trimString line)) ↔
      (∃ line ∈ "arthur".toList.splitOn '\n', Plain leader (trimString line)) ∨
        ((∃ line ∈ "arthur".toList.splitOn '\n', Cut leader (trimString line)) ↔
          ∃ line ∈ "arthur".toList.splitOn '\n', Other leader (trimString line)) :=
  isInList_named_iff kingdom leader List.mem_cons_self "arthur".toList regular_named

/-- The rank of the leader is looked up as "leade". -/
theorem leader_not_in_list :
    Regular "leader@kings".toList ∧
      ¬((parseList kingdom "leader@kings".toList).isInList leader = true ↔
        ∃ line ∈ "leader@kings".toList.splitOn '\n', Named leader (trimString line)) := by
  refine ⟨⟨by decide, by decide, by decide, by decide⟩, fun h => ?_⟩
  have hnamed : Named leader (trimString "leader@kings".toList) :=
    Or.inr (Or.inr (Or.inr ⟨_, rfl, by decide⟩))
  have hout : (parseList kingdom "leader@kings".toList).isInList leader = false := by decide
  rw [h.mpr ⟨"leader@kings".toList, by decide, hnamed⟩] at hout
  cases hout

end AccessList

end Moonlight
