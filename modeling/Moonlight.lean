import Moonlight.Account.Coins
import Moonlight.Io.FileLoader
import Moonlight.Items.DecayWakeUp
import Moonlight.Map.SpectatorCache
import Moonlight.Game.TradeConsent
import Moonlight.Game.PartyRemoval
import Moonlight.Creatures.Experience
import Moonlight.Creatures.Summons
import Moonlight.Creatures.ConditionReload
import Moonlight.Io.PlayerItems
import Moonlight.Creatures.ConditionModifiers
import Moonlight.Account.Premium
import Moonlight.Creatures.WaitingList
import Moonlight.Scheduling.SchedulerLog
import Moonlight.Security.XteaBuffer
import Moonlight.Utils.WildcardTree
import Moonlight.Network.Connection
import Moonlight.Network.MapDescription
import Moonlight.Game.PartyChat
import Moonlight.Game.Guilds
import Moonlight.Io.Charms
import Moonlight.Creatures.SpawnVacancies
import Moonlight.Map.HouseRent
import Moonlight.Market.Supply
import Moonlight.Creatures.NpcTrade
import Moonlight.Network.Requests
import Moonlight.Map.StraightPaths
import Moonlight.Items.FreeSlots
import Moonlight.Creatures.DamageOverTime
import Moonlight.Creatures.SkillPercent
import Moonlight.Creatures.SkullTime
import Moonlight.Game.CreatureChecks
import Moonlight.Creatures.MountSpeed
import Moonlight.Map.StackPositions
import Moonlight.Game.StoreOffers
import Moonlight.Items.WeaponCharges
import Moonlight.Creatures.MonsterSpells
import Moonlight.Creatures.CombatHealth
import Moonlight.Game.QuickLoot
import Moonlight.Map.SightLine
import Moonlight.Creatures.TargetSearch
import Moonlight.Creatures.AreaRotations
import Moonlight.Creatures.AreaReflections
import Moonlight.Map.AccessList
import Moonlight.Game.Stowing
import Moonlight.Items.Mailbox
import Moonlight.Map.HouseClearing
import Moonlight.Network.Checksum
import Moonlight.Market.Fee
import Moonlight.Creatures.SpawnIntervals
import Moonlight.Creatures.ElementalDamage
import Moonlight.Creatures.DistanceStep
import Moonlight.Utils.Token
import Moonlight.Creatures.ApplyImbuement
import Moonlight.Database.DBInsert
import Moonlight.Creatures.Ban
