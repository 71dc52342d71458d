import HexWar.Domain.Confluence
import HexWar.Domain.Deliveries
import HexWar.Domain.Retreats
import HexWar.Domain.Simultaneity
import HexWar.Domain.Solvency
import HexWar.Matchmaking.Pairs
import HexWar.Matchmaking.Standalone
import HexWar.Matchmaking.WakeUps
import HexWar.Session.Connections
import HexWar.Session.CriticalSections
import HexWar.Session.Disclosure
import HexWar.Session.Grace
import HexWar.Session.Readiness
import HexWar.Session.Registry
import HexWar.Session.Relays
import HexWar.Session.RoomOwner
import HexWar.Session.Saving
import HexWar.Session.Sequencing
import HexWar.Session.Timeouts
import HexWar.Domain.Travel
import HexWar.Session.Window
import HexWar.Domain.Garrisons
import HexWar.Domain.Refusals
import HexWar.Session.DefaultDecisions
import HexWar.Domain.Replay
import HexWar.Domain.Passing
import HexWar.Domain.Mobility
import HexWar.Session.Allowance
import HexWar.Domain.Outcomes
import HexWar.Matchmaking.FirstCome
import HexWar.Session.ReceiveLoop
import HexWar.Domain.Converters
import HexWar.Client.OptimisticMoves
import HexWar.Matchmaking.JoinQueue
import HexWar.Matchmaking.Seats
import HexWar.Session.GameTime
import HexWar.Session.DomainRuns
import HexWar.Session.Chronicle
import HexWar.Client.GameClient
import HexWar.Domain.Units
import HexWar.Client.Controls
import HexWar.Domain.Impartial
