import GoblinZomboid.Server.Presence
import GoblinZomboid.Server.Isolation
import GoblinZomboid.Lib.Utf8
import GoblinZomboid.Lib.PyText
import GoblinZomboid.Server.Situation
import GoblinZomboid.Agent.Mind
import GoblinZomboid.Server.Capabilities
import GoblinZomboid.Wire.FreeWill
import GoblinZomboid.Wire.Folding
import GoblinZomboid.Server.Cancelled
import GoblinZomboid.Server.Brain
import GoblinZomboid.Server.Cancelled
import GoblinZomboid.Server.Brain
import GoblinZomboid.Server.Atomic
import GoblinZomboid.Server.Autonomy
import GoblinZomboid.Server.Execute
import GoblinZomboid.Server.Recall
import GoblinZomboid.Lib.PyRegex
import GoblinZomboid.Lib.PyValue
import GoblinZomboid.Agent.Protocol
import GoblinZomboid.Agent.Events
import GoblinZomboid.Server.ChatBridge
import GoblinZomboid.Wire.Chat
import GoblinZomboid.Lib.Script
import GoblinZomboid.Relay.Push
import GoblinZomboid.Relay.Safety
import GoblinZomboid.Relay.Progress
import GoblinZomboid.Relay.Pull
import GoblinZomboid.Relay.Once
import GoblinZomboid.Relay.Reach
import GoblinZomboid.Agent.Ipc
import GoblinZomboid.Agent.AtMostOnce
import GoblinZomboid.Server.Ipc
import GoblinZomboid.Server.Ticks
import GoblinZomboid.Server.Replay
import GoblinZomboid.Agent.Controllers
import GoblinZomboid.Lib.Attempt
import GoblinZomboid.Agent.Driver
import GoblinZomboid.Agent.Service
import GoblinZomboid.Agent.Turns
import GoblinZomboid.Agent.Passes
import GoblinZomboid.Agent.History
import GoblinZomboid.Agent.Speaker
import GoblinZomboid.Agent.OneOrder
import GoblinZomboid.Lib.Double
import GoblinZomboid.Lib.Numeral
import GoblinZomboid.Lib.PyJson
import GoblinZomboid.Lib.PySorted
import GoblinZomboid.Agent.Codec
import GoblinZomboid.Lib.JsonText
import GoblinZomboid.Shared.Decode
import GoblinZomboid.Shared.Leaves
import GoblinZomboid.Shared.Grammar
import GoblinZomboid.Lib.Near
import GoblinZomboid.Lib.Printf
import GoblinZomboid.Shared.Encode
import GoblinZomboid.Shared.Tables
import GoblinZomboid.Shared.Encoding
import GoblinZomboid.Shared.RoundTrip
import GoblinZomboid.Wire.Documents
import GoblinZomboid.Wire.Codec
import GoblinZomboid.Agent.Episodes
import GoblinZomboid.Agent.Self
import GoblinZomboid.Agent.Sentience
import GoblinZomboid.Agent.Moves
import GoblinZomboid.Agent.Plans
import GoblinZomboid.Agent.Finished
import GoblinZomboid.Wire.Success
import GoblinZomboid.Agent.Validator
import GoblinZomboid.Wire.Command
import GoblinZomboid.Wire.Quantity
import GoblinZomboid.Wire.Safe
import GoblinZomboid.Wire.Schema
import GoblinZomboid.Wire.Agreement
import GoblinZomboid.Server.Runtime
import GoblinZomboid.Server.BridgePath
import GoblinZomboid.Server.Registry
import GoblinZomboid.Server.StepMachine
import GoblinZomboid.Server.Retries
import GoblinZomboid.Server.Replies
import GoblinZomboid.Server.Answers
import GoblinZomboid.Relay.Modes
import GoblinZomboid.Relay.Healing
import GoblinZomboid.Server.Custody
import GoblinZomboid.Server.Transfer
import GoblinZomboid.Server.Pickup
import GoblinZomboid.Server.Rings
import GoblinZomboid.Server.Search
import GoblinZomboid.Agent.Redaction
import GoblinZomboid.Lib.Spaced
import GoblinZomboid.Wire.Speech
import GoblinZomboid.Agent.Revalidation
import GoblinZomboid.Server.Delivery
import GoblinZomboid.Lib.BestFirst
import GoblinZomboid.Lib.BinaryHeap
import GoblinZomboid.Shared.Route
import GoblinZomboid.Shared.Shortest
import GoblinZomboid.Server.Ledger
import GoblinZomboid.Server.Sorting
import GoblinZomboid.Server.Fetching
import GoblinZomboid.Server.Apart
import GoblinZomboid.Server.Loot
import GoblinZomboid.Server.Materials
import GoblinZomboid.Lib.ByteBuffer
import GoblinZomboid.Server.Envelope
import GoblinZomboid.Lib.Probing
import GoblinZomboid.Server.Names
import GoblinZomboid.Server.SoleBody
import GoblinZomboid.Shared.BridgeRoot
import GoblinZomboid.Agent.Chatter
import GoblinZomboid.Agent.Duplicates
import GoblinZomboid.Server.Provision
import GoblinZomboid.Wire.NpcId
import GoblinZomboid.Server.Assignments
import GoblinZomboid.Agent.Store
import GoblinZomboid.Server.Persistence
import GoblinZomboid.Server.Quarantine
import GoblinZomboid.Server.Trail
import GoblinZomboid.Lib.JsonNesting
import GoblinZomboid.Agent.Restarts
import GoblinZomboid.Agent.Hunt
import GoblinZomboid.Agent.Party
import GoblinZomboid.Agent.Prize
import GoblinZomboid.Agent.Squads
import GoblinZomboid.Server.Boards
import GoblinZomboid.Server.Access
import GoblinZomboid.Server.GainAccess
import GoblinZomboid.Server.Power
import GoblinZomboid.Lib.OneFault
import GoblinZomboid.Server.Padlocks
import GoblinZomboid.Server.VehicleParts
import GoblinZomboid.Agent.PublicView
import GoblinZomboid.Agent.Reflex
import GoblinZomboid.Lib.Reading
import GoblinZomboid.Server.Boarding
import GoblinZomboid.Server.Riding
import GoblinZomboid.Server.Reserved
import GoblinZomboid.Server.Defense
import GoblinZomboid.Server.Shots
