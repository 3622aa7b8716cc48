import SimpleGo.Lib.Memory
import SimpleGo.Lib.Runs
import SimpleGo.Lib.Store
import SimpleGo.Lib.Orbits
import SimpleGo.Lib.File
import SimpleGo.Lib.Strings
import SimpleGo.Lib.Json
import SimpleGo.Crypto.Primitives
import SimpleGo.Crypto.Symbolic
import SimpleGo.Crypto.RequestTask
import SimpleGo.Contacts.Records
import SimpleGo.Ratchet.State
import SimpleGo.Ratchet.Header
import SimpleGo.Storage.Nvs
import SimpleGo.Ratchet.Persist
import SimpleGo.Ratchet.Encrypt
import SimpleGo.Ratchet.Kem
import SimpleGo.Ratchet.Decrypt
import SimpleGo.Ratchet.FailedDecrypt
import SimpleGo.Ratchet.KeyAgreement
import SimpleGo.Ratchet.CrashConsistency
import SimpleGo.Ratchet.KemAgreement
import SimpleGo.Ratchet.SendKeys
import SimpleGo.Ratchet.RootChain
import SimpleGo.Agent.Receive
import SimpleGo.Session.Endpoints
import SimpleGo.Session.KemLockstep
import SimpleGo.Session.Lockstep
import SimpleGo.Session.Correctness
import SimpleGo.Session.Adversary
import SimpleGo.Session.Positions
import SimpleGo.Session.Forgery
import SimpleGo.History.Format
import SimpleGo.History.Device
import SimpleGo.History.NonceUniqueness
import SimpleGo.History.Load
import SimpleGo.History.Records
import SimpleGo.History.Refinement
import SimpleGo.History.Atomicity
import SimpleGo.History.LoadSafety
import SimpleGo.Net.Framing
import SimpleGo.Contacts.Device
import SimpleGo.Contacts.Removal
import SimpleGo.Contacts.Restore
import SimpleGo.Contacts.SlotReuse
import SimpleGo.Contacts.RatchetSlots
import SimpleGo.Contacts.ChainPosition
import SimpleGo.Contacts.DeferredWork
import SimpleGo.Contacts.DeferredCleanup
import SimpleGo.Agent.Messages
import SimpleGo.Agent.ChatText
import SimpleGo.Agent.Invitation
import SimpleGo.Agent.Envelope
import SimpleGo.Rotation.Records
import SimpleGo.Rotation.Device
import SimpleGo.Rotation.Switch
import SimpleGo.Rotation.AppTask
import SimpleGo.Rotation.Messages
import SimpleGo.Rotation.Rules
import SimpleGo.Rotation.LiveSwitch
import SimpleGo.Rotation.Persistence
import SimpleGo.Rotation.MessageLoss
import SimpleGo.Rotation.Stranding
import SimpleGo.Rotation.Pass
import SimpleGo.Rotation.PowerLoss
import SimpleGo.Rotation.CrashRecovery
import SimpleGo.Rotation.SendIdentity
import SimpleGo.Rotation.Announcements
import SimpleGo.Rotation.E2eKeys
import SimpleGo.Rotation.ReplacedQueue
import SimpleGo.Tasks.Transmissions
import SimpleGo.Tasks.Dispatch
import SimpleGo.Tasks.TypedTexts
import SimpleGo.Tasks.KeyCommands
import SimpleGo.Tasks.SenderKeys
import SimpleGo.Tasks.KeyNotification
import SimpleGo.Tasks.Receipts
import SimpleGo.Peer.AgentMessage
import SimpleGo.Peer.Connection
import SimpleGo.Peer.RetryIsolation
import SimpleGo.Peer.MessageChain
import SimpleGo.Peer.OwnServer
import SimpleGo.Peer.Slots
import SimpleGo.Tasks.ContactQueue
import SimpleGo.Tasks.ActiveContact
import SimpleGo.Peer.Acceptance
import SimpleGo.Peer.MessageLength
import SimpleGo.Tasks.PeerKeyCache
import SimpleGo.Tasks.Acknowledgements
import SimpleGo.Ratchet.HeaderFormat
import SimpleGo.Agent.InputBounds
import SimpleGo.Agent.Codings
import SimpleGo.Agent.InviteLink
import SimpleGo.Lib.Slices
import SimpleGo.Ui.Bubbles
import SimpleGo.Ui.Chat
import SimpleGo.Ui.SlidingWindow
import SimpleGo.Ui.StatusLabels
import SimpleGo.Ui.Rendering
import SimpleGo.Tasks.MessageStatus
import SimpleGo.Tasks.FailedMessages
import SimpleGo.Tasks.FailedHistory
import SimpleGo.Agent.EnvelopeReads
import SimpleGo.Agent.EnvelopeBounds
import SimpleGo.Agent.EnvelopeRoundTrip
import SimpleGo.Agent.InvitationWrites
import SimpleGo.Tasks.ReceiptLists
import SimpleGo.History.AnyLoad
import SimpleGo.Tasks.DeliveredMark
import SimpleGo.Rotation.QkeyAcceptance
import SimpleGo.Rotation.LifeCycle
import SimpleGo.Rotation.QaddPayload
import SimpleGo.Tasks.TextLengths
import SimpleGo.Net.CertChain
import SimpleGo.Tasks.HeaderParsers
import SimpleGo.Agent.RoundTrips
import SimpleGo.Net.WifiCredentials
import SimpleGo.Net.ServerList
import SimpleGo.Contacts.ContactCount
import SimpleGo.Crypto.PrecomputedPairs
import SimpleGo.Sntrup.Agreement
import SimpleGo.Session.Sntrup
