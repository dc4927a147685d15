import HarmonyScreen.Lib.Program
import HarmonyScreen.Lib.Rely
import HarmonyScreen.Lib.Discipline
import HarmonyScreen.Lib.Trace
import HarmonyScreen.Lib.Attempt
import HarmonyScreen.Lib.Updates
import HarmonyScreen.Lib.History
import HarmonyScreen.Lib.Reader
import HarmonyScreen.Lib.Bits
import HarmonyScreen.Lib.SecureHash
import HarmonyScreen.Lib.Base64
import HarmonyScreen.Lib.Dns
import HarmonyScreen.Lib.Window
import HarmonyScreen.Receiver.Bytes
import HarmonyScreen.Receiver.Sha256
import HarmonyScreen.Receiver.NativeProtocol
import HarmonyScreen.Receiver.WebSocket
import HarmonyScreen.Proofs.WebSocketStream
import HarmonyScreen.Receiver.Upgrade
import HarmonyScreen.Receiver.AvcInput
import HarmonyScreen.Receiver.DecoderState
import HarmonyScreen.Receiver.Session
import HarmonyScreen.Receiver.Decoding
import HarmonyScreen.Receiver.Authentication
import HarmonyScreen.Receiver.System
import HarmonyScreen.Proofs.Sha256
import HarmonyScreen.Proofs.Upgrade
import HarmonyScreen.Proofs.Effects
import HarmonyScreen.Proofs.Handshake
import HarmonyScreen.Proofs.Pairing
import HarmonyScreen.Proofs.PairingDelivery
import HarmonyScreen.Proofs.Network
import HarmonyScreen.Proofs.OneTime
import HarmonyScreen.Proofs.SourceContract
import HarmonyScreen.Proofs.SourceHandshake
import HarmonyScreen.Proofs.EpochAgreement
import HarmonyScreen.Proofs.FreshPairing
import HarmonyScreen.Proofs.Connection
import HarmonyScreen.Proofs.AutomaticPath
import HarmonyScreen.Extension.DirectProtocol
import HarmonyScreen.Proofs.VideoFormat
import HarmonyScreen.Extension.DirectDelivery
import HarmonyScreen.Proofs.Delivery
import HarmonyScreen.Proofs.MdnsNames
import HarmonyScreen.Proofs.MdnsDecode
import HarmonyScreen.Proofs.MdnsMessages
import HarmonyScreen.Proofs.MdnsPackets
import HarmonyScreen.Proofs.MdnsQueries
import HarmonyScreen.Proofs.MdnsEffects
import HarmonyScreen.Proofs.MdnsOwner
import HarmonyScreen.Proofs.MdnsSections
import HarmonyScreen.Proofs.MdnsWorker
import HarmonyScreen.Proofs.MdnsRun
import HarmonyScreen.Proofs.MdnsCalls
import HarmonyScreen.Proofs.MdnsRuns
import HarmonyScreen.Proofs.Goodbye
import HarmonyScreen.Proofs.SingleOwner
import HarmonyScreen.Proofs.ConflictDetection
import HarmonyScreen.Proofs.ResponseRate
import HarmonyScreen.Proofs.ProbeSections
import HarmonyScreen.Proofs.ProbeOthers
import HarmonyScreen.Proofs.ProbePhase
import HarmonyScreen.Receiver.MdnsProtocol
import HarmonyScreen.Receiver.MdnsReads
import HarmonyScreen.Receiver.MdnsResponder
import HarmonyScreen.Receiver.DecoderSystem
import HarmonyScreen.Proofs.DecoderTrace
import HarmonyScreen.Proofs.DecoderQueue
import HarmonyScreen.Proofs.DecoderDiscipline
import HarmonyScreen.Proofs.DecoderLifecycle
import HarmonyScreen.Proofs.DecoderOperations
import HarmonyScreen.Proofs.DecoderEntries
import HarmonyScreen.Proofs.DecoderRuns
import HarmonyScreen.Proofs.InputGrammar
import HarmonyScreen.Proofs.DecoderMatches
import HarmonyScreen.Proofs.InputSlots
import HarmonyScreen.Proofs.AvcSplit
import HarmonyScreen.Extension.ProofMessages
import HarmonyScreen.Extension.VideoContract
import HarmonyScreen.Extension.TrustedDevice
import HarmonyScreen.Extension.Setup
import HarmonyScreen.Extension.ServiceWorker
import HarmonyScreen.Extension.Offscreen
import HarmonyScreen.Proofs.EncoderIdentity
import HarmonyScreen.Proofs.ProofMessages
import HarmonyScreen.Proofs.AutoContract
import HarmonyScreen.Proofs.FrameRate
import HarmonyScreen.Proofs.StableSize
import HarmonyScreen.Extension.FrameMonitor
import HarmonyScreen.Proofs.StallReports
import HarmonyScreen.Lib.Json
import HarmonyScreen.Proofs.JsonFields
import HarmonyScreen.Proofs.Forgetting
import HarmonyScreen.Proofs.ReceiverHost
import HarmonyScreen.Receiver.Ipv4
import HarmonyScreen.Proofs.HostNormalization
import HarmonyScreen.Proofs.HostPermissions
import HarmonyScreen.Proofs.StateStore
import HarmonyScreen.Lib.Serial
import HarmonyScreen.Extension.SourceEpochAllocator
import HarmonyScreen.Proofs.SourceEpochs
import HarmonyScreen.Host.MfH264Encoder
import HarmonyScreen.Proofs.AnnexB
import HarmonyScreen.Host.HssProtocol
import HarmonyScreen.Proofs.ControlFrames
import HarmonyScreen.Relay.LanVideo
import HarmonyScreen.Relay.WebSocketServer
import HarmonyScreen.Proofs.Fragments
import HarmonyScreen.Host.DataPlaneGate
import HarmonyScreen.Proofs.GateOrder
import HarmonyScreen.Host.HostServer
import HarmonyScreen.Proofs.ResumeWindow
import HarmonyScreen.Proofs.DecodeChain
import HarmonyScreen.Proofs.DependencyChain
import HarmonyScreen.Extension.DirectClient
import HarmonyScreen.Extension.DirectRecovery
import HarmonyScreen.Proofs.SecretRelease
import HarmonyScreen.Proofs.Persistence
import HarmonyScreen.Lib.Dialogue
import HarmonyScreen.Extension.JsonText
import HarmonyScreen.Link.Conversation
import HarmonyScreen.Proofs.Conversing
import HarmonyScreen.Proofs.Serving
import HarmonyScreen.Proofs.FlatObjects
import HarmonyScreen.Proofs.HonestMessages
import HarmonyScreen.Proofs.HonestAuthentication
import HarmonyScreen.Proofs.PairingMessages
import HarmonyScreen.Proofs.HonestPairing
import HarmonyScreen.Lib.Focus
import HarmonyScreen.Host.VideoHeader
import HarmonyScreen.Host.VideoPlane
import HarmonyScreen.Proofs.VideoHeaders
import HarmonyScreen.Proofs.VideoSafety
import HarmonyScreen.Proofs.SessionSteps
import HarmonyScreen.Proofs.RelaySession
