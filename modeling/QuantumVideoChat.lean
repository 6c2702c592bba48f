import QuantumVideoChat.BitUtils
import QuantumVideoChat.Blocks
import QuantumVideoChat.PhysicalLayer
import QuantumVideoChat.Cascade
import QuantumVideoChat.Protocol
import QuantumVideoChat.KeyAgreement
import QuantumVideoChat.DeadTime
import QuantumVideoChat.QBERMonitor
import QuantumVideoChat.Transition
import QuantumVideoChat.KeyGenerators
import QuantumVideoChat.HardwareKeyGenerator
import QuantumVideoChat.KeyRotation
import QuantumVideoChat.PeerKeys
import QuantumVideoChat.Endpoint
import QuantumVideoChat.UserManager
import QuantumVideoChat.Pairing
import QuantumVideoChat.SocketAPI
import QuantumVideoChat.Server
import QuantumVideoChat.CallPairing
import QuantumVideoChat.SessionLifetime
import QuantumVideoChat.FailedConnect
import QuantumVideoChat.RestAPI
import QuantumVideoChat.ServerComms
import QuantumVideoChat.JoinRoom
import QuantumVideoChat.Leaving
import QuantumVideoChat.CallNetwork
import QuantumVideoChat.CallSteps
import QuantumVideoChat.CallTeardown
import QuantumVideoChat.IntrusionChannels
import QuantumVideoChat.AVNamespaces
import QuantumVideoChat.CascadeRun
import QuantumVideoChat.DetectorLeak
import QuantumVideoChat.SecureLength
import QuantumVideoChat.JoinForm
import QuantumVideoChat.UserIds
import QuantumVideoChat.Disconnecting
import QuantumVideoChat.Booking
import QuantumVideoChat.LockedSteps
import QuantumVideoChat.DoubleBooking
import QuantumVideoChat.FrameFormat
import QuantumVideoChat.ServerIdentity
import QuantumVideoChat.CaptureThreads
import QuantumVideoChat.MonitorFigures
import QuantumVideoChat.UserRecords
import QuantumVideoChat.RateLimit
import QuantumVideoChat.HealthChecks
import QuantumVideoChat.FileKeys
import QuantumVideoChat.MatlabBridge
import QuantumVideoChat.MediaCipher
import QuantumVideoChat.RotationRounds
import QuantumVideoChat.CheckedRound
import QuantumVideoChat.BitPacking
import QuantumVideoChat.EndpointCopies
import QuantumVideoChat.AuditTrail
import QuantumVideoChat.Trials
import QuantumVideoChat.InterceptResend
import QuantumVideoChat.JsonRoutes
import QuantumVideoChat.Page
import QuantumVideoChat.PageLink
import QuantumVideoChat.PageStatus
import QuantumVideoChat.DeviceLists
import QuantumVideoChat.PageControls
import QuantumVideoChat.SerialCalls
import QuantumVideoChat.CallSurvival
import QuantumVideoChat.HangUp
import QuantumVideoChat.Stranded
import QuantumVideoChat.CallCount
import QuantumVideoChat.UniversalHash
import QuantumVideoChat.KeySecrecy
import QuantumVideoChat.Dialogue
import QuantumVideoChat.ParityDialogue
import QuantumVideoChat.ReconciledKey
import QuantumVideoChat.RelayLink
import QuantumVideoChat.EventFeed
import QuantumVideoChat.Html
import QuantumVideoChat.Dashboard
