import SuperShare.Lib.Decoder
import SuperShare.Lib.Bincode
import SuperShare.Lib.ByteReader
import SuperShare.Lib.Run
import SuperShare.Lib.Chunks
import SuperShare.Lib.Interleave
import SuperShare.Lib.RwLock
import SuperShare.Lib.Broadcast
import SuperShare.Lib.Binary32
import SuperShare.Lib.Directory
import SuperShare.Lib.Tiling
import SuperShare.Lib.KeyedList
import SuperShare.Lib.Changes
import SuperShare.Lib.Holding
import SuperShare.Lib.Conveyor
import SuperShare.Lib.HostPort
import SuperShare.Lib.Text
import SuperShare.Core.Protocol
import SuperShare.Network.Framing
import SuperShare.Network.ControlReader
import SuperShare.Network.Server
import SuperShare.Network.Registry
import SuperShare.Network.DataPairing
import SuperShare.Network.Forwarding
import SuperShare.Network.LockService
import SuperShare.Network.HandlerRefinement
import SuperShare.Network.StalledClient
import SuperShare.Network.Agreement
import SuperShare.Network.KeepAlive
import SuperShare.Network.ServerLifecycle
import SuperShare.Network.FailedStart
import SuperShare.Network.AcceptedFrames
import SuperShare.Network.CutStreams
import SuperShare.Network.TrustDirectory
import SuperShare.Network.ClientCsr
import SuperShare.Network.Addresses
import SuperShare.Network.MutualTls
import SuperShare.Network.GenCert
import SuperShare.Clipboard.Transfer
import SuperShare.Clipboard.Limits
import SuperShare.Clipboard.SharedSlot
import SuperShare.Clipboard.Monitor
import SuperShare.Clipboard.LocalCopies
import SuperShare.Clipboard.Echo
import SuperShare.Clipboard.Reassembly
import SuperShare.Clipboard.Relay
import SuperShare.Clipboard.Receiver
import SuperShare.Clipboard.Sizes
import SuperShare.Clipboard.TwoMachines
import SuperShare.Clipboard.Convergence
import SuperShare.Pairing.PinManager
import SuperShare.Pairing.PinLaw
import SuperShare.Pairing.Handshake
import SuperShare.Pairing.SingleRun
import SuperShare.Pairing.Attempts
import SuperShare.Pairing.Lockout
import SuperShare.Pairing.Provisioning
import SuperShare.Pairing.TrustStore
import SuperShare.Pairing.TrustLists
import SuperShare.Pairing.ClientTrust
import SuperShare.Pairing.ShownPin
import SuperShare.Pairing.Client
import SuperShare.Pairing.Dialogue
import SuperShare.Pairing.DialogueStages
import SuperShare.Pairing.HonestRun
import SuperShare.Pairing.Recording
import SuperShare.Input.WarpCapture
import SuperShare.Input.Forwarder
import SuperShare.Input.Injection
import SuperShare.Input.HeldKeys
import SuperShare.Input.Motion
import SuperShare.Input.CursorSync
import SuperShare.Input.Deltas
import SuperShare.Input.Crossing
import SuperShare.Input.Boundary
import SuperShare.Input.VirtualCursor
import SuperShare.Input.CursorRows
import SuperShare.Session.DataConsumers
import SuperShare.Session.DataLink
import SuperShare.Session.EndToEnd
import SuperShare.Session.ReturnPath
import SuperShare.Session.Client
import SuperShare.Session.Delivery
import SuperShare.Session.ExitRequest
import SuperShare.Session.Connections
import SuperShare.Session.ClientTab
import SuperShare.Session.ScreenSize
import SuperShare.Session.Backoff
import SuperShare.Session.LostConnection
import SuperShare.Session.Reconnection
import SuperShare.Network.Restarts
