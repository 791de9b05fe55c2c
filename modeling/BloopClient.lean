import BloopClient.Tracelib.Future
import BloopClient.Tracelib.History
import BloopClient.Protocol
import BloopClient.Events
import BloopClient.Connection
import BloopClient.ClientTask
import BloopClient.Lifecycle
import BloopClient.ConnectionLife
import BloopClient.TaskLife
import BloopClient.WireOrder
import BloopClient.Shutdown
import BloopClient.StatusHistory
import BloopClient.Loopback
import BloopClient.Rounds
import BloopClient.Pairing
import BloopClient.HookDamage
import BloopClient.Handles
import BloopClient.LostShutdown
import BloopClient.Reconfigure
import BloopClient.Nfc.Ndef
import BloopClient.Nfc.TagArea
import BloopClient.Nfc.Scan
import BloopClient.Nfc.Mfrc522
import BloopClient.Nfc.WholeBuffer
import BloopClient.Audio.Cache
import BloopClient.Audio.Sync
import BloopClient.Audio.Frame
import BloopClient.Audio.Resume
import BloopClient.Latch
import BloopClient.Operations
import BloopClient.Nfc.TextRecord
import BloopClient.Nfc.Chunking
import BloopClient.Nfc.Capacity
import BloopClient.Nfc.Encoding
import BloopClient.Nfc.Truncation
import BloopClient.Nfc.Machine
import BloopClient.Nfc.Reader
import BloopClient.Nfc.CancelSafety
import BloopClient.Tracelib.Progress
import BloopClient.Nfc.ReaderProgress
import BloopClient.Tracelib.Table
import BloopClient.Tracelib.Program
import BloopClient.Tracelib.Interference
import BloopClient.Tracelib.Emulation
import BloopClient.Callers
import BloopClient.CallLedger
import BloopClient.CallOrder
import BloopClient.LostTask
import BloopClient.Audio.Works
import BloopClient.Audio.Races
import BloopClient.Audio.RaceSafety
import BloopClient.Audio.RaceResults
import BloopClient.Audio.NoPartialFile
import BloopClient.Audio.Alone
import BloopClient.Preload
import BloopClient.PreloadRuns
import BloopClient.Playback
import BloopClient.Recovery
import BloopClient.StatusGraph
