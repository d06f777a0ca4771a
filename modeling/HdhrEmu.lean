import HdhrEmu.AutoFilter
import HdhrEmu.CallEffort
import HdhrEmu.Channel
import HdhrEmu.ChannelCache
import HdhrEmu.ChannelMap
import HdhrEmu.ChannelNumeral
import HdhrEmu.ChannelPlan
import HdhrEmu.ChannelPost
import HdhrEmu.ChannelSet
import HdhrEmu.ChannelTable
import HdhrEmu.ChannelValue
import HdhrEmu.ClaimHolder
import HdhrEmu.ClearQam
import HdhrEmu.Config
import HdhrEmu.ControlDispatch
import HdhrEmu.ControlServer
import HdhrEmu.Crc32
import HdhrEmu.DeviceId
import HdhrEmu.DiscoverDocument
import HdhrEmu.Discovery
import HdhrEmu.FrameErrors
import HdhrEmu.FrontendExclusion
import HdhrEmu.GetsetCall
import HdhrEmu.GetsetServer
import HdhrEmu.HdhrPkt
import HdhrEmu.HeldReadings
import HdhrEmu.HeldRefresher
import HdhrEmu.HoldConsistency
import HdhrEmu.HttpPost
import HdhrEmu.Keepalive
import HdhrEmu.LegacySeq
import HdhrEmu.Lib.Alone
import HdhrEmu.Lib.BoundedMap
import HdhrEmu.Lib.ByteFields
import HdhrEmu.Lib.ByteStream
import HdhrEmu.Lib.CString
import HdhrEmu.Lib.CheckDigit
import HdhrEmu.Lib.CheckedMemory
import HdhrEmu.Lib.CopyRing
import HdhrEmu.Lib.Draining
import HdhrEmu.Lib.Fifo
import HdhrEmu.Lib.FirstByKey
import HdhrEmu.Lib.History
import HdhrEmu.Lib.IntegerText
import HdhrEmu.Lib.Interleaving
import HdhrEmu.Lib.Json
import HdhrEmu.Lib.JsonText
import HdhrEmu.Lib.M3u
import HdhrEmu.Lib.PathName
import HdhrEmu.Lib.Registers
import HdhrEmu.Lib.RingQueue
import HdhrEmu.Lib.RowTable
import HdhrEmu.Lib.Scanf
import HdhrEmu.Lib.ShiftRegister
import HdhrEmu.Lib.Strtod
import HdhrEmu.Lib.TextBuffer
import HdhrEmu.Lib.Tlv
import HdhrEmu.Lib.Tracking
import HdhrEmu.Lib.Trail
import HdhrEmu.Lib.Transducer
import HdhrEmu.Lineup
import HdhrEmu.LineupDocuments
import HdhrEmu.LineupUrls
import HdhrEmu.NamedChannel
import HdhrEmu.NodeTuning
import HdhrEmu.Ownership
import HdhrEmu.PendingQueue
import HdhrEmu.PidFilter
import HdhrEmu.PidFilterFormat
import HdhrEmu.PidFilterText
import HdhrEmu.PktCapacity
import HdhrEmu.PktFrame
import HdhrEmu.PktWalk
import HdhrEmu.Psip
import HdhrEmu.PsipMemory
import HdhrEmu.PsipTables
import HdhrEmu.PullRelease
import HdhrEmu.PushStart
import HdhrEmu.PushTarget
import HdhrEmu.PushThreads
import HdhrEmu.Quiescence
import HdhrEmu.RestoredSettings
import HdhrEmu.SavedSettings
import HdhrEmu.ScanAttempts
import HdhrEmu.ScanPsip
import HdhrEmu.ScanQueue
import HdhrEmu.Selection
import HdhrEmu.SelectionWrites
import HdhrEmu.SetAnswers
import HdhrEmu.SettingWrites
import HdhrEmu.SettledSettings
import HdhrEmu.StartupScan
import HdhrEmu.StaticFiles
import HdhrEmu.StoredChannels
import HdhrEmu.StreamInfo
import HdhrEmu.StreamPidSet
import HdhrEmu.StreamPids
import HdhrEmu.StreamRing
import HdhrEmu.StreamStats
import HdhrEmu.Threads
import HdhrEmu.Tuner
import HdhrEmu.TunerClaim
import HdhrEmu.TunerPool
import HdhrEmu.TunerStatus
import HdhrEmu.TvctTable
import HdhrEmu.UdpTarget
import HdhrEmu.VctReading
import HdhrEmu.WebPrograms
import HdhrEmu.WebReplies
import HdhrEmu.WebStatus
import HdhrEmu.World
