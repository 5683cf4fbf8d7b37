import Ocellus.Ids.ScanCompleteness
import Ocellus.Ids.RateLimit
import Ocellus.Ids.SynFlood
import Ocellus.Base.TtlSet
import Ocellus.Ids.RateLimitSource
import Ocellus.Base.TokenBucket
import Ocellus.Base.Tumbling
import Ocellus.Ids.RateLimitConformance
import Ocellus.Base.Swept
import Ocellus.Base.Since
import Ocellus.Ids.Sweeper
import Ocellus.Capture.Framing
import Ocellus.Ids.Blacklist
import Ocellus.Ids.FeedLoading
import Ocellus.Ids.BlacklistHistory
import Ocellus.Base.Transition
import Ocellus.Pipeline.RingBuffer
import Ocellus.Pipeline.Shutdown
import Ocellus.Base.Entropy
import Ocellus.Base.Utf8
import Ocellus.Ids.Dns
import Ocellus.Ids.DnsSafety
import Ocellus.Base.AhoCorasick
import Ocellus.Ids.Payload
import Ocellus.Ids.Baseline
import Ocellus.Ids.Engine
import Ocellus.Capture.ParseSafety
import Ocellus.Ids.SynFloodSegment
import Ocellus.Ids.Grades
import Ocellus.Ids.EngineSafety
import Ocellus.Ids.Strength
import Ocellus.Ids.PrimaryFlag
import Ocellus.Ids.FlagOrder
import Ocellus.Ids.EngineCall
import Ocellus.Ids.Refinement
import Ocellus.Ids.ParallelScoring
import Ocellus.Base.Workers
import Ocellus.Ids.HalfOpen
import Ocellus.Ids.Persistence
import Ocellus.Ids.Restarts
import Ocellus.Ids.FailedWrite
import Ocellus.Base.DropOldest
import Ocellus.Pipeline.PacketEvent
import Ocellus.Pipeline.PacketStream
import Ocellus.Pipeline.RingBufferHistory
import Ocellus.Pipeline.Agent
import Ocellus.Pipeline.CaptureOrder
import Ocellus.Pipeline.Heartbeat
import Ocellus.Ids.ScanSoundness
import Ocellus.Base.Isolation
import Ocellus.Ids.SourceIsolation
import Ocellus.Ids.RstJudgement
import Ocellus.Ids.ProtocolShares
import Ocellus.Ids.DnsDecoding
import Ocellus.Ids.EngineSignals
import Ocellus.Ids.DnsCounting
import Ocellus.Base.Decimal
import Ocellus.Ids.CidrParsing
import Ocellus.Ids.DnsDecoding
import Ocellus.Ids.EngineSignals
import Ocellus.Base.TumblingAlarm
import Ocellus.Ids.SynFloodEvasion
import Ocellus.Base.PatternOverlap
import Ocellus.Ids.LearningAlerts
import Ocellus.Ids.SignatureOverlap
import Ocellus.Capture.Ipv4Frames
import Ocellus.Ids.BlacklistEnforcement
import Ocellus.Capture.TransportFields
import Ocellus.Pipeline.RingBufferCapacity
import Ocellus.Ids.FragmentFields
import Ocellus.Ids.KnownDomains
import Ocellus.Ids.PayloadStart
import Ocellus.Ids.DnsGrammar
import Ocellus.Base.AtomicProgram
import Ocellus.Ids.AnalyzeProgram
import Ocellus.Ids.ConcurrentAnalysis
import Ocellus.Ids.EndOfLearning
import Ocellus.Ids.Feeds
import Ocellus.Pipeline.AddressText
import Ocellus.Pipeline.WholeAgent
import Ocellus.Capture.Metadata
import Ocellus.Pipeline.Conservation
import Ocellus.Pipeline.Wakeups
import Ocellus.Base.TimedProgram
import Ocellus.Ids.ConcurrentRates
import Ocellus.Ids.Reframing
import Ocellus.Ids.Accesses
import Ocellus.Pipeline.Identity
import Ocellus.Pipeline.TestFrames
import Ocellus.Base.Stamps
import Ocellus.Ids.Footprint
import Ocellus.Pipeline.TestSender
import Ocellus.Pipeline.EventFields
