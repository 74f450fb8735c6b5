import OpenStint.Library.Machine
import OpenStint.Library.Gf2
import OpenStint.Transponder
import OpenStint.Signal
import OpenStint.Frame
import OpenStint.Rc3Code
import OpenStint.Rc3Frame
import OpenStint.Rc4Message
import OpenStint.IdealPlatform
import OpenStint.Counters
import OpenStint.Library.BoundedQueue
import OpenStint.Rc4Trainer
import OpenStint.Library.OrderedMap
import OpenStint.Passing
import OpenStint.TimeSync
import OpenStint.Rc4File
import OpenStint.Rc4Registry
import OpenStint.Learning
import OpenStint.Library.CyclicWindow
import OpenStint.Preamble
import OpenStint.FrameDetector
import OpenStint.SymbolReader
import OpenStint.Receiver
import OpenStint.Receptions
import OpenStint.Rc3Errors
import OpenStint.PreambleSearch
import OpenStint.Rc4Text
import OpenStint.Rc4Resync
import OpenStint.Rc4Store
import OpenStint.Rc4Restart
import OpenStint.AmbRcBlacklist
import OpenStint.ProcessFrame
import OpenStint.OpenstintWords
import OpenStint.Rc3Admission
import OpenStint.PassingPoint
import OpenStint.Timecodes
import OpenStint.Rc4Errors
import OpenStint.MatchedFilter
import OpenStint.Library.MaxElement
import OpenStint.SamplingPhase
import OpenStint.TimesyncWindows
import OpenStint.Crossings
import OpenStint.Library.Prominence
import OpenStint.Peaks
import OpenStint.FrameBits
import OpenStint.ComputePassing
import OpenStint.PassingInterval
import OpenStint.Interpolation
import OpenStint.ChannelStatistics
import OpenStint.Library.Bisect
import OpenStint.Library.FirFilter
import OpenStint.PairStats
import OpenStint.Rc4Idempotence
import OpenStint.Rc4Lines
import OpenStint.ZeroPhase
import OpenStint.Decoder
import OpenStint.Subscribers
import OpenStint.DecoderFrames
import OpenStint.Recognition
import OpenStint.TimesyncAnomaly
import OpenStint.Capture
import OpenStint.ZroundBridge
import OpenStint.PairstatsRuns
import OpenStint.RcgtimingBridge
