import IperfRuntime.ClockReading
import IperfRuntime.StableInsertion
import IperfRuntime.TimerQueue
import IperfRuntime.JsonTree
import IperfRuntime.TestState
import IperfRuntime.EntryPoints
import IperfRuntime.TestParameters
import IperfRuntime.ServerLoop
import IperfRuntime.ServerSessions
import IperfRuntime.PrintfText
import IperfRuntime.ReportOutput
import IperfRuntime.ResultsExchange
import IperfRuntime.ResultCallbacks
import IperfRuntime.ListLoop
import IperfRuntime.StreamTraffic
import IperfRuntime.IntervalStats
import IperfRuntime.ByteConservation
import IperfRuntime.TrafficFrame
import IperfRuntime.TimerPairs
import IperfRuntime.ClientTimers
import IperfRuntime.StreamCreation
import IperfRuntime.ClientRun
import IperfRuntime.IntervalReports
import IperfRuntime.IntervalAlternation
import IperfRuntime.ClientLoop
import IperfRuntime.TimerEntries
import IperfRuntime.TimerOwnership
import IperfRuntime.ResultsFrame
import IperfRuntime.RateLimit
import IperfRuntime.EventTrace
import IperfRuntime.JniExec
import IperfRuntime.EndpointFrame
import IperfRuntime.ErrorPaths
import IperfRuntime.DescriptorLedger
import IperfRuntime.ParameterExchange
import IperfRuntime.ArgumentWords
import IperfRuntime.CommandHistory
import IperfRuntime.FileTransfer
import IperfRuntime.ResultsAgreement
import IperfRuntime.ServerAccept
import IperfRuntime.ControlAgreement
import IperfRuntime.ControlCompletion
import IperfRuntime.SessionAgreement
import IperfRuntime.CommandReports
import IperfRuntime.JsonFraming
import IperfRuntime.MessageReads
import IperfRuntime.DatagramCounting
import IperfRuntime.DatagramHeader
import IperfRuntime.DatagramNumbering
import IperfRuntime.JitterEstimate
import IperfRuntime.ResultsOverwrite
import IperfRuntime.IntervalWindows
import IperfRuntime.SendLimits
import IperfRuntime.BlockCount
import IperfRuntime.TcpSends
import IperfRuntime.ZeroCopy
import IperfRuntime.StreamRecords
import IperfRuntime.FinalReport
import IperfRuntime.BandwidthDivisions
import IperfRuntime.RttSummary
import IperfRuntime.UnitFormats
import IperfRuntime.DescriptorSets
import IperfRuntime.ServerSets
import IperfRuntime.SelectMoments
import IperfRuntime.TimerRuns
import IperfRuntime.LinkedCells
import IperfRuntime.TimerHeap
import IperfRuntime.TimerMachine
import IperfRuntime.ServerOutput
import IperfRuntime.SignificandRounding
import IperfRuntime.JsonNumbers
import IperfRuntime.NumberAccuracy
import IperfRuntime.JsonStrings
import IperfRuntime.JsonText
import IperfRuntime.JsonRoundTrip
import IperfRuntime.JsonFidelity
import IperfRuntime.JsonSafety
import IperfRuntime.JsonBuffers
import IperfRuntime.WireExchange
import IperfRuntime.JsonItems
import IperfRuntime.ItemOwnership
import IperfRuntime.ItemMessages
import IperfRuntime.PartialSteps
import IperfRuntime.DatagramSockets
import IperfRuntime.UdpHandshake
import IperfRuntime.HandshakeProgress
import IperfRuntime.StreamPairing
import IperfRuntime.JsonPrintf
import IperfRuntime.JsonReports
import IperfRuntime.ClientAccount
