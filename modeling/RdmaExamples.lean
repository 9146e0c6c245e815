import RdmaExamples.Library.Runs
import RdmaExamples.Library.Tiling
import RdmaExamples.Library.MachineWords
import RdmaExamples.Library.Programs
import RdmaExamples.Library.ByteStrings
import RdmaExamples.Library.TwoRuns
import RdmaExamples.RdmaFc.Options
import RdmaExamples.RdmaFc.Context
import RdmaExamples.RdmaFc.ReadLoop
import RdmaExamples.RdmaFc.ReadTiling
import RdmaExamples.RdmaFc.LocalBuffer
import RdmaExamples.RdmaFc.Setup
import RdmaExamples.RdmaFc.SetupRuns
import RdmaExamples.RdmaFc.ConnectionSlots
import RdmaExamples.RdmaFc.LiveConnections
import RdmaExamples.RdmaFc.DciPool
import RdmaExamples.RdmaFc.Teardown
import RdmaExamples.RdmaFc.FinGate
import RdmaExamples.RdmaFc.ReadsFirst
import RdmaExamples.RdmaFc.FinOrder
import RdmaExamples.Rcopy.Messages
import RdmaExamples.Rcopy.Calls
import RdmaExamples.Rcopy.Server
import RdmaExamples.Rcopy.Client
import RdmaExamples.Rcopy.Traces
import RdmaExamples.Rcopy.Receive
import RdmaExamples.Rcopy.ServerRuns
import RdmaExamples.Rcopy.Truthful
import RdmaExamples.Rcopy.Isolation
import RdmaExamples.Rcopy.Streams
import RdmaExamples.Rcopy.Files
import RdmaExamples.Rcopy.Network
import RdmaExamples.Rcopy.ClientRuns
import RdmaExamples.Rcopy.Copy
import RdmaExamples.Rcopy.Grammar
import RdmaExamples.Rcopy.Resources
import RdmaExamples.Rcopy.FileStore
import RdmaExamples.Apm.AltPath
import RdmaExamples.Apm.PingPong
import RdmaExamples.Library.Monitors
import RdmaExamples.Multithreading.Calls
import RdmaExamples.Multithreading.Channel
import RdmaExamples.Multithreading.CompletionCounts
import RdmaExamples.Multithreading.Handles
import RdmaExamples.Multithreading.RegionSizes
import RdmaExamples.Multithreading.SharedRegion
import RdmaExamples.Rcopy.Delivered
import RdmaExamples.Rcopy.ClientTruthful
import RdmaExamples.RdmaFc.PostFailures
import RdmaExamples.RdmaFc.ReadVolume
import RdmaExamples.RdmaTest.Keys
import RdmaExamples.Multithreading.FailedReceives
import RdmaExamples.Multithreading.RegionTable
import RdmaExamples.Rcopy.OpenMessage
import RdmaExamples.Rcopy.CopyToPath
import RdmaExamples.RdmaFc.ControlQueues
import RdmaExamples.RdmaFc.CompletionQueue
import RdmaExamples.Apm.ExitStatus
import RdmaExamples.Apm.Migration
import RdmaExamples.Apm.Completes
import RdmaExamples.Apm.Released
import RdmaExamples.RdmaFc.EventAcks
import RdmaExamples.RdmaFc.Cleanup
import RdmaExamples.RdmaFc.Released
import RdmaExamples.Library.Resources
import RdmaExamples.Library.Progress
import RdmaExamples.Messages.Calls
import RdmaExamples.Messages.Connection
import RdmaExamples.Messages.Link
import RdmaExamples.Messages.Exchange
import RdmaExamples.Messages.ExchangeRuns
import RdmaExamples.Messages.Steady
import RdmaExamples.Messages.Released
import RdmaExamples.Messages.Underway
import RdmaExamples.RdmaExample.Program
import RdmaExamples.RdmaExample.Released
import RdmaExamples.RdmaExample.ExchangeRuns
import RdmaExamples.RdmaExample.Completes
import RdmaExamples.RdmaTest.Program
import RdmaExamples.RdmaTest.Released
import RdmaExamples.RdmaTest.ExchangeRuns
import RdmaExamples.RdmaTest.Sharing
import RdmaExamples.RdmaTest.SharedRuns
import RdmaExamples.RdmaTest.Completes
