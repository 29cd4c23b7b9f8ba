import CommBench.Lib.GapCount
import CommBench.Lib.CsvText
import CommBench.Lib.SlidingWindow
import CommBench.Lib.OrderStat
import CommBench.Lib.Layout
import CommBench.Lib.Fallible
import CommBench.Lib.Trace
import CommBench.Lib.Binary64
import CommBench.Lib.Shell
import CommBench.Lib.Numeral
import CommBench.Stats.Recorder
import CommBench.Stats.Loss
import CommBench.Stats.Wrap
import CommBench.Stats.Summary
import CommBench.Stats.DoubleIndex
import CommBench.Stats.Analyze
import CommBench.Stats.Printed
import CommBench.Stats.Cut
import CommBench.Wire.Payload
import CommBench.Wire.RawUdpRecv
import CommBench.Transport.RawUdp
import CommBench.Transport.Ros2
import CommBench.Transport.Ros2Contract
import CommBench.Transport.Ros2Stop
import CommBench.Transport.Phases
import CommBench.Transport.Frames
import CommBench.Cli.Parse
import CommBench.Cli.Reading
import CommBench.Cli.Peers
import CommBench.Cli.Argv
import CommBench.Cli.Declared
import CommBench.Cli.Numerals
import CommBench.Cli.PortNumbers
import CommBench.Run.Process
import CommBench.Run.Ack
import CommBench.Run.Exchange
import CommBench.Run.RoundTrip
import CommBench.Run.Samples
import CommBench.Run.Window
import CommBench.Run.Schedule
import CommBench.Run.Timing
import CommBench.Run.Program
import CommBench.Run.Lifetime
import CommBench.Run.Completion
import CommBench.Run.Link
import CommBench.Run.Lost
import CommBench.Run.BenchOne
import CommBench.Run.Session
import CommBench.Run.Interrupt
import CommBench.Network.PcCMode
import CommBench.Network.ModeSwitch
import CommBench.Network.SetupWg
import CommBench.Network.ApplyWg
import CommBench.Network.Tunnel
