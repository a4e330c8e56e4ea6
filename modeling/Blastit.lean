import Blastit.Lib.Calls
import Blastit.Lib.Clocked
import Blastit.Lib.Decimal
import Blastit.Lib.Links
import Blastit.Lib.Mask
import Blastit.Lib.Pieces
import Blastit.Lib.Polls
import Blastit.Lib.Ring
import Blastit.Lib.Scan
import Blastit.Lib.Sizing
import Blastit.Lib.Stores
import Blastit.Lib.Text
import Blastit.Lib.Ticks
import Blastit.Lib.Turns
import Blastit.Rtl.Bin2bcd
import Blastit.Rtl.DoubleDabble
import Blastit.Rtl.EdgeTrigger
import Blastit.Rtl.Fifo
import Blastit.Rtl.FifoFlags
import Blastit.Rtl.HalfStop
import Blastit.Rtl.LedAddress
import Blastit.Rtl.LedBars
import Blastit.Rtl.LedMatrix
import Blastit.Rtl.LedSharing
import Blastit.Rtl.LedWaves
import Blastit.Rtl.LedGhosts
import Blastit.Rtl.Loopback
import Blastit.Rtl.ModMCounter
import Blastit.Rtl.Pwm
import Blastit.Rtl.ResetController
import Blastit.Rtl.RxFrame
import Blastit.Rtl.RxParity
import Blastit.Rtl.RxTolerance
import Blastit.Rtl.ScanCoverage
import Blastit.Rtl.SsegArray
import Blastit.Rtl.TickCounter
import Blastit.Rtl.TxFrame
import Blastit.Rtl.Uart
import Blastit.Rtl.UartDrain
import Blastit.Rtl.UartFrame
import Blastit.Rtl.UartRun
import Blastit.Rtl.UartRx
import Blastit.Rtl.UartTx
import Blastit.Fw.BcdConvert
import Blastit.Fw.BcdHandshake
import Blastit.Fw.BlinkerDuty
import Blastit.Fw.Coroutine
import Blastit.Fw.Daylight
import Blastit.Fw.Digits
import Blastit.Fw.Display
import Blastit.Fw.DisplayTasks
import Blastit.Fw.Flush
import Blastit.Fw.Line
import Blastit.Fw.LineAssembly
import Blastit.Fw.LineReports
import Blastit.Fw.Modulation
import Blastit.Fw.Obd2
import Blastit.Fw.Obd2Returns
import Blastit.Fw.Obd2Lockstep
import Blastit.Fw.Obd2Polling
import Blastit.Fw.Panel
import Blastit.Fw.PidBounds
import Blastit.Fw.PidLayout
import Blastit.Fw.PidParser
import Blastit.Fw.PidRoundTrip
import Blastit.Fw.PidScan
import Blastit.Fw.PidTokens
import Blastit.Fw.SelfReset
import Blastit.Fw.Slink
import Blastit.Fw.SlinkAdd
import Blastit.Fw.SlinkCompact
import Blastit.Fw.Timers
import Blastit.Fw.Uart
import Blastit.Fw.UartDivisor
import Blastit.Fw.UartUsable
import Blastit.Fw.WaitTick
import Blastit.Fw.WarningCalls
import Blastit.Fw.WarningFlags
import Blastit.Fw.WarningLamp
import Blastit.Fw.Readout
import Blastit.Fw.Leds
import Blastit.Fw.BoostBar
import Blastit.Fw.AfrBar
import Blastit.Fw.CounterPeriod
import Blastit.Rtl.CounterReload
import Blastit.Fw.UartCalls
import Blastit.Fw.PortActs
import Blastit.Fw.PortReadline
import Blastit.Fw.Sendline
import Blastit.Fw.BoardLink
import Blastit.Fw.FrameTimer
import Blastit.Fw.MainLoop
import Blastit.Fw.StatusLeds
import Blastit.Lib.Lifo
import Blastit.Rtl.Stack
import Blastit.Fw.PanelFace
import Blastit.Fw.UartReset
import Blastit.Fw.LampPhases
import Blastit.Fw.Obd2Port
import Blastit.Fw.Shutdown
import Blastit.Rtl.ByteCounters
import Blastit.Fw.Session
import Blastit.Fw.TestPanel
