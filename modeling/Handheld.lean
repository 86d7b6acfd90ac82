import Handheld.Disk
import Handheld.Main
import Handheld.Proofs.Manual.Conformance
import Handheld.Proofs.Manual.Cost
import Handheld.Proofs.InterruptEnable
import Handheld.Proofs.Runs
import Handheld.Proofs.Cartridge.Reachable
import Handheld.Proofs.Cartridge.EmulatedTime
import Handheld.Proofs.Cartridge.Halt
import Handheld.Proofs.Cartridge.SaveForm
import Handheld.Proofs.Timer.Cycle
import Handheld.Proofs.Timer.MachineCycle
import Handheld.Proofs.Timer.Access
import Handheld.Proofs.Timer.Processor
import Handheld.Proofs.Timer.Reload
import Handheld.Proofs.Cartridge.HostTime
import Handheld.Proofs.Cartridge.Log
import Handheld.Proofs.Cartridge.Mbc1
import Handheld.Proofs.Cartridge.Mbc3
import Handheld.Proofs.Cartridge.Latch
import Handheld.Proofs.Cartridge.Checked
import Handheld.Proofs.Cartridge.InRange
import Handheld.Proofs.Cartridge.TimeOfDay
import Handheld.Proofs.Activity
import Handheld.Proofs.Requests
import Handheld.Proofs.Counters
import Handheld.Proofs.OneClock
import Handheld.Proofs.FramePacing
import Handheld.Proofs.StepOver
import Handheld.Proofs.Timer.FallingEdge
import Handheld.Proofs.BatterySave
import Handheld.Proofs.Timer.ClosedForm
import Handheld.Proofs.SaveLoading
import Handheld.Proofs.Service
import Handheld.Proofs.Resumption
import Handheld.Proofs.RunEnds
import Handheld.Proofs.Cells
import Handheld.Proofs.Routine
import Handheld.Proofs.Multibyte
import Handheld.Proofs.Failure
import Handheld.Proofs.Video.Position
import Handheld.Proofs.Video.StatusSignal
import Handheld.Proofs.BreakpointMap
import Handheld.Proofs.PageTransfer
import Handheld.Proofs.PowerCycle
import Handheld.Proofs.AddressGrammar
import Handheld.Proofs.RegisterFile
import Handheld.Proofs.RegisterViews
import Handheld.Proofs.RegisterWrites
