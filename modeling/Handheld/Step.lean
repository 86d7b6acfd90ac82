import Handheld.Execute
import Handheld.Text.Hex

/-!
A step of the processor: one instruction, or one idle machine cycle while halted, and then
at most one interrupt. A step fails only on an unused opcode, and one that succeeds takes
at least one cycle.
-/
namespace Handheld

inductive CpuError
  | unknownOpcode (opcode : UInt8) (addr : UInt16)
  deriving DecidableEq

def CpuError.message : CpuError → String
  | unknownOpcode opcode addr =>
    s!"unknown opcode {Text.hexByte opcode} at {Text.hexWord addr}"

def Cpu.debugText (cpu : Cpu) : String :=
  let word (r : WordReg) := Text.hexWord (cpu.regs.word r)
  s!"AF:{word .af} BC:{word .bc} DE:{word .de} HL:{word .hl} PC:{word .pc} SP:{word .sp} " ++
    s!"CY:{cpu.cycles}"

variable {V A : Type} [VideoUnit V] [AudioUnit A]

namespace Exec

/-- Serves an interrupt: clears its request, disables interrupts and calls its vector. -/
def dispatch (i : Interrupt) : Exec V A Unit := do
  idle (2 * machineCycle)
  modify fun s =>
    { cpu := { s.cpu with ime := false }
      bus := { s.bus with requested := s.bus.requested &&& ~~~i.mask } }
  push (← regs).pc
  idle machineCycle
  setWord .pc i.vector

/-- The requests of existing sources. -/
def requests : Exec V A Requests := fun s => (s.bus.requested &&& 0x1F, s)

def due? : Exec V A (Option Interrupt) := fun s =>
  let pending := s.bus.requested &&& 0x1F &&& s.bus.enabled
  (if s.cpu.ime then Interrupt.next? pending else none, s)

/-- Any request ends a halt; the most urgent enabled one is served if the master enable
is set. -/
def serveInterrupts : Exec V A Unit := do
  if (← requests) != 0 then
    modifyCpu fun cpu => { cpu with halted := false }
    match ← due? with
    | some i => dispatch i
    | none => pure ()

/-- Counts down to the master enable, which comes one instruction late. -/
def settleEnable (enableAfter : Bool) : Exec V A Unit :=
  modifyCpu fun cpu =>
    { cpu with
      ime := cpu.ime || (enableAfter && cpu.enableDelay != 0)
      enableDelay := cpu.enableDelay - 1 }

def runNext : Exec V A (Except CpuError Unit) := do
  let cpu ← (fun s => (s.cpu, s) : Exec V A Cpu)
  let opcode ← fetch
  match Instruction.decode opcode with
  | none => return .error (.unknownOpcode opcode cpu.regs.pc)
  | some i =>
    i.run
    settleEnable (cpu.enableDelay == 1)
    return .ok ()

def isHalted : Exec V A Bool := fun s => (s.cpu.halted, s)

/-- One instruction or one idle machine cycle. -/
def runOrIdle : Exec V A (Except CpuError Unit) := do
  if ← isHalted then
    idle machineCycle
    return .ok ()
  else runNext

/-- Counts the cycles since `start` as taken by the processor, and gives their number. -/
def chargeSince (start : Nat) : Exec V A Nat := fun s =>
  let taken := s.bus.cycles - start
  (taken, { s with cpu := { s.cpu with cycles := s.cpu.cycles + taken } })

/-- A step that began when the bus had counted `start` cycles. -/
@[noinline] def stepFrom (start : Nat) : Exec V A (Except CpuError Nat) := do
  match ← runOrIdle with
  | .error e => return .error e
  | .ok _ =>
    serveInterrupts
    return .ok (← chargeSince start)

/-- A step, and the cycles that it took. After an error the state is as the failed step
left it. -/
def step : Exec V A (Except CpuError Nat) := fun s => stepFrom s.bus.cycles s

end Exec

end Handheld
