import Handheld.Proofs.FrameSteps
import Handheld.Proofs.PowerCycle
import Handheld.Proofs.RegisterFile
import Handheld.Proofs.Service

/-!
The register file in a run. Each instruction is listed with its writes to the register file, in
their order and before anything is masked. They are all that a step does to the registers, so an
array of bytes that is written to in the same way goes on holding what the processor reads, through
steps, frames and everything that a host asks of a console.
-/
namespace Handheld

open Registers (View Write)

variable {V A : Type} [VideoUnit V] [AudioUnit A]

namespace Operand

/-- Memory is not part of the register file. -/
def writes (v : UInt8) : Operand → List Write
  | reg r => [.byte r v]
  | atHL => []

theorem regs_write (v : UInt8) (o : Operand) (s : Core V A) :
    (o.write v s).2.cpu.regs = s.cpu.regs.writeAll (o.writes v) := by
  cases o <;> rfl

end Operand

/-- The pointers that move along write HL. -/
def Pointer.writes (r : Registers) : Pointer → List Write
  | bc => []
  | de => []
  | hlUp => [.word .hl (r.word .hl + 1)]
  | hlDown => [.word .hl (r.word .hl - 1)]

namespace Exec

/-- A fetch of some bytes moves the program counter. -/
def fetchWrites (r : Registers) (bytes : UInt16) : List Write := [.word .pc (r.pc + bytes)]

def pushWrites (r : Registers) : List Write := [.word .sp (r.sp - 1), .word .sp (r.sp - 2)]

def popWrites (r : Registers) : List Write := [.word .sp (r.sp + 2)]

omit [VideoUnit V] [AudioUnit A] in
/-- What an action does under a condition. -/
theorem regs_onlyIf {act : Exec V A Unit} {s : Core V A} {ws : List Write} (b : Bool)
    (h : (act s).2.cpu.regs = s.cpu.regs.writeAll ws) :
    ((if b then act else pure ()) s).2.cpu.regs = s.cpu.regs.writeAll (if b then ws else []) := by
  cases b with
  | false => rfl
  | true => exact h

end Exec

open Exec

namespace ExtendedInstruction

/-- The writes of an instruction after both opcodes have been fetched. -/
def writes (i : ExtendedInstruction) (s : Core V A) : List Write :=
  match i with
  | shift op operand =>
    let (result, flags) := Arithmetic.shift op s.cpu.regs.flags.carry (operand.read s).1
    .flags flags :: operand.writes result
  | test bit operand =>
    let flags := Arithmetic.testBit s.cpu.regs.flags bit (operand.read s).1
    [.flag .zero flags.zero, .flag .subtract false, .flag .halfCarry true]
  | clear bit operand => operand.writes ((operand.read s).1 &&& ~~~(1 <<< UInt8.ofNat bit.val))
  | set bit operand => operand.writes ((operand.read s).1 ||| 1 <<< UInt8.ofNat bit.val)

end ExtendedInstruction

namespace Instruction

/-- A comparison leaves the accumulator alone. -/
def aluWrites (op : AluOp) (r : Registers) (v : UInt8) : List Write :=
  let (result, flags) := Arithmetic.apply op r.flags.carry r.a v
  .flags flags :: if op = .cp then [] else [.byte .a result]

/-- Three flags are written one by one, and the result after them. -/
def countWrites (result : UInt8 × Flags) (operand : Operand) : List Write :=
  .flag .zero result.2.zero :: .flag .subtract result.2.subtract ::
    .flag .halfCarry result.2.halfCarry :: operand.writes result.1

def callWrites (r : Registers) (target : UInt16) : List Write :=
  pushWrites r ++ [.word .pc target]

def returnWrites (s : Core V A) : List Write :=
  popWrites s.cpu.regs ++ [.word .pc (Exec.pop s).1]

/-- The writes of an instruction after its opcode has been fetched. -/
def writes (i : Instruction) (s : Core V A) : List Write :=
  let r := s.cpu.regs
  match i with
  | stop => fetchWrites r 1
  | storeSP => fetchWrites r 2
  | jumpRelative condition =>
    fetchWrites r 1 ++
      if condition.all (·.holds r.flags) then
        [.word .pc (r.pc + 1 + Word.signExtend (fetch s).1)]
      else []
  | loadWord dst => fetchWrites r 2 ++ [.word dst (fetchWord s).1]
  | addToHL src =>
    let (result, flags) := Arithmetic.addWords r.flags (r.word .hl) (r.word src)
    [.flag .subtract flags.subtract, .flag .halfCarry flags.halfCarry, .flag .carry flags.carry,
      .word .hl result]
  | storeAt dst => dst.writes r
  | loadFrom src => src.writes r ++ [.byte .a ((src.address >>= Exec.load) s).1]
  | incrementWord x => [.word x (r.word x + 1)]
  | decrementWord x => [.word x (r.word x - 1)]
  | increment operand => countWrites (Arithmetic.increment r.flags (operand.read s).1) operand
  | decrement operand => countWrites (Arithmetic.decrement r.flags (operand.read s).1) operand
  | loadImmediate dst => fetchWrites r 1 ++ dst.writes (fetch s).1
  | rotateA op =>
    let (result, flags) := Arithmetic.shift op r.flags.carry r.a
    [.flags flags, .byte .a result, .flag .zero false]
  | decimalAdjust =>
    let (result, flags) := Arithmetic.decimalAdjust r.flags r.a
    [.byte .a result, .flags flags]
  | complement => [.byte .a (~~~r.a), .flag .subtract true, .flag .halfCarry true]
  | setCarry => [.flag .subtract false, .flag .halfCarry false, .flag .carry true]
  | flipCarry => [.flag .subtract false, .flag .halfCarry false, .flag .carry (!r.flags.carry)]
  | load dst src => dst.writes (src.read s).1
  | alu op src => aluWrites op r (src.read s).1
  | aluImmediate op => fetchWrites r 1 ++ aluWrites op r (fetch s).1
  | ret none => returnWrites s
  | ret (some condition) =>
    if condition.holds r.flags then returnWrites (idle machineCycle s).2 else []
  | retEnable => returnWrites s
  | storeHigh => fetchWrites r 1
  | loadHigh => fetchWrites r 1 ++ [.byte .a ((fetch >>= fun n => Exec.load (highPage n)) s).1]
  | loadHighC => [.byte .a (Exec.load (highPage r.c) s).1]
  | storeDirect => fetchWrites r 2
  | loadDirect => fetchWrites r 2 ++ [.byte .a ((fetchWord >>= Exec.load) s).1]
  | addToSP =>
    let (result, flags) := Arithmetic.addOffset r.sp (fetch s).1
    fetchWrites r 1 ++ [.flags flags, .word .sp result]
  | loadHLFromSP =>
    let (result, flags) := Arithmetic.addOffset r.sp (fetch s).1
    fetchWrites r 1 ++ [.flags flags, .word .hl result]
  | loadSPFromHL => [.word .sp (r.word .hl)]
  | pop dst => popWrites r ++ [.word dst (Exec.pop s).1]
  | push _ => pushWrites r
  | jump condition =>
    fetchWrites r 2 ++
      if condition.all (·.holds r.flags) then [.word .pc (fetchWord s).1] else []
  | jumpHL => [.word .pc (r.word .hl)]
  | call condition =>
    fetchWrites r 2 ++
      if condition.all (·.holds r.flags) then callWrites r (fetchWord s).1 else []
  | restart slot => callWrites r (UInt16.ofNat (8 * slot.val))
  | extended =>
    fetchWrites r 1 ++ (ExtendedInstruction.decode (fetch s).1).writes (fetch s).2
  | nop | halt | storeHighC | disableInterrupts | enableInterrupts => []

end Instruction

section Unfold

-- A comparison by computation must not look into the devices behind the bus.
attribute [local irreducible] Bus.advance Bus.read Bus.write Word.join

theorem ExtendedInstruction.regs_run (i : ExtendedInstruction) (s : Core V A) :
    (i.run s).2.cpu.regs = s.cpu.regs.writeAll (i.writes s) := by
  cases i with
  | shift op operand => cases operand <;> rfl
  | test bit operand => cases operand <;> rfl
  | clear bit operand => cases operand <;> rfl
  | set bit operand => cases operand <;> rfl

omit [VideoUnit V] [AudioUnit A] in
theorem Instruction.regs_runAlu (op : AluOp) (v : UInt8) (s : Core V A) :
    (runAlu op v s).2.cpu.regs = s.cpu.regs.writeAll (aluWrites op s.cpu.regs v) := by
  cases op <;> rfl

/-- The listed writes are all that an instruction does to the registers. -/
theorem Instruction.regs_run (i : Instruction) (s : Core V A) :
    (i.run s).2.cpu.regs = s.cpu.regs.writeAll (i.writes s) := by
  -- Only an operand or a condition leaves open what is written.
  cases i with
  | extended =>
    rw [writes, Registers.writeAll_append]
    exact ExtendedInstruction.regs_run _ _
  | jumpRelative condition =>
    rw [writes, Registers.writeAll_append]
    refine regs_onlyIf (s := (fetch s).2) (condition.all (·.holds s.cpu.regs.flags)) ?_
    rfl
  | jump condition =>
    rw [writes, Registers.writeAll_append]
    refine regs_onlyIf (s := (fetchWord s).2) (condition.all (·.holds s.cpu.regs.flags)) ?_
    rfl
  | call condition =>
    rw [writes, Registers.writeAll_append]
    refine regs_onlyIf (s := (fetchWord s).2) (condition.all (·.holds s.cpu.regs.flags)) ?_
    rfl
  | ret condition =>
    cases condition with
    | none => rfl
    | some condition =>
      exact regs_onlyIf (s := (idle machineCycle s).2) (condition.holds s.cpu.regs.flags) rfl
  | alu op src => cases src <;> exact regs_runAlu op _ _
  | aluImmediate op =>
    rw [writes, Registers.writeAll_append]
    exact regs_runAlu op _ _
  | storeAt dst => cases dst <;> rfl
  | loadFrom src => cases src <;> rfl
  | increment operand => cases operand <;> rfl
  | decrement operand => cases operand <;> rfl
  | loadImmediate dst => cases dst <;> rfl
  | load dst src => cases src <;> exact dst.regs_write _ _
  | _ => rfl

end Unfold

namespace Core

/-- The writes of a step before requests are answered. -/
def eventWrites (s : Core V A) : List Write :=
  match s.event with
  | .idle => []
  | .ran i => fetchWrites s.cpu.regs 1 ++ i.writes (fetch s).2
  | .failed => fetchWrites s.cpu.regs 1

/-- The writes of the answer to requests. An interrupt is a call of its vector. -/
def answerWrites (s : Core V A) : List Write :=
  match s.interrupt? with
  | some i => Instruction.callWrites s.cpu.regs i.vector
  | none => []

/-- The writes of a step. -/
def writes (s : Core V A) : List Write :=
  if s.event = .failed then s.eventWrites else s.eventWrites ++ (s.after s.event).answerWrites

/-- The registers that a script leaves are those that the instruction leaves. -/
theorem regs_played (i : Instruction) (s : Core V A) :
    (s.played i).1 = (i.run (fetch s).2).2.cpu.regs := by
  have hrun := Manual.follows_run i s.cpu s.cpu.regs (s.bus.advance Bus.accessCycles)
  have hswitched (cpu : Cpu) : (Manual.switched i cpu).regs = cpu.regs := by
    cases i <;> rfl
  rw [fetch_opcode]
  exact ((congrArg (·.2.cpu.regs) hrun).trans (hswitched _)).symm

theorem regs_after (s : Core V A) :
    (s.after s.event).cpu.regs = s.cpu.regs.writeAll s.eventWrites := by
  have hcontrol (i : Instruction) (cpu : Cpu) : (Manual.control i cpu).regs = cpu.regs := by
    cases i <;> rfl
  unfold eventWrites
  cases s.event with
  | idle => rfl
  | ran i =>
    dsimp only
    rw [Registers.writeAll_append]
    exact (hcontrol i _).trans ((regs_played i s).trans (i.regs_run _))
  | failed => rfl

theorem regs_answered (s : Core V A) :
    s.answered.cpu.regs = s.cpu.regs.writeAll s.answerWrites := by
  unfold answered answerWrites
  cases s.interrupt? with
  | none => rfl
  | some i =>
    dsimp only [interrupted]
    rw [regs_interruptScript]
    rfl

/-- A step leaves the registers as its writes do. -/
theorem regs_step (s : Core V A) : (Exec.step s).2.cpu.regs = s.cpu.regs.writeAll s.writes := by
  rw [step_eq, next, writes]
  by_cases hfailed : s.event = .failed
  · rw [if_pos hfailed, if_pos hfailed, ← regs_after, hfailed]
  · rw [if_neg hfailed, if_neg hfailed, Registers.writeAll_append, ← regs_after]
    exact regs_answered _

/-- The writes of a frame from a moment at which `elapsed` cycles have passed. -/
def frameWrites (breakpoints : Breakpoints) (elapsed : Nat) (s : Core V A) : List Write :=
  (s.frameSteps breakpoints elapsed).flatMap fun u => (u.setSkip false).writes

/-- What has been written to the register file of a machine since the boot program handed over.
Between two steps a host may write through any view of it and do anything to the rest. -/
inductive Written : List Write → Core V A → Prop
  | boot {s : Core V A} (h : s.cpu.regs = .postBoot) : Written [] s
  | step {ws : List Write} {s : Core V A} (h : Written ws s) :
      Written (ws ++ s.writes) (Exec.step s).2
  | put {ws : List Write} {s : Core V A} (h : Written ws s) (w : Write) :
      Written (ws ++ [w]) { s with cpu := { s.cpu with regs := s.cpu.regs.write w } }
  | aside {ws : List Write} {s t : Core V A} (h : Written ws s) (ht : t.cpu.regs = s.cpu.regs) :
      Written ws t

variable {ws : List Write} {s t : Core V A}

/-- The register file is made of what has been written to it. -/
theorem Written.regs_eq (h : Written ws s) : s.cpu.regs = Registers.postBoot.writeAll ws := by
  induction h with
  | boot h => exact h
  | step h ih => rw [regs_step, ih, Registers.writeAll_append]
  | put h w ih =>
    rw [Registers.writeAll_append, ← ih]
    rfl
  | aside h ht ih => exact ht.trans ih

theorem Written.holds (h : Written ws s) :
    (RegisterFile.postBoot.writeAll ws).Holds s.cpu.regs := by
  rw [h.regs_eq]
  exact RegisterFile.holds_postBoot.writeAll ws

theorem Written.putAll (h : Written ws s) (more : List Write)
    (ht : t.cpu.regs = s.cpu.regs.writeAll more) : Written (ws ++ more) t := by
  induction more generalizing ws s with
  | nil =>
    rw [List.append_nil]
    exact h.aside ht
  | cons w more ih =>
    rw [List.append_cons]
    exact ih (h.put w) ht

omit [VideoUnit V] [AudioUnit A] in
theorem regs_setFrameCycles (s : Core V A) (n : Nat) :
    (s.setFrameCycles n).cpu.regs = s.cpu.regs := rfl

/-- The writes of a frame are those of its steps. -/
theorem written_frame (breakpoints : Breakpoints) (elapsed : Nat) (s : Core V A) :
    ∀ ws, Written ws s →
      Written (ws ++ s.frameWrites breakpoints elapsed) (s.runFrameFrom breakpoints elapsed).2 := by
  -- A step writes the same whether or not it succeeds.
  have hnext {ws : List Write} {u t : Core V A} {result : Except CpuError Nat}
      (h : Written ws u) (hstep : Exec.step (u.setSkip false) = (result, t)) :
      Written (ws ++ (u.setSkip false).writes) t := by
    have hdone := (h.aside (t := u.setSkip false) rfl).step
    rwa [hstep] at hdone
  fun_induction runFrameFrom breakpoints elapsed s with
  | case1 elapsed s hlt pc hhit =>
    intro ws h
    rw [frameWrites, frameSteps, if_pos hlt, if_pos hhit, List.flatMap_nil, List.append_nil]
    exact h.aside (regs_setFrameCycles _ _)
  | case2 elapsed s hlt pc hmiss taken t hstep ih =>
    intro ws h
    rw [frameWrites, frameSteps_of_step hlt hmiss hstep, List.flatMap_cons, ← List.append_assoc]
    exact ih _ (hnext h hstep)
  | case3 elapsed s hlt pc hmiss e t hstep =>
    intro ws h
    rw [frameWrites, frameSteps_of_failure hlt hmiss hstep, List.flatMap_singleton]
    exact (hnext h hstep).aside (regs_setFrameCycles _ _)
  | case4 elapsed s hle =>
    intro ws h
    rw [frameWrites, frameSteps, if_neg hle, List.flatMap_nil, List.append_nil]
    exact h.aside (regs_setFrameCycles _ _)

end Core

/-- Writes that leave nothing of what was there before. -/
def Registers.contents (r : Registers) : List Write :=
  [.word .af (r.word .af), .word .bc (r.word .bc), .word .de (r.word .de), .word .hl (r.word .hl),
    .word .sp r.sp, .word .pc r.pc]

theorem Registers.writeAll_contents (r r' : Registers) : r.writeAll r'.contents = r' := by
  simp only [contents, writeAll, List.foldl_cons, List.foldl_nil, write, setWord, word,
    Word.high_join, Word.low_join, Flags.ofByte_toByte]

namespace Console

open Handheld.Core (Written)

/-- The writes to the register file in what a host asks of a console. A processor that is put in
place of another one, as in a reset, brings all registers. -/
def writes (c : Console) : Query → List Write
  | .step => c.core.writes
  | .runFrame =>
    if c.paused then [] else c.core.frameWrites c.breakpoints c.core.cpu.frameCycles
  | .runCore => c.core.frameWrites c.breakpoints c.core.cpu.frameCycles
  | .assign (.cpu cpu) => cpu.regs.contents
  | .insert _ | .insertRom _ _ | .reset => Registers.postBoot.contents
  | _ => []

/-- The writes in some queries in a row. -/
def writesAll (c : Console) : List Query → List Write
  | [] => []
  | q :: rest => c.writes q ++ (c.serve q).2.writesAll rest

variable {ws : List Write} {c d : Console}

theorem written_runFrame (h : Written ws c.core) :
    Written (ws ++ c.writes .runFrame) c.runFrame.2.core := by
  have hframe := Core.written_frame c.breakpoints c.core.cpu.frameCycles c.core ws h
  change Written _ (c.core.runFrame c.breakpoints).2 at hframe
  unfold writes paused runFrame
  cases c.pausedAt with
  | some pc =>
    rw [Option.isSome_some, if_pos rfl, List.append_nil]
    exact h
  | none =>
    rw [Option.isSome_none, if_neg Bool.false_ne_true]
    dsimp only
    split
    all_goals
      next hrun =>
        rw [hrun] at hframe
        exact hframe

theorem written_serve (h : Written ws c.core) (q : Query) :
    Written (ws ++ c.writes q) (c.serve q).2.core := by
  have hreplaced (r : Registers) (t : Core Lcd Sound) (ht : t.cpu.regs = r) :
      Written (ws ++ r.contents) t :=
    h.putAll r.contents (ht.trans (Registers.writeAll_contents _ r).symm)
  have haside (t : Core Lcd Sound) (ht : t.cpu.regs = c.core.cpu.regs) : Written (ws ++ []) t :=
    h.putAll [] ht
  cases q with
  | step => exact h.step
  | runFrame => exact written_runFrame h
  | runCore => exact Core.written_frame c.breakpoints _ c.core ws h
  | assign part =>
    cases part with
    | cpu cpu => exact hreplaced cpu.regs _ rfl
    | _ => exact haside _ rfl
  | insert cartridge => exact hreplaced .postBoot _ rfl
  | insertRom rom host => exact hreplaced .postBoot _ rfl
  | reset => exact hreplaced .postBoot _ rfl
  | resume =>
    refine haside _ ?_
    unfold Console.serve Console.resume
    cases c.pausedAt <;> rfl
  | setHost host =>
    refine haside _ ?_
    unfold Console.serve Console.setHost
    cases c.cartridge? <;> rfl
  | loadSave data =>
    refine haside _ ?_
    dsimp only [Console.serve]
    cases hload : c.load data with
    | error e => rfl
    | ok d =>
      rcases eq_or_holding_of_load hload with rfl | ⟨cartridge, rfl⟩
      · rfl
      · rfl
  | _ => exact haside _ rfl

theorem written_serveAll (h : Written ws c.core) (queries : List Query) :
    Written (ws ++ c.writesAll queries) (c.serveAll queries).2.core := by
  induction queries generalizing ws c with
  | nil =>
    rw [writesAll, List.append_nil]
    exact h
  | cons q rest ih =>
    rw [writesAll, ← List.append_assoc]
    exact ih (written_serve h q)

end Console

namespace RegisterFile

open Handheld.Core (Written)

/-- The views of the register file are consistent. Whatever is written through them to a cleared
array of bytes, or to the one that the boot program leaves, all of them answer as they do on a
reference machine of eight independent bytes, the flag byte has no lower half, and a write changes
exactly the views that share bytes with its own one. In every run of the processor the registers
answer as an array does that the same was written to, and whatever a host asks of a console is such
a run. -/
theorem views_agree :
    (∀ ws, (cleared.writeAll ws).Consistent (Bank.cleared.writeAll ws) ∧
      (postBoot.writeAll ws).Consistent (Bank.postBoot.writeAll ws)) ∧
    (∀ ws (s : Core V A), Written ws s → (postBoot.writeAll ws).Holds s.cpu.regs) ∧
    ∀ mode queries,
      Written ((Console.powerOn mode).writesAll queries)
        ((Console.powerOn mode).serveAll queries).2.core := by
  refine ⟨fun ws => ⟨?_, ?_⟩, fun ws s h => h.holds, fun mode queries => ?_⟩
  · rw [← bank_cleared]
    exact masked_cleared.consistent_writeAll ws
  · rw [← bank_postBoot]
    exact masked_postBoot.consistent_writeAll ws
  · have hboot : Written [] (Console.powerOn mode).core := .boot rfl
    exact Console.written_serveAll hboot queries

/-- POP AF and DAA in the work RAM, with a word on the stack whose lower byte is all ones. -/
def poppingFlags : Core Lcd Sound :=
  let s := Core.powerOn none
  { cpu := { s.cpu with regs := (s.cpu.regs.write (.word .sp 0xC100)).write (.word .pc 0xC000) }
    bus := (((s.bus.write 0xC000 0xF1).write 0xC001 0x27).write 0xC100 0xFF).write 0xC101 0x12 }

def flagsPopped : Core Lcd Sound := (Exec.step poppingFlags).2

theorem written_poppingFlags :
    Written [.word .sp 0xC100, .word .pc 0xC000] poppingFlags :=
  have hboot : Written [] (Core.powerOn none) := .boot rfl
  ((hboot.put (.word .sp 0xC100)).put (.word .pc 0xC000)).aside rfl

/-- The flag byte that is popped and the one of the adjusted sum have no lower half. -/
theorem views_agree_poppingFlags :
    flagsPopped.cpu.regs.word .af = 0x12F0 ∧
      (Exec.step flagsPopped).2.cpu.regs.word .af = 0xAC50 ∧
      (Exec.step flagsPopped).2.cpu.regs.byte .f &&& 0x0F = 0 := by
  have hholds := (views_agree (V := Lcd) (A := Sound)).2.1
  have hpopped := hholds _ _ written_poppingFlags.step
  have hadjusted := hholds _ _ written_poppingFlags.step.step
  refine ⟨?_, ?_, ?_⟩
  · exact (hpopped.get16_eq .af).symm.trans (by decide +kernel)
  · exact (hadjusted.get16_eq .af).symm.trans (by decide +kernel)
  · have hmasked := hadjusted.masked
    rw [Masked, hadjusted.get8_eq] at hmasked
    exact hmasked

end RegisterFile

end Handheld
