import Handheld.Proofs.Cartridge.Latch
import Handheld.Proofs.Cells
import Handheld.Proofs.Service

/-!
Steps that fail. An opcode that no instruction has is the one thing that a step can fail on, and
nothing has happened by then but the fetch of the opcode: the program counter has gone on and the
devices have run for the cycles of one access. While cycles pass, no byte of memory changes.
-/
namespace Handheld

namespace Cartridge

/-- The time that passes is not seen in a cartridge before its clock is latched. -/
theorem read_step (c : Cartridge) (cycles : Nat) (addr : UInt16) :
    (c.step cycles).read addr = c.read addr := by
  obtain ⟨rom, ram, mapper⟩ := c
  cases mapper with
  | fixed => rfl
  | mbc1 m => rfl
  | mbc3 m =>
    obtain ⟨romBank, ramEnabled, selection, latchArmed, clock⟩ := m
    cases clock with
    | none => rfl
    | some k =>
      have halike : Alike ⟨rom, ram, .mbc3 ⟨romBank, ramEnabled, selection, latchArmed, some k⟩⟩
          ⟨rom, ram, .mbc3 ⟨romBank, ramEnabled, selection, latchArmed, some k⟩⟩ :=
        .refl rfl rfl
      exact (halike.step cycles).read addr

theorem hasRam_step (c : Cartridge) (cycles : Nat) : (c.step cycles).hasRam = c.hasRam := by
  rw [step_eq_mapClock]
  rfl

end Cartridge

namespace Bus

variable {V A : Type} [VideoUnit V] [AudioUnit A]

/-- Whether what is read at an address may change while cycles pass. -/
def isTimed (b : Bus V A) (addr : UInt16) : Bool :=
  match Region.of addr with
  | .timer | .interruptFlag | .display => true
  | .sound => b.audio.isSome
  | _ => false

/-- Cycles have passed between two states of the bus, and nothing else has happened. -/
structure Idled (n : Nat) (b c : Bus V A) : Prop where
  eq_advance : c = b.advance n
  /-- The devices add their requests, and none is taken back. -/
  requested_eq : c.requested = b.requested ||| b.raisedWhile n
  enabled_eq : c.enabled = b.enabled
  joypad_eq : c.joypad = b.joypad
  byteAt_eq : ∀ cell, c.byteAt cell = b.byteAt cell
  /-- The cartridge keeps its image, its RAM and its banks: only its clock goes on. -/
  slot_eq : c.slot = b.slot.map (·.mapClock (·.step n))
  read_eq : ∀ addr, b.isTimed addr = false → c.read addr = b.read addr

theorem read_advance_untimed (b : Bus V A) (n : Nat) {addr : UInt16} (h : b.isTimed addr = false) :
    (b.advance n).read addr = b.read addr := by
  obtain ⟨slot, workRam, storage, requested, enabled, timer, joypad, video, audio, cycles⟩ := b
  unfold isTimed at h
  unfold read
  cases hregion : Region.of addr with
  | cartridgeRom =>
    cases slot with
    | none => rfl
    | some c => exact c.read_step n addr
  | cartridgeRam =>
    cases slot with
    | none => rfl
    | some c =>
      change (if (c.step n).hasRam then (c.step n).read addr else _) = _
      rw [c.hasRam_step, c.read_step]
      rfl
  | sound =>
    cases audio with
    | none => rfl
    | some a => simp [hregion] at h
  | timer => simp [hregion] at h
  | interruptFlag => simp [hregion] at h
  | display => simp [hregion] at h
  | _ => rfl

theorem idled_advance (b : Bus V A) (n : Nat) : Idled n b (b.advance n) where
  eq_advance := rfl
  requested_eq := b.requested_advance_raised n
  enabled_eq := rfl
  joypad_eq := rfl
  byteAt_eq cell := by cases cell <;> rfl
  slot_eq := by
    have hstep : (fun c : Cartridge => c.step n) = (·.mapClock (·.step n)) :=
      funext fun c => c.step_eq_mapClock n
    exact congrArg b.slot.map hstep
  read_eq _ := b.read_advance_untimed n

end Bus

namespace Core

variable {V A : Type} [VideoUnit V] [AudioUnit A]

/-- A step fails on an unused opcode, unless the processor is halted. -/
theorem event_eq_failed_iff_unused (s : Core V A) :
    s.event = .failed ↔ s.cpu.halted = false ∧ s.opcode ∈ Manual.unused := by
  rw [event_eq_failed_iff, Manual.decode_eq_none_iff]

theorem step_of_unused {s : Core V A} (hrunning : s.cpu.halted = false)
    (hunused : s.opcode ∈ Manual.unused) :
    Exec.step s = (.error (.unknownOpcode s.opcode s.cpu.regs.pc), s.after .failed) := by
  have hevent := s.event_eq_failed_iff_unused.mpr ⟨hrunning, hunused⟩
  rw [step_eq, outcome, next, if_pos hevent, if_pos hevent]

theorem step_of_event_ne {s : Core V A} (hevent : s.event ≠ .failed) :
    Exec.step s = (.ok s.cost, s.next) := by
  rw [step_eq, outcome, if_neg hevent]

theorem exists_step_eq_ok {s : Core V A}
    (h : s.cpu.halted = true ∨ s.opcode ∉ Manual.unused) : ∃ n t, Exec.step s = (.ok n, t) := by
  refine ⟨_, _, step_of_event_ne fun hevent => ?_⟩
  obtain ⟨hrunning, hunused⟩ := s.event_eq_failed_iff_unused.mp hevent
  rcases h with hhalted | hused
  · simp [hrunning] at hhalted
  · exact hused hunused

theorem unused_of_step_eq_error {s t : Core V A} {e : CpuError}
    (hstep : Exec.step s = (.error e, t)) :
    s.cpu.halted = false ∧ s.opcode ∈ Manual.unused := by
  by_contra hnot
  rw [not_and_or, Bool.not_eq_false] at hnot
  obtain ⟨n, u, hok⟩ := exists_step_eq_ok hnot
  cases hok.symm.trans hstep

/-- A step fails exactly if the processor is not halted and the byte at the program counter is an
unused opcode. The error names that byte and its address. All that has happened by then is that
the program counter has gone on by one and the devices have run for four cycles: nothing else of
the processor has changed, no memory has been written and no interrupt has been taken. Every other
step succeeds, whatever follows the opcode and wherever it is read from. -/
theorem fails_exactly (s : Core V A) :
    (∀ e t, Exec.step s = (.error e, t) ↔
      (s.cpu.halted = false ∧ s.bus.read s.cpu.regs.pc ∈ Manual.unused) ∧
        e = .unknownOpcode (s.bus.read s.cpu.regs.pc) s.cpu.regs.pc ∧
        t.cpu = { s.cpu with regs := { s.cpu.regs with pc := s.cpu.regs.pc + 1 } } ∧
        Bus.Idled 4 s.bus t.bus) ∧
    (s.cpu.halted = true ∨ s.bus.read s.cpu.regs.pc ∉ Manual.unused →
      ∃ n t, Exec.step s = (.ok n, t)) ∧
    (s.bus.read s.cpu.regs.pc = 0xCB → ∃ n t, Exec.step s = (.ok n, t)) := by
  refine ⟨fun e t => ⟨fun hstep => ?_, ?_⟩, exists_step_eq_ok, fun hextended => ?_⟩
  · have hfails := unused_of_step_eq_error hstep
    rw [step_of_unused hfails.1 hfails.2] at hstep
    obtain ⟨he, rfl⟩ := Prod.mk.inj hstep
    exact ⟨hfails, (Except.error.inj he).symm, rfl, s.bus.idled_advance 4⟩
  · rintro ⟨⟨hrunning, hunused⟩, rfl, hcpu, hbus⟩
    rw [step_of_unused hrunning hunused]
    obtain ⟨cpu, bus⟩ := t
    obtain rfl : cpu = _ := hcpu
    obtain rfl : bus = _ := hbus.eq_advance
    rfl
  · have hused : (0xCB : UInt8) ∉ Manual.unused := by decide
    exact exists_step_eq_ok (.inr fun hunused => hused (hextended ▸ hunused))

/-- The program counter is at the last address, where the register of the enabled interrupts holds
an unused opcode. A request is enabled and the master enable is set. -/
def enabledAsOpcode : Core Lcd Sound :=
  { cpu := { Cpu.postBoot with
      regs := { Cpu.postBoot.regs with pc := 0xFFFF }, ime := true, enableDelay := 1 }
    bus := { (powerOn none).bus with requested := 0x01, enabled := 0xFD } }

/-- The step fails and the interrupt that is due is not taken. -/
theorem fails_exactly_enabledAsOpcode :
    (∃ t, Exec.step enabledAsOpcode = (.error (.unknownOpcode 0xFD 0xFFFF), t)) ∧
      ∀ e t, Exec.step enabledAsOpcode = (.error e, t) →
        t.cpu.regs.pc = 0 ∧ t.cpu.ime = true ∧ t.cpu.enableDelay = 1 ∧
          t.bus.read 0xFFFF = 0xFD ∧ t.bus.requested &&& 0x01 = 0x01 := by
  obtain ⟨hfails, -, -⟩ := fails_exactly enabledAsOpcode
  refine ⟨⟨enabledAsOpcode.after .failed, (hfails _ _).mpr ?_⟩, fun e t hstep => ?_⟩
  · exact ⟨⟨rfl, by decide⟩, rfl, rfl, enabledAsOpcode.bus.idled_advance 4⟩
  · obtain ⟨-, -, hcpu, hbus⟩ := (hfails e t).mp hstep
    refine ⟨?_, ?_, ?_, (hbus.read_eq 0xFFFF rfl).trans rfl, ?_⟩
    · rw [hcpu]
      rfl
    · rw [hcpu]
      rfl
    · rw [hcpu]
      rfl
    · rw [hbus.requested_eq]
      decide

end Core

end Handheld
