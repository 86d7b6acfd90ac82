import Handheld.Cartridge.Save
import Handheld.Proofs.Cartridge.Seconds

/-!
Cartridges as their operations leave them. Whatever is done to a cartridge, its board stays
the one that its ROM asks for, and its clock stays sound: every register within its bits, and
the counters of cycles within a period of each other.
-/
namespace Handheld

theorem cyclesPerSecond_pos : 0 < cyclesPerSecond := by decide

namespace Clock

/-- What the operations of a clock keep. -/
structure Sound (k : Clock) : Prop where
  live : k.live.Masked
  latched : k.latched.Masked
  sinceCheck_lt : k.sinceCheck < checkPeriod k.mode
  /-- The counted cycles pass a second only by cycles since the last look. -/
  subsecond_lt : k.subsecond < cyclesPerSecond + k.sinceCheck
  subsecond_of_wall : k.mode = .wall → k.subsecond = 0

theorem checkPeriod_pos (mode : ClockMode) : 0 < checkPeriod mode := by
  cases mode <;> decide

theorem sound_start (mode : ClockMode) (host : HostClock) : (start mode host).Sound where
  live := ClockRegisters.masked_cleared
  latched := ClockRegisters.masked_cleared
  sinceCheck_lt := checkPeriod_pos mode
  subsecond_lt := Nat.add_pos_left cyclesPerSecond_pos _
  subsecond_of_wall := fun _ => rfl

theorem Sound.latch {k : Clock} (h : k.Sound) : k.latch.Sound :=
  ⟨h.live, h.live, h.sinceCheck_lt, h.subsecond_lt, h.subsecond_of_wall⟩

theorem Sound.write {k : Clock} (h : k.Sound) (field : ClockField) (v : UInt8) :
    (k.write field v).Sound where
  live := h.live.set field v
  latched := h.latched.set field v
  sinceCheck_lt := h.sinceCheck_lt
  subsecond_lt := by
    have hlt := h.subsecond_lt
    simp only [Clock.write]
    split <;> omega
  subsecond_of_wall := fun hwall => by
    have hzero := h.subsecond_of_wall hwall
    simp only [Clock.write, hzero, ite_self]

theorem masked_registersAt (block : List UInt8) (start : Nat) :
    (registersAt block start).Masked := by
  rw [registersAt]
  exact ClockRegisters.masked_ofValue _

theorem sound_restore (k : Clock) (block : List UInt8) : (k.restore block).Sound where
  live := masked_registersAt block 0
  latched := masked_registersAt block 20
  sinceCheck_lt := checkPeriod_pos k.mode
  subsecond_lt := Nat.add_pos_left cyclesPerSecond_pos _
  subsecond_of_wall := fun _ => rfl

/-- A step of a clock that follows the host. -/
theorem step_of_wall {k : Clock} (h : k.mode = .wall) (cycles : Nat) :
    k.step cycles =
      if checkPeriod .wall ≤ k.sinceCheck + cycles then { k with sinceCheck := 0 }.synchronize
      else { k with sinceCheck := k.sinceCheck + cycles } := by
  simp only [step, h]
  split <;> rfl

/-- A step of a clock that follows the emulated cycles. -/
theorem step_of_emulated {k : Clock} (h : k.mode = .emulated) (cycles : Nat) :
    k.step cycles =
      if checkPeriod .emulated ≤ k.sinceCheck + cycles then
        ({ k with sinceCheck := 0 }.count cycles).settle
      else { k with sinceCheck := k.sinceCheck + cycles }.count cycles := by
  simp only [step, h]
  split <;> rfl

/-- The cycles that are counted after some more. -/
def counted (k : Clock) (cycles : Nat) : Nat :=
  if k.live.halted then k.subsecond else k.subsecond + cycles

theorem count_eq (k : Clock) (cycles : Nat) :
    k.count cycles = { k with subsecond := k.counted cycles } := by
  unfold count counted
  split <;> rfl

theorem counted_le (k : Clock) (cycles : Nat) : k.counted cycles ≤ k.subsecond + cycles := by
  unfold counted
  split <;> omega

theorem Sound.synchronize {k : Clock} (h : k.Sound) (hwall : k.mode = .wall) :
    { k with sinceCheck := 0 }.synchronize.Sound := by
  have hzero := h.subsecond_of_wall hwall
  have hlt : k.subsecond < cyclesPerSecond := hzero ▸ cyclesPerSecond_pos
  unfold Clock.synchronize
  dsimp only
  split
  · exact ⟨h.live, h.latched, checkPeriod_pos k.mode, hlt, fun _ => hzero⟩
  · exact ⟨h.live.advance _, h.latched, checkPeriod_pos k.mode, hlt, fun _ => hzero⟩

theorem mode_step (k : Clock) (cycles : Nat) : (k.step cycles).mode = k.mode := by
  cases hmode : k.mode with
  | wall =>
    rw [step_of_wall hmode]
    unfold synchronize
    split
    · dsimp only
      split <;> exact hmode
    · exact hmode
  | emulated =>
    rw [step_of_emulated hmode, count_eq, count_eq]
    split <;> exact hmode

theorem Sound.step {k : Clock} (h : k.Sound) (cycles : Nat) : (k.step cycles).Sound := by
  cases hmode : k.mode with
  | wall =>
    rw [step_of_wall hmode]
    split
    · exact h.synchronize hmode
    · next hearly =>
      have hzero := h.subsecond_of_wall hmode
      have hpos := cyclesPerSecond_pos
      refine ⟨h.live, h.latched, ?_, ?_, fun _ => hzero⟩
      · dsimp only
        rw [hmode]
        omega
      · dsimp only
        omega
  | emulated =>
    have hne : k.mode ≠ .wall := by simp [hmode]
    rw [step_of_emulated hmode, count_eq, count_eq]
    split
    · have hlt : k.counted cycles % cyclesPerSecond < cyclesPerSecond :=
        Nat.mod_lt _ cyclesPerSecond_pos
      exact ⟨h.live.advance _, h.latched, checkPeriod_pos k.mode, hlt,
        fun hwall => absurd hwall hne⟩
    · next hearly =>
      refine ⟨h.live, h.latched, ?_, ?_, fun hwall => absurd hwall hne⟩
      · dsimp only
        rw [hmode]
        omega
      · have hlt := h.subsecond_lt
        have hle := k.counted_le cycles
        change k.counted cycles < cyclesPerSecond + (k.sinceCheck + cycles)
        omega

end Clock

namespace Cartridge

/-- The clock register that a write to an address reaches. -/
def clockField? (c : Cartridge) (addr : UInt16) : Option ClockField :=
  match CartridgeArea.of addr, c.mapper with
  | .ram, .mbc3 m =>
    match m.ramEnabled, m.selection with
    | true, .clock field => some field
    | _, _ => none
  | _, _ => none

/-- Whether a write latches the clock. -/
def latches (c : Cartridge) (addr : UInt16) (v : UInt8) : Bool :=
  match CartridgeArea.of addr, c.mapper with
  | .latch, .mbc3 m => v == 1 && m.latchArmed
  | _, _ => false

theorem clock?_step (c : Cartridge) (cycles : Nat) :
    (c.step cycles).clock? = c.clock?.map (·.step cycles) := by
  obtain ⟨rom, ram, mapper⟩ := c
  cases mapper with
  | fixed => rfl
  | mbc1 m => rfl
  | mbc3 m =>
    obtain ⟨romBank, ramEnabled, selection, latchArmed, clock⟩ := m
    cases clock <;> rfl

theorem clock?_setRamByte (c : Cartridge) (cell : Nat) (v : UInt8) :
    (c.setRamByte cell v).clock? = c.clock? := by
  unfold setRamByte
  split <;> rfl

/-- A write changes the clock only if it reaches one of its registers or latches it. -/
theorem clock?_write (c : Cartridge) (addr : UInt16) (v : UInt8) :
    (c.write addr v).clock? =
      match c.clockField? addr with
      | some field => c.clock?.map (·.write field v)
      | none => if c.latches addr v then c.clock?.map Clock.latch else c.clock? := by
  obtain ⟨rom, ram, mapper⟩ := c
  cases mapper with
  | fixed =>
    cases harea : CartridgeArea.of addr <;> simp [write, clockField?, latches, harea] <;> rfl
  | mbc1 m =>
    cases harea : CartridgeArea.of addr <;> simp only [write, clockField?, latches, harea] <;>
      try rfl
    split
    · exact clock?_setRamByte _ _ _
    · rfl
  | mbc3 m =>
    obtain ⟨romBank, ramEnabled, selection, latchArmed, clock⟩ := m
    cases harea : CartridgeArea.of addr with
    | ram =>
      cases ramEnabled with
      | false =>
        simp [write, clockField?, latches, harea, Mapper.ramCell?, clock?, Mapper.clock?,
          Mapper.write, Mbc3.write, Mbc3.writeClock]
      | true =>
        cases selection with
        | ram bank => simp [write, clockField?, latches, harea, Mapper.ramCell?, clock?_setRamByte]
        | clock field =>
          simp [write, clockField?, harea, Mapper.ramCell?, clock?, Mapper.clock?, Mapper.write,
            Mbc3.write, Mbc3.writeClock]
    | latch =>
      simp [write, clockField?, latches, harea, clock?, Mapper.clock?, Mapper.write, Mbc3.write,
        Mbc3.writeLatch]
    | _ =>
      simp [write, clockField?, latches, harea, clock?, Mapper.clock?, Mapper.write, Mbc3.write]

theorem clock?_mapClock (c : Cartridge) (f : Clock → Clock) :
    (c.mapClock f).clock? = c.clock?.map f := by
  obtain ⟨rom, ram, mapper⟩ := c
  cases mapper <;> rfl

/-- The cartridge with the RAM and the clock that a save holds. -/
def loaded (c : Cartridge) (data : ByteArray) : Cartridge :=
  { c with ram := data.extract 0 c.ram.size }.mapClock
    (·.restore (data.extract c.ram.size data.size).data.toList)

/-- A save is loaded if it is the RAM and a block of a length that fits the clock. -/
theorem load_eq_ok_iff {c c' : Cartridge} {data : ByteArray} :
    c.load data = .ok c' ↔
      c.ram.size ≤ data.size ∧ data.size - c.ram.size ∈ c.blockLengths ∧ c' = c.loaded data := by
  unfold load
  dsimp only
  split
  · next hshort =>
    have hnot : ¬c.ram.size ≤ data.size := by omega
    simp [hnot]
  · next hlong =>
    have hle : c.ram.size ≤ data.size := by omega
    split
    · next hblock => simp [hle, hblock, loaded, eq_comm]
    · next hblock => simp [hblock]

theorem clock?_loaded (c : Cartridge) (data : ByteArray) :
    (c.loaded data).clock? =
      c.clock?.map (·.restore (data.extract c.ram.size data.size).data.toList) :=
  clock?_mapClock _ _

theorem ram_loaded (c : Cartridge) (data : ByteArray) :
    (c.loaded data).ram = data.extract 0 c.ram.size := rfl

/-- The same ROM, as much RAM, and a clock on both cartridges or on neither. -/
structure SameBoard (c d : Cartridge) : Prop where
  rom : d.rom = c.rom
  size_ram : d.ram.size = c.ram.size
  isSome_clock? : d.clock?.isSome = c.clock?.isSome

theorem SameBoard.trans {c d e : Cartridge} (first : SameBoard c d) (next : SameBoard d e) :
    SameBoard c e :=
  ⟨next.rom.trans first.rom, next.size_ram.trans first.size_ram,
    next.isSome_clock?.trans first.isSome_clock?⟩

/-- What the ROM asks for does not depend on the time. -/
theorem sameBoard_ofRom (rom : ByteArray) (mode mode' : ClockMode) (host host' : HostClock) :
    SameBoard (ofRom rom mode host) (ofRom rom mode' host') := by
  unfold ofRom
  dsimp only
  cases (Header.parse rom).kind with
  | fixed => exact ⟨rfl, rfl, rfl⟩
  | mbc1 => exact ⟨rfl, rfl, rfl⟩
  | mbc3 => cases (Header.parse rom).timer <;> exact ⟨rfl, rfl, rfl⟩

theorem sameBoard_setRamByte (c : Cartridge) (cell : Nat) (v : UInt8) :
    SameBoard c (c.setRamByte cell v) := by
  unfold setRamByte
  split
  · exact ⟨rfl, Array.size_set _, rfl⟩
  · exact ⟨rfl, rfl, rfl⟩

theorem rom_size_write (c : Cartridge) (addr : UInt16) (v : UInt8) :
    (c.write addr v).rom = c.rom ∧ (c.write addr v).ram.size = c.ram.size := by
  unfold write
  split
  · split
    · exact ⟨(sameBoard_setRamByte c _ v).rom, (sameBoard_setRamByte c _ v).size_ram⟩
    · exact ⟨rfl, rfl⟩
  · exact ⟨rfl, rfl⟩

theorem sameBoard_write (c : Cartridge) (addr : UInt16) (v : UInt8) :
    SameBoard c (c.write addr v) where
  rom := (rom_size_write c addr v).1
  size_ram := (rom_size_write c addr v).2
  isSome_clock? := by
    rw [clock?_write]
    split
    · exact Option.isSome_map
    · split
      · exact Option.isSome_map
      · rfl

theorem sameBoard_step (c : Cartridge) (cycles : Nat) : SameBoard c (c.step cycles) where
  rom := by
    unfold step
    split
    · split <;> rfl
    · rfl
  size_ram := by
    unfold step
    split
    · split <;> rfl
    · rfl
  isSome_clock? := by
    rw [clock?_step]
    exact Option.isSome_map

theorem sameBoard_loaded {c : Cartridge} {data : ByteArray} (h : c.ram.size ≤ data.size) :
    SameBoard c (c.loaded data) where
  rom := rfl
  size_ram := by
    rw [ram_loaded, ByteArray.size_extract]
    omega
  isSome_clock? := by
    rw [clock?_loaded]
    exact Option.isSome_map

/-- What the operations lead to from a cartridge at power-on. A save that does not fit changes
nothing. -/
inductive Reachable (rom : ByteArray) (mode : ClockMode) : Cartridge → Prop
  | ofRom (host : HostClock) : Reachable rom mode (.ofRom rom mode host)
  | write {c : Cartridge} (h : Reachable rom mode c) (addr : UInt16) (v : UInt8) :
      Reachable rom mode (c.write addr v)
  | step {c : Cartridge} (h : Reachable rom mode c) (cycles : Nat) :
      Reachable rom mode (c.step cycles)
  | load {c c' : Cartridge} (h : Reachable rom mode c) (data : ByteArray)
      (hload : c.load data = .ok c') : Reachable rom mode c'

variable {rom : ByteArray} {mode : ClockMode} {c : Cartridge}

theorem Reachable.sameBoard (h : Reachable rom mode c) (mode' : ClockMode) (host : HostClock) :
    SameBoard (Cartridge.ofRom rom mode' host) c := by
  induction h with
  | ofRom host' => exact sameBoard_ofRom rom mode' mode host host'
  | @write c h addr v ih => exact ih.trans (sameBoard_write c addr v)
  | @step c h cycles ih => exact ih.trans (sameBoard_step c cycles)
  | @load c c' h data hload ih =>
    obtain ⟨hle, -, rfl⟩ := load_eq_ok_iff.mp hload
    exact ih.trans (sameBoard_loaded hle)

/-- There is a clock if the header asks for the third controller and a timer. -/
theorem clock?_ofRom (rom : ByteArray) (mode : ClockMode) (host : HostClock) :
    (Cartridge.ofRom rom mode host).clock? =
      if (Header.parse rom).kind = .mbc3 ∧ (Header.parse rom).timer = true then
        some (.start mode host)
      else none := by
  unfold Cartridge.ofRom
  dsimp only
  cases (Header.parse rom).kind with
  | fixed => rfl
  | mbc1 => rfl
  | mbc3 => cases (Header.parse rom).timer <;> rfl

/-- A property of clocks that every operation on the clock keeps holds of the clock of every
cartridge. -/
theorem Reachable.clock {P : Clock → Prop} (h : Reachable rom mode c)
    (hstart : ∀ host, P (.start mode host))
    (hwrite : ∀ k field v, P k → P (k.write field v)) (hlatch : ∀ k, P k → P k.latch)
    (hstep : ∀ k cycles, P k → P (k.step cycles)) (hrestore : ∀ k block, P k → P (k.restore block)) :
    ∀ k, c.clock? = some k → P k := by
  induction h with
  | ofRom host =>
    intro k hk
    rw [clock?_ofRom] at hk
    split at hk
    · exact Option.some.inj hk ▸ hstart host
    · cases hk
  | @write c h addr v ih =>
    intro k hk
    rw [clock?_write] at hk
    split at hk
    · obtain ⟨k', hk', rfl⟩ := Option.map_eq_some_iff.mp hk
      exact hwrite k' _ v (ih k' hk')
    · split at hk
      · obtain ⟨k', hk', rfl⟩ := Option.map_eq_some_iff.mp hk
        exact hlatch k' (ih k' hk')
      · exact ih k hk
  | @step c h cycles ih =>
    intro k hk
    rw [clock?_step] at hk
    obtain ⟨k', hk', rfl⟩ := Option.map_eq_some_iff.mp hk
    exact hstep k' cycles (ih k' hk')
  | @load c c' h data hload ih =>
    intro k hk
    obtain ⟨-, -, rfl⟩ := load_eq_ok_iff.mp hload
    rw [clock?_loaded] at hk
    obtain ⟨k', hk', rfl⟩ := Option.map_eq_some_iff.mp hk
    exact hrestore k' _ (ih k' hk')

theorem Reachable.sound (h : Reachable rom mode c) {k : Clock} (hk : c.clock? = some k) :
    k.Sound :=
  h.clock (Clock.sound_start mode) (fun _ field v hs => hs.write field v) (fun _ hs => hs.latch)
    (fun _ cycles hs => hs.step cycles) (fun k block _ => Clock.sound_restore k block) k hk

theorem Reachable.mode_eq (h : Reachable rom mode c) {k : Clock} (hk : c.clock? = some k) :
    k.mode = mode :=
  h.clock (P := fun k => k.mode = mode) (fun _ => rfl) (fun _ _ _ hs => hs) (fun _ hs => hs)
    (fun k cycles hs => (k.mode_step cycles).trans hs) (fun _ _ hs => hs) k hk

/-- The shortest ROM whose header asks for a clock. -/
def timerRom : ByteArray := ⟨(List.replicate 0x147 (0 : UInt8) ++ [0x10]).toArray⟩

theorem header_timerRom :
    (Header.parse timerRom).kind = .mbc3 ∧ (Header.parse timerRom).timer = true := by
  decide +kernel

/-- A cartridge with a clock at power-on, where the host's clock stands still. -/
def timerCartridge (mode : ClockMode) : Cartridge := .ofRom timerRom mode (.fixed 0)

theorem clock?_timerCartridge (mode : ClockMode) :
    (timerCartridge mode).clock? = some (.start mode (.fixed 0)) := by
  rw [timerCartridge, clock?_ofRom, if_pos header_timerRom]

end Cartridge

end Handheld
