import Handheld.Proofs.Cartridge.Log

/-!
The first bank controller after a log of writes. Its bank is put together from two writes that
may come in either order, and its RAM is reached only while enabled, through a window that shows
a small RAM more than once.
-/
namespace Handheld

namespace Mbc1

open Cartridge

/-- The two higher bits of the bank, zero to begin with. -/
def highBits (log : Log) : Nat := (lastWritten 0x4000 0x5FFF log).elim 0 fun v => v.toNat % 4

/-- The five lower bits of the bank, one to begin with. Zero counts as one. -/
def lowBits (log : Log) : Nat :=
  (lastWritten 0x2000 0x3FFF log).elim 1 fun v => max 1 (v.toNat % 32)

/-- The bank that a log maps. -/
def mappedBank (log : Log) : Nat := 32 * highBits log + lowBits log

/-- The size of the RAM that the controller serves. -/
def ramSize (rom : ByteArray) : Nat := min (Header.parse rom).ramSize 0x2000

/-- The value that the window shows at an offset of a RAM of `size` bytes: the last one that was
written, while enabled, to an address of the window that is congruent to it. -/
def shown (size offset : Nat) (log : Log) : UInt8 :=
  (newest (fun op before =>
    if enabled before then
      op.writtenTo fun a => (0xA000 ≤ a ∧ a ≤ 0xBFFF) ∧ a % size = (0xA000 + offset) % size
    else none) log).getD 0

/-- The registers of the controller are those that a log tells. -/
structure Records (log : Log) (m : Mbc1) : Prop where
  romBank : m.romBank.toNat = mappedBank log
  ramEnabled : m.ramEnabled = enabled log

theorem records_powerOn : Records [] powerOn := ⟨rfl, rfl⟩

theorem highBits_lt (log : Log) : highBits log < 4 := by
  unfold highBits
  cases lastWritten 0x4000 0x5FFF log with
  | none => exact Nat.zero_lt_succ _
  | some v => exact Nat.mod_lt _ (by decide)

theorem lowBits_bounds (log : Log) : 0 < lowBits log ∧ lowBits log < 32 := by
  unfold lowBits
  cases lastWritten 0x2000 0x3FFF log with
  | none => exact ⟨Nat.zero_lt_one, by decide⟩
  | some v =>
    rw [Option.elim_some]
    omega

/-- The lower five bits of the bank are never all zero. -/
theorem mappedBank_mod_ne_zero (log : Log) : mappedBank log % 32 ≠ 0 := by
  have hlow := lowBits_bounds log
  unfold mappedBank
  omega

/-- Setting the five lower bits of the bank leaves the two higher ones. -/
theorem toNat_setLow (b low : UInt8) (h : low.toNat < 32) :
    ((b &&& 0x60) ||| low).toNat = 32 * (b.toNat / 32 % 4) + low.toNat := by
  have hhigh : (b &&& 0x60).toNat = 2 ^ 5 * (b.toNat / 32 % 4) := by
    revert b
    exact forall_byte (by decide +kernel)
  rw [UInt8.toNat_or, hhigh, ← Nat.two_pow_add_eq_or_of_lt h]

/-- Setting the two higher bits of the bank leaves the five lower ones. -/
theorem toNat_setHigh (b v : UInt8) :
    ((b &&& 0x1F) ||| 0x20 * (v &&& 0x03)).toNat = 32 * (v.toNat % 4) + b.toNat % 32 := by
  have hlow : (b &&& 0x1F).toNat = b.toNat % 2 ^ 5 := toNat_and_mask b 0x1F 5 rfl
  have hbits : (v &&& 0x03).toNat = v.toNat % 2 ^ 2 := toNat_and_mask v 0x03 2 rfl
  have hhigh : (0x20 * (v &&& 0x03)).toNat = 2 ^ 5 * (v.toNat % 4) := by
    rw [UInt8.toNat_mul, hbits]
    change 32 * (v.toNat % 4) % 256 = 32 * (v.toNat % 4)
    omega
  rw [UInt8.toNat_or, hlow, hhigh, Nat.or_comm,
    ← Nat.two_pow_add_eq_or_of_lt (Nat.mod_lt _ (by decide))]

/-- What a write does to the registers. -/
theorem write_eq (m : Mbc1) (addr : UInt16) (v : UInt8) :
    m.write addr v =
      { romBank := if 0x2000 ≤ addr.toNat ∧ addr.toNat ≤ 0x3FFF then
            (m.romBank &&& 0x60) ||| nonzeroBank (v &&& 0x1F)
          else if 0x4000 ≤ addr.toNat ∧ addr.toNat ≤ 0x5FFF then
            (m.romBank &&& 0x1F) ||| 0x20 * (v &&& 0x03)
          else m.romBank
        ramEnabled := if addr.toNat ≤ 0x1FFF then enablesRam v else m.ramEnabled } := by
  obtain ⟨henable, hbank, hselection, -⟩ := CartridgeArea.of_eq_iff addr
  simp only [← henable, ← hbank, ← hselection]
  unfold Mbc1.write
  cases CartridgeArea.of addr <;> rfl

theorem highBits_write (addr : UInt16) (v : UInt8) (log : Log) :
    highBits (.write addr v :: log) =
      if 0x4000 ≤ addr.toNat ∧ addr.toNat ≤ 0x5FFF then v.toNat % 4 else highBits log := by
  rw [highBits, lastWritten_write]
  split <;> rfl

theorem lowBits_write (addr : UInt16) (v : UInt8) (log : Log) :
    lowBits (.write addr v :: log) =
      if 0x2000 ≤ addr.toNat ∧ addr.toNat ≤ 0x3FFF then max 1 (v.toNat % 32)
      else lowBits log := by
  rw [lowBits, lastWritten_write]
  split <;> rfl

theorem Records.write {log : Log} {m : Mbc1} (h : Records log m) (addr : UInt16) (v : UInt8) :
    Records (.write addr v :: log) (m.write addr v) := by
  have hbefore := h.romBank
  have hhigh := highBits_lt log
  have hlow := lowBits_bounds log
  have hset : (nonzeroBank (v &&& 0x1F)).toNat = max 1 (v.toNat % 2 ^ 5) := by
    rw [toNat_nonzeroBank, toNat_and_mask v 0x1F 5 rfl]
  rw [mappedBank] at hbefore
  rw [write_eq]
  refine ⟨?_, ?_⟩
  · dsimp only
    rw [mappedBank, highBits_write, lowBits_write]
    by_cases hbank : 0x2000 ≤ addr.toNat ∧ addr.toNat ≤ 0x3FFF
    · rw [if_pos hbank, if_pos hbank, if_neg (by omega), toNat_setLow _ _ (by omega), hset,
        hbefore]
      omega
    · by_cases hselection : 0x4000 ≤ addr.toNat ∧ addr.toNat ≤ 0x5FFF
      · rw [if_neg hbank, if_neg hbank, if_pos hselection, if_pos hselection, toNat_setHigh,
          hbefore]
        omega
      · rw [if_neg hbank, if_neg hbank, if_neg hselection, if_neg hselection, hbefore]
  · rw [enabled_write, h.ramEnabled]

end Mbc1

namespace Cartridge

open Mbc1

variable {rom : ByteArray} {c : Cartridge} {m : Mbc1} {log : Log}

/-- The sizes of the RAM that the controller serves. -/
theorem ramSize_cases (rom : ByteArray) :
    ramSize rom = 0 ∨ ramSize rom = 0x800 ∨ ramSize rom = 0x2000 := by
  have hcodes (code : UInt8) : min (Header.ramSizeOf code) 0x2000 = 0 ∨
      min (Header.ramSizeOf code) 0x2000 = 0x800 ∨
        min (Header.ramSizeOf code) 0x2000 = 0x2000 := by
    unfold Header.ramSizeOf
    split <;> decide
  exact hcodes _

theorem ramSize_dvd (rom : ByteArray) (hpos : ramSize rom ≠ 0) : ramSize rom ∣ 0x2000 := by
  rcases ramSize_cases rom with h | h | h
  · exact absurd h hpos
  · rw [h]
    decide
  · rw [h]

theorem ofRom_of_mbc1 (h : (Header.parse rom).kind = .mbc1) (mode : ClockMode)
    (host : HostClock) :
    ofRom rom mode host = ⟨rom, ⟨Array.replicate (ramSize rom) 0⟩, .mbc1 .powerOn⟩ := by
  unfold ofRom
  dsimp only
  rw [h]
  rfl

/-- The controller after a log has recorded it. -/
theorem mbc1_after (h : (Header.parse rom).kind = .mbc1) (mode : ClockMode) (host : HostClock)
    (log : Log) :
    ∃ m, ((ofRom rom mode host).after log).mapper = .mbc1 m ∧ Records log m := by
  refine mapper_after (P := fun log mapper => ∃ m, mapper = .mbc1 m ∧ Records log m) ?_ ?_ ?_ log
  · rw [ofRom_of_mbc1 h]
    exact ⟨.powerOn, rfl, records_powerOn⟩
  · rintro log _ addr v ⟨m, rfl, hm⟩
    exact ⟨m.write addr v, rfl, hm.write addr v⟩
  · rintro log _ cycles ⟨m, rfl, hm⟩
    exact ⟨m, rfl, hm.romBank, hm.ramEnabled⟩

/-- A write to the window reaches, while the RAM is enabled, the cell that its address leaves as
a remainder. -/
theorem cell?_of_mbc1 (hmapper : c.mapper = .mbc1 m) (h : Records log m) (hpos : c.ram.size ≠ 0)
    (hdvd : c.ram.size ∣ 0x2000) (addr : UInt16) :
    c.cell? addr =
      if (0xA000 ≤ addr.toNat ∧ addr.toNat ≤ 0xBFFF) ∧ enabled log = true then
        some (addr.toNat % c.ram.size)
      else none := by
  have hcell : ramOffset addr % c.ram.size = addr.toNat % c.ram.size := Nat.mod_mod_of_dvd _ hdvd
  rw [cell?, hmapper, Mapper.ramCell?, h.ramEnabled, hcell]
  by_cases hin : 0xA000 ≤ addr.toNat ∧ addr.toNat ≤ 0xBFFF
  · simp [hin, hpos]
  · simp [hin]

theorem stored?_of_mbc1 (hmapper : c.mapper = .mbc1 m) (h : Records log m)
    (hpos : c.ram.size ≠ 0) (hdvd : c.ram.size ∣ 0x2000) (offset : Nat) (op : Operation) :
    c.stored? ((0xA000 + offset) % c.ram.size) op =
      if enabled log then
        op.writtenTo fun a =>
          (0xA000 ≤ a ∧ a ≤ 0xBFFF) ∧ a % c.ram.size = (0xA000 + offset) % c.ram.size
      else none := by
  cases op with
  | step cycles => simp [stored?, Operation.writtenTo]
  | write addr v =>
    rw [stored?, cell?_of_mbc1 hmapper h hpos hdvd, Operation.writtenTo]
    by_cases hin : 0xA000 ≤ addr.toNat ∧ addr.toNat ≤ 0xBFFF
    · cases enabled log <;> simp [hin]
    · simp [hin]

theorem size_ram_of_mbc1 (h : (Header.parse rom).kind = .mbc1) (mode : ClockMode)
    (host : HostClock) (log : Log) :
    ((ofRom rom mode host).after log).ram.size = ramSize rom := by
  rw [(sameBoard_after _ log).size_ram, ofRom_of_mbc1 h]
  exact Array.size_replicate

theorem ramByte_of_mbc1 (h : (Header.parse rom).kind = .mbc1) (mode : ClockMode)
    (host : HostClock) (hpos : ramSize rom ≠ 0) (offset : Nat) (log : Log) :
    ((ofRom rom mode host).after log).ramByte ((0xA000 + offset) % ramSize rom) =
      shown (ramSize rom) offset log := by
  have hsize := size_ram_of_mbc1 h mode host
  have hcell : (0xA000 + offset) % ramSize rom < (ofRom rom mode host).ram.size :=
    Nat.lt_of_lt_of_eq (Nat.mod_lt _ (Nat.pos_of_ne_zero hpos)) (hsize []).symm
  rw [ramByte_after_ofRom hcell, shown]
  congr 2
  funext op before
  obtain ⟨m, hmapper, hm⟩ := mbc1_after h mode host before
  have hstored := stored?_of_mbc1 hmapper hm (hsize before ▸ hpos)
    (hsize before ▸ ramSize_dvd rom hpos) offset op
  rwa [hsize before] at hstored

theorem readWindow_of_mbc1 (hmapper : c.mapper = .mbc1 m) (h : Records log m) (addr : UInt16) :
    c.readWindow addr =
      if c.ram.size = 0 ∨ enabled log = false then 0xFF
      else c.ramByte (ramOffset addr % c.ram.size) := by
  rw [readWindow, hmapper, Mapper.ramCell?, h.ramEnabled]
  by_cases hsize : c.ram.size = 0
  · simp [hsize, Mapper.windowDefault]
  · cases enabled log <;> simp [hsize, Mapper.windowDefault]

/-- The fourth area is not one of the controller's. -/
theorem write_latch_of_mbc1 (hmapper : c.mapper = .mbc1 m) {addr : UInt16}
    (hfirst : 0x6000 ≤ addr.toNat) (hlast : addr.toNat ≤ 0x7FFF) (v : UInt8) :
    c.write addr v = c := by
  obtain ⟨-, -, -, hlatch, -⟩ := CartridgeArea.of_eq_iff addr
  have harea : CartridgeArea.of addr = .latch := hlatch.mpr ⟨hfirst, hlast⟩
  have hkept : c.mapper.write addr v = c.mapper := by
    rw [hmapper, Mapper.write, Mbc1.write, harea]
  rw [write, harea]
  dsimp only
  rw [hkept]

/-- What a cartridge with the first controller shows after any log: the bank that the last writes
to its two registers make up, modulo the banks of the image; in the window, while enabled, the
last value written to a congruent address. The fourth area has no effect. -/
theorem mbc1_shows_log (h : (Header.parse rom).kind = .mbc1) (mode : ClockMode)
    (host : HostClock) (log : Log) :
    let c := (ofRom rom mode host).after log
    (c.romBank.toNat = mappedBank log ∧ mappedBank log % 32 ≠ 0) ∧
      (∀ offset < 0x4000, c.read (.ofNat (0x4000 + offset)) =
        imageByte rom (mappedBank log % bankCount rom * 0x4000 + offset)) ∧
      (ramSize rom = 0 ∨ ramSize rom = 0x800 ∨ ramSize rom = 0x2000) ∧
      (∀ offset < 0x2000, c.read (.ofNat (0xA000 + offset)) =
        if ramSize rom = 0 ∨ enabled log = false then 0xFF
        else shown (ramSize rom) offset log) ∧
      ∀ (addr : UInt16) (v : UInt8), 0x6000 ≤ addr.toNat → addr.toNat ≤ 0x7FFF →
        c.write addr v = c := by
  intro c
  obtain ⟨m, hmapper, hm⟩ := mbc1_after h mode host log
  have hbank : c.romBank.toNat = mappedBank log := by
    rw [romBank, hmapper]
    exact hm.romBank
  have hrom : c.rom = rom := rom_after_ofRom rom mode host log
  have hsize : c.ram.size = ramSize rom := size_ram_of_mbc1 h mode host log
  refine ⟨⟨hbank, mappedBank_mod_ne_zero log⟩, ?_, ramSize_cases rom, ?_, ?_⟩
  · intro offset hoffset
    rw [read_mappedBank c hoffset, hbank, hrom]
  · intro offset hoffset
    have haddr : (UInt16.ofNat (0xA000 + offset)).toNat = 0xA000 + offset :=
      toNat_ofNat_of_lt (by omega)
    rw [read_window c hoffset, readWindow_of_mbc1 hmapper hm, hsize]
    by_cases hnone : ramSize rom = 0 ∨ enabled log = false
    · rw [if_pos hnone, if_pos hnone]
    · have hpos : ramSize rom ≠ 0 := fun hzero => hnone (.inl hzero)
      rw [if_neg hnone, if_neg hnone, ramOffset, ramBankSize,
        Nat.mod_mod_of_dvd _ (ramSize_dvd rom hpos), haddr]
      exact ramByte_of_mbc1 h mode host hpos offset log
  · intro addr v hfirst hlast
    exact write_latch_of_mbc1 hmapper hfirst hlast v

/-- The shortest ROM with the first controller and a RAM of 2 KiB. -/
def mirroredRom : ByteArray :=
  ⟨(List.replicate 0x147 (0 : UInt8) ++ [0x02, 0x00, 0x01]).toArray⟩

/-- The higher bits of the bank are set before the lower ones, which are zero, and a value is
stored before the RAM is disabled and enabled again. -/
def mirroredLog : Log :=
  [.write 0x1FFF 0x1A, .write 0xA123 0x66, .write 0x0000 0x00, .write 0xA123 0x55,
    .write 0x0000 0x0A, .write 0x2000 0x20, .write 0x4000 0x02]

/-- The value is seen in the last of the four mirrors. -/
theorem mbc1_shows_log_mirrored :
    let c := (ofRom mirroredRom .emulated (.fixed 0)).after mirroredLog
    c.romBank.toNat = 0x41 ∧ c.read 0x4147 = 0x02 ∧ c.read 0x414A = 0xFF ∧
      c.read 0xB923 = 0x55 := by
  have hkind : (Header.parse mirroredRom).kind = .mbc1 := by decide +kernel
  obtain ⟨⟨hbank, -⟩, hrom, -, hwindow, -⟩ :=
    mbc1_shows_log hkind .emulated (.fixed 0) mirroredLog
  refine ⟨hbank.trans ?_, (hrom 0x147 (by decide)).trans ?_, (hrom 0x14A (by decide)).trans ?_,
    (hwindow 0x1923 (by decide)).trans ?_⟩
  all_goals decide +kernel

end Cartridge

end Handheld
