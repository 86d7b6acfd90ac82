import Handheld.Proofs.Cartridge.Reachable
import Handheld.Word
import Mathlib.Algebra.Order.Floor.Div

/-!
Logs of a cartridge: what has been written to it and how time has passed since power-on. What a
cartridge shows is told by the newest entries of its log that bear on it. Here is what holds for
every bank controller: the ROM stays as it is, and each cell of the RAM holds the value that was
last stored in it.
-/
namespace Handheld

/-- Each area is a block of addresses. -/
theorem CartridgeArea.of_eq_iff (addr : UInt16) :
    (of addr = .ramEnable ↔ addr.toNat ≤ 0x1FFF) ∧
      (of addr = .romBank ↔ 0x2000 ≤ addr.toNat ∧ addr.toNat ≤ 0x3FFF) ∧
      (of addr = .selection ↔ 0x4000 ≤ addr.toNat ∧ addr.toNat ≤ 0x5FFF) ∧
      (of addr = .latch ↔ 0x6000 ≤ addr.toNat ∧ addr.toNat ≤ 0x7FFF) ∧
      (of addr = .ram ↔ 0xA000 ≤ addr.toNat ∧ addr.toNat ≤ 0xBFFF) := by
  unfold of
  split
  case h_6 henable hbank hselection hlatch hram =>
    have hblock : addr.toNat / 0x2000 = 4 ∨ 5 < addr.toNat / 0x2000 := by
      have h0 : addr.toNat / 0x2000 ≠ 0 := henable
      have h1 : addr.toNat / 0x2000 ≠ 1 := hbank
      have h2 : addr.toNat / 0x2000 ≠ 2 := hselection
      have h3 : addr.toNat / 0x2000 ≠ 3 := hlatch
      have h5 : addr.toNat / 0x2000 ≠ 5 := hram
      omega
    simp only [reduceCtorEq, false_iff]
    omega
  all_goals
    simp only [reduceCtorEq, false_iff, true_iff]
    omega

namespace Cartridge

/-- What changes a cartridge in play. -/
inductive Operation
  | write (addr : UInt16) (v : UInt8)
  | step (cycles : Nat)
  deriving DecidableEq

/-- The value that is written, if it goes to one of some addresses. -/
def Operation.writtenTo (p : Nat → Prop) [DecidablePred p] : Operation → Option UInt8
  | write addr v => if p addr.toNat then some v else none
  | step _ => none

def apply (c : Cartridge) : Operation → Cartridge
  | .write addr v => c.write addr v
  | .step cycles => c.step cycles

/-- The operations so far, the newest one first. Reads change nothing and leave no entry. -/
abbrev Log := List Operation

/-- The cartridge after the operations of a log. -/
def after (c : Cartridge) : Log → Cartridge
  | [] => c
  | op :: before => (c.after before).apply op

/-- The newest of the values that an event gives. Whether an operation is such an event may
depend on the operations before it. -/
def newest {α : Type} (event : Operation → Log → Option α) : Log → Option α
  | [] => none
  | op :: before => (event op before).or (newest event before)

/-- The last value that was written to an address from `first` to `last`. -/
def lastWritten (first last : Nat) : Log → Option UInt8 :=
  newest fun op _ => op.writtenTo fun a => first ≤ a ∧ a ≤ last

/-- The last write to the first area enabled the RAM: its low nibble was ten. -/
def enabled (log : Log) : Bool :=
  (lastWritten 0x0000 0x1FFF log).any fun v => v.toNat % 16 == 10

/-- A byte of an image, or what is read past its end. -/
def imageByte (rom : ByteArray) (i : Nat) : UInt8 := rom.data.getD i 0xFF

/-- The number of banks in an image, of which the last one may be incomplete. -/
def bankCount (rom : ByteArray) : Nat := max 1 (rom.size ⌈/⌉ 0x4000)

theorem lastWritten_write (first last : Nat) (addr : UInt16) (v : UInt8) (log : Log) :
    lastWritten first last (.write addr v :: log) =
      if first ≤ addr.toNat ∧ addr.toNat ≤ last then some v else lastWritten first last log := by
  unfold lastWritten
  rw [newest, Operation.writtenTo]
  split
  · rfl
  · rfl

/-- The enabling of the RAM in terms of the low nibble. -/
theorem enablesRam_eq (v : UInt8) : enablesRam v = (v.toNat % 16 == 10) := by
  revert v
  exact forall_byte (by decide +kernel)

theorem enabled_write (addr : UInt16) (v : UInt8) (log : Log) :
    enabled (.write addr v :: log) =
      if addr.toNat ≤ 0x1FFF then enablesRam v else enabled log := by
  rw [enabled, lastWritten_write, enablesRam_eq]
  by_cases hin : addr.toNat ≤ 0x1FFF
  · rw [if_pos ⟨Nat.zero_le _, hin⟩, if_pos hin, Option.any_some]
  · rw [if_neg fun h => hin h.2, if_neg hin]
    rfl

theorem toNat_nonzeroBank (v : UInt8) : (nonzeroBank v).toNat = max 1 v.toNat := by
  unfold nonzeroBank
  by_cases hzero : v = 0
  · rw [if_pos hzero, hzero]
    rfl
  · have hpos : v.toNat ≠ 0 := fun h => hzero (UInt8.toNat_inj.mp h)
    rw [if_neg hzero]
    omega

theorem step_eq_mapClock (c : Cartridge) (cycles : Nat) :
    c.step cycles = c.mapClock (·.step cycles) := by
  obtain ⟨rom, ram, mapper⟩ := c
  cases mapper with
  | fixed => rfl
  | mbc1 m => rfl
  | mbc3 m =>
    obtain ⟨romBank, ramEnabled, selection, latchArmed, clock⟩ := m
    cases clock <;> rfl

/-- Where a write reaches a RAM cell, the controller takes no notice of it. -/
theorem mapper_write (c : Cartridge) (addr : UInt16) (v : UInt8) :
    (c.write addr v).mapper = c.mapper.write addr v := by
  obtain ⟨rom, ram, mapper⟩ := c
  unfold write
  split
  · next harea =>
    split
    · next cell hcell =>
      have hkept (d : Cartridge) : (d.setRamByte cell v).mapper = d.mapper := by
        unfold setRamByte
        split <;> rfl
      rw [hkept]
      -- a cell is reached only while no clock register is selected
      cases mapper with
      | fixed => rfl
      | mbc1 m => simp [Mapper.write, Mbc1.write, harea]
      | mbc3 m =>
        obtain ⟨romBank, ramEnabled, selection, latchArmed, clock⟩ := m
        cases ramEnabled <;> cases selection <;>
          simp_all [Mapper.ramCell?, Mapper.write, Mbc3.write, Mbc3.writeClock]
    · rfl
  · rfl

/-- The RAM cell that a write to an address reaches. -/
def cell? (c : Cartridge) (addr : UInt16) : Option Nat :=
  if 0xA000 ≤ addr.toNat ∧ addr.toNat ≤ 0xBFFF then c.mapper.ramCell? c.ram.size addr else none

/-- A write stores its value in the cell that it reaches, and in no other. -/
theorem ram_write (c : Cartridge) (addr : UInt16) (v : UInt8) :
    (c.write addr v).ram = ((c.cell? addr).elim c fun cell => c.setRamByte cell v).ram := by
  obtain ⟨-, -, -, -, hwindow⟩ := CartridgeArea.of_eq_iff addr
  unfold write cell?
  split
  · next harea =>
    rw [if_pos (hwindow.mp harea)]
    cases c.mapper.ramCell? c.ram.size addr <;> rfl
  · next harea =>
    rw [if_neg fun hin => harea (hwindow.mpr hin)]
    rfl

theorem ramByte_setRamByte (c : Cartridge) (cell i : Nat) (v : UInt8) (hi : i < c.ram.size) :
    (c.setRamByte cell v).ramByte i = if cell = i then v else c.ramByte i := by
  unfold setRamByte
  split
  · next hcell =>
    have hsize : (c.ram.set cell v hcell).size = c.ram.size := Array.size_set _
    unfold ramByte
    dsimp only
    have hi' : i < (c.ram.set cell v hcell).size := Nat.lt_of_lt_of_eq hi hsize.symm
    rw [dif_pos hi', dif_pos hi]
    exact Array.getElem_set hcell hi'
  · next hcell =>
    rw [if_neg (by omega)]

theorem ramByte_eq_of_ram {c d : Cartridge} (h : c.ram = d.ram) (i : Nat) :
    c.ramByte i = d.ramByte i := by
  obtain ⟨rom, ram, mapper⟩ := c
  obtain ⟨rom', ram', mapper'⟩ := d
  obtain rfl : ram = ram' := h
  rfl

/-- The value that an operation stores in a cell of the RAM. -/
def stored? (c : Cartridge) (cell : Nat) : Operation → Option UInt8
  | .write addr v => if c.cell? addr = some cell then some v else none
  | .step _ => none

theorem ramByte_apply {c : Cartridge} {cell : Nat} (h : cell < c.ram.size) (op : Operation) :
    (c.apply op).ramByte cell = (c.stored? cell op).getD (c.ramByte cell) := by
  cases op with
  | step cycles =>
    rw [apply, step_eq_mapClock]
    rfl
  | write addr v =>
    rw [apply, ramByte_eq_of_ram (ram_write c addr v), stored?]
    cases c.cell? addr with
    | none => rfl
    | some other =>
      simp only [Option.elim_some, Option.some.injEq]
      rw [ramByte_setRamByte c other cell v h]
      split <;> rfl

theorem SameBoard.refl (c : Cartridge) : SameBoard c c := ⟨rfl, rfl, rfl⟩

theorem sameBoard_apply (c : Cartridge) (op : Operation) : SameBoard c (c.apply op) := by
  cases op with
  | write addr v => exact sameBoard_write c addr v
  | step cycles => exact sameBoard_step c cycles

theorem sameBoard_after (c : Cartridge) (log : Log) : SameBoard c (c.after log) := by
  induction log with
  | nil => exact .refl c
  | cons op before ih => exact ih.trans (sameBoard_apply _ op)

/-- Each cell of the RAM holds the newest value that was stored in it. -/
theorem ramByte_after {c : Cartridge} {cell : Nat} (h : cell < c.ram.size) (log : Log) :
    (c.after log).ramByte cell =
      (newest (fun op before => (c.after before).stored? cell op) log).getD (c.ramByte cell) := by
  induction log with
  | nil => rfl
  | cons op before ih =>
    have hbefore : cell < (c.after before).ram.size := by
      rw [(sameBoard_after c before).size_ram]
      exact h
    rw [after, ramByte_apply hbefore, ih, newest, Option.getD_or]

theorem rom_after_ofRom (rom : ByteArray) (mode : ClockMode) (host : HostClock) (log : Log) :
    ((ofRom rom mode host).after log).rom = rom := by
  rw [(sameBoard_after _ log).rom]
  rfl

/-- The RAM is zero at power-on. -/
theorem ramByte_ofRom {rom : ByteArray} {mode : ClockMode} {host : HostClock} {cell : Nat}
    (h : cell < (ofRom rom mode host).ram.size) : (ofRom rom mode host).ramByte cell = 0 := by
  rw [ramByte, dif_pos h]
  exact Array.getElem_replicate _

/-- A cell in which nothing has been stored since power-on holds a zero. -/
theorem ramByte_after_ofRom {rom : ByteArray} {mode : ClockMode} {host : HostClock} {cell : Nat}
    (h : cell < (ofRom rom mode host).ram.size) (log : Log) :
    ((ofRom rom mode host).after log).ramByte cell =
      (newest (fun op before => ((ofRom rom mode host).after before).stored? cell op) log).getD 0 := by
  rw [ramByte_after h, ramByte_ofRom h]

/-- A property of controllers and logs that every operation keeps. -/
theorem mapper_after {P : Log → Mapper → Prop} {c : Cartridge} (hstart : P [] c.mapper)
    (hwrite : ∀ log m addr v, P log m → P (.write addr v :: log) (m.write addr v))
    (hstep : ∀ log m cycles, P log m → P (.step cycles :: log) (m.mapClock (·.step cycles)))
    (log : Log) : P log (c.after log).mapper := by
  induction log with
  | nil => exact hstart
  | cons op before ih =>
    cases op with
    | write addr v =>
      rw [after, apply, mapper_write]
      exact hwrite before _ addr v ih
    | step cycles =>
      rw [after, apply, step_eq_mapClock]
      exact hstep before _ cycles ih

theorem romByte?_getD (rom : ByteArray) (i : Nat) : (romByte? rom i).getD 0xFF = imageByte rom i := by
  unfold romByte? imageByte
  rw [Array.getD_eq_getD_getElem?]
  by_cases h : i < rom.size
  · have hin : i < rom.data.size := h
    rw [dif_pos h, Array.getElem?_eq_getElem hin]
    rfl
  · have hpast : rom.data.size ≤ i := Nat.le_of_not_lt h
    rw [dif_neg h, Array.getElem?_eq_none hpast]

theorem romBanks_eq (c : Cartridge) : c.romBanks = bankCount c.rom := by
  rw [bankCount, Nat.ceilDiv_eq_add_pred_div]
  rfl

theorem toNat_ofNat_of_lt {n : Nat} (h : n < 0x10000) : (UInt16.ofNat n).toNat = n := by
  rw [UInt16.toNat_ofNat']
  omega

theorem ramOffset_window {offset : Nat} (h : offset < 0x2000) :
    ramOffset (UInt16.ofNat (0xA000 + offset)) = offset := by
  have haddr : (UInt16.ofNat (0xA000 + offset)).toNat = 0xA000 + offset :=
    toNat_ofNat_of_lt (by omega)
  rw [ramOffset, haddr, ramBankSize]
  omega

theorem read_fixedBank (c : Cartridge) {offset : Nat} (h : offset < 0x4000) :
    c.read (UInt16.ofNat offset) = imageByte c.rom offset := by
  have haddr : (UInt16.ofNat offset).toNat = offset := toNat_ofNat_of_lt (by omega)
  have hlow : UInt16.ofNat offset < 0x4000 := by
    rw [UInt16.lt_iff_toNat_lt, haddr]
    exact h
  rw [read, if_pos hlow, haddr, romByte?_getD]

theorem read_mappedBank (c : Cartridge) {offset : Nat} (h : offset < 0x4000) :
    c.read (UInt16.ofNat (0x4000 + offset)) =
      imageByte c.rom (c.romBank.toNat % bankCount c.rom * 0x4000 + offset) := by
  have haddr : (UInt16.ofNat (0x4000 + offset)).toNat = 0x4000 + offset :=
    toNat_ofNat_of_lt (by omega)
  have hlow : ¬UInt16.ofNat (0x4000 + offset) < 0x4000 := by
    rw [UInt16.lt_iff_toNat_lt, haddr]
    exact Nat.not_lt.mpr (Nat.le_add_right _ _)
  have hhigh : UInt16.ofNat (0x4000 + offset) < 0x8000 := by
    rw [UInt16.lt_iff_toNat_lt, haddr]
    change 0x4000 + offset < 0x8000
    omega
  rw [read, if_neg hlow, if_pos hhigh, haddr, romByte, romByte?_getD, romBanks_eq,
    Nat.add_sub_cancel_left]
  rfl

theorem read_window (c : Cartridge) {offset : Nat} (h : offset < 0x2000) :
    c.read (UInt16.ofNat (0xA000 + offset)) = c.readWindow (UInt16.ofNat (0xA000 + offset)) := by
  have haddr : (UInt16.ofNat (0xA000 + offset)).toNat = 0xA000 + offset :=
    toNat_ofNat_of_lt (by omega)
  have hlow : ¬UInt16.ofNat (0xA000 + offset) < 0x4000 := by
    rw [UInt16.lt_iff_toNat_lt, haddr]
    change ¬0xA000 + offset < 0x4000
    omega
  have hhigh : ¬UInt16.ofNat (0xA000 + offset) < 0x8000 := by
    rw [UInt16.lt_iff_toNat_lt, haddr]
    change ¬0xA000 + offset < 0x8000
    omega
  have hin : 0xA000 ≤ UInt16.ofNat (0xA000 + offset) ∧ UInt16.ofNat (0xA000 + offset) < 0xC000 := by
    rw [UInt16.le_iff_toNat_le, UInt16.lt_iff_toNat_lt, haddr]
    change 0xA000 ≤ 0xA000 + offset ∧ 0xA000 + offset < 0xC000
    omega
  rw [read, if_neg hlow, if_neg hhigh, if_pos hin]

end Cartridge

end Handheld
