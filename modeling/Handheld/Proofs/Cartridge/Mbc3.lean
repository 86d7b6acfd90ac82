import Handheld.Proofs.Cartridge.Mbc1

/-!
The third bank controller after a log of writes. It has one register for the bank, one that
enables the RAM and one that selects what the window shows, which keeps its selection where a
value selects nothing. The four banks of the RAM do not overlap.
-/
namespace Handheld

/-- The value that selects a register of the clock. -/
def ClockField.number (field : ClockField) : Nat := 8 + all.idxOf field

/-- The value that makes a selection. -/
def Selection.number : Selection → Nat
  | ram bank => bank.val
  | clock field => field.number

theorem Selection.number_inj {s t : Selection} (h : s.number = t.number) : s = t := by
  have hclock (field : ClockField) (bank : Fin 4) : field.number ≠ bank.val := by
    unfold ClockField.number
    omega
  cases s with
  | ram bank =>
    cases t with
    | ram bank' => rw [Fin.ext h]
    | clock field => exact absurd h.symm (hclock field bank)
  | clock field =>
    cases t with
    | ram bank => exact absurd h (hclock field bank)
    | clock field' =>
      revert h
      cases field <;> cases field' <;> decide

namespace Mbc3

open Cartridge

/-- The bank that a log maps, one to begin with. Zero counts as one. -/
def mappedBank (log : Log) : Nat :=
  (lastWritten 0x2000 0x3FFF log).elim 1 fun v => max 1 (v.toNat % 128)

/-- The values that select something. Those of the clock registers do so only where there is a
clock. -/
def accepts (timer : Bool) (v : UInt8) : Bool :=
  decide (v.toNat ≤ 3) || (timer && decide (8 ≤ v.toNat ∧ v.toNat ≤ 12))

/-- The last accepted selection, the first RAM bank to begin with. -/
def selected (timer : Bool) (log : Log) : Nat :=
  (newest (fun op _ =>
    (op.writtenTo fun a => 0x4000 ≤ a ∧ a ≤ 0x5FFF).filter (accepts timer)) log).elim 0 UInt8.toNat

/-- The value in a RAM bank at an offset: the last one that was written there while the RAM was
enabled and the bank selected. -/
def stored (timer : Bool) (bank offset : Nat) (log : Log) : UInt8 :=
  (newest (fun op before =>
    if enabled before = true ∧ selected timer before = bank then
      op.writtenTo fun a => a = 0xA000 + offset
    else none) log).getD 0

/-- The registers of the controller are those that a log tells. -/
structure Records (timer : Bool) (log : Log) (m : Mbc3) : Prop where
  romBank : m.romBank.toNat = mappedBank log
  ramEnabled : m.ramEnabled = enabled log
  selection : m.selection.number = selected timer log
  latchArmed : m.latchArmed = (lastWritten 0x6000 0x7FFF log == some 0)
  clock : m.clock.isSome = timer

theorem records_powerOn (clock : Option Clock) : Records clock.isSome [] (powerOn clock) :=
  ⟨rfl, rfl, rfl, rfl, rfl⟩

/-- A value is accepted if it is the number of a selection, and then it makes that one. -/
theorem selection?_eq (timer : Bool) (v : UInt8) :
    (selection? timer v).map Selection.number =
      if accepts timer v = true then some v.toNat else none := by
  revert v
  cases timer <;> exact forall_byte (by decide +kernel)

theorem number_selection_getD (timer : Bool) (v : UInt8) (s : Selection) :
    ((selection? timer v).getD s).number = if accepts timer v = true then v.toNat else s.number := by
  have hv := selection?_eq timer v
  cases hselection : selection? timer v with
  | none =>
    rw [hselection, Option.map_none] at hv
    split at hv
    · cases hv
    · next hrejected => rw [if_neg hrejected, Option.getD_none]
  | some t =>
    rw [hselection, Option.map_some] at hv
    split at hv
    · next haccepted => rw [if_pos haccepted, Option.getD_some, Option.some.inj hv]
    · cases hv

theorem mappedBank_write (addr : UInt16) (v : UInt8) (log : Log) :
    mappedBank (.write addr v :: log) =
      if 0x2000 ≤ addr.toNat ∧ addr.toNat ≤ 0x3FFF then max 1 (v.toNat % 128)
      else mappedBank log := by
  rw [mappedBank, lastWritten_write]
  split <;> rfl

theorem selected_write (timer : Bool) (addr : UInt16) (v : UInt8) (log : Log) :
    selected timer (.write addr v :: log) =
      if 0x4000 ≤ addr.toNat ∧ addr.toNat ≤ 0x5FFF then
        if accepts timer v = true then v.toNat else selected timer log
      else selected timer log := by
  rw [selected, newest, Operation.writtenTo]
  split
  · rw [Option.filter_some]
    split <;> rfl
  · rfl

theorem writeClock_eq (m : Mbc3) (v : UInt8) :
    m.writeClock v = { m with clock := (m.writeClock v).clock } := by
  unfold writeClock
  split <;> rfl

theorem isSome_writeClock (m : Mbc3) (v : UInt8) :
    (m.writeClock v).clock.isSome = m.clock.isSome := by
  unfold writeClock
  split
  · exact Option.isSome_map
  · rfl

theorem isSome_writeLatch (m : Mbc3) (v : UInt8) :
    (m.writeLatch v).clock.isSome = m.clock.isSome := by
  unfold writeLatch
  dsimp only
  split
  · exact Option.isSome_map
  · rfl

/-- What a write does to the registers, the clock apart. -/
theorem write_eq (m : Mbc3) (addr : UInt16) (v : UInt8) :
    m.write addr v =
      { romBank := if 0x2000 ≤ addr.toNat ∧ addr.toNat ≤ 0x3FFF then nonzeroBank (v &&& 0x7F)
          else m.romBank
        ramEnabled := if addr.toNat ≤ 0x1FFF then enablesRam v else m.ramEnabled
        selection := if 0x4000 ≤ addr.toNat ∧ addr.toNat ≤ 0x5FFF then
            (selection? m.clock.isSome v).getD m.selection
          else m.selection
        latchArmed := if 0x6000 ≤ addr.toNat ∧ addr.toNat ≤ 0x7FFF then v == 0
          else m.latchArmed
        clock := (m.write addr v).clock } := by
  obtain ⟨henable, hbank, hselection, hlatch, -⟩ := CartridgeArea.of_eq_iff addr
  simp only [← henable, ← hbank, ← hselection, ← hlatch]
  unfold Mbc3.write
  cases CartridgeArea.of addr with
  | ram => exact m.writeClock_eq v
  | _ => rfl

theorem isSome_clock_write (m : Mbc3) (addr : UInt16) (v : UInt8) :
    (m.write addr v).clock.isSome = m.clock.isSome := by
  unfold Mbc3.write
  cases CartridgeArea.of addr with
  | latch => exact m.isSome_writeLatch v
  | ram => exact m.isSome_writeClock v
  | _ => rfl

variable {timer : Bool} {log : Log} {m : Mbc3}

theorem Records.write (h : Records timer log m) (addr : UInt16) (v : UInt8) :
    Records timer (.write addr v :: log) (m.write addr v) := by
  have hset : (nonzeroBank (v &&& 0x7F)).toNat = max 1 (v.toNat % 128) := by
    rw [toNat_nonzeroBank, toNat_and_mask v 0x7F 7 rfl]
    rfl
  rw [write_eq]
  refine ⟨?_, ?_, ?_, ?_, ?_⟩
  · dsimp only
    rw [mappedBank_write, ← h.romBank, ← hset]
    split <;> rfl
  · rw [enabled_write, h.ramEnabled]
  · dsimp only
    rw [selected_write, ← h.selection, h.clock, ← number_selection_getD]
    split <;> rfl
  · dsimp only
    rw [lastWritten_write, h.latchArmed]
    split <;> rfl
  · rw [isSome_clock_write, h.clock]

theorem Records.step (h : Records timer log m) (f : Clock → Clock) (cycles : Nat) :
    Records timer (.step cycles :: log) { m with clock := m.clock.map f } where
  romBank := h.romBank
  ramEnabled := h.ramEnabled
  selection := h.selection
  latchArmed := h.latchArmed
  clock := Option.isSome_map.trans h.clock

end Mbc3

namespace Cartridge

open Mbc3

variable {rom : ByteArray} {timer : Bool} {c : Cartridge} {m : Mbc3} {log : Log}

theorem ofRom_of_mbc3 (h : (Header.parse rom).kind = .mbc3) (mode : ClockMode)
    (host : HostClock) :
    ofRom rom mode host =
      ⟨rom, ⟨Array.replicate (4 * 0x2000) 0⟩,
        .mbc3 (powerOn (if (Header.parse rom).timer then some (.start mode host) else none))⟩ := by
  unfold ofRom
  dsimp only
  rw [h]
  rfl

/-- The controller after a log has recorded it. -/
theorem mbc3_after (h : (Header.parse rom).kind = .mbc3) (mode : ClockMode) (host : HostClock)
    (log : Log) :
    ∃ m, ((ofRom rom mode host).after log).mapper = .mbc3 m ∧
      Records (Header.parse rom).timer log m := by
  refine mapper_after
    (P := fun log mapper => ∃ m, mapper = .mbc3 m ∧ Records (Header.parse rom).timer log m)
    ?_ ?_ ?_ log
  · rw [ofRom_of_mbc3 h]
    have hstart := records_powerOn
      (if (Header.parse rom).timer then some (Clock.start mode host) else none)
    refine ⟨_, rfl, ?_⟩
    cases htimer : (Header.parse rom).timer <;> rwa [htimer] at hstart
  · rintro log _ addr v ⟨m, rfl, hm⟩
    exact ⟨m.write addr v, rfl, hm.write addr v⟩
  · rintro log _ cycles ⟨m, rfl, hm⟩
    exact ⟨_, rfl, hm.step _ cycles⟩

theorem size_ram_of_mbc3 (h : (Header.parse rom).kind = .mbc3) (mode : ClockMode)
    (host : HostClock) (log : Log) : ((ofRom rom mode host).after log).ram.size = 4 * 0x2000 := by
  rw [(sameBoard_after _ log).size_ram, ofRom_of_mbc3 h]
  exact Array.size_replicate

/-- A write reaches a cell of a RAM bank if the RAM is enabled, that bank is selected and the
address is that of the cell in the window. -/
theorem cell?_of_mbc3_iff (hmapper : c.mapper = .mbc3 m) (h : Records timer log m)
    (addr : UInt16) {bank offset : Nat} (hbank : bank < 4) (hoffset : offset < 0x2000) :
    c.cell? addr = some (bank * 0x2000 + offset) ↔
      (enabled log = true ∧ selected timer log = bank) ∧ addr.toNat = 0xA000 + offset := by
  rw [cell?, hmapper, Mapper.ramCell?, ← h.ramEnabled, ← h.selection]
  by_cases hin : 0xA000 ≤ addr.toNat ∧ addr.toNat ≤ 0xBFFF
  · rw [if_pos hin]
    cases m.ramEnabled with
    | false => simp
    | true =>
      cases m.selection with
      | ram other =>
        simp only [Selection.number, ramOffset, ramBankSize, Option.some.injEq, true_and]
        omega
      | clock field =>
        simp only [Selection.number, ClockField.number, reduceCtorEq, true_and, false_iff]
        omega
  · rw [if_neg hin]
    simp only [reduceCtorEq, false_iff]
    omega

theorem stored?_of_mbc3 (hmapper : c.mapper = .mbc3 m) (h : Records timer log m)
    {bank offset : Nat} (hbank : bank < 4) (hoffset : offset < 0x2000) (op : Operation) :
    c.stored? (bank * 0x2000 + offset) op =
      if enabled log = true ∧ selected timer log = bank then
        op.writtenTo fun a => a = 0xA000 + offset
      else none := by
  cases op with
  | step cycles => simp [stored?, Operation.writtenTo]
  | write addr v =>
    simp only [stored?, Operation.writtenTo, cell?_of_mbc3_iff hmapper h addr hbank hoffset]
    by_cases hopen : enabled log = true ∧ selected timer log = bank
    · simp [hopen]
    · simp [hopen]

theorem ramByte_of_mbc3 (h : (Header.parse rom).kind = .mbc3) (mode : ClockMode)
    (host : HostClock) {bank offset : Nat} (hbank : bank < 4) (hoffset : offset < 0x2000)
    (log : Log) :
    ((ofRom rom mode host).after log).ramByte (bank * 0x2000 + offset) =
      stored (Header.parse rom).timer bank offset log := by
  have hcell : bank * 0x2000 + offset < (ofRom rom mode host).ram.size := by
    have hsize := size_ram_of_mbc3 h mode host []
    rw [after] at hsize
    omega
  rw [ramByte_after_ofRom hcell, stored]
  congr 2
  funext op before
  obtain ⟨m, hmapper, hm⟩ := mbc3_after h mode host before
  exact stored?_of_mbc3 hmapper hm hbank hoffset op

theorem readWindow_of_disabled (hmapper : c.mapper = .mbc3 m) (h : Records timer log m)
    (hoff : enabled log = false) (addr : UInt16) : c.readWindow addr = 0 := by
  have hdisabled : m.ramEnabled = false := h.ramEnabled.trans hoff
  rw [readWindow, hmapper, Mapper.ramCell?, hdisabled]
  simp [Mapper.windowDefault, hdisabled]

theorem readWindow_of_ram (hmapper : c.mapper = .mbc3 m) (h : Records timer log m)
    (hon : enabled log = true) {bank : Nat} (hbank : bank < 4)
    (hselected : selected timer log = bank) (addr : UInt16) :
    c.readWindow addr = c.ramByte (bank * 0x2000 + ramOffset addr) := by
  have henabled : m.ramEnabled = true := h.ramEnabled.trans hon
  have hselection : m.selection = .ram ⟨bank, hbank⟩ :=
    Selection.number_inj (h.selection.trans hselected)
  rw [readWindow, hmapper, Mapper.ramCell?, henabled, hselection]
  rfl

/-- A write changes the byte of a RAM bank only where it is stored. -/
theorem ramByte_write_of_mbc3 (hmapper : c.mapper = .mbc3 m) (h : Records timer log m)
    (hsize : c.ram.size = 4 * 0x2000) {bank offset : Nat} (hbank : bank < 4)
    (hoffset : offset < 0x2000) (addr : UInt16) (v : UInt8) :
    (c.write addr v).ramByte (bank * 0x2000 + offset) =
      if (enabled log = true ∧ selected timer log = bank) ∧ addr.toNat = 0xA000 + offset then v
      else c.ramByte (bank * 0x2000 + offset) := by
  have hcell : bank * 0x2000 + offset < c.ram.size := by omega
  have hwritten := ramByte_apply hcell (.write addr v)
  rw [apply, stored?] at hwritten
  simp only [cell?_of_mbc3_iff hmapper h addr hbank hoffset] at hwritten
  rw [hwritten]
  split <;> rfl

/-- What a cartridge with the third controller shows after any log. The ROM is that of the image,
and its mapped bank that of the last write to the register, modulo the banks of the image. While
the RAM is disabled the window reads zero, and otherwise, with a RAM bank selected, the value
that was last stored there. A write changes at most the byte of the RAM that it is stored in. -/
theorem mbc3_shows_log (h : (Header.parse rom).kind = .mbc3) (mode : ClockMode)
    (host : HostClock) (log : Log) :
    let c := (ofRom rom mode host).after log
    let timer := (Header.parse rom).timer
    c.rom = rom ∧
      (∀ offset < 0x4000, c.read (.ofNat offset) = imageByte rom offset) ∧
      (∀ offset < 0x4000, c.read (.ofNat (0x4000 + offset)) =
        imageByte rom (mappedBank log % bankCount rom * 0x4000 + offset)) ∧
      (∀ offset < 0x2000, enabled log = false → c.read (.ofNat (0xA000 + offset)) = 0) ∧
      (∀ bank < 4, ∀ offset < 0x2000, enabled log = true → selected timer log = bank →
        c.read (.ofNat (0xA000 + offset)) = stored timer bank offset log) ∧
      c.ram.size = 4 * 0x2000 ∧
      ∀ bank < 4, ∀ offset < 0x2000, ∀ (addr : UInt16) (v : UInt8),
        (c.write addr v).ramByte (bank * 0x2000 + offset) =
          if (enabled log = true ∧ selected timer log = bank) ∧ addr.toNat = 0xA000 + offset then v
          else c.ramByte (bank * 0x2000 + offset) := by
  intro c timer
  obtain ⟨m, hmapper, hm⟩ : ∃ m, c.mapper = .mbc3 m ∧ Records timer log m :=
    mbc3_after h mode host log
  have hbank : c.romBank.toNat = mappedBank log := by
    rw [romBank, hmapper]
    exact hm.romBank
  have hrom : c.rom = rom := rom_after_ofRom rom mode host log
  have hsize : c.ram.size = 4 * 0x2000 := size_ram_of_mbc3 h mode host log
  refine ⟨hrom, ?_, ?_, ?_, ?_, hsize, ?_⟩
  · intro offset hoffset
    rw [read_fixedBank c hoffset, hrom]
  · intro offset hoffset
    rw [read_mappedBank c hoffset, hbank, hrom]
  · intro offset hoffset hoff
    rw [read_window c hoffset]
    exact readWindow_of_disabled hmapper hm hoff _
  · intro bank hlt offset hoffset hon hselected
    rw [read_window c hoffset, readWindow_of_ram hmapper hm hon hlt hselected,
      ramOffset_window hoffset]
    exact ramByte_of_mbc3 h mode host hlt hoffset log
  · intro bank hlt offset hoffset
    exact ramByte_write_of_mbc3 hmapper hm hsize hlt hoffset

/-- A value that selects nothing leaves a RAM bank selected, and one that is written to a clock
register does not reach the RAM. -/
def bankedLog : Log :=
  [.write 0x4000 0x02, .step 70224, .write 0xA000 0x33, .write 0x5FFF 0x08, .write 0xA001 0x22,
    .write 0x4000 0x0D, .write 0xA000 0x11, .write 0x4000 0x02, .write 0x0000 0xFA,
    .write 0x2000 0x80]

theorem mbc3_shows_log_banked :
    let c := (timerCartridge .emulated).after bankedLog
    c.read 0x0147 = 0x10 ∧ c.read 0x4147 = 0x10 ∧ c.read 0x4148 = 0xFF ∧ c.read 0xA000 = 0x11 ∧
      c.read 0xA001 = 0x22 ∧ (c.write 0xA001 0x44).ramByte 0x4001 = 0x44 := by
  obtain ⟨hkind, htimer⟩ := header_timerRom
  obtain ⟨-, hlow, hhigh, -, hwindow, -, hwrite⟩ :=
    mbc3_shows_log hkind .emulated (.fixed 0) bankedLog
  rw [htimer] at hwindow hwrite
  refine ⟨(hlow 0x147 (by decide)).trans ?_, (hhigh 0x147 (by decide)).trans ?_,
    (hhigh 0x148 (by decide)).trans ?_,
    (hwindow 2 (by decide) 0 (by decide) (by decide) (by decide)).trans ?_,
    (hwindow 2 (by decide) 1 (by decide) (by decide) (by decide)).trans ?_,
    (hwrite 2 (by decide) 1 (by decide) 0xA001 0x44).trans (if_pos ?_)⟩
  all_goals decide +kernel

end Cartridge

end Handheld
