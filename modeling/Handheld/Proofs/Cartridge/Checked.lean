import Handheld.Proofs.Cartridge.Log
import Handheld.Proofs.Cartridge.SaveForm

/-!
The operations of a cartridge with nothing taken for granted. Every place in the RAM or in a
block, every divisor, every difference and every sum of a counter of fixed width is checked
here, and an operation has no result where a check fails. On cartridges whose registers and
counters are within their bounds no check fails, and the results are those of the unchecked
operations.
-/
namespace Handheld

/-- A sum in a counter of some bits. -/
def sum? (bits a b : Nat) : Option Nat := if a + b < 2 ^ bits then some (a + b) else none

/-- A difference in a counter without a sign. -/
def difference? (a b : Nat) : Option Nat := if b ≤ a then some (a - b) else none

def remainder? (a b : Nat) : Option Nat := if b = 0 then none else some (a % b)

/-- The bytes from a place up to another. -/
def slice? (bytes : List UInt8) (first last : Nat) : Option (List UInt8) :=
  if first ≤ last ∧ last ≤ bytes.length then some ((bytes.drop first).take (last - first))
  else none

/-- Bytes that are copied to the start of a field of `size` zeros. -/
def padded? (size : Nat) (bytes : List UInt8) : Option (List UInt8) :=
  (difference? size bytes.length).map fun rest => bytes ++ List.replicate rest 0

theorem sum?_eq_some {bits a b : Nat} (h : a + b < 2 ^ bits) : sum? bits a b = some (a + b) :=
  if_pos h

theorem difference?_eq_some {a b : Nat} (h : b ≤ a) : difference? a b = some (a - b) := if_pos h

theorem remainder?_eq_some {a b : Nat} (h : b ≠ 0) : remainder? a b = some (a % b) := if_neg h

theorem slice?_eq_some {bytes : List UInt8} {first last : Nat} (hfirst : first ≤ last)
    (hlast : last ≤ bytes.length) :
    slice? bytes first last = some ((bytes.drop first).take (last - first)) :=
  if_pos ⟨hfirst, hlast⟩

/-- A slice up to the end is the rest of the bytes. -/
theorem slice?_length {bytes : List UInt8} {first : Nat} (h : first ≤ bytes.length) :
    slice? bytes first bytes.length = some (bytes.drop first) := by
  rw [slice?_eq_some h (Nat.le_refl _), ← List.length_drop, List.take_length]

theorem padded?_eq_some {size : Nat} {bytes : List UInt8} (h : bytes.length ≤ size) :
    padded? size bytes = some (bytes ++ List.replicate (size - bytes.length) 0) := by
  rw [padded?, difference?_eq_some h, Option.map_some]

namespace ClockRegisters

/-- A register counted up by one and cut to its bits. -/
def increment? (v mask : UInt8) : Option UInt8 :=
  (sum? 8 v.toNat 1).map fun next => UInt8.ofNat next &&& mask

def dayTick? (r : ClockRegisters) : Option ClockRegisters :=
  if lastDay ≤ r.days then some { r.setDays 0 with dayHigh := (r.setDays 0).dayHigh ||| carryBit }
  else (sum? 16 r.days 1).map r.setDays

def hourTick? (r : ClockRegisters) : Option ClockRegisters :=
  if r.hours = 23 then { r with hours := 0 }.dayTick?
  else (increment? r.hours ClockField.hours.mask).map fun v => { r with hours := v }

def minuteTick? (r : ClockRegisters) : Option ClockRegisters :=
  if r.minutes = 59 then { r with minutes := 0 }.hourTick?
  else (increment? r.minutes ClockField.minutes.mask).map fun v => { r with minutes := v }

/-- Seconds until the next minute tick. Past its usual range the counter runs to its width. -/
def untilMinute? (r : ClockRegisters) : Option Nat :=
  if r.seconds.toNat ≤ 59 then difference? 60 r.seconds.toNat
  else (difference? 64 r.seconds.toNat).bind fun rest => sum? 64 rest 60

theorem pos_of_untilMinute? {r : ClockRegisters} {n : Nat} (h : r.untilMinute? = some n) :
    0 < n := by
  unfold untilMinute? difference? at h
  split at h
  · split at h
    · cases h
      omega
    · cases h
  · split at h
    · rw [Option.bind_some, sum?] at h
      split at h
      · cases h
        omega
      · cases h
    · cases h

/-- `n` seconds of the clock, a minute at a time. -/
def advance? (r : ClockRegisters) (n : Nat) : Option ClockRegisters :=
  if n = 0 then some r
  else
    match _h : r.untilMinute? with
    | none => none
    | some minute =>
      if n < minute then
        (sum? 64 r.seconds.toNat n).map fun sum => { r with seconds := UInt8.ofNat (sum % 64) }
      else
        match { r with seconds := 0 }.minuteTick? with
        | none => none
        | some next => next.advance? (n - minute)
  termination_by n
  decreasing_by
    have := pos_of_untilMinute? _h
    omega

theorem Masked.le_mask {r : ClockRegisters} (h : r.Masked) (field : ClockField) :
    (r.get field).toNat ≤ field.mask.toNat := by
  rw [← h field, UInt8.toNat_and]
  exact Nat.and_le_right

theorem increment?_eq_some {v mask : UInt8} (h : v.toNat ≤ 63) :
    increment? v mask = some ((v + 1) &&& mask) := by
  have hone : UInt8.ofNat (v.toNat + 1) = v + 1 := by
    rw [UInt8.ofNat_add, UInt8.ofNat_toNat]
    rfl
  rw [increment?, sum?_eq_some (by omega), Option.map_some, hone]

theorem dayTick?_eq_some (r : ClockRegisters) : r.dayTick? = some r.dayTick := by
  unfold dayTick? dayTick
  split
  · rfl
  · next hdays =>
    have hlt : r.days < lastDay := Nat.lt_of_not_le hdays
    unfold lastDay at hlt
    rw [sum?_eq_some (by omega), Option.map_some]

theorem Masked.hourTick?_eq_some {r : ClockRegisters} (h : r.Masked) :
    r.hourTick? = some r.hourTick := by
  have hhours : r.hours.toNat ≤ 63 := Nat.le_trans (h.le_mask .hours) (by decide)
  unfold ClockRegisters.hourTick? ClockRegisters.hourTick
  split
  · exact dayTick?_eq_some _
  · rw [increment?_eq_some hhours, Option.map_some]

theorem Masked.minuteTick?_eq_some {r : ClockRegisters} (h : r.Masked) :
    r.minuteTick? = some r.minuteTick := by
  have hminutes : r.minutes.toNat ≤ 63 := h.le_mask .minutes
  unfold ClockRegisters.minuteTick? ClockRegisters.minuteTick
  split
  · exact (h.set .minutes 0).hourTick?_eq_some
  · rw [increment?_eq_some hminutes, Option.map_some]

theorem Masked.untilMinute?_eq_some {r : ClockRegisters} (h : r.Masked) :
    r.untilMinute? = some r.untilMinute := by
  have hlt := h.seconds_lt
  unfold ClockRegisters.untilMinute? ClockRegisters.untilMinute
  split
  · exact difference?_eq_some (by omega)
  · rw [difference?_eq_some (by omega), Option.bind_some]
    exact sum?_eq_some (by omega)

/-- A counter past its six bits would not do. -/
example : { cleared with seconds := 65 }.untilMinute? = none := by decide

/-- Registers within their bits advance without a failure, by however many seconds. -/
theorem Masked.advance?_eq_some {r : ClockRegisters} (h : r.Masked) (n : Nat) :
    r.advance? n = some (r.advance n) := by
  fun_induction ClockRegisters.advance r n with
  | case1 r hlt => rw [ClockRegisters.advance?, if_pos rfl]
  | case2 r n hlt hn =>
    have hseconds := h.seconds_lt
    have hbound : r.untilMinute ≤ 64 + 60 := by
      unfold untilMinute
      split <;> omega
    rw [ClockRegisters.advance?, if_neg hn]
    split
    · next hnone => rw [h.untilMinute?_eq_some] at hnone; cases hnone
    · next minute hminute =>
      rw [h.untilMinute?_eq_some] at hminute
      obtain rfl := Option.some.inj hminute
      rw [if_pos hlt, sum?_eq_some (by omega), Option.map_some]
  | case3 r n hle ih =>
    have hpos := r.untilMinute_pos
    have hzero : { r with seconds := 0 }.Masked := h.set .seconds 0
    rw [ClockRegisters.advance?, if_neg (by omega)]
    split
    · next hnone => rw [h.untilMinute?_eq_some] at hnone; cases hnone
    · next minute hminute =>
      rw [h.untilMinute?_eq_some] at hminute
      obtain rfl := Option.some.inj hminute
      rw [if_neg hle, hzero.minuteTick?_eq_some]
      exact ih hzero.minuteTick

end ClockRegisters

namespace Clock

def advance? (k : Clock) (seconds : Nat) : Option Clock :=
  (k.live.advance? seconds).map fun live => { k with live := live }

/-- The counters of cycles have 32 bits. -/
def count? (k : Clock) (cycles : Nat) : Option Clock :=
  if k.live.halted then some k
  else (sum? 32 k.subsecond cycles).map fun sum => { k with subsecond := sum }

def settle? (k : Clock) : Option Clock :=
  { k with subsecond := k.subsecond % cyclesPerSecond }.advance? (k.subsecond / cyclesPerSecond)

def synchronize? (k : Clock) : Option Clock :=
  let now := k.host.now
  let polled := { k with host := k.host.polled, timestamp := now }
  if k.live.halted then some polled else polled.advance? (now.toNat - k.timestamp.toNat)

def step? (k : Clock) (cycles : Nat) : Option Clock :=
  (sum? 32 k.sinceCheck cycles).bind fun sum =>
    let due := checkPeriod k.mode ≤ sum
    let k := { k with sinceCheck := if due then 0 else sum }
    match k.mode with
    | .emulated => (k.count? cycles).bind fun k => if due then k.settle? else some k
    | .wall => if due then k.synchronize? else some k

/-- Each set of registers is cut out of the block, and what follows them is copied to the eight
bytes of a timestamp. -/
def restore? (k : Clock) (block : List UInt8) : Option Clock :=
  (slice? block 0 20).bind fun live =>
    (slice? block 20 40).bind fun latched =>
      (slice? block 40 block.length).bind fun rest =>
        (padded? 8 rest).map fun stamp =>
          { k with
            live := registersAt live 0
            latched := registersAt latched 0
            timestamp := UInt64.ofNat (ofLittleEndian stamp)
            subsecond := 0
            sinceCheck := 0 }

theorem advance?_eq_some {k : Clock} (h : k.live.Masked) (seconds : Nat) :
    k.advance? seconds = some (k.advance seconds) := by
  rw [advance?, h.advance?_eq_some, Option.map_some]
  rfl

theorem count?_eq_some {k : Clock} {cycles : Nat} (h : k.subsecond + cycles < 2 ^ 32) :
    k.count? cycles = some (k.count cycles) := by
  unfold count? count
  split
  · rfl
  · rw [sum?_eq_some h, Option.map_some]

theorem settle?_eq_some {k : Clock} (h : k.live.Masked) : k.settle? = some k.settle :=
  advance?_eq_some (k := { k with subsecond := k.subsecond % cyclesPerSecond }) h _

theorem synchronize?_eq_some {k : Clock} (h : k.live.Masked) :
    k.synchronize? = some k.synchronize := by
  unfold synchronize? synchronize
  dsimp only
  split
  · rfl
  · exact advance?_eq_some (k := { k with host := k.host.polled, timestamp := k.host.now }) h _

theorem checkPeriod_le (mode : ClockMode) : checkPeriod mode ≤ cyclesPerSecond := by
  cases mode <;> decide

/-- A sound clock counts eight cycles at a time without a counter overflowing. -/
theorem Sound.step?_eq_some {k : Clock} (h : k.Sound) {cycles : Nat} (hcycles : cycles ≤ 8) :
    k.step? cycles = some (k.step cycles) := by
  have hsince := h.sinceCheck_lt
  have hsubsecond := h.subsecond_lt
  have hperiod := checkPeriod_le k.mode
  unfold cyclesPerSecond at hsubsecond hperiod
  rw [Clock.step?, sum?_eq_some (by omega), Option.bind_some]
  unfold Clock.step
  dsimp only
  cases k.mode with
  | wall =>
    dsimp only
    split
    · exact synchronize?_eq_some h.live
    · rfl
  | emulated =>
    dsimp only
    rw [count?_eq_some (by dsimp only; omega), Option.bind_some]
    split
    · refine settle?_eq_some ?_
      rw [count_eq]
      exact h.live
    · rfl

/-- The registers of a slice are those at its place in the block. -/
theorem registersAt_slice (block : List UInt8) (start : Nat) :
    registersAt ((block.drop start).take 20) 0 = registersAt block start := by
  unfold registersAt
  congr 1
  funext field
  have hslot : 4 * ClockField.all.idxOf field < 20 := by cases field <;> decide
  rw [Nat.zero_add, List.getD_eq_getElem?_getD, List.getElem?_take_of_lt hslot,
    List.getElem?_drop, ← List.getD_eq_getElem?_getD]

/-- A block from 40 to 48 bytes is restored without a failure. -/
theorem restore?_eq_some (k : Clock) {block : List UInt8} (hlong : 40 ≤ block.length)
    (hshort : block.length ≤ blockLength) : k.restore? block = some (k.restore block) := by
  have hrest : (block.drop 40).length ≤ 8 := by
    rw [List.length_drop]
    unfold blockLength at hshort
    omega
  rw [restore?, slice?_eq_some (Nat.zero_le _) (by omega), Option.bind_some,
    slice?_eq_some (by decide) hlong, Option.bind_some, slice?_length hlong, Option.bind_some,
    padded?_eq_some hrest, Option.map_some, ofLittleEndian_append_zeros,
    registersAt_slice, registersAt_slice]
  rfl

/-- A byte less or a byte more would not do. -/
example (k : Clock) :
    k.restore? (List.replicate 39 0) = none ∧ k.restore? (List.replicate 49 0) = none :=
  ⟨rfl, rfl⟩

end Clock

namespace Header

/-- A shift of a word of some bits, by fewer bits than the word has. -/
def shift? (bits a n : Nat) : Option Nat := if n < bits then some ((a <<< n) % 2 ^ bits) else none

/-- The title field is cut at its first zero byte. -/
def parseTitle? (rom : ByteArray) : Option String :=
  let field := (rom.extract titleStart titleEnd).data.toList
  let text? :=
    match field.findIdx? (· == 0) with
    | some first => slice? field 0 first
    | none => some field
  text?.map fun text => String.ofList (Text.trim (Text.decodeLossy text))

def parse? (rom : ByteArray) : Option Header :=
  let romCode := (romByte? rom 0x148).getD 0
  let romSize? := if romCode ≤ 0x08 then shift? 64 0x8000 romCode.toNat else some rom.size
  (parseTitle? rom).bind fun title =>
    romSize?.map fun romSize => { parse rom with title := title, romSize := romSize }

/-- What stands before the first zero byte can be cut off. -/
theorem slice?_takeWhile (field : List UInt8) :
    (match field.findIdx? (· == 0) with
      | some first => slice? field 0 first
      | none => some field) = some (field.takeWhile (· != 0)) := by
  have htake : field.takeWhile (· != 0) = field.take (field.findIdx (· == 0)) := by
    rw [List.takeWhile_eq_take_findIdx_not]
    congr 2
    funext b
    exact Bool.not_not _
  cases hfirst : field.findIdx? (· == 0) with
  | none =>
    rw [List.findIdx?_eq_none_iff_findIdx_eq] at hfirst
    rw [htake, hfirst, List.take_length]
  | some first =>
    obtain ⟨hlt, rfl⟩ := List.findIdx?_eq_some_iff_findIdx_eq.mp hfirst
    rw [htake]
    exact slice?_eq_some (Nat.zero_le _) (Nat.le_of_lt hlt)

theorem parseTitle?_eq_some (rom : ByteArray) : parseTitle? rom = some (parseTitle rom) := by
  rw [parseTitle?, slice?_takeWhile, Option.map_some, parseTitle]

/-- Every sequence of bytes has a header. -/
theorem parse?_eq_some (rom : ByteArray) : parse? rom = some (parse rom) := by
  have hshift : ∀ code : Fin 9, shift? 64 0x8000 code = some (0x8000 <<< code.val) := by decide
  rw [parse?, parseTitle?_eq_some, Option.bind_some]
  unfold parse
  dsimp only
  split
  · next hcode =>
    have hlt : ((romByte? rom 0x148).getD 0).toNat < 9 := Nat.lt_succ_of_le hcode
    rw [hshift ⟨_, hlt⟩, Option.map_some]
  · rw [Option.map_some]

end Header

namespace Cartridge

def ofRom? (rom : ByteArray) (mode : ClockMode) (host : HostClock) : Option Cartridge :=
  (Header.parse? rom).map fun header =>
    let (mapper, ramSize) :=
      match header.kind with
      | .fixed => (Mapper.fixed, 0)
      | .mbc1 => (.mbc1 .powerOn, min header.ramSize ramBankSize)
      | .mbc3 =>
        let clock := if header.timer then some (Clock.start mode host) else none
        (.mbc3 (.powerOn clock), 4 * ramBankSize)
    { rom := rom, ram := ⟨Array.replicate ramSize 0⟩, mapper := mapper }

/-- The number of banks divides what it is taken from, so there must be one. -/
def romByte? (c : Cartridge) (bank offset : Nat) : Option UInt8 :=
  (remainder? bank c.romBanks).map fun shown =>
    (Handheld.romByte? c.rom (shown * romBankSize + offset)).getD 0xFF

def ramByte? (c : Cartridge) (cell : Nat) : Option UInt8 :=
  if h : cell < c.ram.size then some (c.ram.get cell h) else none

def setRamByte? (c : Cartridge) (cell : Nat) (v : UInt8) : Option Cartridge :=
  if h : cell < c.ram.size then some { c with ram := c.ram.set cell v h } else none

def readWindow? (c : Cartridge) (addr : UInt16) : Option UInt8 :=
  (difference? addr.toNat 0xA000).bind fun offset =>
    match c.mapper with
    | .fixed => some 0xFF
    | .mbc1 m =>
      if m.ramEnabled ∧ c.ram.size ≠ 0 then (remainder? offset c.ram.size).bind c.ramByte?
      else some 0xFF
    | .mbc3 m =>
      match m.ramEnabled, m.selection with
      | false, _ => some 0
      | true, .ram bank => c.ramByte? (bank.val * ramBankSize + offset)
      | true, .clock field => some (m.clock.elim 0xFF (·.read field))

def read? (c : Cartridge) (addr : UInt16) : Option UInt8 :=
  if addr < 0x4000 then some ((Handheld.romByte? c.rom addr.toNat).getD 0xFF)
  else if addr < 0x8000 then
    (difference? addr.toNat 0x4000).bind fun offset => c.romByte? c.romBank.toNat offset
  else if 0xA000 ≤ addr ∧ addr < 0xC000 then c.readWindow? addr
  else some 0xFF

def writeWindow? (c : Cartridge) (addr : UInt16) (v : UInt8) : Option Cartridge :=
  match c.mapper with
  | .fixed => some c
  | .mbc1 m =>
    if m.ramEnabled ∧ c.ram.size ≠ 0 then
      (difference? addr.toNat 0xA000).bind fun offset =>
        (remainder? offset c.ram.size).bind fun cell => c.setRamByte? cell v
    else some c
  | .mbc3 m =>
    match m.ramEnabled, m.selection with
    | false, _ => some c
    | true, .ram bank =>
      (difference? (bank.val * ramBankSize + addr.toNat) 0xA000).bind fun cell =>
        c.setRamByte? cell v
    | true, .clock field => some (c.mapClock (·.write field v))

/-- Outside the window a write sets registers of the controller, which takes no place, sum or
difference. -/
def write? (c : Cartridge) (addr : UInt16) (v : UInt8) : Option Cartridge :=
  match CartridgeArea.of addr with
  | .ram => c.writeWindow? addr v
  | _ => some { c with mapper := c.mapper.write addr v }

/-- An operation that may fail, on the clock of the cartridge if there is one. -/
def mapClock? (c : Cartridge) (f : Clock → Option Clock) : Option Cartridge :=
  match c.clock? with
  | some k => (f k).map fun next => c.mapClock fun _ => next
  | none => some c

def step? (c : Cartridge) (cycles : Nat) : Option Cartridge := c.mapClock? (·.step? cycles)

/-- A save cut in two at a place. -/
def split? (data : ByteArray) (place : Nat) : Option (ByteArray × List UInt8) :=
  if place ≤ data.size then
    some (data.extract 0 place, (data.extract place data.size).data.toList)
  else none

/-- A field that is overwritten with as many bytes. -/
def overwrite? (field bytes : ByteArray) : Option ByteArray :=
  if field.size = bytes.size then some bytes else none

/-- The result in `some` is the answer to the save, which may be that it does not fit. -/
def load? (c : Cartridge) (data : ByteArray) : Option (Except SaveError Cartridge) :=
  let expected := c.ram.size
  if data.size < expected then some (.error (.tooShort data.size expected))
  else
    (split? data expected).bind fun (ram, trailer) =>
      if trailer.length ∈ c.blockLengths then
        (overwrite? c.ram ram).bind fun ram =>
          ({ c with ram := ram }.mapClock? (·.restore? trailer)).map .ok
      else some (.error (.badClockBlock trailer.length))

/-- Behind the third controller are four banks of RAM. -/
def Backed (c : Cartridge) : Prop := ∀ m, c.mapper = .mbc3 m → c.ram.size = 4 * ramBankSize

theorem ofRom?_eq_some (rom : ByteArray) (mode : ClockMode) (host : HostClock) :
    ofRom? rom mode host = some (ofRom rom mode host) := by
  rw [ofRom?, Header.parse?_eq_some, Option.map_some]
  rfl

theorem romByte?_eq_some (c : Cartridge) (bank offset : Nat) :
    c.romByte? bank offset = some (c.romByte bank offset) := by
  have hbanks : c.romBanks ≠ 0 := by
    unfold romBanks
    omega
  rw [romByte?, remainder?_eq_some hbanks, Option.map_some, romByte]

variable {c : Cartridge}

theorem ramByte?_eq_some {cell : Nat} (h : cell < c.ram.size) :
    c.ramByte? cell = some (c.ramByte cell) := by
  rw [ramByte?, ramByte, dif_pos h, dif_pos h]

theorem setRamByte?_eq_some {cell : Nat} (h : cell < c.ram.size) (v : UInt8) :
    c.setRamByte? cell v = some (c.setRamByte cell v) := by
  rw [setRamByte?, setRamByte, dif_pos h, dif_pos h]

theorem ramOffset_eq {addr : UInt16} (hlow : 0xA000 ≤ addr.toNat) (hhigh : addr.toNat ≤ 0xBFFF) :
    ramOffset addr = addr.toNat - 0xA000 := by
  unfold ramOffset ramBankSize
  omega

theorem ramOffset_lt (addr : UInt16) : ramOffset addr < ramBankSize := Nat.mod_lt _ (by decide)

/-- A place in any bank is a place in four of them. -/
theorem bank_cell_lt (bank : Fin 4) (addr : UInt16) :
    bank.val * ramBankSize + ramOffset addr < 4 * ramBankSize := by
  have hoffset := ramOffset_lt addr
  have hbank : bank.val ≤ 3 := by omega
  unfold ramBankSize at hoffset ⊢
  omega

theorem readWindow?_eq_some (h : c.Backed) {addr : UInt16} (hlow : 0xA000 ≤ addr.toNat)
    (hhigh : addr.toNat ≤ 0xBFFF) : c.readWindow? addr = some (c.readWindow addr) := by
  have hoffset := ramOffset_eq hlow hhigh
  rw [readWindow?, difference?_eq_some hlow, Option.bind_some, ← hoffset, readWindow]
  cases hmapper : c.mapper with
  | fixed => rfl
  | mbc1 m =>
    dsimp only [Mapper.ramCell?]
    split
    · next hserved =>
      rw [remainder?_eq_some hserved.2, Option.bind_some]
      exact ramByte?_eq_some (Nat.mod_lt _ (Nat.pos_of_ne_zero hserved.2))
    · rfl
  | mbc3 m =>
    have hsize := h m hmapper
    obtain ⟨romBank, ramEnabled, selection, latchArmed, clock⟩ := m
    cases ramEnabled with
    | false => rfl
    | true =>
      cases selection with
      | ram bank =>
        refine ramByte?_eq_some ?_
        rw [hsize]
        exact bank_cell_lt bank addr
      | clock field => cases clock <;> rfl

theorem read?_eq_some (h : c.Backed) (addr : UInt16) : c.read? addr = some (c.read addr) := by
  unfold read? read
  split
  · rfl
  · next hfixed =>
    have hmapped : 0x4000 ≤ addr.toNat := Nat.le_of_not_lt hfixed
    split
    · rw [difference?_eq_some hmapped, Option.bind_some, romByte?_eq_some]
    · split
      · next hwindow =>
        have hhigh : addr.toNat < 0xC000 := hwindow.2
        exact readWindow?_eq_some h hwindow.1 (by omega)
      · rfl

/-- What a write in the window does: it reaches a cell of the RAM, a register of the clock or
nothing. -/
def writtenInWindow (c : Cartridge) (addr : UInt16) (v : UInt8) : Cartridge :=
  match c.mapper.ramCell? c.ram.size addr with
  | some cell => c.setRamByte cell v
  | none => { c with mapper := c.mapper.write addr v }

section Window

variable {rom ram : ByteArray} {addr : UInt16} (hlow : 0xA000 ≤ addr.toNat)
  (hhigh : addr.toNat ≤ 0xBFFF) (harea : CartridgeArea.of addr = .ram) (v : UInt8)

include hlow hhigh harea

theorem writeWindow?_mbc1 (m : Mbc1) :
    (⟨rom, ram, .mbc1 m⟩ : Cartridge).writeWindow? addr v =
      some ((⟨rom, ram, .mbc1 m⟩ : Cartridge).writtenInWindow addr v) := by
  rw [writeWindow?, writtenInWindow]
  dsimp only [Mapper.ramCell?]
  split
  · next hserved =>
    rw [difference?_eq_some hlow, Option.bind_some, ← ramOffset_eq hlow hhigh,
      remainder?_eq_some hserved.2, Option.bind_some]
    exact setRamByte?_eq_some (Nat.mod_lt _ (Nat.pos_of_ne_zero hserved.2)) v
  · simp only [Mapper.write, Mbc1.write, harea]

theorem writeWindow?_mbc3 (m : Mbc3) (hsize : ram.size = 4 * ramBankSize) :
    (⟨rom, ram, .mbc3 m⟩ : Cartridge).writeWindow? addr v =
      some ((⟨rom, ram, .mbc3 m⟩ : Cartridge).writtenInWindow addr v) := by
  have hoffset := ramOffset_eq hlow hhigh
  rw [writeWindow?, writtenInWindow]
  obtain ⟨romBank, ramEnabled, selection, latchArmed, clock⟩ := m
  cases ramEnabled with
  | false => simp only [Mapper.ramCell?, Mapper.write, Mbc3.write, Mbc3.writeClock, harea]
  | true =>
    cases selection with
    | ram bank =>
      have hcell : bank.val * ramBankSize + addr.toNat - 0xA000 =
          bank.val * ramBankSize + ramOffset addr := by omega
      dsimp only [Mapper.ramCell?]
      rw [difference?_eq_some (by omega), Option.bind_some, hcell]
      refine setRamByte?_eq_some ?_ v
      rw [hsize]
      exact bank_cell_lt bank addr
    | clock field =>
      simp only [Mapper.ramCell?, Mapper.write, Mbc3.write, Mbc3.writeClock, harea, mapClock,
        Mapper.mapClock]

theorem writeWindow?_eq_some (h : c.Backed) :
    c.writeWindow? addr v = some (c.writtenInWindow addr v) := by
  obtain ⟨rom, ram, mapper⟩ := c
  cases mapper with
  | fixed => rfl
  | mbc1 m => exact writeWindow?_mbc1 hlow hhigh harea v m
  | mbc3 m => exact writeWindow?_mbc3 hlow hhigh harea v m (h m rfl)

end Window

theorem write?_eq_some (h : c.Backed) (addr : UInt16) (v : UInt8) :
    c.write? addr v = some (c.write addr v) := by
  obtain ⟨-, -, -, -, hwindow⟩ := CartridgeArea.of_eq_iff addr
  unfold write? write
  cases harea : CartridgeArea.of addr with
  | ram =>
    obtain ⟨hlow, hhigh⟩ := hwindow.mp harea
    exact writeWindow?_eq_some hlow hhigh harea v h
  | _ => rfl

theorem mapClock_congr {f g : Clock → Clock} (h : ∀ k, c.clock? = some k → f k = g k) :
    c.mapClock f = c.mapClock g := by
  obtain ⟨rom, ram, mapper⟩ := c
  cases mapper with
  | fixed => rfl
  | mbc1 m => rfl
  | mbc3 m =>
    obtain ⟨romBank, ramEnabled, selection, latchArmed, clock⟩ := m
    cases clock with
    | none => rfl
    | some k => simp only [mapClock, Mapper.mapClock, Option.map_some, h k rfl]

theorem mapClock_of_no_clock (h : c.clock? = none) (f : Clock → Clock) : c.mapClock f = c := by
  obtain ⟨rom, ram, mapper⟩ := c
  cases mapper with
  | fixed => rfl
  | mbc1 m => rfl
  | mbc3 m =>
    obtain ⟨romBank, ramEnabled, selection, latchArmed, clock⟩ := m
    cases clock with
    | none => rfl
    | some k => cases h

theorem mapClock?_eq_some {f? : Clock → Option Clock} {f : Clock → Clock}
    (h : ∀ k, c.clock? = some k → f? k = some (f k)) : c.mapClock? f? = some (c.mapClock f) := by
  unfold mapClock?
  split
  · next k hk =>
    rw [h k hk, Option.map_some]
    refine congrArg some (mapClock_congr fun k' hk' => ?_)
    rw [Option.some.inj (hk.symm.trans hk')]
  · next hk => rw [mapClock_of_no_clock hk]

theorem step?_eq_some (h : ∀ k, c.clock? = some k → k.Sound) {cycles : Nat} (hcycles : cycles ≤ 8) :
    c.step? cycles = some (c.step cycles) := by
  rw [step_eq_mapClock]
  exact mapClock?_eq_some fun k hk => (h k hk).step?_eq_some hcycles

/-- A save is taken or refused without a failure. -/
theorem load?_eq_some (c : Cartridge) (data : ByteArray) : c.load? data = some (c.load data) := by
  unfold load? load
  dsimp only
  split
  · rfl
  · next hlong =>
    have hle : c.ram.size ≤ data.size := Nat.le_of_not_lt hlong
    rw [split?, if_pos hle, Option.bind_some]
    dsimp only
    rw [length_block_eq]
    split
    · next hblock =>
      rw [overwrite?, if_pos (size_ram_extract hle).symm, Option.bind_some, mapClock?_eq_some,
        Option.map_some]
      intro k hk
      obtain ⟨hlong, hshort⟩ := length_block hblock (Option.isSome_of_eq_some hk)
      exact k.restore?_eq_some hlong hshort
    · rfl

end Cartridge

end Handheld
