import Handheld.Proofs.Cartridge.Reachable
import Mathlib.Algebra.Ring.Nat

/-!
Battery saves and their canonical form. A save that is loaded and made again comes back in
canonical form: each register in a slot of four bytes of which only the lowest can be set, and
then only in bits that the register has, and the timestamp in eight bytes. Saves that a
cartridge makes are canonical, so a fresh cartridge of the same ROM that loads one makes the
same save.
-/
namespace Handheld

theorem littleEndian_succ (value count : Nat) :
    littleEndian value (count + 1) = UInt8.ofNat value :: littleEndian (value / 256) count := by
  have hbyte : value >>> 8 = value / 256 := Nat.shiftRight_eq_div_pow value 8
  rw [littleEndian, List.range_succ_eq_map, List.map_cons, List.map_map, littleEndian,
    Nat.mul_zero, Nat.shiftRight_zero]
  congr 1
  apply List.map_congr_left
  intro i _
  rw [Function.comp_apply, Nat.mul_succ, Nat.add_comm, Nat.shiftRight_add, hbyte]

theorem length_littleEndian (value count : Nat) : (littleEndian value count).length = count := by
  simp [littleEndian]

theorem littleEndian_byte (v : UInt8) : littleEndian v.toNat 4 = [v, 0, 0, 0] := by
  have hlt := v.toNat_lt
  have hzero : v.toNat / 256 = 0 := Nat.div_eq_of_lt hlt
  rw [littleEndian_succ, hzero, UInt8.ofNat_toNat]
  rfl

theorem ofLittleEndian_cons (b : UInt8) (bytes : List UInt8) :
    ofLittleEndian (b :: bytes) = b.toNat + 256 * ofLittleEndian bytes := rfl

theorem ofLittleEndian_lt (bytes : List UInt8) : ofLittleEndian bytes < 256 ^ bytes.length := by
  induction bytes with
  | nil => decide
  | cons b rest ih =>
    have hb := b.toNat_lt
    rw [ofLittleEndian_cons, List.length_cons, Nat.pow_succ]
    omega

theorem ofLittleEndian_zeros (count : Nat) :
    ofLittleEndian (List.replicate count 0) = 0 := by
  induction count with
  | zero => rfl
  | succ count ih =>
    rw [List.replicate_succ, ofLittleEndian_cons, ih]
    rfl

/-- Zeros after the highest byte do not count. -/
theorem ofLittleEndian_append_zeros (bytes : List UInt8) (count : Nat) :
    ofLittleEndian (bytes ++ List.replicate count 0) = ofLittleEndian bytes := by
  induction bytes with
  | nil => exact ofLittleEndian_zeros count
  | cons b rest ih => rw [List.cons_append, ofLittleEndian_cons, ih, ofLittleEndian_cons]

theorem littleEndian_zero (count : Nat) : littleEndian 0 count = List.replicate count 0 := by
  induction count with
  | zero => rfl
  | succ count ih =>
    rw [littleEndian_succ, List.replicate_succ, ← ih]
    rfl

/-- Bytes that are read and written again are padded with zeros. -/
theorem littleEndian_ofLittleEndian (bytes : List UInt8) (count : Nat) :
    littleEndian (ofLittleEndian bytes) (bytes.length + count) =
      bytes ++ List.replicate count 0 := by
  induction bytes with
  | nil =>
    rw [List.length_nil, Nat.zero_add, List.nil_append]
    exact littleEndian_zero count
  | cons b rest ih =>
    have hb := b.toNat_lt
    have hlow : UInt8.ofNat (b.toNat + 256 * ofLittleEndian rest) = b := by
      apply UInt8.toNat_inj.mp
      rw [UInt8.toNat_ofNat']
      omega
    have hhigh : (b.toNat + 256 * ofLittleEndian rest) / 256 = ofLittleEndian rest := by omega
    rw [List.length_cons, Nat.add_right_comm, littleEndian_succ, ofLittleEndian_cons, hlow, hhigh,
      ih, List.cons_append]

theorem ofLittleEndian_littleEndian {value count : Nat} (h : value < 256 ^ count) :
    ofLittleEndian (littleEndian value count) = value := by
  induction count generalizing value with
  | zero =>
    have hzero : value = 0 := by simpa using h
    rw [hzero]
    rfl
  | succ count ih =>
    have hhigh : value / 256 < 256 ^ count := by
      rw [Nat.div_lt_iff_lt_mul (by decide), ← Nat.pow_succ]
      exact h
    rw [littleEndian_succ, ofLittleEndian_cons, ih hhigh, UInt8.toNat_ofNat']
    exact Nat.mod_add_div value 256

namespace ClockRegisters

theorem ext_get {r s : ClockRegisters} (h : ∀ field, r.get field = s.get field) : r = s :=
  ClockRegisters.ext (h .seconds) (h .minutes) (h .hours) (h .dayLow) (h .dayHigh)

/-- Registers within their bits are made of their own values. -/
theorem Masked.ofValue_get {r : ClockRegisters} (h : r.Masked) : ofValue r.get = r :=
  ext_get fun field => (get_ofValue r.get field).trans (h field)

end ClockRegisters

namespace Clock

/-- What a save keeps of a clock. -/
structure Record where
  live : ClockRegisters
  latched : ClockRegisters
  timestamp : UInt64
  deriving DecidableEq

def record (k : Clock) : Record := ⟨k.live, k.latched, k.timestamp⟩

/-- A byte as the lowest of four. -/
def slot (v : UInt8) : List UInt8 := [v, 0, 0, 0]

theorem toBlock_eq (k : Clock) :
    k.toBlock =
      (k.live.toList ++ k.latched.toList).flatMap slot ++ littleEndian k.timestamp.toNat 8 := by
  have hslot : (fun v : UInt8 => littleEndian v.toNat 4) = slot := funext littleEndian_byte
  rw [toBlock, hslot]

/-- A block is made of what a save keeps. -/
theorem toBlock_eq_of_record {k k' : Clock} (h : k'.record = k.record) :
    k'.toBlock = k.toBlock := by
  obtain ⟨hlive, hlatched, htimestamp⟩ := Record.mk.inj h
  rw [toBlock, toBlock, hlive, hlatched, htimestamp]

theorem length_toBlock (k : Clock) : k.toBlock.length = blockLength := by
  rw [toBlock_eq, List.length_append, length_littleEndian]
  rfl

theorem registersAt_toBlock (k : Clock) (hlive : k.live.Masked) (hlatched : k.latched.Masked) :
    registersAt k.toBlock 0 = k.live ∧ registersAt k.toBlock 20 = k.latched := by
  rw [toBlock_eq, registersAt, registersAt]
  constructor
  · refine Eq.trans ?_ hlive.ofValue_get
    congr 1
    funext field
    cases field <;> rfl
  · refine Eq.trans ?_ hlatched.ofValue_get
    congr 1
    funext field
    cases field <;> rfl

theorem drop_toBlock (k : Clock) : k.toBlock.drop 40 = littleEndian k.timestamp.toNat 8 := by
  rw [toBlock_eq]
  rfl

/-- A clock that takes a block of another keeps what the save keeps of that. -/
theorem record_restore_toBlock (k k' : Clock) (hlive : k.live.Masked)
    (hlatched : k.latched.Masked) : (k'.restore k.toBlock).record = k.record := by
  obtain ⟨hfirst, hnext⟩ := registersAt_toBlock k hlive hlatched
  have hstamp : k.timestamp.toNat < 256 ^ 8 := k.timestamp.toNat_lt
  change Record.mk (registersAt k.toBlock 0) (registersAt k.toBlock 20)
    (UInt64.ofNat (ofLittleEndian (k.toBlock.drop 40))) = _
  rw [hfirst, hnext, drop_toBlock, ofLittleEndian_littleEndian hstamp, UInt64.ofNat_toNat]
  rfl

/-- The register that a slot holds: the live ones in order, then the latched ones. -/
def slotField (i : Nat) : ClockField := ClockField.all.getD (i % 5) .seconds

/-- The canonical form of a block. Each slot keeps the bits of its lowest byte that the register
has, and what the timestamp lacks to eight bytes is zero. -/
def canonicalBlock (block : List UInt8) : List UInt8 :=
  (List.range 10).flatMap (fun i => slot (block.getD (4 * i) 0 &&& (slotField i).mask)) ++
    (block.drop 40 ++ List.replicate (blockLength - block.length) 0)

theorem length_canonicalBlock {block : List UInt8} (hlong : 40 ≤ block.length)
    (hshort : block.length ≤ blockLength) : (canonicalBlock block).length = blockLength := by
  rw [canonicalBlock, List.length_append, List.length_append, List.length_drop,
    List.length_replicate]
  change 40 + _ = _
  omega

theorem toList_registersAt (block : List UInt8) :
    (registersAt block 0).toList ++ (registersAt block 20).toList =
      (List.range 10).map fun i => block.getD (4 * i) 0 &&& (slotField i).mask := by
  rfl

/-- A clock that has taken a block makes its canonical form. -/
theorem toBlock_restore (k : Clock) {block : List UInt8} (hlong : 40 ≤ block.length)
    (hshort : block.length ≤ blockLength) : (k.restore block).toBlock = canonicalBlock block := by
  have hbytes : block.length = (block.drop 40).length + 40 := by
    rw [List.length_drop]
    omega
  have hlt : ofLittleEndian (block.drop 40) < 2 ^ 64 := by
    refine Nat.lt_of_lt_of_le (ofLittleEndian_lt _) ?_
    refine Nat.le_trans (Nat.pow_le_pow_right (by decide) (?_ : _ ≤ 8)) (by decide)
    unfold blockLength at hshort
    omega
  have hpad : 8 = (block.drop 40).length + (blockLength - block.length) := by
    unfold blockLength at hshort ⊢
    omega
  have hstamp : (k.restore block).timestamp.toNat = ofLittleEndian (block.drop 40) :=
    UInt64.toNat_ofNat_of_lt' hlt
  have hregisters : ((k.restore block).live.toList ++ (k.restore block).latched.toList) =
      (List.range 10).map fun i => block.getD (4 * i) 0 &&& (slotField i).mask :=
    toList_registersAt block
  rw [toBlock_eq, hstamp, hregisters, List.flatMap_map, canonicalBlock]
  exact congrArg _ ((congrArg (littleEndian _) hpad).trans (littleEndian_ofLittleEndian _ _))

theorem getD_canonicalBlock (block : List UInt8) {i : Nat} (hi : i < 10) :
    (canonicalBlock block).getD (4 * i) 0 = block.getD (4 * i) 0 &&& (slotField i).mask := by
  match i, hi with
  | 0, _ | 1, _ | 2, _ | 3, _ | 4, _ | 5, _ | 6, _ | 7, _ | 8, _ | 9, _ => rfl

theorem drop_canonicalBlock (block : List UInt8) :
    (canonicalBlock block).drop 40 =
      block.drop 40 ++ List.replicate (blockLength - block.length) 0 := rfl

theorem slotField_idxOf (field : ClockField) :
    ClockField.all.idxOf field < 5 ∧ slotField (ClockField.all.idxOf field) = field ∧
      slotField (5 + ClockField.all.idxOf field) = field := by
  cases field <;> decide

theorem registersAt_canonicalBlock (block : List UInt8) {first : Nat}
    (hfirst : first = 0 ∨ first = 5) :
    registersAt (canonicalBlock block) (4 * first) = registersAt block (4 * first) := by
  apply ClockRegisters.ext_get
  intro field
  obtain ⟨hlt, hlive, hlatched⟩ := slotField_idxOf field
  have hslot : slotField (first + ClockField.all.idxOf field) = field := by
    obtain rfl | rfl := hfirst
    · rwa [Nat.zero_add]
    · exact hlatched
  have hin : first + ClockField.all.idxOf field < 10 := by omega
  rw [registersAt, registersAt, ClockRegisters.get_ofValue, ClockRegisters.get_ofValue,
    ← Nat.mul_add, getD_canonicalBlock block hin, hslot, UInt8.and_assoc, UInt8.and_self]

/-- A block whose slots have nothing above their lowest byte, and in that no bit that the register
does not have. -/
structure IsCanonical (block : List UInt8) : Prop where
  length_eq : block.length = blockLength
  masked : ∀ i < 10, block.getD (4 * i) 0 &&& (slotField i).mask = block.getD (4 * i) 0
  zeros : ∀ i < 10, ∀ j ∈ [1, 2, 3], block.getD (4 * i + j) 0 = 0

theorem isCanonical_canonicalBlock {block : List UInt8} (hlong : 40 ≤ block.length)
    (hshort : block.length ≤ blockLength) : IsCanonical (canonicalBlock block) where
  length_eq := length_canonicalBlock hlong hshort
  masked i hi := by
    rw [getD_canonicalBlock block hi, UInt8.and_assoc, UInt8.and_self]
  zeros i hi j hj := by
    simp only [List.mem_cons, List.not_mem_nil, or_false] at hj
    match i, hi with
    | 0, _ | 1, _ | 2, _ | 3, _ | 4, _ | 5, _ | 6, _ | 7, _ | 8, _ | 9, _ =>
      obtain rfl | rfl | rfl := hj <;> rfl

theorem take_four {bytes : List UInt8} (h : 4 ≤ bytes.length) :
    bytes.take 4 = [bytes.getD 0 0, bytes.getD 1 0, bytes.getD 2 0, bytes.getD 3 0] := by
  match bytes, h with
  | _ :: _ :: _ :: _ :: _, _ => rfl

theorem IsCanonical.take_slots {block : List UInt8} (h : IsCanonical block) {count : Nat}
    (hcount : count ≤ 10) :
    block.take (4 * count) =
      (List.range count).flatMap fun i => slot (block.getD (4 * i) 0 &&& (slotField i).mask) := by
  induction count with
  | zero => rfl
  | succ i ih =>
    have hlength := h.length_eq
    unfold blockLength at hlength
    have hnext : (block.drop (4 * i)).take 4 = slot (block.getD (4 * i) 0) := by
      rw [take_four (by rw [List.length_drop]; omega)]
      have hzero : ∀ j ∈ [1, 2, 3], (block.drop (4 * i)).getD j 0 = 0 := by
        intro j hj
        rw [List.getD_eq_getElem?_getD, List.getElem?_drop, ← List.getD_eq_getElem?_getD]
        exact h.zeros i (by omega) j hj
      rw [hzero 1 (by decide), hzero 2 (by decide), hzero 3 (by decide),
        List.getD_eq_getElem?_getD, List.getElem?_drop, ← List.getD_eq_getElem?_getD]
      rfl
    rw [Nat.mul_succ, List.take_add, ih (by omega), hnext, List.range_succ, List.flatMap_append,
      List.flatMap_singleton, h.masked i (by omega)]

theorem canonicalBlock_eq_self_iff {block : List UInt8} (hlong : 40 ≤ block.length)
    (hshort : block.length ≤ blockLength) :
    canonicalBlock block = block ↔ IsCanonical block := by
  constructor
  · intro hself
    rw [← hself]
    exact isCanonical_canonicalBlock hlong hshort
  · intro h
    rw [canonicalBlock, ← h.take_slots (Nat.le_refl 10), h.length_eq, Nat.sub_self,
      List.replicate_zero, List.append_nil, List.take_append_drop]

/-- A clock takes from the canonical form of a block what it takes from the block. -/
theorem restore_canonicalBlock (k : Clock) (block : List UInt8) :
    k.restore (canonicalBlock block) = k.restore block := by
  unfold restore
  rw [registersAt_canonicalBlock block (.inl rfl), registersAt_canonicalBlock block (.inr rfl),
    drop_canonicalBlock, ofLittleEndian_append_zeros]

theorem restore_restore (k : Clock) (first next : List UInt8) :
    (k.restore first).restore next = k.restore next := rfl

end Clock

namespace Cartridge

variable {c d : Cartridge} {data : ByteArray}

theorem save_of_clock {k : Clock} (hk : c.clock? = some k) :
    c.save = c.ram ++ ⟨k.toBlock.toArray⟩ := by
  rw [save, hk]

theorem save_of_no_clock (hk : c.clock? = none) : c.save = c.ram := by
  rw [save, hk]

/-- What a save keeps of a cartridge determines the save. -/
theorem save_eq_of_record (hram : d.ram = c.ram)
    (hrecord : d.clock?.map Clock.record = c.clock?.map Clock.record) : d.save = c.save := by
  cases hc : c.clock? with
  | none =>
    rw [hc, Option.map_none, Option.map_eq_none_iff] at hrecord
    rw [save_of_no_clock hc, save_of_no_clock hrecord, hram]
  | some k =>
    rw [hc, Option.map_some, Option.map_eq_some_iff] at hrecord
    obtain ⟨k', hd, heq⟩ := hrecord
    rw [save_of_clock hc, save_of_clock hd, hram, Clock.toBlock_eq_of_record heq]

theorem mem_blockLengths {n : Nat} :
    n ∈ c.blockLengths ↔
      (c.clock?.isSome ∧ (n = Clock.blockLength ∨ n = Clock.shortBlockLength)) ∨
        (c.clock? = none ∧ n = 0) := by
  cases hc : c.clock? with
  | none => simp [blockLengths, hc]
  | some k => simp [blockLengths, hc]

theorem load_save_of_no_clock (board : SameBoard d c) (hc : c.clock? = none) :
    ∃ d', d.load c.save = .ok d' ∧ d'.ram = c.ram ∧ d'.clock? = none := by
  have hd : d.clock? = none := by
    have hnone := board.isSome_clock?
    rwa [hc, Option.isSome_none, eq_comm, Option.isSome_eq_false_iff,
      Option.isNone_iff_eq_none] at hnone
  have hsize : c.save.size = d.ram.size := by rw [save_of_no_clock hc, board.size_ram]
  refine ⟨d.loaded c.save, load_eq_ok_iff.mpr ⟨Nat.le_of_eq hsize.symm, ?_, rfl⟩, ?_, ?_⟩
  · exact mem_blockLengths.mpr (.inr ⟨hd, by omega⟩)
  · rw [ram_loaded, ← hsize, ByteArray.extract_zero_size, save_of_no_clock hc]
  · rw [clock?_loaded, hd, Option.map_none]

theorem load_save_of_clock (board : SameBoard d c) {k : Clock} (hc : c.clock? = some k)
    (hlive : k.live.Masked) (hlatched : k.latched.Masked) :
    ∃ d' k', d.load c.save = .ok d' ∧ d'.ram = c.ram ∧ d'.clock? = some k' ∧
      k'.record = k.record := by
  obtain ⟨k₀, hd⟩ : ∃ k₀, d.clock? = some k₀ := by
    rw [← Option.isSome_iff_exists, ← board.isSome_clock?, hc, Option.isSome_some]
  have hblock : (⟨k.toBlock.toArray⟩ : ByteArray).size = Clock.blockLength := k.length_toBlock
  have hsize : c.save.size = d.ram.size + Clock.blockLength := by
    rw [save_of_clock hc, ByteArray.size_append, board.size_ram, hblock]
  refine ⟨d.loaded c.save, k₀.restore k.toBlock, load_eq_ok_iff.mpr ⟨by omega, ?_, rfl⟩, ?_, ?_, ?_⟩
  · exact mem_blockLengths.mpr (.inl ⟨by rw [hd, Option.isSome_some], .inl (by omega)⟩)
  · rw [ram_loaded, save_of_clock hc, ByteArray.extract_append_eq_left board.size_ram.symm]
  · have hextract : c.save.extract d.ram.size c.save.size = ⟨k.toBlock.toArray⟩ := by
      rw [hsize, save_of_clock hc]
      exact ByteArray.extract_append_eq_right board.size_ram.symm
        (by rw [hblock, board.size_ram])
    rw [clock?_loaded, hd, hextract, Option.map_some]
  · exact k.record_restore_toBlock k₀ hlive hlatched

/-- The save of a cartridge fits the cartridges of the same board and hands its state on. -/
theorem load_save (board : SameBoard d c)
    (hmasked : ∀ k, c.clock? = some k → k.live.Masked ∧ k.latched.Masked) :
    ∃ d', d.load c.save = .ok d' ∧ d'.ram = c.ram ∧
      d'.clock?.map Clock.record = c.clock?.map Clock.record := by
  cases hc : c.clock? with
  | none =>
    obtain ⟨d', hload, hram, hd'⟩ := load_save_of_no_clock board hc
    exact ⟨d', hload, hram, by rw [hd']⟩
  | some k =>
    obtain ⟨hlive, hlatched⟩ := hmasked k hc
    obtain ⟨d', k', hload, hram, hd', hrecord⟩ := load_save_of_clock board hc hlive hlatched
    exact ⟨d', hload, hram, by rw [hd', Option.map_some, Option.map_some, hrecord]⟩

/-- The canonical form of a save for a cartridge. -/
def canonicalForm (c : Cartridge) (data : ByteArray) : ByteArray :=
  let ram := data.extract 0 c.ram.size
  let block := data.extract c.ram.size data.size
  match c.clock? with
  | some _ => ram ++ ⟨(Clock.canonicalBlock block.data.toList).toArray⟩
  | none => ram

theorem canonicalForm_of_clock {k : Clock} (hk : c.clock? = some k) :
    c.canonicalForm data = data.extract 0 c.ram.size ++
      ⟨(Clock.canonicalBlock (data.extract c.ram.size data.size).data.toList).toArray⟩ := by
  rw [canonicalForm, hk]

theorem canonicalForm_of_no_clock (hk : c.clock? = none) :
    c.canonicalForm data = data.extract 0 c.ram.size := by
  rw [canonicalForm, hk]

theorem loaded_eq_self (hram : data.extract 0 c.ram.size = c.ram)
    (hclock : ∀ k, c.clock? = some k →
      k.restore (data.extract c.ram.size data.size).data.toList = k) : c.loaded data = c := by
  obtain ⟨rom, ram, mapper⟩ := c
  have hmapper : mapper.mapClock
      (·.restore (data.extract ram.size data.size).data.toList) = mapper := by
    cases mapper with
    | fixed => rfl
    | mbc1 m => rfl
    | mbc3 m =>
      obtain ⟨romBank, ramEnabled, selection, latchArmed, clock⟩ := m
      cases clock with
      | none => rfl
      | some k => rw [Mapper.mapClock, Option.map_some, hclock k rfl]
  rw [loaded, hram, mapClock, hmapper]

theorem length_block_eq (data : ByteArray) (first : Nat) :
    (data.extract first data.size).data.toList.length = data.size - first := by
  rw [Array.length_toList, ← ByteArray.size, ByteArray.size_extract, Nat.min_self]

/-- The lengths that a block has which follows the RAM of an accepted save. -/
theorem length_block (hlength : data.size - c.ram.size ∈ c.blockLengths)
    (hclock : c.clock?.isSome) :
    let block := (data.extract c.ram.size data.size).data.toList
    40 ≤ block.length ∧ block.length ≤ Clock.blockLength := by
  rw [mem_blockLengths, Clock.blockLength, Clock.shortBlockLength] at hlength
  dsimp only
  rw [length_block_eq, Clock.blockLength]
  obtain ⟨-, h | h⟩ | ⟨hnone, -⟩ := hlength
  · omega
  · omega
  · rw [hnone] at hclock
    cases hclock

/-- A cartridge that has loaded a save makes its canonical form. -/
theorem save_loaded (hlength : data.size - c.ram.size ∈ c.blockLengths) :
    (c.loaded data).save = c.canonicalForm data := by
  have hclock := clock?_loaded c data
  cases hc : c.clock? with
  | none =>
    rw [hc, Option.map_none] at hclock
    rw [save_of_no_clock hclock, ram_loaded, canonicalForm_of_no_clock hc]
  | some k =>
    rw [hc, Option.map_some] at hclock
    obtain ⟨hlong, hshort⟩ := length_block hlength (by rw [hc, Option.isSome_some])
    rw [save_of_clock hclock, ram_loaded, canonicalForm_of_clock hc,
      k.toBlock_restore hlong hshort]

theorem size_ram_extract (hle : c.ram.size ≤ data.size) :
    (data.extract 0 c.ram.size).size = c.ram.size := by
  rw [ByteArray.size_extract]
  omega

theorem load_canonicalForm_of_no_clock (hc : c.clock? = none) (hle : c.ram.size ≤ data.size) :
    (c.loaded data).load (c.canonicalForm data) = .ok (c.loaded data) := by
  have hram : (c.loaded data).ram.size = c.ram.size := size_ram_extract hle
  have hclock : (c.loaded data).clock? = none := by rw [clock?_loaded, hc, Option.map_none]
  have hself := ByteArray.extract_zero_size (b := data.extract 0 c.ram.size)
  rw [size_ram_extract hle] at hself
  rw [canonicalForm_of_no_clock hc]
  refine load_eq_ok_iff.mpr ⟨?_, mem_blockLengths.mpr (.inr ⟨hclock, ?_⟩),
    (loaded_eq_self ?_ ?_).symm⟩
  · exact Nat.le_refl _
  · exact Nat.sub_self _
  · rw [hram, hself, ram_loaded]
  · intro k hk
    rw [hclock] at hk
    cases hk

theorem load_canonicalForm_of_clock {k : Clock} (hc : c.clock? = some k)
    (hle : c.ram.size ≤ data.size) (hlength : data.size - c.ram.size ∈ c.blockLengths) :
    (c.loaded data).load (c.canonicalForm data) = .ok (c.loaded data) := by
  obtain ⟨hlong, hshort⟩ := length_block hlength (by rw [hc, Option.isSome_some])
  have hram : (c.loaded data).ram.size = c.ram.size := size_ram_extract hle
  have hclock := clock?_loaded c data
  rw [hc, Option.map_some] at hclock
  rw [canonicalForm_of_clock hc]
  generalize (data.extract c.ram.size data.size).data.toList = block at hclock hlong hshort ⊢
  have hlast : (⟨(Clock.canonicalBlock block).toArray⟩ : ByteArray).size = Clock.blockLength :=
    Clock.length_canonicalBlock hlong hshort
  have hsize : (data.extract 0 c.ram.size ++
      (⟨(Clock.canonicalBlock block).toArray⟩ : ByteArray)).size =
      c.ram.size + Clock.blockLength := by
    rw [ByteArray.size_append, size_ram_extract hle, hlast]
  refine load_eq_ok_iff.mpr ⟨?_, mem_blockLengths.mpr (.inl ⟨?_, .inl ?_⟩),
    (loaded_eq_self ?_ ?_).symm⟩
  · omega
  · rw [hclock, Option.isSome_some]
  · omega
  · rw [hram, ByteArray.extract_append_eq_left (size_ram_extract hle).symm, ram_loaded]
  · rw [hclock, hram, hsize, ByteArray.extract_append_eq_right (size_ram_extract hle).symm
      (by rw [size_ram_extract hle, hlast])]
    intro k' hk'
    rw [← Option.some.inj hk', Clock.restore_restore, Clock.restore_canonicalBlock]

/-- The canonical form of an accepted save is accepted and changes nothing after it. -/
theorem load_canonicalForm (hle : c.ram.size ≤ data.size)
    (hlength : data.size - c.ram.size ∈ c.blockLengths) :
    (c.loaded data).load (c.canonicalForm data) = .ok (c.loaded data) := by
  cases hc : c.clock? with
  | none => exact load_canonicalForm_of_no_clock hc hle
  | some k => exact load_canonicalForm_of_clock hc hle hlength

/-- There is something to save on a cartridge with RAM or a clock. -/
theorem size_save_ne_zero (board : SameBoard d c)
    (hstores : d.hasRam = true ∨ d.clock?.isSome = true) : c.save.size ≠ 0 := by
  cases hc : c.clock? with
  | none =>
    have hclock : d.clock?.isSome = false := by rw [← board.isSome_clock?, hc, Option.isSome_none]
    have hram : d.hasRam = true := hstores.resolve_right (by rw [hclock]; exact Bool.false_ne_true)
    rw [save_of_no_clock hc, board.size_ram]
    exact bne_iff_ne.mp hram
  | some k =>
    have hblock : (⟨k.toBlock.toArray⟩ : ByteArray).size = Clock.blockLength := k.length_toBlock
    rw [save_of_clock hc, ByteArray.size_append, hblock]
    exact Nat.ne_of_gt (Nat.lt_add_left _ (by decide))

/-- Without a clock the RAM alone is a save. -/
theorem load_ram (hc : c.clock? = none) : c.load c.ram = .ok c := by
  have hram : c.ram.extract 0 c.ram.size = c.ram := ByteArray.extract_zero_size
  refine load_eq_ok_iff.mpr ⟨Nat.le_refl _, mem_blockLengths.mpr (.inr ⟨hc, Nat.sub_self _⟩), ?_⟩
  refine (loaded_eq_self hram ?_).symm
  intro k hk
  rw [hc] at hk
  cases hk

/-- The block after the RAM is canonical where there is a clock to have one. -/
def IsCanonical (c : Cartridge) (data : ByteArray) : Prop :=
  c.clock?.isSome → Clock.IsCanonical (data.extract c.ram.size data.size).data.toList

/-- The canonical saves are those that are their own canonical form. -/
theorem canonicalForm_eq_self_iff (hle : c.ram.size ≤ data.size)
    (hlength : data.size - c.ram.size ∈ c.blockLengths) :
    c.canonicalForm data = data ↔ c.IsCanonical data := by
  have hsplit := ByteArray.extract_eq_extract_append_extract (a := data) c.ram.size
    (Nat.zero_le _) hle
  rw [ByteArray.extract_zero_size] at hsplit
  unfold IsCanonical
  cases hc : c.clock? with
  | none =>
    obtain ⟨hsome, -⟩ | ⟨-, hempty⟩ := mem_blockLengths.mp hlength
    · rw [hc] at hsome
      cases hsome
    · have hsize : c.ram.size = data.size := by omega
      rw [canonicalForm_of_no_clock hc, hsize, ByteArray.extract_zero_size]
      simp
  | some k =>
    obtain ⟨hlong, hshort⟩ := length_block hlength (by rw [hc, Option.isSome_some])
    rw [← Clock.canonicalBlock_eq_self_iff hlong hshort, canonicalForm_of_clock hc]
    constructor
    · intro hself _
      have hback := (ByteArray.append_right_inj _).mp (hself.trans hsplit)
      exact congrArg (·.data.toList) hback
    · intro hback
      rw [hback (Option.isSome_some)]
      exact hsplit.symm

/-- A save of a reachable cartridge is accepted by a fresh one of the same ROM, which then has
its RAM, its registers and its timestamp, and makes the same save. An accepted save comes back
in canonical form, and that changes nothing when it is loaded in turn. -/
theorem save_round_trip :
    (∀ rom mode c, Reachable rom mode c → ∀ mode' host, ∃ c',
      (Cartridge.ofRom rom mode' host).load c.save = .ok c' ∧ c'.ram = c.ram ∧
        c'.clock?.map Clock.record = c.clock?.map Clock.record ∧ c'.save = c.save) ∧
    ∀ (c : Cartridge) (data : ByteArray) (c' : Cartridge), c.load data = .ok c' →
      c'.save = c.canonicalForm data ∧ c'.load (c.canonicalForm data) = .ok c' ∧
        (c'.save = data ↔ c.IsCanonical data) := by
  constructor
  · intro rom mode c h mode' host
    obtain ⟨c', hload, hram, hrecord⟩ := load_save (h.sameBoard mode' host)
      fun k hk => ⟨(h.sound hk).live, (h.sound hk).latched⟩
    exact ⟨c', hload, hram, hrecord, save_eq_of_record hram hrecord⟩
  · intro c data c' hload
    obtain ⟨hle, hlength, rfl⟩ := load_eq_ok_iff.mp hload
    rw [save_loaded hlength]
    exact ⟨rfl, load_canonicalForm hle hlength, canonicalForm_eq_self_iff hle hlength⟩

theorem ram_timerCartridge (mode : ClockMode) :
    (timerCartridge mode).ram = ⟨Array.replicate 0x8000 0⟩ := by
  have hkind : (Header.parse timerRom).kind = .mbc3 := by decide +kernel
  unfold timerCartridge Cartridge.ofRom
  dsimp only
  rw [hkind]
  rfl

/-- A save with empty RAM and a block of the older length in that every bit is set. -/
def oldSave : ByteArray :=
  ⟨Array.replicate 0x8000 0⟩ ++ ⟨(List.replicate Clock.shortBlockLength 0xFF).toArray⟩

/-- The block that comes back for it. -/
def oldBlock : List UInt8 :=
  [0x3F, 0x3F, 0x1F, 0xFF, 0xC1, 0x3F, 0x3F, 0x1F, 0xFF, 0xC1].flatMap Clock.slot ++
    [0xFF, 0xFF, 0xFF, 0xFF, 0, 0, 0, 0]

theorem extract_oldSave :
    oldSave.extract 0 (timerCartridge .emulated).ram.size = ⟨Array.replicate 0x8000 0⟩ ∧
      (oldSave.extract (timerCartridge .emulated).ram.size oldSave.size).data.toList =
        List.replicate Clock.shortBlockLength 0xFF := by
  rw [ram_timerCartridge, oldSave]
  constructor
  · exact ByteArray.extract_append_eq_left rfl
  · rw [ByteArray.extract_append_eq_right rfl ByteArray.size_append]

theorem load_oldSave :
    (timerCartridge .emulated).load oldSave = .ok ((timerCartridge .emulated).loaded oldSave) := by
  have hsize : oldSave.size = (timerCartridge .emulated).ram.size + Clock.shortBlockLength := by
    rw [ram_timerCartridge, oldSave, ByteArray.size_append]
    exact congrArg _ List.length_replicate
  refine load_eq_ok_iff.mpr ⟨by omega, mem_blockLengths.mpr (.inl ⟨?_, .inr (by omega)⟩), rfl⟩
  rw [clock?_timerCartridge, Option.isSome_some]

/-- The save of a clock one second after power-on, and the older save. -/
theorem save_round_trip_oldSave :
    (∃ c', (Cartridge.ofRom timerRom .wall (.fixed 9)).load
        ((timerCartridge .emulated).step cyclesPerSecond).save = .ok c' ∧
      c'.clock?.map Clock.record = some ⟨⟨1, 0, 0, 0, 0⟩, .cleared, 0⟩) ∧
    ∃ c', (timerCartridge .emulated).load oldSave = .ok c' ∧
      c'.save = ⟨Array.replicate 0x8000 0⟩ ++ ⟨oldBlock.toArray⟩ := by
  constructor
  · obtain ⟨c', hload, -, hrecord, -⟩ := save_round_trip.1 timerRom .emulated _
      (.step (.ofRom (.fixed 0)) cyclesPerSecond) .wall (.fixed 9)
    refine ⟨c', hload, hrecord.trans ?_⟩
    rw [clock?_step]
    change ((timerCartridge .emulated).clock?.map _).map _ = _
    rw [clock?_timerCartridge]
    decide +kernel
  · obtain ⟨hram, hblock⟩ := extract_oldSave
    refine ⟨_, load_oldSave, (save_round_trip.2 _ _ _ load_oldSave).1.trans ?_⟩
    rw [canonicalForm_of_clock (clock?_timerCartridge _), hram, hblock]
    have hcanonical : Clock.canonicalBlock (List.replicate Clock.shortBlockLength 0xFF) =
        oldBlock := by decide
    rw [hcanonical]

end Cartridge

end Handheld
