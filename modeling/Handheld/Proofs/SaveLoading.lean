import Handheld.Console
import Handheld.Proofs.Cartridge.SaveForm
import Mathlib.Data.Nat.Digits.Defs

/-!
Loading a save in place. The cartridge is changed in two steps, first the RAM and then the clock,
and what is changed stays changed if a later step fails. Both steps come after every check, so a
save is loaded in full or changes nothing, and its length alone decides which.
-/
namespace Handheld

/-- The answer of an action on a state, and the state that it leaves, also where it fails. -/
def inPlace {ε σ α : Type} (act : ExceptT ε (StateM σ) α) (s : σ) : Except ε α × σ :=
  Id.run (StateT.run (ExceptT.run act) s)

section InPlace

variable {ε σ α β : Type}

theorem inPlace_bind (act : ExceptT ε (StateM σ) α) (next : α → ExceptT ε (StateM σ) β) (s : σ) :
    inPlace (act >>= next) s =
      match inPlace act s with
      | (.ok a, s') => inPlace (next a) s'
      | (.error e, s') => (.error e, s') := by
  unfold inPlace
  rw [ExceptT.run_bind, StateT.run_bind, Id.run_bind]
  cases Id.run (StateT.run (ExceptT.run act) s) with
  | mk result s' => cases result <;> rfl

theorem inPlace_get (s : σ) : inPlace (get : ExceptT ε (StateM σ) σ) s = (.ok s, s) := rfl

theorem inPlace_modify (f : σ → σ) (s : σ) :
    inPlace (modify f : ExceptT ε (StateM σ) PUnit) s = (.ok ⟨⟩, f s) := rfl

end InPlace

/-- An operation that gives a new state or fails, where a failure leaves the old state. -/
def keptOnError {ε σ : Type} (s : σ) : Except ε σ → Except ε Unit × σ
  | .ok s' => (.ok (), s')
  | .error e => (.error e, s)

/-- A clock that has taken over a block: each register holds the bits of its slot's lowest byte that
it has, the last bytes are the timestamp, and counting starts anew. -/
structure Clock.Restored (k : Clock) (block : List UInt8) (k' : Clock) : Prop where
  live : ∀ field : ClockField,
    k'.live.get field = block.getD (4 * ClockField.all.idxOf field) 0 &&& field.mask
  latched : ∀ field : ClockField,
    k'.latched.get field = block.getD (20 + 4 * ClockField.all.idxOf field) 0 &&& field.mask
  timestamp : k'.timestamp.toNat = Nat.ofDigits 256 ((block.drop 40).map UInt8.toNat)
  subsecond : k'.subsecond = 0
  sinceCheck : k'.sinceCheck = 0
  mode : k'.mode = k.mode
  host : k'.host = k.host

theorem ofLittleEndian_eq_ofDigits (bytes : List UInt8) :
    ofLittleEndian bytes = Nat.ofDigits 256 (bytes.map UInt8.toNat) := by
  induction bytes with
  | nil => rfl
  | cons b rest ih =>
    rw [ofLittleEndian_cons, List.map_cons, Nat.ofDigits_cons, ih]

theorem Clock.restored_restore (k : Clock) {block : List UInt8}
    (h : block.length ≤ blockLength) : k.Restored block (k.restore block) where
  live field := by
    rw [← Nat.zero_add (4 * _)]
    exact ClockRegisters.get_ofValue _ field
  latched field := ClockRegisters.get_ofValue _ field
  timestamp := by
    have hlt := ofLittleEndian_lt (block.drop 40)
    have hlast : (block.drop 40).length ≤ 8 := by
      unfold blockLength at h
      rw [List.length_drop]
      omega
    rw [← ofLittleEndian_eq_ofDigits]
    refine UInt64.toNat_ofNat_of_lt' (Nat.lt_of_lt_of_le hlt ?_)
    exact Nat.pow_le_pow_right (by decide) hlast
  subsecond := rfl
  sinceCheck := rfl
  mode := rfl
  host := rfl

/-- A bank controller apart from its clock. -/
def Mapper.withoutClock : Mapper → Mapper
  | .mbc3 m => .mbc3 { m with clock := none }
  | m => m

theorem Mapper.withoutClock_mapClock (f : Clock → Clock) (m : Mapper) :
    (m.mapClock f).withoutClock = m.withoutClock := by
  cases m <;> rfl

namespace Cartridge

/-- Checks a save and then takes over its RAM and its clock, one after the other. -/
def loadInPlace (data : ByteArray) : ExceptT SaveError (StateM Cartridge) Unit := do
  let c ← get
  let expected := c.ram.size
  let trailer := (data.extract expected data.size).data.toList
  if data.size < expected then
    throw (.tooShort data.size expected)
  else if trailer.length ∈ c.blockLengths then
    modify fun c => { c with ram := data.extract 0 expected }
    modify fun c => c.mapClock (·.restore trailer)
  else
    throw (.badClockBlock trailer.length)

/-- The lengths of a save: the RAM, and after it a block of 48 or 44 bytes if there is a clock. -/
def TakesLength (c : Cartridge) (length : Nat) : Prop :=
  match c.clock? with
  | none => length = c.ram.size
  | some _ => length = c.ram.size + 48 ∨ length = c.ram.size + 44

/-- A cartridge that has taken over a save: the RAM is the beginning of the save, a clock has taken
over the rest, and nothing else has changed. -/
structure Restored (c : Cartridge) (data : ByteArray) (c' : Cartridge) : Prop where
  ram : c'.ram.data.toList = data.data.toList.take c.ram.size
  size_ram : c'.ram.size = c.ram.size
  clock : Option.Rel (fun k k' => k.Restored (data.data.toList.drop c.ram.size) k')
    c.clock? c'.clock?
  rom : c'.rom = c.rom
  withoutClock : c'.mapper.withoutClock = c.mapper.withoutClock

/-- The law of loading a save, between the cartridge before it and the answer and the cartridge
after it. -/
structure LoadsWhole (c : Cartridge) (data : ByteArray)
    (after : Except SaveError Unit × Cartridge) : Prop where
  accepts_iff : after.1 = .ok () ↔ c.TakesLength data.size
  too_short : data.size < c.ram.size → after.1 = .error (.tooShort data.size c.ram.size)
  bad_block : c.ram.size ≤ data.size → ¬c.TakesLength data.size →
    after.1 = .error (.badClockBlock (data.size - c.ram.size))
  /-- A save that does not fit changes nothing. -/
  refused : after.1 ≠ .ok () → after.2 = c
  taken : after.1 = .ok () → c.Restored data after.2

theorem inPlace_loadInPlace (c : Cartridge) (data : ByteArray) :
    inPlace (loadInPlace data) c = keptOnError c (c.load data) := by
  rw [loadInPlace, inPlace_bind, inPlace_get, load]
  dsimp only
  rw [length_block_eq]
  split
  · rfl
  · split
    · rw [inPlace_bind, inPlace_modify]
      rfl
    · rfl

theorem takesLength_iff (c : Cartridge) (length : Nat) :
    c.TakesLength length ↔ c.ram.size ≤ length ∧ length - c.ram.size ∈ c.blockLengths := by
  unfold TakesLength blockLengths Clock.blockLength Clock.shortBlockLength
  cases c.clock? with
  | none =>
    simp only [List.mem_singleton]
    omega
  | some k =>
    simp only [List.mem_cons, List.not_mem_nil, or_false]
    omega

theorem load_of_takesLength {c : Cartridge} {data : ByteArray} (h : c.TakesLength data.size) :
    c.load data = .ok (c.loaded data) := by
  obtain ⟨hle, hblock⟩ := (c.takesLength_iff data.size).mp h
  exact load_eq_ok_iff.mpr ⟨hle, hblock, rfl⟩

theorem load_of_not_takesLength {c : Cartridge} {data : ByteArray}
    (h : ¬c.TakesLength data.size) :
    c.load data = .error
      (if data.size < c.ram.size then .tooShort data.size c.ram.size
        else .badClockBlock (data.size - c.ram.size)) := by
  rw [takesLength_iff] at h
  unfold load
  dsimp only
  by_cases hshort : data.size < c.ram.size
  · rw [if_pos hshort, if_pos hshort]
  · have hblock : ¬data.size - c.ram.size ∈ c.blockLengths :=
      fun hmem => h ⟨Nat.le_of_not_lt hshort, hmem⟩
    rw [if_neg hshort, if_neg hshort, if_neg hblock]

theorem extract_toList (data : ByteArray) (n : Nat) :
    (data.extract n data.size).data.toList = data.data.toList.drop n := by
  rw [ByteArray.data_extract, Array.toList_extract, List.extract_eq_take_drop]
  apply List.take_of_length_le
  rw [List.length_drop, Array.length_toList]
  exact Nat.le_refl _

theorem restored_loaded {c : Cartridge} {data : ByteArray} (h : c.TakesLength data.size) :
    c.Restored data (c.loaded data) where
  ram := by
    rw [ram_loaded, ByteArray.data_extract, Array.toList_extract, List.extract_eq_take_drop]
    rfl
  size_ram := size_ram_extract ((c.takesLength_iff data.size).mp h).1
  clock := by
    rw [clock?_loaded, extract_toList]
    unfold TakesLength at h
    cases hc : c.clock? with
    | none => exact .none
    | some k =>
      rw [hc] at h
      refine .some (k.restored_restore ?_)
      rw [List.length_drop, Array.length_toList]
      change data.size - c.ram.size ≤ 48
      dsimp only at h
      omega
  rom := rfl
  withoutClock := Mapper.withoutClock_mapClock _ c.mapper

theorem loadsWhole (c : Cartridge) (data : ByteArray) :
    c.LoadsWhole data (keptOnError c (c.load data)) := by
  by_cases hfits : c.TakesLength data.size
  · have hle := ((c.takesLength_iff data.size).mp hfits).1
    rw [load_of_takesLength hfits]
    refine ⟨⟨fun _ => hfits, fun _ => rfl⟩, ?_, ?_, ?_, fun _ => restored_loaded hfits⟩
    · intro hshort
      omega
    · intro _ hnot
      exact absurd hfits hnot
    · intro hrefused
      exact absurd rfl hrefused
  · rw [load_of_not_takesLength hfits]
    refine ⟨⟨nofun, fun h => absurd h hfits⟩, ?_, ?_, fun _ => rfl, nofun⟩
    · intro hshort
      rw [if_pos hshort]
      rfl
    · intro hlong _
      rw [if_neg (Nat.not_lt.mpr hlong)]
      rfl

end Cartridge

namespace Console

/-- The console with another cartridge in its slot and nothing else changed. -/
def holding (c : Console) (cartridge : Cartridge) : Console :=
  { c with core := { c.core with bus := c.core.bus.insert cartridge } }

/-- Loads a save into the cartridge where it is, whatever becomes of it there. -/
def loadInPlace (data : ByteArray) : ExceptT SaveError (StateM Console) Unit := do
  let c ← get
  match c.cartridge? with
  | some cartridge =>
    let (answer, cartridge) := inPlace (Cartridge.loadInPlace data) cartridge
    modify (·.holding cartridge)
    match answer with
    | .ok () => return ()
    | .error e => throw e
  | none => if data.size = 0 then return () else throw (.badClockBlock data.size)

/-- The law of loading a save, for the whole console. Without a cartridge only the empty save
fits. -/
def LoadsWhole (c : Console) (data : ByteArray) (after : Except SaveError Unit × Console) : Prop :=
  (after.1 ≠ .ok () → after.2 = c) ∧
    match c.cartridge? with
    | some cartridge =>
      ∃ cartridge', cartridge.LoadsWhole data (after.1, cartridge') ∧
        after.2 = c.holding cartridge'
    | none =>
      (after.1 = .ok () ↔ data.size = 0) ∧
        (data.size ≠ 0 → after.1 = .error (.badClockBlock data.size)) ∧ after.2 = c

theorem holding_self {c : Console} {cartridge : Cartridge} (h : c.cartridge? = some cartridge) :
    c.holding cartridge = c := by
  obtain ⟨⟨cpu, bus⟩, breakpoints, clockMode, pausedAt⟩ := c
  have hslot : bus.slot = some cartridge := h
  rw [holding, Bus.insert, ← hslot]

/-- A console loads what its cartridge loads. -/
theorem keptOnError_load {c : Console} {cartridge : Cartridge}
    (h : c.cartridge? = some cartridge) (data : ByteArray) :
    keptOnError c (c.load data) =
      ((keptOnError cartridge (cartridge.load data)).1,
        c.holding (keptOnError cartridge (cartridge.load data)).2) := by
  rw [load, h]
  dsimp only
  cases cartridge.load data with
  | ok loaded => rfl
  | error e =>
    dsimp only [keptOnError]
    rw [holding_self h]
    rfl

/-- Loading a save changes nothing of a console but its cartridge. -/
theorem eq_or_holding_of_load {c d : Console} {data : ByteArray} (h : c.load data = .ok d) :
    d = c ∨ ∃ cartridge, d = c.holding cartridge := by
  cases hslot : c.cartridge? with
  | some cartridge =>
    have hkept := keptOnError_load hslot data
    rw [h] at hkept
    exact .inr ⟨_, (Prod.mk.inj hkept).2⟩
  | none =>
    rw [load, hslot] at h
    dsimp only at h
    split at h
    · exact .inl (Except.ok.inj h).symm
    · cases h

theorem inPlace_loadInPlace (c : Console) (data : ByteArray) :
    inPlace (loadInPlace data) c = keptOnError c (c.load data) := by
  rw [loadInPlace, inPlace_bind, inPlace_get]
  dsimp only
  cases h : c.cartridge? with
  | some cartridge =>
    rw [keptOnError_load h, ← Cartridge.inPlace_loadInPlace]
    dsimp only
    rw [inPlace_bind, inPlace_modify]
    cases (inPlace (Cartridge.loadInPlace data) cartridge).1 <;> rfl
  | none =>
    rw [load, h]
    dsimp only
    split <;> rfl

theorem loadsWhole (c : Console) (data : ByteArray) :
    c.LoadsWhole data (keptOnError c (c.load data)) := by
  unfold LoadsWhole
  cases h : c.cartridge? with
  | some cartridge =>
    have hlaw := cartridge.loadsWhole data
    rw [keptOnError_load h]
    refine ⟨?_, _, hlaw, rfl⟩
    intro hrefused
    dsimp only
    rw [hlaw.refused hrefused, holding_self h]
  | none =>
    rw [load, h]
    dsimp only
    by_cases hempty : data.size = 0
    · rw [if_pos hempty]
      exact ⟨fun _ => rfl, ⟨fun _ => hempty, fun _ => rfl⟩, fun hnot => absurd hempty hnot, rfl⟩
    · rw [if_neg hempty]
      exact ⟨fun _ => rfl, ⟨nofun, fun h => absurd h hempty⟩, fun _ => rfl, rfl⟩

end Console

/-- Loading a save is all or nothing, for a cartridge and for a console, whatever their state. The
length of the save alone tells whether it is taken, and the changes that are made in place come
after every check. -/
theorem save_loads_whole (cartridge : Cartridge) (console : Console) (data : ByteArray) :
    (cartridge.LoadsWhole data (inPlace (Cartridge.loadInPlace data) cartridge) ∧
        inPlace (Cartridge.loadInPlace data) cartridge =
          keptOnError cartridge (cartridge.load data)) ∧
      console.LoadsWhole data (inPlace (Console.loadInPlace data) console) ∧
        inPlace (Console.loadInPlace data) console = keptOnError console (console.load data) := by
  have hcartridge := cartridge.inPlace_loadInPlace data
  have hconsole := console.inPlace_loadInPlace data
  refine ⟨⟨?_, hcartridge⟩, ?_, hconsole⟩
  · rw [hcartridge]
    exact cartridge.loadsWhole data
  · rw [hconsole]
    exact console.loadsWhole data

end Handheld
