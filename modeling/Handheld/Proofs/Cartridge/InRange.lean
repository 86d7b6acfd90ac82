import Handheld.Proofs.Cartridge.Checked
import Handheld.Proofs.Cartridge.Mbc3

/-!
Requests to a cartridge. Whatever the ROM is, and whatever is read, written, loaded and counted
in whatever order, the registers of the controller and of the clock stay within their bounds, so
that none of the checks of an operation fails.
-/
namespace Handheld

/-- The bank has seven bits and is not zero, and a register of the clock is selected only where
there is a clock. The first controller sets the bank in two parts, of which it keeps the lower
one from being zero. -/
def Mapper.InRange : Mapper → Prop
  | fixed => True
  | mbc1 m => 1 ≤ m.romBank.toNat % 32 ∧ m.romBank.toNat ≤ 127
  | mbc3 m => (1 ≤ m.romBank.toNat ∧ m.romBank.toNat ≤ 127) ∧
      ∀ field, m.selection = .clock field → m.clock.isSome

theorem Mapper.InRange.romBank {mapper : Mapper} (h : mapper.InRange) :
    1 ≤ mapper.romBank.toNat ∧ mapper.romBank.toNat ≤ 127 := by
  cases mapper with
  | fixed => exact ⟨Nat.le_refl _, by decide⟩
  | mbc1 m =>
    obtain ⟨hlow, hhigh⟩ := h
    exact ⟨Nat.le_trans hlow (Nat.mod_le _ _), hhigh⟩
  | mbc3 m => exact h.1

theorem Mbc1.inRange_write {m : Mbc1} (h : (Mapper.mbc1 m).InRange) (addr : UInt16) (v : UInt8) :
    (Mapper.mbc1 (m.write addr v)).InRange := by
  obtain ⟨hlow, hhigh⟩ := h
  have hset : (nonzeroBank (v &&& 0x1F)).toNat = max 1 (v.toNat % 2 ^ 5) := by
    rw [Cartridge.toNat_nonzeroBank, toNat_and_mask v 0x1F 5 rfl]
  simp only [Mapper.InRange]
  rw [Mbc1.write_eq]
  dsimp only
  split
  · rw [toNat_setLow _ _ (by omega), hset]
    omega
  · split
    · rw [toNat_setHigh]
      omega
    · exact ⟨hlow, hhigh⟩

/-- A clock register can be selected only where there is a clock. -/
theorem Mbc3.isSome_of_selection? {hasClock : Bool} {v : UInt8} {field : ClockField}
    (h : selection? hasClock v = some (.clock field)) : hasClock = true := by
  cases hasClock with
  | true => rfl
  | false =>
    unfold selection? at h
    split at h <;> simp at h

theorem Mbc3.inRange_write {m : Mbc3} (h : (Mapper.mbc3 m).InRange) (addr : UInt16) (v : UInt8) :
    (Mapper.mbc3 (m.write addr v)).InRange := by
  obtain ⟨hbank, hselection⟩ := h
  have hset : (nonzeroBank (v &&& 0x7F)).toNat = max 1 (v.toNat % 2 ^ 7) := by
    rw [Cartridge.toNat_nonzeroBank, toNat_and_mask v 0x7F 7 rfl]
  refine ⟨?_, fun field hfield => ?_⟩
  · rw [Mbc3.write_eq]
    dsimp only
    split
    · rw [hset]
      omega
    · exact hbank
  · rw [isSome_clock_write]
    rw [Mbc3.write_eq] at hfield
    dsimp only at hfield
    split at hfield
    · cases hv : selection? m.clock.isSome v with
      | none =>
        rw [hv, Option.getD_none] at hfield
        exact hselection field hfield
      | some s =>
        rw [hv, Option.getD_some] at hfield
        exact isSome_of_selection? (hfield ▸ hv)
    · exact hselection field hfield

theorem Mapper.InRange.write {mapper : Mapper} (h : mapper.InRange) (addr : UInt16) (v : UInt8) :
    (mapper.write addr v).InRange := by
  cases mapper with
  | fixed => exact trivial
  | mbc1 m => exact Mbc1.inRange_write h addr v
  | mbc3 m => exact Mbc3.inRange_write h addr v

theorem Mapper.InRange.mapClock {mapper : Mapper} (h : mapper.InRange) (f : Clock → Clock) :
    (mapper.mapClock f).InRange := by
  cases mapper with
  | fixed => exact trivial
  | mbc1 m => exact h
  | mbc3 m => exact ⟨h.1, fun field hfield => Option.isSome_map.trans (h.2 field hfield)⟩

namespace Cartridge

variable {rom : ByteArray} {mode : ClockMode} {c : Cartridge}

theorem inRange_ofRom (rom : ByteArray) (mode : ClockMode) (host : HostClock) :
    (ofRom rom mode host).mapper.InRange := by
  unfold ofRom
  dsimp only
  cases (Header.parse rom).kind with
  | fixed => exact trivial
  | mbc1 => exact ⟨Nat.le_refl 1, by decide⟩
  | mbc3 =>
    have hone : 1 ≤ (1 : UInt8).toNat ∧ (1 : UInt8).toNat ≤ 127 := by decide
    exact ⟨hone, fun field hfield => by cases hfield⟩

theorem Reachable.inRange (h : Reachable rom mode c) : c.mapper.InRange := by
  induction h with
  | ofRom host => exact inRange_ofRom rom mode host
  | @write c h addr v ih =>
    rw [mapper_write]
    exact ih.write addr v
  | @step c h cycles ih =>
    rw [step_eq_mapClock]
    exact ih.mapClock _
  | @load c c' h data hload ih =>
    obtain ⟨-, -, rfl⟩ := load_eq_ok_iff.mp hload
    exact ih.mapClock _

theorem backed_ofRom (rom : ByteArray) (mode : ClockMode) (host : HostClock) :
    (ofRom rom mode host).Backed := by
  intro m hm
  unfold ofRom at hm ⊢
  dsimp only at hm ⊢
  cases hkind : (Header.parse rom).kind with
  | fixed => rw [hkind] at hm; cases hm
  | mbc1 => rw [hkind] at hm; cases hm
  | mbc3 => exact Array.size_replicate

/-- A controller of the third kind has come from one of that kind. -/
theorem Reachable.backed (h : Reachable rom mode c) : c.Backed := by
  induction h with
  | ofRom host => exact backed_ofRom rom mode host
  | @write c h addr v ih =>
    intro m hm
    rw [mapper_write] at hm
    rw [(sameBoard_write c addr v).size_ram]
    cases hmapper : c.mapper with
    | fixed => rw [hmapper] at hm; cases hm
    | mbc1 m' => rw [hmapper] at hm; cases hm
    | mbc3 m' => exact ih m' hmapper
  | @step c h cycles ih =>
    intro m hm
    rw [step_eq_mapClock] at hm ⊢
    cases hmapper : c.mapper with
    | fixed => rw [mapClock, hmapper] at hm; cases hm
    | mbc1 m' => rw [mapClock, hmapper] at hm; cases hm
    | mbc3 m' => exact ih m' hmapper
  | @load c c' h data hload ih =>
    obtain ⟨hle, -, rfl⟩ := load_eq_ok_iff.mp hload
    intro m hm
    rw [(sameBoard_loaded hle).size_ram]
    cases hmapper : c.mapper with
    | fixed => rw [loaded, mapClock, hmapper] at hm; cases hm
    | mbc1 m' => rw [loaded, mapClock, hmapper] at hm; cases hm
    | mbc3 m' => exact ih m' hmapper

/-- What is asked of a cartridge. At most eight cycles are counted at a time. -/
inductive Request
  | read (addr : UInt16)
  | write (addr : UInt16) (v : UInt8)
  | load (data : ByteArray)
  | step (cycles : Fin 9)

inductive Answer
  | byte (v : UInt8)
  | done
  | refused (error : SaveError)

/-- The cartridge that a save leads to, and the answer to it. A save that does not fit changes
nothing. -/
def answerLoad (c : Cartridge) : Except SaveError Cartridge → Cartridge × Answer
  | .ok c' => (c', .done)
  | .error error => (c, .refused error)

def serve (c : Cartridge) : Request → Cartridge × Answer
  | .read addr => (c, .byte (c.read addr))
  | .write addr v => (c.write addr v, .done)
  | .load data => c.answerLoad (c.load data)
  | .step cycles => (c.step cycles, .done)

/-- A request served with the checked operations. -/
def serve? (c : Cartridge) : Request → Option (Cartridge × Answer)
  | .read addr => (c.read? addr).map fun v => (c, .byte v)
  | .write addr v => (c.write? addr v).map (·, .done)
  | .load data => (c.load? data).map c.answerLoad
  | .step cycles => (c.step? cycles).map (·, .done)

def serveAll (c : Cartridge) : List Request → Cartridge × List Answer
  | [] => (c, [])
  | request :: requests =>
    let (next, answer) := c.serve request
    let (last, answers) := next.serveAll requests
    (last, answer :: answers)

def serveAll? (c : Cartridge) : List Request → Option (Cartridge × List Answer)
  | [] => some (c, [])
  | request :: requests =>
    (c.serve? request).bind fun (next, answer) =>
      (next.serveAll? requests).map fun (last, answers) => (last, answer :: answers)

theorem Reachable.serve (h : Reachable rom mode c) (request : Request) :
    Reachable rom mode (c.serve request).1 := by
  cases request with
  | read addr => exact h
  | write addr v => exact h.write addr v
  | step cycles => exact h.step cycles
  | load data =>
    change Reachable rom mode (c.answerLoad (c.load data)).1
    cases hload : c.load data with
    | ok c' => exact h.load data hload
    | error error => exact h

theorem Reachable.serveAll (h : Reachable rom mode c) (requests : List Request) :
    Reachable rom mode (c.serveAll requests).1 := by
  induction requests generalizing c with
  | nil => exact h
  | cons request requests ih => exact ih (h.serve request)

theorem Reachable.serve?_eq_some (h : Reachable rom mode c) (request : Request) :
    c.serve? request = some (c.serve request) := by
  cases request with
  | read addr => rw [serve?, read?_eq_some h.backed, Option.map_some]; rfl
  | write addr v => rw [serve?, write?_eq_some h.backed, Option.map_some]; rfl
  | load data => rw [serve?, load?_eq_some, Option.map_some]; rfl
  | step cycles =>
    rw [serve?, step?_eq_some (fun k => h.sound) (Nat.le_of_lt_succ cycles.isLt), Option.map_some]
    rfl

theorem Reachable.serveAll?_eq_some (h : Reachable rom mode c) (requests : List Request) :
    c.serveAll? requests = some (c.serveAll requests) := by
  induction requests generalizing c with
  | nil => rfl
  | cons request requests ih =>
    rw [serveAll?, h.serve?_eq_some, Option.bind_some]
    dsimp only
    rw [ih (h.serve request), Option.map_some]
    rfl

end Cartridge

/-- Registers that have no bits but their own: six, six, five and eight, and three of the upper
byte of the day. -/
def ClockRegisters.Fits (r : ClockRegisters) : Prop :=
  r.seconds.toNat ≤ 63 ∧ r.minutes.toNat ≤ 63 ∧ r.hours.toNat ≤ 31 ∧ r.dayLow.toNat ≤ 255 ∧
    r.dayHigh &&& 0xC1 = r.dayHigh

theorem ClockRegisters.Masked.fits {r : ClockRegisters} (h : r.Masked) : r.Fits :=
  ⟨h.le_mask .seconds, h.le_mask .minutes, h.le_mask .hours, h.le_mask .dayLow, h .dayHigh⟩

namespace Cartridge

variable {rom : ByteArray} {mode : ClockMode} {c : Cartridge}

/-- The bounds that a cartridge with `size` bytes of RAM keeps. -/
structure Intact (size : Nat) (mode : ClockMode) (c : Cartridge) : Prop where
  size_ram : c.ram.size = size
  romBank : 1 ≤ c.romBank.toNat ∧ c.romBank.toNat ≤ 127
  ramBank : ∀ m bank, c.mapper = .mbc3 m → m.selection = .ram bank →
    bank.val ≤ 3 ∧ c.ram.size = 0x8000
  clockRegister : ∀ m field, c.mapper = .mbc3 m → m.selection = .clock field → m.clock.isSome
  live : ∀ k, c.clock? = some k → k.live.Fits
  latched : ∀ k, c.clock? = some k → k.latched.Fits
  sinceCheck : ∀ k, c.clock? = some k → k.sinceCheck < Clock.checkPeriod mode
  subsecond : ∀ k, c.clock? = some k → k.subsecond < 4194304 + k.sinceCheck

theorem Reachable.intact (h : Reachable rom mode c) (host : HostClock) :
    Intact (Cartridge.ofRom rom mode host).ram.size mode c where
  size_ram := (h.sameBoard mode host).size_ram
  romBank := h.inRange.romBank
  ramBank := fun m bank hm _ => ⟨Nat.le_of_lt_succ bank.isLt, h.backed m hm⟩
  clockRegister := fun m field hm hfield => by
    have hrange := h.inRange
    rw [hm] at hrange
    exact hrange.2 field hfield
  live := fun k hk => (h.sound hk).live.fits
  latched := fun k hk => (h.sound hk).latched.fits
  sinceCheck := fun k hk => by
    rw [← h.mode_eq hk]
    exact (h.sound hk).sinceCheck_lt
  subsecond := fun k hk => (h.sound hk).subsecond_lt

/-- No request fails on the cartridge of any ROM, and after any requests the cartridge is
within its bounds. -/
theorem requests_never_fail (rom : ByteArray) (mode : ClockMode) (host : HostClock)
    (requests : List Request) :
    (ofRom? rom mode host).bind (·.serveAll? requests) =
        some ((ofRom rom mode host).serveAll requests) ∧
      Intact (ofRom rom mode host).ram.size mode ((ofRom rom mode host).serveAll requests).1 := by
  have hstart : Reachable rom mode (ofRom rom mode host) := .ofRom host
  refine ⟨?_, (hstart.serveAll requests).intact host⟩
  rw [ofRom?_eq_some, Option.bind_some, hstart.serveAll?_eq_some]

end Cartridge

end Handheld
