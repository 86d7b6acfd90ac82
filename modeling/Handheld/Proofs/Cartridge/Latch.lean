import Handheld.Proofs.Cartridge.Mbc3

/-!
The latch of the cartridge clock. A one that is written to the latch area after a zero commits the
live registers: all five are copied at once. Between two commits only writes to the registers
themselves reach the copies, and games see nothing of the time that passes.
-/
namespace Handheld

/-- Time passes for the live registers alone. -/
theorem Clock.latched_step (k : Clock) (cycles : Nat) : (k.step cycles).latched = k.latched := by
  cases hmode : k.mode with
  | wall =>
    rw [step_of_wall hmode]
    unfold synchronize
    split
    · dsimp only
      split <;> rfl
    · rfl
  | emulated =>
    rw [step_of_emulated hmode, count_eq, count_eq]
    split <;> rfl

namespace Cartridge

open Mbc3

/-- The operation writes a one to the latch area, and the last write there before it was a zero. -/
def commits (op : Operation) (before : Log) : Bool :=
  (op.writtenTo fun a => 0x6000 ≤ a ∧ a ≤ 0x7FFF) == some 1 &&
    lastWritten 0x6000 0x7FFF before == some 0

/-- The bits that an operation writes to a clock register. They reach it while the RAM is enabled and
the register selected. -/
def clockWritten (field : ClockField) (op : Operation) (before : Log) : Option UInt8 :=
  if enabled before = true ∧ selected true before = field.number then
    (op.writtenTo fun a => 0xA000 ≤ a ∧ a ≤ 0xBFFF).map (· &&& field.mask)
  else none

/-- The value that an operation gives to a latched register: that of the live register in a commit,
or one that is written. -/
def latchedBy (c : Cartridge) (field : ClockField) (op : Operation) (before : Log) :
    Option UInt8 :=
  if commits op before = true then (c.after before).clock?.map (·.live.get field)
  else clockWritten field op before

/-- None of the later operations commits. -/
def uncommitted (later log : Log) : Bool :=
  match later with
  | [] => true
  | op :: before => !commits op (before ++ log) && uncommitted before log

/-- A log without the time that has passed. -/
def writes : Log → Log
  | [] => []
  | .write addr v :: before => .write addr v :: writes before
  | .step _ :: before => writes before

/-- Cartridges with a clock that differ only in how much time has passed: all that can be seen of
them is the same. -/
inductive Alike : Cartridge → Cartridge → Prop
  | intro (rom ram : ByteArray) (m : Mbc3) {k k' : Clock} (h : k'.latched = k.latched) :
      Alike ⟨rom, ram, .mbc3 { m with clock := some k }⟩ ⟨rom, ram, .mbc3 { m with clock := some k' }⟩

variable {rom : ByteArray} {c d : Cartridge} {m : Mbc3} {k : Clock} {log : Log}

theorem latches_of_mbc3 {timer : Bool} (hmapper : c.mapper = .mbc3 m) (h : Records timer log m)
    (addr : UInt16) (v : UInt8) : c.latches addr v = commits (.write addr v) log := by
  obtain ⟨-, -, -, hlatch, -⟩ := CartridgeArea.of_eq_iff addr
  rw [latches, hmapper, commits, ← h.latchArmed, Operation.writtenTo]
  by_cases hin : 0x6000 ≤ addr.toNat ∧ addr.toNat ≤ 0x7FFF
  · rw [hlatch.mpr hin, if_pos hin]
    rfl
  · rw [if_neg hin]
    split
    · next harea _ => exact absurd (hlatch.mp harea) hin
    · rfl

theorem clockField?_of_mbc3_iff {timer : Bool} (hmapper : c.mapper = .mbc3 m)
    (h : Records timer log m) (addr : UInt16) (field : ClockField) :
    c.clockField? addr = some field ↔
      (enabled log = true ∧ selected timer log = field.number) ∧
        0xA000 ≤ addr.toNat ∧ addr.toNat ≤ 0xBFFF := by
  obtain ⟨-, -, -, -, hwindow⟩ := CartridgeArea.of_eq_iff addr
  rw [clockField?, hmapper, ← h.ramEnabled, ← h.selection, ← hwindow]
  have hnumber (s : Selection) : s.number = field.number ↔ s = .clock field :=
    ⟨fun hs => Selection.number_inj (t := .clock field) hs, fun hs => congrArg _ hs⟩
  rw [hnumber]
  by_cases harea : CartridgeArea.of addr = .ram
  · cases hon : m.ramEnabled <;> cases hshown : m.selection <;> simp [harea, hon, hshown]
  · split
    · next harea' _ => exact absurd harea' harea
    · simp [harea]

/-- A commit is written to the latch area and not to a register. -/
theorem not_commits_of_window {addr : UInt16} (h : 0xA000 ≤ addr.toNat) (v : UInt8) (log : Log) :
    commits (.write addr v) log = false := by
  have houtside : ¬(0x6000 ≤ addr.toNat ∧ addr.toNat ≤ 0x7FFF) := by omega
  rw [commits, Operation.writtenTo, if_neg houtside]
  rfl

theorem clockWritten_of_mbc3 (hmapper : c.mapper = .mbc3 m) (h : Records true log m)
    (addr : UInt16) (v : UInt8) (field : ClockField) :
    clockWritten field (.write addr v) log =
      if c.clockField? addr = some field then some (v &&& field.mask) else none := by
  rw [clockWritten, Operation.writtenTo]
  simp only [clockField?_of_mbc3_iff hmapper h]
  by_cases hin : 0xA000 ≤ addr.toNat ∧ addr.toNat ≤ 0xBFFF
  · simp [hin]
  · simp [hin]

/-- What an operation does to the latched registers: in a commit all of them are copied, and
otherwise at most one is written. -/
theorem latched_apply (hmapper : c.mapper = .mbc3 m) (h : Records true log m)
    (hk : c.clock? = some k) (op : Operation) :
    ∃ k', (c.apply op).clock? = some k' ∧ (commits op log = true → k'.latched = k.live) ∧
      (commits op log = false → ∀ field,
        k'.latched.get field = (clockWritten field op log).getD (k.latched.get field)) := by
  cases op with
  | step cycles =>
    refine ⟨k.step cycles, ?_, fun hcommits => ?_, fun _ field => ?_⟩
    · rw [apply, clock?_step, hk]
      rfl
    · cases hcommits
    · rw [Clock.latched_step, clockWritten, Operation.writtenTo]
      simp
  | write addr v =>
    have hwrite := clock?_write c addr v
    rw [hk, latches_of_mbc3 hmapper h] at hwrite
    cases hother : c.clockField? addr with
    | some other =>
      obtain ⟨-, hwindow, -⟩ := (clockField?_of_mbc3_iff hmapper h addr other).mp hother
      rw [hother] at hwrite
      refine ⟨k.write other v, hwrite, fun hcommits => ?_, fun _ field => ?_⟩
      · rw [not_commits_of_window hwindow] at hcommits
        cases hcommits
      · rw [clockWritten_of_mbc3 hmapper h, hother, Clock.write]
        dsimp only
        rw [ClockRegisters.get_set]
        simp only [Option.some.injEq]
        by_cases hsame : other = field
        · subst hsame
          rw [if_pos rfl, if_pos rfl]
          rfl
        · rw [if_neg hsame, if_neg hsame]
          rfl
    | none =>
      rw [hother] at hwrite
      dsimp only at hwrite
      cases hcommits : commits (.write addr v) log with
      | true =>
        rw [hcommits, if_pos rfl] at hwrite
        exact ⟨k.latch, hwrite, fun _ => rfl, fun hnot => Bool.noConfusion hnot⟩
      | false =>
        rw [hcommits] at hwrite
        refine ⟨k, hwrite, fun hnot => Bool.noConfusion hnot, fun _ field => ?_⟩
        rw [clockWritten_of_mbc3 hmapper h, hother]
        rfl

/-- Each latched register holds the newest value that it was given. -/
theorem latched_after (hkind : (Header.parse rom).kind = .mbc3)
    (htimer : (Header.parse rom).timer = true) (mode : ClockMode) (host : HostClock) (log : Log) :
    ∃ k, ((ofRom rom mode host).after log).clock? = some k ∧ ∀ field,
      k.latched.get field = (newest (latchedBy (ofRom rom mode host) field) log).getD 0 := by
  induction log with
  | nil =>
    refine ⟨.start mode host, ?_, ?_⟩
    · rw [after, clock?_ofRom, if_pos ⟨hkind, htimer⟩]
    · intro field
      cases field <;> rfl
  | cons op before ih =>
    obtain ⟨k, hk, hlatched⟩ := ih
    obtain ⟨m, hmapper, hm⟩ := mbc3_after hkind mode host before
    rw [htimer] at hm
    obtain ⟨k', hk', hcommit, hkept⟩ := latched_apply hmapper hm hk op
    refine ⟨k', hk', ?_⟩
    intro field
    rw [newest, latchedBy, hk]
    cases hcommits : commits op before with
    | true =>
      rw [hcommit hcommits, if_pos rfl]
      rfl
    | false =>
      rw [hkept hcommits, hlatched field, if_neg Bool.false_ne_true, Option.getD_or]

theorem readWindow_of_clock {timer : Bool} (hmapper : c.mapper = .mbc3 m)
    (h : Records timer log m) (hk : c.clock? = some k) (hon : enabled log = true)
    {field : ClockField} (hselected : selected timer log = field.number) (addr : UInt16) :
    c.readWindow addr = k.latched.get field := by
  have henabled : m.ramEnabled = true := h.ramEnabled.trans hon
  have hselection : m.selection = .clock field :=
    Selection.number_inj (h.selection.trans hselected)
  have hclock : m.clock = some k := by
    rw [clock?, hmapper] at hk
    exact hk
  rw [readWindow, hmapper, Mapper.ramCell?, henabled, hselection]
  simp only [Mapper.windowDefault, henabled, hselection, hclock]
  rfl

theorem Alike.refl (hmapper : c.mapper = .mbc3 m) (hk : c.clock? = some k) : Alike c c := by
  obtain ⟨rom, ram, mapper⟩ := c
  obtain ⟨romBank, ramEnabled, selection, latchArmed, clock⟩ := m
  obtain rfl : mapper = _ := hmapper
  obtain rfl : clock = some k := hk
  exact .intro rom ram ⟨romBank, ramEnabled, selection, latchArmed, none⟩ rfl

theorem Alike.step (h : Alike c d) (cycles : Nat) : Alike (c.step cycles) d := by
  obtain ⟨rom, ram, m, hlatched⟩ := h
  exact .intro rom ram m (hlatched.trans (Clock.latched_step _ cycles).symm)

/-- What is written to cartridges that are alike is the same on both, unless it commits. -/
theorem Alike.write (h : Alike c d) {addr : UInt16} {v : UInt8}
    (huncommitted : c.latches addr v = false) : Alike (c.write addr v) (d.write addr v) := by
  obtain ⟨rom, ram, m, hlatched⟩ := h
  unfold Cartridge.write
  cases harea : CartridgeArea.of addr with
  | ramEnable =>
    simp only [Mapper.write, Mbc3.write, harea]
    exact .intro rom ram { m with ramEnabled := enablesRam v } hlatched
  | romBank =>
    simp only [Mapper.write, Mbc3.write, harea]
    exact .intro rom ram { m with romBank := nonzeroBank (v &&& 0x7F) } hlatched
  | selection =>
    simp only [Mapper.write, Mbc3.write, harea]
    exact .intro rom ram { m with selection := (selection? true v).getD m.selection } hlatched
  | latch =>
    have hdisarmed : ¬(v = 1 ∧ m.latchArmed = true) := by
      simpa [latches, harea] using huncommitted
    simp only [Mapper.write, Mbc3.write, harea, writeLatch, if_neg hdisarmed]
    exact .intro rom ram { m with latchArmed := v == 0 } hlatched
  | ram =>
    obtain ⟨romBank, ramEnabled, selection, latchArmed, clock⟩ := m
    cases ramEnabled with
    | false =>
      simp only [Mapper.write, Mbc3.write, harea, writeClock, Mapper.ramCell?]
      exact .intro rom ram ⟨romBank, false, selection, latchArmed, clock⟩ hlatched
    | true =>
      cases selection with
      | ram bank =>
        simp only [Mapper.ramCell?, setRamByte]
        split
        · exact .intro rom _ ⟨romBank, true, .ram bank, latchArmed, clock⟩ hlatched
        · exact .intro rom ram ⟨romBank, true, .ram bank, latchArmed, clock⟩ hlatched
      | clock field =>
        simp only [Mapper.write, Mbc3.write, harea, writeClock, Mapper.ramCell?, Option.map_some]
        refine .intro rom ram ⟨romBank, true, .clock field, latchArmed, clock⟩ ?_
        rw [Clock.write, Clock.write, hlatched]
  | none =>
    simp only [Mapper.write, Mbc3.write, harea]
    exact .intro rom ram m hlatched

theorem Alike.readWindow (h : Alike c d) (addr : UInt16) :
    c.readWindow addr = d.readWindow addr := by
  obtain ⟨rom, ram, ⟨romBank, ramEnabled, selection, latchArmed, clock⟩, hlatched⟩ := h
  cases ramEnabled with
  | false => rfl
  | true =>
    cases selection with
    | ram bank => rfl
    | clock field =>
      change Clock.read _ field = Clock.read _ field
      rw [Clock.read, Clock.read, hlatched]

theorem Alike.read (h : Alike c d) (addr : UInt16) : c.read addr = d.read addr := by
  have hwindow := h.readWindow addr
  obtain ⟨rom, ram, m, hlatched⟩ := h
  unfold Cartridge.read
  rw [hwindow]
  rfl

/-- Where nothing is committed, it does not matter how much time passes. -/
theorem alike_writes (hkind : (Header.parse rom).kind = .mbc3)
    (htimer : (Header.parse rom).timer = true) (mode : ClockMode) (host : HostClock) (log : Log)
    {later : Log} (h : uncommitted later log = true) :
    Alike ((ofRom rom mode host).after (later ++ log))
      ((ofRom rom mode host).after (writes later ++ log)) := by
  induction later with
  | nil =>
    obtain ⟨k, hk, -⟩ := latched_after hkind htimer mode host log
    obtain ⟨m, hmapper, -⟩ := mbc3_after hkind mode host log
    exact .refl hmapper hk
  | cons op before ih =>
    obtain ⟨hop, hbefore⟩ := Bool.and_eq_true_iff.mp h
    have halike := ih hbefore
    -- a step is made on the left side only, a write on both
    cases op with
    | step cycles => exact halike.step cycles
    | write addr v =>
      obtain ⟨m, hmapper, hm⟩ := mbc3_after hkind mode host (before ++ log)
      refine halike.write ?_
      rw [latches_of_mbc3 hmapper hm]
      exact Bool.not_eq_true' _ |>.mp hop

/-- The clock of a cartridge is read as it was at the last commit. After any log each latched
register holds the newest of what the commits copied and of what was written to it. A commit
copies all registers at once, whether or not the RAM is enabled, and no other operation changes a
latched register that it does not write. Reads of a selected register give the latched one, and
between two commits no time that passes is seen. -/
theorem clock_reads_committed (hkind : (Header.parse rom).kind = .mbc3)
    (htimer : (Header.parse rom).timer = true) (mode : ClockMode) (host : HostClock) (log : Log) :
    let start := ofRom rom mode host
    let c := start.after log
    ∃ k, c.clock? = some k ∧
      (∀ field, k.latched.get field = (newest (latchedBy start field) log).getD 0) ∧
      (∀ op, ∃ k', (c.apply op).clock? = some k' ∧
        (commits op log = true → k'.latched = k.live) ∧
        (commits op log = false → ∀ field,
          k'.latched.get field = (clockWritten field op log).getD (k.latched.get field))) ∧
      (∀ field, enabled log = true → selected true log = field.number → ∀ offset < 0x2000,
        c.read (.ofNat (0xA000 + offset)) = k.latched.get field) ∧
      ∀ later, uncommitted later log = true → ∀ addr,
        (start.after (later ++ log)).read addr = (start.after (writes later ++ log)).read addr := by
  intro start c
  obtain ⟨k, hk, hlatched⟩ := latched_after hkind htimer mode host log
  obtain ⟨m, hmapper, hm⟩ := mbc3_after hkind mode host log
  rw [htimer] at hm
  refine ⟨k, hk, hlatched, latched_apply hmapper hm hk, ?_, ?_⟩
  · intro field hon hselected offset hoffset
    rw [read_window c hoffset]
    exact readWindow_of_clock hmapper hm hk hon hselected _
  · intro later huncommitted addr
    exact (alike_writes hkind htimer mode host log huncommitted).read addr

/-- Five seconds are committed before the RAM is enabled and the seconds are selected. -/
def committedLog : Log :=
  [.write 0x4000 0x08, .write 0x0000 0x0A, .write 0x6000 0x01, .write 0x7FFF 0x00, .step 20971520]

/-- Time passes around a one that commits nothing. -/
def uncommittedLog : Log := [.step 8388608, .write 0x6000 0x01, .step 4194304]

/-- The seconds stay as they were committed, and the minutes are those that are written. -/
theorem clock_reads_committed_stepped :
    let start := timerCartridge .emulated
    (start.after (uncommittedLog ++ committedLog)).read 0xA000 = 5 ∧
      (start.after (writes uncommittedLog ++ committedLog)).read 0xA000 = 5 ∧
      (start.after (.write 0xA000 0x7F :: .write 0x4000 0x09 :: committedLog)).read 0xBFFF = 0x3F := by
  obtain ⟨hkind, htimer⟩ := header_timerRom
  obtain ⟨-, -, -, -, -, hsame⟩ :=
    clock_reads_committed hkind htimer .emulated (.fixed 0) committedLog
  obtain ⟨k, -, hseconds, -, hread, -⟩ :=
    clock_reads_committed hkind htimer .emulated (.fixed 0) (uncommittedLog ++ committedLog)
  have hfive := hread .seconds (by decide) (by decide) 0 (by decide)
  rw [hseconds] at hfive
  obtain ⟨k', -, hminutes, -, hread', -⟩ :=
    clock_reads_committed hkind htimer .emulated (.fixed 0)
      (.write 0xA000 0x7F :: .write 0x4000 0x09 :: committedLog)
  have hwritten := hread' .minutes (by decide) (by decide) 0x1FFF (by decide)
  rw [hminutes] at hwritten
  refine ⟨hfive.trans ?_, (hsame uncommittedLog (by decide) 0xA000).symm.trans (hfive.trans ?_),
    hwritten.trans ?_⟩
  all_goals decide +kernel

end Cartridge

end Handheld
