import Handheld.Proofs.Cartridge.SaveForm
import Handheld.Proofs.OnDisk

/-!
Progress survives closing and opening again. A session that is opened on a disk restores the save
of its cartridge, and writing it back hands RAM and clock on to every session that is opened
later. A save in canonical form on which nothing has run is written back as it was. Where opening
or running fails, or the cartridge has no battery, the disk stays as it is.
-/
namespace Handheld

namespace Session

variable {rom : ByteArray} {romPath path : String} {cfg : RunConfig} {saveOverride : Option String}
  {host : HostClock} {d : Disk}

/-- A ROM on a disk whose cartridge has a battery and something to save. The save is kept at a
path that leads to another file, which can be written, and which is missing or fits. -/
structure Keeps (d : Disk) (romPath : String) (cfg : RunConfig) (saveOverride : Option String)
    (host : HostClock) (rom : ByteArray) (path : String) : Prop where
  rom_eq : d.read romPath = .ok rom
  battery : (Header.parse rom).battery = true
  stores : (Cartridge.ofRom rom cfg.clockMode host).hasRam = true ∨
    (Cartridge.ofRom rom cfg.clockMode host).clock?.isSome = true
  path_eq : saveOverride.getD (cfg.savePath romPath) = path
  apart : d.resolve romPath ≠ d.resolve path
  save : (d.isPresent path = false ∧ ∃ place, d.writePlace path = .ok place) ∨
    ∃ data c, d.read path = .ok data ∧ (Cartridge.ofRom rom cfg.clockMode host).load data = .ok c

theorem savePathOf_of_battery (hbattery : (Header.parse rom).battery = true)
    (hpath : saveOverride.getD (cfg.savePath romPath) = path) :
    savePathOf cfg saveOverride romPath rom = some path := by
  rw [savePathOf, if_pos hbattery, hpath]

/-- The session opens, and its cartridge is that of the ROM. -/
theorem Keeps.opens (h : Keeps d romPath cfg saveOverride host rom path) :
    ∃ console, opened d romPath cfg saveOverride host = .ok ⟨console, some path⟩ ∧
      console.Carries rom cfg.clockMode := by
  have hpath := savePathOf_of_battery h.battery h.path_eq
  obtain ⟨hmissing, -⟩ | ⟨data, c, hread, hload⟩ := h.save
  · exact ⟨_, opened_of_restored h.rom_eq hpath (restored_of_missing hmissing _),
      carries_consoleOf⟩
  · obtain ⟨console, hconsole, hc⟩ := load_consoleOf hload
    exact ⟨console, opened_of_restored h.rom_eq hpath (restored_of_read hread hconsole), c, hc,
      .load (.ofRom host) data hload⟩

theorem Keeps.writable (h : Keeps d romPath cfg saveOverride host rom path)
    (content : ByteArray) : ∃ d', d.write path content = .ok d' := by
  have hplace : ∃ place, d.writePlace path = .ok place := by
    obtain ⟨-, hplace⟩ | ⟨data, -, hread, -⟩ := h.save
    · exact hplace
    · exact Disk.writePlace_of_read hread
  obtain ⟨place, hplace⟩ := hplace
  refine ⟨d.put place (.file content), ?_⟩
  rw [Disk.write, hplace]
  rfl

/-- A session that holds a cartridge of the ROM writes its save. -/
theorem Keeps.writes (h : Keeps d romPath cfg saveOverride host rom path) {s : Session}
    {c : Cartridge} (hpath : s.savePath = some path) (hc : s.console.cartridge? = some c)
    (hreachable : Cartridge.Reachable rom cfg.clockMode c) :
    ∃ d', onDisk s.writeSave d = (.ok (), d') ∧ d.write path c.save = .ok d' := by
  obtain ⟨d', hwrite⟩ := h.writable c.save
  have hsave : s.console.save = c.save := by rw [Console.save, hc]
  have hsize : c.save.size ≠ 0 :=
    Cartridge.size_save_ne_zero (hreachable.sameBoard cfg.clockMode host) h.stores
  exact ⟨d', onDisk_writeSave hpath (hsave ▸ hsize) (hsave ▸ hwrite), hwrite⟩

/-- A session opens with a cartridge that has the RAM, the clock registers and the timestamp of
another. -/
def OpensAs (d : Disk) (romPath : String) (cfg : RunConfig) (saveOverride : Option String)
    (host : HostClock) (c : Cartridge) : Prop :=
  ∃ s c', onDisk (openRom romPath cfg saveOverride host) d = (.ok s, d) ∧
    s.console.cartridge? = some c' ∧ c'.ram = c.ram ∧
    c'.clock?.map Clock.record = c.clock?.map Clock.record

/-- Where the save of a cartridge is, its state is restored whenever the ROM is opened. -/
theorem opensAs_of_save (hrom : d.read romPath = .ok rom)
    (hpath : savePathOf cfg saveOverride romPath rom = some path) {c : Cartridge}
    (hreachable : Cartridge.Reachable rom cfg.clockMode c) (hsave : d.read path = .ok c.save)
    (host : HostClock) : OpensAs d romPath cfg saveOverride host c := by
  obtain ⟨c', hload, hram, hrecord⟩ :=
    Cartridge.load_save (hreachable.sameBoard cfg.clockMode host)
      fun k hk => ⟨(hreachable.sound hk).live, (hreachable.sound hk).latched⟩
  obtain ⟨console, hconsole, hc'⟩ := load_consoleOf hload
  refine ⟨⟨console, some path⟩, c', ?_, hc', hram, hrecord⟩
  rw [onDisk_openRom, opened_of_restored hrom hpath (restored_of_read hsave hconsole)]

/-- An accepted save that is canonical is written back as it was. -/
theorem Keeps.writes_same (h : Keeps d romPath cfg saveOverride host rom path) {s : Session}
    (hopened : opened d romPath cfg saveOverride host = .ok s) {data : ByteArray}
    (hread : d.read path = .ok data)
    (hcanonical : (Cartridge.ofRom rom cfg.clockMode host).IsCanonical data) :
    ∃ d', onDisk s.writeSave d = (.ok (), d') ∧ d'.read path = .ok data ∧
      ∀ place, d'.node? place = d.node? place := by
  obtain ⟨hmissing, -⟩ | ⟨data', c, hread', hload⟩ := h.save
  · rw [Disk.isPresent_of_read hread] at hmissing
    cases hmissing
  · obtain rfl := Except.ok.inj (hread.symm.trans hread')
    obtain ⟨console, hconsole, hc⟩ := load_consoleOf hload
    have hpath := savePathOf_of_battery h.battery h.path_eq
    have hsession := opened_of_restored h.rom_eq hpath (restored_of_read hread hconsole)
    obtain rfl := Except.ok.inj (hopened.symm.trans hsession)
    obtain ⟨d', hwritten, hwrite⟩ :
        ∃ d', onDisk (writeSave ⟨console, some path⟩) d = (.ok (), d') ∧
          d.write path c.save = .ok d' := h.writes rfl hc (.load (.ofRom host) data hload)
    have hsame : c.save = data := by
      obtain ⟨hle, hlength, rfl⟩ := Cartridge.load_eq_ok_iff.mp hload
      rw [Cartridge.save_loaded hlength]
      exact (Cartridge.canonicalForm_eq_self_iff hle hlength).mpr hcanonical
    rw [hsame] at hwrite
    exact ⟨d', hwritten, Disk.read_write hwrite, Disk.node?_of_write_same hwrite hread⟩

/-- Progress survives closing and opening again. From a ROM that keeps a save a session opens, and
after runs that succeed its save is written: the file holds the save of the cartridge, other
files are read as before, and whenever the ROM is opened again the RAM, the clock registers and
the timestamp are back. A canonical save that nothing has run on stays as it is, and so does the
disk where opening or running fails or the cartridge has no battery. This holds of the program
under whatever settings, and it runs under those that it has read. -/
theorem progress_survives :
    (∀ d romPath cfg saveOverride host rom path,
      Keeps d romPath cfg saveOverride host rom path →
      ∃ s, onDisk (openRom romPath cfg saveOverride host) d = (.ok s, d) ∧
        s.savePath = some path ∧
        (∀ runs summaries s', s.runAll runs = (.ok summaries, s') →
          ∃ c d', s'.console.cartridge? = some c ∧ onDisk s'.writeSave d = (.ok (), d') ∧
            d'.read path = .ok c.save ∧
            (∀ other found, d.resolve other ≠ d.resolve path → d.read other = .ok found →
              d'.read other = .ok found) ∧
            ∀ host', OpensAs d' romPath cfg saveOverride host' c) ∧
        ∀ data, d.read path = .ok data →
          (Cartridge.ofRom rom cfg.clockMode host).IsCanonical data →
          ∃ d', onDisk s.writeSave d = (.ok (), d') ∧ d'.read path = .ok data ∧
            ∀ place, d'.node? place = d.node? place) ∧
    (∀ d romPath cfg saveOverride host s,
      onDisk (openRom romPath cfg saveOverride host) d = (.ok s, d) →
      ∀ rom, d.read romPath = .ok rom → (Header.parse rom).battery = false →
      ∀ runs summaries s', s.runAll runs = (.ok summaries, s') →
        onDisk s'.writeSave d = (.ok (), d)) ∧
    (∀ (d : Disk) (host : HostClock) (o : Options) (cfg : RunConfig),
      let result := onDisk (openRom o.rom cfg o.save host) d
      result.2 = d ∧
      (∀ e, result.1 = .error e → Program.onDiskWith host o cfg d = (Program.fail "" e, d)) ∧
      ∀ s, result.1 = .ok s →
        (∀ e s', s.run cfg.frames cfg.stopOnBreak = (.error e, s') →
          Program.onDiskWith host o cfg d = (Program.fail "" e, d)) ∧
        ∀ rom, d.read o.rom = .ok rom → (Header.parse rom).battery = false →
          (Program.onDiskWith host o cfg d).2 = d) ∧
    ∀ (d : Disk) (host : HostClock) (o : Options),
      Program.onDisk host o d = Program.onDiskWith host o (Program.settingsOf d o) d := by
  refine ⟨?_, ?_, ?_, fun d host o => Program.onDisk_eq host o d⟩
  · intro d romPath cfg saveOverride host rom path h
    obtain ⟨console, hopened, hcarries⟩ := h.opens
    refine ⟨⟨console, some path⟩, by rw [onDisk_openRom, hopened], rfl, ?_, ?_⟩
    · intro runs summaries s' hruns
      obtain ⟨⟨c, hc, hreachable⟩, hpath⟩ := carries_runAll hcarries hruns
      obtain ⟨d', hwritten, hwrite⟩ := h.writes hpath hc hreachable
      have hsave : d'.read path = .ok c.save := Disk.read_write hwrite
      have hothers : ∀ other found, d.resolve other ≠ d.resolve path →
          d.read other = .ok found → d'.read other = .ok found :=
        fun other found hne hfound => Disk.read_of_write hwrite hfound hne
      refine ⟨c, d', hc, hwritten, hsave, hothers, ?_⟩
      exact opensAs_of_save (hothers romPath rom h.apart h.rom_eq)
        (savePathOf_of_battery h.battery h.path_eq) hreachable hsave
    · intro data hread hcanonical
      exact h.writes_same hopened hread hcanonical
  · intro d romPath cfg saveOverride host s hopen rom hrom hbattery runs summaries s' hruns
    rw [onDisk_openRom, opened_of_no_battery hrom hbattery] at hopen
    obtain rfl := Except.ok.inj (Prod.mk.inj hopen).1
    obtain ⟨-, hpath⟩ := carries_runAll carries_consoleOf hruns
    exact onDisk_writeSave_of_none hpath d
  · intro d host o cfg result
    have hresult : result.1 = opened d o.rom cfg o.save host :=
      congrArg Prod.fst (onDisk_openRom d o.rom _ o.save host)
    refine ⟨congrArg Prod.snd (onDisk_openRom d o.rom _ o.save host), ?_, ?_⟩
    · intro e he
      rw [Program.onDiskWith_eq, ← hresult, he]
    · intro s hs
      rw [hresult] at hs
      refine ⟨?_, ?_⟩
      · intro e s' hrun
        rw [Program.onDiskWith_eq, hs]
        dsimp only
        rw [hrun]
      · intro rom hrom hbattery
        refine Program.onDiskWith_of_no_savePath hs ?_
        rw [opened_of_no_battery hrom hbattery] at hs
        exact Except.ok.inj hs ▸ rfl

/-- A ROM with a battery and 2 KiB of RAM. Its program enables the RAM and writes to it. -/
def scribblingRom : ByteArray :=
  ⟨(List.replicate 0x100 0 ++
    [0x3E, 0x0A, 0xEA, 0x00, 0x00, 0x3E, 0x99, 0xEA, 0x00, 0xA0] ++
    List.replicate 0x3D 0 ++ [0x03, 0, 0x01] : List UInt8).toArray⟩

/-- A disk with that ROM and an empty save. -/
def shelf : Disk where
  nodes := [(["game.gb"], .file scribblingRom),
    (["game.sav"], .file ⟨Array.replicate 0x800 0⟩)]

/-- Settings with a breakpoint after the write. -/
def shelfSettings : RunConfig := { RunConfig.standard with breakpoints := [0x010A] }

theorem rom_shelf : shelf.read "game.gb" = .ok scribblingRom :=
  Disk.read_eq_ok_iff.mpr ⟨["game.gb"], by decide +kernel, rfl⟩

theorem save_shelf : shelf.read "game.sav" = .ok ⟨Array.replicate 0x800 0⟩ :=
  Disk.read_eq_ok_iff.mpr ⟨["game.sav"], by decide +kernel, rfl⟩

theorem ofRom_scribblingRom (mode : ClockMode) (host : HostClock) :
    Cartridge.ofRom scribblingRom mode host =
      ⟨scribblingRom, ⟨Array.replicate 0x800 0⟩, .mbc1 .powerOn⟩ := by
  have hkind : (Header.parse scribblingRom).kind = .mbc1 := by decide +kernel
  have hsize : (Header.parse scribblingRom).ramSize = 0x800 := by decide +kernel
  unfold Cartridge.ofRom
  dsimp only
  rw [hkind, hsize]
  rfl

theorem load_shelf (mode : ClockMode) (host : HostClock) :
    (Cartridge.ofRom scribblingRom mode host).load ⟨Array.replicate 0x800 0⟩ =
      .ok (.ofRom scribblingRom mode host) := by
  rw [ofRom_scribblingRom]
  exact Cartridge.load_ram rfl

theorem keeps_shelf :
    Keeps shelf "game.gb" shelfSettings none (.fixed 0) scribblingRom "game.sav" where
  rom_eq := rom_shelf
  battery := by decide +kernel
  stores := .inl (by decide +kernel)
  path_eq := by decide +kernel
  apart := by decide +kernel
  save := .inr ⟨_, _, save_shelf, load_shelf .wall (.fixed 0)⟩

/-- The console on which the program is about to start. -/
def shelfConsole : Console := consoleOf shelfSettings scribblingRom (.fixed 0)

theorem opened_shelf :
    opened shelf "game.gb" shelfSettings none (.fixed 0) = .ok ⟨shelfConsole, some "game.sav"⟩ := by
  refine opened_of_restored rom_shelf
    (savePathOf_of_battery keeps_shelf.battery keeps_shelf.path_eq) ?_
  refine restored_of_read save_shelf ?_
  rw [Console.load, cartridge?_consoleOf]
  dsimp only
  rw [load_shelf]
  rfl

/-- The processor at the breakpoint. -/
def shelfStop : Core Lcd Sound := (shelfConsole.core.runFrame shelfConsole.breakpoints).2

/-- The session after a run up to there. -/
def shelfAfter : Session :=
  ⟨{ shelfConsole with core := shelfStop, pausedAt := some 0x010A }, some "game.sav"⟩

theorem run_shelf :
    run 1 true ⟨shelfConsole, some "game.sav"⟩ =
      (.ok ⟨0, #[⟨0x010A, shelfStop.cpu.debugText⟩], true⟩, shelfAfter) := by
  have hstop : (shelfConsole.core.runFrame shelfConsole.breakpoints).1 = .ok (some 0x010A) := by
    decide +kernel
  have hrun : shelfConsole.core.runFrame shelfConsole.breakpoints =
      (.ok (some 0x010A), shelfStop) := Prod.ext hstop rfl
  have hturn : Console.turn true .start shelfConsole =
      (.ok ⟨0, #[⟨0x010A, shelfStop.cpu.debugText⟩], true⟩, shelfAfter.console) := by
    have hpaused : shelfConsole.pausedAt = none := rfl
    simp only [Console.turn, Console.runFrame, hpaused, hrun]
    rfl
  apply run_of_console
  rw [Console.run, Console.runFrom_of_turn rfl hturn, Console.runFrom_of_isOver rfl]
  rfl

/-- The byte that was written in the run is in the save and comes back years later. Without the
run the save stays as it was, and without the ROM nothing is opened. -/
theorem progress_survives_shelf :
    (∃ c d', c.ram.get! 0 = 0x99 ∧ onDisk shelfAfter.writeSave shelf = (.ok (), d') ∧
      d'.read "game.sav" = .ok c.save ∧ d'.read "game.gb" = .ok scribblingRom ∧
      OpensAs d' "game.gb" shelfSettings none (.fixed 1000000000) c) ∧
    (∃ d', onDisk (writeSave ⟨shelfConsole, some "game.sav"⟩) shelf = (.ok (), d') ∧
      ∀ place, d'.node? place = shelf.node? place) ∧
    Program.onDisk (.fixed 0) ⟨"game.gb", none, [], none, none, none, false, false⟩ .empty =
      (Program.fail "" (.readRom "game.gb" .notFound), .empty) := by
  obtain ⟨hkept, -, hfailed, hprogram⟩ := progress_survives
  obtain ⟨s, hopen, -, hruns, hcanonical⟩ := hkept _ _ _ _ _ _ _ keeps_shelf
  rw [onDisk_openRom, opened_shelf] at hopen
  obtain rfl := Except.ok.inj (Prod.mk.inj hopen).1
  refine ⟨?_, ?_, ?_⟩
  · obtain ⟨c, d', hc, hwritten, hsave, hothers, hopens⟩ :=
      hruns _ _ _ (runAll_singleton run_shelf)
    have hbyte : shelfAfter.console.cartridge?.map (·.ram.get! 0) = some 0x99 := by
      decide +kernel
    rw [hc] at hbyte
    exact ⟨c, d', Option.some.inj hbyte, hwritten, hsave,
      hothers _ _ keeps_shelf.apart rom_shelf, hopens _⟩
  · have hclock : (Cartridge.ofRom scribblingRom shelfSettings.clockMode (.fixed 0)).IsCanonical
        ⟨Array.replicate 0x800 0⟩ := by
      rw [ofRom_scribblingRom]
      exact nofun
    obtain ⟨d', hwritten, -, hsame⟩ := hcanonical _ save_shelf hclock
    exact ⟨d', hwritten, hsame⟩
  · rw [hprogram]
    exact (hfailed .empty (.fixed 0) _ _).2.1 _ (congrArg Prod.fst (onDisk_openRom _ _ _ _ _))

end Session

end Handheld
