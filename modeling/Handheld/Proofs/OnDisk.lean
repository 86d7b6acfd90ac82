import Handheld.Disk
import Handheld.Program
import Handheld.Proofs.Carried
import Handheld.Proofs.WrittenFile

/-!
Sessions and the program on a disk. What is opened is determined by the files that are read, and
only writing a save changes the disk. The program writes one after a run that has succeeded, if
the session has a place for it.
-/
namespace Handheld

namespace Session

/-- What an action of a session gives on a disk, and the disk that it leaves. -/
def onDisk {α : Type} (act : ExceptT SessionError (StateM Disk) α) (d : Disk) :
    Except SessionError α × Disk :=
  Id.run (StateT.run (ExceptT.run act) d)

theorem onDisk_bind {α β : Type} (act : ExceptT SessionError (StateM Disk) α)
    (next : α → ExceptT SessionError (StateM Disk) β) (d : Disk) :
    onDisk (act >>= next) d =
      match onDisk act d with
      | (.ok a, d') => onDisk (next a) d'
      | (.error e, d') => (.error e, d') := by
  unfold onDisk
  rw [ExceptT.run_bind, StateT.run_bind, Id.run_bind]
  cases Id.run (StateT.run (ExceptT.run act) d) with
  | mk result d' => cases result <;> rfl

theorem onDisk_liftM {α : Type} (act : StateM Disk α) (d : Disk) :
    onDisk (liftM act) d = (.ok (Id.run (act.run d)).1, (Id.run (act.run d)).2) := rfl

theorem onDisk_readFile (path : String) (failure : FileError → SessionError) (d : Disk) :
    onDisk (readFile path failure) d = ((d.read path).mapError failure, d) := by
  have hread : Id.run ((FileSystem.read path : StateM Disk _).run d) = (d.read path, d) := rfl
  rw [readFile, onDisk_bind, onDisk_liftM, hread]
  cases d.read path <;> rfl

/-- The console with the save at a path restored. -/
def restored (d : Disk) (c : Console) (path : String) : Except SessionError Console :=
  if d.isPresent path then
    match d.read path with
    | .ok data => (c.load data).mapError (.misfit path)
    | .error e => .error (.readSave path e)
  else .ok c

/-- The session that a ROM on a disk is opened as. -/
def opened (d : Disk) (romPath : String) (cfg : RunConfig) (saveOverride : Option String)
    (host : HostClock) : Except SessionError Session :=
  match d.read romPath with
  | .ok rom =>
    match savePathOf cfg saveOverride romPath rom with
    | none => .ok ⟨consoleOf cfg rom host, none⟩
    | some path => (restored d (consoleOf cfg rom host) path).map (⟨·, some path⟩)
  | .error e => .error (.readRom romPath e)

theorem onDisk_restore (d : Disk) (c : Console) (path : String) :
    onDisk (restore c path) d = (restored d c path, d) := by
  have hpresent : Id.run ((FileSystem.isPresent path : StateM Disk _).run d) =
      (d.isPresent path, d) := rfl
  rw [restore, onDisk_bind, onDisk_liftM, hpresent, restored]
  cases d.isPresent path with
  | false => rfl
  | true =>
    dsimp only
    rw [if_pos rfl, onDisk_bind, onDisk_readFile]
    cases d.read path with
    | error e => rfl
    | ok data =>
      dsimp only [Except.mapError]
      cases c.load data <;> rfl

/-- Opening a session changes nothing on the disk. -/
theorem onDisk_openRom (d : Disk) (romPath : String) (cfg : RunConfig)
    (saveOverride : Option String) (host : HostClock) :
    onDisk (openRom romPath cfg saveOverride host) d =
      (opened d romPath cfg saveOverride host, d) := by
  rw [openRom, onDisk_bind, onDisk_readFile, opened]
  cases d.read romPath with
  | error e => rfl
  | ok rom =>
    dsimp only [Except.mapError]
    cases savePathOf cfg saveOverride romPath rom with
    | none => rfl
    | some path =>
      dsimp only
      rw [onDisk_bind, onDisk_restore]
      cases restored d (consoleOf cfg rom host) path <;> rfl

/-- Without a save path nothing is written. -/
theorem onDisk_writeSave_of_none {s : Session} (h : s.savePath = none) (d : Disk) :
    onDisk s.writeSave d = (.ok (), d) := by
  rw [writeSave, h]
  rfl

theorem onDisk_writeSave {s : Session} {path : String} {d d' : Disk} (h : s.savePath = some path)
    (hsize : s.console.save.size ≠ 0) (hwrite : d.write path s.console.save = .ok d') :
    onDisk s.writeSave d = (.ok (), d') := by
  rw [writeSave, h]
  dsimp only
  rw [if_neg hsize, onDisk_bind, onDisk_liftM]
  have hrun : Id.run ((FileSystem.write path s.console.save : StateM Disk _).run d) =
      (.ok (), d') := by
    simp [FileSystem.write, hwrite]
  rw [hrun]
  rfl

variable {rom : ByteArray} {romPath path : String} {cfg : RunConfig} {saveOverride : Option String}
  {host : HostClock} {d : Disk}

theorem cartridge?_consoleOf :
    (consoleOf cfg rom host).cartridge? = some (.ofRom rom cfg.clockMode host) := rfl

theorem carries_consoleOf : (consoleOf cfg rom host).Carries rom cfg.clockMode :=
  ⟨_, cartridge?_consoleOf, .ofRom host⟩

/-- A console takes over the save that its cartridge accepts. -/
theorem load_consoleOf {data : ByteArray} {c : Cartridge}
    (h : (Cartridge.ofRom rom cfg.clockMode host).load data = .ok c) :
    ∃ console, (consoleOf cfg rom host).load data = .ok console ∧ console.cartridge? = some c := by
  refine ⟨{ consoleOf cfg rom host with
    core := { (consoleOf cfg rom host).core with
      bus := (consoleOf cfg rom host).core.bus.insert c } }, ?_, rfl⟩
  rw [Console.load, cartridge?_consoleOf]
  dsimp only
  rw [h]
  rfl

theorem restored_of_missing (h : d.isPresent path = false) (c : Console) :
    restored d c path = .ok c := by
  rw [restored, h, if_neg Bool.false_ne_true]

theorem restored_of_read {data : ByteArray} {c c' : Console} (h : d.read path = .ok data)
    (hload : c.load data = .ok c') : restored d c path = .ok c' := by
  rw [restored, Disk.isPresent_of_read h, if_pos rfl, h]
  dsimp only
  rw [hload]
  rfl

theorem opened_of_restored {console : Console} (hrom : d.read romPath = .ok rom)
    (hpath : savePathOf cfg saveOverride romPath rom = some path)
    (hrestored : restored d (consoleOf cfg rom host) path = .ok console) :
    opened d romPath cfg saveOverride host = .ok ⟨console, some path⟩ := by
  rw [opened, hrom]
  dsimp only
  rw [hpath]
  dsimp only
  rw [hrestored]
  rfl

theorem opened_of_no_battery (hrom : d.read romPath = .ok rom)
    (hbattery : (Header.parse rom).battery = false) :
    opened d romPath cfg saveOverride host = .ok ⟨consoleOf cfg rom host, none⟩ := by
  rw [opened, hrom]
  dsimp only
  rw [savePathOf, hbattery, if_neg Bool.false_ne_true]

end Session

namespace Program

/-- The settings of accepted options on a disk. -/
def settingsOf (d : Disk) (o : Options) : RunConfig :=
  match o.config with
  | none => o.merge .standard
  | some path => o.merge (.ofFile (d.read path).toOption)

/-- The outcome of the program on a disk, and the disk that it leaves. -/
def onDisk (host : HostClock) (o : Options) (d : Disk) : Outcome × Disk :=
  Id.run (StateT.run (runOptions runAtOnce host o) d)

/-- The same where the settings are given. -/
def onDiskWith (host : HostClock) (o : Options) (cfg : RunConfig) (d : Disk) : Outcome × Disk :=
  Id.run (StateT.run (runWith runAtOnce host o cfg) d)

theorem run_settings (o : Options) (d : Disk) :
    Id.run (StateT.run (settings o) d) = (settingsOf d o, d) := by
  unfold settings settingsOf
  cases o.config with
  | none => rfl
  | some path => rfl

theorem onDisk_eq (host : HostClock) (o : Options) (d : Disk) :
    onDisk host o d = onDiskWith host o (settingsOf d o) d := by
  unfold onDisk runOptions onDiskWith
  rw [StateT.run_bind, Id.run_bind, run_settings]

theorem onDiskWith_eq (host : HostClock) (o : Options) (cfg : RunConfig) (d : Disk) :
    onDiskWith host o cfg d =
      match Session.opened d o.rom cfg o.save host with
      | .error e => (fail "" e, d)
      | .ok s =>
        match s.run cfg.frames cfg.stopOnBreak with
        | (.error e, _) => (fail "" e, d)
        | (.ok done, s) => Id.run (StateT.run (finish o.debug cfg.frames done s) d) := by
  have hopen := Session.onDisk_openRom d o.rom cfg o.save host
  unfold Session.onDisk at hopen
  unfold onDiskWith runWith
  rw [StateT.run_bind, Id.run_bind, hopen]
  dsimp only
  cases Session.opened d o.rom cfg o.save host with
  | error e => rfl
  | ok s =>
    dsimp only
    rw [runAtOnce, pure_bind]
    cases s.run cfg.frames cfg.stopOnBreak with
    | mk result s' => cases result <;> rfl

theorem finish_of_no_savePath {s : Session} (h : s.savePath = none) (debug : Bool) (frames : Nat)
    (done : Summary) (d : Disk) :
    (Id.run (StateT.run (finish debug frames done s) d)).2 = d := by
  have hwrite := Session.onDisk_writeSave_of_none h d
  unfold Session.onDisk at hwrite
  unfold finish
  rw [StateT.run_bind, Id.run_bind, hwrite]
  rfl

theorem onDiskWith_of_no_savePath {host : HostClock} {o : Options} {cfg : RunConfig} {d : Disk}
    {s : Session} (hopened : Session.opened d o.rom cfg o.save host = .ok s)
    (hpath : s.savePath = none) : (onDiskWith host o cfg d).2 = d := by
  rw [onDiskWith_eq, hopened]
  dsimp only
  cases hrun : s.run cfg.frames cfg.stopOnBreak with
  | mk result s' =>
    cases result with
    | error e => rfl
    | ok done => exact finish_of_no_savePath ((Session.run_eq_ok hrun).2.trans hpath) _ _ _ _

end Program

end Handheld
