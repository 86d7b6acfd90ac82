import Handheld.Cartridge.Clock
import Handheld.Path
import Handheld.Toml.Document

/-!
The settings of a run and the configuration file that holds them. A file with any error,
be it of form or of type, counts as no file.
-/
namespace Handheld

structure RunConfig where
  frames : Nat
  clockMode : ClockMode
  breakpoints : List UInt16
  /-- Stop at the first breakpoint instead of reporting it and going on. -/
  stopOnBreak : Bool
  /-- The directory of battery saves; that of the ROM if there is none. -/
  saveDirectory : Option String
  deriving DecidableEq

/-- The clock modes by their names in settings. -/
def ClockMode.ofName? (name : String) : Option ClockMode :=
  if name = "wall" then some .wall
  else if name = "emulated" then some .emulated
  else none

def ClockMode.name : ClockMode → String
  | .wall => "wall"
  | .emulated => "emulated"

theorem ClockMode.ofName?_name (mode : ClockMode) : ofName? mode.name = some mode := by
  cases mode <;> decide

namespace RunConfig

/-- The settings where nothing is set. -/
def standard : RunConfig where
  frames := 60
  clockMode := .wall
  breakpoints := []
  stopOnBreak := false
  saveDirectory := none

def savePath (cfg : RunConfig) (rom : String) : String :=
  let file := Path.withExtension rom "sav"
  match cfg.saveDirectory, Path.fileName? file with
  | some directory, some name => Path.join directory name
  | _, _ => file

def natOf? (limit : Nat) : Toml.Value → Option Nat
  | .integer n => if 0 ≤ n ∧ n < limit then some n.toNat else none
  | _ => none

/-- A mode is its name, or a table with the name as its only key and nothing below it. -/
def clockModeOf? : Toml.Value → Option ClockMode
  | .text name => ClockMode.ofName? name
  | .table _ [(name, .table _ [])] => ClockMode.ofName? name
  | .table _ [(name, .array [])] => ClockMode.ofName? name
  | _ => none

def addressesOf? : Toml.Value → Option (List UInt16)
  | .array items => (items.mapM (natOf? UInt16.size)).map (·.map UInt16.ofNat)
  | _ => none

def flagOf? : Toml.Value → Option Bool
  | .boolean b => some b
  | _ => none

def textOf? : Toml.Value → Option String
  | .text s => some s
  | _ => none

/-- Takes a setting over. Unknown settings change nothing. -/
def set? (cfg : RunConfig) (key : String) (value : Toml.Value) : Option RunConfig :=
  if key = "frames" then do return { cfg with frames := ← natOf? UInt64.size value }
  else if key = "rtc" then do return { cfg with clockMode := ← clockModeOf? value }
  else if key = "breakpoints" then do return { cfg with breakpoints := ← addressesOf? value }
  else if key = "stop_on_break" then do return { cfg with stopOnBreak := ← flagOf? value }
  else if key = "save_dir" then do return { cfg with saveDirectory := some (← textOf? value) }
  else if value.wellRanged then some cfg
  else none

def ofText? (text : String) : Option RunConfig := do
  (← Toml.parse? text).foldlM (fun cfg (key, value) => cfg.set? key value) standard

def ofText (text : String) : RunConfig := (ofText? text).getD standard

/-- The settings of a file, if it could be read and is text. -/
def ofFile (content : Option ByteArray) : RunConfig :=
  ((content.bind String.fromUTF8?).map ofText).getD standard

end RunConfig

end Handheld
