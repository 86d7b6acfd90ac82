import Handheld.Address
import Handheld.RunConfig

/-!
The command line. Arguments are taken from the left. A value that stands apart from its
option is looked at only when the next option or file name is met or at the end, so that
an unknown argument between them is reported first.
-/
namespace Handheld

inductive UsageError
  | unknownArgument
  | invalidValue
  | valueValidation
  | argumentConflict
  | tooManyValues
  | missingRequiredArgument
  | helpRequested
  deriving DecidableEq

/-- The options that take a value. -/
inductive ValueOption
  | frames
  | breakpoint
  | clockMode
  | save
  | config
  deriving DecidableEq

/-- The options that take none. -/
inductive Switch
  | stopOnBreak
  | debug
  deriving DecidableEq

structure Options where
  rom : String
  frames : Option Nat
  breakpoints : List UInt16
  clockMode : Option ClockMode
  save : Option String
  config : Option String
  stopOnBreak : Bool
  debug : Bool
  deriving DecidableEq

/-- The number of a decimal text below a limit, with an optional plus sign. -/
def decimalBelow? (limit : Nat) (text : String) : Option Nat :=
  let digits :=
    match text.toList with
    | '+' :: rest => rest
    | cs => cs
  if digits ≠ [] ∧ digits.all Toml.isDigit then
    let n := digits.foldl (fun value c => 10 * value + (c.toNat - 48)) 0
    if n < limit then some n else none
  else none

namespace Options

/-- What has been met but not yet looked at. -/
inductive Pending
  | nothing
  /-- An option whose value is still to come. -/
  | awaiting (option : ValueOption)
  | value (option : ValueOption) (text : String)
  | rom (path : String)
  deriving DecidableEq

/-- The arguments taken so far. The name of the ROM may still be missing. -/
structure Partial where
  options : Options
  hasRom : Bool
  pending : Pending
  /-- Two dashes have been met, so that all that follows are file names. -/
  onlyNames : Bool

def Partial.start : Partial where
  options := ⟨"", none, [], none, none, none, false, false⟩
  hasRom := false
  pending := .nothing
  onlyNames := false

/-- The first value of an option that may be given only once. -/
def once {α : Type} (before : Option α) (value : Except UsageError α) :
    Except UsageError (Option α) :=
  match before with
  | some _ => .error .argumentConflict
  | none => value.map some

/-- A path has to have a character. -/
def pathOf (text : String) : Except UsageError String :=
  if text = "" then .error .invalidValue else .ok text

def orElse {α : Type} (e : UsageError) : Option α → Except UsageError α
  | some a => .ok a
  | none => .error e

def setValue (o : Options) (option : ValueOption) (text : String) : Except UsageError Options :=
  match option with
  | .frames => do
    let n := orElse .valueValidation (decimalBelow? UInt64.size text)
    return { o with frames := ← once o.frames n }
  | .breakpoint => do
    let addr ← orElse .valueValidation (Address.parse text).toOption
    return { o with breakpoints := o.breakpoints ++ [addr] }
  | .clockMode => do
    let mode := orElse .invalidValue (ClockMode.ofName? text)
    return { o with clockMode := ← once o.clockMode mode }
  | .save => do return { o with save := ← once o.save (pathOf text) }
  | .config => do return { o with config := ← once o.config (pathOf text) }

def setSwitch (o : Options) : Switch → Except UsageError Options
  | .stopOnBreak =>
    if o.stopOnBreak then .error .argumentConflict else .ok { o with stopOnBreak := true }
  | .debug => if o.debug then .error .argumentConflict else .ok { o with debug := true }

namespace Partial

def settle (p : Partial) : Except UsageError Partial := do
  match p.pending with
  | .nothing => return p
  | .awaiting _ => throw .invalidValue
  | .value option text =>
    return { p with options := ← p.options.setValue option text, pending := .nothing }
  | .rom path =>
    return { p with options := { p.options with rom := ← pathOf path }, pending := .nothing }

/-- Takes a file name, of which there is only one. -/
def takeName (p : Partial) (name : String) : Except UsageError Partial := do
  if p.hasRom then throw .unknownArgument
  return { ← p.settle with hasRom := true, pending := .rom name }

def takeOption (p : Partial) (option : ValueOption) (attached : Option String) :
    Except UsageError Partial := do
  let p ← p.settle
  match attached with
  | some text => return { p with options := ← p.options.setValue option text }
  | none => return { p with pending := .awaiting option }

def takeSwitch (p : Partial) (switch : Switch) (attached : Option String) :
    Except UsageError Partial := do
  if attached.isSome then throw .tooManyValues
  let p ← p.settle
  return { p with options := ← p.options.setSwitch switch }

def takeHelp (p : Partial) (attached : Option String) : Except UsageError Partial := do
  if attached.isSome then throw .tooManyValues
  let _ ← p.settle
  throw .helpRequested

/-- The parts of a long option before and after its first equals sign. -/
def splitAttached (cs : List Char) : String × Option String :=
  let (name, rest) := cs.span (· != '=')
  match rest with
  | _ :: text => (String.ofList name, some (String.ofList text))
  | [] => (String.ofList name, none)

def takeLong (p : Partial) (cs : List Char) : Except UsageError Partial :=
  let (name, attached) := splitAttached cs
  match name with
  | "frames" => p.takeOption .frames attached
  | "break" => p.takeOption .breakpoint attached
  | "rtc" => p.takeOption .clockMode attached
  | "save" => p.takeOption .save attached
  | "config" => p.takeOption .config attached
  | "stop-on-break" => p.takeSwitch .stopOnBreak attached
  | "debug" => p.takeSwitch .debug attached
  | "help" => p.takeHelp attached
  | _ => .error .unknownArgument

/-- An argument that is no option: the value of the option before it, or a file name. -/
def takeWord (p : Partial) (word : String) : Except UsageError Partial :=
  match p.pending with
  | .awaiting option => .ok { p with pending := .value option word }
  | _ => p.takeName word

def take (p : Partial) (argument : String) : Except UsageError Partial :=
  if p.onlyNames then p.takeName argument
  else
    match argument.toList with
    | ['-', '-'] => .ok { p with onlyNames := true }
    | '-' :: '-' :: long => p.takeLong long
    | '-' :: short :: _ => if short = 'h' then p.takeHelp none else .error .unknownArgument
    | _ => p.takeWord argument

def finish (p : Partial) : Except UsageError Options := do
  let p ← p.settle
  if p.hasRom then return p.options else throw .missingRequiredArgument

end Partial

def parse (arguments : List String) : Except UsageError Options := do
  (← arguments.foldlM Partial.take Partial.start).finish

/-- The settings of a run: what the command line sets goes before the configuration. -/
def merge (o : Options) (cfg : RunConfig) : RunConfig :=
  { cfg with
    frames := o.frames.getD cfg.frames
    clockMode := o.clockMode.getD cfg.clockMode
    breakpoints := cfg.breakpoints ++ o.breakpoints
    stopOnBreak := cfg.stopOnBreak || o.stopOnBreak }

end Options

end Handheld
