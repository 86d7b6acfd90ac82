/-!
Execution breakpoints. Each address has at most one entry, and entries keep the order in
which they were added. Whether any entry is enabled is kept beside the entries, because
it is asked before every instruction.
-/
namespace Handheld

@[ext] structure Breakpoint where
  addr : UInt16
  enabled : Bool
  deriving DecidableEq

@[ext] structure Breakpoints where
  entries : List Breakpoint
  anyEnabled : Bool
  deriving DecidableEq

namespace Breakpoints

def empty : Breakpoints := ⟨[], false⟩

/-- Entries with the flag that belongs to them. -/
def ofEntries (entries : List Breakpoint) : Breakpoints :=
  ⟨entries, entries.any (·.enabled)⟩

def find? (bs : Breakpoints) (addr : UInt16) : Option Bool :=
  (bs.entries.find? (·.addr == addr)).map (·.enabled)

def contains (bs : Breakpoints) (addr : UInt16) : Bool :=
  bs.entries.any (·.addr == addr)

/-- Changes the first entry at an address. -/
def modify (bs : Breakpoints) (addr : UInt16) (f : Bool → Bool) : Breakpoints :=
  ofEntries (bs.entries.modify (bs.entries.findIdx (·.addr == addr)) fun b =>
    { b with enabled := f b.enabled })

/-- Adds an enabled entry, or enables the one that is there. The flag tells whether an
entry was added. -/
def add (bs : Breakpoints) (addr : UInt16) : Breakpoints × Bool :=
  if bs.contains addr then (bs.modify addr fun _ => true, false)
  else (ofEntries (bs.entries ++ [⟨addr, true⟩]), true)

/-- Removes the first entry at an address. The flag tells whether there was one. -/
def remove (bs : Breakpoints) (addr : UInt16) : Breakpoints × Bool :=
  if bs.contains addr then (ofEntries (bs.entries.eraseP (·.addr == addr)), true)
  else (bs, false)

/-- Enables or disables the entry at an address. The flag tells whether there is one. -/
def setEnabled (bs : Breakpoints) (addr : UInt16) (enabled : Bool) : Breakpoints × Bool :=
  if bs.contains addr then (bs.modify addr fun _ => enabled, true) else (bs, false)

/-- Flips the entry at an address and gives its new state. -/
def toggle (bs : Breakpoints) (addr : UInt16) : Breakpoints × Option Bool :=
  match bs.find? addr with
  | some enabled => (bs.modify addr fun _ => !enabled, some !enabled)
  | none => (bs, none)

def clear (_ : Breakpoints) : Breakpoints := empty

def addAll (bs : Breakpoints) (addrs : List UInt16) : Breakpoints :=
  addrs.foldl (fun bs addr => (bs.add addr).1) bs

def isHit (bs : Breakpoints) (pc : UInt16) : Bool :=
  bs.anyEnabled && bs.entries.any fun b => b.enabled && b.addr == pc

def sorted (bs : Breakpoints) : List Breakpoint :=
  bs.entries.mergeSort fun a b => decide (a.addr ≤ b.addr)

end Breakpoints

end Handheld
