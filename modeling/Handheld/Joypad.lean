/-!
The joypad register. The eight buttons form two groups of four lines; a game selects
groups and reads the lines of the selected ones, a pressed button pulling its line low.
-/
namespace Handheld

inductive Button
  | right
  | left
  | up
  | down
  | a
  | b
  | select
  | start
  deriving DecidableEq

inductive ButtonGroup
  | directions
  | actions
  deriving DecidableEq

namespace Button

def all : List Button := [right, left, up, down, a, b, select, start]

def group : Button → ButtonGroup
  | right | left | up | down => .directions
  | a | b | select | start => .actions

/-- The bit of a button among the four lines of its group. -/
def line : Button → UInt8
  | right | a => 0x01
  | left | b => 0x02
  | up | select => 0x04
  | down | start => 0x08

end Button

/-- The bit that selects a group when it is clear. -/
def ButtonGroup.selectBit : ButtonGroup → UInt8
  | directions => 0x10
  | actions => 0x20

@[ext] structure Joypad where
  /-- The two select bits as last written. -/
  select : UInt8
  /-- Lines of the held directions. -/
  directions : UInt8
  /-- Lines of the held action buttons. -/
  actions : UInt8
  deriving DecidableEq

namespace Joypad

/-- Nothing selected and nothing held. -/
def released : Joypad := ⟨0x30, 0, 0⟩

def held (j : Joypad) : ButtonGroup → UInt8
  | .directions => j.directions
  | .actions => j.actions

def setHeld (j : Joypad) (group : ButtonGroup) (lines : UInt8) : Joypad :=
  match group with
  | .directions => { j with directions := lines }
  | .actions => { j with actions := lines }

def selects (j : Joypad) (group : ButtonGroup) : Bool :=
  j.select &&& group.selectBit == 0

def isPressed (j : Joypad) (button : Button) : Bool :=
  j.held button.group &&& button.line != 0

def read (j : Joypad) : UInt8 :=
  let lines (group : ButtonGroup) := if j.selects group then j.held group else 0
  0xC0 ||| j.select ||| (~~~(lines .directions ||| lines .actions) &&& 0x0F)

def write (j : Joypad) (v : UInt8) : Joypad :=
  { j with select := v &&& 0x30 }

/-- Presses or releases a button. The flag tells whether a button of a selected group
has just gone from released to pressed, which requests the interrupt. -/
def update (j : Joypad) (button : Button) (pressed : Bool) : Joypad × Bool :=
  let lines := j.held button.group
  let lines := if pressed then lines ||| button.line else lines &&& ~~~button.line
  (j.setHeld button.group lines,
    pressed && !j.isPressed button && j.selects button.group)

end Joypad

end Handheld
