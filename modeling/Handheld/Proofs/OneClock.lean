import Handheld.Console
import Handheld.Proofs.Activity
import Handheld.Proofs.Timer.Access
import Handheld.Proofs.Video.Beam

/-!
One clock drives everything. A device of the bus is what its calls make of it, and the calls of
every device hand on all the cycles of the bus. So the divider and the beam tell the time of the
bus, and a program that reads them finds the values of the moment at which its read begins.
-/
namespace Handheld

namespace Bus

/-- What a device is called for: to let cycles pass, or to take a write to one of its
registers. -/
inductive Call
  | pass (cycles : Nat)
  | write (addr : UInt16) (v : UInt8)

def Call.cycles : Call → Nat
  | pass n => n
  | write _ _ => 0

/-- The calls of an act to the device that serves a region. -/
def Act.calls (region : Region) : Act → List Call
  | load _ _ => [.pass accessCycles]
  | pass n => [.pass n]
  | write addr v => if Region.of addr = region then [.write addr v] else []
  | clear _ => []
  | button _ _ => []

/-- The calls of some acts to the device that serves a region. -/
def callsTo (region : Region) (acts : List Act) : List Call := acts.flatMap (Act.calls region)

/-- The cycles that are handed on in some calls. -/
def handed (calls : List Call) : Nat := (calls.map Call.cycles).sum

/-- A device after some calls. -/
def called {D : Type} (pass : D → Nat → D) (write : D → UInt16 → UInt8 → D) :
    D → List Call → D :=
  List.foldl fun d call =>
    match call with
    | .pass n => pass d n
    | .write addr v => write d addr v

theorem callsTo_concat (region : Region) (acts : List Act) (a : Act) :
    callsTo region (acts ++ [a]) = callsTo region acts ++ a.calls region := by
  rw [callsTo, List.flatMap_append, List.flatMap_singleton]
  rfl

/-- Every device is handed the cycles of the acts. -/
theorem handed_callsTo (region : Region) (acts : List Act) :
    handed (callsTo region acts) = total acts := by
  have hact (a : Act) : handed (a.calls region) = a.cycles := by
    cases a with
    | write addr v =>
      dsimp only [Act.calls]
      split <;> rfl
    | _ => rfl
  induction acts with
  | nil => rfl
  | cons a acts ih =>
    have hsplit : handed (a.calls region ++ callsTo region acts) =
        handed (a.calls region) + handed (callsTo region acts) := by
      rw [handed, List.map_append, List.sum_append]
      rfl
    change handed (a.calls region ++ callsTo region acts) = a.cycles + total acts
    rw [hsplit, hact, ih]

variable {V A : Type} [VideoUnit V] [AudioUnit A]

def videoAfter (v : V) (calls : List Call) : V :=
  called (fun v n => (VideoUnit.step v n).1) VideoUnit.write v calls

def audioAfter (a : A) (calls : List Call) : A :=
  called AudioUnit.step AudioUnit.write a calls

/-- The cycles that are handed to the timer are ticks, one after the other. -/
def timerAfter (t : Timer) (calls : List Call) : Timer :=
  called (fun t n => Timer.cycle^[n] t) (fun t addr v => (t.write addr v).1) t calls

/-- A write reaches a unit only through the region that it serves. -/
theorem units_write (b : Bus V A) (addr : UInt16) (v : UInt8) :
    (b.write addr v).video =
        (if Region.of addr = .display then VideoUnit.write b.video addr v else b.video) ∧
      (b.write addr v).audio =
        (if Region.of addr = .sound then b.audio.map (AudioUnit.write · addr v) else b.audio) := by
  unfold write
  cases Region.of addr with
  | cartridgeRom => dsimp only; split <;> exact ⟨rfl, rfl⟩
  | cartridgeRam => dsimp only; split <;> exact ⟨rfl, rfl⟩
  | sound =>
    dsimp only
    cases haudio : b.audio with
    | none => exact ⟨rfl, haudio⟩
    | some a => exact ⟨rfl, rfl⟩
  | display =>
    exact ⟨writeVideo_keeps Bus.video (fun _ _ _ => rfl) b addr v,
      writeVideo_keeps Bus.audio (fun _ _ _ => rfl) b addr v⟩
  | _ => exact ⟨rfl, rfl⟩

omit [VideoUnit V] [AudioUnit A] in
theorem units_setButton (b : Bus V A) (button : Button) (pressed : Bool) :
    (b.setButton button pressed).video = b.video ∧ (b.setButton button pressed).audio = b.audio ∧
      (b.setButton button pressed).timer = b.timer := by
  unfold setButton
  dsimp only
  split <;> exact ⟨rfl, rfl, rfl⟩

/-- A device is changed by an act only through its calls. -/
theorem video_perform (b : Bus V A) (a : Act) :
    (b.perform a).video = videoAfter b.video (a.calls .display) := by
  cases a with
  | write addr v =>
    rw [perform, (units_write b addr v).1, Act.calls]
    split <;> rfl
  | button button pressed => exact (units_setButton b button pressed).1
  | _ => rfl

theorem audio_perform (b : Bus V A) (a : Act) :
    (b.perform a).audio = b.audio.map (audioAfter · (a.calls .sound)) := by
  cases a with
  | write addr v =>
    rw [perform, (units_write b addr v).2, Act.calls]
    split
    · rfl
    · exact Option.map_id_apply.symm
  | clear i => exact Option.map_id_apply.symm
  | button button pressed =>
    exact (units_setButton b button pressed).2.1.trans Option.map_id_apply.symm
  | _ => rfl

theorem timer_perform (b : Bus V A) (a : Act) :
    (b.perform a).timer = timerAfter b.timer (a.calls .timer) := by
  cases a with
  | load addr v => exact timer_advance b accessCycles
  | pass n => exact timer_advance b n
  | write addr v =>
    rw [perform, timer_write, Act.calls]
    split
    · rfl
    · next hregion =>
      rw [timer_write_of_ne hregion]
      rfl
  | clear i => rfl
  | button button pressed => exact (units_setButton b button pressed).2.2

/-- An aside that leaves the devices and the count of cycles alone. -/
structure SameDevices (b b' : Bus V A) : Prop where
  video : b'.video = b.video
  audio : b'.audio = b.audio
  timer : b'.timer = b.timer
  cycles : b'.cycles = b.cycles

/-- The devices of a bus are what the calls of some acts make of them from power-on. -/
structure Driven (video : V) (audio : Option A) (acts : List Act) (b : Bus V A) : Prop where
  video : b.video = videoAfter (VideoUnit.reset video) (callsTo .display acts)
  audio : b.audio = audio.map fun a => audioAfter (AudioUnit.reset a) (callsTo .sound acts)
  timer : b.timer = timerAfter .postBoot (callsTo .timer acts)
  cycles : b.cycles = total acts

theorem called_append {D : Type} (pass : D → Nat → D) (write : D → UInt16 → UInt8 → D) (d : D)
    (first next : List Call) :
    called pass write d (first ++ next) = called pass write (called pass write d first) next :=
  List.foldl_append

variable {acts : List Act}

theorem Driven.perform {video : V} {audio : Option A} {b : Bus V A}
    (h : Driven video audio acts b) (a : Act) : Driven video audio (acts ++ [a]) (b.perform a) where
  video := by
    rw [video_perform, h.video, callsTo_concat]
    exact (called_append _ _ _ _ _).symm
  audio := by
    rw [audio_perform, h.audio, Option.map_map, callsTo_concat]
    congr 1
    funext a'
    exact (called_append _ _ _ _ _).symm
  timer := by
    rw [timer_perform, h.timer, callsTo_concat]
    exact (called_append _ _ _ _ _).symm
  cycles := by
    rw [cycles_perform, h.cycles, total_append]
    rfl

theorem Traced.driven {b : Bus V A} (h : Traced SameDevices acts b) :
    ∃ video audio, Driven video audio acts b := by
  induction h with
  | reset b =>
    exact ⟨b.video, b.audio, rfl, rfl, rfl, rfl⟩
  | act h a honest ih =>
    obtain ⟨video, audio, hdriven⟩ := ih
    exact ⟨video, audio, hdriven.perform a⟩
  | aside h haside ih =>
    obtain ⟨video, audio, hdriven⟩ := ih
    exact ⟨video, audio, haside.video.trans hdriven.video, haside.audio.trans hdriven.audio,
      haside.timer.trans hdriven.timer, haside.cycles.trans hdriven.cycles⟩

theorem Traced.cycles_eq {b : Bus V A} (h : Traced SameDevices acts b) : b.cycles = total acts := by
  obtain ⟨video, audio, hdriven⟩ := h.driven
  exact hdriven.cycles

/-- What has been recorded before an act is the record of the bus that the act is done to. -/
theorem Traced.before {Aside : Bus V A → Bus V A → Prop} {b : Bus V A} (h : Traced Aside acts b)
    {before after : List Act} {a : Act} (hacts : acts = before ++ a :: after) :
    ∃ b', Traced Aside before b' ∧ b'.Honest [a] := by
  induction h generalizing after with
  | reset b => exact absurd hacts.symm (List.append_ne_nil_of_right_ne_nil _ (List.cons_ne_nil _ _))
  | @act acts b h a' honest ih =>
    rcases List.eq_nil_or_concat after with rfl | ⟨rest, last, rfl⟩
    · obtain ⟨rfl, hlast⟩ := List.append_inj' hacts rfl
      obtain ⟨rfl, -⟩ := List.cons.inj hlast
      exact ⟨b, h, honest⟩
    · rw [List.concat_eq_append, ← List.cons_append, ← List.append_assoc] at hacts
      obtain ⟨hfirst, -⟩ := List.append_inj' hacts rfl
      exact ih hfirst
  | aside h haside ih => exact ih hacts

variable {b : Bus Lcd A}

theorem divider_cycles (n : Nat) (t : Timer) :
    (Timer.cycle^[n] t).divider.toNat = (t.divider.toNat + n) % 0x10000 := by
  induction n with
  | zero => exact (Nat.mod_eq_of_lt t.divider.toNat_lt).symm
  | succ n ih =>
    have hone : (1 : UInt16).toNat = 1 := rfl
    rw [Function.iterate_succ_apply', Timer.cycle_eq]
    dsimp only
    rw [UInt16.toNat_add, ih, hone]
    omega

/-- Only a write to the divider changes it. -/
theorem divider_write (t : Timer) {addr : UInt16} (h : addr ≠ 0xFF04) (v : UInt8) :
    (t.write addr v).1.divider = t.divider := by
  unfold Timer.write
  split
  · exact absurd rfl h
  · unfold Timer.writeCounter
    split <;> rfl
  · unfold Timer.writeModulo
    split <;> rfl
  · rw [Timer.writeControl, Timer.edge_eq]
  · rfl

/-- The divider tells the time of the bus as long as it is not cleared. -/
theorem Traced.divider_eq (h : Traced SameDevices acts b)
    (hclear : ∀ v, .write 0xFF04 v ∉ acts) :
    b.timer.divider.toNat = (0xABCC + b.cycles) % 0x10000 := by
  induction h with
  | reset b => rfl
  | @act acts b h a honest ih =>
    have hbefore := ih fun v hv => hclear v (List.mem_append_left _ hv)
    have hpass (n : Nat) : (b.advance n).timer.divider.toNat =
        (0xABCC + (b.cycles + n)) % 0x10000 := by
      rw [timer_advance, divider_cycles, hbefore, Nat.mod_add_mod, Nat.add_assoc]
    cases a with
    | load addr v => exact hpass accessCycles
    | pass n => exact hpass n
    | write addr v =>
      have hother : addr ≠ 0xFF04 := by
        rintro rfl
        exact hclear v (List.mem_append_right _ (List.mem_singleton_self _))
      rw [cycles_perform, perform, timer_write, divider_write _ hother, hbefore]
      rfl
    | clear i => exact hbefore
    | button button pressed =>
      rw [cycles_perform, perform, (units_setButton b button pressed).2.2, hbefore]
      rfl
  | aside h haside ih =>
    rw [haside.timer, haside.cycles]
    exact ih hclear

/-- The beam tells the time of the bus as long as the display is not turned off. -/
theorem Traced.beam (h : Traced SameDevices acts b)
    (hon : ∀ v, v &&& 0x80 = 0 → .write 0xFF40 v ∉ acts) : b.video.At b.cycles := by
  induction h with
  | reset b => exact Lcd.at_postBoot
  | @act acts b h a honest ih =>
    have hbefore := ih fun v hv hmem => hon v hv (List.mem_append_left _ hmem)
    cases a with
    | load addr v => exact hbefore.step accessCycles
    | pass n => exact hbefore.step n
    | write addr v =>
      rw [cycles_perform, perform, (units_write b addr v).1]
      split
      · refine hbefore.write fun haddr hoff => ?_
        exact hon v hoff (List.mem_append_right _ (haddr ▸ List.mem_singleton_self _))
      · exact hbefore
    | clear i => exact hbefore
    | button button pressed =>
      rw [cycles_perform, perform, (units_setButton b button pressed).1]
      exact hbefore
  | aside h haside ih =>
    rw [haside.video, haside.cycles]
    exact ih hon

theorem perform_load (b : Bus V A) (addr : UInt16) :
    b.perform (.load addr (b.read addr)) = (b.load addr).2 := rfl

theorem read_divider (b : Bus Lcd A) :
    b.read 0xFF04 = UInt8.ofNat (b.timer.divider.toNat / 256) := rfl

theorem read_line (b : Bus Lcd A) : b.read 0xFF44 = b.video.line := rfl

theorem Traced.toNat_read_divider (h : Traced SameDevices acts b)
    (hclear : ∀ v, .write 0xFF04 v ∉ acts) :
    (b.read 0xFF04).toNat = (0xABCC + b.cycles) % 0x10000 / 256 := by
  rw [read_divider, h.divider_eq hclear, UInt8.toNat_ofNat']
  omega

end Bus

namespace Core

open Bus

/-- One clock drives everything, whatever the units. With the built-in units the divider and the
beam tell its time, and so do the charged reads of their registers. -/
theorem one_clock :
    (∀ {V A : Type} [VideoUnit V] [AudioUnit A] {acts : List Act} {s : Core V A},
      Traced SameDevices acts s →
      (∃ video : V, s.bus.video = videoAfter (VideoUnit.reset video) (callsTo .display acts)) ∧
      (∃ audio : Option A, s.bus.audio =
        audio.map fun a => audioAfter (AudioUnit.reset a) (callsTo .sound acts)) ∧
      s.bus.timer = timerAfter .postBoot (callsTo .timer acts) ∧
      ∀ region, handed (callsTo region acts) = s.bus.cycles) ∧
    ∀ {A : Type} [AudioUnit A] {acts : List Act} {s : Core Lcd A}, Traced SameDevices acts s →
      ((∀ v, .write 0xFF04 v ∉ acts) →
        s.bus.timer.divider.toNat = (0xABCC + s.bus.cycles) % 65536) ∧
      ((∀ v, v &&& 0x80 = 0 → .write 0xFF40 v ∉ acts) →
        s.bus.video.line.toNat = s.bus.cycles / 456 % 154) ∧
      ∀ before addr v after, acts = before ++ .load addr v :: after →
        ∃ b : Bus Lcd A, Bus.Traced SameDevices before b ∧ b.cycles = total before ∧
          v = (b.load addr).1 ∧
          (addr = 0xFF04 → (∀ w, .write 0xFF04 w ∉ before) →
            v.toNat = (0xABCC + b.cycles) % 65536 / 256) ∧
          (addr = 0xFF44 → (∀ w, w &&& 0x80 = 0 → .write 0xFF40 w ∉ before) →
            v.toNat = b.cycles / 456 % 154) := by
  constructor
  · intro V A _ _ acts s h
    obtain ⟨video, audio, hdriven⟩ := h.bus.driven
    refine ⟨⟨video, hdriven.video⟩, ⟨audio, hdriven.audio⟩, hdriven.timer, fun region => ?_⟩
    rw [handed_callsTo, hdriven.cycles]
  · intro A _ acts s h
    refine ⟨h.bus.divider_eq, fun hon => (h.bus.beam hon).line_eq, ?_⟩
    intro before addr v after hacts
    obtain ⟨b, hbefore, hhonest, -⟩ := h.bus.before hacts
    refine ⟨b, hbefore, hbefore.cycles_eq, hhonest, ?_, ?_⟩
    · rintro rfl hclear
      rw [hhonest]
      exact hbefore.toNat_read_divider hclear
    · rintro rfl hon
      rw [hhonest, read_line]
      exact (hbefore.beam hon).line_eq

/-- A machine without a cartridge, three lines after power-on. -/
theorem exists_threeLines :
    ∃ b : Bus Lcd Sound, Traced SameDevices [.pass 1368] (⟨.postBoot, b⟩ : Core Lcd Sound) := by
  have hstart : Traced SameDevices [] (Core.powerOn none) :=
    .reset .postBoot (Core.powerOn none).bus
  exact ⟨_, hstart.access (.pass 1368) trivial⟩

/-- A read of the line register then returns what the formula says. -/
theorem one_clock_threeLines :
    ∃ b : Bus Lcd Sound,
      Traced SameDevices ([.pass 1368] ++ [.load 0xFF44 (b.read 0xFF44)])
        (⟨.postBoot, (b.load 0xFF44).2⟩ : Core Lcd Sound) ∧
      (b.load 0xFF44).1.toNat = 3 := by
  obtain ⟨b, hpassed⟩ := exists_threeLines
  have htraced : Traced SameDevices ([.pass 1368] ++ [.load 0xFF44 (b.read 0xFF44)])
      (⟨.postBoot, b.perform (.load 0xFF44 (b.read 0xFF44))⟩ : Core Lcd Sound) :=
    hpassed.access _ (honest_load b 0xFF44)
  obtain ⟨b', -, hcycles, -, -, hline⟩ := (one_clock.2 htraced).2.2 [.pass 1368] _ _ [] rfl
  have hread := hline rfl (by simp)
  have hpass : total [.pass 1368] = 1368 := rfl
  rw [hcycles, hpass] at hread
  rw [perform_load] at htraced
  exact ⟨b, htraced, hread⟩

end Core

end Handheld
