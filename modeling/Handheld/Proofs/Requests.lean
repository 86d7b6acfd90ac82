import Handheld.Console
import Handheld.Proofs.Activity
import Handheld.Proofs.Cartridge.Seconds
import Handheld.Proofs.MemoryMap
import Handheld.Proofs.Timer.Access
import Handheld.Proofs.Video.Samples

/-!
The requests for interrupts. Devices add to them, the processor takes one back when it serves
its interrupt, and a write to their register replaces them all. Nothing else makes a request or
loses one, in whatever order these things happen within a step.
-/
namespace Handheld

namespace Interrupt

/-- Whether an interrupt is among the requests. -/
def isIn (i : Interrupt) (r : Requests) : Bool := r &&& i.mask != 0

/-- Requests of the five sources and nothing else. -/
def Known (r : Requests) : Prop := r &&& 0x1F = r

theorem isIn_zero (i : Interrupt) : i.isIn 0 = false := by
  rw [isIn, UInt8.zero_and]
  rfl

theorem isIn_or (i : Interrupt) (r s : Requests) : i.isIn (r ||| s) = (i.isIn r || i.isIn s) := by
  rw [Bool.eq_iff_iff, Bool.or_eq_true]
  simp only [isIn, bne_iff_ne, ClockRegisters.or_and_distrib, ne_eq, UInt8.or_eq_zero_iff]
  exact not_and_or

theorem isIn_mask (i j : Interrupt) : i.isIn j.mask = decide (i = j) := by
  cases i <;> cases j <;> rfl

theorem isIn_ite (i j : Interrupt) (raised : Bool) :
    i.isIn (if raised then j.mask else 0) = (decide (i = j) && raised) := by
  cases raised with
  | true => exact (isIn_mask i j).trans (Bool.and_true _).symm
  | false => exact (isIn_zero i).trans (Bool.and_false _).symm

/-- Taking a request back leaves the others. -/
theorem isIn_cleared (i j : Interrupt) (r : Requests) :
    i.isIn (r &&& ~~~j.mask) = (i.isIn r && !decide (i = j)) := by
  have hmask : ~~~j.mask &&& i.mask = if i = j then 0 else i.mask := by
    cases i <;> cases j <;> rfl
  rw [isIn, UInt8.and_assoc, hmask]
  by_cases hij : i = j
  · simp [hij]
  · simp [hij, isIn]

theorem known_zero : Known 0 := rfl

theorem known_mask (i : Interrupt) : Known i.mask := by cases i <;> rfl

theorem Known.or {r s : Requests} (hr : Known r) (hs : Known s) : Known (r ||| s) := by
  rw [Known, ClockRegisters.or_and_distrib, hr, hs]

theorem Known.and {r : Requests} (h : Known r) (s : Requests) : Known (r &&& s) := by
  rw [Known, UInt8.and_assoc, UInt8.and_comm s, ← UInt8.and_assoc, h]

theorem known_and (r : Requests) : Known (r &&& 0x1F) := by
  rw [Known, UInt8.and_assoc, UInt8.and_self]

theorem known_ite (i : Interrupt) (raised : Bool) : Known (if raised then i.mask else 0) := by
  cases raised with
  | true => exact known_mask i
  | false => exact known_zero

theorem Known.lt {r : Requests} (h : Known r) : r.toNat < 32 := by
  have hle : (r &&& 0x1F).toNat ≤ 31 := by
    rw [UInt8.toNat_and]
    exact Nat.and_le_right
  rw [h] at hle
  omega

end Interrupt

open Interrupt

namespace Lcd

theorem isIn_requests (m : Move) (i : Interrupt) :
    i.isIn m.requests =
      (decide (i = .vblank) && m.reachesBlank || decide (i = .stat) && m.rises) := by
  rw [Move.requests, isIn_or, isIn_ite, isIn_ite]

theorem isIn_requestsOf (moves : List Move) (i : Interrupt) :
    i.isIn (requestsOf moves) = moves.any fun m => i.isIn m.requests := by
  induction moves with
  | nil => exact isIn_zero i
  | cons m moves ih =>
    change i.isIn (m.requests ||| requestsOf moves) = _
    rw [isIn_or, ih, List.any_cons]

theorem known_requestsOf (moves : List Move) : Known (requestsOf moves) := by
  induction moves with
  | nil => exact known_zero
  | cons m moves ih => exact ((known_ite _ _).or (known_ite _ _)).or ih

theorem reachesBlank_iff (m : Move) :
    m.reachesBlank = true ↔ m.before.line ≠ 144 ∧ m.after.line = 144 := by
  simp [Move.reachesBlank, visibleLines]

theorem rises_iff (m : Move) :
    m.rises = true ↔ m.before.statusLine = false ∧ m.after.statusLine = true := by
  simp [Move.rises]

end Lcd

namespace Bus

variable {A : Type} [AudioUnit A]

/-- The interrupt is requested. -/
def Asks (b : Bus Lcd A) (i : Interrupt) : Prop := i.isIn b.requested = true

instance (b : Bus Lcd A) (i : Interrupt) : Decidable (b.Asks i) :=
  inferInstanceAs (Decidable (i.isIn b.requested = true))

/-- What makes a request in an act: the beam comes to line 144, the sampled status signal rises,
the timer makes a reload, or a button of a selected group goes down. -/
def Raises (b : Bus Lcd A) (a : Act) : Interrupt → Prop
  | .vblank => ∃ m ∈ b.video.moves a.cycles, m.before.line ≠ 144 ∧ m.after.line = 144
  | .stat =>
    ∃ m ∈ b.video.moves a.cycles, m.before.statusLine = false ∧ m.after.statusLine = true
  | .timer =>
    (∃ t ∈ Timer.timeline a.cycles b.timer, t.reloads = true) ∨
      (∃ v, a = .write 0xFF04 v) ∧ b.timer.reloads = true
  | .serial => False
  | .joypad =>
    ∃ button, a = .button button true ∧ b.joypad.isPressed button = false ∧
      b.joypad.selects button.group = true

/-- One of the acts raises the interrupt. -/
def Raised (b : Bus Lcd A) (acts : List Act) (i : Interrupt) : Prop :=
  ∃ before a after, acts = before ++ a :: after ∧ (b.performAll before).Raises a i

theorem raised_cons (b : Bus Lcd A) (a : Act) (acts : List Act) (i : Interrupt) :
    b.Raised (a :: acts) i ↔ b.Raises a i ∨ (b.perform a).Raised acts i := by
  constructor
  · rintro ⟨before, c, after, heq, hraises⟩
    cases before with
    | nil =>
      obtain ⟨rfl, rfl⟩ := List.cons.inj heq
      exact .inl hraises
    | cons d before =>
      obtain ⟨rfl, rfl⟩ := List.cons.inj heq
      exact .inr ⟨before, c, after, rfl, hraises⟩
  · rintro (hraises | ⟨before, c, after, rfl, hraises⟩)
    · exact ⟨[], a, acts, rfl, hraises⟩
    · exact ⟨a :: before, c, after, rfl, hraises⟩

theorem requests_reloads (raised : Bool) (i : Interrupt) :
    i.isIn (Timer.requests raised) = (decide (i = .timer) && raised) := isIn_ite i .timer raised

/-- Cycles that pass add the requests of the timer and of the display. -/
theorem requested_advance_moves (b : Bus Lcd A) (n : Nat) :
    (b.advance n).requested =
      b.requested ||| Timer.requests ((Timer.timeline n b.timer).any Timer.reloads) |||
        Lcd.requestsOf (b.video.moves n) := by
  have hvideo : (VideoUnit.step b.video n).2 = Lcd.requestsOf (b.video.moves n) :=
    congrArg Prod.snd (b.video.step_eq n)
  rw [requested_advance, hvideo]

theorem isIn_advance (b : Bus Lcd A) (n : Nat) (i : Interrupt) :
    i.isIn (b.advance n).requested =
      (i.isIn b.requested ||
        decide (i = .timer) && (Timer.timeline n b.timer).any Timer.reloads ||
        (b.video.moves n).any fun m => i.isIn m.requests) := by
  rw [requested_advance_moves, isIn_or, isIn_or, requests_reloads, Lcd.isIn_requestsOf]

theorem known_advance {b : Bus Lcd A} (h : Known b.requested) (n : Nat) :
    Known (b.advance n).requested := by
  rw [requested_advance_moves]
  exact (h.or (known_ite .timer _)).or (Lcd.known_requestsOf _)

theorem asks_pass (b : Bus Lcd A) {a : Act} (h : b.perform a = b.advance a.cycles)
    (hwrite : ∀ v, a ≠ .write 0xFF04 v) (hbutton : ∀ button, a ≠ .button button true)
    (i : Interrupt) : (b.perform a).Asks i ↔ b.Asks i ∨ b.Raises a i := by
  rw [Asks, h, isIn_advance, Bool.or_eq_true, Bool.or_eq_true, or_assoc, Bool.and_eq_true,
    decide_eq_true_iff, List.any_eq_true, List.any_eq_true]
  refine or_congr_right ?_
  simp only [Lcd.isIn_requests, Bool.or_eq_true, Bool.and_eq_true, decide_eq_true_iff,
    Lcd.reachesBlank_iff, Lcd.rises_iff]
  cases i with
  | vblank => simp only [Raises, reduceCtorEq, false_and, true_and, false_or, or_false]
  | stat => simp only [Raises, reduceCtorEq, false_and, true_and, false_or]
  | timer =>
    simp only [Raises, reduceCtorEq, false_and, true_and, or_false, and_false, exists_false, hwrite]
  | serial => simp only [Raises, reduceCtorEq, false_and, or_false, and_false, exists_false]
  | joypad =>
    simp only [Raises, reduceCtorEq, false_and, or_false, and_false, exists_false, hbutton]

theorem moves_zero (v : Lcd) : v.moves 0 = [] := by
  rw [Lcd.moves]
  split <;> rfl

theorem flag_of_region {addr : UInt16} (h : Region.of addr = .interruptFlag) : addr = 0xFF0F :=
  UInt16.toNat_inj.mp (Region.of_eq_iff.mp h)

/-- Of the writes to the timer only the one that clears the divider makes a request, where a
reload is due. -/
theorem raised_write (t : Timer) (addr : UInt16) (v : UInt8) :
    (t.write addr v).2 = Timer.requests (decide (addr = 0xFF04) && t.reloads) := by
  unfold Timer.write
  split
  · rw [Timer.clearDivider_eq]
    rfl
  · rfl
  · rfl
  · rfl
  · next hdivider _ _ _ =>
    rw [decide_eq_false hdivider]
    rfl

/-- A write to another register than that of the requests adds those of the timer. -/
theorem requested_write {V : Type} [VideoUnit V] (b : Bus V A) {addr : UInt16}
    (h : addr ≠ 0xFF0F) (v : UInt8) :
    (b.write addr v).requested =
      b.requested ||| Timer.requests (decide (addr = 0xFF04) && b.timer.reloads) := by
  rw [← raised_write b.timer addr v]
  by_cases htimer : Region.of addr = .timer
  · simp only [write, htimer]
    rfl
  · rw [timer_write_of_ne htimer, UInt8.or_zero]
    unfold write
    split
    · split <;> rfl
    · split <;> rfl
    · rfl
    · rfl
    · next hregion => exact absurd hregion htimer
    · next hregion => exact absurd (flag_of_region hregion) h
    · split <;> rfl
    · exact writeVideo_keeps Bus.requested (fun _ _ _ => rfl) b addr v
    · rfl
    · rfl

theorem requested_write_flag (b : Bus Lcd A) (v : UInt8) :
    (b.write 0xFF0F v).requested = v &&& 0x1F := rfl

omit [AudioUnit A] in
/-- A press requests its interrupt if the button was up and its group is selected. -/
theorem requested_setButton {V : Type} (b : Bus V A) (button : Button) (pressed : Bool) :
    (b.setButton button pressed).requested =
      b.requested |||
        if pressed && !b.joypad.isPressed button && b.joypad.selects button.group then
          Interrupt.joypad.mask
        else 0 := by
  unfold setButton Joypad.update
  dsimp only
  split
  · rfl
  · exact UInt8.or_zero.symm

omit [AudioUnit A] in
theorem raises_of_no_cycles (b : Bus Lcd A) {a : Act} (h : a.cycles = 0) (i : Interrupt) :
    b.Raises a i ↔
      (i = .timer ∧ (∃ v, a = .write 0xFF04 v) ∧ b.timer.reloads = true) ∨
        i = .joypad ∧ ∃ button, a = .button button true ∧ b.joypad.isPressed button = false ∧
          b.joypad.selects button.group = true := by
  cases i <;>
    simp only [Raises, h, moves_zero, Timer.timeline, reduceCtorEq, List.not_mem_nil, true_and,
      false_and, exists_false, false_or, or_false]

/-- An act adds the requests that it raises, unless it takes back the one or replaces them. -/
theorem asks_perform (b : Bus Lcd A) {a : Act} {i : Interrupt}
    (hwrite : ∀ v, a ≠ .write 0xFF0F v) (hclear : a ≠ .clear i) :
    (b.perform a).Asks i ↔ b.Asks i ∨ b.Raises a i := by
  cases a with
  | load addr v => exact b.asks_pass (a := .load addr v) rfl nofun nofun i
  | pass n => exact b.asks_pass (a := .pass n) rfl nofun nofun i
  | write addr v =>
    have hother : addr ≠ 0xFF0F := fun haddr => hwrite v (by rw [haddr])
    rw [raises_of_no_cycles b rfl, Asks, perform, requested_write b hother, isIn_or,
      requests_reloads]
    simp [Asks]
  | clear j =>
    have hne : i ≠ j := fun hij => hclear (by rw [hij])
    rw [raises_of_no_cycles b rfl, Asks, perform, isIn_cleared, decide_eq_false hne]
    simp [Asks]
  | button button pressed =>
    rw [raises_of_no_cycles b rfl, Asks, perform, requested_setButton, isIn_or, isIn_ite]
    cases pressed <;> simp [Asks]

/-- A request that stands after an act was there before it, or the act has made it. -/
theorem asks_of_perform {b : Bus Lcd A} {a : Act} {i : Interrupt} (h : (b.perform a).Asks i) :
    b.Asks i ∨ b.Raises a i ∨ ∃ v, a = .write 0xFF0F v := by
  by_cases hwrite : ∃ v, a = .write 0xFF0F v
  · exact .inr (.inr hwrite)
  · by_cases hclear : a = .clear i
    · subst hclear
      rw [Asks, perform, isIn_cleared, decide_eq_true rfl, Bool.not_true, Bool.and_false] at h
      cases h
    · rw [not_exists] at hwrite
      exact ((b.asks_perform hwrite hclear).mp h).imp id .inl

theorem known_perform {b : Bus Lcd A} (h : Known b.requested) (a : Act) :
    Known (b.perform a).requested := by
  cases a with
  | load addr v => exact known_advance h accessCycles
  | pass n => exact known_advance h n
  | write addr v =>
    by_cases hflag : addr = 0xFF0F
    · subst hflag
      rw [perform, requested_write_flag]
      exact known_and v
    · rw [perform, requested_write b hflag]
      exact h.or (known_ite .timer _)
  | clear i => exact h.and _
  | button button pressed =>
    rw [perform, requested_setButton]
    exact h.or (known_ite .joypad _)

/-- The requests after acts of which none takes back the one or replaces them all. -/
theorem asks_performAll (b : Bus Lcd A) {acts : List Act} {i : Interrupt}
    (hwrite : ∀ v, .write 0xFF0F v ∉ acts) (hclear : .clear i ∉ acts) :
    (b.performAll acts).Asks i ↔ b.Asks i ∨ b.Raised acts i := by
  induction acts generalizing b with
  | nil =>
    have hnone : ¬b.Raised [] i := by
      rintro ⟨before, a, after, heq, -⟩
      exact absurd heq.symm (List.append_ne_nil_of_right_ne_nil _ (List.cons_ne_nil _ _))
    exact (or_iff_left hnone).symm
  | cons a acts ih =>
    have hfirst : ∀ v, a ≠ .write 0xFF0F v :=
      fun v hv => hwrite v (hv ▸ List.mem_cons_self)
    have hrest : ∀ v, .write 0xFF0F v ∉ acts := fun v hv => hwrite v (List.mem_cons_of_mem _ hv)
    rw [List.mem_cons, not_or] at hclear
    rw [performAll, ih _ hrest hclear.2, b.asks_perform hfirst (Ne.symm hclear.1), raised_cons,
      or_assoc]

/-- A request that stands after acts was there before them, or one of them has made it. -/
theorem asks_of_performAll {b : Bus Lcd A} {acts : List Act} {i : Interrupt}
    (h : (b.performAll acts).Asks i) :
    b.Asks i ∨ b.Raised acts i ∨ ∃ v, .write 0xFF0F v ∈ acts := by
  induction acts generalizing b with
  | nil => exact .inl h
  | cons a acts ih =>
    rw [raised_cons]
    obtain hafter | hraised | ⟨v, hv⟩ := ih h
    · obtain hbefore | hraises | ⟨v, rfl⟩ := asks_of_perform hafter
      · exact .inl hbefore
      · exact .inr (.inl (.inl hraises))
      · exact .inr (.inr ⟨v, List.mem_cons_self⟩)
    · exact .inr (.inl (.inr hraised))
    · exact .inr (.inr ⟨v, List.mem_cons_of_mem _ hv⟩)

/-- An aside that leaves the requests alone. -/
def SameRequests (b b' : Bus Lcd A) : Prop := b'.requested = b.requested

/-- The register of the requests has no bits but those of the five sources. -/
theorem Traced.known {acts : List Act} {b : Bus Lcd A} (h : Traced SameRequests acts b) :
    Known b.requested := by
  induction h with
  | reset b => exact known_mask .vblank
  | act h a honest ih => exact known_perform ih a
  | aside h haside ih =>
    rw [haside]
    exact ih

end Bus

namespace Core

open Bus

variable {A : Type} [AudioUnit A] {acts : List Act} {s : Core Lcd A}

/-- Requests are neither lost nor invented. In a step, a request that stands or is raised stays
unless the step serves that interrupt or writes to the register, and what is newly requested has
been raised or written. A change of a button adds the interrupt of a press and nothing else. -/
theorem requests_conserved (h : Traced SameRequests acts s) :
    s.bus.requested.toNat < 32 ∧ (Exec.step s).2.bus.requested.toNat < 32 ∧
    (Exec.step s).2.bus = s.bus.performAll s.acts ∧
    (∀ i, s.bus.Asks i ∨ s.bus.Raised s.acts i → s.taken? ≠ some i →
      (∀ v, .write 0xFF0F v ∉ s.acts) → (Exec.step s).2.bus.Asks i) ∧
    (∀ i, ¬s.bus.Asks i → (Exec.step s).2.bus.Asks i →
      s.bus.Raised s.acts i ∨ ∃ v, .write 0xFF0F v ∈ s.acts) ∧
    ∀ button pressed i,
      (s.bus.setButton button pressed).Asks i ↔
        s.bus.Asks i ∨ i = .joypad ∧ pressed = true ∧ s.bus.joypad.isPressed button = false ∧
          s.bus.joypad.selects button.group = true := by
  refine ⟨h.bus.known.lt, h.step.bus.known.lt, s.bus_step, ?_, ?_, ?_⟩
  · intro i hasks htaken hwrite
    have hclear : .clear i ∉ s.acts := fun hmem => htaken ((s.clear_mem_acts_iff i).mp hmem)
    rw [bus_step, asks_performAll s.bus hwrite hclear]
    exact hasks
  · intro i hnot hasks
    rw [bus_step] at hasks
    exact (asks_of_performAll hasks).resolve_left hnot
  · intro button pressed i
    have hperform := s.bus.asks_perform (a := .button button pressed) (i := i) nofun nofun
    rw [raises_of_no_cycles s.bus rfl] at hperform
    refine hperform.trans (or_congr_right ?_)
    simp only [Act.button.injEq, reduceCtorEq, exists_false, false_and, and_false, false_or]
    refine and_congr_right fun _ => ⟨?_, ?_⟩
    · rintro ⟨other, ⟨rfl, rfl⟩, hup, hselected⟩
      exact ⟨rfl, hup, hselected⟩
    · rintro ⟨rfl, hup, hselected⟩
      exact ⟨button, ⟨rfl, rfl⟩, hup, hselected⟩

/-- The work RAM holds PUSH BC. The interrupts of the vertical blank and of the serial port are
requested, the first of them is enabled, and the timer is about to overflow. -/
def pushing : Core Lcd Sound :=
  let s := Core.powerOn none
  let b := s.bus.perform (.write 0xFF0F 0x09)
  { cpu := { s.cpu with ime := true, regs := { s.cpu.regs with sp := 0xDFFE, pc := 0xC000 } }
    bus :=
      { ((b.write 0xC000 0xC5).write 0xFF07 0x05).write 0xFF05 0xFF with enabled := 0x01 } }

theorem traced_pushing : Traced SameRequests [.write 0xFF0F 0x09] pushing := by
  have hreset : Traced SameRequests [] (Core.powerOn none) :=
    .reset .postBoot (Core.powerOn none).bus
  have hsame : pushing.bus.requested =
      ((Core.powerOn none).bus.perform (.write 0xFF0F 0x09)).requested := by decide +kernel
  exact (hreset.access (.write 0xFF0F 0x09) trivial).aside pushing.cpu hsame

/-- The vertical blank is served. The request of the serial port stays, and that of the timer, which
was not there before, has been raised in the step. -/
theorem requests_conserved_pushing :
    pushing.taken? = some .vblank ∧ pushing.bus.Asks .serial ∧ ¬pushing.bus.Asks .timer ∧
      (Exec.step pushing).2.bus.Asks .serial ∧ (Exec.step pushing).2.bus.Asks .timer ∧
      pushing.bus.Raised pushing.acts .timer := by
  have htaken : pushing.taken? = some .vblank := by decide +kernel
  have hserial : pushing.bus.Asks .serial := by decide +kernel
  have hbefore : ¬pushing.bus.Asks .timer := by decide +kernel
  have hafter : (Exec.step pushing).2.bus.Asks .timer := by decide +kernel
  have hacts : pushing.acts =
      [.load 0xC000 0xC5, .pass 4, .write 0xDFFD 0x00, .pass 4, .write 0xDFFC 0x13, .pass 4,
        .pass 8, .clear .vblank, .write 0xDFFB 0xC0, .pass 4, .write 0xDFFA 0x01, .pass 4,
        .pass 4] := by decide +kernel
  have hwrite : ∀ v, .write 0xFF0F v ∉ pushing.acts := by
    intro v hv
    rw [hacts] at hv
    simp at hv
  obtain ⟨-, -, -, hkept, hraised, -⟩ := requests_conserved traced_pushing
  refine ⟨htaken, hserial, hbefore, ?_, hafter, ?_⟩
  · refine hkept .serial (.inl hserial) ?_ hwrite
    rw [htaken]
    exact nofun
  · rcases hraised .timer hbefore hafter with hraised | ⟨v, hv⟩
    · exact hraised
    · exact absurd hv (hwrite v)

end Core

end Handheld
