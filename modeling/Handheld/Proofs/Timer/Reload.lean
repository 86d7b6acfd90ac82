import Handheld.Proofs.Timer.Processor

/-!
When the counter is reloaded and when a write to it is in time. A reload that is pending as an
access begins is always cancelled by a write to the counter, and it is pending just if the
counter overflowed in the last cycle before. An overflow that a write to the divider or to the
control register makes is another matter: its delay is the access of that write, which ends in
the reload.
-/
namespace Handheld

namespace Bus

variable {V A : Type} [VideoUnit V] [AudioUnit A] {cycles : List Timer} {b : Bus V A}

/-- The counter overflows in a charge, by its write or in one of its cycles. -/
def overflowsIn (b : Bus V A) (c : Charge) : Bool :=
  (match c with
    | .store addr v => b.timer.overflowsOnWrite addr v
    | _ => false) || (b.timers c).any Timer.overflows

/-- Right after an overflow a write to the counter cancels the reload. -/
theorem write_counter_of_overflows (h : Timed cycles b)
    (hlast : ∃ s, cycles.getLast? = some s ∧ s.overflows = true) (v : UInt8) :
    (b.write 0xFF05 v).timer = { b.timer with counter := v, overflow := .idle } ∧
      ∀ s ∈ b.timers (.store 0xFF05 v), s.reloads = false := by
  have haligned := h.recorded.aligned
  obtain ⟨value, delay, hpending⟩ := h.recorded.pending_iff.mpr hlast
  have hwrite : (b.write 0xFF05 v).timer = { b.timer with counter := v, overflow := .idle } :=
    (timer_write b 0xFF05 v).trans (haligned.writeCounter_of_pending hpending v)
  have hsteady := steady_begun haligned (.store 0xFF05 v)
  exact ⟨hwrite, hsteady.reloads_eq_false (congrArg Timer.overflow hwrite)⟩

/-- Unless a reload was made in the last cycle, a write to the counter takes effect. -/
theorem write_counter_of_not_reloads (h : Timed cycles b)
    (hlast : ¬∃ s, cycles.getLast? = some s ∧ s.reloads = true) (v : UInt8) :
    (b.write 0xFF05 v).timer = { b.timer with counter := v, overflow := .idle } := by
  rw [← h.recorded.reloading_iff] at hlast
  exact (timer_write b 0xFF05 v).trans
    (h.recorded.aligned.writeCounter_of_not_reloading hlast v)

/-- Right after a reload a write to the counter does nothing. -/
theorem write_counter_of_reloads (h : Timed cycles b)
    (hlast : ∃ s, cycles.getLast? = some s ∧ s.reloads = true) (v : UInt8) :
    (b.write 0xFF05 v).timer = b.timer :=
  (timer_write b 0xFF05 v).trans
    (Timer.writeCounter_of_reloading (h.recorded.reloading_iff.mpr hlast) v)

/-- The timer in the runs in which cycles pass in charges only, as those of the processor do.
It is described where an access begins, in the cycles of reloads, under a write to the counter
in the cycle after an overflow or after a reload, and in an access whose own write makes the
counter overflow. -/
theorem reload_timing (h : Timed cycles b) :
    (∀ cpu, ∃ more, Timed (cycles ++ more) (Exec.step ⟨cpu, b⟩).2.bus) ∧
    (b.timer.divider.toNat % 4 = 0 ∧ b.timer.oldModulo = none ∧
      (b.timer.overflow = .idle ∨
        b.timer.overflow = .pending b.timer.modulo Timer.reloadDelay ∨
        b.timer.overflow = .reloading)) ∧
    ((∀ s ∈ cycles, s.reloads = true → s.cycle.counter = s.modulo ∧ s.tick.2 = true) ∧
      (∀ addr v, (b.timer.write addr v).2 = 0) ∧
      ∀ c, ∀ s ∈ b.timers c, s.reloads = true →
        (b.charge c).requested &&& Interrupt.timer.mask = Interrupt.timer.mask) ∧
    ((∃ s, cycles.getLast? = some s ∧ s.overflows = true) → ∀ v,
      (b.write 0xFF05 v).timer = { b.timer with counter := v, overflow := .idle } ∧
        ∀ s ∈ b.timers (.store 0xFF05 v), s.reloads = false) ∧
    ((∃ s, cycles.getLast? = some s ∧ s.reloads = true) → ∀ v,
      (b.write 0xFF05 v).timer = b.timer) ∧
    (∀ v, (b.write 0xFF05 v).timer ≠ { b.timer with counter := v, overflow := .idle } →
      ∃ s, cycles.getLast? = some s ∧ s.reloads = true) ∧
    ∀ addr v, b.timer.overflowsOnWrite addr v = true →
      ∃ s, (b.timers (.store addr v)).getLast? = some s ∧ s.reloads = true := by
  have hr := h.recorded
  have haligned := hr.aligned
  refine ⟨?_, ⟨haligned.divider_mod, haligned.oldModulo_eq, ?_⟩, ⟨?_, ?_, ?_⟩, ?_, ?_, ?_, ?_⟩
  · intro cpu
    exact Core.timed_step (s := ⟨cpu, b⟩) h
  · cases hoverflow : b.timer.overflow with
    | idle => exact .inl rfl
    | reloading => exact .inr (.inr rfl)
    | pending value delay =>
      obtain ⟨rfl, rfl, -⟩ := haligned.pending _ _ hoverflow
      exact .inr (.inl rfl)
  · intro s hs hreloads
    exact ⟨hr.counter_cycle s hs hreloads, s.raised_tick.trans hreloads⟩
  · exact haligned.raised_write
  · intro c s hs hreloads
    exact requested_charge hs hreloads
  · intro hlast v
    exact write_counter_of_overflows h hlast v
  · intro hlast v
    exact write_counter_of_reloads h hlast v
  · intro v hlost
    by_contra hlast
    exact hlost (write_counter_of_not_reloads h hlast v)
  · intro addr v hoverflows
    exact reloads_last_of_overflowsOnWrite haligned hoverflows

theorem timer_charge (b : Bus V A) (c : Charge) :
    (b.charge c).timer = Timer.cycle^[c.cycles] (b.begun c).timer := timer_advance _ _

/-- A machine without a cartridge in which the counter is full, its modulo is set and the watched
bit is high. -/
def armed : Bus Lcd Sound :=
  [Charge.store 0xFF06 0x42, .store 0xFF05 0xFF, .store 0xFF07 0x05].foldl charge
    (powerOn .postBoot none none).reset

theorem timed_armed : ∃ cycles, Timed cycles armed :=
  ⟨_, (((Timed.reset _).charge _).charge _).charge _⟩

theorem timer_armed : armed.timer = ⟨0xABD8, 0xFF, 0x42, 0x05, true, none, .idle⟩ := by
  simp only [armed, List.foldl, timer_charge, begun, timer_write]
  decide

/-- Two machine cycles later the counter overflows, and a write to it is in time. -/
theorem reload_timing_armed :
    ∃ cycles, Timed cycles (armed.charge (.delay 2)) ∧
      (∃ s, cycles.getLast? = some s ∧ s.overflows = true) ∧
      ((armed.charge (.delay 2)).write 0xFF05 0x10).timer =
        ⟨0xABE0, 0x10, 0x42, 0x05, false, none, .idle⟩ := by
  obtain ⟨cycles, h⟩ := timed_armed
  have hlast : (cycles ++ armed.timers (.delay 2)).getLast? =
      some (Timer.cycle^[7] armed.timer) := by
    rw [List.getLast?_append]
    rfl
  have hoverflows : ∃ s, (cycles ++ armed.timers (.delay 2)).getLast? = some s ∧
      s.overflows = true := by
    refine ⟨_, hlast, ?_⟩
    rw [timer_armed]
    decide
  obtain ⟨-, -, -, hcancel, -⟩ := reload_timing (h.charge (.delay 2))
  refine ⟨_, h.charge (.delay 2), hoverflows, ?_⟩
  rw [(hcancel hoverflows 0x10).1, timer_charge, begun, timer_armed]
  decide

/-- A write to the counter in the access after an overflow does not always cancel the reload. If
the overflow comes from a write to the control register, the reload has been made by then. -/
theorem not_write_counter_cancels :
    ¬∀ (cycles : List Timer) (b : Bus Lcd Sound), Timed cycles b → ∀ c, b.overflowsIn c = true →
      ∀ v, ((b.charge c).write 0xFF05 v).timer =
        { (b.charge c).timer with counter := v, overflow := .idle } := by
  intro hclaim
  obtain ⟨cycles, h⟩ := timed_armed
  have hoverflows : armed.overflowsIn (.store 0xFF07 0) = true := by
    have hwrite : armed.timer.overflowsOnWrite 0xFF07 0 = true := by
      rw [timer_armed]
      decide
    rw [overflowsIn, hwrite, Bool.true_or]
  have hcancelled := hclaim cycles armed h (.store 0xFF07 0) hoverflows 0x10
  simp only [timer_write, timer_charge, begun, timer_armed] at hcancelled
  revert hcancelled
  decide

end Bus

end Handheld
