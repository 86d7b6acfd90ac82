import Handheld.Proofs.History
import Handheld.Console

/-!
When interrupts are enabled again after one has been taken. Taking an interrupt clears the
master enable but not the countdown to it, unlike the instruction that disables interrupts
and the return that enables them. The countdown is never more than one between steps, and it
is one just after an enabling instruction. So the first instruction of a handler sets the
master enable again if the interrupt was taken in the step of an enabling instruction.
-/
namespace Handheld

namespace Manual

/-- The master enable after an instruction. -/
def enabledAfter (i : Instruction) (cpu : Cpu) : Bool :=
  match i with
  | .disableInterrupts => false
  | .retEnable => true
  | _ => cpu.ime || cpu.enableDelay == 1

theorem ime_control (i : Instruction) (cpu : Cpu) : (control i cpu).ime = enabledAfter i cpu := by
  cases i <;> rfl

theorem enableDelay_control (i : Instruction) {cpu : Cpu} (h : cpu.enableDelay ≤ 1) :
    (control i cpu).enableDelay = if i = .enableInterrupts then 1 else 0 := by
  have hcounted : (counted cpu).enableDelay = 0 := by
    simp only [counted]
    omega
  cases i with
  | enableInterrupts => rfl
  | disableInterrupts => rfl
  | retEnable => rfl
  | _ => exact hcounted

end Manual

namespace Core

variable {V A : Type} [VideoUnit V] [AudioUnit A]

theorem ime_answered (s : Core V A) :
    s.answered.cpu.ime = (s.cpu.ime && s.interrupt?.isNone) := by
  rw [answered]
  cases s.interrupt? with
  | none => simp [woken]
  | some i => simp [interrupted]

theorem enableDelay_answered (s : Core V A) :
    s.answered.cpu.enableDelay = s.cpu.enableDelay := by
  rw [answered]
  cases s.interrupt? with
  | none => rfl
  | some i => rfl

/-- A step leaves the master enable of its event, unless an interrupt is taken. -/
theorem ime_step (s : Core V A) :
    (Exec.step s).2.cpu.ime = ((s.after s.event).cpu.ime && s.taken?.isNone) := by
  rw [step_eq, next, taken?]
  by_cases h : s.event = .failed
  · simp [h]
  · simp only [if_neg h]
    exact ime_answered _

theorem enableDelay_step (s : Core V A) :
    (Exec.step s).2.cpu.enableDelay = (s.after s.event).cpu.enableDelay := by
  rw [step_eq, next]
  by_cases h : s.event = .failed
  · simp [h]
  · simp only [if_neg h]
    exact enableDelay_answered _

omit [VideoUnit V] [AudioUnit A] in
theorem interrupt?_of_not_ime {s : Core V A} (h : s.cpu.ime = false) : s.interrupt? = none := by
  simp [interrupt?, h]

/-- No interrupt is taken while the master enable is clear. -/
theorem taken?_of_not_ime {s : Core V A} (h : (s.after s.event).cpu.ime = false) :
    s.taken? = none := by
  rw [taken?, interrupt?_of_not_ime h, ite_self]

theorem ime_after_ran (i : Instruction) (s : Core V A) :
    (s.after (.ran i)).cpu.ime = Manual.enabledAfter i s.cpu := Manual.ime_control i _

theorem enableDelay_after_ran (i : Instruction) {s : Core V A} (h : s.cpu.enableDelay ≤ 1) :
    (s.after (.ran i)).cpu.enableDelay = if i = .enableInterrupts then 1 else 0 :=
  Manual.enableDelay_control i h

/-- What a step does to the switches of interrupts if it completes no instruction. -/
theorem switches_of_not_ran {s : Core V A} (h : s.moment.ran? = none) :
    (s.after s.event).cpu.ime = s.cpu.ime ∧
      (s.after s.event).cpu.enableDelay = s.cpu.enableDelay := by
  cases hevent : s.event with
  | idle => exact ⟨rfl, rfl⟩
  | failed => exact ⟨rfl, rfl⟩
  | ran i => simp [moment, Moment.ran?, hevent] at h

theorem event_of_ran? {s : Core V A} {i : Instruction} (h : s.moment.ran? = some i) :
    s.event = .ran i := by
  cases hevent : s.event with
  | idle => simp [moment, Moment.ran?, hevent] at h
  | failed => simp [moment, Moment.ran?, hevent] at h
  | ran j =>
    have hj : some j = some i := by simpa [moment, Moment.ran?, hevent] using h
    rw [Option.some.inj hj]

end Core

/-- Instructions among which none returns from a handler and none follows an enabling. -/
def Shielded (is : List Instruction) : Prop :=
  .retEnable ∉ is ∧ .enableInterrupts ∉ is.dropLast

theorem Shielded.of_cons {i : Instruction} {is : List Instruction} (h : Shielded (i :: is)) :
    i ≠ .retEnable ∧ (i = .enableInterrupts → is = []) ∧ Shielded is := by
  obtain ⟨hreturn, henable⟩ := h
  have hnot : i ≠ .retEnable := fun heq => hreturn (heq ▸ List.mem_cons_self ..)
  have htail : .retEnable ∉ is := fun hmem => hreturn (List.mem_cons_of_mem _ hmem)
  cases is with
  | nil => exact ⟨hnot, fun _ => rfl, htail, by simp⟩
  | cons j rest =>
    rw [List.dropLast_cons_of_ne_nil (List.cons_ne_nil _ _)] at henable
    refine ⟨hnot, fun heq => absurd (heq ▸ List.mem_cons_self ..) henable, htail, ?_⟩
    exact fun hmem => henable (List.mem_cons_of_mem _ hmem)

/-- The countdown after some instructions. -/
def countdown (start : Nat) (is : List Instruction) : Nat :=
  match is.getLast? with
  | some i => if i = .enableInterrupts then 1 else 0
  | none => start

theorem countdown_cons (start : Nat) (i : Instruction) (is : List Instruction) :
    countdown start (i :: is) = countdown (if i = .enableInterrupts then 1 else 0) is := by
  rw [countdown, countdown, List.getLast?_cons]
  cases is.getLast? with
  | none => rfl
  | some j => rfl

namespace History

open Moment

variable {V A : Type} [VideoUnit V] [AudioUnit A]

/-- The countdown is told by the last instruction that was completed. -/
theorem enableDelay_final {s : Core V A} {moments : List (Moment V A)} (h : History s moments)
    (hdelay : s.cpu.enableDelay ≤ 1) :
    (final s moments).cpu.enableDelay = countdown s.cpu.enableDelay (instructions moments) := by
  induction h with
  | nil s => rfl
  | step s h ih =>
    have hstep := s.enableDelay_step
    cases hran : s.moment.ran? with
    | none =>
      have hsame := (Core.switches_of_not_ran hran).2
      rw [instructions_cons_of_none hran]
      rw [hsame] at hstep
      rw [hstep] at ih
      exact ih hdelay
    | some i =>
      have hset := Core.enableDelay_after_ran i hdelay
      rw [Core.event_of_ran? hran, hset] at hstep
      rw [instructions_cons_of_some hran, countdown_cons, ← hstep]
      apply ih
      rw [hstep]
      split <;> omega
  | outside s s' hime hsame h ih =>
    rw [instructions_cons_of_none rfl, ← hsame]
    exact ih (by omega)

/-- A moment that leaves interrupts off and takes none. -/
def Quiet (m : Moment V A) : Prop := m.state.cpu.ime = false ∧ m.taken = none

theorem quiet_moment {s : Core V A} (hafter : (s.after s.event).cpu.ime = false) :
    Quiet s.moment := by
  refine ⟨?_, Core.taken?_of_not_ime hafter⟩
  change (Exec.step s).2.cpu.ime = false
  rw [Core.ime_step, hafter, Bool.false_and]

/-- An instruction leaves a countdown only if it is the last of shielded ones. -/
theorem enableDelay_of_shielded {s : Core V A} {i : Instruction} {is : List Instruction}
    (hran : s.moment.ran? = some i) (hdelay : s.cpu.enableDelay ≤ 1)
    (hlast : i = .enableInterrupts → is = []) :
    (Exec.step s).2.cpu.enableDelay = 0 ∨ is = [] := by
  rw [Core.enableDelay_step, Core.event_of_ran? hran, Core.enableDelay_after_ran i hdelay]
  by_cases heq : i = .enableInterrupts
  · exact Or.inr (hlast heq)
  · exact Or.inl (if_neg heq)

/-- With the master enable and the countdown clear, interrupts stay off among shielded
instructions. The last of them may start a countdown, which then does not end. -/
theorem quiet_of_clear {s : Core V A} {moments : List (Moment V A)} (h : History s moments)
    (hime : s.cpu.ime = false) (hdelay : s.cpu.enableDelay = 0 ∨ instructions moments = [])
    (hshielded : Shielded (instructions moments)) : ∀ m ∈ moments, Quiet m := by
  induction h with
  | nil s => simp
  | @step s rest h ih =>
    cases hran : s.moment.ran? with
    | none =>
      have hstep := s.enableDelay_step
      rw [instructions_cons_of_none hran] at hdelay hshielded
      obtain ⟨himeSame, hdelaySame⟩ := Core.switches_of_not_ran hran
      have hquiet : Quiet s.moment := quiet_moment (himeSame.trans hime)
      rw [← hdelaySame, ← hstep] at hdelay
      exact List.forall_mem_cons.mpr ⟨hquiet, ih hquiet.1 hdelay hshielded⟩
    | some i =>
      -- Only an enabling leaves a countdown, and nothing shielded follows it.
      rw [instructions_cons_of_some hran] at hdelay hshielded
      have hzero : s.cpu.enableDelay = 0 := hdelay.resolve_right (List.cons_ne_nil _ _)
      obtain ⟨hreturn, hlast, hrest⟩ := hshielded.of_cons
      have hevent := Core.event_of_ran? hran
      have hafter : (s.after s.event).cpu.ime = false := by
        rw [hevent, Core.ime_after_ran]
        cases i <;> simp [Manual.enabledAfter, hime, hzero] at hreturn ⊢
      have hquiet : Quiet s.moment := quiet_moment hafter
      have hnext := enableDelay_of_shielded hran (by omega) hlast
      exact List.forall_mem_cons.mpr ⟨hquiet, ih hquiet.1 hnext hrest⟩
  | outside s s' himeSame hdelaySame h ih =>
    rw [instructions_cons_of_none rfl] at hdelay hshielded
    rw [← hdelaySame] at hdelay
    have hime' : s'.cpu.ime = false := himeSame.trans hime
    exact List.forall_mem_cons.mpr ⟨⟨hime', rfl⟩, ih hime' hdelay hshielded⟩

/-- With a countdown that ends, all depends on the first instruction: disabling interrupts
stops the countdown; any other sets the master enable, which stays unless an interrupt is
taken at once. -/
theorem of_counting {s : Core V A} {moments : List (Moment V A)} {m : Moment V A}
    (h : History s moments) (hime : s.cpu.ime = false) (hdelay : s.cpu.enableDelay = 1)
    (hshielded : Shielded (instructions moments)) (hfirst : first? moments = some m) :
    (m.ran? = some .disableInterrupts → ∀ n ∈ moments, Quiet n) ∧
      (m.ran? ≠ some .disableInterrupts →
        (m.taken = none → m.state.cpu.ime = true) ∧
        (m.taken ≠ none → ∀ n ∈ moments, n.state.cpu.ime = false)) := by
  induction h with
  | nil s => cases hfirst
  | @step s rest h ih =>
    cases hran : s.moment.ran? with
    | none =>
      have hstep := s.enableDelay_step
      rw [instructions_cons_of_none hran] at hshielded
      rw [first?_cons_of_none hran] at hfirst
      obtain ⟨himeSame, hdelaySame⟩ := Core.switches_of_not_ran hran
      have hquiet : Quiet s.moment := quiet_moment (himeSame.trans hime)
      have hnext := hstep.trans (hdelaySame.trans hdelay)
      obtain ⟨hcancel, henable⟩ := ih hquiet.1 hnext hshielded hfirst
      refine ⟨fun hm => List.forall_mem_cons.mpr ⟨hquiet, hcancel hm⟩, fun hm => ?_⟩
      obtain ⟨hset, hnested⟩ := henable hm
      exact ⟨hset, fun ht => List.forall_mem_cons.mpr ⟨hquiet.1, hnested ht⟩⟩
    | some i =>
      -- The countdown ends with this instruction; what follows has clear switches again.
      rw [instructions_cons_of_some hran] at hshielded
      rw [first?_cons_of_some hran] at hfirst
      obtain rfl := Option.some.inj hfirst
      obtain ⟨hreturn, hlast, hrest⟩ := hshielded.of_cons
      have hevent := Core.event_of_ran? hran
      have hnext := enableDelay_of_shielded hran (by omega) hlast
      constructor
      · intro hm
        have hi : i = .disableInterrupts := Option.some.inj (hran.symm.trans hm)
        have hafter : (s.after s.event).cpu.ime = false := by
          rw [hevent, Core.ime_after_ran, hi]
          rfl
        have hquiet : Quiet s.moment := quiet_moment hafter
        exact List.forall_mem_cons.mpr ⟨hquiet, h.quiet_of_clear hquiet.1 hnext hrest⟩
      · intro hm
        have hi : i ≠ .disableInterrupts := fun heq => hm (heq ▸ hran)
        have hafter : (s.after s.event).cpu.ime = true := by
          rw [hevent, Core.ime_after_ran]
          cases i <;> simp [Manual.enabledAfter, hdelay] at hi ⊢
        have himeStep : s.moment.state.cpu.ime = s.taken?.isNone := by
          change (Exec.step s).2.cpu.ime = _
          rw [Core.ime_step, hafter, Bool.true_and]
        refine ⟨fun ht => ?_, fun ht => ?_⟩
        · have hnone : s.taken? = none := ht
          rw [himeStep, hnone]
          rfl
        · have hclear : s.moment.state.cpu.ime = false := by
            rw [himeStep]
            exact Option.isNone_eq_false_iff.mpr (Option.isSome_iff_ne_none.mpr ht)
          have hquiet := h.quiet_of_clear hclear hnext hrest
          exact List.forall_mem_cons.mpr ⟨hclear, fun n hn => (hquiet n hn).1⟩
  | outside s s' himeSame hdelaySame h ih =>
    rw [instructions_cons_of_none rfl] at hshielded
    rw [first?_cons_of_none rfl] at hfirst
    have hime' : s'.cpu.ime = false := himeSame.trans hime
    obtain ⟨hcancel, henable⟩ := ih hime' (hdelaySame.trans hdelay) hshielded hfirst
    refine ⟨fun hm => List.forall_mem_cons.mpr ⟨⟨hime', rfl⟩, hcancel hm⟩, fun hm => ?_⟩
    obtain ⟨hset, hnested⟩ := henable hm
    exact ⟨hset, fun ht => List.forall_mem_cons.mpr ⟨hime', hnested ht⟩⟩

/-- The last instruction that was completed enabled interrupts. -/
def EnablePending (moments : List (Moment V A)) : Prop :=
  (instructions moments).getLast? = some .enableInterrupts

/-- What a moment that takes an interrupt leaves. -/
theorem switches_of_taken {b : Bus V A} {before window : List (Moment V A)} {m : Moment V A}
    (h : History ⟨.postBoot, b⟩ (before ++ m :: window)) (htaken : m.taken ≠ none) :
    m.state.cpu.ime = false ∧
      (EnablePending (before ++ [m]) → m.state.cpu.enableDelay = 1) ∧
      (¬EnablePending (before ++ [m]) → m.state.cpu.enableDelay = 0) ∧
      History m.state window := by
  have hsplit : before ++ m :: window = (before ++ [m]) ++ window := by simp
  have hfinal : final ⟨.postBoot, b⟩ (before ++ [m]) = m.state := by
    rw [final_append]
    rfl
  have hdelay := (hsplit ▸ h).of_append.1.enableDelay_final (Nat.zero_le 1)
  rw [hfinal, countdown] at hdelay
  have hwindow := (hsplit ▸ h).of_append.2
  rw [hfinal] at hwindow
  refine ⟨?_, ?_, ?_, hwindow⟩
  · have hafter := h.of_append.2
    generalize final ⟨.postBoot, b⟩ before = s at hafter
    cases hafter with
    | step _ _ =>
      have hsome : s.taken?.isNone = false :=
        Option.isNone_eq_false_iff.mpr (Option.isSome_iff_ne_none.mpr htaken)
      change (Exec.step s).2.cpu.ime = false
      rw [Core.ime_step, hsome, Bool.and_false]
    | outside _ s' _ _ _ => exact absurd rfl htaken
  · intro hpending
    rw [EnablePending] at hpending
    simpa [hpending] using hdelay
  · intro hpending
    rw [EnablePending] at hpending
    cases hlast : (instructions (before ++ [m])).getLast? with
    | none => simpa [hlast, Cpu.postBoot] using hdelay
    | some i =>
      have hi : i ≠ .enableInterrupts := fun heq => hpending (heq ▸ hlast)
      simpa [hlast, hi] using hdelay

/-- From power-on, when an interrupt is taken the master enable is clear, and among
instructions that do not enable it, it stays clear and no further interrupt is taken,
unless an enabling was pending: then the first instruction sets the master enable if it
does not disable interrupts. -/
theorem interrupts_off_iff {b : Bus V A} {before window : List (Moment V A)} {m : Moment V A}
    (h : History ⟨.postBoot, b⟩ (before ++ m :: window)) (htaken : m.taken ≠ none)
    (hshielded : Shielded (instructions window)) :
    m.state.cpu.ime = false ∧
      ((∀ n ∈ window, n.state.cpu.ime = false) ↔
        ¬(EnablePending (before ++ [m]) ∧ ∃ n, first? window = some n ∧
          n.ran? ≠ some .disableInterrupts ∧ n.taken = none)) ∧
      ((∀ n ∈ window, Quiet n) ↔
        ¬(EnablePending (before ++ [m]) ∧ ∃ n, first? window = some n ∧
          n.ran? ≠ some .disableInterrupts)) := by
  obtain ⟨hime, hcounting, hclear, hwindow⟩ := h.switches_of_taken htaken
  refine ⟨hime, ?_⟩
  by_cases hleak : EnablePending (before ++ [m]) ∧ ∃ n, first? window = some n ∧
      n.ran? ≠ some .disableInterrupts
  · obtain ⟨hpending, n, hfirst, hdisable⟩ := hleak
    have hmem : n ∈ window := List.mem_of_find?_eq_some hfirst
    obtain ⟨hset, hnested⟩ :=
      (hwindow.of_counting hime (hcounting hpending) hshielded hfirst).2 hdisable
    constructor
    · constructor
      · rintro hall ⟨-, k, hk, -, hnone⟩
        obtain rfl := Option.some.inj (hfirst.symm.trans hk)
        have hfalse := hall n hmem
        rw [hset hnone] at hfalse
        cases hfalse
      · intro hno
        exact hnested fun hnone => hno ⟨hpending, n, hfirst, hdisable, hnone⟩
    · constructor
      · intro hall
        obtain ⟨hfalse, hnone⟩ := hall n hmem
        rw [hset hnone] at hfalse
        cases hfalse
      · intro hno
        exact absurd ⟨hpending, n, hfirst, hdisable⟩ hno
  · have hquiet : ∀ n ∈ window, Quiet n := by
      by_cases hpending : EnablePending (before ++ [m])
      · cases hfirst : first? window with
        | none =>
          exact hwindow.quiet_of_clear hime (Or.inr (instructions_of_first?_eq_none hfirst))
            hshielded
        | some n =>
          have hdisable : n.ran? = some .disableInterrupts := by
            by_contra hne
            exact hleak ⟨hpending, n, hfirst, hne⟩
          exact (hwindow.of_counting hime (hcounting hpending) hshielded hfirst).1 hdisable
      · exact hwindow.quiet_of_clear hime (Or.inl (hclear hpending)) hshielded
    constructor
    · refine iff_of_true (fun n hn => (hquiet n hn).1) ?_
      rintro ⟨hpending, n, hfirst, hdisable, -⟩
      exact hleak ⟨hpending, n, hfirst, hdisable⟩
    · exact iff_of_true hquiet hleak

/-- A program that enables one source of interrupts and then the master enable, twice in a
row. -/
def enablingTwice : ByteArray :=
  ⟨(List.replicate 0x100 (0 : UInt8) ++ [0x3E, 0x01, 0xE0, 0xFF, 0xFB, 0xFB]).toArray⟩

/-- The machine with that program in its cartridge, at power-on. -/
def enablingTwiceStart : Core Lcd Sound :=
  ((Console.powerOn .emulated).insertRom enablingTwice (.fixed 0)).core

/-- The second enabling sets the master enable, the request that is there since power-on is
taken, and the handler sets the master enable again. -/
theorem record_enablingTwiceStart :
    (enablingTwiceStart.record 5).map (fun m => (m.event, m.taken, m.state.cpu.ime)) =
      [(some (.ran (.loadImmediate (.reg .a))), none, false),
        (some (.ran .storeHigh), none, false), (some (.ran .enableInterrupts), none, false),
        (some (.ran .enableInterrupts), some .vblank, false),
        (some (.ran .nop), none, true)] := by
  decide +kernel

/-- The interrupt is taken in the step of the second enabling, and the handler starts with
an instruction that has nothing to do with interrupts. -/
theorem exists_record_enablingTwice :
    ∃ before m n, enablingTwiceStart.record 5 = before ++ [m, n] ∧ m.taken = some .vblank ∧
      EnablePending (before ++ [m]) ∧ n.ran? = some .nop ∧ n.taken = none ∧
      n.state.cpu.ime = true := by
  have hrun := record_enablingTwiceStart
  obtain ⟨m₀, m₁, m₂, m, n, hrecord⟩ : ∃ m₀ m₁ m₂ m n,
      enablingTwiceStart.record 5 = [m₀, m₁, m₂] ++ [m, n] := ⟨_, _, _, _, _, rfl⟩
  rw [hrecord] at hrun
  simp only [List.cons_append, List.nil_append, List.map_cons, List.map_nil, List.cons.injEq,
    Prod.mk.injEq, and_true] at hrun
  obtain ⟨⟨h₀, -⟩, ⟨h₁, -⟩, ⟨h₂, -⟩, ⟨hm, htaken, -⟩, ⟨hn, hnone, hime⟩⟩ := hrun
  have hpending : EnablePending ([m₀, m₁, m₂] ++ [m]) := by
    simp [EnablePending, instructions, ran?, h₀, h₁, h₂, hm]
  have hran : n.ran? = some .nop := by simp [ran?, hn]
  exact ⟨_, m, n, hrecord, htaken, hpending, hran, hnone, hime⟩

omit [VideoUnit V] [AudioUnit A] in
theorem shielded_of_nop {n : Moment V A} (hran : n.ran? = some .nop) :
    Shielded (instructions [n]) := by
  simp [Shielded, instructions, hran]

/-- The handler of that program runs with interrupts on. -/
theorem interrupts_off_iff_enablingTwice :
    ∃ before m n, enablingTwiceStart.record 5 = before ++ m :: [n] ∧ m.taken ≠ none ∧
      Shielded (instructions [n]) ∧ m.state.cpu.ime = false ∧
      ¬∀ k ∈ [n], k.state.cpu.ime = false := by
  obtain ⟨before, m, n, hrecord, htaken, hpending, hran, hnone, -⟩ := exists_record_enablingTwice
  have htake : m.taken ≠ none := by simp [htaken]
  have hfirst : first? [n] = some n := first?_cons_of_some hran []
  have hhistory := of_record 5 enablingTwiceStart
  rw [hrecord] at hhistory
  obtain ⟨hoff, hiff, -⟩ := interrupts_off_iff hhistory htake (shielded_of_nop hran)
  refine ⟨before, m, n, hrecord, htake, shielded_of_nop hran, hoff, fun hall => ?_⟩
  exact hiff.mp hall ⟨hpending, n, hfirst, by simp [hran], hnone⟩

/-- An enabling that is pending when an interrupt is taken sets the master enable in the
handler. -/
theorem not_interrupts_off :
    ¬∀ (b : Bus Lcd Sound) (before window : List (Moment Lcd Sound)) (m : Moment Lcd Sound),
      History ⟨.postBoot, b⟩ (before ++ m :: window) → m.taken ≠ none →
      Shielded (instructions window) → ∀ n ∈ window, n.state.cpu.ime = false := by
  intro hclaim
  obtain ⟨before, m, n, hrecord, htaken, -, hran, -, hime⟩ := exists_record_enablingTwice
  have hhistory := of_record 5 enablingTwiceStart
  rw [hrecord] at hhistory
  have hoff := hclaim _ before [n] m hhistory (by simp [htaken]) (shielded_of_nop hran) n
    (List.mem_singleton_self n)
  rw [hime] at hoff
  cases hoff

end History

end Handheld
