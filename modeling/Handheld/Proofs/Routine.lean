import Handheld.Console
import Handheld.Proofs.Cartridge.Log
import Handheld.Proofs.Stack

/-!
Calls and returns. Between a call and its return any halves of steps may lie, as long as the stack
pointer does not rise above where the call has left it and nothing but the stack writes to the
return address. So a return goes back to where the call was, be it an instruction or an interrupt,
and a word that is saved is restored.
-/
namespace Handheld

open Bus (Act)

/-- Whether an event pushes a word, if it pushes at all. -/
def Event.pushes : Event → Bool
  | .ran (.push _) | .ran (.call _) | .ran (.restart _) => true
  | _ => false

/-- The mask of a byte, applied to a word. -/
theorem Word.join_low_and (v : UInt16) :
    Word.join (Word.high v) (Word.low v &&& 0xF0) = v &&& 0xFFF0 := by
  apply UInt16.toNat_inj.mp
  have hlt := v.toNat_lt
  have hhigh : (v.toNat &&& 65520) / 256 = v.toNat / 256 := by
    have hdiv : (v.toNat &&& 65520) / 256 = v.toNat / 256 &&& 255 := Nat.and_div_two_pow (n := 8)
    rw [hdiv, Nat.and_two_pow_sub_one_eq_mod _ 8]
    omega
  have hlow : (v.toNat &&& 65520) % 256 = v.toNat % 256 &&& 240 := Nat.and_mod_two_pow (n := 8)
  have hbyte : (0xF0 : UInt8).toNat = 240 := rfl
  have hword : (0xFFF0 : UInt16).toNat = 65520 := rfl
  rw [Word.toNat_join, UInt8.toNat_and, Word.toNat_low, Word.toNat_high, UInt16.toNat_and, hbyte,
    hword]
  omega

/-- What is read back from a pair is what was stored, but for the lower half of the flags. -/
theorem Registers.word_setWord (r : Registers) (x : WordReg) (v : UInt16) :
    (r.setWord x v).word x = if x = .af then v &&& 0xFFF0 else v := by
  cases x with
  | af =>
    have hflags : ∀ b : UInt8, (Flags.ofByte b).toByte = b &&& 0xF0 :=
      forall_byte (by decide +kernel)
    rw [if_pos rfl, ← Word.join_low_and, ← hflags]
    rfl
  | sp => rfl
  | pc => rfl
  | _ => exact Word.join_high_low v

namespace Core

variable {V A : Type} [VideoUnit V] [AudioUnit A]

/-- What an event writes besides the stack leaves a word alone. -/
def Spares (s : Core V A) (word : UInt16) : Prop :=
  s.event.pushes = false → ∀ addr v, .write addr v ∈ s.eventActs →
    Bus.cellAt addr ≠ Bus.cellAt word ∧ Bus.cellAt addr ≠ Bus.cellAt (word + 1)

/-- The stack pointer is in the area and not above where a routine has been entered. -/
def Within (area : StackArea) (entry sp : UInt16) : Prop :=
  area.low ≤ sp.toNat ∧ sp ≤ entry

/-- A routine that has been entered with a return address on top of the stack: events and answers
to requests, in any order, and counts of cycles. -/
inductive Routine (area : StackArea) (start : Core V A) : Core V A → Prop
  | enter : Routine area start start
  | event {s : Core V A} (h : Routine area start s)
      (hsp : Within area start.cpu.regs.sp (s.after s.event).cpu.regs.sp)
      (hspares : s.Spares start.cpu.regs.sp) : Routine area start (s.after s.event)
  | answer {s : Core V A} (h : Routine area start s)
      (hsp : Within area start.cpu.regs.sp s.answered.cpu.regs.sp) : Routine area start s.answered
  | count {s : Core V A} (h : Routine area start s) (taken : Nat) :
      Routine area start (s.charge taken)

/-- A subroutine is entered, with the address that its return should lead to. -/
inductive Calls : Core V A → UInt16 → Core V A → Prop
  | call {s : Core V A} {c : Option Condition} (hevent : s.event = .ran (.call c))
      (htaken : Manual.holds s.cpu.regs.flags c = true) :
      Calls s (s.cpu.regs.pc + 3) (s.after s.event)
  | restart {s : Core V A} {slot : Fin 8} (hevent : s.event = .ran (.restart slot)) :
      Calls s (s.cpu.regs.pc + 1) (s.after s.event)
  | interrupt {s : Core V A} {i : Interrupt} (hdue : s.interrupt? = some i) :
      Calls s s.cpu.regs.pc s.answered

/-- The instruction that comes next returns. -/
inductive Returns : Core V A → Prop
  | always {s : Core V A} (hevent : s.event = .ran (.ret none)) : Returns s
  | conditional {s : Core V A} {c : Condition} (hevent : s.event = .ran (.ret (some c)))
      (htaken : Manual.holds s.cpu.regs.flags (some c) = true) : Returns s
  | enabling {s : Core V A} (hevent : s.event = .ran .retEnable) : Returns s

section Unfold

attribute [local irreducible] Bus.advance Bus.read Bus.write Word.join

/-- What is pushed by a call. -/
theorem after_call {s : Core V A} {c : Option Condition}
    (htaken : Manual.holds s.cpu.regs.flags c = true) :
    (s.after (.ran (.call c))).cpu.regs.sp = s.cpu.regs.sp - 2 ∧
      (s.after (.ran (.call c))).bus =
        ((((s.bus.advance Bus.accessCycles).advance Bus.accessCycles).advance
          Bus.accessCycles).advance machineCycle).pushWord s.cpu.regs.sp (s.cpu.regs.pc + 3) := by
  have htaken : Manual.holds (Manual.past (.call c) s.cpu.regs).flags c = true := htaken
  simp only [after, played, Manual.script, Manual.operation, Manual.immediateWord, Script.play]
  rw [if_pos htaken]
  exact ⟨rfl, rfl⟩

theorem after_restart (s : Core V A) (slot : Fin 8) :
    (s.after (.ran (.restart slot))).cpu.regs.sp = s.cpu.regs.sp - 2 ∧
      (s.after (.ran (.restart slot))).bus =
        ((s.bus.advance Bus.accessCycles).advance machineCycle).pushWord s.cpu.regs.sp
          (s.cpu.regs.pc + 1) := ⟨rfl, rfl⟩

theorem after_push (s : Core V A) {src : WordReg} (hsrc : src ≠ .pc) :
    (s.after (.ran (.push src))).cpu.regs.sp = s.cpu.regs.sp - 2 ∧
      (s.after (.ran (.push src))).bus =
        ((s.bus.advance Bus.accessCycles).advance machineCycle).pushWord s.cpu.regs.sp
          (s.cpu.regs.word src) := by
  rw [Manual.word_eq_heldWord]
  cases src with
  | pc => exact absurd rfl hsrc
  | _ => exact ⟨rfl, rfl⟩

theorem after_interrupt (s : Core V A) (i : Interrupt) :
    (s.interrupted i).cpu.regs.sp = s.cpu.regs.sp - 2 ∧
      (s.interrupted i).bus =
        (((s.bus.advance (2 * machineCycle)).perform (.clear i)).pushWord s.cpu.regs.sp
          s.cpu.regs.pc).advance machineCycle := ⟨rfl, rfl⟩

/-- What a return takes from the stack. -/
theorem after_ret (s : Core V A) :
    (s.after (.ran (.ret none))).cpu.regs.sp = s.cpu.regs.sp + 2 ∧
      (s.after (.ran (.ret none))).cpu.regs.pc =
        ((s.bus.advance Bus.accessCycles).loadWord s.cpu.regs.sp).1 := ⟨rfl, rfl⟩

theorem after_retIf {s : Core V A} {c : Condition}
    (htaken : Manual.holds s.cpu.regs.flags (some c) = true) :
    (s.after (.ran (.ret (some c)))).cpu.regs.sp = s.cpu.regs.sp + 2 ∧
      (s.after (.ran (.ret (some c)))).cpu.regs.pc =
        (((s.bus.advance Bus.accessCycles).advance machineCycle).loadWord s.cpu.regs.sp).1 := by
  have htaken : Manual.holds (Manual.past (.ret (some c)) s.cpu.regs).flags (some c) = true :=
    htaken
  simp only [after, played, Manual.script, Manual.operation, Script.play]
  rw [if_pos htaken]
  exact ⟨rfl, rfl⟩

theorem after_retEnable (s : Core V A) :
    (s.after (.ran .retEnable)).cpu.regs.sp = s.cpu.regs.sp + 2 ∧
      (s.after (.ran .retEnable)).cpu.regs.pc =
        ((s.bus.advance Bus.accessCycles).loadWord s.cpu.regs.sp).1 := ⟨rfl, rfl⟩

theorem after_pop (s : Core V A) (dst : WordReg) :
    (s.after (.ran (.pop dst))).cpu.regs =
      { s.cpu.regs with pc := s.cpu.regs.pc + 1, sp := s.cpu.regs.sp + 2 }.setWord dst
        ((s.bus.advance Bus.accessCycles).loadWord s.cpu.regs.sp).1 := by
  rw [Manual.setWord_eq_putWord]
  rfl

/-- What an event that pushes writes. -/
theorem eq_of_write_mem_eventActs {s : Core V A} (hpushes : s.event.pushes = true) {addr : UInt16}
    {v : UInt8} (hmem : .write addr v ∈ s.eventActs) :
    (s.after s.event).cpu.regs.sp = s.cpu.regs.sp - 2 ∧
      (addr = s.cpu.regs.sp - 1 ∨ addr = s.cpu.regs.sp - 2) := by
  unfold eventActs at hmem
  cases hevent : s.event with
  | idle => rw [hevent] at hpushes; cases hpushes
  | failed => rw [hevent] at hpushes; cases hpushes
  | ran i =>
    rw [hevent] at hpushes hmem
    cases i with
    | push src =>
      simp only [Manual.script, Manual.operation, Manual.push, Script.acts, List.mem_cons,
        Act.write.injEq, reduceCtorEq, List.not_mem_nil, false_or, or_false] at hmem
      exact ⟨rfl, hmem.imp And.left And.left⟩
    | restart slot =>
      simp only [Manual.script, Manual.operation, Manual.call, Manual.push, Script.acts,
        List.mem_cons, Act.write.injEq, reduceCtorEq, List.not_mem_nil, false_or, or_false] at hmem
      exact ⟨rfl, hmem.imp And.left And.left⟩
    | call c =>
      simp only [Manual.script, Manual.operation, Manual.immediateWord, Script.acts, List.mem_cons,
        reduceCtorEq, false_or] at hmem
      by_cases htaken : Manual.holds (Manual.past (.call c) s.cpu.regs).flags c = true
      · rw [if_pos htaken] at hmem
        simp only [Manual.call, Manual.push, Script.acts, List.mem_cons, Act.write.injEq,
          reduceCtorEq, List.not_mem_nil, false_or, or_false] at hmem
        exact ⟨(after_call htaken).1, hmem.imp And.left And.left⟩
      · rw [if_neg htaken] at hmem
        cases hmem
    | _ => cases hpushes

/-- What the answer to a request writes. -/
theorem eq_of_write_mem_answerActs {s : Core V A} {addr : UInt16} {v : UInt8}
    (hmem : .write addr v ∈ s.answerActs) :
    s.answered.cpu.regs.sp = s.cpu.regs.sp - 2 ∧
      (addr = s.cpu.regs.sp - 1 ∨ addr = s.cpu.regs.sp - 2) := by
  unfold answerActs at hmem
  rw [answered]
  cases hdue : s.interrupt? with
  | none =>
    rw [hdue] at hmem
    cases hmem
  | some i =>
    rw [hdue] at hmem
    simp only [interruptScript, Manual.push, Script.acts, List.mem_cons, Act.write.injEq,
      reduceCtorEq, List.not_mem_nil, false_or, or_false] at hmem
    exact ⟨rfl, hmem.imp And.left And.left⟩

end Unfold

variable {area : StackArea} {entry sp ret v : UInt16} {start s t : Core V A}

theorem Within.admits (h : Within area entry sp) (hentry : area.Admits entry) : area.Admits sp :=
  ⟨h.1, Nat.le_trans (UInt16.le_iff_toNat_le.mp h.2) hentry.2⟩

/-- A push within a routine leaves the return address alone. -/
theorem Within.spares (h : Within area entry sp) (hpushed : Within area entry (sp - 2))
    (hentry : area.Admits entry) (hword : entry.toNat + 2 ≤ area.high) {addr : UInt16}
    (haddr : addr = sp - 1 ∨ addr = sp - 2) :
    Bus.cellAt addr ≠ Bus.cellAt entry ∧ Bus.cellAt addr ≠ Bus.cellAt (entry + 1) := by
  obtain ⟨hone, htwo, hfirst, hsecond⟩ := (h.admits hentry).push (hpushed.admits hentry)
  obtain ⟨hupper, -, hlow, hhigh⟩ := hentry.pop hword
  have hle := UInt16.le_iff_toNat_le.mp h.2
  have hin : area.Contains addr := by
    rcases haddr with rfl | rfl
    · exact hfirst
    · exact hsecond
  have hbelow : addr.toNat < entry.toNat := by
    rcases haddr with rfl | rfl <;> omega
  constructor
  · intro hcell
    rw [(hlow.cellAt_inj hin).mp hcell] at hbelow
    exact Nat.lt_irrefl _ hbelow
  · intro hcell
    rw [(hhigh.cellAt_inj hin).mp hcell] at hbelow
    omega

/-- Whatever a routine does, the return address stays where it is. -/
theorem Routine.holdsWord (h : Routine area start s)
    (hentry : area.Admits start.cpu.regs.sp) (hword : start.cpu.regs.sp.toNat + 2 ≤ area.high)
    (hholds : start.bus.HoldsWord start.cpu.regs.sp v) :
    Within area start.cpu.regs.sp s.cpu.regs.sp ∧ s.bus.HoldsWord start.cpu.regs.sp v := by
  obtain ⟨-, -, hlow, hhigh⟩ := hentry.pop hword
  induction h with
  | enter => exact ⟨⟨hentry.1, UInt16.le_refl _⟩, hholds⟩
  | @event s h hsp hspares ih =>
    obtain ⟨hwithin, hkept⟩ := ih
    refine ⟨hsp, ?_⟩
    rw [bus_after]
    refine hkept.performAll hlow hhigh fun addr w hmem => ?_
    -- A push stays below the entry by itself, and other writes do by assumption.
    cases hpushes : s.event.pushes with
    | false => exact hspares hpushes addr w hmem
    | true =>
      obtain ⟨hafter, haddr⟩ := eq_of_write_mem_eventActs hpushes hmem
      exact hwithin.spares (hafter ▸ hsp) hentry hword haddr
  | @answer s h hsp ih =>
    obtain ⟨hwithin, hkept⟩ := ih
    refine ⟨hsp, ?_⟩
    rw [bus_answered]
    refine hkept.performAll hlow hhigh fun addr w hmem => ?_
    obtain ⟨hafter, haddr⟩ := eq_of_write_mem_answerActs hmem
    exact hwithin.spares (hafter ▸ hsp) hentry hword haddr
  | count h taken ih => exact ih

/-- A subroutine is entered with the return address on top of the stack. -/
theorem Calls.holdsWord (h : Calls s ret t) (hsp : area.Admits s.cpu.regs.sp)
    (hpushed : area.Admits t.cpu.regs.sp) :
    t.cpu.regs.sp = s.cpu.regs.sp - 2 ∧ t.bus.HoldsWord t.cpu.regs.sp ret := by
  cases h with
  | call hevent htaken =>
    rw [hevent] at hpushed ⊢
    obtain ⟨hafter, hbus⟩ := after_call htaken
    rw [hafter] at hpushed
    rw [hafter, hbus]
    exact ⟨rfl, Bus.holdsWord_pushWord hsp hpushed _ _⟩
  | @restart slot hevent =>
    rw [hevent] at hpushed ⊢
    obtain ⟨hafter, hbus⟩ := after_restart s slot
    rw [hafter] at hpushed
    rw [hafter, hbus]
    exact ⟨rfl, Bus.holdsWord_pushWord hsp hpushed _ _⟩
  | @interrupt i hdue =>
    have hanswered : s.answered = s.woken.interrupted i := by rw [answered, hdue]
    rw [hanswered] at hpushed ⊢
    obtain ⟨hafter, hbus⟩ := after_interrupt s.woken i
    rw [hafter] at hpushed
    rw [hafter, hbus]
    have hsp : area.Admits s.woken.cpu.regs.sp := hsp
    obtain ⟨-, -, hhigh, hlow⟩ := hsp.push hpushed
    have hupper : s.woken.cpu.regs.sp - 2 + 1 = s.woken.cpu.regs.sp - 1 := by grind
    exact ⟨rfl, (Bus.holdsWord_pushWord hsp hpushed _ _).advance hlow (hupper ▸ hhigh) _⟩

/-- A return takes the address that is on top of the stack. -/
theorem Returns.pc_eq (h : Returns t) (hholds : t.bus.HoldsWord t.cpu.regs.sp ret)
    (hsp : area.Admits t.cpu.regs.sp) (hword : t.cpu.regs.sp.toNat + 2 ≤ area.high) :
    (t.after t.event).cpu.regs.sp = t.cpu.regs.sp + 2 ∧ (t.after t.event).cpu.regs.pc = ret := by
  obtain ⟨-, -, hlow, hhigh⟩ := hsp.pop hword
  have hfetched := hholds.advance hlow hhigh Bus.accessCycles
  cases h with
  | always hevent =>
    rw [hevent]
    obtain ⟨hafter, hpc⟩ := after_ret t
    exact ⟨hafter, hpc.trans (Bus.loadWord_of_holdsWord hfetched hsp hword)⟩
  | conditional hevent htaken =>
    rw [hevent]
    obtain ⟨hafter, hpc⟩ := after_retIf htaken
    have hwaited := hfetched.advance hlow hhigh machineCycle
    exact ⟨hafter, hpc.trans (Bus.loadWord_of_holdsWord hwaited hsp hword)⟩
  | enabling hevent =>
    rw [hevent]
    obtain ⟨hafter, hpc⟩ := after_retEnable t
    exact ⟨hafter, hpc.trans (Bus.loadWord_of_holdsWord hfetched hsp hword)⟩

/-- The program counter is not pushed by an instruction of its own. -/
theorem pushed_ne_pc {src : WordReg} (h : s.event = .ran (.push src)) : src ≠ .pc := by
  rintro rfl
  have hnever : ∀ op : UInt8, Instruction.decode op ≠ some (.push .pc) :=
    forall_byte (by decide +kernel)
  rw [event] at h
  split at h
  · cases h
  · split at h
    · next i hdecode => exact hnever _ (hdecode.trans (congrArg some (Event.ran.inj h)))
    · cases h

/-- A return from a routine that balances the stack goes back to where the call was. -/
theorem Calls.return_eq (h : Calls s ret start) (hsp : area.Admits s.cpu.regs.sp)
    (hpushed : area.Admits start.cpu.regs.sp) (hroutine : Routine area start t)
    (hbalanced : t.cpu.regs.sp = start.cpu.regs.sp) (hreturns : Returns t) :
    (t.after t.event).cpu.regs.pc = ret ∧ (t.after t.event).cpu.regs.sp = s.cpu.regs.sp := by
  obtain ⟨hentry, hholds⟩ := h.holdsWord hsp hpushed
  have hword : start.cpu.regs.sp.toNat + 2 ≤ area.high := by
    obtain ⟨-, htwo, -, -⟩ := hsp.push (hentry ▸ hpushed)
    rw [hentry, htwo]
    exact hsp.2
  obtain ⟨-, hkept⟩ := hroutine.holdsWord hpushed hword hholds
  rw [← hbalanced] at hpushed hword hkept
  obtain ⟨hafter, hpc⟩ := hreturns.pc_eq hkept hpushed hword
  refine ⟨hpc, ?_⟩
  rw [hafter, hbalanced, hentry]
  grind

/-- A word that is saved over a routine that balances the stack is restored. -/
theorem word_of_push_of_pop {src dst : WordReg} (hpush : s.event = .ran (.push src))
    (hsp : area.Admits s.cpu.regs.sp) (hpushed : area.Admits (s.cpu.regs.sp - 2))
    (hroutine : Routine area (s.after s.event) t) (hbalanced : t.cpu.regs.sp = s.cpu.regs.sp - 2)
    (hpop : t.event = .ran (.pop dst)) :
    (t.after t.event).cpu.regs.word dst =
      if dst = .af then s.cpu.regs.word src &&& 0xFFF0 else s.cpu.regs.word src := by
  obtain ⟨hentry, hbus⟩ := after_push s (pushed_ne_pc hpush)
  rw [← hpush] at hentry hbus
  have hholds : (s.after s.event).bus.HoldsWord (s.after s.event).cpu.regs.sp
      (s.cpu.regs.word src) := by
    rw [hentry, hbus]
    exact Bus.holdsWord_pushWord hsp hpushed _ _
  have hword : (s.cpu.regs.sp - 2).toNat + 2 ≤ area.high := by
    rw [(hsp.push hpushed).2.1]
    exact hsp.2
  obtain ⟨-, hkept⟩ := hroutine.holdsWord (hentry ▸ hpushed) (hentry ▸ hword) hholds
  rw [hentry, ← hbalanced] at hkept
  rw [← hbalanced] at hpushed hword
  obtain ⟨-, -, hlow, hhigh⟩ := hpushed.pop hword
  have hfetched := hkept.advance hlow hhigh Bus.accessCycles
  rw [hpop, after_pop, Registers.word_setWord, Bus.loadWord_of_holdsWord hfetched hpushed hword]

/-- A stack in memory is a stack. However pushes, pops and time follow each other, what is popped is
what a list says, the stack pointer tells the length of the list, and what lies above is not
touched. So every return from a routine that balances the stack goes back to where the call was, be
it an instruction or an interrupt, and a word that is saved over such a routine is restored, but for
the lower half of the flags. Whole steps are an event, an answer and a count of cycles. -/
theorem stack_is_stack (area : StackArea) :
    (∀ (s : Core V A) (ops : List StackOp) (left popped : List UInt16),
      StackOp.applyAll ops [] = some (left, popped) → StackOp.StaysIn area ops s →
      (StackOp.runAll ops s).1 = popped ∧
        (StackOp.runAll ops s).2.cpu.regs.sp.toNat + 2 * left.length = s.cpu.regs.sp.toNat ∧
        ∀ addr, area.Contains addr → s.cpu.regs.sp ≤ addr →
          (StackOp.runAll ops s).2.bus.read addr = s.bus.read addr) ∧
    (∀ (s entered t : Core V A) (ret : UInt16), Calls s ret entered →
      area.Admits s.cpu.regs.sp → area.Admits entered.cpu.regs.sp →
      Routine area entered t → t.cpu.regs.sp = entered.cpu.regs.sp → Returns t →
      (t.after t.event).cpu.regs.pc = ret ∧ (t.after t.event).cpu.regs.sp = s.cpu.regs.sp) ∧
    (∀ (s t : Core V A) (src dst : WordReg), s.event = .ran (.push src) →
      area.Admits s.cpu.regs.sp → area.Admits (s.cpu.regs.sp - 2) →
      Routine area (s.after s.event) t → t.cpu.regs.sp = s.cpu.regs.sp - 2 →
      t.event = .ran (.pop dst) →
      (t.after t.event).cpu.regs.word dst =
        if dst = .af then s.cpu.regs.word src &&& 0xFFF0 else s.cpu.regs.word src) ∧
    ∀ s : Core V A, s.event ≠ .failed →
      (Exec.step s).2 = (s.after s.event).answered.charge s.cost := by
  refine ⟨?_, ?_, ?_, ?_⟩
  · intro s ops left popped happly hstays
    have hsp := hstays.admits
    obtain ⟨hpopped, hgrown⟩ := StackOp.grown_runAll (.begun hsp) hsp happly hstays
    exact ⟨hpopped, hgrown.depth, hgrown.above⟩
  · intro s entered t ret hcalls hsp hpushed hroutine hbalanced hreturns
    exact hcalls.return_eq hsp hpushed hroutine hbalanced hreturns
  · intro s t src dst hpush hsp hpushed hroutine hbalanced hpop
    exact word_of_push_of_pop hpush hsp hpushed hroutine hbalanced hpop
  · intro s hevent
    rw [step_eq, next, if_neg hevent]

/-- The part of the last page that is plain storage. -/
def lastPage : StackArea := ⟨0xFF80, 0xFFFF, .inr ⟨Nat.le_refl _, Nat.le_refl _⟩⟩

/-- A machine with a program. -/
def running (program : List UInt8) : Core Lcd Sound :=
  ((Console.powerOn .emulated).insertRom
    ⟨(List.replicate 0x100 (0 : UInt8) ++ program).toArray⟩ (.fixed 0)).core

/-- A call of a subroutine that returns at once. -/
def calling : Core Lcd Sound := running [0xCD, 0x04, 0x01, 0x00, 0xC9]

/-- PUSH BC, INC BC and POP AF. -/
def saving : Core Lcd Sound := running [0xC5, 0x03, 0xF1]

/-- Two words come back in the reverse order, the subroutine returns past the call, and what was in
BC before the increment is in AF, without the lower half of C. -/
theorem stack_is_stack_calling :
    (StackOp.runAll [.push 0x1234, .pass 100, .push 0xABCD, .pop, .pop] calling).1 =
        [0xABCD, 0x1234] ∧
      ((Exec.step calling).2.after (Exec.step calling).2.event).cpu.regs.pc = 0x0103 ∧
      saving.cpu.regs.word .bc = 0x0013 ∧
      (Exec.step (Exec.step saving).2).2.cpu.regs.word .bc = 0x0014 ∧
      let popping := (Exec.step (Exec.step saving).2).2
      (popping.after popping.event).cpu.regs.word .af = 0x0010 := by
  obtain ⟨hlist, hreturn, hrestore, hstep⟩ := stack_is_stack (V := Lcd) (A := Sound) lastPage
  refine ⟨?_, ?_, by decide +kernel, by decide +kernel, ?_⟩
  · refine (hlist calling _ [] [0xABCD, 0x1234] rfl ?_).1
    refine ⟨?_, ?_, ?_, ?_, ?_, ?_⟩ <;> exact ⟨by decide +kernel, by decide +kernel⟩
  · have hevent : calling.event = .ran (.call none) := by decide +kernel
    have hret : (Exec.step calling).2.event = .ran (.ret none) := by decide +kernel
    have hroutine : Routine lastPage (calling.after calling.event) (Exec.step calling).2 := by
      rw [hstep calling (by rw [hevent]; exact Event.noConfusion)]
      exact .count (.answer .enter ⟨by decide +kernel, by decide +kernel⟩) _
    exact (hreturn calling _ _ _ (.call hevent rfl) ⟨by decide +kernel, by decide +kernel⟩
      ⟨by decide +kernel, by decide +kernel⟩ hroutine (by decide +kernel) (.always hret)).1
  · have hpush : saving.event = .ran (.push .bc) := by decide +kernel
    have hcount : (Exec.step saving).2.event = .ran (.incrementWord .bc) := by decide +kernel
    have hpop : (Exec.step (Exec.step saving).2).2.event = .ran (.pop .af) := by decide +kernel
    have hstarted : Routine lastPage (saving.after saving.event) (Exec.step saving).2 := by
      rw [hstep saving (by rw [hpush]; exact Event.noConfusion)]
      exact .count (.answer .enter ⟨by decide +kernel, by decide +kernel⟩) _
    have hspares : (Exec.step saving).2.Spares (saving.after saving.event).cpu.regs.sp := by
      intro _ addr v hwrite
      rw [eventActs, hcount] at hwrite
      simp [Manual.script, Manual.operation, Script.acts] at hwrite
    have hroutine : Routine lastPage (saving.after saving.event)
        (Exec.step (Exec.step saving).2).2 := by
      rw [hstep (Exec.step saving).2 (by rw [hcount]; exact Event.noConfusion)]
      exact .count (.answer (.event hstarted ⟨by decide +kernel, by decide +kernel⟩ hspares)
        ⟨by decide +kernel, by decide +kernel⟩) _
    have hword := hrestore saving _ .bc .af hpush ⟨by decide +kernel, by decide +kernel⟩
      ⟨by decide +kernel, by decide +kernel⟩ hroutine (by decide +kernel) hpop
    rw [if_pos rfl] at hword
    exact hword.trans (by decide +kernel)

end Core

end Handheld
