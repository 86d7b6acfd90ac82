import Handheld.Proofs.Cartridge.SaveForm

/-!
The host's time on a cartridge clock. A clock that follows the host catches up with it at its
polls, in portions that depend on when they come, and a save carries the time of the last poll
into the next cartridge. Still every second of the host is counted once, from the starting
timestamp on, or from the first poll on if time had run backwards before it.
-/
namespace Handheld

namespace HostClock

/-- From now on the clock does not run backwards. -/
def Forward (h : HostClock) : Prop := ∀ i j, h.polls ≤ i → i ≤ j → h.reading i ≤ h.reading j

/-- The same clock, possibly after more polls. -/
structure GoesOn (h h' : HostClock) : Prop where
  reading_eq : h'.reading = h.reading
  polls_le : h.polls ≤ h'.polls

theorem GoesOn.refl (h : HostClock) : GoesOn h h := ⟨rfl, Nat.le_refl _⟩

theorem GoesOn.trans {h h' h'' : HostClock} (first : GoesOn h h') (next : GoesOn h' h'') :
    GoesOn h h'' :=
  ⟨next.reading_eq.trans first.reading_eq, Nat.le_trans first.polls_le next.polls_le⟩

theorem goesOn_polled (h : HostClock) : GoesOn h h.polled := ⟨rfl, Nat.le_succ _⟩

theorem Forward.now_le {h h' h'' : HostClock} (hforward : h.Forward) (first : GoesOn h h')
    (next : GoesOn h' h'') : h'.now.toNat ≤ h''.now.toNat := by
  have hle := hforward h'.polls h''.polls first.polls_le next.polls_le
  rw [now, now, next.reading_eq, first.reading_eq]
  exact UInt64.le_iff_toNat_le.mp hle

theorem Forward.goesOn {h h' : HostClock} (hforward : h.Forward) (hgoesOn : GoesOn h h') :
    h'.Forward := by
  intro i j hi hij
  rw [hgoesOn.reading_eq]
  exact hforward i j (Nat.le_trans hgoesOn.polls_le hi) hij

/-- A clock that shows one time in its first polls and another one from then on. -/
def leaping (first next : UInt64) (count : Nat) : HostClock :=
  ⟨fun i => if i < count then first else next, 0⟩

theorem forward_leaping {first next : UInt64} (h : first ≤ next) (count : Nat) :
    (leaping first next count).Forward := by
  intro i j _ hij
  change (if i < count then first else next) ≤ if j < count then first else next
  by_cases hi : i < count
  · rw [if_pos hi]
    split
    · exact UInt64.le_refl _
    · exact h
  · rw [if_neg hi, if_neg (by omega)]
    exact UInt64.le_refl _

end HostClock

namespace Clock

/-- What the host answers in a step, if it is polled. -/
def answer? (k : Clock) (cycles : Nat) : Option UInt64 :=
  if (k.step cycles).host.polls = k.host.polls then none else some k.host.now

theorem synchronize_of_running {k : Clock} (h : k.live.halted = false) :
    k.synchronize =
      { k with
        host := k.host.polled
        timestamp := k.host.now
        live := k.live.advance (k.host.now.toNat - k.timestamp.toNat) } := by
  simp only [synchronize, h, Bool.false_eq_true, if_false]
  rfl

theorem host_synchronize (k : Clock) : k.synchronize.host = k.host.polled := by
  unfold synchronize
  dsimp only
  split
  · rfl
  · rfl

/-- The host is polled when a period is over. -/
theorem answer?_of_wall {k : Clock} (h : k.mode = .wall) (cycles : Nat) :
    k.answer? cycles =
      if checkPeriod .wall ≤ k.sinceCheck + cycles then some k.host.now else none := by
  rw [answer?, step_of_wall h]
  by_cases hdue : checkPeriod .wall ≤ k.sinceCheck + cycles
  · rw [if_pos hdue, if_pos hdue, host_synchronize]
    exact if_neg (Nat.succ_ne_self _)
  · rw [if_neg hdue, if_neg hdue]
    exact if_pos rfl

/-- Whatever has passed since the last poll, a period later there is another one. -/
theorem step_period {k : Clock} (h : k.mode = .wall) :
    k.answer? (checkPeriod .wall) = some k.host.now ∧
      (k.step (checkPeriod .wall)).host = k.host.polled := by
  have hdue : checkPeriod .wall ≤ k.sinceCheck + checkPeriod .wall := Nat.le_add_left _ _
  rw [answer?_of_wall h, step_of_wall h, if_pos hdue, if_pos hdue, host_synchronize]
  exact ⟨rfl, rfl⟩

/-- The time from which the seconds of the host count, where its polls have been answered with
`times`. Time that runs backwards before the first poll counts as none. -/
def origin (timestamp : UInt64) : List UInt64 → Nat
  | [] => timestamp.toNat
  | first :: _ => min timestamp.toNat first.toNat

theorem origin_append (timestamp t : UInt64) (times : List UInt64) :
    origin timestamp (times ++ [t]) =
      if times = [] then min timestamp.toNat t.toNat else origin timestamp times := by
  cases times with
  | nil => rfl
  | cons first rest => rfl

theorem origin_eq_of_le {timestamp : UInt64} {times : List UInt64}
    (h : ∀ first ∈ times.head?, timestamp ≤ first) : origin timestamp times = timestamp.toNat := by
  cases times with
  | nil => rfl
  | cons first rest =>
    have hle : timestamp.toNat ≤ first.toNat := UInt64.le_iff_toNat_le.mp (h first rfl)
    exact Nat.min_eq_left hle

theorem origin_eq_of_head? {timestamp : UInt64} {times times' : List UInt64}
    (h : times'.head? = times.head?) : origin timestamp times' = origin timestamp times := by
  cases times with
  | nil =>
    have hnil : times' = [] := by simpa using h
    rw [hnil]
  | cons first rest =>
    obtain ⟨rest', rfl⟩ : ∃ rest', times' = first :: rest' := by
      cases times' with
      | nil => cases h
      | cons first' rest' =>
        have hfirst : first' = first := by simpa using h
        exact ⟨rest', by rw [hfirst]⟩
    rfl

/-- How far a clock has caught up with the host, from another state of it, by polls that have
been answered with `times`. -/
structure CaughtUp (k : Clock) (times : List UInt64) (k' : Clock) : Prop where
  mode_eq : k'.mode = .wall
  host : k.host.GoesOn k'.host
  timestamp_eq : k'.timestamp = times.getLast?.getD k.timestamp
  live_eq : k'.live = k.live.advance (k'.timestamp.toNat - origin k.timestamp times)
  origin_le : origin k.timestamp times ≤ k'.timestamp.toNat
  le_now : times ≠ [] → k'.timestamp.toNat ≤ k'.host.now.toNat

variable {k k' k'' : Clock} {times : List UInt64}

theorem CaughtUp.refl (hmode : k.mode = .wall) : CaughtUp k [] k where
  mode_eq := hmode
  host := .refl _
  timestamp_eq := rfl
  live_eq := by
    rw [origin, Nat.sub_self, ClockRegisters.advance_zero]
  origin_le := Nat.le_refl _
  le_now := fun hne => absurd rfl hne

/-- Nothing but polls matters to what has been counted. -/
theorem CaughtUp.of_unpolled (h : CaughtUp k times k') (hforward : k.host.Forward)
    (hmode : k''.mode = k'.mode) (hhost : k'.host.GoesOn k''.host) (hlive : k''.live = k'.live)
    (htimestamp : k''.timestamp = k'.timestamp) : CaughtUp k times k'' where
  mode_eq := hmode.trans h.mode_eq
  host := h.host.trans hhost
  timestamp_eq := htimestamp.trans h.timestamp_eq
  live_eq := by rw [hlive, htimestamp, h.live_eq]
  origin_le := htimestamp ▸ h.origin_le
  le_now := fun hne => by
    have hbefore := h.le_now hne
    have hlater := hforward.now_le h.host hhost
    rw [htimestamp]
    omega

/-- The seconds since the origin are those up to the last poll and those since. -/
theorem CaughtUp.portions (h : CaughtUp k times k') :
    origin k.timestamp (times ++ [k'.host.now]) ≤ k'.host.now.toNat ∧
      k'.host.now.toNat - origin k.timestamp (times ++ [k'.host.now]) =
        (k'.timestamp.toNat - origin k.timestamp times) +
          (k'.host.now.toNat - k'.timestamp.toNat) := by
  have hstart := h.origin_le
  rw [origin_append]
  -- only up to the first poll can time have run backwards
  by_cases hfirst : times = []
  · subst hfirst
    have htimestamp : k'.timestamp = k.timestamp := h.timestamp_eq
    rw [if_pos rfl, htimestamp, origin]
    omega
  · have hlast := h.le_now hfirst
    rw [if_neg hfirst]
    omega

/-- A poll counts the seconds since the last one. -/
theorem CaughtUp.synchronize (h : CaughtUp k times k') (hforward : k.host.Forward)
    (hmasked : k.live.Masked) (hrunning : k.live.halted = false) :
    CaughtUp k (times ++ [k'.host.now]) { k' with sinceCheck := 0 }.synchronize := by
  have hrunning' : k'.live.halted = false := by
    rw [h.live_eq, ClockRegisters.halted_advance hmasked, hrunning]
  have hhost : k'.host.GoesOn k'.host.polled := k'.host.goesOn_polled
  obtain ⟨hle, hportions⟩ := h.portions
  have hpoll := synchronize_of_running (k := { k' with sinceCheck := 0 }) hrunning'
  rw [hpoll]
  refine ⟨h.mode_eq, h.host.trans hhost, ?_, ?_, hle, fun _ => hforward.now_le h.host hhost⟩
  · rw [List.getLast?_append]
    rfl
  · dsimp only
    rw [hportions, ClockRegisters.advance_add hmasked, ← h.live_eq]

theorem CaughtUp.step (h : CaughtUp k times k') (hforward : k.host.Forward)
    (hmasked : k.live.Masked) (hrunning : k.live.halted = false) (cycles : Nat) :
    CaughtUp k (times ++ (k'.answer? cycles).toList) (k'.step cycles) := by
  rw [answer?_of_wall h.mode_eq, step_of_wall h.mode_eq]
  by_cases hdue : checkPeriod .wall ≤ k'.sinceCheck + cycles
  · rw [if_pos hdue, if_pos hdue]
    exact h.synchronize hforward hmasked hrunning
  · rw [if_neg hdue, if_neg hdue, Option.toList_none, List.append_nil]
    exact h.of_unpolled hforward rfl (.refl _) rfl rfl

end Clock

namespace Cartridge

/-- Play on a cartridge, with the host's answers to the polls on the way: steps, writes that reach
no clock register, and moves into a fresh cartridge of the same ROM by way of a save. Reads change
nothing, and the time that a fresh cartridge takes is replaced by that of the save. -/
inductive Followed (rom : ByteArray) (c : Cartridge) : List UInt64 → Cartridge → Prop
  | refl : Followed rom c [] c
  | step {times : List UInt64} {d : Cartridge} {k : Clock} (h : Followed rom c times d)
      (hk : d.clock? = some k) (cycles : Nat) :
      Followed rom c (times ++ (k.answer? cycles).toList) (d.step cycles)
  | write {times : List UInt64} {d : Cartridge} (h : Followed rom c times d) {addr : UInt16}
      (hother : d.clockField? addr = none) (v : UInt8) : Followed rom c times (d.write addr v)
  | move {times : List UInt64} {d e : Cartridge} {k : Clock} (h : Followed rom c times d)
      (hk : d.clock? = some k) {host : HostClock} (hhost : k.host.GoesOn host)
      (hload : (Cartridge.ofRom rom .wall host).load d.save = .ok e) : Followed rom c times e

variable {rom : ByteArray} {c d e : Cartridge} {k : Clock} {times : List UInt64}

theorem Followed.reachable (h : Followed rom c times d) (hc : Reachable rom .wall c) :
    Reachable rom .wall d := by
  induction h with
  | refl => exact hc
  | step h hk cycles ih => exact ih.step cycles
  | write h hother v ih => exact ih.write _ v
  | move h hk hhost hload ih => exact .load (.ofRom _) _ hload

/-- A cartridge of the same ROM takes a save, whatever the host's clock shows. -/
theorem exists_move (h : Reachable rom .wall d) (host : HostClock) :
    ∃ e, (Cartridge.ofRom rom .wall host).load d.save = .ok e := by
  obtain ⟨e, hload, -⟩ := load_save (h.sameBoard .wall host)
    fun k hk => ⟨(h.sound hk).live, (h.sound hk).latched⟩
  exact ⟨e, hload⟩

/-- The clock after a move: the registers and the timestamp of the old one, and the host's clock
after the poll of the fresh one. -/
theorem clock?_move (h : Reachable rom .wall d) (hk : d.clock? = some k) {host : HostClock}
    (hload : (Cartridge.ofRom rom .wall host).load d.save = .ok e) :
    ∃ k', e.clock? = some k' ∧ k'.mode = .wall ∧ k'.host = host.polled ∧ k'.live = k.live ∧
      k'.timestamp = k.timestamp := by
  obtain ⟨k', hk'⟩ : ∃ k', e.clock? = some k' := by
    have hsome := ((Reachable.load (.ofRom host) d.save hload).sameBoard .wall host).isSome_clock?
    rw [← (h.sameBoard .wall host).isSome_clock?, hk] at hsome
    exact Option.isSome_iff_exists.mp hsome
  have hrestored : k'.mode = .wall ∧ k'.host = host.polled := by
    obtain ⟨-, -, rfl⟩ := load_eq_ok_iff.mp hload
    rw [clock?_loaded, clock?_ofRom] at hk'
    split at hk'
    · rw [← Option.some.inj hk']
      exact ⟨rfl, rfl⟩
    · cases hk'
  have hrecord : k'.record = k.record := by
    obtain ⟨e', hload', -, hsame⟩ := load_save (h.sameBoard .wall host)
      fun k hk => ⟨(h.sound hk).live, (h.sound hk).latched⟩
    rw [hload] at hload'
    rw [← Except.ok.inj hload', hk', hk] at hsame
    exact Option.some.inj hsame
  obtain ⟨hlive, -, htimestamp⟩ := Clock.Record.mk.inj hrecord
  exact ⟨k', hk', hrestored.1, hrestored.2, hlive, htimestamp⟩

/-- Whatever is played, the clock has caught up with the host at its polls. -/
theorem Followed.caughtUp (h : Followed rom c times d) (hc : Reachable rom .wall c)
    (hk : c.clock? = some k) (hforward : k.host.Forward) (hrunning : k.live.halted = false) :
    ∃ k', d.clock? = some k' ∧ k.CaughtUp times k' := by
  have hmasked := (hc.sound hk).live
  induction h with
  | refl => exact ⟨k, hk, .refl (hc.mode_eq hk)⟩
  | @step times d k₁ h hk₁ cycles ih =>
    obtain ⟨k', hk', hcaught⟩ := ih
    obtain rfl : k₁ = k' := Option.some.inj (hk₁.symm.trans hk')
    refine ⟨k₁.step cycles, ?_, hcaught.step hforward hmasked hrunning cycles⟩
    rw [clock?_step, hk₁]
    rfl
  | @write times d h addr hother v ih =>
    obtain ⟨k', hk', hcaught⟩ := ih
    have hwrite := clock?_write d addr v
    rw [hother, hk'] at hwrite
    dsimp only at hwrite
    split at hwrite
    · exact ⟨k'.latch, hwrite, hcaught.of_unpolled hforward rfl (.refl _) rfl rfl⟩
    · exact ⟨k', hwrite, hcaught⟩
  | @move times d e k₁ h hk₁ host hhost hload ih =>
    obtain ⟨k', hk', hcaught⟩ := ih
    obtain rfl : k₁ = k' := Option.some.inj (hk₁.symm.trans hk')
    obtain ⟨k'', hk'', hmode, hpolled, hlive, htimestamp⟩ :=
      clock?_move (h.reachable hc) hk₁ hload
    refine ⟨k'', hk'', hcaught.of_unpolled hforward (hmode.trans hcaught.mode_eq.symm) ?_ hlive
      htimestamp⟩
    rw [hpolled]
    exact hhost.trans host.goesOn_polled

/-- A running clock that follows the host counts each second of it once, however the polls fall
and whatever is latched, stored, saved and moved in between. The timestamp is the host's time at
the last poll. So it does not matter how often the host was polled on the way, if the polls begin
at the same time or at none before the starting timestamp. -/
theorem wall_seconds_counted_once (h : Reachable rom .wall c) (hk : c.clock? = some k)
    (hrunning : k.live.halted = false) (hforward : k.host.Forward) (hplay : Followed rom c times d) :
    (∃ k', d.clock? = some k' ∧ k'.timestamp = times.getLast?.getD k.timestamp ∧
      k'.live = k.live.advance (k'.timestamp.toNat - Clock.origin k.timestamp times)) ∧
    (∀ host, ∃ e, (Cartridge.ofRom rom .wall host).load d.save = .ok e) ∧
    ∀ (c₂ d₂ : Cartridge) (k₂ : Clock) (times₂ : List UInt64), Reachable rom .wall c₂ →
      c₂.clock? = some k₂ → k₂.live = k.live → k₂.timestamp = k.timestamp → k₂.host.Forward →
        Followed rom c₂ times₂ d₂ → times₂.getLast? = times.getLast? →
          (times₂.head? = times.head? ∨
            (∀ t ∈ times.head?, k.timestamp ≤ t) ∧ ∀ t ∈ times₂.head?, k.timestamp ≤ t) →
          d₂.clock?.map (·.live) = d.clock?.map (·.live) := by
  obtain ⟨k', hk', hcaught⟩ := hplay.caughtUp h hk hforward hrunning
  refine ⟨⟨k', hk', hcaught.timestamp_eq, hcaught.live_eq⟩, exists_move (hplay.reachable h), ?_⟩
  intro c₂ d₂ k₂ times₂ h₂ hk₂ hlive htimestamp hforward₂ hplay₂ hlast hfirst
  obtain ⟨k₂', hk₂', hcaught₂⟩ := hplay₂.caughtUp h₂ hk₂ hforward₂ (hlive ▸ hrunning)
  have horigin : Clock.origin k.timestamp times₂ = Clock.origin k.timestamp times := by
    rcases hfirst with hsame | ⟨hle, hle₂⟩
    · exact Clock.origin_eq_of_head? hsame
    · rw [Clock.origin_eq_of_le hle, Clock.origin_eq_of_le hle₂]
  have htimestamp' : k₂'.timestamp = k'.timestamp := by
    rw [hcaught₂.timestamp_eq, hcaught.timestamp_eq, hlast, htimestamp]
  rw [hk', hk₂', Option.map_some, Option.map_some, hcaught.live_eq, hcaught₂.live_eq, hlive,
    htimestamp, htimestamp', horigin]

/-- A period of steps, with a poll. -/
theorem Followed.period (h : Followed rom c times d) (hk : d.clock? = some k) (hmode : k.mode = .wall) :
    Followed rom c (times ++ [k.host.now]) (d.step (Clock.checkPeriod .wall)) := by
  have hplay := h.step hk (Clock.checkPeriod .wall)
  rw [(Clock.step_period hmode).1] at hplay
  exact hplay

theorem clock?_step_period (hk : d.clock? = some k) (hmode : k.mode = .wall) :
    ∃ k', (d.step (Clock.checkPeriod .wall)).clock? = some k' ∧ k'.mode = .wall ∧
      k'.host = k.host.polled := by
  refine ⟨k.step (Clock.checkPeriod .wall), ?_, ?_, (Clock.step_period hmode).2⟩
  · rw [clock?_step, hk]
    rfl
  · rw [Clock.mode_step, hmode]

/-- A cartridge with a clock at power-on. -/
def onHost (host : HostClock) : Cartridge := .ofRom timerRom .wall host

theorem clock?_onHost (host : HostClock) : (onHost host).clock? = some (.start .wall host) := by
  rw [onHost, clock?_ofRom, if_pos header_timerRom]

/-- Play with a poll before a move and another one after it. The host shows the later time when the
fresh cartridge is made. -/
theorem exists_moved :
    ∃ d, Followed timerRom (onHost (.leaping 1000 1180 2)) [1000, 1180] d := by
  have hk := clock?_onHost (.leaping 1000 1180 2)
  have hpolled : Followed timerRom (onHost (.leaping 1000 1180 2)) [1000] _ :=
    Followed.refl.period hk rfl
  have hreachable := hpolled.reachable (.ofRom _)
  obtain ⟨k₁, hk₁, -, hhost₁⟩ := clock?_step_period hk rfl
  obtain ⟨e, hload⟩ := exists_move hreachable k₁.host
  obtain ⟨k₂, hk₂, hmode₂, hhost₂, -⟩ := clock?_move hreachable hk₁ hload
  have hplay := (hpolled.move hk₁ (.refl _) hload).period hk₂ hmode₂
  rw [hhost₂, hhost₁] at hplay
  exact ⟨_, hplay⟩

/-- Three minutes pass between two polls and across a move, or before the only poll. -/
theorem wall_seconds_counted_once_moved :
    (∃ d, Followed timerRom (onHost (.leaping 1000 1180 2)) [1000, 1180] d ∧
      d.clock?.map (·.live) = some ⟨0, 3, 0, 0, 0⟩) ∧
    ∃ d₂, Followed timerRom (onHost (.leaping 1000 1180 1)) [1180] d₂ ∧
      d₂.clock?.map (·.live) = some ⟨0, 3, 0, 0, 0⟩ := by
  have hforward (count : Nat) : (Clock.start .wall (.leaping 1000 1180 count)).host.Forward :=
    (HostClock.forward_leaping (by decide) count).goesOn (HostClock.goesOn_polled _)
  have hk₂ := clock?_onHost (.leaping 1000 1180 1)
  have hplay₂ : Followed timerRom (onHost (.leaping 1000 1180 1)) [1180] _ :=
    Followed.refl.period hk₂ rfl
  obtain ⟨d, hplay⟩ := exists_moved
  obtain ⟨⟨k', hk', htimestamp, hlive⟩, -, hagree⟩ :=
    wall_seconds_counted_once (.ofRom _) (clock?_onHost _) rfl (hforward 2) hplay
  have hminutes : d.clock?.map (·.live) = some ⟨0, 3, 0, 0, 0⟩ := by
    rw [hk', Option.map_some, hlive, htimestamp]
    decide +kernel
  refine ⟨⟨d, hplay, hminutes⟩, _, hplay₂, ?_⟩
  rw [← hminutes]
  refine hagree _ _ _ _ (.ofRom _) hk₂ rfl rfl (hforward 1) hplay₂ rfl (.inr ⟨?_, ?_⟩)
  · intro t ht
    obtain rfl : 1000 = t := Option.some.inj ht
    exact UInt64.le_refl 1000
  · intro t ht
    obtain rfl : 1180 = t := Option.some.inj ht
    have hlater : (1000 : UInt64) ≤ 1180 := by decide
    exact hlater

/-- A cartridge that has taken a save from a host whose clock was ahead. -/
theorem exists_ahead (first next : UInt64) (hle : first ≤ next) (count : Nat) :
    ∃ c k, Reachable timerRom .wall c ∧ c.clock? = some k ∧ k.mode = .wall ∧
      k.host = (HostClock.leaping first next count).polled ∧ k.host.Forward ∧
        k.live = .cleared ∧ k.timestamp = 1000 := by
  have hahead : Reachable timerRom .wall (onHost (.fixed 1000)) := .ofRom _
  obtain ⟨c, hload⟩ := exists_move hahead (.leaping first next count)
  obtain ⟨k, hk, hmode, hhost, hlive, htimestamp⟩ := clock?_move hahead (clock?_onHost _) hload
  have hforward : k.host.Forward := by
    rw [hhost]
    exact (HostClock.forward_leaping hle count).goesOn (HostClock.goesOn_polled _)
  exact ⟨c, k, .load (.ofRom _) _ hload, hk, hmode, hhost, hforward, hlive, htimestamp⟩

/-- If the starting timestamp is ahead of the host's clock, the seconds do not count from it, and
it matters when the polls begin. -/
theorem not_counted_from_timestamp :
    (¬∀ (rom : ByteArray) (c d : Cartridge) (k k' : Clock) (times : List UInt64),
      Reachable rom .wall c → c.clock? = some k → k.live.halted = false → k.host.Forward →
        Followed rom c times d → d.clock? = some k' →
          k'.live = k.live.advance (k'.timestamp.toNat - k.timestamp.toNat)) ∧
    ¬∀ (rom : ByteArray) (c c₂ d d₂ : Cartridge) (k k₂ : Clock) (times times₂ : List UInt64),
      Reachable rom .wall c → Reachable rom .wall c₂ → c.clock? = some k → c₂.clock? = some k₂ →
        k.live.halted = false → k₂.live = k.live → k₂.timestamp = k.timestamp →
          k.host.Forward → k₂.host.Forward → Followed rom c times d → Followed rom c₂ times₂ d₂ →
            times₂.getLast? = times.getLast? →
              d₂.clock?.map (·.live) = d.clock?.map (·.live) := by
  obtain ⟨c, k, hc, hk, hmode, hhost, hforward, hlive, htimestamp⟩ :=
    exists_ahead 0 10 (by decide) 2
  obtain ⟨c₂, k₂, hc₂, hk₂, hmode₂, hhost₂, hforward₂, hlive₂, htimestamp₂⟩ :=
    exists_ahead 0 10 (by decide) 1
  have hrunning : k.live.halted = false := by
    rw [hlive]
    rfl
  obtain ⟨d, hplay⟩ : ∃ d, Followed timerRom c [0, 10] d := by
    have honce : Followed timerRom c [k.host.now] _ := Followed.refl.period hk hmode
    obtain ⟨k₁, hk₁, hmode₁, hhost₁⟩ := clock?_step_period hk hmode
    have htwice := honce.period hk₁ hmode₁
    rw [hhost₁, hhost] at htwice
    exact ⟨_, htwice⟩
  obtain ⟨d₂, hplay₂⟩ : ∃ d₂, Followed timerRom c₂ [10] d₂ := by
    have honce : Followed timerRom c₂ [k₂.host.now] _ := Followed.refl.period hk₂ hmode₂
    rw [hhost₂] at honce
    exact ⟨_, honce⟩
  obtain ⟨k', hk', hcaught⟩ := hplay.caughtUp hc hk hforward hrunning
  obtain ⟨k₂', hk₂', hcaught₂⟩ := hplay₂.caughtUp hc₂ hk₂ hforward₂ (hlive₂ ▸ rfl)
  have hticked : k'.live = ⟨10, 0, 0, 0, 0⟩ := by
    rw [hcaught.live_eq, hcaught.timestamp_eq, htimestamp, hlive]
    decide +kernel
  have hstill : k₂'.live = .cleared := by
    rw [hcaught₂.live_eq, hcaught₂.timestamp_eq, htimestamp₂, hlive₂]
    decide +kernel
  constructor
  · intro hcounted
    have hnone := hcounted _ _ _ _ _ _ hc hk hrunning hforward hplay hk'
    rw [hticked, hcaught.timestamp_eq, htimestamp, hlive] at hnone
    revert hnone
    decide +kernel
  · intro hagree
    have hsame := hagree _ _ _ _ _ _ _ _ _ hc hc₂ hk hk₂ hrunning (hlive₂.trans hlive.symm)
      (htimestamp₂.trans htimestamp.symm) hforward hforward₂ hplay hplay₂ rfl
    rw [hk', hk₂', Option.map_some, Option.map_some, hticked, hstill] at hsame
    cases hsame

end Cartridge

end Handheld
