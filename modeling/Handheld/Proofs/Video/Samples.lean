import Handheld.Video

/-!
The display a piece of time after the other. A step is cut into pieces of at most four cycles.
In each of them the beam moves by at most a line and the status signal is sampled once, and what
the display requests is told by what stood in its registers before and after the piece.
-/
namespace Handheld.Lcd

/-- The pieces in which a number of cycles is taken, the rest last. -/
def pieces (cycles : Nat) : List Nat :=
  List.replicate (cycles / samplePeriod) samplePeriod ++
    if cycles % samplePeriod = 0 then [] else [cycles % samplePeriod]

/-- The display before and after a piece of time. -/
structure Move where
  before : Lcd
  after : Lcd

/-- The beam comes to the first line of the vertical blank. -/
def Move.reachesBlank (m : Move) : Bool :=
  m.before.line != visibleLines && m.after.line == visibleLines

/-- The sampled status signal rises. -/
def Move.rises (m : Move) : Bool := !m.before.statusLine && m.after.statusLine

def Move.requests (m : Move) : Requests :=
  (if m.reachesBlank then Interrupt.vblank.mask else 0) |||
    (if m.rises then Interrupt.stat.mask else 0)

/-- The display after pieces of time. -/
def pass : List Nat → Lcd → Lcd
  | [], v => v
  | n :: rest, v => pass rest (v.advance n).1

def walk : List Nat → Lcd → List Move
  | [], _ => []
  | n :: rest, v => ⟨v, (v.advance n).1⟩ :: walk rest (v.advance n).1

/-- The moves of a step. While off the display does not move. -/
def moves (v : Lcd) (cycles : Nat) : List Move := if v.enabled then walk (pieces cycles) v else []

def requestsOf (moves : List Move) : Requests := moves.foldr (fun m r => m.requests ||| r) 0

theorem pass_append (first next : List Nat) (v : Lcd) :
    pass (first ++ next) v = pass next (pass first v) := by
  induction first generalizing v with
  | nil => rfl
  | cons n first ih => exact ih _

theorem walk_append (first next : List Nat) (v : Lcd) :
    walk (first ++ next) v = walk first v ++ walk next (pass first v) := by
  induction first generalizing v with
  | nil => rfl
  | cons n first ih => exact congrArg (_ :: ·) (ih _)

theorem requestsOf_append (first next : List Move) :
    requestsOf (first ++ next) = requestsOf first ||| requestsOf next := by
  induction first with
  | nil => exact UInt8.zero_or.symm
  | cons m first ih =>
    change m.requests ||| requestsOf (first ++ next) = _
    rw [ih, ← UInt8.or_assoc]
    rfl

/-- The line after the first one of the vertical blank is another one. -/
theorem next_visibleLines_ne : (visibleLines + 1) % totalLines ≠ visibleLines := by decide

/-- The vertical blank is requested where the beam comes to its first line. -/
theorem raised_moveBeam (v : Lcd) (cycles : Nat) :
    (v.moveBeam cycles).2 =
      if v.line != visibleLines && (v.moveBeam cycles).1.line == visibleLines then
        Interrupt.vblank.mask
      else 0 := by
  unfold moveBeam
  dsimp only
  split
  · simp
  · by_cases hline : v.line = visibleLines
    · simp [hline, next_visibleLines_ne]
    · simp [hline]

theorem statusLine_moveBeam (v : Lcd) (cycles : Nat) :
    (v.moveBeam cycles).1.statusLine = v.statusLine := by
  unfold moveBeam
  dsimp only
  split <;> rfl

theorem raised_sampleStatus (v : Lcd) :
    v.sampleStatus.2 =
      if !v.statusLine && v.sampleStatus.1.statusLine then Interrupt.stat.mask else 0 := by
  rw [Bool.and_comm]
  rfl

/-- What a piece of time requests is told by the display before and after it. -/
theorem raised_advance (v : Lcd) (n : Nat) :
    (v.advance n).2 = Move.requests ⟨v, (v.advance n).1⟩ := by
  change (v.moveBeam n).2 ||| (v.moveBeam n).1.sampleStatus.2 = _
  rw [raised_moveBeam, raised_sampleStatus, statusLine_moveBeam]
  rfl

theorem advances_eq (count : Nat) (v : Lcd) (raised : Requests) :
    advances count v raised =
      (pass (List.replicate count samplePeriod) v,
        raised ||| requestsOf (walk (List.replicate count samplePeriod) v)) := by
  induction count generalizing v raised with
  | zero => exact congrArg (Prod.mk v) UInt8.or_zero.symm
  | succ count ih =>
    rw [advances, List.replicate_succ]
    dsimp only
    rw [ih, raised_advance, UInt8.or_assoc]
    rfl

theorem requestsOf_singleton (m : Move) : requestsOf [m] = m.requests := UInt8.or_zero

/-- A step is its pieces, and requests what they do. -/
theorem step_eq (v : Lcd) (cycles : Nat) :
    v.step cycles =
      (if v.enabled then pass (pieces cycles) v else v, requestsOf (v.moves cycles)) := by
  rw [step, moves]
  cases v.enabled with
  | false => rfl
  | true =>
    rw [advances_eq, UInt8.zero_or]
    by_cases hrest : cycles % samplePeriod = 0
    · simp [pieces, hrest]
    · simp only [pieces, hrest, Bool.not_true, Bool.false_eq_true, if_false, if_true, pass_append,
        walk_append, requestsOf_append, raised_advance]
      rw [← requestsOf_singleton]
      rfl

end Handheld.Lcd
