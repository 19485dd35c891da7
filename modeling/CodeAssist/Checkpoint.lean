/-!
# Checkpoints

Long work asks now and then whether its request has been cancelled. A `Checkpoint` decides when to
ask: it counts ticks in 32 bits, around and around, and every tick whose number is a multiple of
the interval is a *poll*. An interval of zero counts as one.
-/

namespace CodeAssist

/-- The tick counter of one request. -/
structure Checkpoint where
  interval : UInt32
  ticks : UInt32 := 0
deriving DecidableEq, Repr

namespace Checkpoint

/-- How many ticks lie between two polls unless something else is asked for. -/
def defaultInterval : UInt32 := 50

/-- A fresh counter. An interval of zero polls at every tick. -/
def every (interval : UInt32) : Checkpoint :=
  { interval := if interval = 0 then 1 else interval }

/-- A fresh counter with the default interval. -/
def fresh : Checkpoint := every defaultInterval

/-- The counter after one more tick. -/
def advance (checkpoint : Checkpoint) : Checkpoint :=
  { checkpoint with ticks := checkpoint.ticks + 1 }

/-- Whether the tick that led to this state polls. -/
def polls (checkpoint : Checkpoint) : Bool :=
  checkpoint.ticks % checkpoint.interval == 0

/-- Counts one tick under a signal that answers `cancelled` if asked. The result says whether the
request goes on. -/
def tick (checkpoint : Checkpoint) (cancelled : Bool) : Checkpoint × Bool :=
  let next := checkpoint.advance
  (next, !(next.polls && cancelled))

/-- Counts up to `times` ticks and stops at the first that ends the request. -/
def tickMany (checkpoint : Checkpoint) (cancelled : Bool) : Nat → Checkpoint × Bool
  | 0 => (checkpoint, true)
  | times + 1 =>
    match checkpoint.tick cancelled with
    | (next, true) => tickMany next cancelled times
    | (next, false) => (next, false)

/-- The text that reports a cancelled request. -/
def cancelledMessage : String := "request cancelled"

end Checkpoint

end CodeAssist
