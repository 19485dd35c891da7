import CodeAssist.Checkpoint
import Mathlib.Logic.Function.Iterate
import Mathlib.Order.Nat
/-!
# How soon a cancellation is noticed

A tick polls if its number is a multiple of the interval. Numbers count around in 32 bits, and most
intervals do not divide 2^32, so polls are not evenly spaced: the last distance before the counter
starts again is shorter than the interval. It is never longer, because the counter starts again at
zero, which is a multiple of every interval (`exists_poll_within`).

So from every state that a counter reaches, whatever it was told on the way, fewer ticks than the
interval pass before the next poll, and once the request is cancelled it is the poll that ends it
(`cancellation_noticed_within_interval`). Every count is reached for every interval (`reached_iff`),
so the states right before the counter starts again are among them.
-/

namespace CodeAssist.Checkpoint

variable {interval : UInt32} {checkpoint : Checkpoint}

/-- The states of a counter that was begun with an interval. -/
inductive Reached (interval : UInt32) : Checkpoint → Prop
  | start : Reached interval (every interval)
  | tick {checkpoint : Checkpoint} (cancelled : Bool) (reached : Reached interval checkpoint) :
      Reached interval (checkpoint.tick cancelled).1

/-! ## Counting in 32 bits -/

/-- The interval is the one asked for, but at least one. -/
theorem toNat_interval_every (interval : UInt32) :
    (every interval).interval.toNat = max 1 interval.toNat := by
  unfold every
  dsimp only
  split
  next zero =>
    subst zero
    rfl
  next positive =>
    have : interval.toNat ≠ 0 := fun zero => positive (UInt32.toNat_inj.mp zero)
    omega

theorem interval_iterate (checkpoint : Checkpoint) (ticks : Nat) :
    (advance^[ticks] checkpoint).interval = checkpoint.interval := by
  induction ticks with
  | zero => rfl
  | succ ticks ih =>
    rw [Function.iterate_succ_apply']
    exact ih

/-- The ticks are counted up to the word size, where the count begins again at zero. -/
theorem toNat_ticks_iterate (checkpoint : Checkpoint) (ticks : Nat) :
    (advance^[ticks] checkpoint).ticks.toNat = (checkpoint.ticks.toNat + ticks) % UInt32.size := by
  induction ticks with
  | zero => exact (Nat.mod_eq_of_lt checkpoint.ticks.toNat_lt).symm
  | succ ticks ih =>
    rw [Function.iterate_succ_apply', advance, UInt32.toNat_add, ih, UInt32.toNat_one]
    exact (Nat.mod_add_mod _ _ _).trans (by rw [Nat.add_assoc])

/-- A state polls if its interval divides the number of its ticks. -/
theorem polls_iff : checkpoint.polls = true ↔
    checkpoint.interval.toNat ∣ checkpoint.ticks.toNat := by
  rw [polls, beq_iff_eq, ← UInt32.toNat_inj, UInt32.toNat_mod, Nat.dvd_iff_mod_eq_zero]
  rfl

/-- Every state with the interval is reached, after as many ticks as it has counted. -/
theorem reached_iff :
    Reached interval checkpoint ↔ checkpoint.interval = (every interval).interval := by
  constructor
  · intro reached
    induction reached with
    | start => rfl
    | tick _ _ ih => exact ih
  · intro same
    have run (ticks : Nat) : Reached interval (advance^[ticks] (every interval)) := by
      induction ticks with
      | zero => exact .start
      | succ ticks ih =>
        rw [Function.iterate_succ_apply']
        exact .tick false ih
    have kept := (interval_iterate (every interval) checkpoint.ticks.toNat).trans same.symm
    have counted : (advance^[checkpoint.ticks.toNat] (every interval)).ticks =
        checkpoint.ticks := by
      rw [← UInt32.toNat_inj, toNat_ticks_iterate]
      show (0 + checkpoint.ticks.toNat) % UInt32.size = checkpoint.ticks.toNat
      rw [Nat.zero_add, Nat.mod_eq_of_lt checkpoint.ticks.toNat_lt]
    have whole : advance^[checkpoint.ticks.toNat] (every interval) = checkpoint :=
      congrArg₂ Checkpoint.mk kept counted
    exact whole ▸ run checkpoint.ticks.toNat

/-! ## The next poll -/

/-- Among as many ticks as the interval counts one polls: the next multiple of the interval, or zero
if the counter starts again before it. -/
theorem exists_poll_within (positive : checkpoint.interval.toNat ≠ 0) :
    ∃ ticks < checkpoint.interval.toNat, (advance^[ticks + 1] checkpoint).polls = true := by
  simp only [polls_iff, interval_iterate, toNat_ticks_iterate]
  have small : checkpoint.ticks.toNat < UInt32.size := checkpoint.ticks.toNat_lt
  generalize checkpoint.ticks.toNat = count at small ⊢
  generalize checkpoint.interval.toNat = interval at positive ⊢
  have below : interval * (count / interval) ≤ count := Nat.mul_div_le count interval
  have above : count < interval * (count / interval + 1) :=
    Nat.lt_mul_div_succ count (Nat.pos_of_ne_zero positive)
  rw [Nat.mul_add_one] at above
  by_cases ahead : interval * (count / interval + 1) < UInt32.size
  · refine ⟨interval * (count / interval) + interval - count - 1, by omega, ?_⟩
    have next : count + (interval * (count / interval) + interval - count - 1 + 1) =
        interval * (count / interval + 1) := by
      rw [Nat.mul_add_one]
      omega
    rw [next, Nat.mod_eq_of_lt ahead]
    exact Nat.dvd_mul_right _ _
  · rw [Nat.mul_add_one] at ahead
    refine ⟨UInt32.size - count - 1, by omega, ?_⟩
    have around : count + (UInt32.size - count - 1 + 1) = UInt32.size := by omega
    rw [around, Nat.mod_self]
    exact Nat.dvd_zero _

/-- Under a signal that says so if it is asked, ticks go on up to the next poll. -/
theorem tickMany_goes_on_iff (checkpoint : Checkpoint) (times : Nat) :
    (checkpoint.tickMany true times).2 = true ↔
      ∀ ticks < times, (advance^[ticks + 1] checkpoint).polls = false := by
  induction times generalizing checkpoint with
  | zero => simp [tickMany]
  | succ times ih =>
    have first : (∀ ticks < times + 1, (advance^[ticks + 1] checkpoint).polls = false) ↔
        checkpoint.advance.polls = false ∧
          ∀ ticks < times, (advance^[ticks + 1] checkpoint.advance).polls = false :=
      Nat.forall_lt_succ_left
    rw [first, ← ih]
    cases polled : checkpoint.advance.polls <;> simp [tickMany, tick, polled]

/-- In every state that a counter with some interval reaches, fewer ticks than the interval, or none
if the interval is zero, go by before one polls. Once the request is cancelled these ticks succeed
and the poll does not. -/
theorem cancellation_noticed_within_interval (reached : Reached interval checkpoint) :
    ∃ ticks < max 1 interval.toNat,
      (advance^[ticks + 1] checkpoint).polls = true ∧
      ∀ times, (checkpoint.tickMany true times).2 = true ↔ times ≤ ticks := by
  have size : checkpoint.interval.toNat = max 1 interval.toNat := by
    rw [reached_iff.mp reached, toNat_interval_every]
  have poll : ∃ ticks, ticks < checkpoint.interval.toNat ∧
      (advance^[ticks + 1] checkpoint).polls = true := exists_poll_within (by omega)
  -- of the polls within the interval the first one ends the request
  obtain ⟨near, polled⟩ := Nat.find_spec poll
  refine ⟨Nat.find poll, size ▸ near, polled, fun times => ?_⟩
  rw [tickMany_goes_on_iff]
  constructor
  · intro silent
    by_contra late
    rw [silent _ (Nat.not_le.mp late)] at polled
    cases polled
  · intro early ticks before
    have unpolled := Nat.find_min poll (before.trans_le early)
    rw [not_and] at unpolled
    exact Bool.of_not_eq_true (unpolled (by omega))

/-- Seven does not divide 2^32: the poll at 4294967292 is followed by the one at zero, four ticks
later. A request that is cancelled in between loses two more ticks to the interval, not six. -/
theorem cancellation_noticed_at_the_turn :
    Reached 7 ⟨7, 4294967293⟩ ∧
    polls ⟨7, 4294967292⟩ = true ∧
    tickMany ⟨7, 4294967293⟩ true 7 = (⟨7, 0⟩, false) ∧
    ∃ ticks < max 1 (7 : UInt32).toNat,
      (advance^[ticks + 1] ⟨7, 4294967293⟩).polls = true ∧
      ∀ times, (tickMany ⟨7, 4294967293⟩ true times).2 = true ↔ times ≤ ticks := by
  have reached : Reached 7 ⟨7, 4294967293⟩ := reached_iff.mpr (by decide)
  exact ⟨reached, by decide, by decide, cancellation_noticed_within_interval reached⟩

end CodeAssist.Checkpoint
