import Mathlib.Order.Basic

namespace RadProt.Lib

/-- A timeout that is checked from time to time: the ticks that are left of it, and the tick since
which they count. -/
structure Countdown where
  ticksToWait : Nat
  entered : Nat

namespace Countdown

def deadline (c : Countdown) : Nat := c.entered + c.ticksToWait

/-- From `now` on, every check finds the timeout over exactly if `limit` is reached. -/
structure Counts (c : Countdown) (limit now : Nat) : Prop where
  entered_le : c.entered ≤ now
  deadline_le_iff : ∀ tick, now ≤ tick → (c.deadline ≤ tick ↔ limit ≤ tick)

variable {c : Countdown} {tick limit now : Nat}

theorem counts_start (ticks tick : Nat) : Counts ⟨ticks, tick⟩ (tick + ticks) tick :=
  ⟨Nat.le_refl _, fun _ _ => Iff.rfl⟩

theorem Counts.mono (h : c.Counts limit now) (hle : now ≤ tick) : c.Counts limit tick :=
  ⟨Nat.le_trans h.entered_le hle, fun later hlater =>
    h.deadline_le_iff later (Nat.le_trans hle hlater)⟩

end Countdown

/-- The check of a timeout: it finds it over, or takes the time that has passed off it. -/
class TimeOutCheck where
  check : Countdown → Nat → Bool × Countdown
  check_of_lt : ∀ {c : Countdown} {tick : Nat}, c.entered ≤ tick → tick < c.deadline →
    check c tick = (false, ⟨c.deadline - tick, tick⟩)
  check_of_le : ∀ {c : Countdown} {tick : Nat}, c.entered ≤ tick → c.deadline ≤ tick →
    ∃ since ≤ tick, check c tick = (true, ⟨0, since⟩)

namespace Countdown

variable [TimeOutCheck] {c : Countdown} {tick limit now : Nat}

def check (c : Countdown) (tick : Nat) : Bool × Countdown := TimeOutCheck.check c tick

theorem check_iff (h : c.entered ≤ tick) : (c.check tick).1 = true ↔ c.deadline ≤ tick := by
  rw [check]
  by_cases hover : c.deadline ≤ tick
  · obtain ⟨since, -, hcheck⟩ := TimeOutCheck.check_of_le h hover
    rw [hcheck]
    exact iff_of_true rfl hover
  · rw [TimeOutCheck.check_of_lt h (Nat.lt_of_not_le hover)]
    exact iff_of_false Bool.false_ne_true hover

theorem deadline_check (h : c.entered ≤ tick) (hleft : (c.check tick).1 = false) :
    (c.check tick).2.deadline = c.deadline ∧ (c.check tick).2.entered = tick := by
  have hlt : tick < c.deadline :=
    Nat.lt_of_not_le fun hover => Bool.false_ne_true (hleft.symm.trans ((check_iff h).mpr hover))
  rw [check, TimeOutCheck.check_of_lt h hlt]
  refine ⟨?_, rfl⟩
  change tick + (c.deadline - tick) = c.deadline
  omega

theorem entered_check_le (h : c.entered ≤ tick) : (c.check tick).2.entered ≤ tick := by
  by_cases hleft : (c.check tick).1 = false
  · exact Nat.le_of_eq (deadline_check h hleft).2
  · obtain ⟨since, hsince, hcheck⟩ :=
      TimeOutCheck.check_of_le h ((check_iff h).mp (Bool.not_eq_false _ ▸ hleft))
    have hentered := congrArg (fun r : Bool × Countdown => r.2.entered) hcheck
    exact Nat.le_trans (Nat.le_of_eq hentered) hsince

theorem deadline_check_le (h : c.entered ≤ tick) :
    (c.check tick).2.deadline ≤ tick + (c.check tick).2.ticksToWait := by
  rw [deadline]
  exact Nat.add_le_add_right (entered_check_le h) _

theorem Counts.check_iff (h : c.Counts limit now) (hle : now ≤ tick) :
    (c.check tick).1 = true ↔ limit ≤ tick := by
  rw [Countdown.check_iff (Nat.le_trans h.entered_le hle), h.deadline_le_iff tick hle]

theorem Counts.check (h : c.Counts limit now) (hle : now ≤ tick) :
    (c.check tick).2.Counts limit tick := by
  have hentered := Nat.le_trans h.entered_le hle
  refine ⟨entered_check_le hentered, fun later hlater => ?_⟩
  by_cases hover : (c.check tick).1 = false
  · rw [(deadline_check hentered hover).1, h.deadline_le_iff later (Nat.le_trans hle hlater)]
  · rw [Bool.not_eq_false] at hover
    have hlimit : limit ≤ later := Nat.le_trans ((h.check_iff hle).mp hover) hlater
    refine iff_of_true ?_ hlimit
    obtain ⟨since, hsince, hcheck⟩ :=
      TimeOutCheck.check_of_le hentered ((Countdown.check_iff hentered).mp hover)
    rw [Countdown.check, hcheck]
    exact Nat.le_trans hsince hlater

end Countdown

abbrev TimeOutCheck.subtracting : TimeOutCheck where
  check c tick :=
    if tick < c.deadline then (false, ⟨c.deadline - tick, tick⟩) else (true, ⟨0, c.entered⟩)
  check_of_lt _ hlt := if_pos hlt
  check_of_le h hle := ⟨_, h, if_neg (Nat.not_lt.mpr hle)⟩

end RadProt.Lib
