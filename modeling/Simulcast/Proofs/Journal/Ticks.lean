import Mathlib.Data.List.Chain
import Mathlib.Tactic.Linarith
import Simulcast.Proofs.Sender.Courses

/-!
Readings of the log of a run, the latest entry first, in which every
instruction that was followed has its entry: what time it is, which ticks there
were, and which of them were due. A tick is due if a period has gone by since
the last one that was, or since the beginning. It makes no difference to any of
this what was reported, or whether anything was.
-/

namespace Simulcast

namespace Event

/-- By how much the clock went on. -/
def delay? : Event → Option Millis
  | .nested (.act (.advance delay)) _ => some delay
  | _ => none

/-- What a tick came to. -/
def tick? : Event → Option TickResult
  | .nested (.act .tick) (.ticked result) => some result
  | _ => none

def statistics? : Event → Option (UInt32 × UInt32)
  | .statistics bitrate frameRate => some (bitrate, frameRate)
  | _ => none

/-- An entry that no clock, timer or report goes by. -/
structure Timeless (e : Event) : Prop where
  delay : e.delay? = none
  tick : e.tick? = none
  statistics : e.statistics? = none

theorem Calm.timeless {e : Event} (h : e.Calm) : e.Timeless := by
  cases e <;> first | exact ⟨rfl, rfl, rfl⟩ | exact h.elim

theorem delay?_of_not_nested {e : Event} (h : e.isNested = false) : e.delay? = none := by
  cases e <;> simp_all [isNested, delay?]

theorem tick?_of_not_nested {e : Event} (h : e.isNested = false) : e.tick? = none := by
  cases e <;> simp_all [isNested, tick?]

end Event

/-- The statistics reported, the latest first. -/
def statistics (log : List Event) : List (UInt32 × UInt32) := log.filterMap Event.statistics?

theorem statistics_append (new old : List Event) :
    statistics (new ++ old) = statistics new ++ statistics old :=
  List.filterMap_append

/-- The time it is after a log that began at `begun`. -/
def clock (begun : Millis) : List Event → Millis
  | [] => begun
  | e :: earlier =>
      match e.delay? with
      | some delay => Millis.after (clock begun earlier) delay
      | none => clock begun earlier

/-- The clock is never set back. -/
def Forward (begun : Millis) : List Event → Prop
  | [] => True
  | e :: earlier => clock begun earlier ≤ clock begun (e :: earlier) ∧ Forward begun earlier

instance Forward.decidable (begun : Millis) : (log : List Event) → Decidable (Forward begun log)
  | [] => .isTrue trivial
  | _ :: earlier =>
      have := Forward.decidable begun earlier
      inferInstanceAs (Decidable (_ ∧ Forward begun earlier))

/-- A tick: when it was, what it came to, and all the statistics that had been
reported by its end. -/
structure Tick where
  time : Millis
  result : TickResult
  reported : List (UInt32 × UInt32)
  deriving DecidableEq, Repr

/-- The ticks of a log that began at `begun`. -/
def ticks (begun : Millis) : List Event → List Tick
  | [] => []
  | e :: earlier =>
      match e.tick? with
      | some result => ⟨clock begun earlier, result, statistics earlier⟩ :: ticks begun earlier
      | none => ticks begun earlier

/-- The times of the ticks that were due. -/
def dueTimes (period begun : Millis) : List Tick → List Millis
  | [] => []
  | tick :: earlier =>
      if period ≤ tick.time - (dueTimes period begun earlier).headD begun then
        tick.time :: dueTimes period begun earlier
      else dueTimes period begun earlier

/-- When the period that is under way after some ticks began. -/
def periodStart (period begun : Millis) (earlier : List Tick) : Millis :=
  (dueTimes period begun earlier).headD begun

/-- The tick is due if these were all the ticks before. -/
def Tick.Due (period begun : Millis) (earlier : List Tick) (tick : Tick) : Prop :=
  period ≤ tick.time - periodStart period begun earlier

instance (period begun : Millis) (earlier : List Tick) (tick : Tick) :
    Decidable (tick.Due period begun earlier) :=
  inferInstanceAs (Decidable (_ ≤ _))

variable {period begun : Millis} {log new : List Event} {tick : Tick} {earlier later : List Tick}

theorem clock_append (h : ∀ e ∈ new, e.delay? = none) :
    clock begun (new ++ log) = clock begun log := by
  induction new with
  | nil => rfl
  | cons e rest ih =>
      simp only [List.cons_append, clock, h e (by simp)]
      exact ih fun e he => h e (by simp [he])

theorem ticks_append (h : ∀ e ∈ new, e.tick? = none) :
    ticks begun (new ++ log) = ticks begun log := by
  induction new with
  | nil => rfl
  | cons e rest ih =>
      simp only [List.cons_append, ticks, h e (by simp)]
      exact ih fun e he => h e (by simp [he])

theorem dueTimes_of_due (h : tick.Due period begun earlier) :
    dueTimes period begun (tick :: earlier) = tick.time :: dueTimes period begun earlier :=
  if_pos h

theorem dueTimes_of_not_due (h : ¬ tick.Due period begun earlier) :
    dueTimes period begun (tick :: earlier) = dueTimes period begun earlier :=
  if_neg h

theorem periodStart_cons (period begun : Millis) (tick : Tick) (earlier : List Tick) :
    periodStart period begun (tick :: earlier) =
      if tick.Due period begun earlier then tick.time else periodStart period begun earlier := by
  unfold periodStart
  by_cases h : tick.Due period begun earlier
  · rw [dueTimes_of_due h, if_pos h]
    rfl
  · rw [dueTimes_of_not_due h, if_neg h]

/-- What the ticks reported. -/
def reports (ticks : List Tick) : List (UInt32 × UInt32) :=
  ticks.filterMap fun tick => tick.result.report

/-- Due ticks are at least a period apart, the beginning counted as one. -/
theorem dueTimes_apart (period begun : Millis) (earlier : List Tick) :
    (dueTimes period begun earlier ++ [begun]).IsChain fun next last => last + period ≤ next := by
  induction earlier with
  | nil => exact List.isChain_singleton _
  | cons tick earlier ih =>
      by_cases h : tick.Due period begun earlier
      · rw [dueTimes_of_due h]
        unfold Tick.Due periodStart at h
        cases hdue : dueTimes period begun earlier with
        | nil =>
            rw [hdue, List.headD_nil] at h
            exact List.isChain_pair.mpr (Int.add_le_of_le_sub_left h)
        | cons last rest =>
            rw [hdue, List.headD_cons] at h
            rw [hdue] at ih
            exact List.isChain_cons_cons.mpr ⟨Int.add_le_of_le_sub_left h, ih⟩
      · rwa [dueTimes_of_not_due h]

/-- There is a whole period for every due tick. -/
theorem length_dueTimes_le (period begun : Millis) (earlier : List Tick) :
    (dueTimes period begun earlier).length * period ≤
      periodStart period begun earlier - begun := by
  induction earlier with
  | nil => simp [dueTimes, periodStart]
  | cons tick earlier ih =>
      rw [periodStart_cons]
      by_cases h : tick.Due period begun earlier
      · rw [dueTimes_of_due h, if_pos h, List.length_cons]
        unfold Tick.Due at h
        push_cast
        linarith
      · rwa [dueTimes_of_not_due h, if_neg h]

/-- While the clock goes forward, periods begin in the past. -/
theorem periodStart_le_clock (h : Forward begun log) :
    periodStart period begun (ticks begun log) ≤ clock begun log := by
  induction log with
  | nil => exact Int.le_refl begun
  | cons e earlier ih =>
      obtain ⟨hstep, hearlier⟩ := h
      have hbefore := ih hearlier
      cases htick : e.tick? with
      | none =>
          simp only [ticks, htick]
          exact Int.le_trans hbefore hstep
      | some result =>
          simp only [ticks, htick, periodStart_cons]
          split
          · exact hstep
          · exact Int.le_trans hbefore hstep

theorem Forward.periodStart_le (h : Forward begun log)
    (hticks : ticks begun log = later ++ tick :: earlier) :
    periodStart period begun earlier ≤ tick.time := by
  induction log generalizing later with
  | nil => simp [ticks] at hticks
  | cons e before ih =>
      obtain ⟨_, hbefore⟩ := h
      cases htick : e.tick? with
      | none =>
          simp only [ticks, htick] at hticks
          exact ih hbefore hticks
      | some result =>
          simp only [ticks, htick] at hticks
          cases later with
          | nil =>
              obtain ⟨rfl, rfl⟩ := List.cons.inj hticks
              exact periodStart_le_clock hbefore
          | cons _ later => exact ih hbefore (List.cons.inj hticks).2

/-- Whenever a tick is over, less than a period has gone by. -/
theorem Forward.elapsed (h : Forward begun log) (hperiod : 0 < period)
    (hticks : ticks begun log = later ++ tick :: earlier) :
    periodStart period begun (tick :: earlier) ≤ tick.time ∧
      tick.time - periodStart period begun (tick :: earlier) < period := by
  rw [periodStart_cons]
  by_cases hdue : tick.Due period begun earlier
  · rw [if_pos hdue, Int.sub_self]
    exact ⟨Int.le_refl _, hperiod⟩
  · rw [if_neg hdue]
    exact ⟨h.periodStart_le hticks, Int.not_le.mp hdue⟩

end Simulcast
