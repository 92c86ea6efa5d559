/-!
Time in milliseconds, and the timer that says when the next periodic report
is due. A time is an integer within the signed 64-bit range; moving it wraps
around at the ends of that range.

How far two times are apart is computed without a bound, here and in rate
control. In signed 64-bit arithmetic it comes out the same for early times, from
zero up to 2^62: a clock that starts at zero leaves them after more than a
hundred million years.
-/

namespace Simulcast

/-- Milliseconds, as a point in time or as a duration. -/
abbrev Millis := Int

namespace Millis

/-- What is left of a number of milliseconds in signed 64-bit arithmetic. -/
def wrap (t : Int) : Millis := Int.bmod t UInt64.size

/-- The time `delay` after `now`, wrapped into the signed 64-bit range. -/
def after (now delay : Millis) : Millis := wrap (now + delay)

/-- From zero up to 2^62. -/
def Early (t : Int) : Prop := 0 ≤ t ∧ t < 0x4000000000000000

theorem wrap_eq {t : Int} (hmin : -0x8000000000000000 ≤ t) (hmax : t < 0x8000000000000000) :
    wrap t = t := by
  apply Int.bmod_eq_of_le
  · simpa [UInt64.size] using hmin
  · simpa [UInt64.size] using hmax

theorem Early.wrap_sub {now t : Int} (hnow : Early now) (ht : Early t) :
    wrap (now - t) = now - t := by
  unfold Early at hnow ht
  exact wrap_eq (by omega) (by omega)

theorem Early.after_eq {now delay : Int} (hnow : Early now) (hdelay : Early delay) :
    after now delay = now + delay := by
  unfold Early at hnow hdelay
  exact wrap_eq (by omega) (by omega)

end Millis

/-- Fires once per period. `last` is when it was last served. -/
structure PeriodicTimer where
  period : Millis
  last : Millis
  deriving DecidableEq, Repr

namespace PeriodicTimer

/-- The time left until the timer is due, zero when it is. -/
def remaining (t : PeriodicTimer) (now : Millis) : Millis :=
  max (t.period - (now - t.last)) 0

def restart (t : PeriodicTimer) (now : Millis) : PeriodicTimer :=
  { t with last := now }

/-- The same in signed 64-bit arithmetic. -/
theorem remaining_eq_wrap {t : PeriodicTimer} {now : Millis} (hperiod : Millis.Early t.period)
    (hlast : Millis.Early t.last) (hnow : Millis.Early now) :
    t.remaining now = max (Millis.wrap (t.period - Millis.wrap (now - t.last))) 0 := by
  rw [hnow.wrap_sub hlast, remaining]
  unfold Millis.Early at hperiod hlast hnow
  rw [Millis.wrap_eq (by omega) (by omega)]

end PeriodicTimer

end Simulcast
