/-!
# System/Clock — time
-/

namespace Rollout

/-- **A clock.** -/
class Clock (m : Type → Type) where
  /-- Microseconds, never fewer than before. -/
  micros : m Nat
  /-- Seconds since the beginning of 1970. -/
  unixSeconds : m Nat
  /-- Wait for so many milliseconds. -/
  pause : Nat → m Unit

end Rollout
