/-!
# Daemon/Debounce — one change out of a burst

Saving a file often changes it several times in a row.  `Debounce.accept` takes a change unless one
of the same file was taken less than the window before; changes that were taken long ago are
forgotten.
-/

namespace Rollout

/-- **When the last change of each file was taken**, in milliseconds. -/
abbrev Debounce := List (String × Nat)

namespace Debounce

/-- Changes of a file within this time after a taken one are not taken. -/
def window : Nat := 500

/-- A taken change is remembered this long. -/
def retention : Nat := 30000

/-- Forget the changes that were taken long before `now`. -/
def retain (now : Nat) (d : Debounce) : Debounce := d.filter fun e => now - e.2 ≤ retention

/-- Remember that a change is taken. -/
def take (path : String) (now : Nat) (d : Debounce) : Debounce :=
  (path, now) :: d.filter fun e => e.1 != path

/-- **Is a change of a file taken?**  And what is remembered then. -/
def accept (path : String) (now : Nat) (d : Debounce) : Bool × Debounce :=
  let d := d.retain now
  match d.lookup path with
  | some last => if now - last < window then (false, d) else (true, d.take path now)
  | none => (true, d.take path now)

/-- The times of the changes that are taken, out of the times of all changes of a file. -/
def taken (path : String) : Debounce → List Nat → List Nat
  | _, [] => []
  | d, now :: later =>
    match d.accept path now with
    | (true, d) => now :: taken path d later
    | (false, d) => taken path d later

end Debounce

end Rollout
