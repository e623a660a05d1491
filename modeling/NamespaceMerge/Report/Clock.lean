import NamespaceMerge.Number.Basic

/-! A clock as the readings it will give. The last reading repeats. -/

namespace NamespaceMerge

structure Clock where
  reading : Number
  further : List Number := []

namespace Clock

/-- A clock that stands still. -/
def still (reading : Number) : Clock := { reading }

/-- A reading, and the clock after it. -/
def read (c : Clock) : Number × Clock :=
  match c.further with
  | [] => (c.reading, c)
  | next :: further => (c.reading, ⟨next, further⟩)

theorem read_still (reading : Number) : (still reading).read = (reading, still reading) := rfl

end Clock

end NamespaceMerge
