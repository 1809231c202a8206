/-! # Clock — points in time and stretches of it -/

namespace FileWatch

/-- A stretch of time, in nanoseconds. -/
structure Duration where
  nanoseconds : Nat
  deriving DecidableEq, Repr, Inhabited

namespace Duration

/-- The empty stretch. -/
def zero : Duration := ⟨0⟩

/-- A stretch of `n` milliseconds. -/
def ofMilliseconds (n : Nat) : Duration := ⟨n * 1000000⟩

/-- The full seconds of a stretch. -/
def seconds (d : Duration) : Nat := d.nanoseconds / 1000000000

/-- What remains beyond the full seconds, in nanoseconds. -/
def subsecond (d : Duration) : Nat := d.nanoseconds % 1000000000

/-- The full milliseconds of a stretch. -/
def milliseconds (d : Duration) : Nat := d.nanoseconds / 1000000

end Duration

/-- A calendar time: seconds since the epoch, and nanoseconds that always count forward. -/
structure Moment where
  seconds : Int
  nanoseconds : Nat
  deriving DecidableEq, Repr, Inhabited

end FileWatch
