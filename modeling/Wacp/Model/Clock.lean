import Mathlib.Data.Nat.Notation
import Wacp.Library.Framing

/-!
# The hybrid logical clock

`wacp-clock`: an 80-bit timestamp of a 64-bit physical time in microseconds and a 16-bit logical
counter. The reading of the time source is an argument and may be anything. The timestamp a method
returns is the new clock's `last`.
-/

namespace Wacp

open Library

def u16Max : UInt16 := 65535

def saturatingAdd (a b : UInt16) : UInt16 :=
  if a.toNat + b.toNat ≤ u16Max.toNat then a + b else u16Max

/-! ## Timestamps (wacp-clock/src/timestamp.rs) -/

structure Timestamp where
  physicalUs : UInt64
  logical : UInt16
  deriving DecidableEq

structure TimestampBytes where
  bytes : List UInt8
  length_eq : bytes.length = 10
  deriving DecidableEq

namespace Timestamp

def ZERO : Timestamp := { physicalUs := 0, logical := 0 }

def toBytes (t : Timestamp) : TimestampBytes where
  bytes := beBytes 8 t.physicalUs.toNat ++ beBytes 2 t.logical.toNat
  length_eq := by rw [List.length_append, length_beBytes, length_beBytes]

def fromBytes (b : TimestampBytes) : Timestamp :=
  { physicalUs := UInt64.ofNat (beValue (b.bytes.take 8))
    logical := UInt16.ofNat (beValue (b.bytes.drop 8)) }

/-- The next logical tick; a saturated counter moves to the next microsecond. The addition
on `u64` wraps, as in a release build. -/
def succ (t : Timestamp) : Timestamp :=
  if t.logical = u16Max then { physicalUs := t.physicalUs + 1, logical := 0 }
  else { physicalUs := t.physicalUs, logical := t.logical + 1 }

def cmp (a b : Timestamp) : Ordering :=
  (compare a.physicalUs b.physicalUs).then (compare a.logical b.logical)

instance : LT Timestamp := ⟨fun a b => a.cmp b = .lt⟩

instance : LE Timestamp := ⟨fun a b => a.cmp b ≠ .gt⟩

instance (a b : Timestamp) : Decidable (a < b) := inferInstanceAs (Decidable (a.cmp b = .lt))

instance (a b : Timestamp) : Decidable (a ≤ b) := inferInstanceAs (Decidable (a.cmp b ≠ .gt))

end Timestamp

/-! ## The clock (wacp-clock/src/lib.rs) -/

structure Clock where
  last : Timestamp
  deriving DecidableEq

namespace Clock

def withInitial (initial : Timestamp) : Clock := { last := initial }

/-- A timestamp for a local event; `physical` is what the time source reads. -/
def now (c : Clock) (physical : UInt64) : Clock :=
  if physical > c.last.physicalUs then { last := { physicalUs := physical, logical := 0 } }
  else
    { last :=
        { physicalUs := c.last.physicalUs
          logical := saturatingAdd c.last.logical 1 } }

def send (c : Clock) (physical : UInt64) : Clock := c.now physical

def recv (c : Clock) (localPhysical : UInt64) (remote : Timestamp) : Clock :=
  let maxPhysical := max (max localPhysical c.last.physicalUs) remote.physicalUs
  let logical :=
    if maxPhysical > c.last.physicalUs ∧ maxPhysical > remote.physicalUs then
      -- physical time is ahead of both
      0
    else if maxPhysical = c.last.physicalUs ∧ maxPhysical = remote.physicalUs then
      saturatingAdd (max c.last.logical remote.logical) 1
    else if maxPhysical = c.last.physicalUs then
      saturatingAdd c.last.logical 1
    else
      saturatingAdd remote.logical 1
  { last := { physicalUs := maxPhysical, logical := logical } }

end Clock

end Wacp
