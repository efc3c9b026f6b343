/-!
# `Mqtt.Session.PacketId`: packet identifiers in turn

Identifiers run from 1 to 65534 and start over. `IdAllocator.next` hands
out the next one that is not in use.

* `IdAllocator.seek` looks through a given number of identifiers; when
  all are in use it ends at the last one that it looked at.
-/

set_option autoImplicit false

namespace Mqtt

/-- The greatest packet identifier that is handed out. -/
def maxPacketId : UInt16 := 65534

/-- The last identifier that was handed out; zero at the start. -/
structure IdAllocator where
  last : UInt16
  deriving DecidableEq, Repr, Inhabited

namespace IdAllocator

/-- No identifier was handed out yet. -/
def new : IdAllocator := ⟨0⟩

/-- The identifier that follows `i`. -/
def following (i : UInt16) : UInt16 :=
  if maxPacketId ≤ i then 1 else i + 1

/-- The first of the `tries` identifiers that follow `i` that is not in
use, or the last of them. -/
def seek (inUse : UInt16 → Bool) : (tries : Nat) → UInt16 → UInt16
  | 0, i => i
  | tries + 1, i =>
      if inUse (following i) then seek inUse tries (following i) else following i

/-- Hands out an identifier. -/
def next (ids : IdAllocator) (inUse : UInt16 → Bool) : UInt16 × IdAllocator :=
  let i := seek inUse maxPacketId.toNat ids.last
  (i, ⟨i⟩)

end IdAllocator

end Mqtt
