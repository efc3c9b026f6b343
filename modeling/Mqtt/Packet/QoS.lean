/-!
# `Mqtt.Packet.QoS`: how hard a message is tried

The three quality of service levels and the number that stands for each
on the wire. `ofLevel?_eq_some_iff` says that the two directions agree.
-/

set_option autoImplicit false

namespace Mqtt

/-- How hard sender and receiver try to deliver a message. -/
inductive QoS where
  /-- Level 0: sent once and never acknowledged. -/
  | atMostOnce
  /-- Level 1: sent until a PUBACK comes, so it may arrive more than once. -/
  | atLeastOnce
  /-- Level 2: handed over in a PUBREC, PUBREL and PUBCOMP exchange. -/
  | exactlyOnce
  deriving DecidableEq, Repr, Inhabited

/-- The number of a level. -/
def QoS.level : QoS → UInt8
  | .atMostOnce => 0
  | .atLeastOnce => 1
  | .exactlyOnce => 2

/-- The level with a given number; there are three. -/
def QoS.ofLevel? : UInt8 → Option QoS
  | 0 => some .atMostOnce
  | 1 => some .atLeastOnce
  | 2 => some .exactlyOnce
  | _ => none

/-- A level is found by its number. -/
theorem QoS.ofLevel?_level (q : QoS) : QoS.ofLevel? q.level = some q := by
  cases q <;> rfl

/-- No other level has this number. -/
theorem QoS.ofLevel?_eq_some_iff {n : UInt8} {q : QoS} :
    QoS.ofLevel? n = some q ↔ n = q.level := by
  constructor
  · intro h
    unfold QoS.ofLevel? at h
    split at h <;> cases h <;> rfl
  · rintro rfl
    exact q.ofLevel?_level

end Mqtt
