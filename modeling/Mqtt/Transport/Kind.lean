/-!
# `Mqtt.Transport.Kind`: kinds of network connection

A client can be set up for any of the kinds below. Only plain TCP comes
with the library.
-/

set_option autoImplicit false

namespace Mqtt

/-- A kind of network connection. -/
inductive TransportKind where
  | tcp
  | tls
  | webSocket
  deriving DecidableEq, Repr, Inhabited

namespace TransportKind

/-- The name of a kind. -/
def name : TransportKind → String
  | tcp => "Tcp"
  | tls => "Tls"
  | webSocket => "WebSocket"

/-- Whether the library has a transport of this kind. -/
def isBuiltIn (kind : TransportKind) : Bool :=
  kind = tcp

end TransportKind

end Mqtt
