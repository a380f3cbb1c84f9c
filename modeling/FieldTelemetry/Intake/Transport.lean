import FieldTelemetry.Net.Address

/-!
# Transports

The label of a transport says over which link a request came, and from whom.

## Main definitions

* `Transport`: a link and the peer on it
* `Transport.label`: its label
-/

namespace FieldTelemetry.Intake

open Net (Address)

/-- A link and the peer on it. -/
inductive Transport
  /-- A datagram from an address. -/
  | datagram (peer : Address)
  /-- A connection from an address. -/
  | connection (peer : Address)
  /-- An upload of a client. -/
  | upload (client : String)
  /-- A topic of a broker. -/
  | broker (topic : String)
deriving DecidableEq, Repr

/-- The label of a transport. -/
def Transport.label : Transport → String
  | .datagram peer => "device-udp:" ++ peer.render
  | .connection peer => "device-tcp:" ++ peer.render
  | .upload client => "device-http:" ++ client
  | .broker topic => "broker:" ++ topic

end FieldTelemetry.Intake
