import FieldTelemetry.Intake.Listener
import FieldTelemetry.Intake.Transport

/-!
# Listening for datagrams

Every datagram is one transmission. A datagram longer than the buffer of the listener comes cut to
the length of the buffer, and an empty one is passed over. The listener ends when the consumer of
the queue has left.

## Main definitions

* `DatagramSettings`: the settings of the listener
* `DatagramListener.receive`: what a datagram does
-/

namespace FieldTelemetry.Intake

open Json (slots default?)
open Net (Address)
open Time (Instant)

/-- The settings of the listener for datagrams. -/
structure DatagramSettings where
  /-- The address to listen at. -/
  bind : String := "0.0.0.0:8081"
  /-- The size of the buffer. -/
  maxDatagram : UInt64 := 65507
deriving DecidableEq, Repr, Inhabited

instance : Json.Record DatagramSettings where
  form := slots true ["bind", "max_datagram"]
  values x := [some (.ofString x.bind), some (.ofUInt64 x.maxDatagram)]
  ofValues?
    | [bind, maxDatagram] => do
      let standard : DatagramSettings := {}
      return ⟨← default? standard.bind Json.text? bind,
        ← default? standard.maxDatagram Json.uint64? maxDatagram⟩
    | _ => none

/-- The octets that the buffer holds, one at least. -/
def DatagramSettings.buffer (settings : DatagramSettings) : Nat :=
  max settings.maxDatagram.toNat 1

/-- The listener for datagrams. -/
structure DatagramListener where
  /-- Its settings. -/
  settings : DatagramSettings := {}
  /-- What it has counted. -/
  listener : Listener := {}
  /-- It takes further datagrams. -/
  isServing : Bool := true
deriving DecidableEq

namespace DatagramListener

/-- The part of a datagram that comes with the buffer. -/
def stored (listener : DatagramListener) (datagram : Octets) : Octets :=
  datagram.take listener.settings.buffer

/-- The request that a datagram makes. -/
def request (listener : DatagramListener) (peer : Address) (datagram : Octets) (now : Instant) :
    Request where
  payload := listener.stored datagram
  transport := (Transport.datagram peer).label
  receivedAt := now

/-- What a datagram of a peer does. While it waits for a free place in the queue, and when the
consumer has left, the listener takes no further datagrams. -/
def receive (listener : DatagramListener) (queue : Queue) (peer : Address) (datagram : Octets)
    (now : Instant) : DatagramListener × Queue :=
  if !listener.isServing || (listener.stored datagram).isEmpty then (listener, queue)
  else
    let (result, counted, queue) :=
      listener.listener.submit queue (listener.request peer datagram now)
    let isServing := match result with
      | some (.ok _) | some (.error .circuitOpen) => true
      | some (.error .closed) | none => false
    ({ listener with listener := counted, isServing }, queue)

/-- What several datagrams do, one after the other. -/
def receiveAll (listener : DatagramListener) (queue : Queue) :
    List (Address × Octets × Instant) → DatagramListener × Queue
  | [] => (listener, queue)
  | (peer, datagram, now) :: rest =>
    let (listener, queue) := listener.receive queue peer datagram now
    listener.receiveAll queue rest

end DatagramListener

end FieldTelemetry.Intake
