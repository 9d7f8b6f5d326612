/-!
# Settings of a hub

Periods are in milliseconds, sizes in bytes.
-/

namespace MessageBus

/-- Timings and limits of a hub. -/
structure HubSettings where
  /-- Where it listens. -/
  address : String
  /-- How long a single write may take. -/
  writeWait : Nat
  /-- How long a client may be silent; every frame counts, answers to pings too. -/
  pongWait : Nat
  /-- How often a client is pinged. -/
  pingPeriod : Nat
  /-- The largest frame that is accepted. -/
  maxMessageSize : Nat
  /-- How many frames wait for a client; one more disconnects it. -/
  sendBuffer : Nat
  /-- How often realms without clients are retired. -/
  sweepInterval : Nat
  deriving DecidableEq, Repr

namespace HubSettings

/-- The settings where nothing is configured: a client is pinged before its silence is too long. -/
def default : HubSettings where
  address := "0.0.0.0:3000"
  writeWait := 10000
  pongWait := 60000
  pingPeriod := 60000 * 9 / 10
  maxMessageSize := 2048
  sendBuffer := 256
  sweepInterval := 6000

end HubSettings

end MessageBus
