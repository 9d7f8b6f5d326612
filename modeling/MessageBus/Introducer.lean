import MessageBus.Election
import MessageBus.KeySet
import MessageBus.Message.Envelope

/-!
# Introducers

An introducer does for others what needs its desktop, as long as it is active in the election, and
confirms each deed to whoever asked for it.  Its keys leave it only by way of the clipboard.

`Introducer.receive` is its whole behaviour for one envelope: the next state of its election and
what it does, in order.  Whether a deed succeeds is a parameter.

## Main statements

* `receive_standby` : on standby an envelope only moves the election.
-/

namespace MessageBus

/-- What an introducer does on its desktop. -/
inductive Deed where
  | copy (text : String)
  | openUrl (url : String)
  | notify (text : String) (url : String) (level : Binary64)
  deriving DecidableEq, Repr

namespace Introducer

/-- Something that an introducer does. -/
inductive Effect where
  | did (deed : Deed) (success : Bool)
  | send (m : Message)
  deriving DecidableEq, Repr

/-- The message for a broadcast of the election. -/
def broadcast : Election.Output → Message
  | .announce level => .introducerPresent level
  | .callRoll => .introducerRollCall

/-- The reaction to an observation of the election. -/
def observe (e : Election) (event : Election.Event) : Election × List Effect :=
  let (e, outputs) := e.step event
  (e, outputs.map fun o => .send (broadcast o))

/-- A deed, and the confirmation if it succeeds. -/
def perform (succeeds : Deed → Bool) (deed : Deed) (reply : Option Message) : List Effect :=
  let ok := succeeds deed
  .did deed ok :: if ok then (reply.map Effect.send).toList else []

/-- What an active introducer does for a participant. -/
def serve (keys : KeySet) (succeeds : Deed → Bool) (origin : String) : Message → List Effect
  | .copyData data => perform succeeds (.copy data) (some (.dataCopied origin))
  | .openUrl data => perform succeeds (.openUrl data) (some (.urlOpened origin))
  | .notification id text level url =>
    perform succeeds (.notify text url level) (some (.notificationDisplayed origin id level))
  | .testAuth => [.send (.authValid origin)]
  | .requestAuth => if keys.isEmpty then [] else perform succeeds (.copy keys.joined) none
  | _ => []

/-- The reaction to an envelope. -/
def receive (keys : KeySet) (succeeds : Deed → Bool) (e : Election) (envelope : Envelope) :
    Election × List Effect :=
  if envelope.isReconnected then observe e .reconnected
  else match envelope.message with
    | .error _ => (e, [])
    | .ok (.introducerPresent level) => observe e (.presence level)
    | .ok .introducerRollCall => observe e .rollCall
    | .ok m =>
      -- on standby another introducer does the work
      if !e.isActive then (e, [])
      else match envelope.sender? with
        -- there is nobody to confirm anything to
        | none => (e, [])
        | some origin => (e, serve keys succeeds origin m)

/-- Whether an effect is a deed. -/
def Effect.isDeed : Effect → Bool
  | did .. => true
  | send _ => false

theorem receive_standby (keys : KeySet) (succeeds : Deed → Bool) (e : Election)
    (envelope : Envelope) (h : e.isActive = false) :
    ((receive keys succeeds e envelope).2.any Effect.isDeed) = false := by
  unfold receive
  split
  · simp [observe, Effect.isDeed]
  · split <;> simp [observe, Effect.isDeed, h]

end Introducer

end MessageBus
