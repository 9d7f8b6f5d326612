import MessageBus.Error
import MessageBus.Hub.Frame

/-!
# Links over sockets

A link to a realm of a hub: every body is a text frame.  Frames of other kinds say nothing, and a
close, or the end of the socket, is a failure of the link.

## Main statements

* `receive_frameOf` : a body that is sent is received as it is.
-/

namespace MessageBus.Socket

/-- What a socket brings. -/
inductive Arrival where
  | frame (f : Frame)
  /-- The socket failed. -/
  | failed (reason : String)
  /-- The socket is at its end. -/
  | ended
  deriving DecidableEq, Repr

/-- The frame for a body. -/
def frameOf (body : String) : Frame := .text body

/-- What an arrival is to the receiver: a body, a failure of the link, or nothing. -/
def receive : Arrival → Option (BusResult Bytes)
  | .frame (.text s) => some (.ok (utf8 s))
  | .frame .close => some (.error (.transport "socket closed: None"))
  | .frame _ => none
  | .failed reason => some (.error (.webSocket reason))
  | .ended => some (.error (.transport "socket closed"))

theorem receive_frameOf (body : String) :
    receive (.frame (frameOf body)) = some (.ok (utf8 body)) := rfl

end MessageBus.Socket
