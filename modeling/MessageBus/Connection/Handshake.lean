import MessageBus.Connection.Program
import MessageBus.Config.Settings

/-!
# Getting keys

A participant without keys asks the introducers for them in the clear, and a person hands it the
text that an introducer put on the clipboard.  Whether a key works is found out by a test message,
which only an introducer with the same key can read and confirm.
-/

namespace MessageBus

/-- The part of a connection in the handshake. -/
inductive Role where
  | client
  | introducer
  deriving DecidableEq, Repr

namespace Handshake

/-- The pause after asking for keys, in which an introducer can act. -/
def requestSettle : Nat := 200

/-- The pause after asking for keys to be copied, in which the request gets written. -/
def copyKeySettle : Nat := 1000

/-- Asks for keys and reads the answer of the person. -/
def requestKey (answer : Option KeyAnswer) : Task BusError String := do
  Task.send .requestAuth
  Task.sleep requestSettle
  return Text.trim (← Task.ask answer)

/-- Whether a message confirms the key of a participant. -/
def confirms (id : String) : Message → Bool
  | .authValid origin => origin = id
  | _ => false

/-- Sends a test and waits for its confirmation. -/
def testAuth (id : String) (limit : Nat) : Task BusError Unit := do
  Task.send .testAuth
  match ← Task.outcome (Task.waitFor limit "AuthValid" (confirms id)) with
  | .ok _ => return ()
  | .error (.timeout _) => throw .authTimeout
  | .error e => throw e

/-- The configured key text, unless it is empty. -/
def configuredKey? (s : Settings) : Option String := s.key.filter (· != "")

/-- Uses the configured key, which a client tests unless it is trusted. -/
def useConfigured (s : Settings) (id key : String) (role : Role) : Task BusError Unit := do
  Task.setKeys (← liftExcept (KeySet.parse key))
  if role = .client ∧ s.trustKey = false then testAuth id s.authTimeout
where
  /-- A result as a task. -/
  liftExcept {α : Type} (r : BusResult α) : Task BusError α := ExceptT.mk (.done r)

/-- Asks for keys until one works; a text without a key ends the handshake. -/
def requestUntilValid (s : Settings) (id : String) : (answers : List KeyAnswer) → Task BusError Unit
  | [] => do
    Task.setKeys .empty
    let _ ← requestKey none
    throw .closed
  | answer :: rest => do
    Task.setKeys .empty
    let text ← requestKey (some answer)
    Task.setKeys (← ExceptT.mk (.done (KeySet.parse text)))
    if s.trustKey then return ()
    match ← Task.outcome (testAuth id s.authTimeout) with
    | .ok _ => return ()
    | .error .authTimeout => requestUntilValid s id rest
    | .error e => throw e

/-- Gets keys for a fresh connection. -/
def establishKeys (s : Settings) (id : String) (role : Role) (answers : List KeyAnswer) :
    Task BusError Unit :=
  match configuredKey? s with
  | some key => useConfigured s id key role
  | none => requestUntilValid s id answers

/-- Asks the introducers to copy their keys to the clipboard. -/
def copyKey : Task BusError Unit := do
  Task.send .requestAuth
  Task.sleep copyKeySettle

end Handshake

end MessageBus
