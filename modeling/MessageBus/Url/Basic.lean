import MessageBus.Url.Host

/-!
# URLs

A URL in its parts, each already written as it stands in the text, and `Url.render`, the text.  A
path is rooted, that is a list of segments with a slash before each, or a text without a root.

## Main statements

* `Url.render_withPassword` : the password shows in the text at one place only.
-/

namespace MessageBus

/-- The path of a URL. -/
inductive Url.Path where
  /-- Segments with a slash before each. -/
  | rooted (segments : List String)
  /-- A text, for a URL without a host. -/
  | rootless (text : String)
  deriving DecidableEq, Repr

/-- The text of a path. -/
def Url.Path.render : Url.Path → String
  | .rooted segments => String.join (segments.map ("/" ++ ·))
  | .rootless text => text

/-- A URL in its parts. -/
structure Url where
  scheme : String
  username : String
  password : Option String
  /-- A URL without any authority has no host. -/
  host : Option Host
  port : Option Nat
  path : Url.Path
  query : Option String
  fragment : Option String
  deriving DecidableEq, Repr

namespace Url

/-- Who the URL speaks for, up to the at sign. -/
def userInfo (u : Url) : String :=
  match u.password with
  | some p => u.username ++ ":" ++ p ++ "@"
  | none => if u.username = "" then "" else u.username ++ "@"

/-- The port with its colon. -/
def portText (u : Url) : String := (u.port.map fun p => ":" ++ toString p).getD ""

/-- The slashes, the user, the host and the port. -/
def authority (u : Url) : String :=
  match u.host with
  | some h => "//" ++ u.userInfo ++ h.render ++ u.portText
  | none => ""

/-- What follows the path. -/
def suffix (u : Url) : String :=
  ((u.query.map ("?" ++ ·)).getD "") ++ ((u.fragment.map ("#" ++ ·)).getD "")

/-- The text of a URL. -/
def render (u : Url) : String :=
  u.scheme ++ ":" ++ u.authority ++ u.path.render ++ u.suffix

/-- The URL with another password. -/
def withPassword (u : Url) (password : String) : Url := { u with password := some password }

/-- The text of the host, if there is one. -/
def hostText? (u : Url) : Option String :=
  match u.host with
  | none | some .empty => none
  | some h => some h.render

/-- Whether a scheme is one of those with hosts and ports of their own. -/
def isSpecial (scheme : String) : Bool :=
  ["http", "https", "ws", "wss", "ftp", "file"].contains scheme

/-- The port that a scheme stands for. -/
def defaultPort? (scheme : String) : Option Nat :=
  match scheme with
  | "http" | "ws" => some 80
  | "https" | "wss" => some 443
  | "ftp" => some 21
  | _ => none

theorem withPassword_withPassword (u : Url) (p q : String) :
    (u.withPassword p).withPassword q = u.withPassword q := rfl

theorem render_withPassword (u : Url) (p : String) (h : Host) (hu : u.host = some h) :
    (u.withPassword p).render =
      u.scheme ++ ":" ++ ("//" ++ (u.username ++ ":" ++ p ++ "@") ++ h.render ++ u.portText)
        ++ u.path.render ++ u.suffix := by
  simp [render, authority, withPassword, hu, userInfo, portText, suffix]

end Url

end MessageBus
