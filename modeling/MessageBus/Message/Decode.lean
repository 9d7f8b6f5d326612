import MessageBus.Message.Basic
import MessageBus.Error
import MessageBus.Text.Quoted

/-!
# Reading messages

Each known type has a form: the members it takes, in their declared order, with the kind of value
of each.  An object is first searched, in the order of its members, for one that is of the wrong
kind; then the declared members are searched for one that is missing.  Members that the form does
not name are ignored.
-/

namespace MessageBus.Message

/-- The kind of value of a member. -/
inductive MemberKind where
  | text
  | level
  | flag
  deriving DecidableEq, Repr

/-- A member of a form.  An optional member may be missing, but not be `null`. -/
structure MemberForm where
  name : String
  kind : MemberKind
  optional : Bool
  deriving DecidableEq, Repr

/-- What keeps an object from being a message. -/
inductive Malformed where
  /-- There is no `type` member, or it is no text. -/
  | noType
  /-- A member is of the wrong kind. -/
  | wrongKind (found : Json) (expected : MemberKind)
  /-- A member is missing. -/
  | missing (name : String)
  deriving Repr

namespace MemberKind

/-- What a value of this kind is called. -/
def description : MemberKind → String
  | text => "a string"
  | level => "f64"
  | flag => "a boolean"

/-- Whether a value is of this kind.  Every number is a level. -/
def accepts : MemberKind → Json → Bool
  | text, .str _ => true
  | level, .num _ => true
  | flag, .bool _ => true
  | _, _ => false

end MemberKind

/-- A value as the wording of an error shows it. -/
def describeValue : Json → String
  | .null => "null"
  | .bool b => "boolean `" ++ (if b then "true" else "false") ++ "`"
  | .num (.int i) => "integer `" ++ String.ofList (Json.Number.chars (.int i)) ++ "`"
  | .num (.float x) => "floating point `" ++ String.ofList (Json.Number.chars (.float x)) ++ "`"
  | .str s => "string " ++ Text.quoted s
  | .arr _ => "sequence"
  | .obj _ => "map"

/-- The wording of an error. -/
def Malformed.message : Malformed → String
  | noType => "missing string field `type`"
  | wrongKind found expected =>
    "invalid type: " ++ describeValue found ++ ", expected " ++ expected.description
  | missing name => "missing field `" ++ name ++ "`"

/-- A required member. -/
def required (name : String) (kind : MemberKind) : MemberForm := ⟨name, kind, false⟩

/-- The form of a type, in declared order. -/
def form (type : String) : List MemberForm :=
  match type with
  | "CopyData" | "OpenURL" => [required "data" .text]
  | "DataCopied" | "URLOpened" | "AuthValid" => [required "origin" .text]
  | "Notification" =>
    [required "notification-id" .text, required "message" .text, required "level" .level,
     ⟨"url", .text, true⟩]
  | "NotificationDisplayed" =>
    [required "origin" .text, required "notification-id" .text, ⟨"level", .level, true⟩]
  | "IntroducerPresent" => [required "level" .level]
  | "Trigger" => [required "trigger" .text, required "from" .text, required "success" .flag]
  | "Stream" => [required "identifier" .text, required "data" .text]
  | _ => []

/-- The first member, in the order of the object, whose value is of the wrong kind. -/
def wrongMember? (forms : List MemberForm) (fields : Fields) : Option Malformed :=
  fields.findSome? fun (name, value) =>
    match forms.find? fun f => f.name == name with
    | some f => if f.kind.accepts value then none else some (.wrongKind value f.kind)
    | none => none

/-- The first declared member that the object has not. -/
def missingMember? (forms : List MemberForm) (fields : Fields) : Option Malformed :=
  forms.findSome? fun f =>
    if f.optional || (fields.get? f.name).isSome then none else some (.missing f.name)

/-- A member that is a number, as a level; zero when it is missing. -/
def levelMember (fields : Fields) (name : String) : Binary64 :=
  match fields.get? name with
  | some (.num (.int i)) => Binary64.ofInt i
  | some (.num (.float x)) => x
  | _ => Binary64.zero

/-- A member that is a text; empty when it is missing. -/
def textMember (fields : Fields) (name : String) : String := (fields.text? name).getD ""

/-- A member that is a flag; false when it is missing. -/
def flagMember (fields : Fields) (name : String) : Bool :=
  match fields.get? name with
  | some (.bool b) => b
  | _ => false

/-- The message of a type, with the members of an object that has its form. -/
def build (type : String) (fields : Fields) : Message :=
  let text := textMember fields
  match type with
  | "CopyData" => .copyData (text "data")
  | "DataCopied" => .dataCopied (text "origin")
  | "OpenURL" => .openUrl (text "data")
  | "URLOpened" => .urlOpened (text "origin")
  | "Notification" =>
    .notification (text "notification-id") (text "message") (levelMember fields "level")
      (text "url")
  | "NotificationDisplayed" =>
    .notificationDisplayed (text "origin") (text "notification-id") (levelMember fields "level")
  | "RequestAuth" => .requestAuth
  | "TestAuth" => .testAuth
  | "AuthValid" => .authValid (text "origin")
  | "IntroducerPresent" => .introducerPresent (levelMember fields "level")
  | "IntroducerRollCall" => .introducerRollCall
  | "Trigger" => .trigger (text "trigger") (text "from") (flagMember fields "success")
  | "Stream" => .stream (text "identifier") (text "data")
  | "Reconnected" => .reconnected
  | _ => .unknown

/-- Reads the message that an object stands for. -/
def ofFields (fields : Fields) : Except Malformed Message :=
  match fields.text? "type" with
  | none => .error .noType
  | some type =>
    let forms := form type
    match wrongMember? forms fields with
    | some e => .error e
    | none =>
      match missingMember? forms fields with
      | some e => .error e
      | none => .ok (build type fields)

end MessageBus.Message
