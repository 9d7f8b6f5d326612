import MessageBus.Table
import MessageBus.Error
import MessageBus.Text.Split

/-!
# Sections of a configuration

A configuration is a table of sections, each a table of texts.  A setting is addressed by
`section.name`, cut at the first dot; the name may hold more of them.
-/

namespace MessageBus

/-- Sections with their values. -/
abbrev Sections := Table (Table String)

/-- The address of a setting. -/
structure SettingKey where
  group : String
  name : String
  deriving DecidableEq, Repr

namespace SettingKey

/-- Reads an address; neither part may be empty. -/
def parse (text : String) : BusResult SettingKey :=
  match Text.cutFirst? (· == '.') text.toList with
  | some (c :: group, d :: name) => .ok ⟨String.ofList (c :: group), String.ofList (d :: name)⟩
  | _ => .error (.config ("key '" ++ text ++ "' must be of the form section.name"))

/-- The text of an address. -/
def render (k : SettingKey) : String := k.group ++ "." ++ k.name

end SettingKey

namespace Sections

/-- The value of a setting. -/
def value? (s : Sections) (k : SettingKey) : Option String :=
  (s.get? k.group).bind (·.get? k.name)

/-- The sections with a setting set. -/
def set (s : Sections) (k : SettingKey) (value : String) : Sections :=
  s.insert k.group (((s.get? k.group).getD []).insert k.name value)

/-- The sections without a setting; a section that this leaves empty goes too. -/
def unset (s : Sections) (k : SettingKey) : Sections :=
  match s.get? k.group with
  | none => s
  | some values =>
    match values.erase k.name with
    | [] => s.erase k.group
    | rest => s.insert k.group rest

/-- The settings by the texts of their addresses. -/
def flat (s : Sections) : List (String × String) :=
  s.flatMap fun (group, values) => values.map fun (name, value) => (group ++ "." ++ name, value)

end Sections

end MessageBus
