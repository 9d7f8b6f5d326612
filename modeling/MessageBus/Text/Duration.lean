import MessageBus.Timestamp

/-!
# Periods as text

A period in milliseconds reads in seconds from one second on, without trailing zeros after the
point: `5s`, `1.5s`, `20ms`.  No time at all reads `0ns`.
-/

namespace MessageBus.Text

/-- The digits after the point, without trailing zeros. -/
def fractionDigits (milliseconds : Nat) : List Char :=
  ((Timestamp.padded 3 milliseconds).reverse.dropWhile (· == '0')).reverse

/-- The text of a period in milliseconds. -/
def duration (ms : Nat) : String :=
  if ms = 0 then "0ns"
  else if ms < 1000 then toString ms ++ "ms"
  else
    let fraction := fractionDigits (ms % 1000)
    let point := if fraction.isEmpty then "" else "."
    toString (ms / 1000) ++ point ++ String.ofList fraction ++ "s"

end MessageBus.Text
