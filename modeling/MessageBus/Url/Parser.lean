import MessageBus.Url.Basic

/-!
# Reading URLs

`Url.parse` reads a URL as browsers do: control characters and spaces around it and tabs and line
breaks inside of it are dropped, a special scheme takes any number of slashes of either kind, dot
segments are resolved and each part is percent-encoded.  `Url.withPath` sets a path by the same
rules, except that a question mark or hash is then part of it.
-/

namespace MessageBus.Url

/-- Whether a character is dropped inside of a URL. -/
def isDropped (c : Char) : Bool := c = '\t' || c = '\n' || c = '\r'

/-- Whether a character is dropped around a URL. -/
def isPadding (c : Char) : Bool := c.toNat ≤ 32

/-- The characters that count. -/
def clean (cs : List Char) : List Char :=
  let cs := ((cs.dropWhile isPadding).reverse.dropWhile isPadding).reverse
  cs.filter fun c => !isDropped c

/-- The scheme in lower case, and what follows its colon. -/
def readScheme? (cs : List Char) : Option (String × List Char) :=
  let isInner (c : Char) := c.isAlphanum || c = '+' || c = '-' || c = '.'
  match cs with
  | [] => none
  | c :: _ =>
    if c.isAlpha then
      match cs.dropWhile isInner with
      | ':' :: rest => some (String.ofList ((cs.takeWhile isInner).map Char.toLower), rest)
      | _ => none
    else none

/-- Whether a character parts the segments of a path. -/
def isSlash (special : Bool) (c : Char) : Bool := c = '/' || (special && c = '\\')

/-- Whether a character ends the authority. -/
def endsAuthority (special : Bool) (c : Char) : Bool :=
  isSlash special c || c = '?' || c = '#'

/-- Whether an encoded segment stands for the one it is in. -/
def isDot (segment : String) : Bool := segment = "." || segment = "%2e" || segment = "%2E"

/-- Whether an encoded segment stands for the one above. -/
def isDoubleDot (segment : String) : Bool :=
  ["..", "%2e.", ".%2e", "%2e%2e"].contains (segment.map Char.toLower)

/-- A segment in its written form. -/
def encodeSegment (cs : List Char) : String := String.ofList (Percent.encode Percent.inPath cs)

/-- Whether an encoded segment looks like the drive of a local file. -/
def isDrive (segment : String) : Bool :=
  match segment.toList with
  | letter :: mark :: rest =>
    letter.isAlpha && (mark = ':' || mark = '|') && (rest.isEmpty || rest.head? = some '\\')
  | _ => false

/-- The segments above the nearest one.  A drive is not left, whatever the scheme. -/
def leave : List String → List String
  | [] => []
  | s :: above => if isDrive s then s :: above else above

/-- Resolves the dot segments.  `above` holds the segments above, the nearest first. -/
def resolve (above : List String) : List String → List String
  | [] => above.reverse
  | [s] =>
    if isDoubleDot s then ("" :: leave above).reverse
    else if isDot s then ("" :: above).reverse
    else (s :: above).reverse
  | s :: rest =>
    if isDoubleDot s then resolve (leave above) rest
    else if isDot s then resolve above rest
    else resolve (s :: above) rest

/-- Reads a rooted path; a special URL always has one. -/
def readPath (special : Bool) (cs : List Char) : Path :=
  let segments (cs : List Char) := (Text.cut (isSlash special) cs).map encodeSegment
  match cs with
  | [] => .rooted (if special then [""] else [])
  | c :: rest =>
    if isSlash special c then .rooted (resolve [] (segments rest))
    else .rooted (resolve [] (segments cs))

/-- Reads a path without a root. -/
def readRootless (cs : List Char) : Path :=
  .rootless (String.ofList (Percent.encode Percent.inControls cs))

/-- The parts after the authority: path, query and fragment. -/
structure Tail where
  path : List Char
  query : Option String
  fragment : Option String

/-- Cuts off the query and the fragment. -/
def readTail (special : Bool) (cs : List Char) : Tail :=
  let (cs, fragment) := match Text.cutFirst? (· == '#') cs with
    | some (before, after) =>
      (before, some (String.ofList (Percent.encode Percent.inFragment after)))
    | none => (cs, none)
  let inQuery := if special then Percent.inSpecialQuery else Percent.inQuery
  match Text.cutFirst? (· == '?') cs with
  | some (before, after) => ⟨before, some (String.ofList (Percent.encode inQuery after)), fragment⟩
  | none => ⟨cs, none, fragment⟩

/-- The user name and the password, if one is given that is not empty. -/
def readUserInfo (cs : List Char) : String × Option String :=
  let written (cs : List Char) := String.ofList (Percent.encode Percent.inUserInfo cs)
  match Text.cutFirst? (· == ':') cs with
  | none => (written cs, none)
  | some (name, []) => (written name, none)
  | some (name, password) => (written name, some (written password))

/-- The host, and what follows its colon.  A colon inside brackets is part of the host. -/
def cutPort (inside : Bool) : List Char → List Char × Option (List Char)
  | [] => ([], none)
  | c :: rest =>
    if c = ':' ∧ ¬ inside then ([], some rest)
    else
      let inside := if c = '[' then true else if c = ']' then false else inside
      let (host, port) := cutPort inside rest
      (c :: host, port)

/-- Reads a port; the port that the scheme stands for is dropped, and so is an empty one. -/
def readPort (scheme : String) (cs : List Char) : Except UrlError (Option Nat) :=
  if cs.isEmpty then .ok none
  else if cs.all Char.isDigit then
    let n := cs.foldl (fun n c => n * 10 + (c.toNat - 48)) 0
    if 65535 < n then .error .port
    else .ok (if defaultPort? scheme = some n then none else some n)
  else .error .port

/-- Reads a URL from its authority on. -/
def readAuthority (scheme : String) (cs : List Char) : Except UrlError Url := do
  let special := isSpecial scheme
  let text := cs.takeWhile fun c => !endsAuthority special c
  let rest := cs.drop text.length
  let (userInfo, hostPort) := (Text.cutLast? (· == '@') text).getD ([], text)
  let (username, password) := readUserInfo userInfo
  let (hostText, portText) := cutPort false hostPort
  let marked := text.length ≠ hostPort.length
  if hostText.isEmpty ∧
      (special ∨ portText.isSome ∨ username ≠ "" ∨ password.isSome ∨ (marked ∧ rest ≠ [])) then
    .error .emptyHost
  else
    let host ← if special then Host.special hostText else Host.general hostText
    let portText := portText.getD []
    let digits := portText.takeWhile (· != '\\')
    let port ← readPort scheme digits
    let tail := readTail special (portText.drop digits.length ++ rest)
    .ok ⟨scheme, username, password, some host, port, readPath special tail.path, tail.query,
      tail.fragment⟩

/-- Reads a URL of a local file after its scheme. -/
def readFile (cs : List Char) : Except UrlError Url := do
  let isSlash := isSlash true
  let text := match cs with
    | a :: b :: rest => if isSlash a && isSlash b then rest else []
    | _ => []
  let hasHost := match cs with
    | a :: b :: _ => isSlash a && isSlash b
    | _ => false
  let hostText := text.takeWhile fun c => !endsAuthority true c
  let rest := if hasHost then text.drop hostText.length else cs
  let host ← if hostText.isEmpty then .ok Host.empty else Host.special hostText
  let host := if host = .domain "localhost" then .empty else host
  let tail := readTail true rest
  .ok ⟨"file", "", none, some host, none, readPath true tail.path, tail.query, tail.fragment⟩

/-- Reads a URL. -/
def parse (text : String) : Except UrlError Url :=
  match readScheme? (clean text.toList) with
  | none => .error .relative
  | some (scheme, rest) =>
    if scheme = "file" then readFile rest
    else if isSpecial scheme then readAuthority scheme (rest.dropWhile (isSlash true))
    else match rest with
      | '/' :: '/' :: rest => readAuthority scheme rest
      | '/' :: rest =>
        let tail := readTail false rest
        .ok ⟨scheme, "", none, none, none, readPath false ('/' :: tail.path), tail.query,
          tail.fragment⟩
      | rest =>
        let tail := readTail false rest
        .ok ⟨scheme, "", none, none, none, readRootless tail.path, tail.query, tail.fragment⟩

/-- The URL with another path. -/
def withPath (u : Url) (text : String) : Url :=
  let cs := text.toList.filter fun c => !isDropped c
  let path := match u.path with
    | .rooted _ => readPath (isSpecial u.scheme) cs
    | .rootless _ => readRootless (match cs with
      | '/' :: rest => ['%', '2', 'F'] ++ rest
      | cs => cs)
  { u with path := path }

end MessageBus.Url
