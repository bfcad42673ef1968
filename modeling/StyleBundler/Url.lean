import StyleBundler.Url.Host

/-!
The scheme of a specifier. A text that starts with a scheme and a colon has that
scheme, whatever follows. Any other text has one only when it reads as a URL: blanks
and control characters around it and line breaks and tabs in it are dropped, and then
the authority has to be well formed.
-/

namespace StyleBundler.Url

open Text

def isSchemeChar (c : Char) : Bool :=
  c.isAlphanum || c == '+' || c == '-' || c == '.'

/-- The scheme before the first colon and what follows the colon: a letter, then
letters, digits, plus, minus and dot. -/
def splitScheme? (cs : List Char) : Option (List Char × List Char) :=
  match cs.takeWhile (· != ':'), cs.dropWhile (· != ':') with
  | c :: scheme, _ :: rest =>
      if c.isAlpha && scheme.all isSchemeChar then some (c :: scheme, rest) else none
  | _, _ => none

/-- The text as a URL reader sees it. -/
def clean (cs : List Char) : List Char :=
  (trimBoth (· ≤ ' ') cs).filter fun c => c != '\t' && c != '\n' && c != '\r'

/-- Decimal digits up to the end of the authority, at most 65535. -/
def isPort (cs : List Char) : Bool :=
  let digits := cs.takeWhile Char.isDigit
  let isEnd :=
    match cs.dropWhile Char.isDigit with
    | [] => true
    | c :: _ => c == '/' || c == '\\' || c == '?' || c == '#'
  digitsValue 10 digits ≤ 65535 && isEnd

/-- Splits a host from what follows it; colons inside brackets belong to it. -/
def takeHost (special inBrackets : Bool) : List Char → List Char × List Char
  | [] => ([], [])
  | c :: cs =>
      if (c == ':' && !inBrackets) || (c == '\\' && special) || c == '/' || c == '?' ||
          c == '#' then ([], c :: cs)
      else
        let inBrackets := if c == '[' then true else if c == ']' then false else inBrackets
        let (host, rest) := takeHost special inBrackets cs
        (c :: host, rest)

/-- The user information before the last `@` of the authority, when there is one, and
what follows that sign. -/
def splitUser? (special : Bool) (cs : List Char) : Option (List Char × List Char) :=
  let authority := cs.takeWhile fun c =>
    !(c == '/' || c == '?' || c == '#' || (c == '\\' && special))
  if authority.contains '@' then
    let host := (authority.reverse.takeWhile (· != '@')).length
    let user := authority.take (authority.length - host - 1)
    some (user, cs.drop (authority.length - host))
  else none

/-- User information that does not count as missing. -/
def isUser (user : List Char) : Bool := user != [] && user != [':']

/-- Whether what follows the two slashes starts with a well-formed authority. -/
def isAuthority (special : Bool) (cs : List Char) : Bool :=
  let (user, rest) := (splitUser? special cs).getD ([], cs)
  let (host, tail) := takeHost special false rest
  let isBare := (splitUser? special cs).isSome && user.isEmpty && host.isEmpty && !tail.isEmpty
  let hostOk :=
    if special then isDomain host
    else isOpaqueHost host && !(host.isEmpty && isUser user) && !isBare
  let portOk :=
    match tail with
    | ':' :: digits => !host.isEmpty && isPort digits
    | _ => true
  hostOk && portOk

def isDriveLetter (cs : List Char) : Bool :=
  match cs with
  | [letter, sign] => letter.isAlpha && (sign == ':' || sign == '|')
  | _ => false

def specialSchemes : List String := ["http", "https", "ws", "wss", "ftp"]

/-- Whether a URL may go on like this behind its scheme and colon. -/
def isValidRest (scheme : String) (rest : List Char) : Bool :=
  let isSlash (c : Char) : Bool := c == '/' || c == '\\'
  if scheme == "file" then
    match rest with
    | a :: b :: rest =>
        if isSlash a && isSlash b then
          let host := rest.takeWhile fun c => !(isSlash c || c == '?' || c == '#')
          host.isEmpty || isDriveLetter host || isDomain host
        else true
    | _ => true
  else if specialSchemes.contains scheme then isAuthority true (rest.dropWhile isSlash)
  else
    match rest with
    | '/' :: '/' :: rest => isAuthority false rest
    | _ => true

/-- The scheme that a specifier is under, as written. -/
def scheme? (specifier : List Char) : Option (List Char) :=
  match splitScheme? specifier with
  | some (scheme, _) => some scheme
  | none =>
      match splitScheme? (clean specifier) with
      | some (scheme, rest) =>
          if isValidRest (String.ofList (scheme.map Char.toLower)) rest then some scheme
          else none
      | none => none

/-- Equality up to the case of ASCII letters. -/
def sameScheme (a b : List Char) : Bool := a.map Char.toLower == b.map Char.toLower

/-- Whether a specifier is under one of the given schemes, each written with or
without colons at its end. -/
def isUnder (schemes : List String) (specifier : String) : Bool :=
  match scheme? specifier.toList with
  | none => false
  | some scheme => schemes.any fun s => sameScheme (trimEnd (· == ':') s.toList) scheme

end StyleBundler.Url
