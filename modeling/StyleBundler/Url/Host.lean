import StyleBundler.Domain.Name
import StyleBundler.Url.Address

/-!
Hosts. Schemes with a syntax for hosts take a domain name or an address; the others take
almost any text.
-/

namespace StyleBundler.Url

open Text

/-- The bytes of a text in UTF-8, with percent escapes undone. -/
def percentDecode : List Char → List UInt8
  | '%' :: a :: b :: rest =>
      if isHexDigit a && isHexDigit b then
        UInt8.ofNat (hexValue a * 16 + hexValue b) :: percentDecode rest
      else String.utf8EncodeChar '%' ++ percentDecode (a :: b :: rest)
  | c :: cs => String.utf8EncodeChar c ++ percentDecode cs
  | [] => []

/-- Characters that no host of a scheme without a host syntax of its own may hold. -/
def isForbiddenInHost (c : Char) : Bool :=
  c == '\x00' || c == '\t' || c == '\n' || c == '\r' || " #/:<>?@[\\]^|".toList.contains c

/-- A host in brackets, and none otherwise. -/
def bracketed? (host : List Char) : Option (List Char) :=
  match host with
  | '[' :: rest => if rest.getLast? == some ']' then some rest.dropLast else some ['[']
  | _ => none

/-- Whether a text is a domain name, or the dotted address that one has to be whose last
label is a number. -/
def isName (host : List Char) : Bool :=
  match String.fromUTF8? (percentDecode host).toByteArray with
  | none => false
  | some name =>
      match Domain.labels? name.toList with
      | none | some [[]] => false
      | some labels => !endsInNumber labels || isDottedAddress labels

/-- Whether the host of a scheme with host syntax is well formed. -/
def isDomain (host : List Char) : Bool :=
  match bracketed? host with
  | some address => isBracketAddress address
  | none => isName host

def isOpaqueHost (host : List Char) : Bool :=
  match bracketed? host with
  | some address => isBracketAddress address
  | none => !host.any isForbiddenInHost

end StyleBundler.Url
