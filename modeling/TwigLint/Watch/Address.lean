import TwigLint.Number.Numeral
import TwigLint.Text.Utf8

/-! # Addresses

An address at which something is served: a host, a colon and a service, which is a number or a name.
A host with colons stands in square brackets.  Hosts are not looked up here.
-/

namespace TwigLint

/-- What is wrong with an address. -/
inductive AddressFault where
  | missingService
  | tooManyColons
  | missingBracket
  | strayOpening
  | strayClosing
  | invalidService
  deriving DecidableEq, Repr

def AddressFault.message : AddressFault → Text
  | .missingService => "missing port in address"
  | .tooManyColons => "too many colons in address"
  | .missingBracket => "missing ']' in address"
  | .strayOpening => "unexpected '[' in address"
  | .strayClosing => "unexpected ']' in address"
  | .invalidService => "invalid port"

/-- Why nothing can be served at an address. -/
inductive AddressError where
  | malformed (address : Text) (fault : AddressFault)
  | unknownService (service : Text)
  deriving DecidableEq, Repr

def AddressError.message : AddressError → Text
  | .malformed address fault =>
    let place : Text := if address.isEmpty then "" else "address " ++ address ++ ": "
    place ++ fault.message
  | .unknownService service => "lookup tcp/" ++ service ++ ": unknown port"

namespace Address

def has (t : Text) (b : UInt8) : Bool := t.contains b

/-- The service behind a host in brackets; `rest` follows the closing one. -/
def serviceAfterBracket (rest : Text) : Except AddressFault Text :=
  match rest with
  | [] => .error .missingService
  | b :: service =>
    if b != ':' then .error .missingService
    else if has service ':' then .error .tooManyColons
    else .ok service

/-- The service behind a plain host. -/
def serviceAfterHost (address : Text) : Except AddressFault Text :=
  match address.splitOn ':' with
  | [_, service] => .ok service
  | _ => .error .tooManyColons

/-- A bracket where none is allowed. -/
def strayBracket? (opening closing : Text) : Option AddressFault :=
  if has opening '[' then some .strayOpening
  else if has closing ']' then some .strayClosing
  else none

/-- The service of an address, or why there is none. -/
def service (address : Text) : Except AddressFault Text := do
  if !has address ':' then throw .missingService
  let (service, stray?) ←
    if address.head? == some '[' then
      let rest := address.dropWhile fun (b : UInt8) => b != ']'
      if rest.isEmpty then throw .missingBracket
      pure (← serviceAfterBracket (rest.drop 1), strayBracket? (address.drop 1) (rest.drop 1))
    else pure (← serviceAfterHost address, strayBracket? address address)
  match stray? with
  | some reason => throw reason
  | none => return service

/-- The names of well-known services. -/
def serviceNames : List Text :=
  ["domain", "ftp", "ftps", "gopher", "http", "https", "imap2", "imap3", "imaps", "pop3", "pop3s",
    "smtp", "submission", "ssh", "telnet"]

/-- The greatest number of 32 bits. -/
def ceiling : Nat := 0xffffffff

/-- The number that digits make in 32 bits, read onto `n`; none if something else stands among them.
What follows a number beyond 30 bits does not matter. -/
def digitsNumber? (n : Nat) : Text → Option Nat
  | [] => some n
  | b :: rest =>
    if !Text.isDigit b then none
    else if 1 <<< 30 ≤ n then some ceiling
    else
      let next := 10 * n % (1 <<< 32) + (b.toNat - 48)
      if ceiling < next then some ceiling else digitsNumber? next rest

/-- An address can be served. -/
def check (address : Text) : Except AddressError Unit := do
  let service ← (service address).mapError (.malformed address)
  let (negative, digits) := Numeral.splitSign service
  match digitsNumber? 0 digits with
  | some n =>
    if n ≤ (if negative then 0 else 65535) then return ()
    else throw (.malformed service .invalidService)
  | none =>
    if serviceNames.contains service.lowerAscii then return () else throw (.unknownService service)

end Address

end TwigLint
