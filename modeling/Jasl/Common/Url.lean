import Jasl.Common.SubString
import Jasl.Library.Loop
import Jasl.Library.TextSearch

/-!
# The parser of URLs

`Url`: `parse` copies the text, appends a `'/'` and goes from delimiter to delimiter. A
`':'` is tried as the end of the protocol, as the begin of the port and as the end of
the login, in this order; an `'@'` ends the password, and a `'/'` the host and the
parsing. The components are ranges of the text, and what a delimiter means depends on
which of them are set.

The text falls into segments, which begin at the start and behind each `"://"` that
ends a protocol. Inside of a segment a round of the loop depends on the delimiter
alone (`ends_of_scheme`, `ends_of_login`, `ends_of_at`), and a port or a `'/'` ends the
parsing (`ends_of_port`, `ends_of_slash`).
-/

set_option autoImplicit false

namespace Jasl

open Library

/-! ## Searches of `std::string` -/

namespace StdString

/-- `std::string::find_first_of`. -/
def findFirstOf (s chars : List Char) (start : ℕ) : ℕ :=
  (firstFrom (fun c => chars.contains c) s start).getD npos

/-- `std::string::find_first_not_of`. -/
def findFirstNotOf (s chars : List Char) (start : ℕ) : ℕ :=
  (firstFrom (fun c => !chars.contains c) s start).getD npos

/-- `std::string::rfind` of a character. -/
def rfind (s : List Char) (c : Char) (last : ℕ) : ℕ := (lastUpTo (· == c) s last).getD npos

/-- `std::string::find`. -/
def find (s block : List Char) : ℕ := (firstBlock block s).getD npos

/-- `std::string::max_size`. -/
def maxSize : ℕ := 2 ^ 63 - 1

end StdString

open StdString

/-! ## The parser -/

/-- `Url`. -/
structure Url where
  mUrl : List Char := []
  mProto : SubString := {}
  mLogin : SubString := {}
  mPass : SubString := {}
  mHost : SubString := {}
  mPort : SubString := {}
  mTail : SubString := {}
  mValid : Bool := false
deriving DecidableEq, Repr

namespace Url

section Accessors

variable (u : Url)

/-- `Url::operator bool`. -/
def isValid : Bool := u.mValid

/-- `Url::url`. -/
def url : List Char := u.mUrl

/-- `Url::proto`. -/
def proto : Except StringFault (List Char) := u.mProto.str u.mUrl

/-- `Url::login`. -/
def login : Except StringFault (List Char) := u.mLogin.str u.mUrl

/-- `Url::pass`. -/
def pass : Except StringFault (List Char) := u.mPass.str u.mUrl

/-- `Url::host`. -/
def host : Except StringFault (List Char) := u.mHost.str u.mUrl

/-- `Url::port`. -/
def port : Except StringFault (List Char) := u.mPort.str u.mUrl

/-- `Url::tail`. -/
def tail : Except StringFault (List Char) := u.mTail.str u.mUrl

end Accessors

/-- What a fill function that accepts the delimiter leaves, with the new offset; one that refuses
it leaves everything as it was. -/
abbrev Filled := Except StringFault (Option (Url × ℕ))

/-- `Url::fill_proto`. -/
def fillProto (ndebug : Bool) (u : Url) (offset : ℕ) : Filled :=
  if u.mProto.isSet then .ok none
  else if u.mUrl.length ≤ (offset + 2) % 2 ^ 64 then .ok none
  else if u.mUrl[offset]? = some ':' ∧ u.mUrl[offset + 1]? = some '/' ∧
      u.mUrl[offset + 2]? = some '/' then
    (SubString.set ndebug 0 offset).map fun proto => some ({ u with mProto := proto }, offset + 3)
  else .ok none

/-- `host_begin` of `Url::fill_host`. -/
def hostBegin (u : Url) (offset : ℕ) : ℕ :=
  if u.mPass.isSet then (rfind u.mUrl '@' ((offset + npos) % 2 ^ 64) + 1) % 2 ^ 64
  else if u.mProto.isSet then (find u.mUrl [':', '/', '/'] + 3) % 2 ^ 64
  else 0

/-- `host_end` of `Url::fill_host`. -/
def hostEnd (u : Url) (offset : ℕ) : ℕ :=
  if u.mPort.isSet then rfind u.mUrl ':' offset else offset

/-- `Url::fill_host`. -/
def fillHost (ndebug : Bool) (u : Url) (offset : ℕ) : Except StringFault Url :=
  (SubString.set ndebug (u.hostBegin offset) (u.hostEnd offset)).map fun host =>
    { u with mHost := host }

/-- The characters of a port. -/
def digits : List Char := ['1', '2', '3', '4', '5', '6', '7', '8', '9', '0']

/-- `Url::fill_port`. -/
def fillPort (ndebug : Bool) (u : Url) (offset : ℕ) : Filled :=
  if u.mPort.isSet then .ok none
  else
    let notADigit := findFirstNotOf u.mUrl digits (offset + 1)
    if (notADigit = npos ∨ u.mUrl[notADigit]? = some '/') ∧ 1 < notADigit - offset then
      (SubString.set ndebug (offset + 1)
          (if notADigit = npos then u.mUrl.length else notADigit)).bind fun port =>
        (fillHost ndebug { u with mPort := port } notADigit).map fun u => some (u, notADigit)
    else .ok none

/-- `Url::fill_login`. -/
def fillLogin (ndebug : Bool) (u : Url) (offset : ℕ) : Filled :=
  if u.mLogin.isSet then .ok none
  else
    let delim := rfind u.mUrl '/' offset
    if delim = npos then
      (SubString.set ndebug 0 offset).map fun login => some ({ u with mLogin := login }, offset + 1)
    else
      match u.mUrl[(delim + npos) % 2 ^ 64]? with
      | none => .error .outOfRange
      | some c =>
          if c = '/' then
            (SubString.set ndebug (delim + 1) offset).map fun login =>
              some ({ u with mLogin := login }, offset + 1)
          else .ok none

/-- `Url::fill_pass`. -/
def fillPass (ndebug : Bool) (u : Url) (offset : ℕ) : Filled :=
  if u.mPass.isSet then .ok none
  else if !u.mLogin.isSet then .ok none
  else
    let colon := rfind u.mUrl ':' ((offset + npos) % 2 ^ 64)
    (SubString.set ndebug ((colon + 1) % 2 ^ 64) offset).map fun pass =>
      some ({ u with mPass := pass }, offset + 1)

/-- `Url::fill_tail`. -/
def fillTail (ndebug : Bool) (u : Url) (offset : ℕ) : Filled :=
  (fillHost ndebug u offset).bind fun u =>
    (SubString.set ndebug (offset + 1) u.mUrl.length).map fun tail =>
      some ({ u with mTail := tail }, offset)

/-- How a round of the loop of `Url::parse` ends: with the next round or with the result. -/
abbrev Round := Url × ℕ ⊕ Except StringFault Url

/-- A fill function in a condition: when it accepts, the loop goes on. -/
def tried (filled : Filled) (otherwise : Round) : Round :=
  match filled with
  | .error fault => .inr (.error fault)
  | .ok (some next) => .inl next
  | .ok none => otherwise

/-- `assert(false)`; without assertions the next case is entered. -/
def assertFalse (ndebug : Bool) (next : Round) : Round :=
  if ndebug then next else .inr (.error .assertion)

/-- `default:`. -/
def caseDefault (ndebug : Bool) (u : Url) (offset : ℕ) : Round :=
  assertFalse ndebug (.inl (u, offset))

/-- `case '@':`. -/
def caseAt (ndebug : Bool) (u : Url) (offset : ℕ) : Round :=
  tried (u.fillPass ndebug offset) (assertFalse ndebug (u.caseDefault ndebug offset))

/-- `case '/':`. -/
def caseSlash (ndebug : Bool) (u : Url) (offset : ℕ) : Round :=
  match u.fillTail ndebug offset with
  | .error fault => .inr (.error fault)
  | .ok (some (u, _)) => .inr (.ok { u with mValid := true })
  | .ok none => assertFalse ndebug (u.caseAt ndebug offset)

/-- `case ':':`. -/
def caseColon (ndebug : Bool) (u : Url) (offset : ℕ) : Round :=
  tried (u.fillProto ndebug offset) <|
    tried (u.fillPort ndebug offset) <|
      tried (u.fillLogin ndebug offset) <|
        assertFalse ndebug (u.caseSlash ndebug offset)

/-- The loop of `Url::parse`: its condition and a round. -/
def body (ndebug : Bool) : Url × ℕ → Round
  | (u, offset) =>
      if offset < u.mUrl.length then
        let offset := findFirstOf u.mUrl [':', '/', '@'] offset
        if offset = npos then .inr (.ok u)
        else if u.mUrl[offset]? = some ':' then u.caseColon ndebug offset
        else if u.mUrl[offset]? = some '/' then u.caseSlash ndebug offset
        else if u.mUrl[offset]? = some '@' then u.caseAt ndebug offset
        else u.caseDefault ndebug offset
      else .inr (.ok { u with mValid := true })

/-- `Url::parse`, for at most `fuel` rounds. -/
def parse (ndebug : Bool) (fuel : ℕ) (u : Url) (url : List Char) :
    Option (Except StringFault Url) :=
  iterate (body ndebug) fuel ({ u with mUrl := url ++ ['/'] }, 0)

/-- `Url::set`. -/
def set (ndebug : Bool) (fuel : ℕ) (u : Url) (url : List Char) : Option (Except StringFault Url) :=
  parse ndebug fuel { u with mValid := false } url

/-- `Url::set` ends with this result. -/
def Sets (ndebug : Bool) (u : Url) (url : List Char) (result : Except StringFault Url) : Prop :=
  ∃ fuel, u.set ndebug fuel url = some result

/-- `Url::Url` ends with this result. -/
def Constructs (ndebug : Bool) (url : List Char) (result : Except StringFault Url) : Prop :=
  Sets ndebug {} url result

theorem sets_iff {ndebug : Bool} {u : Url} {url : List Char} {result : Except StringFault Url} :
    Sets ndebug u url result ↔
      Ends (body ndebug) ({ u with mUrl := url ++ ['/'], mValid := false }, 0) result := Iff.rfl

theorem sets_unique {ndebug : Bool} {u : Url} {url : List Char}
    {first second : Except StringFault Url}
    (set : Sets ndebug u url first) (again : Sets ndebug u url second) : first = second :=
  (sets_iff.mp set).unique (sets_iff.mp again)

end Url

end Jasl
