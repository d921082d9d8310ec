import Jasl.Common.SubString
import Jasl.Library.DecimalText
import Jasl.Library.TextSearch
import Jasl.Socket.Socket

/-!
# Addresses and their texts

`IpAddr` has an address twice: as `sockaddr_in`, and as texts of the host and of the host
with the port. It is set from either. From a host, which `getaddrinfo` looks up when it is
no address, the texts are put together and `inet_pton` reads the address; from an address,
`inet_ntop` writes the host, and the host and the port are taken apart again behind the last
colon. What the system's functions do is a parameter (`AddressSystem`), and it is documented
that `inet_pton` reads what `inet_ntop` writes, which is numbers with dots between them.

An address comes back from its texts as it was (`address_round_trip`). A host comes back
as `inet_ntop` writes it, with the same address and port (`host_round_trip`). The bytes
of `sockaddr_in` behind the address are not looked at.
-/

set_option autoImplicit false

namespace Jasl

open Library

/-! ## The system -/

/-- How a function of `IpAddr` ends when it does not return. -/
inductive IpAddrFault where
  /-- `exit(EXIT_FAILURE)`. -/
  | exited
  /-- A string is made of a null pointer. -/
  | nullText
  /-- `std::out_of_range`. -/
  | outOfRange
  /-- `std::invalid_argument`. -/
  | invalidArgument
  /-- `std::runtime_error`. -/
  | runtimeError (what : List Char)
deriving DecidableEq, Repr

/-- `inet_pton` for `AF_INET`, `inet_ntop`, `getaddrinfo` with the families and addresses that it
finds, and `strerror(errno)`. -/
structure AddressSystem where
  inetPton : List Char → Option (BitVec 32)
  inetNtop : ℤ → BitVec 32 → Option (List Char)
  getaddrinfo : List Char → Option (List (ℤ × BitVec 32))
  strerror : List Char

/-- `inet_ntop` writes an address with digits and dots, in a buffer of 16 bytes, and `inet_pton`
reads it. -/
structure AddressSystem.Writes (system : AddressSystem) (addr : BitVec 32) (text : List Char) :
    Prop where
  writes : system.inetNtop Socket.afInet addr = some text
  dotted : ∀ c ∈ text, c.isDigit = true ∨ c = '.'
  short : text.length < 16
  reads : system.inetPton text = some addr

/-- Every address has a text, and an empty text is no address. -/
structure AddressSystem.Documented (system : AddressSystem) : Prop where
  text : ∀ addr, ∃ text, system.Writes addr text
  empty : system.inetPton [] = none

/-- What a function of the system sees of a text: it ends at a null character. -/
def cString (text : List Char) : List Char := text.takeWhile (· ≠ '\x00')

/-! ## `std::stol` -/

def isSpace (c : Char) : Bool :=
  c = ' ' || c = '\t' || c = '\n' || c = '\x0b' || c = '\x0c' || c = '\r'

/-- `std::stol`. -/
def stol (text : List Char) : Except IpAddrFault ℤ :=
  let body := text.dropWhile isSpace
  let negative := body.head? = some '-'
  let signed := negative ∨ body.head? = some '+'
  match leadingNat (if signed then body.tail else body) with
  | none => .error .invalidArgument
  | some n =>
      let value : ℤ := if negative then -n else n
      if value < -9223372036854775808 ∨ 9223372036854775807 < value then .error .outOfRange
      else .ok value

/-! ## The code -/

/-- `IpAddr`. -/
structure IpAddr where
  fullAddr : List Char := []
  ip : List Char := []
  port : BitVec 16 := 0
  addr : SockAddr
deriving DecidableEq, Repr

abbrev IpAddrCode := EStateM IpAddrFault IpAddr

def afInet6 : ℤ := 10

/-- `htons`, of which `ntohs` is the same. -/
def ntohs (port : BitVec 16) : BitVec 16 := Socket.htons port

variable (system : AddressSystem)

/-- The text of an address that is found, when it is not one of IPv6. -/
def foundText (found : ℤ × BitVec 32) : Option (List Char) :=
  if found.1 = afInet6 then none else system.inetNtop Socket.afInet found.2

/-- `host_to_ip`: the first address found that is not one of IPv6. -/
def hostToIp (host : List Char) : Except IpAddrFault (List Char) :=
  match system.getaddrinfo (cString host) with
  | none => .error .exited
  | some results => .ok ((results.findSome? (foundText system)).getD [])

/-- `sockaddr_to_string`. -/
def sockaddrToString (addr : SockAddr) : Except IpAddrFault (List Char) :=
  match system.inetNtop addr.family addr.addr with
  | none => .error .nullText
  | some ip => .ok (ip ++ ':' :: decimal (ntohs addr.port).toNat)

namespace IpAddr

/-- `IpAddr::get_sockaddr_in`. -/
def getSockaddrIn (ip : List Char) (port : BitVec 16) : Except IpAddrFault SockAddr :=
  match system.inetPton (cString ip) with
  | none => .error (.runtimeError ("get_sockaddr_in failed. reason: ".toList ++ system.strerror))
  | some addr => .ok ⟨Socket.afInet, Socket.htons port, addr⟩

/-- What returns or throws. -/
def orThrow {α : Type} : Except IpAddrFault α → IpAddrCode α
  | .ok value => pure value
  | .error fault => throw fault

/-- `IpAddr::set` of a host and a port, which is the constructor as well. -/
def setHost (host : List Char) (port : BitVec 16) : IpAddrCode Unit := do
  if (system.inetPton (cString host)).isSome then
    modify ({ · with ip := host })
  else
    let ip ← orThrow (hostToIp system host)
    modify ({ · with ip })
  modify ({ · with port })
  modify fun self => { self with fullAddr := self.ip ++ ':' :: decimal port.toNat }
  modify ({ · with addr := ⟨0, 0, 0⟩ })
  let addr ← orThrow (getSockaddrIn system (← get).ip port)
  modify ({ · with addr })

/-- `IpAddr::set` of an address. -/
def setSockaddr (addr : SockAddr) : IpAddrCode Unit := do
  let fullAddr ← orThrow (sockaddrToString system addr)
  modify ({ · with fullAddr })
  let delim := (lastHit (· == ':') fullAddr).getD npos
  modify ({ · with ip := fullAddr.take delim })
  let start := (delim + 1) % 2 ^ 64
  if fullAddr.length < start then throw .outOfRange
  let port ← orThrow (stol (fullAddr.drop start))
  modify ({ · with port := BitVec.ofInt 16 port })
  modify ({ · with addr })

/-- `IpAddr::clear`. -/
def clear : IpAddrCode Unit :=
  modify ({ · with fullAddr := [], ip := [], port := 0, addr := ⟨0, 0, 0⟩ })

end IpAddr

/-! ## Taking a text apart -/

theorem ne_of_isDigit {first c : Char} (digit : first.isDigit = true) (other : c.isDigit = false) :
    first ≠ c := by
  rintro rfl
  rw [digit] at other
  cases other

/-- A text of digits begins with no sign and no space. -/
theorem stol_decimal {n : ℕ} (short : n < 2 ^ 16) : stol (decimal n) = .ok n := by
  obtain ⟨first, rest, digits⟩ := List.exists_cons_of_ne_nil (decimal_ne_nil n)
  have digit : first.isDigit = true :=
    isDigit_of_mem_decimal (n := n) (digits ▸ List.mem_cons_self)
  have noSpace : isSpace first = false := by
    simp [isSpace, ne_of_isDigit digit]
  have kept : (decimal n).dropWhile isSpace = decimal n := by
    rw [digits, List.dropWhile_cons_of_neg (by rw [noSpace]; exact Bool.false_ne_true)]
  have noSign : ∀ c : Char, c.isDigit = false → (decimal n).head? ≠ some c := by
    intro c other same
    rw [digits, List.head?_cons, Option.some.injEq] at same
    exact ne_of_isDigit digit other same
  rw [stol, kept]
  simp only [noSign '-' rfl, noSign '+' rfl, or_false, if_false, leadingNat_decimal]
  rw [if_neg]
  omega

/-- The last colon is the one behind the host. -/
theorem lastHit_colon {host : List Char} (port : ℕ) :
    lastHit (· == ':') (host ++ ':' :: decimal port) = some host.length := by
  refine lastHit_eq_some.mpr ⟨?_, fun i behind hit => ?_⟩
  · refine ⟨':', ?_, rfl⟩
    rw [List.getElem?_append_right le_rfl, Nat.sub_self, List.getElem?_cons_zero]
  · obtain ⟨c, here, colon⟩ := hit
    obtain ⟨j, rfl⟩ := Nat.exists_eq_add_of_lt behind
    have place : host.length + j + 1 - host.length = j + 1 := by omega
    rw [List.getElem?_append_right (by omega), place, List.getElem?_cons_succ] at here
    have digit := isDigit_of_mem_decimal (List.mem_of_getElem? here)
    exact ne_of_isDigit digit (by decide) (eq_of_beq colon)

theorem ntohs_htons (port : BitVec 16) : ntohs (Socket.htons port) = port := by
  apply BitVec.eq_of_getLsbD_eq
  intro i inside
  simp only [ntohs, Socket.htons, BitVec.getLsbD_or, BitVec.getLsbD_shiftLeft,
    BitVec.getLsbD_ushiftRight, inside, decide_true, Bool.true_and]
  have beyond : port.getLsbD (8 + (8 + i)) = false := BitVec.getLsbD_of_ge _ _ (by omega)
  by_cases low : i < 8
  · have upper : ¬ 8 + i < 8 := by omega
    simp [low, beyond, upper, show 8 + i < 16 by omega]
  · have lower : i - 8 < 8 := by omega
    have upper : ¬ 8 + i < 16 := by omega
    simp [low, beyond, upper, lower, show 8 + (i - 8) = i by omega]

/-! ## What the functions do -/

namespace IpAddr

variable {system}

/-- The text of the host that `set` keeps. -/
def hostText (system : AddressSystem) (host : List Char) : Except IpAddrFault (List Char) :=
  if (system.inetPton (cString host)).isSome then .ok host else hostToIp system host

/-- The object behind a host that is set. -/
def ofHost (ip : List Char) (port : BitVec 16) (addr : SockAddr) : IpAddr :=
  ⟨ip ++ ':' :: decimal port.toNat, ip, port, addr⟩

theorem setHost_run (host : List Char) (port : BitVec 16) (before : IpAddr) :
    (setHost system host port).run before =
      match hostText system host with
      | .error fault => .error fault before
      | .ok ip =>
          match getSockaddrIn system ip port with
          | .error fault => .error fault (ofHost ip port ⟨0, 0, 0⟩)
          | .ok addr => .ok () (ofHost ip port addr) := by
  rw [setHost, hostText]
  by_cases read : (system.inetPton (cString host)).isSome = true
  · simp only [if_pos read, EStateM.run_bind, EStateM.run_modify, EStateM.run_get]
    cases getSockaddrIn system host port with
    | error fault => rfl
    | ok addr => rfl
  · simp only [if_neg read]
    cases hostToIp system host with
    | error fault => rfl
    | ok ip =>
        simp only [EStateM.run_bind, orThrow, EStateM.run_pure, EStateM.run_modify,
          EStateM.run_get]
        cases getSockaddrIn system ip port with
        | error fault => rfl
        | ok addr => rfl

/-- What an address is set to, when `inet_ntop` writes a text without a colon. -/
theorem setSockaddr_run {addr : SockAddr} {text : List Char}
    (writes : system.inetNtop addr.family addr.addr = some text)
    (short : text.length + 1 < 2 ^ 64) (before : IpAddr) :
    (setSockaddr system addr).run before = .ok () (ofHost text (ntohs addr.port) addr) := by
  have full : sockaddrToString system addr =
      .ok (text ++ ':' :: decimal (ntohs addr.port).toNat) := by
    rw [sockaddrToString, writes]
  have start : (text.length + 1) % 2 ^ 64 = text.length + 1 := Nat.mod_eq_of_lt short
  have port : stol (decimal (ntohs addr.port).toNat) = .ok ((ntohs addr.port).toNat : ℤ) :=
    stol_decimal (ntohs addr.port).isLt
  have inside : ¬ (text ++ ':' :: decimal (ntohs addr.port).toNat).length < text.length + 1 := by
    rw [List.length_append, List.length_cons]
    omega
  have host : (text ++ ':' :: decimal (ntohs addr.port).toNat).take text.length = text :=
    List.take_left
  have behind : (text ++ ':' :: decimal (ntohs addr.port).toNat).drop (text.length + 1) =
      decimal (ntohs addr.port).toNat := by
    rw [List.drop_append, List.drop_eq_nil_of_le (Nat.le_succ _), Nat.add_sub_cancel_left]
    rfl
  simp only [setSockaddr, full, orThrow, EStateM.run_bind, EStateM.run_pure, EStateM.run_modify,
    lastHit_colon, Option.getD_some, start, if_neg inside, behind, port, host]
  rw [BitVec.ofInt_natCast, BitVec.ofNat_toNat, BitVec.setWidth_eq]
  rfl

/-- The texts and the address are of one host and one port. -/
structure Consistent (system : AddressSystem) (held : IpAddr) : Prop where
  full : held.fullAddr = held.ip ++ ':' :: decimal held.port.toNat
  family : held.addr.family = Socket.afInet
  port : held.addr.port = Socket.htons held.port
  read : system.inetPton (cString held.ip) = some held.addr.addr

/-- A text with digits and dots is seen whole. -/
theorem cString_of_writes {addr : BitVec 32} {text : List Char}
    (written : system.Writes addr text) : cString text = text := by
  refine List.takeWhile_eq_self_iff.mpr fun c member => decide_eq_true ?_
  rintro rfl
  exact (written.dotted _ member).elim (by decide) (by decide)

theorem getSockaddrIn_eq_ok {ip : List Char} {port : BitVec 16} {addr : SockAddr} :
    getSockaddrIn system ip port = .ok addr ↔
      ∃ read, system.inetPton (cString ip) = some read ∧
        addr = ⟨Socket.afInet, Socket.htons port, read⟩ := by
  rw [getSockaddrIn]
  cases system.inetPton (cString ip) with
  | none => simp
  | some read => simp [eq_comm]

/-- A host that is looked up is written by `inet_ntop`, if it is an address at all. -/
theorem writes_of_hostToIp (documented : system.Documented) {host ip : List Char}
    (found : hostToIp system host = .ok ip) {addr : BitVec 32}
    (read : system.inetPton (cString ip) = some addr) :
    system.inetNtop Socket.afInet addr = some ip := by
  rw [hostToIp] at found
  split at found
  · cases found
  · rename_i results _
    obtain rfl := Except.ok.inj found
    cases first : results.findSome? (foundText system) with
    | none =>
        rw [first] at read
        cases read.symm.trans documented.empty
    | some text =>
        obtain ⟨⟨family, other⟩, -, written⟩ := List.exists_of_findSome?_eq_some first
        have written : system.inetNtop Socket.afInet other = some text := by
          by_cases sixth : family = afInet6
          · rw [foundText, if_pos sixth] at written
            cases written
          · rwa [foundText, if_neg sixth] at written
        obtain ⟨same, writes⟩ := documented.text other
        rw [first, Option.getD_some] at read
        have equal : same = text := Option.some.inj (writes.writes.symm.trans written)
        subst equal
        rw [cString_of_writes writes, writes.reads] at read
        rw [← Option.some.inj read, Option.getD_some]
        exact written

/-- A host that is set is consistent. -/
theorem setHost_eq_ok {host : List Char} {port : BitVec 16} {before held : IpAddr}
    (returns : (setHost system host port).run before = .ok () held) :
    held.Consistent system ∧ held.port = port ∧ hostText system host = .ok held.ip := by
  rw [setHost_run] at returns
  cases text : hostText system host with
  | error fault =>
      rw [text] at returns
      cases returns
  | ok ip =>
      rw [text] at returns
      cases address : getSockaddrIn system ip port with
      | error fault =>
          simp only [address] at returns
          cases returns
      | ok addr =>
          simp only [address] at returns
          obtain ⟨read, reads, rfl⟩ := getSockaddrIn_eq_ok.mp address
          cases returns
          exact ⟨⟨rfl, rfl, rfl, reads⟩, rfl, rfl⟩

namespace Consistent

variable {held : IpAddr}

/-- Setting the host and the port that are kept changes nothing. -/
theorem setHost (consistent : held.Consistent system) (other : IpAddr) :
    (setHost system held.ip held.port).run other = .ok () held := by
  have text : hostText system held.ip = .ok held.ip := by
    rw [hostText, if_pos]
    rw [consistent.read, Option.isSome_some]
  have address : getSockaddrIn system held.ip held.port = .ok held.addr := by
    refine getSockaddrIn_eq_ok.mpr ⟨_, consistent.read, ?_⟩
    rw [← consistent.family, ← consistent.port]
  rw [setHost_run, text]
  simp only [address]
  rw [ofHost, ← consistent.full]

end Consistent

/-- An address that is set gives back its text, and keeps its port. -/
theorem setSockaddr_of_writes {addr : SockAddr} {text : List Char}
    (inet : addr.family = Socket.afInet) (written : system.Writes addr.addr text) :
    (∀ before, (setSockaddr system addr).run before =
        .ok () (ofHost text (ntohs addr.port) addr)) ∧
      (ofHost text (ntohs addr.port) addr).Consistent system := by
  refine ⟨fun before => setSockaddr_run ?_ ?_ before, rfl, inet, ?_, ?_⟩
  · rw [inet]
    exact written.writes
  · have short := written.short
    omega
  · exact (ntohs_htons addr.port).symm
  · change system.inetPton (cString text) = _
    rw [cString_of_writes written]
    exact written.reads

end IpAddr

/-! ## Round trips -/

/-- **An address comes back from its texts.** Whatever the object was before, it can be set to any
address of IPv4 and has it then, and a host and a port that are set to those of the object give
the same object. -/
theorem address_round_trip {system : AddressSystem} (documented : system.Documented)
    {addr : SockAddr} (inet : addr.family = Socket.afInet) (before : IpAddr) :
    ∃ held, (IpAddr.setSockaddr system addr).run before = .ok () held ∧ held.addr = addr ∧
      held.Consistent system ∧
        ∀ other, (IpAddr.setHost system held.ip held.port).run other = .ok () held := by
  obtain ⟨text, written⟩ := documented.text addr.addr
  obtain ⟨run, consistent⟩ := IpAddr.setSockaddr_of_writes inet written
  exact ⟨_, run before, rfl, consistent, consistent.setHost⟩

/-- **A host comes back from its address.** When a host is set, the texts and the address are of one
host, and an object that is set to this address has the same address and port. It has the same
texts if and only if the host is as `inet_ntop` writes it, and always if the host was looked up. -/
theorem host_round_trip {system : AddressSystem} (documented : system.Documented)
    {host : List Char} {port : BitVec 16} {before held : IpAddr}
    (returns : (IpAddr.setHost system host port).run before = .ok () held) :
    held.Consistent system ∧ held.port = port ∧
      ∃ again : IpAddr,
        (∀ other, (IpAddr.setSockaddr system held.addr).run other = .ok () again) ∧
        again.Consistent system ∧ again.addr = held.addr ∧ again.port = held.port ∧
        (again = held ↔ system.inetNtop Socket.afInet held.addr.addr = some held.ip) ∧
        (system.inetPton (cString host) = none → again = held) := by
  obtain ⟨consistent, same, kept⟩ := IpAddr.setHost_eq_ok returns
  obtain ⟨text, written⟩ := documented.text held.addr.addr
  obtain ⟨run, again⟩ := IpAddr.setSockaddr_of_writes consistent.family written
  have port_ : ntohs held.addr.port = held.port := by
    rw [consistent.port, ntohs_htons]
  rw [port_] at run again
  have equal : IpAddr.ofHost text held.port held.addr = held ↔ text = held.ip := by
    constructor
    · exact congrArg IpAddr.ip
    · rintro rfl
      rw [IpAddr.ofHost, ← consistent.full]
  refine ⟨consistent, same, _, run, again, rfl, rfl, ?_, fun unread => equal.mpr ?_⟩
  · rw [equal, written.writes, Option.some.injEq]
  · -- the host was looked up, so `inet_ntop` wrote it
    rw [IpAddr.hostText, unread] at kept
    have found := IpAddr.writes_of_hostToIp documented kept consistent.read
    rw [written.writes] at found
    exact Option.some.inj found

/-! ## A system with dotted addresses -/

/-- The bytes of an address, in the order of the network. -/
def octets (addr : BitVec 32) : List ℕ :=
  [addr.toNat % 256, addr.toNat / 256 % 256, addr.toNat / 65536 % 256, addr.toNat / 16777216]

/-- The address with these bytes. -/
def ofOctets : List ℕ → Option (BitVec 32)
  | [first, second, third, fourth] =>
      if first < 256 ∧ second < 256 ∧ third < 256 ∧ fourth < 256 then
        some (BitVec.ofNat 32 (first + 256 * second + 65536 * third + 16777216 * fourth))
      else none
  | _ => none

theorem ofOctets_octets (addr : BitVec 32) : ofOctets (octets addr) = some addr := by
  have inside := addr.isLt
  rw [octets, ofOctets, if_pos (by omega)]
  congr 1
  apply BitVec.eq_of_toNat_eq
  rw [BitVec.toNat_ofNat]
  omega

/-- An address is four numbers without zeros in front, and one name is known. -/
def dottedSystem : AddressSystem where
  inetPton text := (readDotted text).bind ofOctets
  inetNtop family addr := if family = Socket.afInet then some (dotted (octets addr)) else none
  getaddrinfo host :=
    if host = "localhost".toList then some [(afInet6, 0), (Socket.afInet, 0x0100007f)] else none
  strerror := "Invalid argument".toList

theorem dottedSystem_documented : dottedSystem.Documented where
  text addr := by
    refine ⟨dotted (octets addr), rfl, fun c => digit_or_dot_of_mem_dotted, ?_, ?_⟩
    · have byte : ∀ n < 256, (decimal n).length ≤ 3 := by
        intro n small
        exact (Nat.length_toDigits_le_iff (by decide) (by decide)).mpr (by omega)
      have inside := addr.isLt
      have first := byte (addr.toNat % 256) (by omega)
      have second := byte (addr.toNat / 256 % 256) (by omega)
      have third := byte (addr.toNat / 65536 % 256) (by omega)
      have fourth := byte (addr.toNat / 16777216) (by omega)
      simp only [octets, dotted, List.length_append, List.length_cons]
      omega
    · change (readDotted (dotted (octets addr))).bind ofOctets = some addr
      have numbers : octets addr ≠ [] := List.cons_ne_nil _ _
      rw [readDotted_dotted numbers]
      exact ofOctets_octets addr
  empty := by decide

/-- An object before it is set. -/
def unsetAddr : IpAddr := ⟨[], [], 0, ⟨0, 0, 0⟩⟩

theorem address_round_trip_local : ∃ held,
    (IpAddr.setSockaddr dottedSystem ⟨2, 0x5000, 0x0100007f⟩).run unsetAddr = .ok () held ∧
      held.Consistent dottedSystem := by
  obtain ⟨held, run, -, consistent, -⟩ := address_round_trip dottedSystem_documented
    (show (⟨2, 0x5000, 0x0100007f⟩ : SockAddr).family = Socket.afInet from rfl) unsetAddr
  exact ⟨held, run, consistent⟩

theorem host_round_trip_local : ∃ again : IpAddr,
    (IpAddr.setSockaddr dottedSystem ⟨2, 0x5000, 0x0100007f⟩).run unsetAddr = .ok () again ∧
      again = IpAddr.ofHost "127.0.0.1".toList 80 ⟨2, 0x5000, 0x0100007f⟩ := by
  have returns : (IpAddr.setHost dottedSystem "localhost".toList 80).run unsetAddr =
      .ok () (IpAddr.ofHost "127.0.0.1".toList 80 ⟨2, 0x5000, 0x0100007f⟩) := rfl
  obtain ⟨-, -, again, run, -, -, -, -, same⟩ := host_round_trip dottedSystem_documented returns
  exact ⟨again, run unsetAddr, same (by decide +kernel)⟩

end Jasl
