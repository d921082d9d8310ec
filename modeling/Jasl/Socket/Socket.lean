import Jasl.Common.FileDescriptor

/-!
# Making and connecting a socket

The constructor of `Socket`, its options and `connect`, and `Tcp`, which puts them
together: code that makes system calls and may throw. A call that fails sets `errno`, and one
that succeeds leaves it, so a later look at `errno` sees the last failure, whoever made
it. What the system replies is a parameter (`System`), and the calls are kept in order.
-/

set_option autoImplicit false

namespace Jasl

/-- `Socket::State`. -/
inductive SocketState where
  | invalid
  | created
  | connecting
  | listening
  | ready
deriving DecidableEq, Repr

/-! ## The system -/

/-- `sockaddr_in`. -/
structure SockAddr where
  family : ℤ
  port : BitVec 16
  addr : BitVec 32
deriving DecidableEq, Repr

/-- The calls into the system, with their arguments. -/
inductive SysCall where
  | socket (family type : ℤ)
  | getFlags (fd : ℤ)
  | setFlags (fd : ℤ) (flags : BitVec 32)
  | setsockopt (fd level name : ℤ) (value : BitVec 32)
  | inetPton (family : ℤ) (ip : String)
  | connect (fd : ℤ) (addr : SockAddr)
deriving DecidableEq, Repr

/-- The reply to a call. -/
inductive SysReply where
  | returned (value : ℕ)
  | failed (errno : ℕ)
deriving DecidableEq, Repr

namespace SysReply

/-- What the call returns. -/
def value : SysReply → ℤ
  | .returned value => value
  | .failed _ => -1

/-- `errno` behind the call. -/
def errnoAfter : SysReply → ℕ → ℕ
  | .returned _, errno => errno
  | .failed errno, _ => errno

end SysReply

/-- What the system replies, the address that `inet_pton` writes, and `strerror`. -/
structure System where
  reply : SysCall → SysReply
  address : ℤ → String → BitVec 32
  strerror : ℕ → String

/-! ## The code -/

/-- A `Socket` that is made. -/
structure SocketObject where
  type : ℤ := 0
  family : ℤ := 0
  state : SocketState := .invalid
  fd : ℤ := -1
deriving DecidableEq, Repr

/-- The process: `errno`, the calls so far, and the socket. -/
structure Process where
  errno : ℕ
  calls : List SysCall := []
  socket : SocketObject := {}

/-- Code that may throw a `std::runtime_error`, which is its text. -/
abbrev Code := EStateM String Process

/-- A system call. -/
def System.call (system : System) (call : SysCall) : Code ℤ := do
  modify fun process => { process with
    errno := (system.reply call).errnoAfter process.errno
    calls := process.calls ++ [call] }
  return (system.reply call).value

namespace Socket

def invalidFd : ℤ := -1

def afInet : ℤ := 2

def sockStream : ℤ := 1

def solSocket : ℤ := 1

def soReuseaddr : ℤ := 2

def soSndbuf : ℤ := 7

def soRcvbuf : ℤ := 8

def soReuseport : ℤ := 15

def oNonblock : BitVec 32 := 2048

/-- `Socket::Socket`, with `FileDescriptor::FileDescriptor` for its descriptor. -/
def create (system : System) (type family fd : ℤ) : Code Unit := do
  modify fun process => { process with socket := { process.socket with type, family } }
  let made ← if fd = invalidFd then system.call (.socket family type) else pure fd
  if made < 0 then throw "Invalid FileDescriptor"
  modify fun process => { process with socket := { process.socket with
    fd := made
    state := if fd = invalidFd then .created else .ready } }

/-- `Socket::set_nonblock`. -/
def setNonblock (system : System) : Code Unit := do
  let fd := (← get).socket.fd
  let flags ← system.call (.getFlags fd)
  let _ ← system.call (.setFlags fd (BitVec.ofInt 32 flags ||| oNonblock))

/-- `Socket::set_reuseaddr`. -/
def setReuseaddr (system : System) : Code Unit := do
  let _ ← system.call (.setsockopt (← get).socket.fd solSocket soReuseaddr 1)

/-- `Socket::set_reuseport`. -/
def setReuseport (system : System) : Code Unit := do
  let _ ← system.call (.setsockopt (← get).socket.fd solSocket soReuseport 1)

/-- `Socket::set_rcvbuf`. -/
def setRcvbuf (system : System) (size : BitVec 32) : Code Unit := do
  let _ ← system.call (.setsockopt (← get).socket.fd solSocket soRcvbuf size)

/-- `Socket::set_sndbuf`. -/
def setSndbuf (system : System) (size : BitVec 32) : Code Unit := do
  let _ ← system.call (.setsockopt (← get).socket.fd solSocket soSndbuf size)

def htons (port : BitVec 16) : BitVec 16 := port <<< 8 ||| port >>> 8

/-- `Socket::get_saddr`; without a text the address is `INADDR_ANY`. -/
def getSaddr (system : System) (ip : Option String) (port : BitVec 16) : Code SockAddr := do
  let family := (← get).socket.family
  match ip with
  | none => return ⟨family, htons port, 0⟩
  | some ip =>
      let n ← system.call (.inetPton family ip)
      if n ≤ 0 then throw ("inet_pton failed: " ++ system.strerror (← get).errno)
      return ⟨family, htons port, system.address family ip⟩

/-- `Socket::connect`. -/
def connect (system : System) (ip : String) (port : BitVec 16) : Code Unit := do
  modify fun process => { process with socket := { process.socket with state := .connecting } }
  let saddr ← getSaddr system (some ip) port
  let n ← system.call (.connect (← get).socket.fd saddr)
  if n < 0 then throw ("connect failed: " ++ system.strerror (← get).errno)
  modify fun process => { process with socket := { process.socket with state := .ready } }

end Socket

namespace Tcp

/-- `Tcp::Params`. -/
structure Params where
  ip : String := ""
  readBuffer : Word := 0
  writeBuffer : Word := 0
  flags : Word := 0
  backlog : Word := 0
  fd : ℤ := -1
  port : BitVec 16 := 0
deriving DecidableEq, Repr

def reuseAddr : Word := 1

def reusePort : Word := 2

def nonBlock : Word := 4

/-- The body of `Tcp::Tcp`. -/
def setOptions (system : System) (params : Params) : Code Unit := do
  if params.flags.has nonBlock then Socket.setNonblock system
  if params.flags.has reuseAddr then Socket.setReuseaddr system
  if params.flags.has reusePort then Socket.setReuseport system
  if params.readBuffer ≠ 0 then Socket.setRcvbuf system (params.readBuffer.setWidth 32)
  if params.writeBuffer ≠ 0 then Socket.setSndbuf system (params.writeBuffer.setWidth 32)

/-- `Tcp::Tcp`. -/
def create (system : System) (params : Params) : Code Unit := do
  Socket.create system Socket.sockStream Socket.afInet params.fd
  setOptions system params

end Tcp

/-! ## What the options do -/

section Calls

variable (system : System)

/-- `errno` behind the calls. -/
def System.leftOver (calls : List SysCall) (errno : ℕ) : ℕ :=
  calls.foldl (fun errno call => (system.reply call).errnoAfter errno) errno

/-- The process behind the calls. -/
def System.after (calls : List SysCall) (process : Process) : Process :=
  { process with
    errno := system.leftOver calls process.errno
    calls := process.calls ++ calls }

@[simp]
theorem System.after_nil (process : Process) : system.after [] process = process := by
  simp [System.after, System.leftOver]

theorem System.after_append (calls more : List SysCall) (process : Process) :
    system.after (calls ++ more) process = system.after more (system.after calls process) := by
  simp [System.after, System.leftOver]

theorem System.after_cons (call : SysCall) (calls : List SysCall) (process : Process) :
    system.after (call :: calls) process = system.after calls (system.after [call] process) :=
  system.after_append [call] calls process

@[simp]
theorem System.after_socket (calls : List SysCall) (process : Process) :
    (system.after calls process).socket = process.socket := rfl

theorem System.call_run (call : SysCall) (process : Process) :
    (system.call call).run process =
      .ok (system.reply call).value (system.after [call] process) := rfl

/-- On the descriptor the code makes just the calls, and does not throw. -/
def Makes (fd : ℤ) (code : Code Unit) (calls : List SysCall) : Prop :=
  ∀ process : Process, process.socket.fd = fd →
    code.run process = .ok () (system.after calls process)

end Calls

namespace Makes

variable {system : System} {fd : ℤ}

/-- Code under a condition, and the code behind it. -/
theorem when_then {p : Prop} [Decidable p] {code : Code Unit} {rest : Unit → Code Unit}
    {calls more : List SysCall} (makes : Makes system fd code calls)
    (behind : Makes system fd (rest ()) more) :
    Makes system fd (if p then code >>= rest else rest ())
      ((if p then calls else []) ++ more) := by
  intro process same
  by_cases holds : p
  · simp only [if_pos holds, EStateM.run_bind, makes process same, System.after_append]
    exact behind _ same
  · simpa only [if_neg holds, List.nil_append] using behind process same

theorem when {p : Prop} [Decidable p] {code : Code Unit} {calls : List SysCall}
    (makes : Makes system fd code calls) :
    Makes system fd (if p then code else pure ()) (if p then calls else []) := by
  intro process same
  by_cases holds : p
  · simpa only [if_pos holds] using makes process same
  · simp only [if_neg holds, System.after_nil]
    rfl

end Makes

namespace Socket

/-- The calls of `set_nonblock`. -/
def nonblockCalls (system : System) (fd : ℤ) : List SysCall :=
  [.getFlags fd,
    .setFlags fd (BitVec.ofInt 32 (system.reply (.getFlags fd)).value ||| oNonblock)]

variable (system : System) (fd : ℤ)

theorem makes_setNonblock :
    Makes system fd (setNonblock system) (nonblockCalls system fd) := by
  rintro process rfl
  change _ = EStateM.Result.ok () (system.after ([_] ++ [_]) process)
  rw [System.after_append]
  rfl

theorem makes_setReuseaddr :
    Makes system fd (setReuseaddr system)
      [.setsockopt fd solSocket soReuseaddr 1] := by
  rintro process rfl
  rfl

theorem makes_setReuseport :
    Makes system fd (setReuseport system)
      [.setsockopt fd solSocket soReuseport 1] := by
  rintro process rfl
  rfl

theorem makes_setRcvbuf (size : BitVec 32) :
    Makes system fd (setRcvbuf system size)
      [.setsockopt fd solSocket soRcvbuf size] := by
  rintro process rfl
  rfl

theorem makes_setSndbuf (size : BitVec 32) :
    Makes system fd (setSndbuf system size)
      [.setsockopt fd solSocket soSndbuf size] := by
  rintro process rfl
  rfl

end Socket

namespace Tcp

/-- The calls for the options. -/
def optionCalls (system : System) (params : Params) (fd : ℤ) : List SysCall :=
  (if params.flags.has nonBlock then Socket.nonblockCalls system fd else []) ++
  ((if params.flags.has reuseAddr then [.setsockopt fd Socket.solSocket Socket.soReuseaddr 1]
    else []) ++
  ((if params.flags.has reusePort then [.setsockopt fd Socket.solSocket Socket.soReuseport 1]
    else []) ++
  ((if params.readBuffer ≠ 0 then
      [.setsockopt fd Socket.solSocket Socket.soRcvbuf (params.readBuffer.setWidth 32)]
    else []) ++
  (if params.writeBuffer ≠ 0 then
      [.setsockopt fd Socket.solSocket Socket.soSndbuf (params.writeBuffer.setWidth 32)]
    else []))))

theorem makes_setOptions (system : System) (params : Params) (fd : ℤ) :
    Makes system fd (setOptions system params) (optionCalls system params fd) := by
  unfold setOptions optionCalls
  refine (Socket.makes_setNonblock system fd).when_then ?_
  refine (Socket.makes_setReuseaddr system fd).when_then ?_
  refine (Socket.makes_setReuseport system fd).when_then ?_
  refine (Socket.makes_setRcvbuf system fd _).when_then ?_
  exact (Socket.makes_setSndbuf system fd _).when

end Tcp

end Jasl
