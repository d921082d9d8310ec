import Jasl.Library.Effects
import Jasl.Socket.TcpClient

/-!
# The constructors of sockets and their descriptor

A constructor that throws destroys the base that is made: `~Socket` lets go of `m_fd`, and
`~FileDescriptor` closes the descriptor. The constructors of `TcpServer` and `TcpClient`
throw in their bodies, when the descriptor is there, and `FileDescriptor` throws for one
that is not valid, when there is none. So the code of `Socket` and `Tcp` is run here with
the calls that come on top of it, `::bind`, `::listen` and `::close`, and with the
destructors that an exception runs.
-/

set_option autoImplicit false

namespace Jasl

open Library

/-! ## The network -/

/-- The calls into the system, with those for a server and for the end of a descriptor. -/
inductive NetCall where
  | sys (call : SysCall)
  | bind (fd : ℤ) (addr : SockAddr)
  | listen (fd : ℤ) (backlog : BitVec 32)
  | close (fd : ℤ)
deriving DecidableEq, Repr

/-- What the system replies. -/
structure Network where
  system : System
  bind : ℤ → SockAddr → SysReply
  listen : ℤ → BitVec 32 → SysReply
  close : ℤ → SysReply

def Network.reply (network : Network) : NetCall → SysReply
  | .sys call => network.system.reply call
  | .bind fd addr => network.bind fd addr
  | .listen fd backlog => network.listen fd backlog
  | .close fd => network.close fd

/-- The process while a socket is made. -/
structure Making where
  errno : ℕ
  calls : List NetCall := []
  socket : SocketObject := {}

/-- Code that may throw a `std::runtime_error`. -/
abbrev MakingCode := EStateM String Making

/-- A call. -/
def Network.call (network : Network) (call : NetCall) : MakingCode ℤ := do
  modify fun making => { making with
    errno := (network.reply call).errnoAfter making.errno
    calls := making.calls ++ [call] }
  return (network.reply call).value

/-- What code of a `Socket` leaves. -/
def Making.leftBy (making : Making) (process : Process) : Making where
  errno := process.errno
  calls := making.calls ++ process.calls.map .sys
  socket := process.socket

/-- Code of a `Socket`, while the socket is made. -/
def ofSocket {α : Type} (code : Code α) : MakingCode α := fun making =>
  match code.run ⟨making.errno, [], making.socket⟩ with
  | .ok value process => .ok value (making.leftBy process)
  | .error text process => .error text (making.leftBy process)

section OfSocket

variable {α : Type} {code : Code α} {making : Making} {process : Process}

theorem ofSocket_ok {value : α}
    (ran : code.run ⟨making.errno, [], making.socket⟩ = .ok value process) :
    (ofSocket code).run making = .ok value (making.leftBy process) := by
  change ofSocket code making = _
  simp only [ofSocket, ran]

theorem ofSocket_error {text : String}
    (ran : code.run ⟨making.errno, [], making.socket⟩ = .error text process) :
    (ofSocket code).run making = .error text (making.leftBy process) := by
  change ofSocket code making = _
  simp only [ofSocket, ran]

end OfSocket

/-! ## The code -/

/-- `Socket::~Socket`, with `FileDescriptor::~FileDescriptor` for its descriptor. -/
def Network.destroy (network : Network) (making : Making) : Making :=
  if making.socket.fd = Socket.invalidFd then making
  else
    { making with
      errno := (network.close making.socket.fd).errnoAfter making.errno
      calls := making.calls ++ [.close making.socket.fd]
      socket := { making.socket with fd := Socket.invalidFd } }

namespace Socket

variable (network : Network)

/-- `Socket::bind`. -/
def bind (ip : String) (port : BitVec 16) : MakingCode Unit := do
  let saddr ← ofSocket (getSaddr network.system (if ip.isEmpty then none else some ip) port)
  let n ← network.call (.bind (← get).socket.fd saddr)
  if n < 0 then throw ("bind failed: " ++ network.system.strerror (← get).errno)

/-- `Socket::listen`; the system takes an `int`. -/
def listen (backlog : Word) : MakingCode Unit := do
  let n ← network.call (.listen (← get).socket.fd (backlog.setWidth 32))
  if n < 0 then throw ("listen failed: " ++ network.system.strerror (← get).errno)

end Socket

/-- `Tcp::Tcp`, with the destructor that an exception in its body runs. -/
def Tcp.construct (network : Network) (params : Tcp.Params) : MakingCode Unit := do
  ofSocket (Socket.create network.system Socket.sockStream Socket.afInet params.fd)
  unwinding (ofSocket (setOptions network.system params)) network.destroy

namespace TcpServer

/-- The body of `TcpServer::TcpServer`. -/
def body (network : Network) (params : Tcp.Params) : MakingCode Unit := do
  if params.backlog = 0 then throw "invalid backlog value"
  Socket.bind network params.ip params.port
  Socket.listen network params.backlog

/-- `TcpServer::TcpServer`. -/
def create (network : Network) (params : Tcp.Params) : MakingCode Unit := do
  Tcp.construct network params
  unwinding (body network params) network.destroy

end TcpServer

namespace TcpClient

/-- The body of `TcpClient::TcpClient`. -/
def body (system : System) (params : Tcp.Params) : Code Unit := do
  try
    if params.fd = Socket.invalidFd then Socket.connect system params.ip params.port
  catch e =>
    let errno := (← get).errno
    if errno ≠ ewouldblock ∧ errno ≠ eagain ∧ errno ≠ FileDescriptor.eintr ∧
        errno ≠ einprogress then
      throw e

/-- `TcpClient::TcpClient`, with the destructor that an exception in its body runs. -/
def construct (network : Network) (params : Tcp.Params) : MakingCode Unit := do
  Tcp.construct network params
  unwinding (ofSocket (body network.system params)) network.destroy

/-- The constructor without the destructor. -/
theorem create_eq (system : System) (params : Tcp.Params) :
    create system params = (do Tcp.create system params; body system params) := rfl

end TcpClient

/-! ## No call of the constructors closes -/

def NetCall.closes : NetCall → Bool
  | .close _ => true
  | .sys _ | .bind .. | .listen .. => false

/-- The descriptor is the same. -/
def sameDescriptor : Effect Process where
  holds before after := after.socket.fd = before.socket.fd
  refl _ := rfl
  trans first second := second.trans first

/-- The descriptor is the same, and there were calls, but none that closes. -/
def keepsOpen : Effect Making where
  holds before after := after.socket.fd = before.socket.fd ∧
    ∃ calls, after.calls = before.calls ++ calls ∧ ∀ call ∈ calls, call.closes = false
  refl making := ⟨rfl, [], (List.append_nil _).symm, fun _ none => by cases none⟩
  trans := by
    rintro first second third ⟨same, calls, made, open_⟩ ⟨same', more, made', open_'⟩
    refine ⟨same'.trans same, calls ++ more, ?_, ?_⟩
    · rw [made', made, List.append_assoc]
    · intro call member
      exact (List.mem_append.mp member).elim (open_ call) (open_' call)

theorem ofSocket_keepsOpen {α : Type} {code : Code α} (same : sameDescriptor.Bounds code) :
    keepsOpen.Bounds (ofSocket code) := by
  intro making
  have kept := same ⟨making.errno, [], making.socket⟩
  have open_ : ∀ process : Process, ∀ call ∈ process.calls.map NetCall.sys,
      call.closes = false := by
    intro process call member
    obtain ⟨_, -, rfl⟩ := List.mem_map.mp member
    rfl
  change keepsOpen.holds making (leaves (ofSocket code making))
  rw [ofSocket]
  cases ran : code.run ⟨making.errno, [], making.socket⟩ with
  | ok value process =>
      rw [ran] at kept
      exact ⟨kept, _, rfl, open_ process⟩
  | error text process =>
      rw [ran] at kept
      exact ⟨kept, _, rfl, open_ process⟩

theorem Network.call_keepsOpen (network : Network) {call : NetCall} (open_ : call.closes = false) :
    keepsOpen.Bounds (network.call call) := by
  intro making
  refine ⟨rfl, [call], rfl, ?_⟩
  intro other member
  rw [List.mem_singleton.mp member]
  exact open_

/-- Code that throws under a condition, with `errno` in the text. -/
theorem keepsOpen_throwIf {p : Prop} [Decidable p] (text : ℕ → String) :
    keepsOpen.Bounds (if p then do throw (text (← get).errno) else pure () : MakingCode Unit) :=
  .ite (fun _ => Effect.Bounds.of_get.bind fun _ => .of_throw _) fun _ => .of_pure _

namespace Socket

theorem call_sameDescriptor (system : System) (call : SysCall) :
    sameDescriptor.Bounds (system.call call) := fun _ => rfl

theorem getSaddr_sameDescriptor (system : System) (ip : Option String) (port : BitVec 16) :
    sameDescriptor.Bounds (getSaddr system ip port) := by
  refine Effect.Bounds.of_get.bind fun process => ?_
  cases ip with
  | none => exact .of_pure _
  | some ip =>
      refine (call_sameDescriptor system _).bind fun n => ?_
      refine .ite (fun _ => ?_) fun _ => .of_pure _
      exact Effect.Bounds.of_get.bind fun _ => .of_throw _

theorem connect_sameDescriptor (system : System) (ip : String) (port : BitVec 16) :
    sameDescriptor.Bounds (connect system ip port) := by
  have state : ∀ state : SocketState, sameDescriptor.Bounds (modify fun process : Process =>
      { process with socket := { process.socket with state } } : Code Unit) :=
    fun _ => .of_modify fun _ => rfl
  refine (state _).bind fun _ => (getSaddr_sameDescriptor system _ _).bind fun saddr => ?_
  refine Effect.Bounds.of_get.bind fun _ => (call_sameDescriptor system _).bind fun n => ?_
  refine .ite (fun _ => ?_) fun _ => state _
  refine Effect.Bounds.of_get.bind fun _ => ?_
  exact .of_throw _

theorem bind_keepsOpen (network : Network) (ip : String) (port : BitVec 16) :
    keepsOpen.Bounds (Socket.bind network ip port) := by
  refine (ofSocket_keepsOpen (getSaddr_sameDescriptor _ _ _)).bind fun saddr => ?_
  refine Effect.Bounds.of_get.bind fun _ => (network.call_keepsOpen rfl).bind fun n => ?_
  exact keepsOpen_throwIf fun errno => "bind failed: " ++ network.system.strerror errno

theorem listen_keepsOpen (network : Network) (backlog : Word) :
    keepsOpen.Bounds (Socket.listen network backlog) := by
  refine Effect.Bounds.of_get.bind fun _ => (network.call_keepsOpen rfl).bind fun n => ?_
  exact keepsOpen_throwIf fun errno => "listen failed: " ++ network.system.strerror errno

end Socket

theorem TcpServer.body_keepsOpen (network : Network) (params : Tcp.Params) :
    keepsOpen.Bounds (body network params) := by
  have rest : keepsOpen.Bounds (do
      Socket.bind network params.ip params.port
      Socket.listen network params.backlog) :=
    (Socket.bind_keepsOpen network _ _).bind fun _ => Socket.listen_keepsOpen network _
  exact .ite (fun _ => (Effect.Bounds.of_throw _).bind fun _ => rest) fun _ => rest

theorem TcpClient.body_sameDescriptor (system : System) (params : Tcp.Params) :
    sameDescriptor.Bounds (body system params) := by
  refine Effect.Bounds.tryCatch ?_ fun text => ?_
  · exact .ite (fun _ => Socket.connect_sameDescriptor system _ _) fun _ => .of_pure _
  · refine Effect.Bounds.of_get.bind fun process => ?_
    exact .ite (fun _ => .of_throw _) fun _ => .of_pure _

/-! ## The base -/

namespace Tcp

/-- The descriptor that a socket gets: the one that is given, or a new one. -/
def descriptor (system : System) (params : Params) : ℤ :=
  if params.fd = Socket.invalidFd then (system.reply socketCall).value else params.fd

/-- The call for a new descriptor. -/
def descriptorCalls (params : Params) : List SysCall :=
  if params.fd = Socket.invalidFd then [socketCall] else []

/-- The calls for a base that is made. -/
def baseCalls (system : System) (params : Params) : List SysCall :=
  descriptorCalls params ++ optionCalls system params (descriptor system params)

/-- The base that is made. -/
def base (system : System) (params : Params) (errno : ℕ) : Making where
  errno := system.leftOver (baseCalls system params) errno
  calls := (baseCalls system params).map .sys
  socket :=
    ⟨Socket.sockStream, Socket.afInet,
      if params.fd = Socket.invalidFd then .created else .ready, descriptor system params⟩

theorem createSocket_run (system : System) (params : Params) (errno : ℕ) :
    (Socket.create system Socket.sockStream Socket.afInet params.fd).run ⟨errno, [], {}⟩ =
      if descriptor system params < 0 then
        .error "Invalid FileDescriptor"
          ⟨system.leftOver (descriptorCalls params) errno, descriptorCalls params,
            ⟨Socket.sockStream, Socket.afInet, .invalid, -1⟩⟩
      else
        .ok ()
          ⟨system.leftOver (descriptorCalls params) errno, descriptorCalls params,
            (base system params errno).socket⟩ := by
  by_cases noFd : params.fd = Socket.invalidFd
  · have fd : descriptor system params =
        (system.reply (.socket Socket.afInet Socket.sockStream)).value := if_pos noFd
    simp only [Socket.create, EStateM.run_bind, EStateM.run_modify, if_pos noFd, System.call_run,
      descriptorCalls, base, fd]
    split
    · rfl
    · rfl
  · have fd : descriptor system params = params.fd := if_neg noFd
    simp only [Socket.create, EStateM.run_bind, EStateM.run_modify, if_neg noFd,
      EStateM.run_pure, descriptorCalls, base, fd]
    split
    · rfl
    · rfl

/-- `FileDescriptor` throws for a descriptor that is not valid, and then there is nothing to
destroy; the options throw nothing. -/
theorem construct_run (network : Network) (params : Params) (errno : ℕ) :
    (construct network params).run { errno } =
      if descriptor network.system params < 0 then
        .error "Invalid FileDescriptor"
          { errno := network.system.leftOver (descriptorCalls params) errno
            calls := (descriptorCalls params).map .sys
            socket := ⟨Socket.sockStream, Socket.afInet, .invalid, -1⟩ }
      else .ok () (base network.system params errno) := by
  have socket := createSocket_run network.system params errno
  rw [construct, EStateM.run_bind]
  by_cases valid : descriptor network.system params < 0
  · rw [if_pos valid] at socket ⊢
    rw [ofSocket_error socket]
    rfl
  · rw [if_neg valid] at socket ⊢
    rw [ofSocket_ok socket]
    have options : ∀ opened : Making, opened.socket.fd = descriptor network.system params →
        (unwinding (ofSocket (setOptions network.system params)) network.destroy).run opened = _ :=
      fun opened same => unwinding_ok (ofSocket_ok
        (makes_setOptions network.system params _ ⟨opened.errno, [], opened.socket⟩ same)) _
    refine (options _ rfl).trans ?_
    simp only [Making.leftBy, System.after, List.nil_append, ← List.map_append, baseCalls, base,
      System.leftOver, List.foldl_append]

end Tcp

/-! ## The descriptor -/

/-- The socket has the descriptor when its constructor returns, and nothing was closed. When it
throws, the descriptor is closed by the last call and by no other, if there is one. -/
def HeldOrClosed (fd : ℤ) : EStateM.Result String Making Unit → Prop
  | .ok _ made =>
      0 ≤ fd ∧ made.socket.fd = fd ∧ ∀ call ∈ made.calls, call.closes = false
  | .error _ left =>
      ∃ calls, left.calls = (if fd < 0 then calls else calls ++ [.close fd]) ∧
        ∀ call ∈ calls, call.closes = false

/-- A body that closes nothing, and the destructor of the base behind it. -/
theorem heldOrClosed_unwinding (network : Network) {body : MakingCode Unit}
    (open_ : keepsOpen.Bounds body) {making : Making} (valid : 0 ≤ making.socket.fd)
    (before : ∀ call ∈ making.calls, call.closes = false) :
    HeldOrClosed making.socket.fd ((unwinding body network.destroy).run making) := by
  obtain ⟨same, calls, made, none⟩ := open_ making
  have all : ∀ call ∈ making.calls ++ calls, call.closes = false := by
    intro call member
    exact (List.mem_append.mp member).elim (before call) (none call)
  cases ran : body.run making with
  | ok value after =>
      rw [ran] at same made
      rw [unwinding_ok ran]
      refine ⟨valid, same, ?_⟩
      rw [show after.calls = making.calls ++ calls from made]
      exact all
  | error text left =>
      rw [ran] at same made
      have same : left.socket.fd = making.socket.fd := same
      have made : left.calls = making.calls ++ calls := made
      have there : left.socket.fd ≠ Socket.invalidFd := by
        rw [same, Socket.invalidFd]
        omega
      rw [unwinding_error ran, Network.destroy, if_neg there]
      refine ⟨making.calls ++ calls, ?_, all⟩
      rw [if_neg (Int.not_lt.mpr valid), ← same, ← made]

/-- A constructor with a body that closes nothing. -/
theorem heldOrClosed_construct (network : Network) (params : Tcp.Params) (errno : ℕ)
    {body : MakingCode Unit} (open_ : keepsOpen.Bounds body) :
    HeldOrClosed (Tcp.descriptor network.system params)
      ((do Tcp.construct network params; unwinding body network.destroy).run { errno }) := by
  have sys : ∀ calls : List SysCall, ∀ call ∈ calls.map NetCall.sys, call.closes = false := by
    intro calls call member
    obtain ⟨_, -, rfl⟩ := List.mem_map.mp member
    rfl
  rw [EStateM.run_bind, Tcp.construct_run]
  by_cases valid : Tcp.descriptor network.system params < 0
  · rw [if_pos valid]
    refine ⟨(Tcp.descriptorCalls params).map .sys, ?_, sys _⟩
    rw [if_pos valid]
  · rw [if_neg valid]
    have made : 0 ≤ (Tcp.base network.system params errno).socket.fd := Int.not_lt.mp valid
    exact heldOrClosed_unwinding network open_ made (sys _)

/-- **No constructor loses a descriptor or closes it twice.** Whatever the system replies and
whatever the parameters are, a server and a client that are made have their descriptor, open; and
where the constructor throws, the descriptor was closed once, after all else that was done with it,
unless there was none. -/
theorem descriptor_is_held_or_closed (network : Network) (params : Tcp.Params) (errno : ℕ) :
    HeldOrClosed (Tcp.descriptor network.system params)
        ((TcpServer.create network params).run { errno }) ∧
      HeldOrClosed (Tcp.descriptor network.system params)
        ((TcpClient.construct network params).run { errno }) :=
  ⟨heldOrClosed_construct network params errno (TcpServer.body_keepsOpen network params),
    heldOrClosed_construct network params errno
      (ofSocket_keepsOpen (TcpClient.body_sameDescriptor network.system params))⟩

/-! ## A server listens -/

/-- `errno` behind the calls. -/
def Network.leftOver (network : Network) (calls : List NetCall) (errno : ℕ) : ℕ :=
  calls.foldl (fun errno call => (network.reply call).errnoAfter errno) errno

/-- The process behind the calls. -/
def Network.after (network : Network) (calls : List NetCall) (making : Making) : Making :=
  { making with
    errno := network.leftOver calls making.errno
    calls := making.calls ++ calls }

theorem Network.after_append (network : Network) (calls more : List NetCall) (making : Making) :
    network.after (calls ++ more) making = network.after more (network.after calls making) := by
  simp [Network.after, Network.leftOver]

theorem Network.call_run (network : Network) (call : NetCall) (making : Making) :
    (network.call call).run making =
      .ok (network.reply call).value (network.after [call] making) := rfl

namespace TcpServer

/-- The call that reads the address; without a text there is none. -/
def addressCalls (ip : String) (family : ℤ) : List NetCall :=
  if ip.isEmpty then [] else [.sys (.inetPton family ip)]

/-- The address is any, or can be read. -/
def AddressRead (network : Network) (ip : String) (family : ℤ) : Prop :=
  ip.isEmpty = true ∨ 0 < (network.system.reply (.inetPton family ip)).value

instance (network : Network) (ip : String) (family : ℤ) :
    Decidable (AddressRead network ip family) :=
  inferInstanceAs (Decidable (_ ∨ _))

/-- The address that is bound. -/
def address (network : Network) (ip : String) (port : BitVec 16) (family : ℤ) : SockAddr :=
  if ip.isEmpty then ⟨family, Socket.htons port, 0⟩
  else Socket.saddrOf network.system ip port family

/-- A call failed: the text has the `errno` behind it. -/
def failed (network : Network) (what : String) (left : Making) :
    EStateM.Result String Making Unit :=
  .error (what ++ network.system.strerror left.errno) left

section Body

variable (network : Network) (ip : String) (port : BitVec 16) (making : Making)

/-- The call of `bind`. -/
def bindCall : NetCall :=
  .bind making.socket.fd (address network ip port making.socket.family)

/-- The call of `listen`. -/
def listenCall (backlog : Word) : NetCall := .listen making.socket.fd (backlog.setWidth 32)

variable {network ip}

theorem getSaddr_of_read (read : AddressRead network ip making.socket.family) :
    (ofSocket (Socket.getSaddr network.system (if ip.isEmpty then none else some ip) port)).run
        making =
      .ok (address network ip port making.socket.family)
        (network.after (addressCalls ip making.socket.family) making) := by
  rw [address, addressCalls]
  by_cases any : ip.isEmpty = true
  · have ran : (Socket.getSaddr network.system none port).run
        ⟨making.errno, [], making.socket⟩ =
          .ok ⟨making.socket.family, Socket.htons port, 0⟩
            ⟨making.errno, [], making.socket⟩ := rfl
    rw [if_pos any, if_pos any, if_pos any]
    exact ofSocket_ok ran
  · rw [if_neg any, if_neg any, if_neg any]
    have readable := Int.not_le.mpr (read.resolve_left any)
    have ran : (Socket.getSaddr network.system (some ip) port).run
        ⟨making.errno, [], making.socket⟩ =
          .ok (Socket.saddrOf network.system ip port making.socket.family)
            (network.system.after [.inetPton making.socket.family ip]
              ⟨making.errno, [], making.socket⟩) := by
      simp only [Socket.getSaddr, EStateM.run_bind, EStateM.run_get, System.call_run,
        if_neg readable, EStateM.run_pure]
      rfl
    exact ofSocket_ok ran

theorem bind_of_unread (unread : ¬ AddressRead network ip making.socket.family) :
    (Socket.bind network ip port).run making =
      failed network "inet_pton failed: "
        (network.after (addressCalls ip making.socket.family) making) := by
  obtain ⟨given, unreadable⟩ := not_or.mp unread
  rw [Socket.bind, EStateM.run_bind, addressCalls, if_neg given, if_neg given]
  have ran : (Socket.getSaddr network.system (some ip) port).run
      ⟨making.errno, [], making.socket⟩ =
        .error ("inet_pton failed: " ++ network.system.strerror
            (network.after [.sys (.inetPton making.socket.family ip)] making).errno)
          (network.system.after [.inetPton making.socket.family ip]
            ⟨making.errno, [], making.socket⟩) := by
    simp only [Socket.getSaddr, EStateM.run_bind, EStateM.run_get, System.call_run,
      if_pos (Int.not_lt.mp unreadable), EStateM.run_throw]
    rfl
  rw [ofSocket_error ran]
  rfl

theorem bind_of_read (read : AddressRead network ip making.socket.family) :
    (Socket.bind network ip port).run making =
      let behind := network.after
        (addressCalls ip making.socket.family ++ [bindCall network ip port making]) making
      if (network.reply (bindCall network ip port making)).value < 0 then
        failed network "bind failed: " behind
      else .ok () behind := by
  simp only [Socket.bind, EStateM.run_bind, getSaddr_of_read port making read, EStateM.run_get,
    Network.call_run, Network.after_append]
  change EStateM.run (if (network.reply (bindCall network ip port making)).value < 0 then _
    else _) _ = _
  split
  · rfl
  · rfl

theorem listen_run (backlog : Word) :
    (Socket.listen network backlog).run making =
      let behind := network.after [listenCall making backlog] making
      if (network.reply (listenCall making backlog)).value < 0 then
        failed network "listen failed: " behind
      else .ok () behind := by
  simp only [Socket.listen, EStateM.run_bind, EStateM.run_get, Network.call_run]
  change EStateM.run (if (network.reply (listenCall making backlog)).value < 0 then _
    else _) _ = _
  split
  · rfl
  · rfl

end Body

section Outcome

variable (network : Network) (params : Tcp.Params) (making : Making)

/-- The calls that make a server of its base. -/
def bodyCalls : List NetCall :=
  addressCalls params.ip making.socket.family ++
    [bindCall network params.ip params.port making, listenCall making params.backlog]

/-- What has to go well in the body. -/
structure Passes : Prop where
  backlog : params.backlog ≠ 0
  read : AddressRead network params.ip making.socket.family
  bound : 0 ≤ (network.reply (bindCall network params.ip params.port making)).value
  listening : 0 ≤ (network.reply (listenCall making params.backlog)).value

variable {network params making}

theorem body_of_passes (passes : Passes network params making) :
    (body network params).run making =
      .ok () (network.after (bodyCalls network params making) making) := by
  rw [body, if_neg passes.backlog, EStateM.run_bind, bind_of_read params.port making passes.read]
  simp only [if_neg (Int.not_lt.mpr passes.bound), listen_run]
  rw [if_neg]
  · rw [← Network.after_append, List.append_assoc]
    rfl
  · exact Int.not_lt.mpr passes.listening

/-- A body that throws has made the first of the calls. -/
theorem body_of_not_passes (fails : ¬ Passes network params making) :
    ∃ text done, done <+: bodyCalls network params making ∧
      (body network params).run making = .error text (network.after done making) := by
  have first : addressCalls params.ip making.socket.family <+: bodyCalls network params making :=
    List.prefix_append _ _
  by_cases none : params.backlog = 0
  · have thrown : (body network params).run making = .error "invalid backlog value" making := by
      rw [body, if_pos none]
      rfl
    refine ⟨"invalid backlog value", [], List.nil_prefix, thrown.trans ?_⟩
    simp [Network.after, Network.leftOver]
  by_cases read : AddressRead network params.ip making.socket.family
  · have bound := bind_of_read params.port making read
    by_cases refused : (network.reply (bindCall network params.ip params.port making)).value < 0
    · have thrown : (body network params).run making = failed network "bind failed: "
          (network.after (addressCalls params.ip making.socket.family ++
            [bindCall network params.ip params.port making]) making) := by
        rw [body, if_neg none, EStateM.run_bind, bound]
        simp only [if_pos refused]
        rfl
      refine ⟨_, _, ?_, thrown⟩
      exact (List.prefix_append_right_inj _).mpr ⟨[_], rfl⟩
    · have deaf : (network.reply (listenCall making params.backlog)).value < 0 := by
        by_contra listening
        exact fails ⟨none, read, Int.not_lt.mp refused, Int.not_lt.mp listening⟩
      have thrown : (body network params).run making = failed network "listen failed: "
          (network.after (bodyCalls network params making) making) := by
        rw [body, if_neg none, EStateM.run_bind, bound]
        simp only [if_neg refused, listen_run]
        refine (if_pos deaf).trans ?_
        rw [← Network.after_append, List.append_assoc]
        rfl
      exact ⟨_, _, List.prefix_rfl, thrown⟩
  · have thrown : (body network params).run making = failed network "inet_pton failed: "
        (network.after (addressCalls params.ip making.socket.family) making) := by
      rw [body, if_neg none, EStateM.run_bind, bind_of_unread params.port making read]
      rfl
    exact ⟨_, _, first, thrown⟩

end Outcome

/-- What has to go well for a server. -/
structure Listens (network : Network) (params : Tcp.Params) (errno : ℕ) : Prop extends
    Passes network params (Tcp.base network.system params errno) where
  valid : 0 ≤ Tcp.descriptor network.system params

/-- The calls for a server. -/
def wantedCalls (network : Network) (params : Tcp.Params) (errno : ℕ) : List NetCall :=
  (Tcp.baseCalls network.system params).map .sys ++
    bodyCalls network params (Tcp.base network.system params errno)

/-- **A server that is made listens, and one that is not leaves nothing behind.** The constructor
returns if and only if there is a descriptor, the backlog is not zero, the address can be read or
any will do, and `bind` and `listen` succeed; it has then made all of its calls in order. When it
throws, it has made the first of them, and closed the descriptor, if there was one. -/
theorem server_listens_iff (network : Network) (params : Tcp.Params) (errno : ℕ) :
    ((∃ made, (create network params).run { errno } = .ok () made) ↔
        Listens network params errno) ∧
      (∀ made, (create network params).run { errno } = .ok () made →
        made.calls = wantedCalls network params errno) ∧
      ∀ text left, (create network params).run { errno } = .error text left →
        ∃ done, done <+: wantedCalls network params errno ∧
          left.calls = if Tcp.descriptor network.system params < 0 then done
            else done ++ [.close (Tcp.descriptor network.system params)] := by
  have socket := Tcp.construct_run network params errno
  by_cases valid : Tcp.descriptor network.system params < 0
  · rw [if_pos valid] at socket
    simp only [create, EStateM.run_bind, socket]
    refine ⟨⟨?_, ?_⟩, ?_, ?_⟩
    · rintro ⟨made, ⟨⟩⟩
    · exact fun listens => absurd listens.valid (Int.not_le.mpr valid)
    · intro made returned
      cases returned
    · rintro text left ⟨⟩
      refine ⟨_, ?_, (if_pos valid).symm⟩
      rw [wantedCalls, Tcp.baseCalls, List.map_append, List.append_assoc]
      exact List.prefix_append _ _
  · rw [if_neg valid] at socket
    have ran : (create network params).run { errno } =
        (unwinding (body network params) network.destroy).run
          (Tcp.base network.system params errno) := by
      rw [create, EStateM.run_bind, socket]
    rw [ran]
    by_cases passes : Passes network params (Tcp.base network.system params errno)
    · rw [unwinding_ok (body_of_passes passes)]
      refine ⟨⟨?_, ?_⟩, ?_, ?_⟩
      · exact fun _ => ⟨passes, Int.not_lt.mp valid⟩
      · exact fun _ => ⟨_, rfl⟩
      · rintro made ⟨⟩
        rfl
      · intro text left thrown
        cases thrown
    · obtain ⟨text, done, first, thrown⟩ := body_of_not_passes passes
      rw [unwinding_error thrown]
      refine ⟨⟨?_, ?_⟩, ?_, ?_⟩
      · rintro ⟨made, ⟨⟩⟩
      · exact fun listens => absurd listens.toPasses passes
      · intro made returned
        cases returned
      · rintro text left ⟨⟩
        refine ⟨(Tcp.baseCalls network.system params).map .sys ++ done,
          (List.prefix_append_right_inj _).mpr first, ?_⟩
        have there : Tcp.descriptor network.system params ≠ Socket.invalidFd := by
          rw [Socket.invalidFd]
          omega
        rw [if_neg valid, Network.destroy]
        refine (congrArg Making.calls (if_neg there)).trans ?_
        rfl

end TcpServer

end Jasl
