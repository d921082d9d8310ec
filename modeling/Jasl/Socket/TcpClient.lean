import Jasl.Socket.Socket

/-!
# The client that connects when it is made

The constructor of `TcpClient` connects, and keeps a connect that is under way: it catches
what `connect` throws and throws it on unless `errno` is one of four. But `connect` also
throws for an address that `inet_pton` cannot read, and `inet_pton` then leaves `errno` as
it was. So the decision is about an earlier call's failure, and the client may be made
without any connect (`create_starts_iff`).
-/

set_option autoImplicit false

namespace Jasl

namespace Socket

variable (system : System) (ip : String) (port : BitVec 16)

/-- The address that `get_saddr` makes. -/
def saddrOf (family : ℤ) : SockAddr :=
  ⟨family, htons port, system.address family ip⟩

/-- An address that cannot be read is thrown for, and nothing is connected. -/
theorem connect_unread (process : Process)
    (unread : (system.reply (.inetPton process.socket.family ip)).value ≤ 0) :
    ∃ text socket, (connect system ip port).run process =
      .error text
        { system.after [.inetPton process.socket.family ip] process with socket } := by
  simp only [connect, getSaddr, EStateM.run_bind, EStateM.run_modify, EStateM.run_get,
    System.call_run, if_pos unread, EStateM.run_throw]
  exact ⟨_, _, rfl⟩

/-- The call of `::connect`. -/
def connectCall (socket : SocketObject) : SysCall :=
  .connect socket.fd (saddrOf system ip port socket.family)

/-- The calls of `connect`. -/
def connectCalls (socket : SocketObject) : List SysCall :=
  [.inetPton socket.family ip, connectCall system ip port socket]

/-- With an address the connect is made. -/
theorem connect_read {process : Process}
    (read : ¬ (system.reply (.inetPton process.socket.family ip)).value ≤ 0) :
    ∃ text socket, (connect system ip port).run process =
      let behind : Process :=
        { system.after (connectCalls system ip port process.socket) process with socket }
      if (system.reply (connectCall system ip port process.socket)).value < 0 then
        .error text behind
      else .ok () behind := by
  simp only [connect, getSaddr, EStateM.run_bind, EStateM.run_modify, EStateM.run_get,
    System.call_run, if_neg read, EStateM.run_pure, System.after_socket]
  change ∃ text socket, EStateM.run (if (system.reply
    (connectCall system ip port process.socket)).value < 0 then _ else _) _ = _
  simp only [connectCalls, System.after_cons system _ [_]]
  split
  · simp only [EStateM.run_bind, EStateM.run_get, EStateM.run_throw]
    exact ⟨_, _, rfl⟩
  · exact ⟨"", _, rfl⟩

/-- A connect that succeeds returns. -/
theorem connect_succeeds {process : Process} {value : ℕ}
    (read : ¬ (system.reply (.inetPton process.socket.family ip)).value ≤ 0)
    (reply : system.reply (connectCall system ip port process.socket) = .returned value) :
    ∃ socket, (connect system ip port).run process =
      .ok ()
        { system.after (connectCalls system ip port process.socket) process with socket } := by
  obtain ⟨_, socket, run⟩ := connect_read system ip port read
  have notNegative : ¬ (system.reply (connectCall system ip port process.socket)).value < 0 := by
    simp [reply, SysReply.value]
  exact ⟨socket, by rw [run]; exact if_neg notNegative⟩

/-- A connect that fails is thrown for. -/
theorem connect_fails {process : Process} {errno : ℕ}
    (read : ¬ (system.reply (.inetPton process.socket.family ip)).value ≤ 0)
    (reply : system.reply (connectCall system ip port process.socket) = .failed errno) :
    ∃ text socket, (connect system ip port).run process =
      .error text ⟨errno, process.calls ++ connectCalls system ip port process.socket, socket⟩ := by
  obtain ⟨text, socket, run⟩ := connect_read system ip port read
  have negative : (system.reply (connectCall system ip port process.socket)).value < 0 := by
    simp [reply, SysReply.value]
  refine ⟨text, socket, ?_⟩
  rw [run]
  refine (if_pos negative).trans ?_
  simp [System.after, System.leftOver, connectCalls, reply, SysReply.errnoAfter]

end Socket

/-- What is thrown goes to the handler, with the process as it was left. -/
theorem Code.run_tryCatch {α : Type} (body : Code α) (handle : String → Code α)
    (process : Process) :
    (tryCatch body handle).run process =
      match body.run process with
      | .ok value behind => .ok value behind
      | .error text behind => (handle text).run behind := by
  change EStateM.tryCatch body handle process = _
  unfold EStateM.tryCatch EStateM.run
  cases body process with
  | ok value behind => rfl
  | error text behind => rfl

namespace Tcp

/-- The call that makes the socket. -/
def socketCall : SysCall := .socket Socket.afInet Socket.sockStream

variable {system : System} {params : Params}

theorem create_no_socket (noFd : params.fd = Socket.invalidFd)
    (failed : (system.reply socketCall).value < 0) (process : Process) :
    ∃ text behind, (create system params).run process = .error text behind := by
  have failed' : (system.reply (.socket Socket.afInet Socket.sockStream)).value < 0 := failed
  simp only [create, Socket.create, EStateM.run_bind, EStateM.run_modify, if_pos noFd,
    System.call_run, if_pos failed', EStateM.run_throw]
  exact ⟨_, _, rfl⟩

theorem create_socket (noFd : params.fd = Socket.invalidFd)
    (made : ¬ (system.reply socketCall).value < 0) (process : Process) :
    (create system params).run process =
      .ok () { system.after (socketCall ::
          optionCalls system params (system.reply socketCall).value) process with
        socket :=
          ⟨Socket.sockStream, Socket.afInet, .created, (system.reply socketCall).value⟩ } := by
  have made' : ¬ (system.reply (.socket Socket.afInet Socket.sockStream)).value < 0 := made
  simp only [create, Socket.create, EStateM.run_bind, EStateM.run_modify, if_pos noFd,
    System.call_run, if_neg made']
  rw [makes_setOptions system params (system.reply socketCall).value _ rfl,
    System.after_cons system socketCall (optionCalls system params _)]
  rfl

end Tcp

namespace TcpClient

/-- `EWOULDBLOCK`. -/
def ewouldblock : ℕ := 11

/-- `EAGAIN`. -/
def eagain : ℕ := 11

/-- `EINPROGRESS`. -/
def einprogress : ℕ := 115

/-- `TcpClient::TcpClient`. -/
def create (system : System) (params : Tcp.Params) : Code Unit := do
  Tcp.create system params
  try
    if params.fd = Socket.invalidFd then Socket.connect system params.ip params.port
  catch e =>
    let errno := (← get).errno
    if errno ≠ ewouldblock ∧ errno ≠ eagain ∧ errno ≠ FileDescriptor.eintr ∧
        errno ≠ einprogress then
      throw e

/-- The `errno`s of a connect that is under way. -/
def underWay : List ℕ := [ewouldblock, eagain, FileDescriptor.eintr, einprogress]

/-- The reply to a connect that succeeded or is under way. -/
def Started : SysReply → Prop
  | .returned _ => True
  | .failed errno => errno ∈ underWay

/-- The client is made only if a connect was started, and never with an address that
`inet_pton` cannot read. -/
def ConnectsOrThrows (system : System) (params : Tcp.Params) (errno : ℕ) : Prop :=
  (∀ process, (create system params).run { errno } = .ok () process →
    ∃ fd addr, .connect fd addr ∈ process.calls ∧ Started (system.reply (.connect fd addr))) ∧
  ((system.reply (.inetPton Socket.afInet params.ip)).value ≤ 0 →
    ∃ text process, (create system params).run { errno } = .error text process)

section Constructor

variable {system : System} {params : Tcp.Params}

/-- The calls before that of `connect`. -/
def callsBefore (system : System) (params : Tcp.Params) : List SysCall :=
  Tcp.socketCall ::
    (Tcp.optionCalls system params (system.reply Tcp.socketCall).value ++
      [.inetPton Socket.afInet params.ip])

/-- An address that cannot be read is taken for a connect that is under way: the last
failure before, if only of an earlier call, was one of the four. -/
def AddressOverlooked (system : System) (params : Tcp.Params) (errno : ℕ) : Prop :=
  0 ≤ (system.reply Tcp.socketCall).value ∧
  (system.reply (.inetPton Socket.afInet params.ip)).value ≤ 0 ∧
  system.leftOver (callsBefore system params) errno ∈ underWay

/-- The process that `connect` starts from. -/
def madeSocket (system : System) (params : Tcp.Params) (errno : ℕ) : Process :=
  { system.after (Tcp.socketCall ::
      Tcp.optionCalls system params (system.reply Tcp.socketCall).value) { errno } with
    socket := ⟨Socket.sockStream, Socket.afInet, .created, (system.reply Tcp.socketCall).value⟩ }

theorem after_madeSocket (errno : ℕ) :
    system.after [.inetPton Socket.afInet params.ip] (madeSocket system params errno) =
      { system.after (callsBefore system params) { errno } with
        socket := (madeSocket system params errno).socket } := by
  rw [callsBefore, ← List.cons_append, System.after_append]
  rfl

theorem throws_on_iff (errno : ℕ) :
    (errno ≠ ewouldblock ∧ errno ≠ eagain ∧ errno ≠ FileDescriptor.eintr ∧
      errno ≠ einprogress) ↔ errno ∉ underWay := by
  simp [underWay]

/-- What the constructor makes of `connect`. -/
theorem create_run (noFd : params.fd = Socket.invalidFd)
    (made : ¬ (system.reply Tcp.socketCall).value < 0) (errno : ℕ) :
    (create system params).run { errno } =
      match (Socket.connect system params.ip params.port).run (madeSocket system params errno) with
      | .ok _ process => .ok () process
      | .error text process =>
          if process.errno ∈ underWay then .ok () process else .error text process := by
  have socket : (Tcp.create system params).run { errno } =
      .ok () (madeSocket system params errno) := Tcp.create_socket noFd made _
  simp only [create, EStateM.run_bind, socket, if_pos noFd, Code.run_tryCatch, EStateM.run_get]
  cases (Socket.connect system params.ip params.port).run (madeSocket system params errno) with
  | ok _ process => rfl
  | error text process =>
      by_cases swallowed : process.errno ∈ underWay
      · simp only [if_pos swallowed, throws_on_iff, if_neg (not_not_intro swallowed),
          EStateM.run_pure]
      · simp only [if_neg swallowed, throws_on_iff, if_pos swallowed, EStateM.run_throw]

/-- The constructor throws, if it comes to no socket. -/
theorem create_no_socket (noFd : params.fd = Socket.invalidFd)
    (failed : (system.reply Tcp.socketCall).value < 0) (errno : ℕ) :
    ∃ text process, (create system params).run { errno } = .error text process := by
  obtain ⟨text, process, thrown⟩ := Tcp.create_no_socket noFd failed { errno }
  exact ⟨text, process, by simp only [create, EStateM.run_bind, thrown]⟩

/-- With an address that cannot be read the last failure before decides. -/
theorem create_unread (noFd : params.fd = Socket.invalidFd)
    (made : ¬ (system.reply Tcp.socketCall).value < 0)
    (unread : (system.reply (.inetPton Socket.afInet params.ip)).value ≤ 0) (errno : ℕ) :
    ∃ text socket,
      let behind : Process := { system.after (callsBefore system params) { errno } with socket }
      (create system params).run { errno } =
        if system.leftOver (callsBefore system params) errno ∈ underWay then .ok () behind
        else .error text behind := by
  obtain ⟨text, socket, thrown⟩ := Socket.connect_unread system params.ip params.port
    (madeSocket system params errno) unread
  refine ⟨text, socket, ?_⟩
  rw [create_run noFd made, thrown]
  simp only [show (madeSocket system params errno).socket.family = Socket.afInet from rfl,
    after_madeSocket]
  rfl

/-- With an address that can be read there is a connect, and what it replies decides. -/
theorem create_read (noFd : params.fd = Socket.invalidFd)
    (made : ¬ (system.reply Tcp.socketCall).value < 0)
    (read : ¬ (system.reply (.inetPton Socket.afInet params.ip)).value ≤ 0) {errno : ℕ}
    {process : Process} (returns : (create system params).run { errno } = .ok () process) :
    ∃ fd addr, .connect fd addr ∈ process.calls ∧
      Started (system.reply (.connect fd addr)) := by
  let socket := (madeSocket system params errno).socket
  have tried : Socket.connectCall system params.ip params.port socket ∈
      (madeSocket system params errno).calls ++
        Socket.connectCalls system params.ip params.port socket := by
    simp [Socket.connectCalls]
  rw [create_run noFd made] at returns
  cases reply : system.reply (Socket.connectCall system params.ip params.port socket) with
  | returned value =>
      obtain ⟨behind, run⟩ := Socket.connect_succeeds system params.ip params.port read reply
      rw [run] at returns
      cases returns
      exact ⟨_, _, tried, by rw [← Socket.connectCall, reply]; trivial⟩
  | failed error =>
      obtain ⟨text, behind, run⟩ := Socket.connect_fails system params.ip params.port read reply
      rw [run] at returns
      by_cases swallowed : error ∈ underWay
      · simp only [if_pos swallowed] at returns
        cases returns
        exact ⟨_, _, tried, by rw [← Socket.connectCall, reply]; exact swallowed⟩
      · simp [if_neg swallowed] at returns

/-- The constructor makes a client only if it started a connect, but for an address that is
overlooked. -/
theorem create_starts_iff (system : System) {params : Tcp.Params}
    (noFd : params.fd = Socket.invalidFd) (errno : ℕ) :
    ConnectsOrThrows system params errno ↔ ¬ AddressOverlooked system params errno := by
  constructor
  · rintro ⟨_, throws⟩ ⟨made, unread, swallowed⟩
    obtain ⟨text, process, thrown⟩ := throws unread
    obtain ⟨_, behind, run⟩ := create_unread noFd (Int.not_lt.mpr made) unread errno
    rw [run] at thrown
    simp [if_pos swallowed] at thrown
  · intro noticed
    by_cases made : (system.reply Tcp.socketCall).value < 0
    · obtain ⟨text, behind, thrown⟩ := create_no_socket noFd made errno
      refine ⟨fun process returns => ?_, fun _ => ⟨text, behind, thrown⟩⟩
      rw [thrown] at returns
      cases returns
    by_cases unread : (system.reply (.inetPton Socket.afInet params.ip)).value ≤ 0
    · have notSwallowed : system.leftOver (callsBefore system params) errno ∉ underWay :=
        fun swallowed => noticed ⟨Int.not_lt.mp made, unread, swallowed⟩
      obtain ⟨text, socket, run⟩ := create_unread noFd made unread errno
      simp only [if_neg notSwallowed] at run
      refine ⟨fun process returns => ?_, fun _ => ⟨text, _, run⟩⟩
      rw [run] at returns
      cases returns
    · exact ⟨fun process returns => create_read noFd made unread returns,
        fun bad => absurd bad unread⟩

end Constructor

/-- A system that reads the address of the local host, but no names, and where a connect is
under way at first. -/
def localHost : System where
  reply
    | .socket _ _ => .returned 3
    | .inetPton _ ip => .returned (if ip = "127.0.0.1" then 1 else 0)
    | .connect _ _ => .failed einprogress
    | _ => .returned 0
  address _ _ := 0x0100007f
  strerror _ := "error"

theorem create_starts_iff_local :
    ConnectsOrThrows localHost { ip := "127.0.0.1", port := 80 } eagain :=
  (create_starts_iff localHost rfl eagain).mpr fun overlooked => by
    have unread : (localHost.reply (.inetPton Socket.afInet "127.0.0.1")).value ≤ 0 :=
      overlooked.2.1
    exact absurd unread (by decide)

/-- A name is no address, but with `EAGAIN` left over the client is made, unconnected. -/
theorem create_overlooks :
    ¬ ConnectsOrThrows localHost { ip := "localhost", port := 80 } eagain := by
  rintro ⟨_, throws⟩
  obtain ⟨text, process, thrown⟩ := throws (by decide)
  cases thrown

end TcpClient

end Jasl
