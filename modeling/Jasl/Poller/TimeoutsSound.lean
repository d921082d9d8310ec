import Jasl.Poller.Ledger
import Jasl.Poller.TimersAgree

/-!
# Timeouts are sound

The poller should close a socket for a timeout in a direction only when the socket
waits for that direction and the step is over since it was armed or last reported
ready. `TimeoutsJustified` says this of the events a poll adds, in the terms of
the ledger.

The deadline of a direction is moved by arming, by a step change and by
readiness. A mask that leaves the direction out moves nothing: its deadline
stays, and closes a socket that no longer waits for it
(`timeout_of_left_out_direction`). And a sum of a reading and a step may wrap.
Without these two the deadline of every armed direction is exactly its reading
plus its step (`InLedger`), so the timeouts are justified (`timeouts_are_sound`).
-/

set_option autoImplicit false

namespace Jasl

open Library

/-! ## The conditions on a call -/

/-- The sum of a reading and a step is a valid deadline. -/
def Fits (reading step : Word) : Prop := reading.toNat + step.toNat < 2 ^ 64 - 1

instance (reading step : Word) : Decidable (Fits reading step) :=
  inferInstanceAs (Decidable (reading.toNat + step.toNat < 2 ^ 64 - 1))

/-- The reading that a call of `update_socket` makes the step of a direction count from. -/
def Account.base (account : Account) (direction : Direction) (reading : Word) : Word :=
  match account.watch direction with
  | none => reading
  | some watch => watch.since

/-- The steps passed are finite and not zero. -/
def PollerOp.Timed : PollerOp → Prop
  | .update _ _ timeoutStep _ _ => timeoutStep ≠ invalidTime ∧ timeoutStep ≠ 0
  | _ => True

instance : (op : PollerOp) → Decidable op.Timed
  | .update _ _ timeoutStep _ _ =>
      inferInstanceAs (Decidable (timeoutStep ≠ invalidTime ∧ timeoutStep ≠ 0))
  | .remove _ | .poll .. | .next _ | .signal _ => inferInstanceAs (Decidable True)

/-- What the callers, the kernel and the clock promise: masks name directions, steps are finite,
descriptors of live sockets differ, the kernel reports what it watches, the clock does not run
backwards, and no stop is processed. -/
def TimedCall (watched : Poller × Ledger) (op : PollerOp) : Prop :=
  op.NamesDirections ∧ op.Timed ∧ watched.1.OwnDescriptor op ∧ watched.1.ReportsWatched op ∧
    watched.2.Forward op ∧ ¬ watched.1.ReadsStop op

instance (watched : Poller × Ledger) (op : PollerOp) : Decidable (TimedCall watched op) :=
  inferInstanceAs (Decidable (_ ∧ _ ∧ _ ∧ _ ∧ _ ∧ _))

/-- No deadline the call computes wraps, and no reading is `INVALID_TIME`. -/
def FitsCall (p : Poller) (ledger : Ledger) : PollerOp → Prop
  | .update (some socket) eventMask timeoutStep readClock writeClock =>
      ∀ direction ∈ [Direction.read, .write], eventMask.has direction.epoll →
        Fits (((ledger.accounts socket).getD .fresh).base direction
          (direction.clock readClock writeClock)) (Poller.effectiveStep timeoutStep)
  | .poll batch waitClock eventClock schedulerClock =>
      schedulerClock ≠ invalidTime ∧
        ∀ report ∈ p.deliveredReports (.poll batch waitClock eventClock schedulerClock),
          ∀ context ∈ p.activeSockets report.data, ∀ direction ∈ [Direction.read, .write],
            report.events.has direction.epoll → Fits eventClock (context.timeout direction).step
  | _ => True

instance (p : Poller) (ledger : Ledger) : (op : PollerOp) → Decidable (FitsCall p ledger op)
  | .update (some socket) eventMask timeoutStep readClock writeClock =>
      inferInstanceAs (Decidable (∀ direction ∈ [Direction.read, .write],
        eventMask.has direction.epoll →
          Fits (((ledger.accounts socket).getD .fresh).base direction
            (direction.clock readClock writeClock)) (Poller.effectiveStep timeoutStep)))
  | .poll batch waitClock eventClock schedulerClock =>
      inferInstanceAs (Decidable (schedulerClock ≠ invalidTime ∧
        ∀ report ∈ p.deliveredReports (.poll batch waitClock eventClock schedulerClock),
          ∀ context ∈ p.activeSockets report.data, ∀ direction ∈ [Direction.read, .write],
            report.events.has direction.epoll → Fits eventClock (context.timeout direction).step))
  | .update none .. | .remove _ | .next _ | .signal _ => inferInstanceAs (Decidable True)

/-- A mask has left out an armed direction of the socket under a descriptor. -/
def droppedUnder (p : Poller) (accounts : Accounts) (fd : FD) : Bool :=
  match p.sockets fd with
  | none => false
  | some socket =>
      match accounts socket with
      | none => false
      | some account => account.dropped

/-- No poll finds a due timer of a socket one of whose armed directions was left out of a mask. -/
def KeepsMasks (p : Poller) (ledger : Ledger) : PollerOp → Prop
  | .poll batch waitClock eventClock schedulerClock =>
      (p.afterReports batch waitClock eventClock).EveryDue schedulerClock fun fd =>
        !droppedUnder p (Ledger.noteAccounts p ledger.accounts
          (.poll batch waitClock eventClock schedulerClock)) fd
  | _ => True

instance (p : Poller) (ledger : Ledger) : (op : PollerOp) → Decidable (KeepsMasks p ledger op)
  | .poll batch waitClock eventClock schedulerClock =>
      inferInstanceAs (Decidable ((p.afterReports batch waitClock eventClock).EveryDue
        schedulerClock fun fd => !droppedUnder p (Ledger.noteAccounts p ledger.accounts
          (.poll batch waitClock eventClock schedulerClock)) fd))
  | .update .. | .remove _ | .next _ | .signal _ => inferInstanceAs (Decidable True)

/-- The condition under which the timeouts are sound. -/
def SoundCall (watched : Poller × Ledger) (op : PollerOp) : Prop :=
  TimedCall watched op ∧ FitsCall watched.1 watched.2 op ∧ KeepsMasks watched.1 watched.2 op

instance (watched : Poller × Ledger) (op : PollerOp) : Decidable (SoundCall watched op) :=
  inferInstanceAs (Decidable (_ ∧ _ ∧ _))

/-! ## One direction -/

/-- A timeout stands as its direction is recorded: without a deadline when it was never armed, and
otherwise one step after the reading it counts from. -/
def Recorded (timeout : Timeout) (clock : Word) : Option Watch → Prop
  | none => timeout.time = invalidTime
  | some watch =>
      timeout.step = watch.step ∧ timeout.time.toNat = watch.since.toNat + watch.step.toNat ∧
        Fits watch.since watch.step ∧ watch.since ≤ clock

theorem ne_invalidTime_of_lt {time : Word} (below : time.toNat < 2 ^ 64 - 1) :
    time ≠ invalidTime := by
  intro invalid
  rw [invalid, invalidTime, BitVec.toNat_allOnes] at below
  omega

namespace Recorded

variable {timeout : Timeout} {clock reading step : Word}

theorem mono {watch : Option Watch} (recorded : Recorded timeout clock watch)
    (forward : clock ≤ reading) : Recorded timeout reading watch := by
  cases watch with
  | none => exact recorded
  | some watch =>
      obtain ⟨same, sum, fits, before⟩ := recorded
      exact ⟨same, sum, fits, before.trans forward⟩

/-- Arming a direction that was not armed counts from the reading. -/
theorem arm_fresh (recorded : Recorded timeout clock none) (fits : Fits reading step) :
    Recorded (timeout.arm step reading) reading (some { armed := reading, step }) := by
  refine ⟨timeout.arm_step step reading, ?_, fits, le_refl _⟩
  rw [Timeout.arm_time_of_invalid recorded]
  exact BitVec.toNat_add_of_fits (by rw [Fits] at fits; omega)

/-- Arming an armed direction counts from the same reading with the new step. -/
theorem arm_again {watch : Watch} (recorded : Recorded timeout clock (some watch))
    (forward : clock ≤ reading) (fits : Fits watch.since step) :
    Recorded (timeout.arm step reading) reading (some { watch with step }) := by
  obtain ⟨same, sum, fitted, before⟩ := recorded
  rw [Fits] at fits fitted
  have shifted : (timeout.time + (step - timeout.step)).toNat =
      watch.since.toNat + step.toNat := by
    rw [BitVec.toNat_add, BitVec.toNat_sub, sum, same]
    have old := watch.step.isLt
    omega
  have armed : timeout.time ≠ invalidTime := ne_invalidTime_of_lt (sum ▸ fitted)
  have valid : timeout.time + (step - timeout.step) ≠ invalidTime :=
    ne_invalidTime_of_lt (shifted ▸ fits)
  refine ⟨timeout.arm_step step reading, ?_, fits, before.trans forward⟩
  rw [Timeout.arm_time_of_valid reading armed valid]
  exact shifted

/-- A report counts from its reading. -/
theorem refresh {watch : Watch} (recorded : Recorded timeout clock (some watch))
    (forward : clock ≤ reading) (fits : Fits reading timeout.step) :
    Recorded (timeout.updateTimeout reading) reading (some { watch with ready := some reading }) := by
  obtain ⟨same, -, -, before⟩ := recorded
  have armed : watch.armed ≤ watch.since := by
    rw [Watch.since]
    split
    · exact le_refl _
    · exact le_max_left _ _
  have since : Watch.since { watch with ready := some reading } = reading :=
    max_eq_right ((armed.trans before).trans forward)
  refine ⟨same, ?_, ?_, since.le⟩
  · rw [since, ← same]
    exact BitVec.toNat_add_of_fits (by rw [Fits] at fits; omega)
  · rw [since, ← same]
    exact fits

/-- A deadline that has come is one of an armed direction whose step is over. -/
theorem elapsed {watch : Option Watch} {now : Word} (recorded : Recorded timeout clock watch)
    (valid : now ≠ invalidTime) (reached : timeout.time ≤ now) :
    ∃ armed, watch = some armed ∧ armed.since.toNat + armed.step.toNat ≤ now.toNat := by
  cases watch with
  | none =>
      rw [Recorded] at recorded
      rw [recorded] at reached
      exact absurd (le_antisymm (SocketContext.le_invalidTime now) reached) valid
  | some watch =>
      obtain ⟨-, sum, -, -⟩ := recorded
      refine ⟨watch, rfl, ?_⟩
      rw [← sum]
      exact BitVec.toNat_le_toNat.mpr reached

end Recorded

/-! ## One socket -/

/-- The timeouts of a socket stand as its account says; the directions of the mask are armed, and
the armed ones are in the mask unless one was left out. -/
structure Matches (context : SocketContext) (account : Account) (clock : Word) : Prop where
  recorded : ∀ direction, Recorded (context.timeout direction) clock (account.watch direction)
  armed : ∀ direction : Direction, account.mask.has direction.epoll = true →
    (account.watch direction).isSome
  named : account.dropped = false → ∀ direction : Direction,
    (account.watch direction).isSome → account.mask.has direction.epoll = true

namespace Matches

variable {context : SocketContext} {account : Account} {clock : Word}

theorem fresh (socket : SocketPtr) (clock : Word) : Matches { socket } .fresh clock where
  recorded := by
    intro direction
    cases direction <;> rfl
  armed := by
    intro direction named
    rw [Account.fresh, BitVec.ofNat_eq_ofNat, BitVec.zero_has] at named
    cases named
  named := by
    intro _ direction some
    cases some

theorem mono (matches_ : Matches context account clock) {reading : Word}
    (forward : clock ≤ reading) : Matches context account reading where
  recorded := fun direction => (matches_.recorded direction).mono forward
  armed := matches_.armed
  named := matches_.named

/-- The reading of a direction lies between the two readings of the call. -/
theorem clock_bounds {readClock writeClock : Word} (ordered : readClock ≤ writeClock)
    (direction : Direction) :
    readClock ≤ direction.clock readClock writeClock ∧
      direction.clock readClock writeClock ≤ writeClock := by
  cases direction with
  | read => exact ⟨le_refl _, ordered⟩
  | write => exact ⟨ordered, le_refl _⟩

theorem update (matches_ : Matches context account clock)
    {mask step readClock writeClock : Word} (forward : clock ≤ readClock)
    (ordered : readClock ≤ writeClock)
    (fits : ∀ direction : Direction, mask.has direction.epoll = true →
      Fits (account.base direction (direction.clock readClock writeClock)) step) :
    Matches (context.arm mask step readClock writeClock)
      (account.update mask step readClock writeClock) writeClock where
  recorded := by
    intro direction
    obtain ⟨from_, to_⟩ := clock_bounds ordered direction
    have old := matches_.recorded direction
    rw [SocketContext.timeout_arm, Account.update]
    by_cases named : mask.has direction.epoll = true
    · have enough := fits direction named
      simp only [named, if_true]
      cases watched : account.watch direction with
      | none =>
          rw [watched] at old
          rw [Account.base, watched] at enough
          exact (old.arm_fresh enough).mono to_
      | some watch =>
          rw [watched] at old
          rw [Account.base, watched] at enough
          exact (old.arm_again (forward.trans from_) enough).mono to_
    · simp only [named]
      exact old.mono (forward.trans ordered)
  armed := by
    intro direction named
    change mask.has direction.epoll = true at named
    simp only [Account.update, named, if_true]
    split <;> rfl
  named := by
    intro kept direction some
    rw [Account.update, Bool.or_eq_false_iff] at kept
    by_cases named : mask.has direction.epoll = true
    · exact named
    · have member : direction ∈ [Direction.read, .write] := by cases direction <;> simp
      have unarmed := List.any_eq_false.mp kept.2 direction member
      rw [Bool.not_eq_true] at named
      simp only [Account.update, named, Bool.false_eq_true, if_false] at some
      rw [some, named] at unarmed
      exact absurd rfl unarmed

theorem report (matches_ : Matches context account clock) {events : BitVec 32} {reading : Word}
    (forward : clock ≤ reading)
    (named : ∀ direction : Direction, events.has direction.epoll = true →
      account.mask.has direction.epoll = true)
    (fits : ∀ direction : Direction, events.has direction.epoll = true →
      Fits reading (context.timeout direction).step) :
    Matches (context.refresh events reading) (account.report events reading) reading where
  recorded := by
    intro direction
    have old := matches_.recorded direction
    rw [SocketContext.timeout_refresh, Account.report]
    by_cases ready : events.has direction.epoll = true
    · obtain ⟨watch, watched⟩ := Option.isSome_iff_exists.mp
        (matches_.armed direction (named direction ready))
      rw [watched] at old
      simp only [ready, if_true, watched, Option.map_some]
      exact old.refresh forward (fits direction ready)
    · simp only [ready]
      exact old.mono forward
  armed := by
    intro direction inMask
    have armed := matches_.armed direction inMask
    simp only [Account.report]
    split
    · rw [Option.isSome_map]
      exact armed
    · exact armed
  named := by
    intro kept direction some
    apply matches_.named kept direction
    simp only [Account.report] at some
    split at some
    · rwa [Option.isSome_map] at some
    · exact some

end Matches

/-! ## The whole ledger -/

/-- Every registered socket has an account its timeouts stand by, and the kernel watches its mask;
no other socket has one. -/
structure InLedger (p : Poller) (accounts : Accounts) (clock : Word) : Prop
    extends TimersAgree p where
  account : ∀ fd context, p.activeSockets fd = some context →
    ∃ account, accounts context.socket = some account ∧ Matches context account clock ∧
      (fd ≠ p.eventFd → p.epollFd fd = some (Poller.watchedEvents account.mask))
  unregistered : ∀ socket : SocketPtr, p.sockets socket.fd ≠ some socket → accounts socket = none
  unwatched : ∀ fd, fd ≠ p.eventFd → p.activeSockets fd = none → p.epollFd fd = none

namespace InLedger

variable {p after : Poller} {accounts : Accounts} {clock : Word}

theorem watched (held : InLedger p accounts clock) : Watched p where
  toKeyed := held.toKeyed
  registered := fun fd other absent => held.unwatched fd other (Poller.sockets_eq_none.mp absent)

theorem unwatched_of_watched (watched : Watched p) (fd : FD) (other : fd ≠ p.eventFd)
    (absent : p.activeSockets fd = none) : p.epollFd fd = none :=
  watched.registered fd other (Poller.sockets_eq_none.mpr absent)

theorem create (eventFd : FD) (clock : Word) :
    InLedger (Poller.create eventFd) (fun _ => none) clock where
  toTimersAgree := TimersAgree.create eventFd
  account := nofun
  unregistered := fun _ _ => rfl
  unwatched := unwatched_of_watched (Watched.create eventFd)

theorem mono (held : InLedger p accounts clock) {reading : Word} (forward : clock ≤ reading) :
    InLedger p accounts reading where
  toTimersAgree := held.toTimersAgree
  account := by
    intro fd context found
    obtain ⟨account, known, matches_, watched⟩ := held.account fd context found
    exact ⟨account, known, matches_.mono forward, watched⟩
  unregistered := held.unregistered
  unwatched := held.unwatched

theorem congr (held : InLedger p accounts clock) (agree : TimersAgree after)
    (sockets : after.activeSockets = p.activeSockets) (interest : after.epollFd = p.epollFd)
    (eventFd : after.eventFd = p.eventFd) : InLedger after accounts clock where
  toTimersAgree := agree
  account := by
    rw [sockets, interest, eventFd]
    exact held.account
  unregistered := by
    rw [Poller.sockets_congr sockets]
    exact held.unregistered
  unwatched := by
    rw [sockets, interest, eventFd]
    exact held.unwatched

/-- The account of a socket a call is made with, whether it is registered or not. -/
theorem accountFor (held : InLedger p accounts clock) {socket : SocketPtr}
    (own : ∀ registered ∈ p.sockets socket.fd, registered = socket) :
    Matches (p.contextFor socket) ((accounts socket).getD .fresh) clock := by
  cases found : p.activeSockets socket.fd with
  | none =>
      have absent : accounts socket = none := held.unregistered socket (by
        rw [Poller.sockets_eq_none.mpr found]
        exact nofun)
      rw [Poller.contextFor_of_none found, absent]
      exact Matches.fresh socket clock
  | some context =>
      obtain ⟨account, known, matches_, -⟩ := held.account socket.fd context found
      have belongs := own _ (Poller.sockets_eq_some.mpr ⟨context, found, rfl⟩)
      rw [Poller.contextFor_of_some found, ← belongs, known]
      exact matches_

/-- What the kernel watches for a descriptor after `update_socket`. -/
theorem watched_update (held : InLedger p accounts clock) {socket : SocketPtr}
    {eventMask timeoutStep readClock writeClock : Word}
    (effect : Poller.UpdateEffect p socket eventMask timeoutStep readClock writeClock after)
    (fd : FD) (other : fd ≠ p.eventFd) :
    after.epollFd fd =
      if fd = socket.fd then some (Poller.watchedEvents eventMask) else p.epollFd fd := by
  rw [effect.epollFd, Poller.registers]
  cases found : p.activeSockets socket.fd with
  | none =>
      rw [Option.isNone_none, if_pos rfl, epollCtlAdd_apply]
      by_cases same : fd = socket.fd
      · rw [if_pos same, if_pos same, held.unwatched _ (same ▸ other) found, Option.getD_none]
      · rw [if_neg same, if_neg same]
  | some context =>
      rw [Option.isNone_some, if_neg Bool.false_ne_true, epollCtlMod_apply]
      by_cases same : fd = socket.fd
      · obtain ⟨account, -, -, watched⟩ := held.account _ _ found
        rw [if_pos same, if_pos same, watched (same ▸ other), Option.map_some]
      · rw [if_neg same, if_neg same]

theorem updateSocket (held : InLedger p accounts clock) {socket : SocketPtr}
    {eventMask timeoutStep readClock writeClock : Word}
    (own : ∀ registered ∈ p.sockets socket.fd, registered = socket)
    (finite : timeoutStep ≠ invalidTime) (forward : clock ≤ readClock)
    (ordered : readClock ≤ writeClock)
    (fits : ∀ direction : Direction, eventMask.has direction.epoll = true →
      Fits (((accounts socket).getD .fresh).base direction
        (direction.clock readClock writeClock)) (Poller.effectiveStep timeoutStep))
    (returned : p.updateSocket (some socket) eventMask timeoutStep readClock writeClock =
      .ok after) :
    InLedger after (Function.update accounts socket (some
      (((accounts socket).getD .fresh).update eventMask (Poller.effectiveStep timeoutStep)
        readClock writeClock))) writeClock := by
  have effect := Poller.updateSocket_eq_ok returned
  have belongs := Poller.contextFor_socket own
  have context : p.updatedContext socket eventMask timeoutStep readClock writeClock =
      (p.contextFor socket).arm eventMask (Poller.effectiveStep timeoutStep) readClock writeClock :=
    if_neg finite
  refine ⟨held.toTimersAgree.updateSocket returned, ?_, ?_,
    unwatched_of_watched (held.watched.updateSocket returned)⟩
  · intro fd stored found
    rw [effect.activeSockets] at found
    rw [effect.eventFd]
    by_cases same : fd = socket.fd
    · rw [same, Function.update_self, Option.some.injEq, context] at found
      rw [← found, SocketContext.arm_socket, belongs, Function.update_self]
      refine ⟨_, rfl, (held.accountFor own).update forward ordered fits, ?_⟩
      intro other
      rw [held.watched_update effect fd other, if_pos same]
      rfl
    · rw [Function.update_of_ne same] at found
      obtain ⟨account, known, matches_, watched⟩ := held.account fd stored found
      have foreign : stored.socket ≠ socket := fun equal =>
        same (by rw [← held.keys fd stored found, equal])
      rw [Function.update_of_ne foreign]
      refine ⟨account, known, matches_.mono (forward.trans ordered), ?_⟩
      intro other
      rw [held.watched_update effect fd other, if_neg same]
      exact watched other
  · intro stranger absent
    rw [Poller.sockets_updateSocket returned, belongs] at absent
    have different : stranger ≠ socket := by
      intro equal
      rw [equal, Function.update_self] at absent
      exact absent rfl
    rw [Function.update_of_ne different]
    apply held.unregistered
    by_cases same : stranger.fd = socket.fd
    · intro registered
      rw [same] at registered
      exact different (own stranger registered)
    · rwa [Function.update_of_ne same] at absent

theorem removeSocket (held : InLedger p accounts clock) {socket : SocketPtr}
    (own : ∀ registered ∈ p.sockets socket.fd, registered = socket) :
    InLedger (p.removeSocket (some socket)) (Function.update accounts socket none) clock := by
  refine ⟨held.toTimersAgree.removeSocket socket, ?_, ?_,
    unwatched_of_watched (held.watched.removeSocket socket)⟩
  · intro fd context found
    rw [Poller.removeSocket_activeSockets] at found
    rw [Poller.removeSocket_eventFd, Poller.removeSocket_epollFd, epollCtlDel]
    by_cases same : fd = socket.fd
    · rw [same, Function.update_self] at found
      cases found
    · rw [Function.update_of_ne same] at found ⊢
      have foreign : context.socket ≠ socket := fun equal =>
        same (by rw [← held.keys fd context found, equal])
      rw [Function.update_of_ne foreign]
      exact held.account fd context found
  · intro stranger absent
    rw [Poller.sockets_removeSocket] at absent
    by_cases equal : stranger = socket
    · rw [equal, Function.update_self]
    · rw [Function.update_of_ne equal]
      apply held.unregistered
      by_cases same : stranger.fd = socket.fd
      · intro registered
        rw [same] at registered
        exact equal (own stranger registered)
      · rwa [Function.update_of_ne same] at absent

/-- A report the kernel watches for names directions of the mask. -/
theorem named_of_watches (held : InLedger p accounts clock) {report : EpollEvent}
    {context : SocketContext} (found : p.activeSockets report.data = some context)
    (other : report.data ≠ p.eventFd) (watches : Poller.watches p.epollFd report = true)
    {account : Account} (known : accounts context.socket = some account) {direction : Direction}
    (ready : report.events.has direction.epoll = true) :
    account.mask.has direction.epoll = true := by
  obtain ⟨same, known', -, watched⟩ := held.account _ _ found
  obtain rfl := Option.some.inj (known.symm.trans known')
  rw [Poller.watches, watched other, Option.any_some, beq_iff_eq] at watches
  have whole := BitVec.has_of_subset watches ready
  rwa [BitVec.has_or, BitVec.has_or, Direction.watchedEvents_has, Direction.epollErr_has,
    Direction.epollHup_has, Bool.or_false, Bool.or_false] at whole

theorem processReport (held : InLedger p accounts clock) {report : EpollEvent} {reading : Word}
    (other : report.data ≠ p.eventFd) (watches : Poller.watches p.epollFd report = true)
    (forward : clock ≤ reading)
    (fits : ∀ context ∈ p.activeSockets report.data, ∀ direction : Direction,
      report.events.has direction.epoll = true → Fits reading (context.timeout direction).step)
    (returned : p.processReport report reading = .ok after) :
    InLedger after (accounts.report reading report) reading := by
  obtain ⟨context, effect⟩ := Poller.processReport_eq_ok returned
  have key := held.keys _ _ effect.found
  refine ⟨held.toTimersAgree.processReport returned, ?_, ?_,
    unwatched_of_watched (held.watched.processReport returned)⟩
  · intro fd stored found
    rw [effect.activeSockets] at found
    rw [effect.eventFd, effect.epollFd, Accounts.report]
    by_cases same : fd = report.data
    · rw [same, Function.update_self, Option.some.injEq] at found
      obtain ⟨account, known, matches_, watched⟩ := held.account _ _ effect.found
      rw [← found, SocketContext.refresh_socket, if_pos key, known, same]
      refine ⟨_, rfl, matches_.report forward ?_ (fits context effect.found), watched⟩
      intro direction
      exact held.named_of_watches effect.found other watches known
    · rw [Function.update_of_ne same] at found
      obtain ⟨account, known, matches_, watched⟩ := held.account fd stored found
      have foreign : stored.socket.fd ≠ report.data := by
        rw [held.keys fd stored found]
        exact same
      rw [if_neg foreign]
      exact ⟨account, known, matches_.mono forward, watched⟩
  · intro stranger absent
    rw [Poller.sockets_processReport returned] at absent
    rw [Accounts.report, held.unregistered stranger absent, Option.map_none, ite_self]

/-- The loop over the reports brings the accounts up to date. -/
theorem processEpollEvents (held : InLedger p accounts clock) {batch : List EpollEvent}
    {reading : Word} (quiet : ¬ p.StopReported batch)
    (watches : ∀ report ∈ Poller.delivered p.eventFd p.eventCount batch,
      Poller.watches p.epollFd report = true)
    (forward : clock ≤ reading)
    (fits : ∀ report ∈ Poller.delivered p.eventFd p.eventCount batch,
      ∀ context ∈ p.activeSockets report.data, ∀ direction : Direction,
        report.events.has direction.epoll = true → Fits reading (context.timeout direction).step)
    (returned : p.processEpollEvents batch reading = .ok after) :
    InLedger after ((Poller.delivered p.eventFd p.eventCount batch).foldl
      (fun accounts report => accounts.report reading report) accounts) reading := by
  -- a report changes no step, so the sums that fit at the start fit at every report
  have kept := Poller.processEpollEvents_quiet
    (fun q accounts => InLedger q accounts reading ∧ q.epollFd = p.epollFd ∧
      ∀ fd context, q.activeSockets fd = some context → ∃ first,
        p.activeSockets fd = some first ∧
          ∀ direction, (context.timeout direction).step = (first.timeout direction).step)
    (fun accounts report => accounts.report reading report) quiet ?_ ?_ ?_ accounts
    ⟨held.mono forward, rfl, fun _ context found => ⟨context, found, fun _ => rfl⟩⟩ returned
  · exact kept.1
  · intro before accounts report next member sameFd ⟨inLedger, interest, steps⟩ processed
    have other : report.data ≠ before.eventFd := by
      rw [sameFd]
      exact (Poller.mem_delivered member).2
    have enough : ∀ context ∈ before.activeSockets report.data, ∀ direction : Direction,
        report.events.has direction.epoll = true →
          Fits reading (context.timeout direction).step := by
      intro context found direction ready
      obtain ⟨first, atStart, sameStep⟩ := steps _ context found
      rw [sameStep]
      exact fits report member first atStart direction ready
    obtain ⟨context, effect⟩ := Poller.processReport_eq_ok processed
    refine ⟨inLedger.processReport other ?_ (le_refl _) enough processed,
      effect.epollFd.trans interest, ?_⟩
    · rw [interest]
      exact watches report member
    · intro fd stored found
      rw [effect.activeSockets] at found
      by_cases same : fd = report.data
      · rw [same, Function.update_self, Option.some.injEq] at found
        obtain ⟨first, atStart, sameStep⟩ := steps _ context effect.found
        refine ⟨first, same ▸ atStart, ?_⟩
        intro direction
        rw [← found, SocketContext.timeout_refresh, ← sameStep]
        split <;> rfl
      · rw [Function.update_of_ne same] at found
        exact steps fd stored found
  · intro before accounts ⟨inLedger, interest, steps⟩
    exact ⟨inLedger.congr (inLedger.toTimersAgree.congr rfl rfl) rfl rfl rfl, interest, steps⟩
  · intro before accounts size ⟨inLedger, interest, steps⟩
    exact ⟨inLedger.congr (inLedger.toTimersAgree.congr rfl rfl) rfl rfl rfl, interest, steps⟩

end InLedger

/-! ## The events of a poll -/

/-- Every timeout an event closes its socket for is one in a direction of the mask, whose step is
over. -/
def TimeoutJustified (accounts : Accounts) (now : Word) (event : PollerEvent) : Prop :=
  ∀ socket, event.socket = some socket → ∀ direction : Direction,
    event.closeReason.has direction.expired = true → ∃ account watch,
      accounts socket = some account ∧ account.mask.has direction.epoll = true ∧
        account.watch direction = some watch ∧
          watch.since.toNat + watch.step.toNat ≤ now.toNat

/-- The events a poll has added are justified by the ledger after it. -/
def TimeoutsJustified (before after : Poller) (accounts : Accounts) (now : Word) : Prop :=
  ∀ event ∈ after.outEvents, event ∉ before.outEvents → TimeoutJustified accounts now event

/-- The reports add no timeout. -/
theorem reported_not_expired {p processed : Poller} {batch : List EpollEvent} {reading : Word}
    (returned : p.processEpollEvents batch reading = .ok processed) :
    ∀ event ∈ processed.outEvents, event ∈ p.outEvents ∨
      ∀ direction : Direction, event.closeReason.has direction.expired = false := by
  refine Poller.processEpollEvents_invariant
    (fun q => ∀ event ∈ q.outEvents, event ∈ p.outEvents ∨
      ∀ direction : Direction, event.closeReason.has direction.expired = false)
    ?_ (fun _ _ => id) ?_ (fun _ _ => id) (fun _ => .inl) returned
  · intro before report after _ held processed event member
    obtain ⟨context, effect⟩ := Poller.processReport_eq_ok processed
    rw [effect.outEvents] at member
    rcases KeyedSet.mem_insert.mp member with pending | ⟨rfl, -⟩
    · exact held event pending
    · right
      intro direction
      obtain ⟨read, write⟩ := PollerEvent.ofReport_not_has_timeout context.socket report.events
      cases direction with
      | read => exact read
      | write => exact write
  · intro before _ _ _ event member
    exact absurd member (KeyedSet.not_mem_empty event)

/-- What the loop of `process_scheduler` keeps from its start: the ledger, the contexts, the
timers that are still there, and that the events it added are justified. -/
structure JustifiedSince (start : Poller) (accounts : Accounts) (clock now : Word) (p : Poller) :
    Prop extends InLedger p accounts clock where
  sockets : p.activeSockets = start.activeSockets
  timers : ∀ fd time, p.scheduler.deadline fd = some time →
    start.scheduler.deadline fd = some time
  justified : ∀ event ∈ p.outEvents, event ∈ start.outEvents ∨ TimeoutJustified accounts now event

namespace JustifiedSince

variable {start p after : Poller} {accounts : Accounts} {clock now : Word}

/-- The directions in which a popped socket has timed out justify its event. -/
theorem event_justified (held : JustifiedSince start accounts clock now p) {fd : FD}
    {context : SocketContext} (found : p.activeSockets fd = some context)
    (valid : now ≠ invalidTime) (kept : droppedUnder start accounts fd = false) {reason : Word}
    (within : ∀ direction : Direction, reason.has direction.expired = true →
      (context.getTimeoutType now).has direction.expired = true)
    {event : PollerEvent} (owner : event.socket = some context.socket)
    (because : event.closeReason = reason) : TimeoutJustified accounts now event := by
  intro socket belongs direction timedOut
  obtain rfl := Option.some.inj (owner.symm.trans belongs)
  obtain ⟨account, known, matches_, -⟩ := held.account fd context found
  have open_ : account.dropped = false := by
    have registered : start.sockets fd = some context.socket := by
      rw [← Poller.sockets_congr held.sockets]
      exact Poller.sockets_eq_some.mpr ⟨context, found, rfl⟩
    rw [droppedUnder, registered] at kept
    simpa only [known] using kept
  have reached := within direction (because ▸ timedOut)
  rw [SocketContext.getTimeoutType_has, decide_eq_true_eq] at reached
  obtain ⟨watch, watched, elapsed⟩ := (matches_.recorded direction).elapsed valid reached
  exact ⟨account, watch, known,
    matches_.named open_ direction (by rw [watched]; rfl), watched, elapsed⟩

theorem turn (held : JustifiedSince start accounts clock now p) {payload : EventPayload}
    (valid : now ≠ invalidTime)
    (keeps : start.EveryDue now fun fd => !droppedUnder start accounts fd)
    (turn : p.schedulerTurn now = some (payload, after)) :
    JustifiedSince start accounts clock now after := by
  have agree := held.toTimersAgree.schedulerTurn turn
  have frame := Poller.schedulerTurn_frame turn
  have inLedger : InLedger after accounts clock := by
    refine held.toInLedger.congr agree ?_ ?_ ?_ <;> rw [frame]
  refine ⟨inLedger, (Poller.schedulerTurn_activeSockets turn).trans held.sockets, ?_, ?_⟩
  · intro fd time scheduled
    exact held.timers fd time (Poller.schedulerTurn_deadline turn scheduled)
  · obtain ⟨time, scheduler, due, -, -, outcome⟩ := Poller.schedulerTurn_eq_some turn
    have kept : droppedUnder start accounts payload = false := by
      have := keeps.at_timer (held.timers _ _ due.entry) due.reached
      rwa [Bool.not_eq_true'] at this
    cases outcome with
    | @closes context found _ _ =>
        intro event member
        rcases KeyedSet.mem_insert.mp member with pending | ⟨rfl, -⟩
        · exact held.justified event pending
        · exact .inr (held.event_justified found valid kept (fun _ => id) rfl rfl)
    | @joins context pending found _ taken _ _ =>
        intro event member
        rcases KeyedSet.mem_insert.mp member with other | ⟨rfl, -⟩
        · exact held.justified event (KeyedSet.mem_erase.mp other).1
        · exact .inr (held.event_justified found valid kept
            (fun _ => Poller.unmaskedTimeouts_has) (KeyedSet.find_eq_some.mp taken).2 rfl)
    | _ => exact held.justified

end JustifiedSince

namespace InLedger

variable {p after : Poller} {ledger : Ledger}

/-- A poll keeps the ledger, and the events it adds are justified. -/
theorem poll (held : InLedger p ledger.accounts ledger.clock) {batch : List EpollEvent}
    {waitClock eventClock schedulerClock : Word}
    (call : SoundCall (p, ledger) (.poll batch waitClock eventClock schedulerClock))
    (returned : p.poll batch waitClock eventClock schedulerClock = .ok after) :
    InLedger after (Ledger.noteAccounts p ledger.accounts
        (.poll batch waitClock eventClock schedulerClock)) schedulerClock ∧
      TimeoutsJustified p after (Ledger.noteAccounts p ledger.accounts
        (.poll batch waitClock eventClock schedulerClock)) schedulerClock := by
  obtain ⟨⟨-, -, -, watches, forward, quiet⟩, ⟨valid, fits⟩, keeps⟩ := call
  obtain ⟨processed, succeeded, rfl⟩ := Poller.poll_eq_ok returned
  have ordered := Ledger.forward_poll forward
  have both : ∀ direction : Direction, direction ∈ [Direction.read, .write] := by
    intro direction
    cases direction <;> simp
  have reported := held.processEpollEvents quiet watches ordered.1
    (fun report member context found direction => fits report member context found direction
      (both direction)) succeeded
  have sameSockets := Poller.sockets_processEpollEvents_quiet quiet succeeded
  have start : JustifiedSince processed (Ledger.noteAccounts p ledger.accounts
      (.poll batch waitClock eventClock schedulerClock)) schedulerClock schedulerClock processed :=
    ⟨reported.mono ordered.2, rfl, fun _ _ => id, fun _ => .inl⟩
  have keptMasks : processed.EveryDue schedulerClock fun fd =>
      !droppedUnder processed (Ledger.noteAccounts p ledger.accounts
        (.poll batch waitClock eventClock schedulerClock)) fd := by
    have atReports := keeps
    rw [KeepsMasks, Poller.afterReports_of_ok succeeded] at atReports
    simpa only [droppedUnder, sameSockets] using atReports
  have done := Poller.processScheduler_invariant
    (JustifiedSince processed (Ledger.noteAccounts p ledger.accounts
      (.poll batch waitClock eventClock schedulerClock)) schedulerClock schedulerClock)
    (fun _ _ _ held turn => held.turn valid keptMasks turn) start
  refine ⟨done.toInLedger, ?_⟩
  intro event member new
  rcases done.justified event member with pending | justified
  · rcases reported_not_expired succeeded event pending with old | unexpired
    · exact absurd old new
    · intro socket _ direction timedOut
      rw [unexpired direction] at timedOut
      cases timedOut
  · exact justified

/-- **Every call keeps the ledger** that meets the condition. -/
theorem step (held : InLedger p ledger.accounts ledger.clock) {op : PollerOp}
    (call : SoundCall (p, ledger) op) (returned : p.step op = .ok after) :
    InLedger after (Ledger.note p op after ledger).accounts (Ledger.note p op after ledger).clock := by
  cases Poller.step_outcome returned with
  | updateNull =>
      obtain ⟨⟨-, -, -, -, forward, -⟩, -⟩ := call
      obtain ⟨started, ordered⟩ := Ledger.forward_update forward
      exact held.mono (started.trans ordered)
  | update =>
      obtain ⟨⟨-, timed, own, -, forward, -⟩, fits, -⟩ := call
      obtain ⟨started, ordered⟩ := Ledger.forward_update forward
      refine held.updateSocket own timed.1 started ordered ?_ returned
      intro direction
      exact fits direction (by cases direction <;> simp)
  | removeNull | nextEmpty => exact held
  | remove => exact held.removeSocket call.1.2.2.1
  | poll => exact (held.poll call returned).1
  | next | signal => exact held.congr (held.toTimersAgree.congr rfl rfl) rfl rfl rfl

end InLedger

/-- **Timeouts are sound.** After a run whose calls meet the condition, a poll that meets it adds
no event that closes a socket for a timeout in a direction the socket does not wait for, or whose
step is not over. -/
theorem timeouts_are_sound {eventFd : FD} {ops : List PollerOp} {p after : Poller}
    {ledger : Ledger} {batch : List EpollEvent} {waitClock eventClock schedulerClock : Word}
    (run : Run (observed Poller.step Ledger.note) SoundCall (Poller.create eventFd, .empty) ops
      (p, ledger))
    (call : SoundCall (p, ledger) (.poll batch waitClock eventClock schedulerClock))
    (returned : p.step (.poll batch waitClock eventClock schedulerClock) = .ok after) :
    TimeoutsJustified p after (Ledger.note p (.poll batch waitClock eventClock schedulerClock) after
      ledger).accounts schedulerClock := by
  have held : InLedger p ledger.accounts ledger.clock := by
    refine run.invariant
      (fun watched => InLedger watched.1 watched.2.accounts watched.2.clock) ?_ ?_
    · exact InLedger.create eventFd 0
    · intro before op after held allowed returned
      obtain ⟨stepped, noted⟩ := observed_eq_ok.mp returned
      rw [noted]
      exact held.step allowed stepped
  exact (held.poll call returned).2

/-- A socket is registered at 5 to read within 10 and to write within 10, and reported readable
at 12. -/
def timedOps : List PollerOp :=
  [.update (some ⟨0, 7, .client⟩) (epollIn ||| epollOut) 10 5 5, .poll [⟨7, epollIn⟩] 6 12 13,
    .next 0]

def timedPoller : Poller × Ledger :=
  (checkedRun (observed Poller.step Ledger.note) SoundCall (Poller.create 3, .empty)
    timedOps).get (by decide +kernel)

/-- The poll at 20, at which the write timeout has come and the read timeout has not. -/
def timedOut : Poller :=
  match timedPoller.1.step (.poll [] 20 20 20) with
  | .ok after => after
  | .error _ => timedPoller.1

theorem timeouts_are_sound_write :
    timedOut.outEvents.elements =
        [⟨some ⟨0, 7, .client⟩, PollerEvent.close, PollerEvent.timeoutWrite⟩] ∧
      TimeoutsJustified timedPoller.1 timedOut
        (Ledger.note timedPoller.1 (.poll [] 20 20 20) timedOut timedPoller.2).accounts 20 := by
  have run : Run (observed Poller.step Ledger.note) SoundCall (Poller.create 3, .empty) timedOps
      timedPoller := Run.of_isSome _
  exact ⟨by decide +kernel, timeouts_are_sound run (by decide +kernel) rfl⟩

/-! ## A direction left out of the mask still times out -/

/-- A socket that is registered to read at 0 waits only to write from 5 on. -/
def leftOutOps : List PollerOp :=
  [.update (some ⟨0, 7, .client⟩) epollIn 10 0 0, .update (some ⟨0, 7, .client⟩) epollOut 10 5 5]

def leftOutPoller : Poller × Ledger :=
  (checkedRun (observed Poller.step Ledger.note) TimedCall (Poller.create 3, .empty)
    leftOutOps).get (by decide +kernel)

def leftOutClosed : Poller :=
  match leftOutPoller.1.step (.poll [] 10 10 10) with
  | .ok after => after
  | .error _ => leftOutPoller.1

/-- The poll at 10 closes it for a read timeout. -/
theorem timeout_of_left_out_direction :
    ¬ ∀ (eventFd : FD) (ops : List PollerOp) (p after : Poller) (ledger : Ledger)
      (batch : List EpollEvent) (waitClock eventClock schedulerClock : Word),
      Run (observed Poller.step Ledger.note) TimedCall (Poller.create eventFd, .empty) ops
        (p, ledger) →
      TimedCall (p, ledger) (.poll batch waitClock eventClock schedulerClock) →
      p.step (.poll batch waitClock eventClock schedulerClock) = .ok after →
      TimeoutsJustified p after (Ledger.note p
        (.poll batch waitClock eventClock schedulerClock) after ledger).accounts
        schedulerClock := by
  intro claim
  have run : Run (observed Poller.step Ledger.note) TimedCall (Poller.create 3, .empty) leftOutOps
      leftOutPoller := Run.of_isSome _
  have justified := claim 3 leftOutOps leftOutPoller.1 leftOutClosed leftOutPoller.2 [] 10 10 10
    run (by decide +kernel) rfl
  have added : leftOutClosed.outEvents.elements =
      [⟨some ⟨0, 7, .client⟩, PollerEvent.close, PollerEvent.timeoutRead⟩] := by decide +kernel
  have new : leftOutPoller.1.outEvents.elements = [] := by decide +kernel
  obtain ⟨account, watch, known, named, -⟩ := justified
    ⟨some ⟨0, 7, .client⟩, PollerEvent.close, PollerEvent.timeoutRead⟩
    (KeyedSet.mem_elements.mp (added ▸ List.mem_singleton_self _))
    (fun member => by
      rw [← KeyedSet.mem_elements, new] at member
      cases member) _ rfl .read (by decide)
  have mask : (Ledger.note leftOutPoller.1 (.poll [] 10 10 10) leftOutClosed
      leftOutPoller.2).accounts ⟨0, 7, .client⟩ = some account → account.mask = epollOut := by
    intro found
    have passed : ((Ledger.note leftOutPoller.1 (.poll [] 10 10 10) leftOutClosed
      leftOutPoller.2).accounts ⟨0, 7, .client⟩).map Account.mask = some epollOut := by
      decide +kernel
    rw [found] at passed
    exact Option.some.inj passed
  rw [mask known] at named
  exact absurd named (by decide)

end Jasl
