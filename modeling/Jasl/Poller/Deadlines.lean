import Jasl.Poller.Ledger

/-!
# The assertion of get_nearest_timeout

`get_nearest_timeout` asserts that a context has a deadline in some direction. It
is called after every `update_socket` with a step and after every report, whether
or not a timeout was ever set for the socket: a socket that was registered with
`INVALID_TIME` has none until a direction is reported ready, and a hangup that
comes before stops the process (`hangup_of_untimed_socket_aborts`).

`DeadlineLeft` says, of the state before a call and of its arguments, that some
direction ends up with a deadline wherever the call asks for the nearest one: the
call computes a deadline for it that is not the all-ones word, or leaves it the
deadline it has. A sequence of calls runs into the assertion exactly where that
fails (`nearest_timeout_never_fails_iff`).
-/

set_option autoImplicit false

namespace Jasl

open Library

/-! ## Deadlines of a context -/

/-- Arming leaves no deadline only when the sum with the clock is the all-ones word, and the moved
deadline is too or there is none. -/
theorem Timeout.arm_time_ne_invalid {timeout : Timeout} {timeoutStep clock : Word} :
    (timeout.arm timeoutStep clock).time ≠ invalidTime ↔
      clock + timeoutStep ≠ invalidTime ∨ (timeout.time ≠ invalidTime ∧
        timeout.time + (timeoutStep - timeout.step) ≠ invalidTime) := by
  by_cases armed : timeout.time = invalidTime
  · rw [Timeout.arm_time_of_invalid armed]
    constructor
    · exact Or.inl
    · rintro (valid | ⟨armed', -⟩)
      · exact valid
      · exact absurd armed armed'
  · by_cases moved : timeout.time + (timeoutStep - timeout.step) = invalidTime
    · have time : (timeout.arm timeoutStep clock).time = clock + timeoutStep := by
        simp [Timeout.arm, Timeout.updateTimeoutStep, armed, moved]
      rw [time]
      constructor
      · exact Or.inl
      · rintro (valid | ⟨-, moved'⟩)
        · exact valid
        · exact absurd moved moved'
    · rw [Timeout.arm_time_of_valid clock armed moved]
      exact iff_of_true moved (.inr ⟨armed, moved⟩)

namespace SocketContext

/-- The assertion fails when no direction has a deadline. -/
theorem getNearestTimeout_eq_error {context : SocketContext} {failed : Assertion} :
    context.getNearestTimeout = .error failed ↔
      failed = .noDeadline ∧ ∀ direction, (context.timeout direction).time = invalidTime := by
  rw [getNearestTimeout]
  split
  · rename_i valid
    constructor
    · simp
    · rintro ⟨-, none⟩
      rcases valid with valid | valid
      · exact absurd (none .read) valid
      · exact absurd (none .write) valid
  · rename_i invalid
    push Not at invalid
    rw [Except.error.injEq]
    constructor
    · rintro rfl
      refine ⟨rfl, ?_⟩
      intro direction
      cases direction with
      | read => exact invalid.1
      | write => exact invalid.2
    · exact fun same => same.1.symm

/-- The context after reports with these masks at one reading, the last one first. -/
def reported (context : SocketContext) (now : Word) (masks : List (BitVec 32)) : SocketContext :=
  masks.foldr (fun mask context => context.refresh mask now) context

@[simp] theorem reported_socket (context : SocketContext) (now : Word) (masks : List (BitVec 32)) :
    (context.reported now masks).socket = context.socket := by
  induction masks with
  | nil => rfl
  | cons mask masks ih => exact ih

/-- A direction that some report names counts from the reading. -/
theorem timeout_reported (context : SocketContext) (now : Word) (masks : List (BitVec 32))
    (direction : Direction) :
    (context.reported now masks).timeout direction =
      if masks.any fun mask => mask.has direction.epoll then
        (context.timeout direction).updateTimeout now
      else context.timeout direction := by
  induction masks with
  | nil => rfl
  | cons mask masks ih =>
      change ((context.reported now masks).refresh mask now).timeout direction = _
      rw [timeout_refresh, ih, List.any_cons]
      cases mask.has direction.epoll <;> cases masks.any fun mask => mask.has direction.epoll <;> rfl

/-- All reports count from one reading, so their order does not matter. -/
theorem reported_perm (context : SocketContext) (now : Word) {masks others : List (BitVec 32)}
    (perm : masks.Perm others) : context.reported now masks = context.reported now others := by
  have timeouts : ∀ direction, (context.reported now masks).timeout direction =
      (context.reported now others).timeout direction := by
    intro direction
    rw [timeout_reported, timeout_reported, perm.any_eq]
  have sockets : (context.reported now masks).socket = (context.reported now others).socket := by
    rw [reported_socket, reported_socket]
  exact SocketContext.ext sockets (timeouts .read) (timeouts .write)

/-- A direction has a deadline after reports with these masks. -/
def TimedAfter (context : SocketContext) (now : Word) (masks : List (BitVec 32))
    (direction : Direction) : Prop :=
  if masks.any fun mask => mask.has direction.epoll then
    now + (context.timeout direction).step ≠ invalidTime
  else (context.timeout direction).time ≠ invalidTime

theorem timedAfter_iff {context : SocketContext} {now : Word} {masks : List (BitVec 32)}
    {direction : Direction} :
    context.TimedAfter now masks direction ↔
      ((context.reported now masks).timeout direction).time ≠ invalidTime := by
  rw [TimedAfter, timeout_reported]
  split <;> rfl

end SocketContext

/-! ## What a call needs -/

/-- The masks of the reports on a descriptor. -/
def masksOn (fd : FD) (reports : List EpollEvent) : List (BitVec 32) :=
  (reports.filter fun report => report.data = fd).map EpollEvent.events

theorem masksOn_perm (fd : FD) {reports others : List EpollEvent} (perm : reports.Perm others) :
    (masksOn fd reports).Perm (masksOn fd others) :=
  (perm.filter _).map _

namespace Poller

/-- After each report that reaches `get_nearest_timeout`, its socket has a deadline in some
direction; `seen` are the reports before it. -/
def ReportsTimed (p : Poller) (now : Word) : List EpollEvent → List EpollEvent → Prop
  | _, [] => True
  | seen, report :: rest =>
      match p.activeSockets report.data with
      | none => True
      | some context =>
          (PollerEvent.ofReport context.socket report.events).action ≠ 0 →
            (∃ direction, context.TimedAfter now (masksOn report.data (report :: seen)) direction) ∧
              p.ReportsTimed now (report :: seen) rest

/-- Arming leaves a direction of a context a deadline. -/
def ArmsDeadline (context : SocketContext) (eventMask timeoutStep readClock writeClock : Word)
    (direction : Direction) : Prop :=
  if eventMask.has direction.epoll then
    direction.clock readClock writeClock + timeoutStep ≠ invalidTime ∨
      ((context.timeout direction).time ≠ invalidTime ∧
        (context.timeout direction).time + (timeoutStep - (context.timeout direction).step) ≠
          invalidTime)
  else (context.timeout direction).time ≠ invalidTime

/-- Wherever the call asks for the nearest deadline, some direction has one. -/
def DeadlineLeft (p : Poller) : PollerOp → Prop
  | .update (some socket) eventMask timeoutStep readClock writeClock =>
      timeoutStep = invalidTime ∨
        ∃ direction, ArmsDeadline (p.contextFor socket) eventMask (effectiveStep timeoutStep)
          readClock writeClock direction
  | .poll batch waitClock eventClock _ =>
      p.ReportsTimed eventClock []
        (delivered p.eventFd p.eventCount (p.getEpollEvents waitClock batch))
  | _ => True

theorem armsDeadline_iff {context : SocketContext}
    {eventMask timeoutStep readClock writeClock : Word} {direction : Direction} :
    ArmsDeadline context eventMask timeoutStep readClock writeClock direction ↔
      ((context.arm eventMask timeoutStep readClock writeClock).timeout direction).time ≠
        invalidTime := by
  rw [ArmsDeadline, SocketContext.timeout_arm]
  split
  · exact Timeout.arm_time_ne_invalid.symm
  · exact Iff.rfl

/-! ## One call -/

theorem setTimeout_eq_error {p : Poller} {fd : FD} {context : SocketContext}
    {eventMask timeoutStep readClock writeClock : Word} :
    p.setTimeout fd context eventMask timeoutStep readClock writeClock = .error .noDeadline ↔
      ¬ (timeoutStep = invalidTime ∨ ∃ direction, ArmsDeadline context eventMask
        (effectiveStep timeoutStep) readClock writeClock direction) := by
  simp only [armsDeadline_iff]
  rw [setTimeout]
  split
  · rename_i untimed
    simp [untimed]
  · rename_i timed
    simp only [addToScheduler]
    split
    · rename_i failed fails
      obtain ⟨rfl, none⟩ := SocketContext.getNearestTimeout_eq_error.mp fails
      simp [timed, none]
    · rename_i nearest succeeded
      constructor
      · simp
      · intro left
        push Not at left
        have fails := SocketContext.getNearestTimeout_eq_error.mpr ⟨rfl, left.2⟩
        rw [succeeded] at fails
        cases fails

/-- `update_socket` runs into the assertion exactly when no direction has a deadline. -/
theorem updateSocket_eq_error {p : Poller} {socket : SocketPtr}
    {eventMask timeoutStep readClock writeClock : Word} :
    p.updateSocket (some socket) eventMask timeoutStep readClock writeClock =
        .error .noDeadline ↔
      ¬ p.DeadlineLeft (.update (some socket) eventMask timeoutStep readClock writeClock) := by
  rw [DeadlineLeft]
  simp only [updateSocket]
  cases found : p.activeSockets socket.fd with
  | none =>
      rw [contextFor_of_none found]
      constructor
      · intro fails
        dsimp only at fails
        split at fails
        · rename_i failed set
          obtain rfl := Except.error.inj fails
          exact setTimeout_eq_error.mp set
        · cases fails
      · intro untimed
        rw [setTimeout_eq_error.mpr untimed]
  | some context =>
      rw [contextFor_of_some found]
      constructor
      · intro fails
        dsimp only at fails
        split at fails
        · rename_i failed set
          obtain rfl := Except.error.inj fails
          exact setTimeout_eq_error.mp set
        · cases fails
      · intro untimed
        dsimp only
        rw [setTimeout_eq_error.mpr untimed]

/-- The three ways a report on a registered descriptor ends. -/
theorem processReport_outcome {p : Poller} {report : EpollEvent} (now : Word)
    {context : SocketContext} (found : p.activeSockets report.data = some context) :
    ((PollerEvent.ofReport context.socket report.events).action = 0 ∧
      p.processReport report now = .error .emptyEvent) ∨
    ((PollerEvent.ofReport context.socket report.events).action ≠ 0 ∧
      (∀ direction, ((context.refresh report.events now).timeout direction).time = invalidTime) ∧
      p.processReport report now = .error .noDeadline) ∨
    ((PollerEvent.ofReport context.socket report.events).action ≠ 0 ∧
      (∃ direction, ((context.refresh report.events now).timeout direction).time ≠ invalidTime) ∧
      ∃ next, p.processReport report now = .ok next) := by
  simp only [processReport, found]
  rw [SocketContext.refresh_socket]
  by_cases action : (PollerEvent.ofReport context.socket report.events).action = 0
  · rw [if_pos action]
    exact .inl ⟨action, rfl⟩
  · rw [if_neg action]
    refine .inr ?_
    cases asked : (context.refresh report.events now).getNearestTimeout with
    | error failed =>
        obtain ⟨rfl, none⟩ := SocketContext.getNearestTimeout_eq_error.mp asked
        exact .inl ⟨action, none, rfl⟩
    | ok nearest =>
        refine .inr ⟨action, ?_, _, rfl⟩
        by_contra none
        push Not at none
        have fails := SocketContext.getNearestTimeout_eq_error.mpr ⟨rfl, none⟩
        rw [asked] at fails
        cases fails

/-! ## The loop over the reports -/

/-- The contexts after some reports of a batch. -/
def Refreshed (p : Poller) (now : Word) (seen : List EpollEvent) (q : Poller) : Prop :=
  ∀ fd, q.activeSockets fd =
    (p.activeSockets fd).map fun context => context.reported now (masksOn fd seen)

theorem masksOn_cons (fd : FD) (report : EpollEvent) (seen : List EpollEvent) :
    masksOn fd (report :: seen) =
      if report.data = fd then report.events :: masksOn fd seen else masksOn fd seen := by
  rw [masksOn, List.filter_cons]
  split <;> simp_all [masksOn]

theorem Refreshed.start (p : Poller) (now : Word) : p.Refreshed now [] p := by
  intro fd
  change p.activeSockets fd = (p.activeSockets fd).map id
  rw [Option.map_id_fun, id]

/-- In which order the reports were processed is not seen. -/
theorem Refreshed.perm {p q : Poller} {now : Word} {seen others : List EpollEvent}
    (refreshed : p.Refreshed now seen q) (perm : seen.Perm others) : p.Refreshed now others q := by
  intro fd
  simp only [refreshed fd, SocketContext.reported_perm _ now (masksOn_perm fd perm)]

/-- A report goes on refreshing the contexts. -/
theorem Refreshed.processReport {p q next : Poller} {now : Word} {seen : List EpollEvent}
    {report : EpollEvent} (refreshed : p.Refreshed now seen q)
    (processed : q.processReport report now = .ok next) :
    p.Refreshed now (report :: seen) next := by
  obtain ⟨context, effect⟩ := processReport_eq_ok processed
  intro fd
  rw [effect.activeSockets, masksOn_cons]
  by_cases same : report.data = fd
  · subst same
    have found := effect.found
    rw [refreshed report.data, Option.map_eq_some_iff] at found
    obtain ⟨start, there, rfl⟩ := found
    rw [Function.update_self, there, if_pos rfl]
    rfl
  · rw [Function.update_of_ne (Ne.symm same), if_neg same]
    exact refreshed fd

/-- The three ways a report ends, told by the context before the batch. -/
theorem Refreshed.outcome {p q : Poller} {now : Word} {seen : List EpollEvent}
    {report : EpollEvent} {context : SocketContext} (refreshed : p.Refreshed now seen q)
    (there : p.activeSockets report.data = some context) :
    ((PollerEvent.ofReport context.socket report.events).action = 0 ∧
      q.processReport report now = .error .emptyEvent) ∨
    ((PollerEvent.ofReport context.socket report.events).action ≠ 0 ∧
      (∀ direction,
        ¬ context.TimedAfter now (masksOn report.data (report :: seen)) direction) ∧
      q.processReport report now = .error .noDeadline) ∨
    ((PollerEvent.ofReport context.socket report.events).action ≠ 0 ∧
      (∃ direction, context.TimedAfter now (masksOn report.data (report :: seen)) direction) ∧
      ∃ next, q.processReport report now = .ok next) := by
  have stored := refreshed report.data
  rw [there, Option.map_some] at stored
  have outcome := processReport_outcome now stored
  rw [SocketContext.reported_socket] at outcome
  have reported : context.reported now (masksOn report.data (report :: seen)) =
      (context.reported now (masksOn report.data seen)).refresh report.events now := by
    rw [masksOn_cons, if_pos rfl]
    rfl
  simp only [SocketContext.timedAfter_iff, reported, not_not]
  exact outcome

/-- **The loop runs into the assertion** at the first report that leaves no deadline. -/
theorem processReports_eq_error {p : Poller} {now : Word} {batch : List EpollEvent} :
    ∀ {q : Poller} {seen : List EpollEvent}, p.Refreshed now seen q →
      (q.processReports now batch = .error .noDeadline ↔
        ¬ p.ReportsTimed now seen (delivered q.eventFd q.eventCount batch)) := by
  induction batch with
  | nil =>
      intro q seen _
      exact iff_of_false (by simp [processReports]) (not_not.mpr trivial)
  | cons report rest ih =>
      intro q seen refreshed
      rw [processReports, delivered]
      by_cases signalled : report.data = q.eventFd
      · simp only [if_pos signalled, processSignal]
        by_cases stops : stopValue ≤ q.eventCount
        · simp only [if_pos stops]
          rw [if_neg (not_not.mpr rfl), if_pos (Or.inr stops)]
          exact iff_of_false (by simp) (not_not.mpr trivial)
        · simp only [if_neg stops]
          by_cases empty : q.eventCount = 0
          · rw [if_neg (not_not.mpr empty), if_pos (Or.inl empty)]
            exact iff_of_false (by simp) (not_not.mpr trivial)
          · rw [if_pos empty, if_neg (by simp [empty, stops])]
            exact ih refreshed
      · simp only [if_neg signalled]
        rw [ReportsTimed]
        cases there : p.activeSockets report.data with
        | none =>
            have stored := refreshed report.data
            rw [there, Option.map_none] at stored
            have invalid : q.processReport report now = .error .invalidSocketDescriptor := by
              simp only [Poller.processReport, stored]
            simp only [invalid]
            exact iff_of_false (by simp) (not_not.mpr trivial)
        | some context =>
            rcases refreshed.outcome there with ⟨action, fails⟩ | ⟨action, none, fails⟩ |
              ⟨action, timed, next, processed⟩
            · simp only [fails]
              exact iff_of_false (by simp) (not_not.mpr fun acts => absurd action acts)
            · simp only [fails]
              refine iff_of_true trivial fun reports => ?_
              obtain ⟨direction, left⟩ := (reports action).1
              exact none direction left
            · simp only [processed]
              obtain ⟨_, effect⟩ := processReport_eq_ok processed
              rw [ih (refreshed.processReport processed), effect.eventFd, effect.eventCount]
              constructor
              · intro later reports
                exact later (reports action).2
              · intro reports later
                exact reports fun _ => ⟨timed, later⟩

/-! ## Sequences of calls -/

/-- A call runs into the assertion exactly when it leaves no deadline somewhere. -/
theorem step_eq_error {p : Poller} {op : PollerOp} :
    p.step op = .error .noDeadline ↔ ¬ p.DeadlineLeft op := by
  cases op with
  | update socket eventMask timeoutStep readClock writeClock =>
      cases socket with
      | none => exact iff_of_false (by simp [step, updateSocket]) (not_not.mpr trivial)
      | some socket => exact updateSocket_eq_error
  | poll batch waitClock eventClock schedulerClock =>
      rw [DeadlineLeft, ← processReports_eq_error (.start p eventClock)]
      simp only [step, poll, processEpollEvents]
      cases p.processReports eventClock (p.getEpollEvents waitClock batch) with
      | error failed => simp
      | ok left =>
          obtain ⟨left, toEnd⟩ := left
          cases toEnd <;> simp
  | _ => exact iff_of_false (by simp [step]) (not_not.mpr trivial)

end Poller

/-- **Where the assertion fails**: a sequence of calls, with any masks, steps and reports, never
runs into the assertion of `get_nearest_timeout` if and only if every call of it leaves a deadline
in the state it is made in. -/
theorem nearest_timeout_never_fails_iff (eventFd : FD) (ops : List PollerOp) :
    perform Poller.step (Poller.create eventFd) ops ≠ .error .noDeadline ↔
      ∀ before op after p, ops = before ++ op :: after →
        Run Poller.step (fun _ _ => True) (Poller.create eventFd) before p →
          p.DeadlineLeft op := by
  rw [ne_eq, perform_eq_error]
  constructor
  · intro never before op after p split run
    by_contra none
    exact never ⟨before, op, after, p, split, run, Poller.step_eq_error.mpr none⟩
  · rintro always ⟨before, op, after, p, split, run, fails⟩
    exact Poller.step_eq_error.mp fails (always before op after p split run)

/-- What callers and kernel do: masks name directions, and a report is not empty and within what
the kernel was asked to watch, a hangup or an error. -/
def Poller.Plausible (p : Poller) (op : PollerOp) : Prop :=
  p.OwnDescriptor op ∧ op.NamesDirections ∧
    ∀ report ∈ p.deliveredReports op, report.events ≠ 0 ∧ watches p.epollFd report = true

instance (p : Poller) (op : PollerOp) : Decidable (p.Plausible op) :=
  inferInstanceAs (Decidable (_ ∧ _ ∧ _))

/-- A socket is registered for reading without a timeout. -/
def untimedClient : Poller :=
  (checkedRun Poller.step Poller.Plausible (Poller.create 3)
    [.update (some ⟨0, 7, .client⟩) epollIn invalidTime 0 0]).get (by decide +kernel)

/-- Its peer hangs up, and the process stops. -/
theorem hangup_of_untimed_socket_aborts :
    ¬ ∀ (eventFd : FD) (ops : List PollerOp) (p : Poller) (op : PollerOp),
      Run Poller.step Poller.Plausible (Poller.create eventFd) ops p → p.Plausible op →
        p.step op ≠ .error .noDeadline := by
  intro claim
  exact claim 3 _ untimedClient (.poll [⟨7, epollHup⟩] 1 2 2) (Run.of_isSome _)
    (by decide +kernel) rfl

end Jasl
