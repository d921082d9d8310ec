import Jasl.Memory.SharedQueue

/-!
# The queue with a spinlock

`MPSCQueue<T, Spinlock>`: `push` of `SPSCQueue<T, true>` under a spinlock, for any
number of threads, and `pop` without it. The lock is tested before it is tried
again: a `compare_exchange_strong` that fails is followed by loads of `m_lock`
until one reads false, and then by the next `compare_exchange_strong`. Every one
of these, and the store of `unlock`, is a step; the backoff policies do nothing
that is seen.

A thread inside `SPSCQueue::push` holds the lock, so it is alone there and the
shared queue is in order. The history has an entry for each time the lock was
taken; the values accepted, in the order in which the lock was taken for them,
are the values the queue accepted, and so what is popped is a beginning of them
(`mpsc_queue_loses_nothing`).
-/

set_option autoImplicit false

namespace Jasl

open Library

universe u v

/-- Where a thread stands in `MPSCQueue::push`. -/
inductive PushStage (α : Type u) where
  | idle
  /-- `Spinlock::lock` is about to compare and exchange. -/
  | locking (value : α)
  /-- The exchange failed: it loads `m_lock` until it is false. -/
  | spinning (value : α)
  /-- The lock is taken, and `SPSCQueue::push` is about to be called. -/
  | entering (value : α)
  /-- The thread is inside `SPSCQueue::push`. -/
  | pushing
  /-- `SPSCQueue::push` has returned. -/
  | unlocking

namespace PushStage

variable {α : Type u}

/-- The thread is between `lock` and `unlock`. -/
def locked : PushStage α → Bool
  | .entering _ | .pushing | .unlocking => true
  | _ => false

/-- The value that the thread has come to push, before it has the lock. -/
def waiting : PushStage α → List α
  | .locking value | .spinning value => [value]
  | _ => []

end PushStage

/-- An `MPSCQueue` with the threads that push and the one that pops. -/
structure Mpsc (ι : Type v) (α : Type u) where
  shared : SharedQueue ι α
  /-- `m_lock`. -/
  lock : Bool
  stages : ι → PushStage α

/-- A step of a thread: the first one of a call, or the next one of the call it is in. -/
inductive MpscOp (ι : Type v) (α : Type u) where
  | push (thread : ι) (value : α)
  | thread (thread : ι)
  | pop (headFirst : Bool)
  | consumer

namespace Mpsc

variable {ι : Type v} {α : Type u}

def create [Inhabited α] (maxSize : Word) : Mpsc ι α := ⟨.create maxSize, false, fun _ => .idle⟩

variable [DecidableEq ι]

def setStage (s : Mpsc ι α) (thread : ι) (stage : PushStage α) : Mpsc ι α :=
  { s with stages := Function.update s.stages thread stage }

@[simp] theorem setStage_stages (s : Mpsc ι α) (thread : ι) (stage : PushStage α) :
    (s.setStage thread stage).stages = Function.update s.stages thread stage := rfl

@[simp] theorem setStage_shared (s : Mpsc ι α) (thread : ι) (stage : PushStage α) :
    (s.setStage thread stage).shared = s.shared := rfl

@[simp] theorem setStage_lock (s : Mpsc ι α) (thread : ι) (stage : PushStage α) :
    (s.setStage thread stage).lock = s.lock := rfl

/-- The next step of `push`. -/
def threadStep (s : Mpsc ι α) (thread : ι) : Except OutOfTurn (Mpsc ι α) :=
  match s.stages thread with
  | .idle => .error .outOfTurn
  | .locking value =>
      if s.lock then .ok (s.setStage thread (.spinning value))
      else .ok { s.setStage thread (.entering value) with lock := true }
  | .spinning value =>
      if s.lock then .ok s else .ok (s.setStage thread (.locking value))
  | .entering value =>
      match s.shared.step (.push thread value) with
      | .error failed => .error failed
      | .ok shared => .ok { s.setStage thread .pushing with shared }
  | .pushing =>
      match s.shared.step (.producer thread) with
      | .error failed => .error failed
      | .ok shared =>
          if (shared.producers thread).inside then .ok { s with shared }
          else .ok { s.setStage thread .unlocking with shared }
  | .unlocking => .ok { s.setStage thread .idle with lock := false }

def step (s : Mpsc ι α) : MpscOp ι α → Except OutOfTurn (Mpsc ι α)
  | .push thread value =>
      match s.stages thread with
      | .idle => .ok (s.setStage thread (.locking value))
      | _ => .error .outOfTurn
  | .thread thread => s.threadStep thread
  | .pop headFirst =>
      match s.shared.step (.pop headFirst) with
      | .error failed => .error failed
      | .ok shared => .ok { s with shared }
  | .consumer =>
      match s.shared.step .consumer with
      | .error failed => .error failed
      | .ok shared => .ok { s with shared }

end Mpsc

/-! ## The history -/

/-- The lock was taken, by a thread that has come to push a value. -/
structure Acquisition (ι : Type v) (α : Type u) where
  thread : ι
  value : α
  /-- The push found room, and so returns true. -/
  accepted : Bool

/-- What happened to a queue. -/
structure MpscHistory (ι : Type v) (α : Type u) where
  queue : SpscHistory α
  /-- The values that each thread came to push, in this order. -/
  calls : ι → List α
  /-- The times the lock was taken, the last one first. -/
  acquired : List (Acquisition ι α)

namespace MpscHistory

variable {ι : Type v} {α : Type u}

def empty : MpscHistory ι α := ⟨.empty, fun _ => [], []⟩

/-- The pushes that were accepted, in the order in which the lock was taken for them. -/
def accepted (h : MpscHistory ι α) : List (Acquisition ι α) :=
  h.acquired.reverse.filter Acquisition.accepted

theorem accepted_cons (h : MpscHistory ι α) (thread : ι) (value : α) :
    accepted { h with acquired := ⟨thread, value, false⟩ :: h.acquired } = h.accepted := by
  rw [accepted, accepted, List.reverse_cons, List.filter_append, List.filter_singleton]
  exact List.append_nil _

variable [DecidableEq ι]

/-- The times a thread took the lock. -/
def acquiredBy (h : MpscHistory ι α) (thread : ι) : List (Acquisition ι α) :=
  h.acquired.reverse.filter fun acquisition => acquisition.thread = thread

/-- The thread's last push is accepted. -/
def accept (thread : ι) : List (Acquisition ι α) → List (Acquisition ι α)
  | [] => []
  | acquisition :: earlier =>
      if acquisition.thread = thread then { acquisition with accepted := true } :: earlier
      else acquisition :: accept thread earlier

/-- What a step of `push` adds. -/
def noteThread (s : Mpsc ι α) (thread : ι) (h : MpscHistory ι α) : MpscHistory ι α :=
  match s.stages thread with
  | .locking value =>
      if s.lock then h else { h with acquired := ⟨thread, value, false⟩ :: h.acquired }
  | .pushing =>
      let queue := SharedQueue.note s.shared (.producer thread) h.queue
      match s.shared.producers thread with
      | .loadedHead _ head =>
          if s.shared.queue.increment head = s.shared.queue.tail then { h with queue }
          else { h with queue, acquired := accept thread h.acquired }
      | _ => { h with queue }
  | _ => h

def note (before : Mpsc ι α) (op : MpscOp ι α) (_ : Mpsc ι α) (h : MpscHistory ι α) :
    MpscHistory ι α :=
  match op with
  | .push thread value =>
      { h with calls := Function.update h.calls thread (h.calls thread ++ [value]) }
  | .thread thread => noteThread before thread h
  | .pop headFirst => { h with queue := SharedQueue.note before.shared (.pop headFirst) h.queue }
  | .consumer => { h with queue := SharedQueue.note before.shared .consumer h.queue }

/-- Accepting a push changes neither whose it is in any entry nor the value. -/
theorem accept_by (thread other : ι) : ∀ acquired : List (Acquisition ι α),
    ((accept thread acquired).filter fun acquisition => acquisition.thread = other).map
        Acquisition.value =
      (acquired.filter fun acquisition => acquisition.thread = other).map Acquisition.value
  | [] => rfl
  | acquisition :: earlier => by
      rw [accept]
      split
      · rw [List.filter_cons, List.filter_cons]
        split <;> rfl
      · rw [List.filter_cons, List.filter_cons]
        split
        · rw [List.map_cons, List.map_cons, accept_by thread other earlier]
        · exact accept_by thread other earlier

/-- Whose push is accepted is of no consequence for whose pushes there are. -/
theorem acquiredBy_accept (h : MpscHistory ι α) (queue : SpscHistory α) (thread other : ι) :
    (acquiredBy { h with queue, acquired := accept thread h.acquired } other).map
        Acquisition.value =
      (h.acquiredBy other).map Acquisition.value := by
  rw [acquiredBy, acquiredBy, List.filter_reverse, List.filter_reverse, List.map_reverse,
    List.map_reverse, accept_by]

theorem acquiredBy_cons (h : MpscHistory ι α) (acquisition : Acquisition ι α) (other : ι) :
    (acquiredBy { h with acquired := acquisition :: h.acquired } other).map Acquisition.value =
      (h.acquiredBy other).map Acquisition.value ++
        if acquisition.thread = other then [acquisition.value] else [] := by
  rw [acquiredBy, List.reverse_cons, List.filter_append, List.map_append, List.filter_singleton]
  split
  · rename_i same
    rw [decide_eq_true same]
    rfl
  · rename_i other
    rw [decide_eq_false other]
    rfl

/-- The last acquisition is accepted. -/
theorem accepted_accept (h : MpscHistory ι α) (queue : SpscHistory α) {thread : ι} {value : α}
    {earlier : List (Acquisition ι α)} (last : h.acquired = ⟨thread, value, false⟩ :: earlier) :
    (accepted { h with queue, acquired := accept thread h.acquired }).map Acquisition.value =
      h.accepted.map Acquisition.value ++ [value] := by
  rw [accepted, accepted, last, accept, if_pos rfl, List.reverse_cons, List.reverse_cons,
    List.filter_append, List.filter_append, List.map_append, List.map_append]
  simp

end MpscHistory

/-! ## What holds in every state -/

namespace Mpsc

variable {ι : Type v} {α : Type u} [DecidableEq ι]

/-- Only the thread that holds the lock is inside the queue, the last acquisition is its own, and
the queue has accepted what was accepted under the lock. -/
structure Orderly (maxSize : ℕ) (s : Mpsc ι α) (h : MpscHistory ι α) : Prop where
  order : SharedInOrder maxSize s.shared h.queue
  lock : ∀ thread, (s.stages thread).locked = true → s.lock = true
  unique : ∀ thread other, (s.stages thread).locked = true → (s.stages other).locked = true →
    thread = other
  outside : ∀ thread, s.stages thread ≠ .pushing → s.shared.producers thread = .idle
  entering : ∀ thread value, s.stages thread = .entering value →
    ∃ earlier, h.acquired = ⟨thread, value, false⟩ :: earlier
  loaded : ∀ thread value head, s.shared.producers thread = .loadedHead value head →
    ∃ earlier, h.acquired = ⟨thread, value, false⟩ :: earlier
  accepted : h.queue.accepted = h.accepted.map Acquisition.value
  calls : ∀ thread, h.calls thread =
    (h.acquiredBy thread).map Acquisition.value ++ (s.stages thread).waiting

/-- What holds of a stage after one was set holds of the new stage, or of one that was there. -/
theorem setStage_cases {s : Mpsc ι α} {thread other : ι} {stage : PushStage α}
    (holds : PushStage α → Prop) (there : holds ((s.setStage thread stage).stages other)) :
    (other = thread ∧ holds stage) ∨ (other ≠ thread ∧ holds (s.stages other)) := by
  by_cases same : other = thread
  · rw [same, setStage_stages, Function.update_self] at there
    exact .inl ⟨same, there⟩
  · rw [setStage_stages, Function.update_of_ne same] at there
    exact .inr ⟨same, there⟩

namespace Orderly

variable {maxSize : ℕ} {s after : Mpsc ι α} {h : MpscHistory ι α}

theorem create [Inhabited α] {bound : Word} (fits : bound.toNat < 2 ^ 64 - 1) :
    Orderly bound.toNat (Mpsc.create bound : Mpsc ι α) .empty where
  order := .create fits
  lock := nofun
  unique := nofun
  outside := fun _ _ => rfl
  entering := nofun
  loaded := nofun
  accepted := rfl
  calls := fun _ => rfl

/-- The popping thread takes a step. -/
theorem consume (orderly : Orderly maxSize s h) {op : SharedOp ι α}
    (pops : op = .consumer ∨ ∃ headFirst, op = .pop headFirst) {shared : SharedQueue ι α}
    (stepped : s.shared.step op = .ok shared) :
    Orderly maxSize { s with shared } { h with queue := SharedQueue.note s.shared op h.queue } := by
  have same : shared.producers = s.shared.producers := SharedQueue.step_producers pops stepped
  have alone : s.shared.Alone op := by
    rcases pops with rfl | ⟨headFirst, rfl⟩ <;> trivial
  have accepted : (SharedQueue.note s.shared op h.queue).accepted = h.queue.accepted := by
    rcases pops with rfl | ⟨headFirst, rfl⟩
    · exact SharedQueue.noteConsumer_accepted _ _
    · cases headFirst <;> rfl
  exact
    { orderly with
      order := orderly.order.step alone stepped
      outside := by
        intro thread other
        change shared.producers thread = .idle
        rw [same]
        exact orderly.outside thread other
      loaded := by
        intro thread value head place
        change shared.producers thread = _ at place
        rw [same] at place
        exact orderly.loaded thread value head place
      accepted := accepted.trans orderly.accepted }

/-- A thread that has not got the lock takes a step, and still has not. -/
theorem outsideStep (orderly : Orderly maxSize s h) {thread : ι} {stage : PushStage α}
    (unlocked : (s.stages thread).locked = false) (stays : stage.locked = false)
    {calls : ι → List α} (others : ∀ other, other ≠ thread → calls other = h.calls other)
    (own : calls thread = (h.acquiredBy thread).map Acquisition.value ++ stage.waiting) :
    Orderly maxSize (s.setStage thread stage) { h with calls } where
  order := orderly.order
  lock := by
    intro other locked
    rcases setStage_cases (·.locked = true) locked with ⟨-, here⟩ | ⟨-, there⟩
    · rw [stays] at here
      cases here
    · exact orderly.lock other there
  unique := by
    intro first second firstLocked secondLocked
    rcases setStage_cases (·.locked = true) firstLocked with ⟨-, here⟩ | ⟨-, firstThere⟩
    · rw [stays] at here
      cases here
    · rcases setStage_cases (·.locked = true) secondLocked with ⟨-, here⟩ | ⟨-, secondThere⟩
      · rw [stays] at here
        cases here
      · exact orderly.unique first second firstThere secondThere
  outside := by
    intro other notPushing
    rcases setStage_cases (· ≠ .pushing) notPushing with ⟨rfl, -⟩ | ⟨-, there⟩
    · refine orderly.outside other fun pushing => ?_
      rw [pushing] at unlocked
      cases unlocked
    · exact orderly.outside other there
  entering := by
    intro other value entering
    rcases setStage_cases (· = .entering value) entering with ⟨-, here⟩ | ⟨-, there⟩
    · rw [here] at stays
      cases stays
    · exact orderly.entering other value there
  loaded := orderly.loaded
  accepted := orderly.accepted
  calls := by
    intro other
    by_cases same : other = thread
    · rw [same, setStage_stages, Function.update_self]
      exact own
    · rw [setStage_stages, Function.update_of_ne same]
      exact (others other same).trans (orderly.calls other)

/-- With the lock taken by one thread, no other is inside. -/
theorem others (orderly : Orderly maxSize s h) {thread : ι} (locked : (s.stages thread).locked = true)
    {other : ι} (different : other ≠ thread) : (s.stages other).locked = false := by
  by_contra also
  rw [Bool.not_eq_false] at also
  exact different (orderly.unique other thread also locked)

/-- A thread takes a step while no other has the lock. -/
theorem lockedStep (orderly : Orderly maxSize s h) {thread : ι}
    (others : ∀ other, other ≠ thread → (s.stages other).locked = false)
    {shared : SharedQueue ι α} {lock : Bool} {stage : PushStage α} {noted : MpscHistory ι α}
    (order : SharedInOrder maxSize shared noted.queue)
    (producers : ∀ other, other ≠ thread → shared.producers other = s.shared.producers other)
    (locks : stage.locked = true → lock = true)
    (outside : stage ≠ .pushing → shared.producers thread = .idle)
    (entering : ∀ value, stage = .entering value →
      ∃ earlier, noted.acquired = ⟨thread, value, false⟩ :: earlier)
    (loaded : ∀ value head, shared.producers thread = .loadedHead value head →
      ∃ earlier, noted.acquired = ⟨thread, value, false⟩ :: earlier)
    (accepted : noted.queue.accepted = noted.accepted.map Acquisition.value)
    (calls : ∀ other, noted.calls other = (noted.acquiredBy other).map Acquisition.value ++
      (Function.update s.stages thread stage other).waiting) :
    Orderly maxSize ⟨shared, lock, Function.update s.stages thread stage⟩ noted := by
  have alone : ∀ other, ((s.setStage thread stage).stages other).locked = true →
      other = thread ∧ stage.locked = true := by
    intro other locked
    rcases setStage_cases (·.locked = true) locked with own | ⟨different, there⟩
    · exact own
    · rw [others other different] at there
      cases there
  have idle : ∀ other, other ≠ thread → shared.producers other = .idle := by
    intro other different
    rw [producers other different]
    apply orderly.outside
    intro pushing
    have unlocked := others other different
    rw [pushing] at unlocked
    cases unlocked
  refine ⟨order, ?_, ?_, ?_, ?_, ?_, accepted, calls⟩
  · exact fun other locked => locks (alone other locked).2
  · exact fun first second firstLocked secondLocked =>
      (alone first firstLocked).1.trans (alone second secondLocked).1.symm
  · intro other notPushing
    rcases setStage_cases (· ≠ .pushing) notPushing with ⟨rfl, own⟩ | ⟨different, -⟩
    · exact outside own
    · exact idle other different
  · intro other value isEntering
    rcases setStage_cases (· = .entering value) isEntering with ⟨rfl, own⟩ | ⟨different, there⟩
    · exact entering value own
    · have unlocked := others other different
      rw [there] at unlocked
      cases unlocked
  · intro other value head place
    by_cases same : other = thread
    · rw [same]
      exact loaded value head (same ▸ place)
    · exact absurd ((idle other same).symm.trans place) nofun

/-- What a thread has called for stays, when it goes on without waiting. -/
theorem calls_update (orderly : Orderly maxSize s h) {thread : ι} {stage : PushStage α}
    (waits : stage.waiting = (s.stages thread).waiting) (other : ι) :
    h.calls other = (h.acquiredBy other).map Acquisition.value ++
      (Function.update s.stages thread stage other).waiting := by
  rw [orderly.calls other]
  by_cases same : other = thread
  · rw [same, Function.update_self, waits]
  · rw [Function.update_of_ne same]

/-- A thread takes the lock, which is free. -/
theorem acquire (orderly : Orderly maxSize s h) {thread : ι} {value : α}
    (stage : s.stages thread = .locking value) (free : ¬s.lock = true) :
    Orderly maxSize { s.setStage thread (.entering value) with lock := true }
      { h with acquired := ⟨thread, value, false⟩ :: h.acquired } := by
  have unlocked : ∀ other, (s.stages other).locked = false := by
    intro other
    by_contra locked
    rw [Bool.not_eq_false] at locked
    exact free (orderly.lock other locked)
  have idle : s.shared.producers thread = .idle := by
    apply orderly.outside
    rw [stage]
    exact nofun
  refine orderly.lockedStep (fun other _ => unlocked other) orderly.order (fun _ _ => rfl)
    (fun _ => rfl) (fun _ => idle) ?_ ?_ ?_ ?_
  · rintro other ⟨⟩
    exact ⟨h.acquired, rfl⟩
  · intro other head place
    exact absurd (idle.symm.trans place) nofun
  · rw [MpscHistory.accepted_cons]
    exact orderly.accepted
  · intro other
    rw [MpscHistory.acquiredBy_cons]
    by_cases same : thread = other
    · subst same
      have waiting := orderly.calls thread
      rw [stage] at waiting
      rw [if_pos rfl, Function.update_self]
      exact waiting.trans (List.append_nil _).symm
    · rw [if_neg same, List.append_nil, Function.update_of_ne (Ne.symm same)]
      exact orderly.calls other

/-- The thread with the lock begins `SPSCQueue::push`. -/
theorem enter (orderly : Orderly maxSize s h) {thread : ι} {value : α}
    {shared : SharedQueue ι α} (stage : s.stages thread = .entering value)
    (entered : s.shared.step (.push thread value) = .ok shared) :
    Orderly maxSize { s.setStage thread .pushing with shared } h := by
  have locked : (s.stages thread).locked = true := by
    rw [stage]
    rfl
  have alone : s.shared.Alone (.push thread value) := by
    intro other
    apply orderly.outside
    by_cases same : other = thread
    · rw [same, stage]
      exact nofun
    · intro pushing
      have unlocked := orderly.others locked same
      rw [pushing] at unlocked
      cases unlocked
  have order := orderly.order.step alone entered
  obtain ⟨idle, rfl⟩ := SharedQueue.step_push entered
  refine orderly.lockedStep (fun other => orderly.others locked) order ?_
    (fun _ => orderly.lock thread locked) ?_ nofun ?_ orderly.accepted
    (orderly.calls_update (by rw [stage]; rfl))
  · exact fun other different => Function.update_of_ne different ..
  · exact fun other => absurd rfl other
  · intro other head place
    have loaded := (Function.update_self ..).symm.trans place
    obtain ⟨rfl, -⟩ := Producer.loadedHead.inj loaded
    exact orderly.entering thread value stage

/-- A step inside `SPSCQueue::push`, which returns or not. -/
theorem pushing (orderly : Orderly maxSize s h) {thread : ι} {shared : SharedQueue ι α}
    (stage : s.stages thread = .pushing)
    (stepped : s.shared.step (.producer thread) = .ok shared)
    {next : PushStage α} (returns : (shared.producers thread = .idle ∧ next = .unlocking) ∨
      (shared.producers thread ≠ .idle ∧ next = .pushing)) :
    Orderly maxSize ⟨shared, s.lock, Function.update s.stages thread next⟩
      (MpscHistory.noteThread s thread h) := by
  have locked : (s.stages thread).locked = true := by
    rw [stage]
    rfl
  have alone : s.shared.Alone (.producer thread) := trivial
  have order := orderly.order.step alone stepped
  obtain ⟨producer, producers, -, move⟩ := SharedQueue.step_producer h.queue stepped
  have own : shared.producers thread = producer := by
    rw [producers, Function.update_self]
  rw [own] at returns
  have waits : next.waiting = (s.stages thread).waiting := by
    rw [stage]
    rcases returns with ⟨-, rfl⟩ | ⟨-, rfl⟩ <;> rfl
  have step : ∀ noted : MpscHistory ι α, SharedInOrder maxSize shared noted.queue →
      (∀ value head, producer ≠ .loadedHead value head) →
      noted.queue.accepted = noted.accepted.map Acquisition.value →
      (∀ other, noted.calls other = (noted.acquiredBy other).map Acquisition.value ++
        (Function.update s.stages thread next other).waiting) →
      Orderly maxSize ⟨shared, s.lock, Function.update s.stages thread next⟩ noted := by
    intro noted order notLoaded accepted calls
    refine orderly.lockedStep (fun other => orderly.others locked) order ?_ ?_ ?_ ?_ ?_ accepted calls
    · intro other different
      rw [producers, Function.update_of_ne different]
    · exact fun _ => orderly.lock thread locked
    · intro notPushing
      rw [own]
      rcases returns with ⟨idle, -⟩ | ⟨-, pushing⟩
      · exact idle
      · exact absurd pushing notPushing
    · intro value entering
      rcases returns with ⟨-, rfl⟩ | ⟨-, rfl⟩ <;> cases entering
    · intro value head place
      exact absurd (own.symm.trans place) (notLoaded value head)
  rw [MpscHistory.noteThread, stage]
  generalize place : s.shared.producers thread = before at move
  generalize noted : SharedQueue.note s.shared (.producer thread) h.queue = queue at move order ⊢
  cases move with
  | refused full =>
      simp only [if_pos full]
      exact step _ order nofun orderly.accepted (orderly.calls_update waits)
  | @finds value head room =>
      obtain ⟨earlier, last⟩ := orderly.loaded thread value head place
      simp only [if_neg room]
      refine step _ order nofun ?_ ?_
      · rw [MpscHistory.accepted_accept h _ last, ← orderly.accepted]
      · intro other
        rw [MpscHistory.acquiredBy_accept]
        exact orderly.calls_update waits other
  | writes => exact step _ order nofun orderly.accepted (orderly.calls_update waits)
  | publishes => exact step _ order nofun orderly.accepted (orderly.calls_update waits)

/-- **A step of a pushing thread keeps the order.** -/
theorem threadStep (orderly : Orderly maxSize s h) {thread : ι}
    (stepped : s.threadStep thread = .ok after) :
    Orderly maxSize after (MpscHistory.noteThread s thread h) := by
  cases stage : s.stages thread with
  | idle =>
      simp only [Mpsc.threadStep, stage] at stepped
      cases stepped
  | locking value =>
      simp only [Mpsc.threadStep, stage] at stepped
      simp only [MpscHistory.noteThread, stage]
      split at stepped
      · rename_i taken
        obtain rfl := Except.ok.inj stepped
        rw [if_pos taken]
        refine orderly.outsideStep (by rw [stage]; rfl) rfl (fun _ _ => rfl) ?_
        rw [orderly.calls thread, stage]
        rfl
      · rename_i free
        obtain rfl := Except.ok.inj stepped
        rw [if_neg free]
        exact orderly.acquire stage free
  | spinning value =>
      have waiting := orderly.calls thread
      rw [stage] at waiting
      simp only [Mpsc.threadStep, stage] at stepped
      simp only [MpscHistory.noteThread, stage]
      split at stepped
      · obtain rfl := Except.ok.inj stepped
        exact orderly
      · obtain rfl := Except.ok.inj stepped
        refine orderly.outsideStep (by rw [stage]; rfl) rfl (fun _ _ => rfl) ?_
        rw [waiting]
        rfl
  | entering value =>
      simp only [Mpsc.threadStep, stage] at stepped
      simp only [MpscHistory.noteThread, stage]
      split at stepped
      · cases stepped
      · rename_i shared entered
        obtain rfl := Except.ok.inj stepped
        exact orderly.enter stage entered
  | pushing =>
      simp only [Mpsc.threadStep, stage] at stepped
      split at stepped
      · cases stepped
      · rename_i shared moved
        split at stepped
        · rename_i inside
          obtain rfl := Except.ok.inj stepped
          have stays := orderly.pushing stage moved (.inr ⟨?_, rfl⟩)
          · rwa [← stage, Function.update_eq_self] at stays
          · intro idle
            rw [idle] at inside
            cases inside
        · rename_i outside
          obtain rfl := Except.ok.inj stepped
          rw [Bool.not_eq_true, Producer.inside_eq_false] at outside
          exact orderly.pushing stage moved (.inl ⟨outside, rfl⟩)
  | unlocking =>
      have locked : (s.stages thread).locked = true := by
        rw [stage]
        rfl
      have idle : s.shared.producers thread = .idle := by
        apply orderly.outside
        rw [stage]
        exact nofun
      simp only [Mpsc.threadStep, stage] at stepped
      obtain rfl := Except.ok.inj stepped
      simp only [MpscHistory.noteThread, stage]
      refine orderly.lockedStep (fun other => orderly.others locked) orderly.order (fun _ _ => rfl)
        nofun (fun _ => idle) nofun ?_ orderly.accepted (orderly.calls_update (by rw [stage]; rfl))
      intro other head place
      exact absurd (idle.symm.trans place) nofun

/-- **Every step keeps the order.** -/
theorem step (orderly : Orderly maxSize s h) {op : MpscOp ι α} (stepped : s.step op = .ok after) :
    Orderly maxSize after (MpscHistory.note s op after h) := by
  cases op with
  | push thread value =>
      simp only [Mpsc.step] at stepped
      split at stepped
      · rename_i stage
        obtain rfl := Except.ok.inj stepped
        refine orderly.outsideStep (by rw [stage]; rfl) rfl ?_ ?_
        · exact fun other different => Function.update_of_ne different ..
        · rw [Function.update_self, orderly.calls thread, stage, List.append_assoc]
          rfl
      · cases stepped
  | thread thread => exact orderly.threadStep stepped
  | pop headFirst =>
      simp only [Mpsc.step] at stepped
      split at stepped
      · cases stepped
      · rename_i shared moved
        obtain rfl := Except.ok.inj stepped
        exact orderly.consume (.inr ⟨headFirst, rfl⟩) moved
  | consumer =>
      simp only [Mpsc.step] at stepped
      split at stepped
      · cases stepped
      · rename_i shared moved
        obtain rfl := Except.ok.inj stepped
        exact orderly.consume (.inl rfl) moved

end Orderly

/-- **The queue loses and duplicates nothing**, for any number of pushing threads, every
interleaving and every capacity for which `max_size + 1` does not wrap: one thread at most is
between `lock` and `unlock`; the values popped are those of a beginning of the accepted pushes, in
the order in which the lock was taken for them, and the accepted pushes of a thread are in the order
of its calls; and no slot is written that holds an unpopped value. -/
theorem mpsc_queue_loses_nothing [Inhabited α] {maxSize : Word}
    (fits : maxSize.toNat < 2 ^ 64 - 1) {ops : List (MpscOp ι α)} {s : Mpsc ι α}
    {h : MpscHistory ι α}
    (reached : Run (observed Mpsc.step MpscHistory.note) (fun _ _ => True)
      (Mpsc.create maxSize, MpscHistory.empty) ops (s, h)) :
    (∀ thread other, (s.stages thread).locked = true → (s.stages other).locked = true →
      thread = other) ∧
    (∃ popped, popped <+: h.accepted ∧ h.queue.popped = popped.map Acquisition.value) ∧
    (∀ thread, ((h.accepted.filter fun acquisition => acquisition.thread = thread).map
      Acquisition.value).Sublist (h.calls thread)) ∧
    ∀ thread value head, s.shared.producers thread = .writing value head →
      ∀ i, h.queue.popped.length ≤ i → h.queue.slots[i]? ≠ some head := by
  have orderly : s.Orderly maxSize.toNat h := by
    apply reached.invariant (fun watched => Orderly maxSize.toNat watched.1 watched.2)
      (.create fits)
    intro before op after held _ stepped
    obtain ⟨moved, noted⟩ := observed_eq_ok.mp stepped
    rw [noted]
    exact held.step moved
  refine ⟨orderly.unique, ?_, ?_, ?_⟩
  · have popped := orderly.order.popped_prefix
    rw [orderly.accepted, List.prefix_map_iff] at popped
    exact popped
  · intro thread
    rw [orderly.calls thread]
    refine List.Sublist.trans ?_ (List.sublist_append_left _ _)
    exact ((List.filter_sublist.filter _)).map _
  · exact fun thread value head writes i unpopped => orderly.order.writing_free writes unpopped

/-- Two threads push, the second while the first has the lock, and one value is popped. -/
def contendedOps : List (MpscOp ℕ ℕ) :=
  [.push 0 10, .push 1 20, .thread 0, .thread 1, .thread 0, .thread 1, .thread 0, .thread 0,
    .thread 0, .thread 0, .thread 1, .thread 1, .thread 1, .thread 1, .thread 1,
    .pop true, .consumer, .consumer, .consumer, .consumer]

def contendedQueue : Mpsc ℕ ℕ × MpscHistory ℕ ℕ :=
  (checkedRun (observed Mpsc.step MpscHistory.note) (fun _ _ => True)
    (Mpsc.create 2, MpscHistory.empty) contendedOps).get (by decide +kernel)

theorem mpsc_queue_loses_nothing_contended :
    (contendedQueue.1.stages 1).locked = true ∧ contendedQueue.2.queue.popped = [10] ∧
      ∃ popped, popped <+: contendedQueue.2.accepted ∧
        contendedQueue.2.queue.popped = popped.map Acquisition.value := by
  have fits : (2 : Word).toNat < 2 ^ 64 - 1 := by decide
  have reached : Run (observed Mpsc.step MpscHistory.note) (fun _ _ => True)
      (Mpsc.create 2, MpscHistory.empty) contendedOps contendedQueue := Run.of_isSome _
  have kept := mpsc_queue_loses_nothing (s := contendedQueue.1) (h := contendedQueue.2) fits reached
  exact ⟨by decide +kernel, by decide +kernel, kept.2.1⟩

end Mpsc

end Jasl
