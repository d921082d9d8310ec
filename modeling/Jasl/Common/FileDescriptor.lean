import Jasl.Library.Transfers
import Jasl.Library.Words
import Mathlib.Data.List.Basic

/-!
# Reading and writing a descriptor

`FileDescriptor::write` and `FileDescriptor::read`: loops around the system calls, which
move as much as they like of what is asked for. A call that is interrupted is made again,
and a call that moves nothing or fails ends the loop, as does the last byte. What the
kernel replies is a script; a loop whose script ends before is still waiting. The
functions of `Socket` hand on to these.

Both loops are transfers in pieces (`writeLoop_eq`, `readLoop_eq`). So what is written is
a stretch of the data from its begin on (`write_sends_in_order`), and what is read is the
pieces in order, with zeros behind them (`read_reassembles`).
-/

set_option autoImplicit false

namespace Jasl

open Library

namespace FileDescriptor

/-- `EINTR`. -/
def eintr : ℕ := 4

section Replies

variable {π : Type} (size : π → ℕ)

/-- What a system call returns. -/
def nBytes : Reply π → ℤ
  | .moved piece => size piece
  | .failed _ => -1

/-- The `errno` that is left behind a call that failed. -/
def errno : Reply π → Option ℕ
  | .moved _ => none
  | .failed errno => some errno

end Replies

/-! ## Writing -/

/-- The calls of `::write`, and what is returned, if the loop ends. -/
structure Written where
  calls : List (Request ℕ)
  returned : Option ℕ

/-- Another call of `::write` before. -/
def Written.after (call : Request ℕ) (rest : Written) : Written :=
  ⟨call :: rest.calls, rest.returned⟩

/-- The loop of `FileDescriptor::write`. -/
def writeLoop (dataSize : ℕ) : ℕ → List (Reply ℕ) → Written
  | _, [] => ⟨[], none⟩
  | offset, reply :: script =>
      let call : Request ℕ := ⟨offset, dataSize - offset, reply⟩
      let n := nBytes id reply
      if n = 0 then ⟨[call], some offset⟩
      else if n ≤ 0 then
        if errno reply = some eintr then (writeLoop dataSize offset script).after call
        else ⟨[call], some offset⟩
      else if offset + n.toNat < dataSize then
        (writeLoop dataSize (offset + n.toNat) script).after call
      else ⟨[call], some (offset + n.toNat)⟩

/-- `FileDescriptor::write`. -/
def write (data : List Byte) (script : List (Reply ℕ)) : Written :=
  writeLoop data.length 0 script

/-- The bytes that the kernel takes: so many from the place on that it is given. -/
def accepted (data : List Byte) (calls : List (Request ℕ)) : List Byte :=
  calls.flatMap fun call => (data.drop call.offset).take (call.reply.units id)

/-! ## Reading -/

/-- The calls of `::read`, the buffer, and the offset and `n_bytes` at the end of the loop. -/
structure ReadLoop where
  calls : List (Request (List Byte))
  data : List Byte
  ended : Option (ℕ × ℤ)

/-- Another call of `::read` before. -/
def ReadLoop.after (call : Request (List Byte)) (rest : ReadLoop) : ReadLoop :=
  ⟨call :: rest.calls, rest.data, rest.ended⟩

/-- Bytes are written to a buffer. -/
def store (data : List Byte) (offset : ℕ) (bytes : List Byte) : List Byte :=
  data.take offset ++ bytes ++ data.drop (offset + bytes.length)

/-- The loop of `FileDescriptor::read`. -/
def readLoop (dataSize : ℕ) : ℕ → List Byte → List (Reply (List Byte)) → ReadLoop
  | _, data, [] => ⟨[], data, none⟩
  | offset, data, reply :: script =>
      let call : Request (List Byte) := ⟨offset, dataSize - offset, reply⟩
      let n := nBytes List.length reply
      let data := store data offset (reply.piece.getD [])
      if n = 0 then ⟨[call], data, some (offset, n)⟩
      else if n < 0 then
        if errno reply = some eintr then (readLoop dataSize offset data script).after call
        else ⟨[call], data, some (offset, n)⟩
      else if offset + n.toNat < dataSize then
        (readLoop dataSize (offset + n.toNat) data script).after call
      else ⟨[call], data, some (offset + n.toNat, n)⟩

/-- The calls of `::read`, the buffer, `eof`, and what is returned, if the loop ends. -/
structure Read where
  calls : List (Request (List Byte))
  data : List Byte
  eof : Bool
  returned : Option ℕ

/-- `::memset` of a buffer to zero. -/
def memset (data : List Byte) : List Byte := List.replicate data.length 0

/-- `FileDescriptor::read`, of a buffer, with an `eof` that is overwritten. -/
def read (data : List Byte) (_eof : Bool) (script : List (Reply (List Byte))) : Read :=
  let eof := false
  let done := readLoop data.length 0 (memset data) script
  match done.ended with
  | none => ⟨done.calls, done.data, eof, none⟩
  | some (offset, n) => ⟨done.calls, done.data, if n = 0 then true else eof, some offset⟩

/-! ## Both loops are transfers -/

/-- A failure that is made up for by another call. -/
def interrupted (errno : ℕ) : Bool := errno = eintr

section Loops

variable {dataSize offset : ℕ}

theorem writeLoop_eq (dataSize offset : ℕ) (script : List (Reply ℕ)) :
    writeLoop dataSize offset script =
      ⟨(transfer id interrupted dataSize offset script).calls,
        (transfer id interrupted dataSize offset script).ending.map fun _ =>
          offset + movedBy id (transfer id interrupted dataSize offset script).calls⟩ := by
  fun_induction transfer id interrupted dataSize offset script with
  | case1 => rfl
  | case2 offset failure script retry ih =>
      have again : failure = eintr := of_decide_eq_true retry
      simp [writeLoop, nBytes, errno, again, ih, Written.after, Transfer.after]
  | case3 offset failure script fatal =>
      have other : failure ≠ eintr := fun same => fatal (decide_eq_true same)
      simp [writeLoop, nBytes, errno, other]
  | case4 offset count script none =>
      obtain rfl : count = 0 := none
      simp [writeLoop, nBytes]
  | case5 offset count script some_ less ih =>
      change count ≠ 0 at some_
      change offset + count < dataSize at less
      change writeLoop dataSize (offset + count) script = _ at ih
      simp [writeLoop, nBytes, some_, less, ih, Written.after, Transfer.after, Nat.add_assoc]
  | case6 offset count script some_ filled =>
      change count ≠ 0 at some_
      change ¬offset + count < dataSize at filled
      simp [writeLoop, nBytes, some_, filled]

/-- What is in a buffer after some calls of `::read`. -/
def stored (data : List Byte) (calls : List (Request (List Byte))) : List Byte :=
  calls.foldl (fun data call => store data call.offset (call.reply.piece.getD [])) data

/-- The loop of `read`; its last `n_bytes` tells whether nothing was moved. -/
theorem readLoop_eq (dataSize offset : ℕ) (data : List Byte) (script : List (Reply (List Byte))) :
    (readLoop dataSize offset data script).calls =
        (transfer List.length interrupted dataSize offset script).calls ∧
      (readLoop dataSize offset data script).data =
        stored data (transfer List.length interrupted dataSize offset script).calls ∧
      (readLoop dataSize offset data script).ended.map
          (fun ended => (ended.1, decide (ended.2 = 0))) =
        (transfer List.length interrupted dataSize offset script).ending.map fun ending =>
          (offset + movedBy List.length
              (transfer List.length interrupted dataSize offset script).calls,
            decide (ending = .nothing)) := by
  fun_induction transfer List.length interrupted dataSize offset script generalizing data with
  | case1 => exact ⟨rfl, rfl, rfl⟩
  | case2 offset failure script retry ih =>
      have again : failure = eintr := of_decide_eq_true retry
      obtain ⟨calls, after, ended⟩ := ih (store data offset [])
      have turn : readLoop dataSize offset data (.failed failure :: script) =
          (readLoop dataSize offset (store data offset []) script).after
            ⟨offset, dataSize - offset, .failed failure⟩ := by
        simp [readLoop, nBytes, errno, again, Reply.piece]
      rw [turn]
      refine ⟨congrArg (_ :: ·) calls, after, ended.trans ?_⟩
      simp only [Transfer.after, movedBy_cons, units_failed, Nat.zero_add]
  | case3 offset failure script fatal =>
      have other : failure ≠ eintr := fun same => fatal (decide_eq_true same)
      have turn : readLoop dataSize offset data (.failed failure :: script) =
          ⟨[⟨offset, dataSize - offset, .failed failure⟩], store data offset [],
            some (offset, -1)⟩ := by
        simp [readLoop, nBytes, errno, other, Reply.piece]
      rw [turn]
      exact ⟨rfl, rfl, rfl⟩
  | case4 offset piece script none =>
      obtain rfl := List.eq_nil_of_length_eq_zero none
      have turn : readLoop dataSize offset data (.moved [] :: script) =
          ⟨[⟨offset, dataSize - offset, .moved []⟩], store data offset [], some (offset, 0)⟩ := by
        simp [readLoop, nBytes, Reply.piece]
      rw [turn]
      exact ⟨rfl, rfl, rfl⟩
  | case5 offset piece script some_ less ih =>
      have notFailed : ¬(piece.length : ℤ) < 0 := by omega
      obtain ⟨calls, after, ended⟩ := ih (store data offset piece)
      have turn : readLoop dataSize offset data (.moved piece :: script) =
          (readLoop dataSize (offset + piece.length) (store data offset piece) script).after
            ⟨offset, dataSize - offset, .moved piece⟩ := by
        simp [readLoop, nBytes, some_, less, notFailed, Reply.piece]
      rw [turn]
      refine ⟨congrArg (_ :: ·) calls, after, ended.trans ?_⟩
      simp only [Transfer.after, movedBy_cons, units_moved, Nat.add_assoc]
  | case6 offset piece script some_ filled =>
      have notFailed : ¬(piece.length : ℤ) < 0 := by omega
      have turn : readLoop dataSize offset data (.moved piece :: script) =
          ⟨[⟨offset, dataSize - offset, .moved piece⟩], store data offset piece,
            some (offset + piece.length, piece.length)⟩ := by
        simp [readLoop, nBytes, some_, filled, notFailed, Reply.piece]
      rw [turn]
      refine ⟨rfl, rfl, ?_⟩
      simp [some_]

end Loops

/-- The kernel moved nothing, or failed other than by an interruption. -/
def Stops {π : Type} (size : π → ℕ) (reply : Reply π) : Prop :=
  (∃ piece, reply = .moved piece ∧ size piece = 0) ∨ ∃ errno, reply = .failed errno ∧ errno ≠ eintr

theorem continues_iff {π : Type} {size : π → ℕ} {reply : Reply π} :
    reply.continues size interrupted = true ↔ ¬Stops size reply := by
  cases reply with
  | moved piece => simp [Stops, Reply.continues]
  | failed errno => simp [Stops, Reply.continues, interrupted]

theorem stops_iff {π : Type} {size : π → ℕ} {reply : Reply π} :
    Stops size reply ↔ reply.continues size interrupted = false := by
  rw [← Bool.not_eq_true, continues_iff, not_not]

/-! ## What is written -/

section Write

variable {data : List Byte} {script : List (Reply ℕ)} {offset total : ℕ}

theorem write_eq (data : List Byte) (script : List (Reply ℕ)) :
    write data script =
      ⟨(transfer id interrupted data.length 0 script).calls,
        (transfer id interrupted data.length 0 script).ending.map fun _ =>
          movedBy id (transfer id interrupted data.length 0 script).calls⟩ := by
  rw [write, writeLoop_eq]
  simp only [Nat.zero_add]

/-- Calls that each ask for the rest take a stretch of the data. -/
theorem accepted_eq {calls : List (Request ℕ)} (asks : AsksForRest id total offset calls) :
    accepted data calls = (data.drop offset).take (movedBy id calls) := by
  induction calls generalizing offset with
  | nil => exact List.take_zero.symm
  | cons call calls ih =>
      obtain ⟨begins, -, -, rest⟩ := asks
      change (data.drop call.offset).take (call.reply.units id) ++ accepted data calls = _
      rw [ih rest, begins, movedBy_cons, List.take_add, List.drop_drop]

/-- What `write` is to do: it sends the data from the begin on, without gap or repetition, asking
each time for all that is left; what it returns tells how far it came, which is to the end unless
the kernel stops, and interruptions make no difference. -/
structure SendsPrefix (data : List Byte) (script : List (Reply ℕ)) : Prop where
  requests : ∀ before call rest, (write data script).calls = before ++ call :: rest →
    call.offset = (accepted data before).length ∧ call.count = data.length - call.offset ∧
      0 < call.count
  sent : accepted data (write data script).calls =
    data.take (accepted data (write data script).calls).length
  returned : ∀ r, (write data script).returned = some r →
    r = (accepted data (write data script).calls).length
  whole : ∀ r, (write data script).returned = some r →
    (r = data.length ↔ ∀ call ∈ (write data script).calls, ¬Stops id call.reply)
  uninterrupted :
    (write data (script.filter fun reply => !reply.isRetried interrupted)).returned =
        (write data script).returned ∧
      accepted data (write data (script.filter fun reply => !reply.isRetried interrupted)).calls =
        accepted data (write data script).calls
  open_ : (write data script).returned = none ↔
    (∀ reply ∈ script, ¬Stops id reply) ∧ (script.map (Reply.units id)).sum < data.length

/-- **`write` sends a prefix, in order**, whatever the kernel replies. -/
theorem write_sends_in_order (data : List Byte) (script : List (Reply ℕ)) (some_ : 1 ≤ data.length)
    (fits : ∀ call ∈ (write data script).calls, call.Fits id) : SendsPrefix data script := by
  rw [write_eq] at fits
  have asks : AsksForRest id data.length 0 (transfer id interrupted data.length 0 script).calls :=
    transfer_calls some_
  have took : accepted data (transfer id interrupted data.length 0 script).calls =
      data.take (movedBy id (transfer id interrupted data.length 0 script).calls) :=
    accepted_eq asks
  obtain ⟨within, filled⟩ := moved_eq_total some_ fits
  rw [Nat.zero_add] at within filled
  have length : (accepted data (transfer id interrupted data.length 0 script).calls).length =
      movedBy id (transfer id interrupted data.length 0 script).calls := by
    rw [took, List.length_take, Nat.min_eq_left within]
  refine ⟨?_, ?_, ?_, ?_, ?_, ?_⟩
  · intro before call rest made
    rw [write_eq] at made
    change (transfer id interrupted data.length 0 script).calls = _ at made
    rw [made] at asks fits
    obtain ⟨begins, count, positive⟩ := asks.middle
    have first : AsksForRest id data.length 0 before := asks.left
    have before_le := first.moved_le
      (fun call made => fits call (List.mem_append_left _ made)) (Nat.zero_le _)
    refine ⟨?_, count, positive⟩
    rw [accepted_eq first, List.length_take, List.drop_zero, begins, Nat.zero_add]
    omega
  · rw [write_eq, length]
    exact took
  · intro r ended
    rw [write_eq] at ended ⊢
    rw [length]
    obtain ⟨ending, -, rfl⟩ := Option.map_eq_some_iff.mp ended
    rfl
  · intro r ended
    rw [write_eq] at ended ⊢
    obtain ⟨ending, found, rfl⟩ := Option.map_eq_some_iff.mp ended
    rw [← filled, found, Option.some.injEq, filled_iff found]
    simp only [continues_iff]
  · obtain ⟨ending, pieces⟩ :=
      transfer_filter id interrupted data.length 0 script
    have moved := movedBy_eq_pieces id (transfer id interrupted data.length 0 script).calls
    rw [← pieces, ← movedBy_eq_pieces] at moved
    rw [write_eq, write_eq, took, moved, accepted_eq (transfer_calls some_), ending]
    exact ⟨rfl, rfl⟩
  · rw [write_eq]
    simp only [Option.map_eq_none_iff, ending_eq_none some_, continues_iff, Nat.zero_add]

theorem write_sends_in_order_interrupted :
    SendsPrefix [1, 2, 3] [.failed eintr, .moved 2, .failed eintr, .moved 1] ∧
      (write [1, 2, 3] [.failed eintr, .moved 2, .failed eintr, .moved 1]).returned = some 3 :=
  ⟨write_sends_in_order _ _ (by decide) (by decide), rfl⟩

end Write

/-! ## What is read -/

section Read

variable {data : List Byte} {eof : Bool} {script : List (Reply (List Byte))}

/-- The bytes that the kernel delivers. -/
def delivered (calls : List (Request (List Byte))) : List Byte := (pieces calls).flatten

theorem length_delivered (calls : List (Request (List Byte))) :
    (delivered calls).length = movedBy List.length calls := by
  rw [delivered, List.length_flatten, movedBy_eq_pieces]

theorem delivered_cons (call : Request (List Byte)) (calls : List (Request (List Byte))) :
    delivered (call :: calls) = call.reply.piece.getD [] ++ delivered calls := by
  obtain ⟨offset, count, piece | errno⟩ := call <;> rfl

/-- A piece overwrites zeros. -/
theorem store_replicate (read piece : List Byte) (left : ℕ) :
    store (read ++ List.replicate left 0) read.length piece =
      (read ++ piece) ++ List.replicate (left - piece.length) 0 := by
  rw [store, List.take_left, List.drop_append, List.drop_of_length_le (Nat.le_add_right _ _),
    Nat.add_sub_cancel_left, List.nil_append, List.drop_replicate]

/-- The pieces stand one behind the other, and what is behind them is zero. -/
theorem stored_eq {total : ℕ} (read : List Byte) {calls : List (Request (List Byte))}
    (asks : AsksForRest List.length total read.length calls) :
    stored (read ++ List.replicate (total - read.length) 0) calls =
      read ++ delivered calls ++
        List.replicate (total - (read.length + (delivered calls).length)) 0 := by
  induction calls generalizing read with
  | nil => simp [stored, delivered, pieces]
  | cons call calls ih =>
      obtain ⟨begins, -, -, rest⟩ := asks
      have moves : (call.reply.piece.getD []).length = call.reply.units List.length := by
        cases call.reply <;> rfl
      have left : total - read.length - (call.reply.piece.getD []).length =
          total - (read ++ call.reply.piece.getD []).length := by
        rw [List.length_append, Nat.sub_sub]
      rw [← moves, ← List.length_append] at rest
      change stored (store _ call.offset _) calls = _
      rw [begins, store_replicate, left, ih _ rest, delivered_cons]
      simp [Nat.add_assoc]

theorem read_eq (data : List Byte) (eof : Bool) (script : List (Reply (List Byte))) :
    (read data eof script).calls = (transfer List.length interrupted data.length 0 script).calls ∧
      (read data eof script).data =
        stored (memset data) (transfer List.length interrupted data.length 0 script).calls ∧
      ((read data eof script).eof = true ↔
        (transfer List.length interrupted data.length 0 script).ending = some .nothing) ∧
      (read data eof script).returned =
        (transfer List.length interrupted data.length 0 script).ending.map fun _ =>
          movedBy List.length (transfer List.length interrupted data.length 0 script).calls := by
  obtain ⟨calls, after, ended⟩ := readLoop_eq data.length 0 (memset data) script
  rw [read]
  cases done : (readLoop data.length 0 (memset data) script).ended with
  | none =>
      rw [done] at ended
      have still := Option.map_eq_none_iff.mp ended.symm
      simp only [calls, after, still, Option.map_none, reduceCtorEq, Bool.false_eq_true, and_true]
  | some last =>
      obtain ⟨offset, n⟩ := last
      rw [done] at ended
      obtain ⟨ending, found, same⟩ := Option.map_eq_some_iff.mp ended.symm
      obtain ⟨rfl, nothing⟩ := Prod.mk.inj same
      refine ⟨calls, after, ?_, ?_⟩
      · have last : (if n = 0 then true else false) = decide (n = 0) := rfl
        rw [found, Option.some.injEq]
        dsimp only
        rw [last, ← nothing, decide_eq_true_iff]
      · rw [found, Option.map_some, Nat.zero_add]

/-- What `read` is to do: the pieces stand in the buffer in the order they came in, with zeros
behind them; each call asks for all that is left, and the loop ends when nothing is, or when the
kernel stops; `eof` tells whether it stopped with nothing. -/
structure Reassembles (data : List Byte) (eof : Bool) (script : List (Reply (List Byte))) :
    Prop where
  requests : ∀ before call rest, (read data eof script).calls = before ++ call :: rest →
    call.offset = (delivered before).length ∧ call.count = data.length - call.offset ∧
      0 < call.count ∧ (rest ≠ [] → ¬Stops List.length call.reply)
  replies : (read data eof script).calls.map Request.reply <+: script
  buffer : (read data eof script).data = delivered (read data eof script).calls ++
    List.replicate (data.length - (delivered (read data eof script).calls).length) 0
  returned : ∀ r, (read data eof script).returned = some r →
    r = (delivered (read data eof script).calls).length ∧ r ≤ data.length
  ends : (read data eof script).returned ≠ none ↔
    (delivered (read data eof script).calls).length = data.length ∨
      ∃ call ∈ (read data eof script).calls, Stops List.length call.reply
  open_ : (read data eof script).returned = none →
    (read data eof script).calls.map Request.reply = script
  atEnd : (read data eof script).eof = true ↔
    ∃ call ∈ (read data eof script).calls, call.reply = .moved []

/-- **`read` reassembles the stream** and tells its end, whatever the kernel replies. -/
theorem read_reassembles (data : List Byte) (eof : Bool) (script : List (Reply (List Byte)))
    (some_ : 1 ≤ data.length)
    (fits : ∀ call ∈ (read data eof script).calls, call.Fits List.length) :
    Reassembles data eof script := by
  obtain ⟨calls, after, atEnd, returned⟩ := read_eq data eof script
  rw [calls] at fits
  have asks : AsksForRest List.length data.length 0
      (transfer List.length interrupted data.length 0 script).calls := transfer_calls some_
  obtain ⟨within, filled⟩ := moved_eq_total some_ fits
  rw [Nat.zero_add, ← length_delivered] at within filled
  rw [← length_delivered] at returned
  refine ⟨?_, ?_, ?_, ?_, ?_, ?_, ?_⟩
  · intro before call rest made
    rw [calls] at made
    have goesOn := continues_of_more made
    rw [made] at asks
    obtain ⟨begins, count, positive⟩ := asks.middle
    refine ⟨?_, count, positive, fun more => continues_iff.mp (goesOn more)⟩
    rw [begins, length_delivered, Nat.zero_add]
  · rw [calls]
    exact replies_in_order.1
  · rw [after, calls]
    have whole := stored_eq [] asks
    rw [List.length_nil, Nat.sub_zero, List.nil_append, List.nil_append, Nat.zero_add] at whole
    exact whole
  · intro r ended
    rw [returned] at ended
    obtain ⟨ending, -, rfl⟩ := Option.map_eq_some_iff.mp ended
    rw [calls]
    exact ⟨rfl, within⟩
  · rw [returned, calls, ← filled]
    simp only [stops_iff]
    rw [exists_not_continues]
    cases found : (transfer List.length interrupted data.length 0 script).ending with
    | none => simp
    | some ending => simpa using Classical.em (ending = .filled)
  · intro still
    rw [returned] at still
    rw [calls]
    exact replies_in_order.2 (Option.map_eq_none_iff.mp still)
  · rw [atEnd, calls, ending_eq_nothing]
    refine exists_congr fun call => and_congr_right fun _ => ?_
    constructor
    · rintro ⟨piece, reply, none⟩
      rw [reply, List.eq_nil_of_length_eq_zero none]
    · exact fun reply => ⟨[], reply, rfl⟩

theorem read_reassembles_eof :
    Reassembles [9, 9, 9] true [.failed eintr, .moved [1], .moved []] ∧
      (read [9, 9, 9] true [.failed eintr, .moved [1], .moved []]).data = [1, 0, 0] :=
  ⟨read_reassembles _ _ _ (by decide) (by decide), rfl⟩

end Read

end FileDescriptor

end Jasl
