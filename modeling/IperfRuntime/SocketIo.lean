import Mathlib.Algebra.Ring.Nat
import Mathlib.Data.List.Basic

/-!
# Socket input and output

`Nread`, `Nwrite` and `Nsendfile`. The system calls they make are inputs: how many bytes
each gets at most, or how it fails. A call that has nothing left to answer it blocks.
Descriptors that another thread closes in between are not considered.
-/

namespace IperfRuntime.SocketIo

/-- What a call of `read` does. -/
inductive ReadEvent where
  /-- It delivers up to `more + 1` of the pending bytes, at most those asked for; behind the
  last of them it finds the end. -/
  | data (more : ℕ)
  | eof
  /-- `EINTR`, `EAGAIN` or `EWOULDBLOCK`. -/
  | interrupted
  | failed
  deriving DecidableEq

/-- What a call of `write` does. -/
inductive WriteEvent where
  /-- It takes up to `more + 1` bytes, at most those offered. -/
  | data (more : ℕ)
  | zero
  /-- `EINTR`, `EAGAIN` or `EWOULDBLOCK`. -/
  | interrupted
  /-- `ENOBUFS`. -/
  | noBuffers
  | failed
  deriving DecidableEq

/-- How `Nread` or `Nwrite` ends. -/
inductive NetOutcome where
  /-- With the number of bytes. -/
  | returned
  /-- `NET_SOFTERROR`. -/
  | softError
  /-- `NET_HARDERROR`. -/
  | hardError
  /-- Not at all. -/
  | blocked
  deriving DecidableEq

/-- The result of `Nread`. -/
structure NetRead where
  outcome : NetOutcome
  /-- The bytes in the buffer. -/
  bytes : List UInt8
  /-- The bytes that are still pending. -/
  pending : List UInt8

/-- The loop of `Nread`. -/
def nreadLoop : List ReadEvent → ℕ → List UInt8 → List UInt8 → NetRead
  | _, 0, bytes, pending => ⟨.returned, bytes, pending⟩
  | [], _ + 1, bytes, pending => ⟨.blocked, bytes, pending⟩
  | .data more :: events, nleft + 1, bytes, pending =>
    let chunk := pending.take (min (more + 1) (nleft + 1))
    if chunk.isEmpty then ⟨.returned, bytes, pending⟩
    else nreadLoop events (nleft + 1 - chunk.length) (bytes ++ chunk) (pending.drop chunk.length)
  | .eof :: _, _ + 1, bytes, pending => ⟨.returned, bytes, pending⟩
  | .interrupted :: _, _ + 1, bytes, pending => ⟨.returned, bytes, pending⟩
  | .failed :: _, _ + 1, bytes, pending => ⟨.hardError, bytes, pending⟩

/-- `Nread`. -/
def nread (events : List ReadEvent) (count : ℕ) (pending : List UInt8) : NetRead :=
  nreadLoop events count [] pending

/-- The result of `Nwrite`. -/
structure NetWrite where
  outcome : NetOutcome
  /-- How many bytes were taken. -/
  written : ℕ

/-- The loop of `Nwrite`. -/
def nwriteLoop : List WriteEvent → ℕ → ℕ → NetWrite
  | _, 0, written => ⟨.returned, written⟩
  | [], _ + 1, written => ⟨.blocked, written⟩
  | .data more :: events, nleft + 1, written =>
    nwriteLoop events (nleft + 1 - min (more + 1) (nleft + 1))
      (written + min (more + 1) (nleft + 1))
  | .zero :: _, _ + 1, written => ⟨.softError, written⟩
  | .interrupted :: _, _ + 1, written => ⟨.returned, written⟩
  | .noBuffers :: _, _ + 1, written => ⟨.softError, written⟩
  | .failed :: _, _ + 1, written => ⟨.hardError, written⟩

/-- `Nwrite`. -/
def nwrite (events : List WriteEvent) (count : ℕ) : NetWrite := nwriteLoop events count 0

/-- What a call of `sendfile` on Linux does. -/
inductive SendfileEvent where
  /-- It takes up to `more + 1` bytes, at most those offered. -/
  | data (more : ℕ)
  | zero
  /-- `EINTR`, `EAGAIN` or `EWOULDBLOCK`. -/
  | interrupted
  /-- `ENOBUFS` or `ENOMEM`. -/
  | noMemory
  | failed
  deriving DecidableEq

/-- The loop of `Nsendfile`; an interruption in front of the first byte is a soft error. -/
def nsendfileLoop : List SendfileEvent → ℕ → ℕ → NetWrite
  | _, 0, written => ⟨.returned, written⟩
  | [], _ + 1, written => ⟨.blocked, written⟩
  | .data more :: events, nleft + 1, written =>
    nsendfileLoop events (nleft + 1 - min (more + 1) (nleft + 1))
      (written + min (more + 1) (nleft + 1))
  | .zero :: _, _ + 1, written => ⟨.softError, written⟩
  | .interrupted :: _, _ + 1, written =>
    if written = 0 then ⟨.softError, written⟩ else ⟨.returned, written⟩
  | .noMemory :: _, _ + 1, written => ⟨.softError, written⟩
  | .failed :: _, _ + 1, written => ⟨.hardError, written⟩

/-- `Nsendfile`. -/
def nsendfile (events : List SendfileEvent) (count : ℕ) : NetWrite := nsendfileLoop events count 0

/-- How many bytes the calls of `Nread` get. -/
def readCount : List ReadEvent → ℕ → ℕ → ℕ
  | [], _, _ => 0
  | .data more :: events, nleft, available =>
    let chunk := min (min (more + 1) nleft) available
    if chunk = 0 then 0 else chunk + readCount events (nleft - chunk) (available - chunk)
  | .eof :: _, _, _ => 0
  | .interrupted :: _, _, _ => 0
  | .failed :: _, _, _ => 0

/-- A read takes no more than it asks for and no more than there is. -/
theorem readCount_le (events : List ReadEvent) (nleft available : ℕ) :
    readCount events nleft available ≤ nleft ∧ readCount events nleft available ≤ available := by
  induction events generalizing nleft available with
  | nil => simp [readCount]
  | cons e events ih =>
    cases e with
    | eof => simp [readCount]
    | interrupted => simp [readCount]
    | failed => simp [readCount]
    | data more =>
      simp only [readCount]
      have hnext := ih (nleft - min (min (more + 1) nleft) available)
        (available - min (min (more + 1) nleft) available)
      split
      · omega
      · omega

/-- However the calls split them, `Nread` gets the first of the pending bytes in order, and
the rest stays pending. -/
theorem nreadLoop_takes (events : List ReadEvent) (nleft : ℕ) (bytes pending : List UInt8) :
    (nreadLoop events nleft bytes pending).bytes =
        bytes ++ pending.take (readCount events nleft pending.length) ∧
      (nreadLoop events nleft bytes pending).pending =
        pending.drop (readCount events nleft pending.length) := by
  induction events generalizing nleft bytes pending with
  | nil =>
    cases nleft with
    | zero => simp [nreadLoop, readCount]
    | succ nleft => simp [nreadLoop, readCount]
  | cons e events ih =>
    cases nleft with
    | zero =>
      have hnone := readCount_le (e :: events) 0 pending.length
      have hzero : readCount (e :: events) 0 pending.length = 0 := by omega
      simp [nreadLoop, hzero]
    | succ nleft =>
      cases e with
      | eof => simp [nreadLoop, readCount]
      | interrupted => simp [nreadLoop, readCount]
      | failed => simp [nreadLoop, readCount]
      | data more =>
        set chunk := pending.take (min (more + 1) (nleft + 1)) with hchunk
        have hlength : chunk.length = min (min (more + 1) (nleft + 1)) pending.length := by
          rw [hchunk, List.length_take]
        have hprefix : pending.take chunk.length = chunk := by
          rw [hchunk, List.length_take, List.take_eq_take_iff]
          omega
        by_cases hempty : chunk.isEmpty = true
        · have hloop : nreadLoop (.data more :: events) (nleft + 1) bytes pending =
              ⟨.returned, bytes, pending⟩ := if_pos hempty
          have hnone : chunk.length = 0 := by simpa using hempty
          have hcount : readCount (.data more :: events) (nleft + 1) pending.length = 0 := by
            simp only [readCount]
            rw [if_pos (by omega)]
          simp [hloop, hcount]
        · have hloop : nreadLoop (.data more :: events) (nleft + 1) bytes pending =
              nreadLoop events (nleft + 1 - chunk.length) (bytes ++ chunk)
                (pending.drop chunk.length) := if_neg hempty
          have hsome : chunk.length ≠ 0 := by simpa using hempty
          have hcount : readCount (.data more :: events) (nleft + 1) pending.length =
              chunk.length + readCount events (nleft + 1 - chunk.length)
                (pending.length - chunk.length) := by
            simp only [readCount]
            rw [if_neg (by omega), hlength]
          obtain ⟨hbytes, hrest⟩ :=
            ih (nleft + 1 - chunk.length) (bytes ++ chunk) (pending.drop chunk.length)
          rw [List.length_drop] at hbytes hrest
          rw [hloop, hcount]
          constructor
          · rw [hbytes, List.take_add, hprefix, List.append_assoc]
          · rw [hrest, List.drop_drop]

/-- `Nread` takes a prefix of what is pending and leaves the rest. -/
theorem nread_takes (events : List ReadEvent) (count : ℕ) (pending : List UInt8) :
    (nread events count pending).bytes = pending.take (readCount events count pending.length) ∧
      (nread events count pending).pending =
        pending.drop (readCount events count pending.length) := by
  have htakes := nreadLoop_takes events count [] pending
  exact htakes

/-- It returns no more than it was asked for. -/
theorem nread_length_le (events : List ReadEvent) (count : ℕ) (pending : List UInt8) :
    (nread events count pending).bytes.length ≤ count := by
  have hle := readCount_le events count pending.length
  rw [(nread_takes events count pending).1, List.length_take]
  omega

/-- `Nread` does not report a full socket: an interrupted or empty read counts as success with
what is there. -/
theorem nreadLoop_outcome (events : List ReadEvent) (nleft : ℕ) (bytes pending : List UInt8) :
    (nreadLoop events nleft bytes pending).outcome ≠ .softError := by
  induction events generalizing nleft bytes pending with
  | nil =>
    cases nleft with
    | zero => simp [nreadLoop]
    | succ nleft => simp [nreadLoop]
  | cons e events ih =>
    cases nleft with
    | zero => simp [nreadLoop]
    | succ nleft =>
      cases e with
      | eof => simp [nreadLoop]
      | interrupted => simp [nreadLoop]
      | failed => simp [nreadLoop]
      | data more =>
        set chunk := pending.take (min (more + 1) (nleft + 1)) with hchunk
        by_cases hempty : chunk.isEmpty = true
        · have hloop : nreadLoop (.data more :: events) (nleft + 1) bytes pending =
              ⟨.returned, bytes, pending⟩ := if_pos hempty
          simp [hloop]
        · have hloop : nreadLoop (.data more :: events) (nleft + 1) bytes pending =
              nreadLoop events (nleft + 1 - chunk.length) (bytes ++ chunk)
                (pending.drop chunk.length) := if_neg hempty
          rw [hloop]
          exact ih _ _ _

/-- It never reports the soft error of a write. -/
theorem nread_outcome (events : List ReadEvent) (count : ℕ) (pending : List UInt8) :
    (nread events count pending).outcome ≠ .softError := nreadLoop_outcome events count [] pending

/-- No call fails: each gets bytes, or finds the end behind the last of them. -/
def Delivered (events : List ReadEvent) : Prop := ∀ e ∈ events, ∃ more, e = .data more

/-- Without failures `Nread` returns with what it was asked for or with all there is, or it
still waits. -/
theorem nreadLoop_delivered {events : List ReadEvent} (h : Delivered events) (nleft : ℕ)
    (bytes pending : List UInt8) :
    (nreadLoop events nleft bytes pending).outcome = .blocked ∨
      nreadLoop events nleft bytes pending =
        ⟨.returned, bytes ++ pending.take nleft, pending.drop nleft⟩ := by
  induction events generalizing nleft bytes pending with
  | nil =>
    cases nleft with
    | zero => exact Or.inr (by simp [nreadLoop])
    | succ nleft => exact Or.inl rfl
  | cons e events ih =>
    cases nleft with
    | zero => exact Or.inr (by simp [nreadLoop])
    | succ nleft =>
      obtain ⟨more, rfl⟩ := h e List.mem_cons_self
      set chunk := pending.take (min (more + 1) (nleft + 1)) with hchunk
      by_cases hempty : chunk.isEmpty = true
      · have hloop : nreadLoop (.data more :: events) (nleft + 1) bytes pending =
            ⟨.returned, bytes, pending⟩ := if_pos hempty
        have hnone : pending = [] := by
          have hzero : chunk.length = 0 := by simpa using hempty
          rw [hchunk, List.length_take] at hzero
          exact List.length_eq_zero_iff.mp (by omega)
        right
        rw [hloop, hnone]
        simp
      · have hloop : nreadLoop (.data more :: events) (nleft + 1) bytes pending =
            nreadLoop events (nleft + 1 - chunk.length) (bytes ++ chunk)
              (pending.drop chunk.length) := if_neg hempty
        have hlength : chunk.length ≤ nleft + 1 := by
          rw [hchunk, List.length_take]
          omega
        have hahead : pending.take chunk.length = chunk := by
          rw [hchunk, List.length_take, List.take_eq_take_iff]
          omega
        have hnext := ih (fun e he => h e (List.mem_cons_of_mem _ he))
          (nleft + 1 - chunk.length) (bytes ++ chunk) (pending.drop chunk.length)
        have hall : chunk ++ (pending.drop chunk.length).take (nleft + 1 - chunk.length) =
            pending.take (nleft + 1) := by
          have hsplit := @List.take_add _ pending chunk.length (nleft + 1 - chunk.length)
          rw [hahead] at hsplit
          rw [← hsplit]
          congr 1
          omega
        rw [hloop]
        rcases hnext with hblocked | hdone
        · exact Or.inl hblocked
        · right
          rw [hdone, List.append_assoc, hall, List.drop_drop]
          congr 2
          omega

/-- If everything is delivered, it returns all that was asked for or blocks for more. -/
theorem nread_delivered {events : List ReadEvent} (h : Delivered events) (count : ℕ)
    (pending : List UInt8) :
    (nread events count pending).outcome = .blocked ∨
      nread events count pending = ⟨.returned, pending.take count, pending.drop count⟩ :=
  nreadLoop_delivered h count [] pending

/-- `Nwrite` never takes more than it is offered, by induction on the answers of the system
calls. -/
theorem nwriteLoop_le (events : List WriteEvent) (nleft written : ℕ) :
    written ≤ (nwriteLoop events nleft written).written ∧
      (nwriteLoop events nleft written).written ≤ written + nleft := by
  induction events generalizing nleft written with
  | nil =>
    cases nleft with
    | zero => simp [nwriteLoop]
    | succ nleft => simp [nwriteLoop]
  | cons e events ih =>
    cases nleft with
    | zero => simp [nwriteLoop]
    | succ nleft =>
      cases e with
      | zero => simp [nwriteLoop]
      | interrupted => simp [nwriteLoop]
      | noBuffers => simp [nwriteLoop]
      | failed => simp [nwriteLoop]
      | data more =>
        have hnext := ih (nleft + 1 - min (more + 1) (nleft + 1))
          (written + min (more + 1) (nleft + 1))
        have hloop : nwriteLoop (.data more :: events) (nleft + 1) written =
            nwriteLoop events (nleft + 1 - min (more + 1) (nleft + 1))
              (written + min (more + 1) (nleft + 1)) := rfl
        rw [hloop]
        omega

/-- `Nwrite` writes no more than it was given. -/
theorem nwrite_le (events : List WriteEvent) (count : ℕ) :
    (nwrite events count).written ≤ count := by
  have hle := (nwriteLoop_le events count 0).2
  unfold nwrite
  omega

/-- What system calls accept together that accept a byte more than each of these numbers. -/
def chunkBytes (chunks : List ℕ) : ℕ := (chunks.map (· + 1)).sum

/-- No chunk is no byte. -/
@[simp] theorem chunkBytes_nil : chunkBytes [] = 0 := rfl

/-- A further chunk adds a byte more than its number. -/
@[simp] theorem chunkBytes_cons (more : ℕ) (chunks : List ℕ) :
    chunkBytes (more :: chunks) = more + 1 + chunkBytes chunks := by
  simp [chunkBytes]

/-- Something is accepted unless there is no call. -/
theorem chunkBytes_pos {chunks : List ℕ} (h : chunks ≠ []) : 0 < chunkBytes chunks := by
  cases chunks with
  | nil => exact absurd rfl h
  | cons more chunks =>
    rw [chunkBytes_cons]
    omega

/-- A loop that counts every accepted byte takes them in front of what ends it; this is shared
by `Nwrite` and `Nsendfile`. -/
theorem dataLoop_data {ε : Type*} {data : ℕ → ε} {loop : List ε → ℕ → ℕ → NetWrite}
    (hdone : ∀ events written, loop events 0 written = ⟨.returned, written⟩)
    (hdata : ∀ more events nleft written, loop (data more :: events) (nleft + 1) written =
      loop events (nleft + 1 - min (more + 1) (nleft + 1))
        (written + min (more + 1) (nleft + 1)))
    (chunks : List ℕ) (rest : List ε) (nleft written : ℕ) :
    loop (chunks.map data ++ rest) nleft written =
      if chunkBytes chunks < nleft then
        loop rest (nleft - chunkBytes chunks) (written + chunkBytes chunks)
      else ⟨.returned, written + nleft⟩ := by
  induction chunks generalizing nleft written with
  | nil =>
    cases nleft with
    | zero => simp [hdone]
    | succ nleft => simp
  | cons more chunks ih =>
    cases nleft with
    | zero => simp [hdone]
    | succ nleft =>
      rw [List.map_cons, List.cons_append, hdata, ih, chunkBytes_cons]
      by_cases hmore : more + 1 + chunkBytes chunks < nleft + 1
      · have hmin : min (more + 1) (nleft + 1) = more + 1 := by omega
        rw [if_pos hmore, hmin, if_pos (by omega)]
        congr 1
        · omega
        · omega
      · rw [if_neg hmore, if_neg (by omega)]
        congr 1
        omega

/-- The loop of `Nwrite`. -/
theorem nwriteLoop_data (chunks : List ℕ) (rest : List WriteEvent) (nleft written : ℕ) :
    nwriteLoop (chunks.map .data ++ rest) nleft written =
      if chunkBytes chunks < nleft then
        nwriteLoop rest (nleft - chunkBytes chunks) (written + chunkBytes chunks)
      else ⟨.returned, written + nleft⟩ :=
  dataLoop_data (fun events _ => by cases events <;> rfl) (fun _ _ _ _ => rfl) chunks rest nleft
    written

/-- The loop of `Nsendfile`. -/
theorem nsendfileLoop_data (chunks : List ℕ) (rest : List SendfileEvent) (nleft written : ℕ) :
    nsendfileLoop (chunks.map .data ++ rest) nleft written =
      if chunkBytes chunks < nleft then
        nsendfileLoop rest (nleft - chunkBytes chunks) (written + chunkBytes chunks)
      else ⟨.returned, written + nleft⟩ :=
  dataLoop_data (fun events _ => by cases events <;> rfl) (fun _ _ _ _ => rfl) chunks rest nleft
    written

end IperfRuntime.SocketIo
