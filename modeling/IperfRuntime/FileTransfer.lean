import IperfRuntime.ListSegments
import IperfRuntime.SocketIo

/-!
# File mode

`diskfile_send` and `diskfile_recv` over the routines of TCP, for one stream. A read of the
file delivers what is asked for up to its end, and a write to it is complete. What the
receiver reads is what the sender's socket took, in order, so the sender's calls can be run
before the receiver's. Several streams on one file, which take turns in an order that the
kernel decides, are not modelled.
-/

namespace IperfRuntime.FileTransfer

open SocketIo ListSegments

/-- A sending stream and its file. -/
structure FileSender where
  /-- What is left of the file. -/
  remaining : List UInt8
  buffer : List UInt8
  /-- Everything the socket took. -/
  wire : List UInt8
  bytesSent : ℕ
  done : Bool

/-- A receiving stream and its file. -/
structure FileReceiver where
  /-- What the socket has still to deliver. -/
  pending : List UInt8
  written : List UInt8
  bytesReceived : ℕ

/-- `iperf_tcp_send` without `-Z`. -/
def iperfTcpSend (blksize : ℕ) (events : List WriteEvent) (s : FileSender) :
    NetOutcome × FileSender :=
  let r := nwrite events blksize
  (r.outcome, { s with
    wire := s.wire ++ s.buffer.take r.written
    bytesSent := if r.outcome = .returned then s.bytesSent + r.written else s.bytesSent })

/-- `diskfile_send`. -/
def diskfileSend (blksize : ℕ) (events : List WriteEvent) (s : FileSender) :
    NetOutcome × FileSender :=
  let block := s.remaining.take blksize
  if block.length = 0 then (.returned, { s with done := true })
  else iperfTcpSend blksize events { s with
    remaining := s.remaining.drop block.length
    buffer := block ++ s.buffer.drop block.length }

/-- `diskfile_recv` with `iperf_tcp_recv`. -/
def diskfileRecv (blksize : ℕ) (events : List ReadEvent) (s : FileReceiver) :
    NetOutcome × FileReceiver :=
  let r := nread events blksize s.pending
  if r.outcome = .returned then
    (.returned, {
      pending := r.pending
      written := s.written ++ r.bytes
      bytesReceived := s.bytesReceived + r.bytes.length })
  else (r.outcome, { s with pending := r.pending })

/-- The calls of a sender in a run, `none` when one of them fails or does not return. A
full socket is left for the next call. -/
def sendCalls (blksize : ℕ) : List (List WriteEvent) → FileSender → Option FileSender
  | [], s => some s
  | events :: calls, s =>
    match diskfileSend blksize events s with
    | (.returned, s) => sendCalls blksize calls s
    | (.softError, s) => sendCalls blksize calls s
    | (.hardError, _) => none
    | (.blocked, _) => none

/-- The calls of a receiver. -/
def recvCalls (blksize : ℕ) : List (List ReadEvent) → FileReceiver → Option FileReceiver
  | [], s => some s
  | events :: calls, s =>
    match diskfileRecv blksize events s with
    | (.returned, s) => recvCalls blksize calls s
    | (.softError, _) => none
    | (.hardError, _) => none
    | (.blocked, _) => none

/-- The buffer of the sender after a number of calls. -/
def bufferAfter (blksize : ℕ) (file buffer : List UInt8) : ℕ → List UInt8
  | 0 => buffer
  | i + 1 =>
    let block := (file.drop (i * blksize)).take blksize
    block ++ (bufferAfter blksize file buffer i).drop block.length

/-- How many bytes the socket takes in a call. -/
def takenSize (blksize : ℕ) (calls : List (List WriteEvent)) (file : List UInt8) (i : ℕ) : ℕ :=
  if i * blksize < file.length then
    match calls[i]? with
    | some events => (nwrite events blksize).written
    | none => 0
  else 0

/-- What a call puts on the wire. -/
def segment (blksize : ℕ) (calls : List (List WriteEvent)) (file buffer : List UInt8) (i : ℕ) :
    List UInt8 :=
  (bufferAfter blksize file buffer (i + 1)).take (takenSize blksize calls file i)

/-- A byte of the buffer in a call: the one of the file in its block, behind the end of the
file the one of the block before, and without one what the buffer held at first. -/
def loadedByte (blksize : ℕ) (file buffer : List UInt8) (i o : ℕ) : Option UInt8 :=
  if i * blksize + o < file.length then file[i * blksize + o]?
  else if i = 0 then buffer[o]?
  else file[(i - 1) * blksize + o]?

/-- How many bytes the receiver's socket delivers. -/
def arrivedCount (blksize : ℕ) : List (List ReadEvent) → ℕ → ℕ
  | [], _ => 0
  | events :: calls, available =>
    readCount events blksize available +
      arrivedCount blksize calls (available - readCount events blksize available)

/-- A call takes no more than a block. -/
theorem takenSize_le (blksize : ℕ) (calls : List (List WriteEvent)) (file : List UInt8) (i : ℕ) :
    takenSize blksize calls file i ≤ blksize := by
  unfold takenSize
  split
  · split
    · exact nwrite_le _ _
    · omega
  · omega

/-- Loading a block keeps the size of the buffer. -/
theorem length_bufferAfter {blksize : ℕ} (file : List UInt8) {buffer : List UInt8}
    (h : buffer.length = blksize) (i : ℕ) :
    (bufferAfter blksize file buffer i).length = blksize := by
  induction i with
  | zero => exact h
  | succ i ih =>
    simp only [bufferAfter, List.length_append, List.length_take, List.length_drop]
    omega

/-- A buffer is the block just read over what was there. -/
theorem getElem?_bufferAfter_succ (blksize : ℕ) (file buffer : List UInt8) {i o : ℕ}
    (ho : o < blksize) :
    (bufferAfter blksize file buffer (i + 1))[o]? =
      if i * blksize + o < file.length then file[i * blksize + o]?
      else (bufferAfter blksize file buffer i)[o]? := by
  have hblock : ((file.drop (i * blksize)).take blksize).length =
      min blksize (file.length - i * blksize) := by
    rw [List.length_take, List.length_drop]
  simp only [bufferAfter]
  split
  · rename_i hin
    rw [List.getElem?_append_left (by omega), List.getElem?_take, if_pos ho, List.getElem?_drop]
  · rename_i hout
    rw [List.getElem?_append_right (by omega), List.getElem?_drop]
    congr 1
    omega

/-- A byte of the buffer is the byte loaded at its place. -/
theorem getElem?_bufferAfter {blksize : ℕ} {file buffer : List UInt8} {i o : ℕ}
    (hi : i * blksize < file.length) (ho : o < blksize) :
    (bufferAfter blksize file buffer (i + 1))[o]? = loadedByte blksize file buffer i o := by
  rw [getElem?_bufferAfter_succ blksize file buffer ho]
  unfold loadedByte
  by_cases hin : i * blksize + o < file.length
  · rw [if_pos hin, if_pos hin]
  · rw [if_neg hin, if_neg hin]
    cases i with
    | zero => rfl
    | succ i =>
      have hnext : (i + 1) * blksize = i * blksize + blksize := Nat.succ_mul i blksize
      rw [getElem?_bufferAfter_succ blksize file buffer ho, if_pos (by omega),
        if_neg (Nat.succ_ne_zero i), Nat.add_sub_cancel]

/-- A segment has the bytes that its call took. -/
theorem length_segment {blksize : ℕ} (calls : List (List WriteEvent)) (file : List UInt8)
    {buffer : List UInt8} (h : buffer.length = blksize) (i : ℕ) :
    (segment blksize calls file buffer i).length = takenSize blksize calls file i := by
  have hbuffer := length_bufferAfter file h (i + 1)
  have htaken := takenSize_le blksize calls file i
  unfold segment
  rw [List.length_take]
  omega

/-- A sender after a number of its calls. -/
structure SenderAt (blksize : ℕ) (calls : List (List WriteEvent)) (file buffer : List UInt8)
    (i : ℕ) (s : FileSender) : Prop where
  remaining : s.remaining = file.drop (i * blksize)
  wire : s.wire = joined (segment blksize calls file buffer) i
  loaded : s.buffer = bufferAfter blksize file buffer i

/-- After a block the file goes on with the next one. -/
theorem drop_block (file : List UInt8) (blksize i : ℕ) :
    (file.drop (i * blksize)).drop ((file.drop (i * blksize)).take blksize).length =
      file.drop ((i + 1) * blksize) := by
  rw [List.drop_drop, List.length_take, List.length_drop, Nat.succ_mul]
  by_cases hle : blksize ≤ file.length - i * blksize
  · rw [Nat.min_eq_left hle]
  · rw [List.drop_eq_nil_of_le (by omega), List.drop_eq_nil_of_le (by omega)]

/-- One call takes the sender one block further, whatever its socket takes: the next call
loads the next block of the file and not what was left of this one. -/
theorem diskfileSend_step {blksize : ℕ} {calls : List (List WriteEvent)}
    {file buffer : List UInt8} {i : ℕ} {s : FileSender} {events : List WriteEvent}
    (h : SenderAt blksize calls file buffer i s) (hcall : calls[i]? = some events) :
    SenderAt blksize calls file buffer (i + 1) (diskfileSend blksize events s).2 := by
  have hsize : (s.remaining.take blksize).length = min blksize (file.length - i * blksize) := by
    rw [h.remaining, List.length_take, List.length_drop]
  unfold diskfileSend
  by_cases hend : (s.remaining.take blksize).length = 0
  · have hblock : (file.drop (i * blksize)).take blksize = [] := by
      rw [← h.remaining]
      exact List.length_eq_zero_iff.mp hend
    have hnone : takenSize blksize calls file i = 0 := by
      have hle := takenSize_le blksize calls file i
      by_cases hin : i * blksize < file.length
      · omega
      · unfold takenSize
        rw [if_neg hin]
    rw [if_pos hend]
    constructor
    · have hrest := drop_block file blksize i
      rw [hblock] at hrest
      exact h.remaining.trans hrest
    · simp only [joined, segment, hnone, List.take_zero, List.append_nil]
      exact h.wire
    · simp only [bufferAfter, hblock, List.length_nil, List.drop_zero, List.nil_append]
      exact h.loaded
  · have hin : i * blksize < file.length := by omega
    have htaken : takenSize blksize calls file i = (nwrite events blksize).written := by
      unfold takenSize
      rw [if_pos hin, hcall]
    have hnext : bufferAfter blksize file buffer (i + 1) =
        s.remaining.take blksize ++ s.buffer.drop (s.remaining.take blksize).length := by
      rw [h.remaining, h.loaded]
      rfl
    rw [if_neg hend]
    unfold iperfTcpSend
    constructor
    · have hrest := drop_block file blksize i
      rw [← h.remaining] at hrest
      exact hrest
    · dsimp only
      rw [h.wire, ← hnext, ← htaken]
      rfl
    · exact hnext.symm

/-- The calls of a run put one segment behind the other, by induction on the calls that
remain. -/
theorem sendCalls_run {blksize : ℕ} {calls rest : List (List WriteEvent)}
    {file buffer : List UInt8} {i : ℕ} {s s' : FileSender}
    (h : SenderAt blksize calls file buffer i s) (hrest : calls.drop i = rest)
    (hrun : sendCalls blksize rest s = some s') :
    SenderAt blksize calls file buffer (i + rest.length) s' := by
  induction rest generalizing i s with
  | nil =>
    cases hrun
    exact h
  | cons events rest ih =>
    have hcall : calls[i]? = some events := by
      rw [← Nat.add_zero i, ← List.getElem?_drop, hrest]
      rfl
    have htail : calls.drop (i + 1) = rest := by
      rw [← List.drop_drop, hrest]
      rfl
    have hstep := diskfileSend_step h hcall
    have hcount : i + (events :: rest).length = i + 1 + rest.length := by
      rw [List.length_cons]
      omega
    rw [hcount]
    simp only [sendCalls] at hrun
    cases hsend : diskfileSend blksize events s with
    | mk outcome next =>
      rw [hsend] at hrun hstep
      cases outcome with
      | returned => exact ih hstep htail hrun
      | softError => exact ih hstep htail hrun
      | hardError => cases hrun
      | blocked => cases hrun

/-- The calls of a receiver write the first of the bytes in order, as many as its reads take,
and never skip one. -/
theorem recvCalls_run {blksize : ℕ} {reads : List (List ReadEvent)} {s s' : FileReceiver}
    (hrun : recvCalls blksize reads s = some s') :
    s'.written = s.written ++ s.pending.take (arrivedCount blksize reads s.pending.length) := by
  induction reads generalizing s with
  | nil =>
    cases hrun
    simp [arrivedCount]
  | cons events reads ih =>
    obtain ⟨hbytes, hpending⟩ := nread_takes events blksize s.pending
    have hle := readCount_le events blksize s.pending.length
    by_cases hread : (nread events blksize s.pending).outcome = .returned
    · have hcall : diskfileRecv blksize events s = (.returned, {
          pending := (nread events blksize s.pending).pending
          written := s.written ++ (nread events blksize s.pending).bytes
          bytesReceived := s.bytesReceived + (nread events blksize s.pending).bytes.length }) :=
        if_pos hread
      simp only [recvCalls, hcall] at hrun
      have hrest := ih hrun
      dsimp only at hrest
      rw [hrest, hbytes, hpending, List.length_drop]
      simp only [arrivedCount]
      rw [List.take_add, List.append_assoc]
    · have hcall : diskfileRecv blksize events s =
          ((nread events blksize s.pending).outcome, { s with
            pending := (nread events blksize s.pending).pending }) := if_neg hread
      simp only [recvCalls, hcall] at hrun
      cases houtcome : (nread events blksize s.pending).outcome with
      | returned => exact absurd houtcome hread
      | softError => simp [houtcome] at hrun
      | hardError => simp [houtcome] at hrun
      | blocked => simp [houtcome] at hrun

/-- No more arrives than is available. -/
theorem arrivedCount_le (blksize : ℕ) (reads : List (List ReadEvent)) (available : ℕ) :
    arrivedCount blksize reads available ≤ available := by
  induction reads generalizing available with
  | nil => simp [arrivedCount]
  | cons events reads ih =>
    have hle := readCount_le events blksize available
    have hrest := ih (available - readCount events blksize available)
    simp only [arrivedCount]
    omega

/-- A run of both ends without an error, to the end of the file. -/
structure FileRun (blksize : ℕ) (calls : List (List WriteEvent)) (reads : List (List ReadEvent))
    (file buffer : List UInt8) (s : FileSender) (r : FileReceiver) : Prop where
  /-- The buffer has the size of a block. -/
  buffer_length : buffer.length = blksize
  sent : sendCalls blksize calls ⟨file, buffer, [], 0, false⟩ = some s
  atEnd : s.done = true
  received : recvCalls blksize reads ⟨s.wire, [], 0⟩ = some r

/-- What the receiver wrote, by what the sockets took and delivered. -/
theorem FileRun.written {blksize : ℕ} {calls : List (List WriteEvent)}
    {reads : List (List ReadEvent)} {file buffer : List UInt8} {s : FileSender} {r : FileReceiver}
    (h : FileRun blksize calls reads file buffer s r) :
    s.wire.length = segmentStart (takenSize blksize calls file) calls.length ∧
      r.written = (joined (segment blksize calls file buffer) calls.length).take
        (arrivedCount blksize reads
          (segmentStart (takenSize blksize calls file) calls.length)) := by
  have hstart : SenderAt blksize calls file buffer 0 ⟨file, buffer, [], 0, false⟩ :=
    ⟨by simp, rfl, rfl⟩
  have hsender := sendCalls_run hstart List.drop_zero h.sent
  rw [Nat.zero_add] at hsender
  have hlength : s.wire.length = segmentStart (takenSize blksize calls file) calls.length := by
    rw [hsender.wire, length_joined]
    congr 1
    funext i
    exact length_segment calls file h.buffer_length i
  have hwritten := recvCalls_run h.received
  dsimp only at hwritten
  rw [List.nil_append, hlength, hsender.wire] at hwritten
  exact ⟨hlength, hwritten⟩

/-- As many bytes arrive as the file has, and each that the sender's socket takes within
the length of the file is the one of the file at its place on the wire. -/
structure InPlace (blksize : ℕ) (calls : List (List WriteEvent)) (reads : List (List ReadEvent))
    (file buffer : List UInt8) : Prop where
  arrived : arrivedCount blksize reads
    (segmentStart (takenSize blksize calls file) calls.length) = file.length
  loaded : ∀ i o, i < calls.length → o < takenSize blksize calls file i →
    segmentStart (takenSize blksize calls file) i + o < file.length →
      loadedByte blksize file buffer i o =
        file[segmentStart (takenSize blksize calls file) i + o]?

/-- A file arrives when the socket takes every block whole and the receiver gets as many
bytes as the file has. -/
theorem wholeBlocks_inPlace {blksize : ℕ} {calls : List (List WriteEvent)}
    {reads : List (List ReadEvent)} {file buffer : List UInt8}
    (hwhole : ∀ i, i * blksize < file.length → takenSize blksize calls file i = blksize)
    (harrived : arrivedCount blksize reads
      (segmentStart (takenSize blksize calls file) calls.length) = file.length) :
    InPlace blksize calls reads file buffer := by
  refine ⟨harrived, ?_⟩
  intro i o hi ho hp
  have hin : i * blksize < file.length := by
    by_contra hout
    unfold takenSize at ho
    rw [if_neg hout] at ho
    omega
  have hstart : segmentStart (takenSize blksize calls file) i = i * blksize := by
    refine segmentStart_const fun j hj => hwhole j ?_
    have hle : j * blksize ≤ i * blksize := Nat.mul_le_mul_right blksize (by omega)
    omega
  rw [hstart] at hp ⊢
  unfold loadedByte
  rw [if_pos hp]

/-- The receiver writes the file exactly when every byte on the wire is in its place: whole
blocks, taken whole, and all of them read. -/
theorem file_transferred_iff {blksize : ℕ} {calls : List (List WriteEvent)}
    {reads : List (List ReadEvent)} {file buffer : List UInt8} {s : FileSender} {r : FileReceiver}
    (h : FileRun blksize calls reads file buffer s r) :
    r.written = file ↔ InPlace blksize calls reads file buffer := by
  obtain ⟨hlength, hwritten⟩ := h.written
  have hsizes : (fun i => (segment blksize calls file buffer i).length) =
      takenSize blksize calls file := by
    funext i
    exact length_segment calls file h.buffer_length i
  have hjoined : (joined (segment blksize calls file buffer) calls.length).length =
      segmentStart (takenSize blksize calls file) calls.length := by
    rw [length_joined, hsizes]
  have harrived := arrivedCount_le blksize reads
    (segmentStart (takenSize blksize calls file) calls.length)
  have hbyte : ∀ i o, o < takenSize blksize calls file i →
      (segment blksize calls file buffer i)[o]? = loadedByte blksize file buffer i o := by
    intro i o ho
    have hle := takenSize_le blksize calls file i
    have hin : i * blksize < file.length := by
      by_contra hout
      unfold takenSize at ho
      rw [if_neg hout] at ho
      omega
    unfold segment
    rw [List.getElem?_take, if_pos ho]
    exact getElem?_bufferAfter hin (by omega)
  rw [hwritten, take_joined_eq_iff, hsizes, hjoined, Nat.min_eq_left harrived]
  constructor
  · rintro ⟨hcount, hplaces⟩
    refine ⟨hcount, ?_⟩
    intro i o hi ho hp
    have hplace := hplaces i o hi (by rw [length_segment calls file h.buffer_length]; exact ho) hp
    rw [← hbyte i o ho]
    exact hplace
  · intro hfaithful
    refine ⟨hfaithful.arrived, ?_⟩
    intro i o hi ho hp
    rw [length_segment calls file h.buffer_length] at ho
    rw [hbyte i o ho]
    exact hfaithful.loaded i o hi ho hp

/-- A file of three bytes in blocks of two is padded with a byte of its first block, as the
buffer is sent whole whatever the last read gave. -/
theorem shortBlock_padded :
    ¬∀ (blksize : ℕ) (calls : List (List WriteEvent)) (reads : List (List ReadEvent))
      (file buffer : List UInt8) (s : FileSender) (r : FileReceiver),
      FileRun blksize calls reads file buffer s r → r.written = file := by
  intro h
  have hrun : FileRun 2 [[.data 1], [.data 1], []] [[.data 1], [.data 1]] [1, 2, 3] [7, 8]
      ⟨[], [3, 2], [1, 2, 3, 2], 4, true⟩ ⟨[], [1, 2, 3, 2], 4⟩ := ⟨rfl, rfl, rfl, rfl⟩
  have hfile := h 2 [[.data 1], [.data 1], []] [[.data 1], [.data 1]] [1, 2, 3] [7, 8] _ _ hrun
  exact absurd hfile (by decide)

/-- A write that a full socket cuts short loses the rest of its block. -/
example :
    sendCalls 2 [[.data 0, .interrupted], [.data 1], []] ⟨[1, 2, 3, 4], [7, 8], [], 0, false⟩ =
    some ⟨[], [3, 4], [1, 3, 4], 3, true⟩ := rfl

/-- A file of whole blocks is transferred unchanged. -/
theorem wholeFile_transferred :
    FileRun 2 [[.data 1], [.data 0, .data 0], []]
      [[.data 0, .interrupted], [.data 4], [.data 2, .eof]]
        [1, 2, 3, 4] [7, 8] ⟨[], [3, 4], [1, 2, 3, 4], 4, true⟩ ⟨[], [1, 2, 3, 4], 4⟩ ∧
      (([1, 2, 3, 4] : List UInt8) = [1, 2, 3, 4] ↔
        InPlace 2 [[.data 1], [.data 0, .data 0], []]
          [[.data 0, .interrupted], [.data 4], [.data 2, .eof]] [1, 2, 3, 4] [7, 8]) := by
  have hrun : FileRun 2 [[.data 1], [.data 0, .data 0], []]
      [[.data 0, .interrupted], [.data 4], [.data 2, .eof]] [1, 2, 3, 4] [7, 8]
      ⟨[], [3, 4], [1, 2, 3, 4], 4, true⟩ ⟨[], [1, 2, 3, 4], 4⟩ := ⟨rfl, rfl, rfl, rfl⟩
  exact ⟨hrun, file_transferred_iff hrun⟩

end IperfRuntime.FileTransfer
