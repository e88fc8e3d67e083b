import Mathlib.Data.List.TakeWhile
import IperfRuntime.ByteOrder
import IperfRuntime.JsonTree
import IperfRuntime.SocketIo
import IperfRuntime.TestParameters

/-!
# JSON on the control channel

`JSON_write` and `JSON_read`: four bytes of length in network order, then the text. The
printer and the parser of `cJSON` are parameters, a text without a terminating zero being
a C string. The allocator is one too.
-/

namespace IperfRuntime.JsonFraming

open ByteOrder JsonTree SocketIo TestParameters

/-- The C string in a buffer that is zero behind the given bytes. -/
def cString (bytes : List UInt8) : List UInt8 := bytes.takeWhile (· != 0)

/-- A text without a zero byte is its own C string. -/
theorem cString_eq_self {bytes : List UInt8} (h : 0 ∉ bytes) : cString bytes = bytes := by
  unfold cString
  rw [List.takeWhile_eq_self_iff]
  intro b hb
  rw [bne_iff_ne]
  rintro rfl
  exact h hb

/-- A C string has no zero byte in it. -/
theorem zero_not_mem_cString (bytes : List UInt8) : 0 ∉ cString bytes := by
  intro h
  have hne := List.mem_takeWhile_imp h
  simp at hne

/-- What a call of `JSON_read` has done. -/
structure JsonRead where
  /-- `.blocked` while it waits for the peer. -/
  outcome : NetOutcome
  /-- The value it returns. -/
  json : Option CJson
  /-- What it leaves on the socket. -/
  pending : List UInt8
  /-- The length it goes by. -/
  hsize : Option ℕ
  /-- The size of the buffer it reads the text into. -/
  capacity : Option ℕ
  /-- The text it hands to `cJSON_Parse`. -/
  text : Option (List UInt8)

/-- `hsize+1` in 32 bits. -/
def allocSize (hsize : ℕ) : ℕ := (hsize + 1) % 2 ^ 32

/-- `JSON_read` behind the allocation of the buffer. -/
def readText (parse : List UInt8 → Option CJson) (body : List ReadEvent) (hsize : ℕ)
    (pending : List UInt8) : JsonRead :=
  let r := nread body hsize pending
  match r.outcome with
  | .returned =>
    let rc := toInt r.bytes.length
    if 0 ≤ rc ∧ rc = hsize then
      ⟨.returned, parse (cString r.bytes), r.pending, some hsize, some (allocSize hsize),
        some (cString r.bytes)⟩
    else ⟨.returned, none, r.pending, some hsize, some (allocSize hsize), none⟩
  | .blocked => ⟨.blocked, none, r.pending, some hsize, some (allocSize hsize), none⟩
  | _ => ⟨.returned, none, r.pending, some hsize, some (allocSize hsize), none⟩

/-- `JSON_read`; `nsize` is what the variable holds before. -/
def jsonRead (parse : List UInt8 → Option CJson) (calloc : ℕ → Bool) (nsize : Vector UInt8 4)
    (header body : List ReadEvent) (pending : List UInt8) : JsonRead :=
  let r := nread header 4 pending
  match r.outcome with
  | .returned =>
    let hsize := fromBigEndian (r.bytes ++ nsize.toList.drop r.bytes.length)
    if calloc (allocSize hsize) then readText parse body hsize r.pending
    else ⟨.returned, none, r.pending, some hsize, none, none⟩
  | .blocked => ⟨.blocked, none, r.pending, none, none, none⟩
  | _ => ⟨.returned, none, r.pending, none, none, none⟩

/-- `JSON_write`: the return value, `none` while a call waits, and what was put on the
socket. -/
def jsonWrite (print : CJson → Option (List UInt8)) (header body : List WriteEvent)
    (json : CJson) : Option ℤ × List UInt8 :=
  match print json with
  | none => (some (-1), [])
  | some str =>
    let hsize := str.length % 2 ^ 32
    let w := nwrite header 4
    match w.outcome with
    | .returned =>
      let v := nwrite body hsize
      (match v.outcome with
        | .returned => if toInt v.written < 0 then some (-1) else some 0
        | .blocked => none
        | _ => some (-1), (bigEndian 4 hsize).take w.written ++ str.take v.written)
    | .blocked => (none, (bigEndian 4 hsize).take w.written)
    | _ => (some (-1), (bigEndian 4 hsize).take w.written)

/-- A call that goes by what the peer sent: a value is that of a text behind its length, all
of which was read and nothing else; no other length is used; and the buffer has room for
the text and its terminator. -/
structure Framed (parse : List UInt8 → Option CJson) (pending : List UInt8) (r : JsonRead) :
    Prop where
  value : ∀ json, r.json = some json → ∃ n text, n < 2 ^ 32 ∧ text.length = n ∧
    pending = bigEndian 4 n ++ (text ++ r.pending) ∧ r.text = some text ∧ parse text = some json
  length : ∀ n, r.hsize = some n → 4 ≤ pending.length ∧ n = fromBigEndian (pending.take 4)
  room : ∀ n capacity, r.hsize = some n → r.capacity = some capacity → n + 1 ≤ capacity

/-- `Nread` returns. -/
def Answered (events : List ReadEvent) (count : ℕ) (pending : List UInt8) : Prop :=
  (nread events count pending).outcome = .returned

/-- The streams that `JSON_read` handles: they do not end within the length, the length is
not the largest one unless an empty buffer is refused, and a text that arrives whole holds no
zero byte behind a value. -/
structure Handled (parse : List UInt8 → Option CJson) (calloc : ℕ → Bool)
    (header body : List ReadEvent) (pending : List UInt8) : Prop where
  whole : Answered header 4 pending → 4 ≤ pending.length
  room : Answered header 4 pending → 4 ≤ pending.length →
    fromBigEndian (pending.take 4) = 2 ^ 32 - 1 → calloc 0 = false
  text : Answered header 4 pending → ∀ n text rest, pending = bigEndian 4 n ++ (text ++ rest) →
    n < 2 ^ 31 → text.length = n → calloc (n + 1) = true → Answered body n (text ++ rest) →
    0 ∈ text → parse (cString text) = none

/-- The size that is allocated is one byte more than the length, where that does not wrap. -/
theorem allocSize_of_lt {n : ℕ} (h : n + 1 < 2 ^ 32) : allocSize n = n + 1 := Nat.mod_eq_of_lt h

/-- A length is negative as an `int` from `2 ^ 31` on. -/
theorem toInt_length {n : ℕ} (h : n < 2 ^ 32) :
    (0 ≤ toInt n ↔ n < 2 ^ 31) ∧ (n < 2 ^ 31 → toInt n = n) := by
  unfold toInt
  constructor
  · constructor
    · intro hnonneg
      by_contra hge
      have hneg : (n : ℤ).bmod (2 ^ 32) = n - 2 ^ 32 := by
        rw [Int.bmod_def]
        omega
      omega
    · intro hlt
      have hsame : (n : ℤ).bmod (2 ^ 32) = n := by
        rw [Int.bmod_def]
        omega
      omega
  · intro hlt
    rw [Int.bmod_def]
    omega

/-- A stream splits at the length in front of it. -/
theorem header_split {pending : List UInt8} (h : 4 ≤ pending.length) :
    pending = bigEndian 4 (fromBigEndian (pending.take 4)) ++ pending.drop 4 ∧
      fromBigEndian (pending.take 4) < 2 ^ 32 := by
  have hlength : (pending.take 4).length = 4 := by
    rw [List.length_take]
    omega
  have hbytes := bigEndian_fromBigEndian (pending.take 4)
  have hlt := fromBigEndian_lt (pending.take 4)
  rw [hlength] at hbytes hlt
  refine ⟨?_, by norm_num at hlt ⊢; exact hlt⟩
  rw [hbytes, List.take_append_drop]

/-- The header in front of a text is read as its length. -/
theorem header_of_append {n : ℕ} (rest : List UInt8) (h : n < 2 ^ 32) :
    (bigEndian 4 n ++ rest).take 4 = bigEndian 4 n ∧ (bigEndian 4 n ++ rest).drop 4 = rest ∧
      fromBigEndian (bigEndian 4 n) = n := by
  refine ⟨?_, ?_, ?_⟩
  · rw [List.take_append_of_le_length (by rw [length_bigEndian]), List.take_of_length_le (by simp)]
  · rw [List.drop_append_of_le_length (by rw [length_bigEndian]), List.drop_of_length_le (by simp)]
    rfl
  · rw [fromBigEndian_bigEndian, Nat.mod_eq_of_lt (by norm_num at h ⊢; exact h)]

/-- What `readText` does with a text that arrives: it is parsed if its length is one of an
`int` and all of it is there. -/
theorem readText_returned {parse : List UInt8 → Option CJson} {body : List ReadEvent} {n : ℕ}
    {pending : List UInt8} (hread : nread body n pending =
      ⟨.returned, pending.take n, pending.drop n⟩) (hn : n < 2 ^ 32) :
    readText parse body n pending =
      if n < 2 ^ 31 ∧ n ≤ pending.length then
        ⟨.returned, parse (cString (pending.take n)), pending.drop n, some n, some (allocSize n),
          some (cString (pending.take n))⟩
      else ⟨.returned, none, pending.drop n, some n, some (allocSize n), none⟩ := by
  have hlength : (pending.take n).length = min n pending.length := List.length_take
  have hshort : min n pending.length < 2 ^ 32 := by omega
  obtain ⟨hsign, hsame⟩ := toInt_length hshort
  have hcond : (0 ≤ toInt (pending.take n).length ∧ toInt (pending.take n).length = n) ↔
      n < 2 ^ 31 ∧ n ≤ pending.length := by
    rw [hlength]
    constructor
    · rintro ⟨hnonneg, heq⟩
      have hsmall := hsign.mp hnonneg
      have hvalue := hsame hsmall
      omega
    · rintro ⟨hsmall, hall⟩
      have hmin : min n pending.length = n := by omega
      have hvalue := hsame (by omega)
      rw [hmin] at hvalue ⊢
      omega
  unfold readText
  rw [hread]
  dsimp only
  by_cases h : n < 2 ^ 31 ∧ n ≤ pending.length
  · rw [if_pos (hcond.mpr h), if_pos h]
  · rw [if_neg (fun hc => h (hcond.mp hc)), if_neg h]

/-- A call that has no value, goes by no length and has no buffer. -/
theorem framed_of_none (parse : List UInt8 → Option CJson) (pending left : List UInt8)
    (outcome : NetOutcome) :
    Framed parse pending ⟨outcome, none, left, none, none, none⟩ where
  value := by
    intro json h
    cases h
  length := by
    intro n h
    cases h
  room := by
    intro n capacity h
    cases h

/-- A call that is refused the buffer. -/
theorem framed_of_refused (parse : List UInt8 → Option CJson) {pending : List UInt8}
    (left : List UInt8) (h : 4 ≤ pending.length) :
    Framed parse pending
      ⟨.returned, none, left, some (fromBigEndian (pending.take 4)), none, none⟩ where
  value := by
    intro json hvalue
    cases hvalue
  length := by
    intro n hsize
    cases hsize
    exact ⟨h, rfl⟩
  room := by
    intro n capacity _ hcapacity
    cases hcapacity

/-- Reading the text records its length and the size allocated for it. -/
theorem readText_fields (parse : List UInt8 → Option CJson) (body : List ReadEvent) (n : ℕ)
    (pending : List UInt8) :
    (readText parse body n pending).hsize = some n ∧
      (readText parse body n pending).capacity = some (allocSize n) := by
  unfold readText
  dsimp only
  split
  · split
    · exact ⟨rfl, rfl⟩
    · exact ⟨rfl, rfl⟩
  · exact ⟨rfl, rfl⟩
  · exact ⟨rfl, rfl⟩

/-- Where the text does not arrive the reader blocks. -/
theorem readText_blocked {parse : List UInt8 → Option CJson} {body : List ReadEvent} {n : ℕ}
    {pending : List UInt8} (h : (nread body n pending).outcome = .blocked) :
    readText parse body n pending =
      ⟨.blocked, none, (nread body n pending).pending, some n, some (allocSize n), none⟩ := by
  unfold readText
  dsimp only
  rw [h]

/-- A text behind its length is the only one that a stream starts with. -/
theorem sent_unique {pending text more : List UInt8} {m : ℕ} (hm : m < 2 ^ 32)
    (hpending : pending = bigEndian 4 m ++ (text ++ more)) (htext : text.length = m) :
    m = fromBigEndian (pending.take 4) ∧ (pending.drop 4).take m = text ∧
      (pending.drop 4).drop m = more := by
  obtain ⟨htake, hdrop, heq⟩ := header_of_append (text ++ more) hm
  rw [hpending, htake, hdrop, heq]
  exact ⟨rfl, List.take_left' htext, List.drop_left' htext⟩

/-- A call that goes by the length of the stream and comes to no value. -/
theorem framed_of_valueless (parse : List UInt8 → Option CJson) {pending : List UInt8} {n : ℕ}
    (outcome : NetOutcome) (left : List UInt8) (hheader : 4 ≤ pending.length)
    (hn : n = fromBigEndian (pending.take 4)) (hroom : n + 1 ≤ allocSize n) :
    Framed parse pending ⟨outcome, none, left, some n, some (allocSize n), none⟩ where
  value := by
    intro json h
    cases h
  length := by
    intro m h
    cases h
    exact ⟨hheader, hn⟩
  room := by
    intro m capacity h hcapacity
    cases h
    cases hcapacity
    exact hroom

/-- A call that parses a text as long as its length says is framed: what it takes is a header
and that many bytes. -/
theorem framed_of_text {parse : List UInt8 → Option CJson} {pending : List UInt8} {n : ℕ}
    (hheader : 4 ≤ pending.length) (hn : n = fromBigEndian (pending.take 4))
    (hsmall : n + 1 < 2 ^ 32) (hall : n ≤ (pending.drop 4).length) :
    Framed parse pending ⟨.returned, parse (cString ((pending.drop 4).take n)),
        (pending.drop 4).drop n, some n, some (allocSize n),
        some (cString ((pending.drop 4).take n))⟩ ↔
      (0 ∈ (pending.drop 4).take n → parse (cString ((pending.drop 4).take n)) = none) := by
  have htextLength : ((pending.drop 4).take n).length = n := by
    rw [List.length_take]
    omega
  constructor
  · intro hframed hzero
    cases hparse : parse (cString ((pending.drop 4).take n)) with
    | none => rfl
    | some json =>
      obtain ⟨m, text, hm, htext, hpending, hsameText, -⟩ := hframed.value json hparse
      have hclean := zero_not_mem_cString ((pending.drop 4).take n)
      have htextEq : cString ((pending.drop 4).take n) = text := by
        injection hsameText
      obtain ⟨hmn, htake, -⟩ := sent_unique hm hpending htext
      rw [← hn] at hmn
      rw [hmn] at htake
      rw [htextEq, ← htake] at hclean
      exact absurd hzero hclean
  · intro hclean
    constructor
    · intro json hparse
      dsimp only at hparse
      by_cases hzero : 0 ∈ (pending.drop 4).take n
      · rw [hclean hzero] at hparse
        cases hparse
      · rw [cString_eq_self hzero] at hparse ⊢
        refine ⟨n, (pending.drop 4).take n, by omega, htextLength, ?_, rfl, hparse⟩
        rw [List.take_append_drop, hn]
        exact (header_split hheader).1
    · intro m h
      cases h
      exact ⟨hheader, hn⟩
    · intro m capacity h hcapacity
      cases h
      cases hcapacity
      exact (allocSize_of_lt hsmall).ge

/-- The streams behind the text of a length that was received: which of them are framed
depends on the wrap of the length. -/
theorem readText_framed {parse : List UInt8 → Option CJson} {body : List ReadEvent}
    {pending : List UInt8} {n : ℕ} (hbody : Delivered body) (hheader : 4 ≤ pending.length)
    (hn : n = fromBigEndian (pending.take 4)) (hsmall : n + 1 < 2 ^ 32) :
    Framed parse pending (readText parse body n (pending.drop 4)) ↔
      (n < 2 ^ 31 → n ≤ (pending.drop 4).length → Answered body n (pending.drop 4) →
        0 ∈ (pending.drop 4).take n → parse (cString ((pending.drop 4).take n)) = none) := by
  have hroom : n + 1 ≤ allocSize n := (allocSize_of_lt hsmall).ge
  rcases nread_delivered hbody n (pending.drop 4) with hblocked | hread
  · rw [readText_blocked hblocked]
    constructor
    · intro _ _ _ hanswered
      unfold Answered at hanswered
      rw [hblocked] at hanswered
      cases hanswered
    · intro _
      exact framed_of_valueless parse _ _ hheader hn hroom
  · have hanswered : Answered body n (pending.drop 4) := by
      unfold Answered
      rw [hread]
    rw [readText_returned hread (by omega)]
    by_cases hwhole : n < 2 ^ 31 ∧ n ≤ (pending.drop 4).length
    · rw [if_pos hwhole, framed_of_text hheader hn hsmall hwhole.2]
      constructor
      · intro hclean _ _ _
        exact hclean
      · intro hclean
        exact hclean hwhole.1 hwhole.2 hanswered
    · rw [if_neg hwhole]
      constructor
      · intro _ hless hall
        exact absurd ⟨hless, hall⟩ hwhole
      · intro _
        exact framed_of_valueless parse _ _ hheader hn hroom

/-- `JSON_read` behind a length that was received. -/
theorem jsonRead_returned {parse : List UInt8 → Option CJson} {calloc : ℕ → Bool}
    {nsize : Vector UInt8 4} {header body : List ReadEvent} {n : ℕ} {rest : List UInt8}
    (hn : n < 2 ^ 32) (hread : nread header 4 (bigEndian 4 n ++ rest) =
      ⟨.returned, (bigEndian 4 n ++ rest).take 4, (bigEndian 4 n ++ rest).drop 4⟩) :
    jsonRead parse calloc nsize header body (bigEndian 4 n ++ rest) =
      if calloc (allocSize n) then readText parse body n rest
      else ⟨.returned, none, rest, some n, none, none⟩ := by
  obtain ⟨htake, hdrop, hsame⟩ := header_of_append rest hn
  have hnothing : nsize.toList.drop 4 = [] := List.drop_of_length_le (by simp)
  unfold jsonRead
  rw [hread, htake, hdrop]
  dsimp only
  rw [length_bigEndian, hnothing, List.append_nil, hsame]

/-- Where the header does not arrive it blocks as well. -/
theorem jsonRead_blocked {parse : List UInt8 → Option CJson} {calloc : ℕ → Bool}
    {nsize : Vector UInt8 4} {header body : List ReadEvent} {pending : List UInt8}
    (h : (nread header 4 pending).outcome = .blocked) :
    jsonRead parse calloc nsize header body pending =
      ⟨.blocked, none, (nread header 4 pending).pending, none, none, none⟩ := by
  unfold jsonRead
  dsimp only
  rw [h]

/-- A length that did not arrive whole is one all the same. -/
theorem jsonRead_short {parse : List UInt8 → Option CJson} {calloc : ℕ → Bool}
    {nsize : Vector UInt8 4} {header body : List ReadEvent} {pending : List UInt8}
    (h : (nread header 4 pending).outcome = .returned) :
    ∃ n, (jsonRead parse calloc nsize header body pending).hsize = some n := by
  refine ⟨fromBigEndian ((nread header 4 pending).bytes ++
    nsize.toList.drop (nread header 4 pending).bytes.length), ?_⟩
  unfold jsonRead
  dsimp only
  rw [h]
  dsimp only
  split
  · exact (readText_fields _ _ _ _).1
  · rfl

/-- A stream whose length is refused its buffer is handled. -/
theorem handled_of_refused {parse : List UInt8 → Option CJson} {calloc : ℕ → Bool}
    {header body : List ReadEvent} {pending : List UInt8} (hwhole : 4 ≤ pending.length)
    (hrefused : calloc (allocSize (fromBigEndian (pending.take 4))) = false) :
    Handled parse calloc header body pending where
  whole := fun _ => hwhole
  room := by
    intro _ _ hlargest
    rw [hlargest] at hrefused
    exact hrefused
  text := by
    intro _ m text more hpending hm htext hgranted
    obtain ⟨hmn, -, -⟩ := sent_unique (by omega) hpending htext
    rw [← hmn, allocSize_of_lt (by omega), hgranted] at hrefused
    cases hrefused

/-- A stream whose length is granted its buffer is handled when its text is, so the header
needs no further condition. -/
theorem handled_iff_text {parse : List UInt8 → Option CJson} {calloc : ℕ → Bool}
    {header body : List ReadEvent} {pending : List UInt8} {n : ℕ}
    (hanswered : Answered header 4 pending) (hwhole : 4 ≤ pending.length)
    (hn : n = fromBigEndian (pending.take 4)) (hsmall : n + 1 < 2 ^ 32)
    (hgranted : calloc (n + 1) = true) :
    Handled parse calloc header body pending ↔
      (n < 2 ^ 31 → n ≤ (pending.drop 4).length → Answered body n (pending.drop 4) →
        0 ∈ (pending.drop 4).take n → parse (cString ((pending.drop 4).take n)) = none) := by
  constructor
  · intro hhandled hless hall hreturns hzero
    have hjoin : (pending.drop 4).take n ++ (pending.drop 4).drop n = pending.drop 4 :=
      List.take_append_drop n _
    refine hhandled.text hanswered n _ ((pending.drop 4).drop n) ?_ hless ?_ hgranted ?_ hzero
    · rw [hjoin, hn]
      exact (header_split hwhole).1
    · rw [List.length_take]
      omega
    · rw [hjoin]
      exact hreturns
  · intro hclean
    refine ⟨fun _ => hwhole, ?_, ?_⟩
    · intro _ _ hlargest
      omega
    · intro _ m text more hpending hm htext _ hreturns hzero
      obtain ⟨hmn, htake, hdrop⟩ := sent_unique (by omega) hpending htext
      rw [← hn] at hmn
      rw [hmn] at htake hdrop hreturns
      have hrest : text ++ more = pending.drop 4 := by
        rw [← htake, ← hdrop, List.take_append_drop]
      have hall : n ≤ (pending.drop 4).length := by
        rw [← hrest, List.length_append]
        omega
      rw [hrest] at hreturns
      rw [← htake] at hzero ⊢
      exact hclean (by omega) hall hreturns hzero

/-- `JSON_read` goes by what the peer sent exactly on the streams it handles: whole headers,
lengths of an `int`, and whole texts. -/
theorem jsonRead_framed {parse : List UInt8 → Option CJson} {calloc : ℕ → Bool}
    {nsize : Vector UInt8 4} {header body : List ReadEvent} {pending : List UInt8}
    (hheader : Delivered header) (hbody : Delivered body) :
    Framed parse pending (jsonRead parse calloc nsize header body pending) ↔
      Handled parse calloc header body pending := by
  rcases nread_delivered hheader 4 pending with hblocked | hread
  · have hwaits : ¬ Answered header 4 pending := by
      unfold Answered
      rw [hblocked]
      decide
    rw [jsonRead_blocked hblocked]
    constructor
    · intro _
      exact ⟨fun h => absurd h hwaits, fun h => absurd h hwaits, fun h => absurd h hwaits⟩
    · intro _
      exact framed_of_none parse pending _ _
  · have hanswered : Answered header 4 pending := by
      unfold Answered
      rw [hread]
    by_cases hwhole : 4 ≤ pending.length
    · obtain ⟨hsplit, hn⟩ := header_split hwhole
      have hread' := hread
      rw [hsplit] at hread'
      have hcall := @jsonRead_returned parse calloc nsize header body _ _ hn hread'
      rw [← hsplit] at hcall
      rw [hcall]
      cases hcalloc : calloc (allocSize (fromBigEndian (pending.take 4))) with
      | false =>
        rw [if_neg Bool.false_ne_true]
        constructor
        · intro _
          exact handled_of_refused hwhole hcalloc
        · intro _
          exact framed_of_refused parse _ hwhole
      | true =>
        rw [if_pos rfl]
        by_cases hlargest : fromBigEndian (pending.take 4) = 2 ^ 32 - 1
        · have halloc : allocSize (fromBigEndian (pending.take 4)) = 0 := by
            rw [hlargest]
            rfl
          rw [halloc] at hcalloc
          constructor
          · intro hframed
            have hfields := readText_fields parse body (fromBigEndian (pending.take 4))
              (pending.drop 4)
            have hroom := hframed.room _ _ hfields.1 hfields.2
            omega
          · intro hhandled
            have hrefused := hhandled.room hanswered hwhole hlargest
            rw [hcalloc] at hrefused
            cases hrefused
        · have hsmall : fromBigEndian (pending.take 4) + 1 < 2 ^ 32 := by omega
          rw [allocSize_of_lt hsmall] at hcalloc
          rw [readText_framed hbody hwhole rfl hsmall,
            handled_iff_text hanswered hwhole rfl hsmall hcalloc]
    · constructor
      · intro hframed
        obtain ⟨n, hsize⟩ := @jsonRead_short parse calloc nsize header body pending hanswered
        exact absurd (hframed.length n hsize).1 hwhole
      · intro hhandled
        exact absurd (hhandled.whole hanswered) hwhole

/-- What `JSON_write` puts on the socket when no call fails before the end. -/
theorem jsonWrite_written {print : CJson → Option (List UInt8)} {header body : List WriteEvent}
    {json : CJson} {str : List UInt8} (hprint : print json = some str)
    (hlength : str.length < 2 ^ 31) (hheader : nwrite header 4 = ⟨.returned, 4⟩)
    (hbody : nwrite body str.length = ⟨.returned, str.length⟩) :
    jsonWrite print header body json = (some 0, bigEndian 4 str.length ++ str) := by
  have hsize : str.length % 2 ^ 32 = str.length := Nat.mod_eq_of_lt (by omega)
  have hsign : ¬ toInt str.length < 0 := by
    have hnonneg := (toInt_length (n := str.length) (by omega)).1.mpr hlength
    omega
  unfold jsonWrite
  rw [hprint]
  dsimp only
  rw [hsize, hheader]
  dsimp only
  rw [hbody]
  dsimp only
  rw [if_neg hsign, List.take_of_length_le (by rw [length_bigEndian]),
    List.take_of_length_le (le_refl _)]

/-- `JSON_read`, once it returns, on what `JSON_write` wrote, whatever follows it on the
connection and however the bytes arrive. -/
theorem jsonRead_written {parse : List UInt8 → Option CJson} {calloc : ℕ → Bool}
    {nsize : Vector UInt8 4} {header body : List ReadEvent} {json : CJson} {str rest : List UInt8}
    (hheader : Delivered header) (hbody : Delivered body)
    (hlength : str.length < 2 ^ 31) (hclean : 0 ∉ str) (hparse : parse str = some json)
    (hreturns : (jsonRead parse calloc nsize header body
      (bigEndian 4 str.length ++ (str ++ rest))).outcome = .returned) :
    jsonRead parse calloc nsize header body (bigEndian 4 str.length ++ (str ++ rest)) =
      if calloc (str.length + 1) then
        ⟨.returned, some json, rest, some str.length, some (str.length + 1), some str⟩
      else ⟨.returned, none, str ++ rest, some str.length, none, none⟩ := by
  have hn : str.length < 2 ^ 32 := by omega
  have hsize : allocSize str.length = str.length + 1 := allocSize_of_lt (by omega)
  have hwhole : str.length < 2 ^ 31 ∧ str.length ≤ (str ++ rest).length := by
    rw [List.length_append]
    omega
  rcases nread_delivered hheader 4 (bigEndian 4 str.length ++ (str ++ rest)) with hwaits | hread
  · rw [jsonRead_blocked hwaits] at hreturns
    cases hreturns
  · rw [jsonRead_returned hn hread, hsize] at hreturns ⊢
    cases hcalloc : calloc (str.length + 1) with
    | false =>
      rw [if_neg (by decide), if_neg (by decide)]
    | true =>
      rw [hcalloc, if_pos rfl] at hreturns
      rw [if_pos rfl, if_pos rfl]
      rcases nread_delivered hbody str.length (str ++ rest) with hwaits | htext
      · rw [readText_blocked hwaits] at hreturns
        cases hreturns
      · rw [readText_returned htext hn, if_pos hwhole, List.take_left' rfl, List.drop_left' rfl,
          cString_eq_self hclean, hparse, hsize]

/-- `JSON_read` goes by what the peer sent if and only if the stream is one it handles; and a
tree that `JSON_write` wrote whole is read back, once the call returns, if and only if its
text gets a buffer. -/
theorem jsonRead_framed_iff (parse : List UInt8 → Option CJson) (calloc : ℕ → Bool)
    (nsize : Vector UInt8 4) (header body : List ReadEvent) (pending : List UInt8)
    (hheader : Delivered header) (hbody : Delivered body) :
    (Framed parse pending (jsonRead parse calloc nsize header body pending) ↔
        Handled parse calloc header body pending) ∧
      ∀ (print : CJson → Option (List UInt8)) (wheader wbody : List WriteEvent) (json : CJson)
        (str rest : List UInt8), print json = some str → str.length < 2 ^ 31 → 0 ∉ str →
        parse str = some json → nwrite wheader 4 = ⟨.returned, 4⟩ →
        nwrite wbody str.length = ⟨.returned, str.length⟩ →
        pending = (jsonWrite print wheader wbody json).2 ++ rest →
        (jsonRead parse calloc nsize header body pending).outcome = .returned →
        ((jsonRead parse calloc nsize header body pending).json = some json ∧
            (jsonRead parse calloc nsize header body pending).pending = rest ↔
          calloc (str.length + 1) = true) := by
  refine ⟨jsonRead_framed hheader hbody, ?_⟩
  intro print wheader wbody json str rest hprint hlength hclean hparse hwheader hwbody hpending
    hreturns
  rw [jsonWrite_written hprint hlength hwheader hwbody, List.append_assoc] at hpending
  rw [hpending] at hreturns ⊢
  rw [jsonRead_written hheader hbody hlength hclean hparse hreturns]
  cases calloc (str.length + 1) with
  | false => simp
  | true => simp

/-- A text of one tree, for `null` only. -/
def printNull : CJson → Option (List UInt8)
  | .null => some [110, 117, 108, 108]
  | _ => none

/-- The parser on that text. -/
def parseNull (text : List UInt8) : Option CJson :=
  if text = [110, 117, 108, 108] then some .null else none

/-- The four bytes of `null` are framed whatever follows them on the connection, and read in
two parts they are the same text. -/
theorem jsonRead_null_framed :
    (Framed parseNull [0, 0, 0, 4, 110, 117, 108, 108, 7]
          (jsonRead parseNull (fun _ => true) (Vector.replicate 4 0) [.data 0, .data 7]
            [.data 1, .data 9] [0, 0, 0, 4, 110, 117, 108, 108, 7]) ↔
        Handled parseNull (fun _ => true) [.data 0, .data 7] [.data 1, .data 9]
          [0, 0, 0, 4, 110, 117, 108, 108, 7]) ∧
      (jsonRead parseNull (fun _ => true) (Vector.replicate 4 0) [.data 0, .data 7]
        [.data 1, .data 9] [0, 0, 0, 4, 110, 117, 108, 108, 7]).json = some .null := by
  have hheader : Delivered [.data 0, .data 7] := by
    intro e he
    simp only [List.mem_cons, List.not_mem_nil, or_false] at he
    rcases he with rfl | rfl
    · exact ⟨0, rfl⟩
    · exact ⟨7, rfl⟩
  have hbody : Delivered [.data 1, .data 9] := by
    intro e he
    simp only [List.mem_cons, List.not_mem_nil, or_false] at he
    rcases he with rfl | rfl
    · exact ⟨1, rfl⟩
    · exact ⟨9, rfl⟩
  have hmain := jsonRead_framed_iff parseNull (fun _ => true) (Vector.replicate 4 0)
    [.data 0, .data 7] [.data 1, .data 9] [0, 0, 0, 4, 110, 117, 108, 108, 7] hheader hbody
  refine ⟨hmain.1, ?_⟩
  exact ((hmain.2 printNull [.data 9] [.data 9] .null [110, 117, 108, 108] [7] rfl (by decide)
    (by decide) rfl rfl rfl rfl rfl).mpr rfl).1

/-- A peer that closes behind two bytes of a length: the other two are not its own but what
the stack held before. -/
theorem jsonRead_truncated_unframed :
    ¬ Framed parseNull [0, 0] (jsonRead parseNull (fun _ => true) (Vector.replicate 4 1)
      [.data 1, .data 3] [.data 9] [0, 0]) := by
  intro hframed
  have hlength := (hframed.length 257 rfl).1
  exact absurd hlength (by decide)

end IperfRuntime.JsonFraming
