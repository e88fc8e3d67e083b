import IperfRuntime.ByteOrder
import IperfRuntime.EntryPoints
import IperfRuntime.TestParameters

/-!
# The header of a datagram

Three numbers at the offsets 0, 4 and 8 of a buffer, of which `blksize` bytes are sent. A
buffer is mapped in whole pages, so the header always fits into it, whether it is sent whole
or not. The bytes behind the header are what the buffer held before and mean nothing to the
receiver.
-/

namespace IperfRuntime.DatagramHeader

open ClockReading ByteOrder TestState TestParameters EntryPoints

/-- Assignment of a 64 bit value to an unsigned 32 bit variable. -/
def toUint32 (n : ℤ) : ℕ := (n % 2 ^ 32).toNat

/-- `sp->buffer`, the mapping of `blksize` bytes. -/
structure StreamBuffer (blksize : ℕ) where
  bytes : List UInt8
  /-- A page is longer than a header. -/
  headerFits : 16 ≤ bytes.length
  blockFits : blksize ≤ bytes.length

/-- `sec`, `usec` and `pcount` of a header. -/
structure HeaderFields where
  sec : ℕ
  usec : ℕ
  pcount : ℕ
  deriving DecidableEq

/-- How many bytes the counter takes. -/
def counterLength (udpCounters64bit : Bool) : ℕ := if udpCounters64bit then 8 else 4

/-- How many bytes a header takes. -/
def headerLength (udpCounters64bit : Bool) : ℕ := 8 + counterLength udpCounters64bit

/-- What `iperf_udp_send` encodes. -/
def headerFields (udpCounters64bit : Bool) (before : Timeval) (packetCount : ℤ) : HeaderFields where
  sec := toUint32 before.tvSec
  usec := toUint32 before.tvUsec
  pcount := if udpCounters64bit then toUint64 packetCount else toUint32 packetCount

/-- The bytes of a header. -/
def headerBytes (udpCounters64bit : Bool) (fields : HeaderFields) : List UInt8 :=
  bigEndian 4 fields.sec ++ (bigEndian 4 fields.usec ++
    bigEndian (counterLength udpCounters64bit) fields.pcount)

/-- The first bytes of a buffer replaced, as by `memcpy` or `read`. -/
def overwrite (bytes buffer : List UInt8) : List UInt8 := bytes ++ buffer.drop bytes.length

/-- The buffer of the sender behind the three calls of `memcpy`. -/
def fillBuffer (udpCounters64bit : Bool) (fields : HeaderFields) (buffer : List UInt8) :
    List UInt8 :=
  overwrite (headerBytes udpCounters64bit fields) buffer

/-- The datagram that `Nwrite` sends. -/
def transmitted {blksize : ℕ} (udpCounters64bit : Bool) (fields : HeaderFields)
    (buffer : StreamBuffer blksize) : List UInt8 :=
  (fillBuffer udpCounters64bit fields buffer.bytes).take blksize

/-- What `iperf_udp_recv` decodes from its buffer. -/
def decodeHeader (udpCounters64bit : Bool) (buffer : List UInt8) : HeaderFields where
  sec := fromBigEndian (buffer.take 4)
  usec := fromBigEndian ((buffer.drop 4).take 4)
  pcount := fromBigEndian ((buffer.drop 8).take (counterLength udpCounters64bit))

/-- What `iperf_udp_recv` decodes from a datagram, over what its buffer held before. -/
def received {blksize : ℕ} (udpCounters64bit : Bool) (datagram : List UInt8)
    (buffer : StreamBuffer blksize) : HeaderFields :=
  decodeHeader udpCounters64bit (overwrite datagram buffer.bytes)

/-- Fields that fit into a header. -/
structure InRange (udpCounters64bit : Bool) (fields : HeaderFields) : Prop where
  sec : fields.sec < 256 ^ 4
  usec : fields.usec < 256 ^ 4
  pcount : fields.pcount < 256 ^ counterLength udpCounters64bit

/-- A `uint32_t` has four bytes. -/
theorem toUint32_lt (n : ℤ) : toUint32 n < 256 ^ 4 := by
  unfold toUint32
  omega

/-- A `uint64_t` has eight. -/
theorem toUint64_lt (n : ℤ) : toUint64 n < 256 ^ 8 := by
  unfold toUint64
  omega

/-- The fields written into the header fit their places. -/
theorem headerFields_inRange (udpCounters64bit : Bool) (before : Timeval) (packetCount : ℤ) :
    InRange udpCounters64bit (headerFields udpCounters64bit before packetCount) where
  sec := toUint32_lt _
  usec := toUint32_lt _
  pcount := by
    cases udpCounters64bit with
    | false => exact toUint32_lt _
    | true => exact toUint64_lt _

/-- The header has the length of its format. -/
theorem length_headerBytes (udpCounters64bit : Bool) (fields : HeaderFields) :
    (headerBytes udpCounters64bit fields).length = headerLength udpCounters64bit := by
  unfold headerBytes headerLength
  simp only [List.length_append, length_bigEndian]
  omega

/-- It has sixteen bytes at most. -/
theorem headerLength_le (udpCounters64bit : Bool) : headerLength udpCounters64bit ≤ 16 := by
  cases udpCounters64bit with
  | false => decide
  | true => decide

/-- A header is read back from the front of a buffer. -/
theorem decodeHeader_headerBytes {udpCounters64bit : Bool} {fields : HeaderFields}
    (h : InRange udpCounters64bit fields) (rest : List UInt8) :
    decodeHeader udpCounters64bit (headerBytes udpCounters64bit fields ++ rest) = fields := by
  unfold decodeHeader headerBytes
  simp only [List.append_assoc]
  have hsec : (bigEndian 4 fields.sec).length = 4 := length_bigEndian 4 _
  have husec : (bigEndian 4 fields.usec).length = 4 := length_bigEndian 4 _
  have hskip : ∀ more : List UInt8,
      (bigEndian 4 fields.sec ++ (bigEndian 4 fields.usec ++ more)).drop 8 = more := by
    intro more
    rw [← List.append_assoc]
    exact List.drop_left' (by rw [List.length_append, hsec, husec])
  rw [hskip, List.take_left' hsec, List.drop_left' hsec, List.take_left' husec,
    List.take_left' (length_bigEndian _ _), fromBigEndian_bigEndian, fromBigEndian_bigEndian,
    fromBigEndian_bigEndian, Nat.mod_eq_of_lt h.sec, Nat.mod_eq_of_lt h.usec,
    Nat.mod_eq_of_lt h.pcount]

/-- The front of a buffer is determined by what is decoded from it, as each field is a number
of fixed width. -/
theorem decodeHeader_injective {udpCounters64bit : Bool} {a b : List UInt8}
    (ha : headerLength udpCounters64bit ≤ a.length) (hb : headerLength udpCounters64bit ≤ b.length)
    (h : decodeHeader udpCounters64bit a = decodeHeader udpCounters64bit b) :
    a.take (headerLength udpCounters64bit) = b.take (headerLength udpCounters64bit) := by
  have hread : ∀ {x y : List UInt8}, x.length = y.length → fromBigEndian x = fromBigEndian y →
      x = y := by
    intro x y hlength heq
    rw [← bigEndian_fromBigEndian x, ← bigEndian_fromBigEndian y, hlength, heq]
  have hsplit : ∀ x : List UInt8, x.take (headerLength udpCounters64bit) =
      x.take 4 ++ ((x.drop 4).take 4 ++ (x.drop 8).take (counterLength udpCounters64bit)) := by
    intro x
    unfold headerLength
    rw [show 8 + counterLength udpCounters64bit = 4 + (4 + counterLength udpCounters64bit) by omega,
      List.take_add, List.take_add, List.drop_drop]
  unfold headerLength at ha hb
  have hsec := hread (x := a.take 4) (y := b.take 4)
    (by rw [List.length_take, List.length_take]; omega) (congrArg HeaderFields.sec h)
  have husec := hread (x := (a.drop 4).take 4) (y := (b.drop 4).take 4)
    (by rw [List.length_take, List.length_take, List.length_drop, List.length_drop]; omega)
    (congrArg HeaderFields.usec h)
  have hpcount := hread (x := (a.drop 8).take (counterLength udpCounters64bit))
    (y := (b.drop 8).take (counterLength udpCounters64bit))
    (by rw [List.length_take, List.length_take, List.length_drop, List.length_drop]; omega)
    (congrArg HeaderFields.pcount h)
  rw [hsplit, hsplit, hsec, husec, hpcount]

/-- Writing the header keeps the size of the buffer. -/
theorem length_fillBuffer {blksize : ℕ} (udpCounters64bit : Bool) (fields : HeaderFields)
    (buffer : StreamBuffer blksize) :
    (fillBuffer udpCounters64bit fields buffer.bytes).length = buffer.bytes.length := by
  have hfits := buffer.headerFits
  have hlength := headerLength_le udpCounters64bit
  unfold fillBuffer overwrite
  rw [List.length_append, List.length_drop, length_headerBytes]
  omega

/-- A datagram has the size of the block. -/
theorem length_transmitted {blksize : ℕ} (udpCounters64bit : Bool) (fields : HeaderFields)
    (buffer : StreamBuffer blksize) :
    (transmitted udpCounters64bit fields buffer).length = blksize := by
  have hfits := buffer.blockFits
  unfold transmitted
  rw [List.length_take, length_fillBuffer]
  omega

/-- A header that is sent whole is decoded as it was encoded. -/
theorem received_transmitted {blksize : ℕ} {udpCounters64bit : Bool} {fields : HeaderFields}
    (h : InRange udpCounters64bit fields) (hsize : headerLength udpCounters64bit ≤ blksize)
    (out into : StreamBuffer blksize) :
    received udpCounters64bit (transmitted udpCounters64bit fields out) into = fields := by
  have hfront : transmitted udpCounters64bit fields out =
      headerBytes udpCounters64bit fields ++
        (out.bytes.drop (headerBytes udpCounters64bit fields).length).take
          (blksize - headerLength udpCounters64bit) := by
    unfold transmitted fillBuffer overwrite
    rw [List.take_append, length_headerBytes,
      List.take_of_length_le (by rw [length_headerBytes]; exact hsize)]
  unfold received overwrite
  rw [hfront, List.append_assoc]
  exact decodeHeader_headerBytes h _

/-- A buffer that holds one byte over and over. -/
def constantBuffer (blksize : ℕ) (b : UInt8) : StreamBuffer blksize where
  bytes := List.replicate (16 + blksize) b
  headerFits := by
    rw [List.length_replicate]
    omega
  blockFits := by
    rw [List.length_replicate]
    omega

/-- The rest of a header that is not sent whole is what the receiver's buffer held before, so
two old contents are told apart by what is decoded. -/
theorem received_depends {blksize : ℕ} {udpCounters64bit : Bool} (fields : HeaderFields)
    (hsize : blksize < headerLength udpCounters64bit) (out : StreamBuffer blksize) :
    received udpCounters64bit (transmitted udpCounters64bit fields out) (constantBuffer blksize 0) ≠
      received udpCounters64bit (transmitted udpCounters64bit fields out)
        (constantBuffer blksize 1) := by
  intro h
  have hlength := length_transmitted udpCounters64bit fields out
  have hheader := headerLength_le udpCounters64bit
  set sent := transmitted udpCounters64bit fields out with hsent
  have hbyte : ∀ b : UInt8,
      (overwrite sent (constantBuffer blksize b).bytes)[blksize]? = some b := by
    intro b
    unfold overwrite constantBuffer
    rw [List.getElem?_append_right (by omega), hlength, List.getElem?_drop]
    simp
  have hlong : ∀ b : UInt8,
      headerLength udpCounters64bit ≤ (overwrite sent (constantBuffer blksize b).bytes).length := by
    intro b
    unfold overwrite constantBuffer
    rw [List.length_append, List.length_drop, List.length_replicate, hlength]
    omega
  have hfront := decodeHeader_injective (hlong 0) (hlong 1) h
  have hsame := congrArg (fun x => x[blksize]?) hfront
  rw [List.getElem?_take_of_lt hsize, List.getElem?_take_of_lt hsize, hbyte, hbyte] at hsame
  exact absurd hsame (by decide)

/-- Whatever the receiver's buffer held before, the fields come through. -/
def Kept (blksize : ℕ) (udpCounters64bit : Bool) (before : Timeval) (packetCount : ℤ) : Prop :=
  ∀ out into : StreamBuffer blksize,
    received udpCounters64bit
        (transmitted udpCounters64bit (headerFields udpCounters64bit before packetCount) out) into =
      ⟨before.tvSec.toNat, before.tvUsec.toNat, packetCount.toNat⟩

/-- Values that fit are written as they are. -/
theorem headerFields_of_inRange {udpCounters64bit : Bool} {before : Timeval} {packetCount : ℤ}
    (hsec : 0 ≤ before.tvSec ∧ before.tvSec < 2 ^ 32)
    (husec : 0 ≤ before.tvUsec ∧ before.tvUsec < 2 ^ 32)
    (hcount : 1 ≤ packetCount ∧ packetCount ≤ 2 ^ 31 - 1) :
    headerFields udpCounters64bit before packetCount =
      ⟨before.tvSec.toNat, before.tvUsec.toNat, packetCount.toNat⟩ := by
  have h32 : ∀ n : ℤ, 0 ≤ n ∧ n < 2 ^ 32 → toUint32 n = n.toNat := by
    intro n hn
    unfold toUint32
    rw [Int.emod_eq_of_lt hn.1 hn.2]
  have h64 : toUint64 packetCount = packetCount.toNat := by
    unfold toUint64
    rw [Int.emod_eq_of_lt (by omega) (by omega)]
  unfold headerFields
  rw [h32 _ hsec, h32 _ husec, h32 packetCount (by omega), h64]
  cases udpCounters64bit with
  | false => rfl
  | true => rfl

/-- Accepted arguments of a UDP test have a block size that a datagram can carry. -/
theorem parsed_blksize {platform : Platform} {options : List CliOption} {start test : IperfTest}
    (hparse : iperfParseArguments platform options start = .ok test)
    (hudp : test.protocol = .udp) :
    1 ≤ test.settings.blksize ∧ test.settings.blksize ≤ 65507 := by
  unfold iperfParseArguments at hparse
  cases hoptions : parseOptions platform options { test := start } with
  | error e =>
    rw [hoptions] at hparse
    cases hparse
  | ok s =>
    rw [hoptions] at hparse
    have hchecked := finishArguments_checked hparse
    have hpos := hchecked.blksize_pos
    have hle := hchecked.udp_blksize_le hudp
    unfold maxUdpBlocksize at hle
    omega

/-- In a UDP test whose arguments are accepted, the fields come through if and only if the block
is at least as long as the header. -/
theorem header_kept_iff (platform : Platform) (options : List CliOption) (start test : IperfTest)
    (hparse : iperfParseArguments platform options start = .ok test) (hudp : test.protocol = .udp)
    (before : Timeval) (packetCount : ℤ) (hsec : 0 ≤ before.tvSec ∧ before.tvSec < 2 ^ 32)
    (husec : 0 ≤ before.tvUsec ∧ before.tvUsec < 2 ^ 32)
    (hcount : 1 ≤ packetCount ∧ packetCount ≤ 2 ^ 31 - 1) :
    (1 ≤ test.settings.blksize ∧ test.settings.blksize ≤ 65507) ∧
      (Kept test.settings.blksize.toNat test.udpCounters64bit before packetCount ↔
        headerLength test.udpCounters64bit ≤ test.settings.blksize) := by
  have hblock := parsed_blksize hparse hudp
  refine ⟨hblock, ?_⟩
  have hfields := @headerFields_of_inRange test.udpCounters64bit before packetCount hsec husec
    hcount
  constructor
  · intro hkept
    by_contra hshort
    have hsize : test.settings.blksize.toNat < headerLength test.udpCounters64bit := by omega
    have hzero := hkept (constantBuffer _ 0) (constantBuffer _ 0)
    have hone := hkept (constantBuffer _ 0) (constantBuffer _ 1)
    exact received_depends _ hsize _ (hzero.trans hone.symm)
  · intro hlong out into
    rw [received_transmitted (headerFields_inRange _ _ _) (by omega), hfields]

/-- The arguments of a UDP test with a block size. -/
def udpOptions (blksize : ℤ) : List CliOption := [.client "10.0.0.1", .udp, .length blksize]

/-- A test that reads them. -/
def registeredTest : IperfTest := { protocols := [.tcp, .udp] }

/-- The options for UDP with 64 bit counters are accepted with any legal block size. -/
theorem parse_udpOptions (blksize : ℤ) (h : (iperfParseArguments ⟨true, true, fun h => h⟩
      (udpOptions blksize) registeredTest).toOption.map
        (fun t => (t.protocol, t.settings.blksize, t.udpCounters64bit)) =
      some (.udp, blksize, false)) :
    ∃ test, iperfParseArguments ⟨true, true, fun h => h⟩ (udpOptions blksize) registeredTest =
        .ok test ∧ test.protocol = .udp ∧ test.settings.blksize = blksize ∧
      test.udpCounters64bit = false := by
  cases hparse : iperfParseArguments ⟨true, true, fun h => h⟩ (udpOptions blksize)
      registeredTest with
  | error e =>
    rw [hparse] at h
    cases h
  | ok test =>
    rw [hparse] at h
    have hfields : (test.protocol, test.settings.blksize, test.udpCounters64bit) =
        (.udp, blksize, false) := Option.some.inj h
    exact ⟨test, rfl, congrArg Prod.fst hfields, congrArg (·.2.1) hfields,
      congrArg (·.2.2) hfields⟩

/-- The block size of a full Ethernet frame. -/
theorem header_kept_1470 :
    ∃ test, iperfParseArguments ⟨true, true, fun h => h⟩ (udpOptions 1470) registeredTest =
        .ok test ∧
      (Kept test.settings.blksize.toNat test.udpCounters64bit ⟨7, 5⟩ 1 ↔
        headerLength test.udpCounters64bit ≤ test.settings.blksize) := by
  obtain ⟨test, hparse, hudp, _, _⟩ := parse_udpOptions 1470 (by decide +kernel)
  exact ⟨test, hparse, (header_kept_iff _ _ _ test hparse hudp ⟨7, 5⟩ 1 (by decide) (by decide)
    (by decide)).2⟩

/-- Blocks of four bytes are accepted by the option switch, and they carry the seconds only;
the microseconds and the number are lost. -/
theorem header_lost_4 :
    ∃ test, iperfParseArguments ⟨true, true, fun h => h⟩ (udpOptions 4) registeredTest =
        .ok test ∧ test.protocol = .udp ∧
      ¬ Kept test.settings.blksize.toNat test.udpCounters64bit ⟨7, 5⟩ 1 := by
  obtain ⟨test, hparse, hudp, hsize, hcounters⟩ :=
    parse_udpOptions 4 (by decide +kernel)
  refine ⟨test, hparse, hudp, ?_⟩
  intro hkept
  have hzero := hkept (constantBuffer _ 0) (constantBuffer _ 0)
  have hone := hkept (constantBuffer _ 0) (constantBuffer _ 1)
  rw [hsize, hcounters] at hzero hone
  exact received_depends _ (by decide) _ (hzero.trans hone.symm)

end IperfRuntime.DatagramHeader
