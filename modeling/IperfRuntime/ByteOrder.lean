import Mathlib.Data.List.Induction
import Mathlib.Tactic.Ring

/-!
# Numbers and texts as bytes

Numbers as fixed numbers of bytes, the most significant byte first, and the number that a
sequence of bytes stands for. A text has a character for each byte; no encoding of characters
beyond a byte is spoken of.
-/

namespace IperfRuntime.ByteOrder

/-- The lower bytes of a number, as many as asked for. -/
def bigEndian : ℕ → ℕ → List UInt8
  | 0, _ => []
  | width + 1, n => bigEndian width (n / 256) ++ [UInt8.ofNat (n % 256)]

/-- The number behind a value that has been read. -/
def readBytes : ℕ → List UInt8 → ℕ
  | value, [] => value
  | value, b :: bytes => readBytes (value * 256 + b.toNat) bytes

/-- The number that bytes stand for. -/
def fromBigEndian (bytes : List UInt8) : ℕ := readBytes 0 bytes

/-- The bytes of a text. -/
def toBytes (text : String) : List UInt8 := text.toList.map fun c => UInt8.ofNat c.toNat

/-- The text with the given bytes. -/
def ofBytes (bytes : List UInt8) : String := String.ofList (bytes.map fun b => Char.ofNat b.toNat)

/-- The text of bytes has these bytes again. -/
theorem toBytes_ofBytes (bytes : List UInt8) : toBytes (ofBytes bytes) = bytes := by
  have hbyte : ∀ b : UInt8, UInt8.ofNat (Char.ofNat b.toNat).toNat = b := by
    intro b
    have hlt := b.toNat_lt
    have hvalid : b.toNat.isValidChar := Or.inl (by omega)
    have hchar : (Char.ofNat b.toNat).toNat = b.toNat := by
      unfold Char.ofNat
      rw [dif_pos hvalid]
      rfl
    rw [hchar, UInt8.ofNat_toNat]
  unfold toBytes ofBytes
  rw [String.toList_ofList, List.map_map]
  exact (List.map_congr_left fun b _ => hbyte b).trans (List.map_id bytes)

/-- A number has as many bytes as asked for. -/
@[simp] theorem length_bigEndian (width n : ℕ) : (bigEndian width n).length = width := by
  induction width generalizing n with
  | zero => rfl
  | succ width ih =>
    rw [bigEndian, List.length_append, ih]
    rfl

/-- Reading goes on behind the first part with the value that was read. -/
theorem readBytes_append (value : ℕ) (a b : List UInt8) :
    readBytes value (a ++ b) = readBytes (readBytes value a) b := by
  induction a generalizing value with
  | nil => rfl
  | cons c a ih =>
    rw [List.cons_append, readBytes, readBytes]
    exact ih _

/-- Reading the bytes of a number gives what of it fits into them. -/
theorem fromBigEndian_bigEndian (width n : ℕ) :
    fromBigEndian (bigEndian width n) = n % 256 ^ width := by
  induction width generalizing n with
  | zero =>
    rw [Nat.pow_zero, Nat.mod_one]
    rfl
  | succ width ih =>
    have hlast : (UInt8.ofNat (n % 256)).toNat = n % 256 := by
      rw [UInt8.toNat_ofNat']
      omega
    have hread : fromBigEndian (bigEndian (width + 1) n) =
        fromBigEndian (bigEndian width (n / 256)) * 256 + n % 256 := by
      unfold fromBigEndian
      rw [bigEndian, readBytes_append]
      simp only [readBytes]
      rw [hlast]
    rw [hread, ih, Nat.pow_succ, Nat.mul_comm (256 ^ width) 256, Nat.mod_mul]
    ring

/-- The value that is read is bounded by the number of bytes. -/
theorem readBytes_lt (value : ℕ) (bytes : List UInt8) :
    readBytes value bytes < (value + 1) * 256 ^ bytes.length := by
  induction bytes generalizing value with
  | nil =>
    rw [readBytes, List.length_nil]
    omega
  | cons b bytes ih =>
    have hb : b.toNat < 256 := b.toNat_lt
    have hrest := ih (value * 256 + b.toNat)
    rw [readBytes, List.length_cons, Nat.pow_succ]
    have hle : (value * 256 + b.toNat + 1) * 256 ^ bytes.length ≤
        ((value + 1) * 256) * 256 ^ bytes.length := Nat.mul_le_mul_right _ (by omega)
    calc
      readBytes (value * 256 + b.toNat) bytes < (value * 256 + b.toNat + 1) * 256 ^ bytes.length :=
        hrest
      _ ≤ ((value + 1) * 256) * 256 ^ bytes.length := hle
      _ = (value + 1) * (256 ^ bytes.length * 256) := by ring

/-- So `n` bytes hold a number below `256 ^ n`. -/
theorem fromBigEndian_lt (bytes : List UInt8) : fromBigEndian bytes < 256 ^ bytes.length := by
  have hlt := readBytes_lt 0 bytes
  unfold fromBigEndian
  omega

/-- A further byte is the new lowest one. -/
theorem fromBigEndian_concat (bytes : List UInt8) (b : UInt8) :
    fromBigEndian (bytes ++ [b]) = fromBigEndian bytes * 256 + b.toNat := by
  unfold fromBigEndian
  rw [readBytes_append]
  rfl

/-- Bytes are those of the number they stand for. -/
theorem bigEndian_fromBigEndian (bytes : List UInt8) :
    bigEndian bytes.length (fromBigEndian bytes) = bytes := by
  induction bytes using List.reverseRecOn with
  | nil => rfl
  | append_singleton bytes b ih =>
    have hb : b.toNat < 256 := b.toNat_lt
    have hdiv : (fromBigEndian bytes * 256 + b.toNat) / 256 = fromBigEndian bytes := by omega
    have hmod : (fromBigEndian bytes * 256 + b.toNat) % 256 = b.toNat := by omega
    rw [List.length_append, List.length_singleton, bigEndian, fromBigEndian_concat, hdiv, hmod, ih,
      UInt8.ofNat_toNat]

end IperfRuntime.ByteOrder
