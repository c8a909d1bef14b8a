import Mathlib.Algebra.Group.Nat.Defs
import Mathlib.Tactic.Common

/-!
# Byte encodings

The byte layouts the runtime signs and hashes: little- and big-endian
integers, left padding to 32-byte words, and the SCALE encodings of
lengths, byte vectors and options.
-/

namespace Timechain

/-- `[u8; n]`. -/
abbrev Bytes (n : Nat) : Type := Vector UInt8 n

namespace Codec

/-- The `n` low bytes of `x`, least significant first (`to_le_bytes`). -/
def leBytes : (n : Nat) → Nat → List UInt8
  | 0, _ => []
  | n + 1, x => UInt8.ofNat (x % 256) :: leBytes n (x / 256)

@[simp] theorem leBytes_length (n x : Nat) : (leBytes n x).length = n := by
  induction n generalizing x with
  | zero => rfl
  | succ n ih => simp [leBytes, ih]

/-- `n` bytes determine a number below `256 ^ n`. -/
theorem leBytes_inj {n x y : Nat} (hx : x < 256 ^ n) (hy : y < 256 ^ n)
    (h : leBytes n x = leBytes n y) : x = y := by
  induction n generalizing x y with
  | zero => simp at hx hy; omega
  | succ n ih =>
    obtain ⟨hlow, hhigh⟩ := List.cons.inj h
    have hmod : x % 256 = y % 256 := by
      have := congrArg UInt8.toNat hlow
      simpa using this
    have hdiv : x / 256 = y / 256 :=
      ih (Nat.div_lt_of_lt_mul (by rw [Nat.pow_succ'] at hx; exact hx))
        (Nat.div_lt_of_lt_mul (by rw [Nat.pow_succ'] at hy; exact hy)) hhigh
    omega

/-- `to_be_bytes`. -/
def beBytes (n x : Nat) : List UInt8 := (leBytes n x).reverse

@[simp] theorem beBytes_length (n x : Nat) : (beBytes n x).length = n := by
  simp [beBytes]

theorem beBytes_inj {n x y : Nat} (hx : x < 256 ^ n) (hy : y < 256 ^ n)
    (h : beBytes n x = beBytes n y) : x = y :=
  leBytes_inj hx hy (List.reverse_inj.mp h)

/-- `from_be_bytes`. -/
def ofBeBytes (bytes : List UInt8) : Nat := bytes.foldl (fun n byte => n * 256 + byte.toNat) 0

theorem ofBeBytes_concat (bytes : List UInt8) (byte : UInt8) :
    ofBeBytes (bytes ++ [byte]) = ofBeBytes bytes * 256 + byte.toNat := by
  rw [ofBeBytes, List.foldl_append]
  rfl

theorem ofBeBytes_beBytes {n x : Nat} (h : x < 256 ^ n) : ofBeBytes (beBytes n x) = x := by
  induction n generalizing x with
  | zero =>
      obtain rfl : x = 0 := by simpa using h
      rfl
  | succ n ih =>
      have hdiv : x / 256 < 256 ^ n := Nat.div_lt_of_lt_mul (by rwa [Nat.pow_succ'] at h)
      have hlow : (UInt8.ofNat (x % 256)).toNat = x % 256 := by simp
      have hsplit : beBytes (n + 1) x = beBytes n (x / 256) ++ [UInt8.ofNat (x % 256)] := by
        rw [beBytes, leBytes, List.reverse_cons]
        rfl
      rw [hsplit, ofBeBytes_concat, ih hdiv, hlow]
      omega

/-- `left_pad_32`: at most 32 bytes, zero-padded at the front. -/
def leftPad32 (bytes : List UInt8) : List UInt8 :=
  List.replicate (32 - bytes.length) 0 ++ bytes

theorem leftPad32_length {bytes : List UInt8} (h : bytes.length ≤ 32) :
    (leftPad32 bytes).length = 32 := by
  simp [leftPad32]
  omega

/-- Padding is injective on strings of one length. Strings of different
lengths may pad to the same word. -/
theorem leftPad32_inj {bs bs' : List UInt8} (hlen : bs.length = bs'.length)
    (h : leftPad32 bs = leftPad32 bs') : bs = bs' :=
  (List.append_inj' h hlen).2

/-- SCALE compact encoding of a `u32` length: the two low bits of the
first byte select the width. -/
def compactLen (n : Nat) : List UInt8 :=
  if n < 2 ^ 6 then leBytes 1 (4 * n)
  else if n < 2 ^ 14 then leBytes 2 (4 * n + 1)
  else if n < 2 ^ 30 then leBytes 4 (4 * n + 2)
  else 3 :: leBytes 4 n

/-- SCALE encoding of a sequence: its compact length, then its elements. -/
def encodeVec {α : Type} (enc : α → List UInt8) (xs : List α) : List UInt8 :=
  compactLen xs.length ++ xs.flatMap enc

/-- SCALE encoding of an `Option`. -/
def encodeOption {α : Type} (enc : α → List UInt8) : Option α → List UInt8
  | none => [0]
  | some x => 1 :: enc x

end Codec

end Timechain
