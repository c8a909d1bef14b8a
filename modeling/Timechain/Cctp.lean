import Timechain.Codec

/-!
# CCTP messages

The payload of a transfer through CCTP (`primitives/src/cctp.rs`): three
byte strings in the layout of the Ethereum ABI. A word for the head comes
first, then the offsets of the three fields, and at each offset the length
of the field and its bytes, filled up to a multiple of 32. Offsets are
counted from behind the first word.

What is encoded decodes to itself (`fromBytes_encode`). Decoding takes any
offset and any length a word can hold. A slice that is out of range and a
sum that does not fit into `usize` are faults of their own: with overflow
checks the sum panics on the spot, without them the slice after it does.
-/

namespace Timechain

namespace Cctp

open Codec

def decodeBlockSize : Nat := 32

inductive DecodeError where
  | insufficientData
  | invalidBlockSize
deriving DecidableEq

/-- What the code has no error for. -/
inductive Fault where
  | sliceOutOfRange
  | overflow
deriving DecidableEq

/-- A computation of the decoder: it may fault, or refuse the input. -/
abbrev Decode (α : Type) : Type := ExceptT DecodeError (Except Fault) α

/-- `input[start..stop]`. -/
def slice (input : List UInt8) (start stop : Nat) : Decode (List UInt8) :=
  if start ≤ stop ∧ stop ≤ input.length then pure ((input.take stop).drop start)
  else ExceptT.lift (.error .sliceOutOfRange)

/-- `input[start..]`. -/
def sliceFrom (input : List UInt8) (start : Nat) : Decode (List UInt8) :=
  slice input start input.length

/-- `+` on `usize`. -/
def addUsize (a b : Nat) : Decode Nat :=
  if a + b < 2 ^ 64 then pure (a + b) else ExceptT.lift (.error .overflow)

/-! ## Decoding -/

/-- `decode_from_block` of an integer of `size` bytes. -/
def decodeFromBlock (size : Nat) (block : List UInt8) : Decode Nat := do
  if block.length ≠ decodeBlockSize then throw .invalidBlockSize
  let bytes ← slice block (decodeBlockSize - size) decodeBlockSize
  return ofBeBytes bytes

/-- `u64::decode_from_block`. -/
def decodeU64 (block : List UInt8) : Decode Nat := decodeFromBlock 8 block

/-- The `padded_length` of `length` bytes: the next multiple of a block. -/
def padToBlock (length : Nat) : Decode Nat :=
  if length % decodeBlockSize = 0 then pure length
  else addUsize length (decodeBlockSize - length % decodeBlockSize)

/-- `decode_dynamic`: the bytes, and the size of their encoding. -/
def decodeDynamic (input : List UInt8) : Decode (List UInt8 × Nat) := do
  if input.length < decodeBlockSize then throw .insufficientData
  let lenBytes ← slice input 0 decodeBlockSize
  let length := ofBeBytes (← slice lenBytes (decodeBlockSize - 8) decodeBlockSize)
  let paddedLength ← padToBlock length
  let totalSize ← addUsize decodeBlockSize paddedLength
  if input.length < totalSize then throw .insufficientData
  let stop ← addUsize decodeBlockSize length
  let data ← slice input decodeBlockSize stop
  return (data, totalSize)

structure CctpMessage where
  attestation : List UInt8
  message : List UInt8
  extraData : List UInt8
deriving DecidableEq

namespace CctpMessage

def fromBytes (input : List UInt8) : Decode CctpMessage := do
  if input.length < decodeBlockSize then throw .insufficientData
  let _ ← decodeU64 (← slice input 0 decodeBlockSize)
  let input ← sliceFrom input decodeBlockSize
  if input.length < 3 * decodeBlockSize then throw .insufficientData
  let attestationOffset ← decodeU64 (← slice input 0 decodeBlockSize)
  let messageOffset ← decodeU64 (← slice input decodeBlockSize (2 * decodeBlockSize))
  let extraOffset ← decodeU64 (← slice input (2 * decodeBlockSize) (3 * decodeBlockSize))
  let (attestation, _) ← decodeDynamic (← sliceFrom input attestationOffset)
  let (message, _) ← decodeDynamic (← sliceFrom input messageOffset)
  let (extraData, _) ← decodeDynamic (← sliceFrom input extraOffset)
  return ⟨attestation, message, extraData⟩

end CctpMessage

/-! ## Encoding -/

/-- A `usize` as a word. -/
def encodeWord (n : Nat) : List UInt8 := leftPad32 (beBytes 8 n)

/-- The length, the bytes, and zeros up to a multiple of 32. -/
def encodeDynamic (bytes : List UInt8) : List UInt8 :=
  let remainder := bytes.length % 32
  let padding := if remainder = 0 then 0 else 32 - remainder
  encodeWord bytes.length ++ bytes ++ List.replicate padding 0

def CctpMessage.encode (m : CctpMessage) : List UInt8 :=
  let attestation := encodeDynamic m.attestation
  let message := encodeDynamic m.message
  let extraData := encodeDynamic m.extraData
  let attestationOffset := 3 * decodeBlockSize
  let messageOffset := attestationOffset + attestation.length
  let extraOffset := messageOffset + message.length
  let tail := encodeWord attestationOffset ++ encodeWord messageOffset ++ encodeWord extraOffset
    ++ attestation ++ message ++ extraData
  encodeWord 32 ++ tail

/-! ## What the decoder reads -/

/-- The number in the word of `input` at `start`. -/
def wordAt (input : List UInt8) (start : Nat) : Nat :=
  ofBeBytes (((input.drop start).take 32).drop 24)

/-- The size of `length` bytes filled up to whole words. -/
def paddedLength (length : Nat) : Nat := (length + 31) / 32 * 32

theorem slice_of_le {input : List UInt8} {start stop : Nat} (h : start ≤ stop)
    (hstop : stop ≤ input.length) :
    slice input start stop = pure ((input.drop start).take (stop - start)) := by
  rw [slice, if_pos ⟨h, hstop⟩, List.drop_take]

theorem sliceFrom_of_le {input : List UInt8} {start : Nat} (h : start ≤ input.length) :
    sliceFrom input start = pure (input.drop start) := by
  rw [sliceFrom, slice_of_le h (Nat.le_refl _), List.take_of_length_le (by simp)]

theorem sliceFrom_of_lt {input : List UInt8} {start : Nat} (h : input.length < start) :
    sliceFrom input start = ExceptT.lift (.error .sliceOutOfRange) := by
  rw [sliceFrom, slice, if_neg (by omega)]

theorem addUsize_of_lt {a b : Nat} (h : a + b < 2 ^ 64) : addUsize a b = pure (a + b) :=
  if_pos h

theorem addUsize_of_ge {a b : Nat} (h : 2 ^ 64 ≤ a + b) :
    addUsize a b = ExceptT.lift (.error .overflow) :=
  if_neg (by omega)

/-- The low eight bytes of a word. -/
theorem slice_word {input : List UInt8} {start : Nat} (h : start + 32 ≤ input.length) :
    slice ((input.drop start).take 32) 24 32 = pure (((input.drop start).take 32).drop 24) := by
  have hlength : ((input.drop start).take 32).length = 32 := by
    simp only [List.length_take, List.length_drop]
    omega
  rw [slice_of_le (by omega) (by omega), List.take_of_length_le (by simp [hlength])]

/-- A word in range decodes, to the number it holds. -/
theorem decodeU64_slice {input : List UInt8} {start stop : Nat} (hstop : stop = start + 32)
    (h : stop ≤ input.length) :
    (do decodeU64 (← slice input start stop)) = (pure (wordAt input start) : Decode Nat) := by
  subst hstop
  have hlength : ((input.drop start).take 32).length = 32 := by
    simp only [List.length_take, List.length_drop]
    omega
  rw [slice_of_le (Nat.le_add_right _ _) h, pure_bind, Nat.add_sub_cancel_left, decodeU64,
    decodeFromBlock, if_neg (by rw [hlength]; decide)]
  exact congrArg (· >>= fun bytes => pure (ofBeBytes bytes)) (slice_word h)

/-- Rounding the length up: the one sum that may overflow before the size is known. -/
theorem padToBlock_of_le {length : Nat} (h : length ≤ 2 ^ 64 - 64) :
    padToBlock length = pure (paddedLength length) := by
  have hvalue : paddedLength length =
      if length % 32 = 0 then length else length + (32 - length % 32) := by
    unfold paddedLength
    split <;> omega
  unfold padToBlock decodeBlockSize
  rw [hvalue]
  split
  · rfl
  · exact addUsize_of_lt (by omega)

/-- What cannot be rounded up, or not behind one more word, overflows. -/
theorem padToBlock_of_gt {length : Nat} (h : 2 ^ 64 - 64 < length) :
    (do addUsize 32 (← padToBlock length)) = ExceptT.lift (.error .overflow) := by
  unfold padToBlock decodeBlockSize
  split
  · exact addUsize_of_ge (by omega)
  · by_cases hpad : length + (32 - length % 32) < 2 ^ 64
    · rw [addUsize_of_lt hpad, pure_bind, addUsize_of_ge (by omega)]
    · rw [addUsize_of_ge (Nat.le_of_not_lt hpad)]
      rfl

/-- From a whole word on, `decode_dynamic` is decided by the length in it. -/
theorem decodeDynamic_eq {input : List UInt8} (h : 32 ≤ input.length) :
    decodeDynamic input =
      (do
        let paddedLength ← padToBlock (wordAt input 0)
        let totalSize ← addUsize 32 paddedLength
        if input.length < totalSize then throw .insufficientData
        let stop ← addUsize 32 (wordAt input 0)
        let data ← slice input 32 stop
        return (data, totalSize)) := by
  have hword := slice_word (show 0 + 32 ≤ input.length by omega)
  have hfirst : slice input 0 32 = pure ((input.drop 0).take 32) := slice_of_le (by omega) h
  unfold decodeDynamic decodeBlockSize
  rw [if_neg (Nat.not_lt.mpr h), hfirst]
  simp only [pure_bind, Nat.reduceSub]
  rw [hword]
  rfl

theorem decodeDynamic_short {input : List UInt8} (h : input.length < 32) :
    decodeDynamic input = throw .insufficientData := by
  unfold decodeDynamic decodeBlockSize
  rw [if_pos h]
  rfl

theorem decodeDynamic_overflow {input : List UInt8} (h : 32 ≤ input.length)
    (hlength : 2 ^ 64 - 64 < wordAt input 0) :
    decodeDynamic input = ExceptT.lift (.error .overflow) := by
  rw [decodeDynamic_eq h, ← bind_assoc, padToBlock_of_gt hlength]
  rfl

/-- A length that can be rounded up: the field is read exactly if it is there. -/
theorem decodeDynamic_of_le {input : List UInt8} (h : 32 ≤ input.length)
    (hlength : wordAt input 0 ≤ 2 ^ 64 - 64) :
    decodeDynamic input =
      if input.length < 32 + paddedLength (wordAt input 0) then throw .insufficientData
      else pure ((input.drop 32).take (wordAt input 0), 32 + paddedLength (wordAt input 0)) := by
  have hpadded : wordAt input 0 ≤ paddedLength (wordAt input 0) ∧
      paddedLength (wordAt input 0) < 2 ^ 64 - 32 := by
    unfold paddedLength
    omega
  rw [decodeDynamic_eq h, padToBlock_of_le hlength, pure_bind, addUsize_of_lt (by omega), pure_bind]
  split
  · rfl
  · dsimp only
    rw [addUsize_of_lt (by omega), pure_bind, slice_of_le (by omega) (by omega), pure_bind,
      Nat.add_sub_cancel_left]

/-- A field: the bytes at an offset behind the first word. -/
def field (body : List UInt8) (offset : Nat) : Decode (List UInt8) := do
  let (bytes, _) ← decodeDynamic (← sliceFrom body offset)
  return bytes

theorem fromBytes_short {input : List UInt8} (h : input.length < 4 * 32) :
    CctpMessage.fromBytes input = throw .insufficientData := by
  unfold CctpMessage.fromBytes decodeBlockSize
  by_cases hword : input.length < 32
  · rw [if_pos hword]
    rfl
  · have hhead : (do decodeU64 (← slice input 0 32)) = (pure (wordAt input 0) : Decode Nat) :=
      decodeU64_slice rfl (by omega)
    rw [if_neg hword, ← bind_assoc, hhead, pure_bind, sliceFrom_of_le (by omega), pure_bind,
      if_pos (by rw [List.length_drop]; omega)]
    rfl

/-- An input with all its offsets: the three fields are read one after the other. -/
theorem fromBytes_eq {input : List UInt8} (h : 4 * 32 ≤ input.length) :
    CctpMessage.fromBytes input =
      (do
        let attestation ← field (input.drop 32) (wordAt (input.drop 32) 0)
        let message ← field (input.drop 32) (wordAt (input.drop 32) 32)
        let extraData ← field (input.drop 32) (wordAt (input.drop 32) 64)
        return ⟨attestation, message, extraData⟩) := by
  have hbody : 3 * 32 ≤ (input.drop 32).length := by
    rw [List.length_drop]
    omega
  have hhead : (do decodeU64 (← slice input 0 32)) = (pure (wordAt input 0) : Decode Nat) :=
    decodeU64_slice rfl (by omega)
  have hword : ∀ k ≤ 2, (do decodeU64 (← slice (input.drop 32) (k * 32) ((k + 1) * 32))) =
      (pure (wordAt (input.drop 32) (k * 32)) : Decode Nat) := by
    intro k hk
    exact decodeU64_slice (by omega) (by omega)
  have hzero := hword 0 (by decide)
  have hone := hword 1 (by decide)
  have htwo := hword 2 (by decide)
  unfold CctpMessage.fromBytes decodeBlockSize
  rw [if_neg (by omega), ← bind_assoc, hhead, pure_bind, sliceFrom_of_le (by omega), pure_bind,
    if_neg (by omega)]
  simp only [Nat.zero_mul, Nat.zero_add, Nat.one_mul, Nat.reduceAdd, Nat.reduceMul]
    at hzero hone htwo
  simp only [Nat.reduceMul]
  rw [← bind_assoc, hzero, pure_bind, ← bind_assoc, hone, pure_bind, ← bind_assoc, htwo, pure_bind]
  simp only [field, bind_assoc, pure_bind]

/-! ## Round trip -/

theorem encodeWord_length (n : Nat) : (encodeWord n).length = 32 :=
  leftPad32_length (by rw [beBytes_length]; decide)

theorem wordAt_append (front : List UInt8) {start : Nat} (h : front.length = start) {n : Nat}
    (hn : n < 2 ^ 64) (rest : List UInt8) : wordAt (front ++ encodeWord n ++ rest) start = n := by
  have hword : (encodeWord n ++ rest).take 32 = encodeWord n := by
    rw [List.take_append_of_le_length (Nat.le_of_eq (encodeWord_length n).symm),
      List.take_of_length_le (Nat.le_of_eq (encodeWord_length n))]
  have hlow : (encodeWord n).drop 24 = beBytes 8 n := by
    rw [encodeWord, leftPad32, beBytes_length, List.drop_append_of_le_length (by simp)]
    simp
  rw [wordAt, List.append_assoc, ← h, List.drop_left, hword, hlow]
  exact ofBeBytes_beBytes (by omega)

theorem encodeDynamic_length (bytes : List UInt8) :
    (encodeDynamic bytes).length = 32 + paddedLength bytes.length := by
  unfold encodeDynamic paddedLength
  simp only [List.length_append, List.length_replicate, encodeWord_length]
  split <;> omega

/-- An encoded field decodes wherever it stands. -/
theorem decodeDynamic_encodeDynamic (bytes rest : List UInt8) (h : bytes.length < 2 ^ 63) :
    decodeDynamic (encodeDynamic bytes ++ rest) =
      pure (bytes, (encodeDynamic bytes).length) := by
  have hlength : (encodeDynamic bytes ++ rest).length =
      32 + paddedLength bytes.length + rest.length := by
    rw [List.length_append, encodeDynamic_length]
  obtain ⟨padding, hpadding⟩ : ∃ padding, encodeDynamic bytes ++ rest =
      [] ++ encodeWord bytes.length ++ (bytes ++ padding) := by
    rw [encodeDynamic, List.nil_append, List.append_assoc, List.append_assoc]
    exact ⟨_, rfl⟩
  have hword : wordAt (encodeDynamic bytes ++ rest) 0 = bytes.length := by
    rw [hpadding]
    exact wordAt_append [] rfl (by omega) _
  have hdata : ((encodeDynamic bytes ++ rest).drop 32).take bytes.length = bytes := by
    rw [hpadding, List.nil_append, List.drop_left' (encodeWord_length _), List.take_left]
  rw [decodeDynamic_of_le (by omega) (by omega), hword, hdata, if_neg (by omega),
    encodeDynamic_length]

theorem field_append (front bytes rest : List UInt8) {offset : Nat} (h : front.length = offset)
    (hbytes : bytes.length < 2 ^ 63) :
    field (front ++ encodeDynamic bytes ++ rest) offset = pure bytes := by
  have hdrop : (front ++ encodeDynamic bytes ++ rest).drop offset = encodeDynamic bytes ++ rest := by
    rw [List.append_assoc, ← h, List.drop_left]
  have hin : offset ≤ (front ++ encodeDynamic bytes ++ rest).length := by
    simp only [List.length_append]
    omega
  rw [field, sliceFrom_of_le hin, pure_bind, hdrop, decodeDynamic_encodeDynamic _ _ hbytes]
  rfl

namespace CctpMessage

/-- The offset of the message in the body. -/
def messageOffset (m : CctpMessage) : Nat := 96 + (encodeDynamic m.attestation).length

/-- The offset of the extra data in the body. -/
def extraOffset (m : CctpMessage) : Nat := m.messageOffset + (encodeDynamic m.message).length

/-- The three offsets. -/
def offsets (m : CctpMessage) : List UInt8 :=
  encodeWord 96 ++ encodeWord m.messageOffset ++ encodeWord m.extraOffset

theorem offsets_length (m : CctpMessage) : m.offsets.length = 96 := by
  simp only [offsets, List.length_append, encodeWord_length]

theorem encode_eq (m : CctpMessage) :
    m.encode = encodeWord 32 ++ (m.offsets ++ encodeDynamic m.attestation
      ++ encodeDynamic m.message ++ encodeDynamic m.extraData) :=
  rfl

/-- Every message whose encoding is not too long decodes to itself. -/
theorem fromBytes_encode (m : CctpMessage) (h : m.encode.length < 2 ^ 63) :
    (fromBytes m.encode).run = .ok (.ok m) := by
  have hsize : m.encode.length = 128 + (encodeDynamic m.attestation).length
      + (encodeDynamic m.message).length + (encodeDynamic m.extraData).length := by
    rw [encode_eq]
    simp only [List.length_append, encodeWord_length, offsets_length]
    omega
  have hbound : ∀ bytes : List UInt8, bytes.length < (encodeDynamic bytes).length := by
    intro bytes
    rw [encodeDynamic_length]
    unfold paddedLength
    omega
  have hbody : m.encode.drop 32 = m.offsets ++ encodeDynamic m.attestation
      ++ encodeDynamic m.message ++ encodeDynamic m.extraData := by
    rw [encode_eq, List.drop_left' (encodeWord_length _)]
  have hattestation := hbound m.attestation
  have hmessage := hbound m.message
  have hextra := hbound m.extraData
  have hmessageOffset : m.messageOffset = 96 + (encodeDynamic m.attestation).length := rfl
  have hextraOffset : m.extraOffset = m.messageOffset + (encodeDynamic m.message).length := rfl
  -- the three offsets, each read from its own word
  have hfirst : wordAt (m.encode.drop 32) 0 = 96 := by
    rw [hbody]
    simp only [offsets, List.append_assoc]
    exact wordAt_append [] rfl (by omega) _
  have hsecond : wordAt (m.encode.drop 32) 32 = m.messageOffset := by
    rw [hbody]
    simp only [offsets, List.append_assoc]
    rw [← List.append_assoc]
    exact wordAt_append _ (encodeWord_length _) (by omega) _
  have hthird : wordAt (m.encode.drop 32) 64 = m.extraOffset := by
    rw [hbody]
    simp only [offsets, List.append_assoc]
    rw [← List.append_assoc, ← List.append_assoc]
    exact wordAt_append _ (by simp only [List.length_append, encodeWord_length]) (by omega) _
  -- the fields they point at
  have hfieldA : field (m.encode.drop 32) 96 = pure m.attestation := by
    rw [hbody, List.append_assoc]
    exact field_append _ _ _ m.offsets_length (by omega)
  have hfieldM : field (m.encode.drop 32) m.messageOffset = pure m.message := by
    rw [hbody]
    refine field_append _ _ _ ?_ (by omega)
    rw [List.length_append, offsets_length, hmessageOffset]
  have hfieldX : field (m.encode.drop 32) m.extraOffset = pure m.extraData := by
    rw [hbody, ← List.append_nil (_ ++ _ ++ _ ++ encodeDynamic m.extraData)]
    refine field_append _ _ _ ?_ (by omega)
    simp only [List.length_append, offsets_length, hextraOffset, hmessageOffset]
  rw [fromBytes_eq (by omega), hfirst, hsecond, hthird, hfieldA, hfieldM, hfieldX]
  rfl

end CctpMessage

/-- Fields of no bytes, of a word, and of a word and a bit. -/
def exampleMessage : CctpMessage :=
  ⟨[], List.replicate 32 7, List.replicate 33 9⟩

theorem fromBytes_encode_example :
    exampleMessage.encode.length < 2 ^ 63 ∧
      (CctpMessage.fromBytes exampleMessage.encode).run = .ok (.ok exampleMessage) :=
  have h : exampleMessage.encode.length < 2 ^ 63 := by decide +kernel
  ⟨h, CctpMessage.fromBytes_encode exampleMessage h⟩

/-! ## Faults -/

/-- Field `k` can be looked for: its offset is inside the body, and the
length found there, if there is one, can be rounded up behind a word. -/
def InRange (body : List UInt8) (k : Nat) : Prop :=
  wordAt body (32 * k) ≤ body.length ∧
    (32 ≤ (body.drop (wordAt body (32 * k))).length →
      wordAt (body.drop (wordAt body (32 * k))) 0 ≤ 2 ^ 64 - 64)

/-- Field `k` is there as a whole. -/
def Complete (body : List UInt8) (k : Nat) : Prop :=
  32 ≤ (body.drop (wordAt body (32 * k))).length ∧
    32 + paddedLength (wordAt (body.drop (wordAt body (32 * k))) 0) ≤
      (body.drop (wordAt body (32 * k))).length

/-- A computation that does not fault. -/
def Returns {α : Type} (c : Decode α) : Prop := ∃ r, c.run = .ok r

theorem returns_pure {α : Type} (a : α) : Returns (pure a : Decode α) := ⟨.ok a, rfl⟩

theorem returns_throw {α : Type} (e : DecodeError) : Returns (throw e : Decode α) :=
  ⟨.error e, rfl⟩

theorem not_returns_fault {α : Type} (fault : Fault) :
    ¬ Returns (ExceptT.lift (.error fault) : Decode α) := by
  rintro ⟨r, h⟩
  cases h

/-- One computation after the other: the second runs on the value of the first. -/
theorem returns_bind {α β : Type} (c : Decode α) (f : α → Decode β) :
    Returns (c >>= f) ↔ Returns c ∧ ∀ a, c = pure a → Returns (f a) := by
  rcases c with fault | e | a
  · refine ⟨fun h => absurd h (not_returns_fault fault), fun h => ?_⟩
    exact absurd h.1 (not_returns_fault fault)
  · refine ⟨fun _ => ⟨returns_throw e, ?_⟩, fun _ => returns_throw e⟩
    intro a h
    cases h
  · refine ⟨fun h => ⟨returns_pure a, ?_⟩, fun h => h.2 a rfl⟩
    intro b hb
    cases hb
    exact h

theorem field_of_not_complete {body : List UInt8} {k : Nat} (h : InRange body k)
    (hshort : ¬ Complete body k) :
    field body (wordAt body (32 * k)) = throw .insufficientData := by
  rw [field, sliceFrom_of_le h.1, pure_bind]
  by_cases hword : 32 ≤ (body.drop (wordAt body (32 * k))).length
  · rw [decodeDynamic_of_le hword (h.2 hword), if_pos]
    · rfl
    · exact Nat.lt_of_not_le fun hle => hshort ⟨hword, hle⟩
  · rw [decodeDynamic_short (Nat.lt_of_not_le hword)]
    rfl

theorem field_of_complete {body : List UInt8} {k : Nat} (h : InRange body k)
    (hcomplete : Complete body k) : ∃ bytes, field body (wordAt body (32 * k)) = pure bytes := by
  rw [field, sliceFrom_of_le h.1, pure_bind, decodeDynamic_of_le hcomplete.1 (h.2 hcomplete.1),
    if_neg (Nat.not_lt.mpr hcomplete.2)]
  exact ⟨_, rfl⟩

/-- Outside its range a field faults: at the slice or at the sum. -/
theorem returns_field (body : List UInt8) (k : Nat) :
    Returns (field body (wordAt body (32 * k))) ↔ InRange body k := by
  constructor
  · intro h
    rcases Nat.lt_or_ge body.length (wordAt body (32 * k)) with hout | hin
    · rw [field, sliceFrom_of_lt hout] at h
      exact absurd h (not_returns_fault _)
    · refine ⟨hin, fun hword => Nat.le_of_not_lt fun hlength => ?_⟩
      rw [field, sliceFrom_of_le hin, pure_bind, decodeDynamic_overflow hword hlength] at h
      exact absurd h (not_returns_fault _)
  · intro h
    by_cases hcomplete : Complete body k
    · obtain ⟨bytes, hbytes⟩ := field_of_complete h hcomplete
      exact hbytes ▸ returns_pure bytes
    · exact field_of_not_complete h hcomplete ▸ returns_throw _

/-- What follows a field runs if the field is complete. -/
theorem returns_field_bind {β : Type} (body : List UInt8) (k : Nat)
    (f : List UInt8 → Decode β) (P : Prop) (hf : ∀ bytes, Returns (f bytes) ↔ P) :
    Returns (field body (wordAt body (32 * k)) >>= f) ↔
      InRange body k ∧ (Complete body k → P) := by
  rw [returns_bind, returns_field]
  refine and_congr_right fun h => ⟨fun hnext hcomplete => ?_, fun hP bytes hbytes => ?_⟩
  · obtain ⟨bytes, hbytes⟩ := field_of_complete h hcomplete
    exact (hf bytes).mp (hnext bytes hbytes)
  · refine (hf bytes).mpr (hP (not_not.mp fun hshort => ?_))
    rw [field_of_not_complete h hshort] at hbytes
    cases hbytes

/-- Decoding faults on every input with all its offsets in which a field is
out of range and the fields before it are complete, and on no other. -/
theorem fromBytes_returns_iff (input : List UInt8) :
    Returns (CctpMessage.fromBytes input) ↔
      input.length < 4 * decodeBlockSize ∨
        (InRange (input.drop 32) 0 ∧ (Complete (input.drop 32) 0 →
          InRange (input.drop 32) 1 ∧ (Complete (input.drop 32) 1 →
            InRange (input.drop 32) 2))) := by
  by_cases h : input.length < 4 * decodeBlockSize
  · rw [fromBytes_short h]
    exact ⟨fun _ => .inl h, fun _ => returns_throw _⟩
  · rw [fromBytes_eq (Nat.le_of_not_lt h), or_iff_right h]
    refine returns_field_bind _ 0 _ _ fun attestation => ?_
    refine returns_field_bind _ 1 _ _ fun message => ?_
    refine (returns_field_bind _ 2 _ True fun extraData => ?_).trans (by simp)
    exact ⟨fun _ => trivial, fun _ => returns_pure _⟩

/-- Four words with an offset one past the body, and a length of `u64::MAX`
behind three good offsets. -/
theorem fromBytes_faults :
    (CctpMessage.fromBytes
        (encodeWord 32 ++ encodeWord 97 ++ encodeWord 0 ++ encodeWord 0)).run =
      .error .sliceOutOfRange ∧
    (CctpMessage.fromBytes
        (encodeWord 32 ++ encodeWord 96 ++ encodeWord 96 ++ encodeWord 96
          ++ encodeWord (2 ^ 64 - 1))).run =
      .error .overflow := by
  decide +kernel

end Cctp

end Timechain
