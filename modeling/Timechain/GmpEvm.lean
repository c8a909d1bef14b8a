import Timechain.GmpHash

/-!
# Messages on an EVM gateway

The Solidity types the connector exchanges with a gateway contract, and the
conversions from and to the messages of the chain (`gmp/evm/src/sol.rs`,
`a_addr` and `t_addr` in `gmp/evm/src/lib.rs`). An EVM address has 20 of the
32 bytes, and a gas limit 64 of the 128 bits; the cost of a message is not
carried at all, nor is it part of what is hashed.

A message that came from a gateway survives the way there and back
(`toSol_ofSol`). One that did not keeps its id only if it looks like one
that did (`messageId_ofSol_toSol_iff`): the shard signs the hash of the wide
fields.
-/

namespace Timechain

namespace Evm

abbrev Address20 : Type := Bytes 20

/-- `Address20::from_word`: the low 20 bytes. -/
def aAddr (address : Address32) : Address20 := address.drop 12

/-- `Address20::into_word`: zeros in front. -/
def tAddr (address : Address20) : Address32 := (Vector.replicate 12 0 : Bytes 12).append address

/-- `GmpMessage` of the contract. -/
structure SolGmpMessage where
  source : Bytes 32
  srcNetwork : UInt16
  dest : Address20
  destNetwork : UInt16
  gasLimit : UInt64
  nonce : UInt64
  data : List UInt8
deriving DecidableEq

def ofSol (msg : SolGmpMessage) : GmpMessage where
  srcNetwork := msg.srcNetwork
  destNetwork := msg.destNetwork
  src := msg.source
  dest := tAddr msg.dest
  nonce := msg.nonce
  gasLimit := BitVec.ofNat 128 msg.gasLimit.toNat
  gasCost := 0
  bytes := msg.data

/-- The cast of the gas limit keeps its low 64 bits. -/
def toSol (msg : GmpMessage) : SolGmpMessage where
  srcNetwork := msg.srcNetwork
  destNetwork := msg.destNetwork
  source := msg.src
  dest := aAddr msg.dest
  nonce := msg.nonce
  gasLimit := UInt64.ofNat msg.gasLimit.toNat
  data := msg.bytes

/-! ## Addresses and gas limits -/

theorem toList_aAddr (address : Address32) : (aAddr address).toList = address.toList.drop 12 :=
  Vector.toList_drop

theorem toList_tAddr (address : Address20) :
    (tAddr address).toList = List.replicate 12 0 ++ address.toList :=
  Vector.toList_append

theorem aAddr_tAddr (address : Address20) : aAddr (tAddr address) = address := by
  apply Vector.toList_inj.mp
  rw [toList_aAddr, toList_tAddr]
  rfl

theorem tAddr_aAddr_iff (address : Address32) :
    tAddr (aAddr address) = address ↔ address.toList.take 12 = List.replicate 12 0 := by
  rw [← Vector.toList_inj]
  rw [toList_tAddr, toList_aAddr]
  constructor
  · intro h
    rw [← h]
    simp
  · intro h
    rw [← h]
    exact List.take_append_drop ..

theorem gasLimit_back (gasLimit : UInt64) :
    UInt64.ofNat (BitVec.ofNat 128 gasLimit.toNat).toNat = gasLimit := by
  have hlt : gasLimit.toNat < 2 ^ 128 := Nat.lt_trans gasLimit.toNat_lt (by decide)
  rw [BitVec.toNat_ofNat, Nat.mod_eq_of_lt hlt, UInt64.ofNat_toNat]

theorem gasLimit_kept_iff (gasLimit : BitVec 128) :
    BitVec.ofNat 128 (UInt64.ofNat gasLimit.toNat).toNat = gasLimit ↔
      gasLimit.toNat < 2 ^ 64 := by
  have hmod : (BitVec.ofNat 128 (UInt64.ofNat gasLimit.toNat).toNat).toNat =
      gasLimit.toNat % 2 ^ 64 := by
    rw [BitVec.toNat_ofNat, UInt64.toNat_ofNat']
    exact Nat.mod_eq_of_lt (Nat.lt_trans (Nat.mod_lt _ (by decide)) (by decide))
  rw [← BitVec.toNat_inj, hmod]
  constructor
  · intro h
    rw [← h]
    exact Nat.mod_lt _ (by decide)
  · exact Nat.mod_eq_of_lt

/-! ## There and back -/

/-- What came from a contract goes back unchanged. -/
theorem toSol_ofSol (msg : SolGmpMessage) : toSol (ofSol msg) = msg := by
  rw [toSol, ofSol, aAddr_tAddr, gasLimit_back]

/-- The header has the two fields that are cut, and not the cost. -/
theorem encodeHeader_ofSol_toSol_iff (m : GmpMessage) :
    (ofSol (toSol m)).encodeHeader = m.encodeHeader ↔
      m.dest.toList.take 12 = List.replicate 12 0 ∧ m.gasLimit.toNat < 2 ^ 64 := by
  rw [← tAddr_aAddr_iff, ← gasLimit_kept_iff]
  constructor
  · intro h
    have hfields := GmpMessage.encodeHeader_inj h rfl
    rw [GmpMessage.mk.injEq] at hfields
    obtain ⟨-, -, -, hdest, -, hlimit, -⟩ := hfields
    exact ⟨hdest, hlimit⟩
  · rintro ⟨hdest, hlimit⟩
    rw [ofSol, toSol, hdest, hlimit]
    rfl

/-- A message has the same id after the conversions exactly if its address
fits into 20 bytes and its gas limit into 64 bits. -/
theorem messageId_ofSol_toSol_iff (keccak256 : List UInt8 → Hash) (m : GmpMessage)
    (hcf : CollisionFree keccak256 [(ofSol (toSol m)).encodeHeader, m.encodeHeader]) :
    (ofSol (toSol m)).messageId keccak256 = m.messageId keccak256 ↔
      m.dest.toList.take 12 = List.replicate 12 0 ∧ m.gasLimit.toNat < 2 ^ 64 := by
  rw [← encodeHeader_ofSol_toSol_iff]
  constructor
  · exact hcf _ (by simp) _ (by simp)
  · exact congrArg keccak256

/-- A message to an EVM address. -/
def evmMessage : GmpMessage :=
  ⟨1, 2, Vector.replicate 32 3, tAddr (Vector.replicate 20 4), 5, 6, 8, [7]⟩

theorem messageId_ofSol_toSol_evm :
    evmMessage.dest.toList.take 12 = List.replicate 12 0 ∧
      (ofSol (toSol evmMessage)).messageId toyKeccak = evmMessage.messageId toyKeccak := by
  have hsame : (ofSol (toSol evmMessage)).encodeHeader = evmMessage.encodeHeader := by
    decide +kernel
  have hcf : CollisionFree toyKeccak
      [(ofSol (toSol evmMessage)).encodeHeader, evmMessage.encodeHeader] := by
    rw [hsame]
    simp [CollisionFree]
  have hdest : evmMessage.dest.toList.take 12 = List.replicate 12 0 := by decide +kernel
  exact ⟨hdest, (messageId_ofSol_toSol_iff toyKeccak evmMessage hcf).mpr ⟨hdest, by decide⟩⟩

/-- A message to an EVM address with a gas limit that takes 65 bits. -/
def costlyMessage : GmpMessage := { evmMessage with gasLimit := .twoPow 128 64 }

/-- A message to a 32-byte account and one with a gas limit of `2 ^ 64`:
neither comes back, and no hash that tells the two headers apart gives
them the same id. -/
theorem conversion_changes_id :
    (ofSol (toSol (toyMessage 0))).encodeHeader ≠ (toyMessage 0).encodeHeader ∧
    (ofSol (toSol costlyMessage)).encodeHeader ≠ costlyMessage.encodeHeader ∧
    (∀ keccak256,
      CollisionFree keccak256 [(ofSol (toSol (toyMessage 0))).encodeHeader,
        (toyMessage 0).encodeHeader] →
      (ofSol (toSol (toyMessage 0))).messageId keccak256 ≠ (toyMessage 0).messageId keccak256) ∧
    ∀ keccak256,
      CollisionFree keccak256 [(ofSol (toSol costlyMessage)).encodeHeader,
        costlyMessage.encodeHeader] →
      (ofSol (toSol costlyMessage)).messageId keccak256 ≠ costlyMessage.messageId keccak256 := by
  have haccount : (ofSol (toSol (toyMessage 0))).encodeHeader ≠ (toyMessage 0).encodeHeader := by
    decide +kernel
  have hcostly : (ofSol (toSol costlyMessage)).encodeHeader ≠ costlyMessage.encodeHeader := by
    decide +kernel
  refine ⟨haccount, hcostly, ?_, ?_⟩
  · intro keccak256 hcf hid
    exact haccount (hcf _ (by simp) _ (by simp) hid)
  · intro keccak256 hcf hid
    exact hcostly (hcf _ (by simp) _ (by simp) hid)

end Evm

end Timechain
