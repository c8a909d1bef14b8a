import Mathlib.Data.List.Induction
import Mathlib.Data.List.Nodup
import Timechain.Primitives

/-!
# The payloads a shard key signs

A shard signs two kinds of payload with one key (`primitives/src/gmp.rs`,
`primitives/src/task.rs`):

- for a batch, `GmpParams::hash` of the `GatewayMessage::hash` of the
  batch: a version string, the network, the gateway and a chained
  Keccak-256 over the ops;
- for a chunk of events, `encode_gmp_events`, which carries no tag of its
  own.

Keccak-256 is a parameter. `preimages` lists every byte string one
computation hashes, so that the binding result can ask for injectivity on
just those strings: the ops chain is decoded from its last link, each link
has a fixed layout, and the empty chain is the zero word that no link
hashes to.

The two payloads differ for every input. The version string puts `M` and
`P` where the event payload has the compact length of its event list,
which then announces more events than 79 bytes can hold.
-/

namespace Timechain

variable (keccak256 : List UInt8 → Hash)

/-! ## The batch payload -/

/-- `GMP_VERSION`, as ASCII. -/
def gmpVersion : List UInt8 :=
  ['A', 'n', 'a', 'l', 'o', 'g', ' ', 'G', 'M', 'P', ' ', 'v', '2'].map fun c =>
    UInt8.ofNat c.toNat

structure GmpParams where
  network : NetworkId
  gateway : Address32
deriving DecidableEq

/-- `GmpParams::hash`: the payload behind the version, the network and the
gateway. -/
def GmpParams.hash (params : GmpParams) (payload : List UInt8) : List UInt8 :=
  gmpVersion ++ Codec.beBytes 2 params.network.toNat ++ params.gateway.toList ++ payload

namespace GatewayOp

def code : GatewayOp → UInt8
  | .sendMessage _ => 1
  | .registerShard _ => 2
  | .unregisterShard _ => 3

/-- The 64 bytes `GatewayOp::hash` digests. -/
def block : GatewayOp → List UInt8
  | .sendMessage msg => (msg.messageId keccak256).toList ++ (keccak256 msg.bytes).toList
  | .registerShard key => List.replicate 31 0 ++ key.toList
  | .unregisterShard key => List.replicate 31 0 ++ key.toList

def hash (op : GatewayOp) : Hash := keccak256 (op.block keccak256)

/-- What is hashed to hash `op`. -/
def preimages (op : GatewayOp) : List (List UInt8) :=
  op.block keccak256 ::
    match op with
    | .sendMessage msg => [msg.encodeHeader, msg.bytes]
    | _ => []

/-- An op without the gas its message was charged, which is not signed. -/
def content : GatewayOp → GatewayOp
  | .sendMessage msg => .sendMessage { msg with gasCost := 0 }
  | op => op

/-- One link of the ops chain: the hash so far, the op code as a word, the
hash of the op. -/
def link (opsHash : Hash) (op : GatewayOp) : List UInt8 :=
  opsHash.toList ++ (List.replicate 31 0 ++ [op.code]) ++ (op.hash keccak256).toList

end GatewayOp

namespace GatewayMessage

/-- The 32 zero bytes the chain starts from. -/
def emptyHash : Hash := Vector.replicate 32 0

def opsHash (ops : List GatewayOp) : Hash :=
  ops.foldl (fun hash op => keccak256 (op.link keccak256 hash)) emptyHash

/-- The 96 bytes digested last: the version word, the batch id, the ops. -/
def buffer (m : GatewayMessage) (batchId : BatchId) : List UInt8 :=
  List.replicate 32 0 ++ Codec.leftPad32 (Codec.beBytes 8 batchId)
    ++ (opsHash keccak256 m.ops).toList

def hash (m : GatewayMessage) (batchId : BatchId) : Hash :=
  keccak256 (m.buffer keccak256 batchId)

/-- What the chain over `ops` hashes from `hash` on. -/
def linkPreimages : Hash → List GatewayOp → List (List UInt8)
  | _, [] => []
  | hash, op :: ops =>
      let link := op.link keccak256 hash
      link :: op.preimages keccak256 ++ linkPreimages (keccak256 link) ops

/-- Every byte string `GatewayMessage::hash` hashes. -/
def preimages (m : GatewayMessage) (batchId : BatchId) : List (List UInt8) :=
  m.buffer keccak256 batchId :: linkPreimages keccak256 emptyHash m.ops

end GatewayMessage

/-- The payload a shard signs for a batch. -/
def batchPayload (params : GmpParams) (batchId : BatchId) (m : GatewayMessage) : List UInt8 :=
  params.hash (m.hash keccak256 batchId).toList

/-! ## What the payload binds -/

variable {keccak256}

/-- No two strings of `P` collide. -/
def CollisionFree (keccak256 : List UInt8 → Hash) (P : List (List UInt8)) : Prop :=
  ∀ x ∈ P, ∀ y ∈ P, keccak256 x = keccak256 y → x = y

theorem CollisionFree.subset {P Q : List (List UInt8)} (h : CollisionFree keccak256 Q)
    (hPQ : P ⊆ Q) : CollisionFree keccak256 P :=
  fun x hx y hy => h x (hPQ hx) y (hPQ hy)

/-- The header has every field of a message except its cost and its bytes,
each in a word of its own. -/
theorem GmpMessage.encodeHeader_inj {m m' : GmpMessage}
    (h : m.encodeHeader = m'.encodeHeader) (hbytes : m.bytes = m'.bytes) :
    { m with gasCost := 0 } = { m' with gasCost := 0 } := by
  unfold encodeHeader at h
  have word {bs bs' : List UInt8} (hlen : bs.length = bs'.length) (hle : bs'.length ≤ 32) :
      (Codec.leftPad32 bs).length = (Codec.leftPad32 bs').length := by
    rw [Codec.leftPad32_length (hlen ▸ hle), Codec.leftPad32_length hle]
  obtain ⟨h, hnonce⟩ := List.append_inj' h (word (by simp) (by simp))
  obtain ⟨h, hlimit⟩ := List.append_inj' h (word (by simp) (by simp))
  obtain ⟨h, hdestNetwork⟩ := List.append_inj' h (word (by simp) (by simp))
  obtain ⟨h, hdest⟩ := List.append_inj' h (word (by simp) (by simp))
  obtain ⟨h, hsrcNetwork⟩ := List.append_inj' h (word (by simp) (by simp))
  obtain ⟨-, hsrc⟩ := List.append_inj' h (word (by simp) (by simp))
  have number {n x y : Nat} (hx : x < 256 ^ n) (hy : y < 256 ^ n)
      (h : Codec.leftPad32 (Codec.beBytes n x) = Codec.leftPad32 (Codec.beBytes n y)) : x = y :=
    Codec.beBytes_inj hx hy (Codec.leftPad32_inj (by simp) h)
  have hnonce := number m.nonce.toNat_lt m'.nonce.toNat_lt hnonce
  have hlimit := number m.gasLimit.isLt m'.gasLimit.isLt hlimit
  have hdestNetwork := number m.destNetwork.toNat_lt m'.destNetwork.toNat_lt hdestNetwork
  have hsrcNetwork := number m.srcNetwork.toNat_lt m'.srcNetwork.toNat_lt hsrcNetwork
  have hdest := Codec.leftPad32_inj (by simp) hdest
  have hsrc := Codec.leftPad32_inj (by simp) hsrc
  cases m
  cases m'
  simp only [UInt64.toNat_inj, UInt16.toNat_inj, BitVec.toNat_inj, Vector.toList_inj] at *
  simp_all

namespace GatewayOp

/-- With equal codes the layouts agree, so the digest gives the content. -/
theorem content_eq_of_hash {op op' : GatewayOp}
    (hcf : CollisionFree keccak256 (op.preimages keccak256 ++ op'.preimages keccak256))
    (hcode : op.code = op'.code) (hhash : op.hash keccak256 = op'.hash keccak256) :
    op.content = op'.content := by
  have hblock : op.block keccak256 = op'.block keccak256 :=
    hcf _ (by simp [preimages]) _ (by simp [preimages]) hhash
  cases op with
  | sendMessage msg =>
    cases op' with
    | sendMessage msg' =>
      obtain ⟨hid, hbytes⟩ := List.append_inj hblock (by simp)
      have hheader : msg.encodeHeader = msg'.encodeHeader :=
        hcf _ (by simp [preimages]) _ (by simp [preimages]) (Vector.toList_inj.mp hid)
      have hbytes : msg.bytes = msg'.bytes :=
        hcf _ (by simp [preimages]) _ (by simp [preimages]) (Vector.toList_inj.mp hbytes)
      exact congrArg sendMessage (GmpMessage.encodeHeader_inj hheader hbytes)
    | registerShard key' => exact absurd hcode (by simp [code])
    | unregisterShard key' => exact absurd hcode (by simp [code])
  | registerShard key =>
    cases op' with
    | sendMessage msg' => exact absurd hcode (by simp [code])
    | registerShard key' =>
      exact congrArg registerShard (Vector.toList_inj.mp (List.append_cancel_left hblock))
    | unregisterShard key' => exact absurd hcode (by simp [code])
  | unregisterShard key =>
    cases op' with
    | sendMessage msg' => exact absurd hcode (by simp [code])
    | registerShard key' => exact absurd hcode (by simp [code])
    | unregisterShard key' =>
      exact congrArg unregisterShard (Vector.toList_inj.mp (List.append_cancel_left hblock))

theorem link_inj {hash hash' : Hash} {op op' : GatewayOp}
    (h : op.link keccak256 hash = op'.link keccak256 hash') :
    hash = hash' ∧ op.code = op'.code ∧ op.hash keccak256 = op'.hash keccak256 := by
  obtain ⟨h, hop⟩ := List.append_inj' h (by simp)
  obtain ⟨hhash, hcode⟩ := List.append_inj h (by simp)
  have hcode := List.append_cancel_left hcode
  exact ⟨Vector.toList_inj.mp hhash, (List.cons.inj hcode).1, Vector.toList_inj.mp hop⟩

end GatewayOp

namespace GatewayMessage

theorem opsHash_concat (ops : List GatewayOp) (op : GatewayOp) :
    opsHash keccak256 (ops ++ [op])
      = keccak256 (op.link keccak256 (opsHash keccak256 ops)) := by
  simp [opsHash]

theorem linkPreimages_concat (hash : Hash) (ops : List GatewayOp) (op : GatewayOp) :
    linkPreimages keccak256 hash (ops ++ [op])
      = linkPreimages keccak256 hash ops
        ++ op.link keccak256
            (ops.foldl (fun hash op => keccak256 (op.link keccak256 hash)) hash)
          :: op.preimages keccak256 := by
  induction ops generalizing hash with
  | nil => simp [linkPreimages]
  | cons op' ops ih => simp [linkPreimages, ih]

/-- The ops chain binds length, order and content. The induction takes the
last link off both chains. -/
theorem opsHash_binds {ops ops' : List GatewayOp}
    (hcf : CollisionFree keccak256
      (linkPreimages keccak256 emptyHash ops ++ linkPreimages keccak256 emptyHash ops'))
    (hne : ∀ x ∈ linkPreimages keccak256 emptyHash ops
      ++ linkPreimages keccak256 emptyHash ops', keccak256 x ≠ emptyHash)
    (h : opsHash keccak256 ops = opsHash keccak256 ops') :
    ops.map GatewayOp.content = ops'.map GatewayOp.content := by
  induction ops using List.reverseRecOn generalizing ops' with
  | nil =>
    cases ops' using List.reverseRecOn with
    | nil => rfl
    | append_singleton ops' op' =>
      rw [opsHash_concat] at h
      refine absurd h.symm (hne _ ?_)
      simp [linkPreimages_concat, opsHash]
  | append_singleton ops op ih =>
    cases ops' using List.reverseRecOn with
    | nil =>
      rw [opsHash_concat] at h
      refine absurd h (hne _ ?_)
      simp [linkPreimages_concat, opsHash]
    | append_singleton ops' op' =>
      rw [opsHash_concat, opsHash_concat] at h
      rw [linkPreimages_concat, linkPreimages_concat] at hcf hne
      have hlink := hcf _ (by simp [opsHash]) _ (by simp [opsHash]) h
      obtain ⟨hhash, hcode, hop⟩ := GatewayOp.link_inj hlink
      have hprev : ops.map GatewayOp.content = ops'.map GatewayOp.content := by
        refine ih (hcf.subset ?_) (fun x hx => hne x ?_) hhash
        · intro x hx
          simp only [List.mem_append, List.mem_cons] at hx ⊢
          tauto
        · simp only [List.mem_append, List.mem_cons] at hx ⊢
          tauto
      have hlast : op.content = op'.content := by
        refine GatewayOp.content_eq_of_hash (hcf.subset ?_) hcode hop
        intro x hx
        simp only [List.mem_append, List.mem_cons] at hx ⊢
        tauto
      simp [hprev, hlast]

theorem buffer_inj {m m' : GatewayMessage} {batchId batchId' : BatchId}
    (hb : batchId < 2 ^ 64) (hb' : batchId' < 2 ^ 64)
    (h : m.buffer keccak256 batchId = m'.buffer keccak256 batchId') :
    batchId = batchId' ∧ opsHash keccak256 m.ops = opsHash keccak256 m'.ops := by
  obtain ⟨h, hops⟩ := List.append_inj' h (by simp)
  have hid := List.append_cancel_left h
  exact ⟨Codec.beBytes_inj hb hb' (Codec.leftPad32_inj (by simp) hid),
    Vector.toList_inj.mp hops⟩

end GatewayMessage

theorem GmpParams.hash_inj {params params' : GmpParams} {payload payload' : List UInt8}
    (h : params.hash payload = params'.hash payload') :
    params = params' ∧ payload = payload' := by
  unfold GmpParams.hash at h
  rw [List.append_assoc, List.append_assoc, List.append_assoc, List.append_assoc] at h
  have h := List.append_cancel_left h
  obtain ⟨hnetwork, h⟩ := List.append_inj h (by simp)
  obtain ⟨hgateway, hpayload⟩ := List.append_inj h (by simp)
  have hnetwork := Codec.beBytes_inj params.network.toNat_lt params'.network.toNat_lt hnetwork
  refine ⟨?_, hpayload⟩
  cases params
  cases params'
  rw [GmpParams.mk.injEq]
  exact ⟨UInt16.toNat_inj.mp hnetwork, Vector.toList_inj.mp hgateway⟩

/-- The signed bytes of a batch determine the network, the gateway, the
batch id and the ops up to gas costs, if Keccak-256 has no collision among
the strings the two computations hash and sends none of them to zero. -/
theorem batchPayload_binds (keccak256 : List UInt8 → Hash) (params params' : GmpParams)
    (batchId batchId' : BatchId) (m m' : GatewayMessage)
    (hb : batchId < 2 ^ 64) (hb' : batchId' < 2 ^ 64)
    (hcf : CollisionFree keccak256
      (m.preimages keccak256 batchId ++ m'.preimages keccak256 batchId'))
    (hne : ∀ x ∈ m.preimages keccak256 batchId ++ m'.preimages keccak256 batchId',
      keccak256 x ≠ GatewayMessage.emptyHash)
    (h : batchPayload keccak256 params batchId m
      = batchPayload keccak256 params' batchId' m') :
    params.network = params'.network ∧ params.gateway = params'.gateway ∧ batchId = batchId' ∧
      m.ops.map GatewayOp.content = m'.ops.map GatewayOp.content := by
  obtain ⟨rfl, hhash⟩ := GmpParams.hash_inj h
  have hbuffer : m.buffer keccak256 batchId = m'.buffer keccak256 batchId' :=
    hcf _ (by simp [GatewayMessage.preimages]) _ (by simp [GatewayMessage.preimages])
      (Vector.toList_inj.mp hhash)
  obtain ⟨hid, hops⟩ := GatewayMessage.buffer_inj hb hb' hbuffer
  have hsub : GatewayMessage.linkPreimages keccak256 GatewayMessage.emptyHash m.ops
      ++ GatewayMessage.linkPreimages keccak256 GatewayMessage.emptyHash m'.ops
      ⊆ m.preimages keccak256 batchId ++ m'.preimages keccak256 batchId' := by
    intro x hx
    simp only [GatewayMessage.preimages, List.mem_append, List.mem_cons] at hx ⊢
    tauto
  exact ⟨rfl, rfl, hid,
    GatewayMessage.opsHash_binds (hcf.subset hsub) (fun x hx => hne x (hsub hx)) hops⟩

/-- A digest of the length and one byte: enough to tell the strings of a
one-op batch apart. -/
def toyKeccak (bytes : List UInt8) : Hash :=
  ((Vector.replicate 32 1).set 0 (UInt8.ofNat bytes.length)).set 1 (bytes.getD 63 0)

def toyMessage (gasCost : BitVec 128) : GmpMessage :=
  ⟨1, 2, Vector.replicate 32 3, Vector.replicate 32 4, 5, 6, gasCost, [7]⟩

/-- One batch, whose message was charged `gasCost`. -/
def toyBatch (gasCost : BitVec 128) : GatewayMessage := ⟨[.sendMessage (toyMessage gasCost)]⟩

theorem batchPayload_binds_toy :
    toyBatch 8 ≠ toyBatch 9 ∧
      (toyBatch 8).ops.map GatewayOp.content = (toyBatch 9).ops.map GatewayOp.content := by
  have hsame : (toyBatch 9).preimages toyKeccak 7 = (toyBatch 8).preimages toyKeccak 7 := by
    decide +kernel
  have hnodup : (((toyBatch 8).preimages toyKeccak 7).map toyKeccak).Nodup := by decide +kernel
  have hcf : CollisionFree toyKeccak ((toyBatch 8).preimages toyKeccak 7) :=
    fun x hx y hy hxy => List.inj_on_of_nodup_map hnodup hx hy hxy
  have hbinds := batchPayload_binds toyKeccak ⟨1, Vector.replicate 32 2⟩ ⟨1, Vector.replicate 32 2⟩
    7 7 (toyBatch 8) (toyBatch 9) (by decide) (by decide)
    (hcf.subset (by rw [hsame]; simp)) (by rw [hsame]; decide +kernel) (by decide +kernel)
  exact ⟨by decide, hbinds.2.2.2⟩

/-! ## The two payloads -/

theorem GmpEvent.encode_pos (event : GmpEvent) : 0 < event.encode.length := by
  cases event <;> simp [GmpEvent.encode]

theorem length_le_flatMap_encode (events : List GmpEvent) :
    events.length ≤ (events.flatMap GmpEvent.encode).length := by
  induction events with
  | nil => simp
  | cons event events ih =>
    have := event.encode_pos
    simp only [List.length_cons, List.flatMap_cons, List.length_append]
    omega

theorem batchPayload_length (keccak256 : List UInt8 → Hash) (params : GmpParams)
    (batchId : BatchId) (m : GatewayMessage) :
    (batchPayload keccak256 params batchId m).length = 79 := by
  simp [batchPayload, GmpParams.hash, gmpVersion]

/-- A compact length whose first two bytes are `M` and `P` is in two-byte
mode and says 5139. -/
theorem eq_of_compactLen {n : Nat} {rest tail : List UInt8}
    (h : Codec.compactLen n ++ rest = 77 :: 80 :: tail) : n = 5139 := by
  have low (x : Nat) (hx : UInt8.ofNat (x % 256) = 77) : x % 256 = 77 := by
    have := congrArg UInt8.toNat hx
    simpa using this
  unfold Codec.compactLen at h
  split at h
  · have := low _ (List.cons.inj h).1
    omega
  · split at h
    · obtain ⟨h₀, h⟩ := List.cons.inj h
      have h₀ := low _ h₀
      have h₁ : (4 * n + 1) / 256 % 256 = 80 := by
        have := congrArg UInt8.toNat (List.cons.inj h).1
        simpa using this
      omega
    · split at h
      · have := low _ (List.cons.inj h).1
        omega
      · exact absurd (List.cons.inj h).1 (by decide)

/-- No event report is signed with the bytes of a batch. -/
theorem encodeGmpEvents_ne_batchPayload (keccak256 : List UInt8 → Hash) (taskId : TaskId)
    (events : GmpEvents) (params : GmpParams) (batchId : BatchId) (m : GatewayMessage) :
    encodeGmpEvents taskId events.val ≠ batchPayload keccak256 params batchId m := by
  intro h
  have hlen := congrArg List.length h
  rw [batchPayload_length] at hlen
  have hn : events.val.length = 5139 := by
    -- the first eight bytes are the task id's and `Analog G`
    have htail := congrArg (List.drop 8) h
    rw [encodeGmpEvents, List.drop_left' (Codec.leBytes_length ..)] at htail
    exact eq_of_compactLen htail
  have := length_le_flatMap_encode events.val
  simp only [encodeGmpEvents, Codec.encodeVec, List.length_append] at hlen
  omega

end Timechain
