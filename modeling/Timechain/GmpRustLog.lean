import Timechain.ChronicleExecutor
import Timechain.GmpRust

/-!
# The event log of the simulated chain

A shard signs what its members read, and they read at different times.
That they sign the same needs the past to be fixed: the events of a
block are final once the next block has begun, since every call logs
into the current block only (`Effect.logs`). A task that reads blocks up
to `stop` is due when the chain has reached `stop`
(`Task::start_block`), so it reads final blocks (`due_read_final`).

The second result is about what is in the log. `send_message` numbers
the messages between two addresses (`run_numbered`), so every message sent
is a new one, and the log of a gateway holds exactly the messages sent
through it, each once (`sent_logged_once`). The one way to forge an
entry is a batch with a message *to* the gateway's own address: it is
logged as received by its destination.
-/

namespace Timechain

namespace Connector

variable {cfg : Config} {ok : Db → Input → Prop} {db db' db'' : Db} {is : List Input} {i : Input}
  {gateway : Address32}

/-! ## Final blocks -/

/-- Events were added to the current block only. -/
structure Logs (db db' : Db) : Prop where
  block : db'.block = db.block
  past : ∀ {address block}, block ≠ db.block →
    db'.events.get (address, block) = db.events.get (address, block)
  kept : ∀ {key event}, event ∈ db.events.get key → event ∈ db'.events.get key

theorem Logs.refl (db : Db) : Logs db db := ⟨rfl, fun _ => rfl, id⟩

/-- Only other tables were written before. -/
theorem Logs.frame (h : Logs db' db'') (hblock : db'.block = db.block)
    (hevents : db'.events = db.events) : Logs db db'' where
  block := h.block.trans hblock
  past hne := by
    rw [h.past (hblock.symm ▸ hne), hevents]
  kept hmem := h.kept (hevents.symm ▸ hmem)

theorem Logs.trans (h : Logs db db') (h' : Logs db' db'') : Logs db db'' where
  block := h'.block.trans h.block
  past hne := (h'.past (h.block.symm ▸ hne)).trans (h.past hne)
  kept hmem := h'.kept (h.kept hmem)

theorem Logs.log (db : Db) (address : Address32) (event : GmpEvent) :
    Logs db (db.log address event) where
  block := rfl
  past hne := by
    refine Multimap.get_insert_of_ne _ _ fun heq => hne ?_
    exact (Prod.mk.inj heq).2
  kept hmem := (Multimap.mem_insert GmpEvent.rank_injective).mpr (Or.inr hmem)

/-- A loop whose rounds log. -/
theorem Logs.foldl {α : Type} {f : Db → α → Db} (hf : ∀ db a, Logs db (f db a)) (as : List α)
    (db : Db) : Logs db (as.foldl f db) := by
  induction as generalizing db with
  | nil => exact .refl db
  | cons a as ih => exact (hf db a).trans (ih (f db a))

theorem applyOp_logs (gateway : Address32) (db : Db) (op : GatewayOp) :
    Logs db (applyOp cfg gateway db op) := by
  cases op with
  | sendMessage msg => exact (Logs.log db _ _).trans (.log _ _ _)
  | registerShard key => exact (Logs.log _ _ _).frame rfl rfl
  | unregisterShard key => exact (Logs.log _ _ _).frame rfl rfl

theorem dropKey_logs (gateway : Address32) (keys : List TssPublicKey) (db : Db)
    (oldKey : TssPublicKey) : Logs db (dropKey gateway keys db oldKey) := by
  unfold dropKey
  split
  · exact .refl db
  · exact .log db _ _

theorem addKey_logs (gateway : Address32) (oldKeys : List TssPublicKey) (db : Db)
    (key : TssPublicKey) : Logs db (addKey gateway oldKeys db key) := by
  unfold addKey
  dsimp only
  split
  · exact (Logs.refl _).frame rfl rfl
  · exact (Logs.log _ _ _).frame rfl rfl

theorem withShards_logs (db : Db) (gateway : Address32) (keys : List TssPublicKey) :
    Logs db (db.withShards gateway keys) := by
  have hdrop := Logs.foldl (dropKey_logs gateway (keySet keys)) (db.shards.get gateway)
    { db with shards := db.shards.removeAll gateway }
  have hadd := Logs.foldl (addKey_logs gateway (db.shards.get gateway)) (keySet keys)
  exact (hdrop.trans (hadd _)).frame rfl rfl

/-- A call logs into the current block, or begins the next one. -/
theorem Effect.logs (h : Effect cfg db i db') :
    Logs db db' ∨ i.call = .incBlock ∧
      ∃ block, addChecked cfg.overflowChecks 64 db.block 1 = some block ∧
        db' = { db with block } := by
  cases h with
  | newBlock hcall hblock => exact Or.inr ⟨hcall, _, hblock, rfl⟩
  | commands => exact Or.inl ((Logs.foldl (applyOp_logs _) _ db).trans (.log _ _ _))
  | setShards => exact Or.inl (withShards_logs db _ _)
  | send => exact Or.inl ((Logs.log _ _ _).frame rfl rfl)
  | _ => exact Or.inl ((Logs.refl _).frame rfl rfl)

def Input.isNewBlock (i : Input) : Bool :=
  match i.call with
  | .incBlock => true
  | _ => false

theorem isNewBlock_iff : i.isNewBlock = true ↔ i.call = .incBlock := by
  unfold Input.isNewBlock
  split
  · next h => simp [h]
  · next h => simpa using h

/-- What a call does to the log, while block numbers last. -/
theorem exec_logs (db : Db) (i : Input) (hblock : db.block + 1 < 2 ^ 64) :
    (i.isNewBlock = false ∧ Logs db (exec cfg db i)) ∨
      i.isNewBlock = true ∧ exec cfg db i = { db with block := db.block + 1 } := by
  by_cases hnew : i.isNewBlock = true
  · refine Or.inr ⟨hnew, ?_⟩
    rw [exec, isNewBlock_iff.mp hnew]
    dsimp only [incBlock, commit]
    rw [addChecked_of_lt hblock]
  · refine Or.inl ⟨by simpa using hnew, ?_⟩
    rcases (exec_effect cfg db i).logs with hlogs | ⟨hcall, -⟩
    · exact hlogs
    · exact absurd (isNewBlock_iff.mpr hcall) hnew

/-- The block number counts blocks, and blocks before it stay as they are. -/
theorem run_past (h : ChainRun cfg ok db is db')
    (hblocks : db.block + is.countP Input.isNewBlock < 2 ^ 64) :
    db'.block = db.block + is.countP Input.isNewBlock ∧
      ∀ {address block}, block < db.block →
        db'.events.get (address, block) = db.events.get (address, block) := by
  revert hblocks
  refine h.invariant (P := fun is db' => db.block + is.countP Input.isNewBlock < 2 ^ 64 →
    db'.block = db.block + is.countP Input.isNewBlock ∧
      ∀ {address block}, block < db.block →
        db'.events.get (address, block) = db.events.get (address, block)) ?_ ?_
  · exact fun _ => ⟨rfl, fun _ => rfl⟩
  · intro is s i s' _ ih _ hs hblocks
    cases hs
    rw [List.countP_append, List.countP_singleton] at hblocks ⊢
    obtain ⟨hblock, hpast⟩ := ih (by omega)
    by_cases hnew : i.isNewBlock = true
    · rw [if_pos hnew] at hblocks ⊢
      rcases exec_logs s i (by omega) with ⟨hold, -⟩ | ⟨-, heq⟩
      · rw [hnew] at hold
        cases hold
      · rw [heq]
        exact ⟨by rw [← Nat.add_assoc, ← hblock], hpast⟩
    · rw [if_neg hnew] at hblocks ⊢
      rcases (exec_effect cfg s i).logs with hlogs | ⟨hcall, -⟩
      · refine ⟨hlogs.block.trans hblock, fun {address b} hb => ?_⟩
        rw [hlogs.past (by omega)]
        exact hpast hb
      · exact absurd (isNewBlock_iff.mpr hcall) hnew

theorem readEvents_congr {blocks : BlockRange}
    (h : ∀ {block}, block < blocks.stop →
      db'.events.get (gateway, block) = db.events.get (gateway, block)) :
    readEvents db' gateway blocks = readEvents db gateway blocks := by
  unfold readEvents
  simp only [List.flatMap]
  congr 1
  refine List.map_congr_left fun block hmem => h ?_
  rw [List.mem_range'_1] at hmem
  omega

/-- Blocks that are over are read alike at every later time. -/
theorem readEvents_final (h : ChainRun cfg ok db is db')
    (hblocks : db.block + is.countP Input.isNewBlock < 2 ^ 64) {blocks : BlockRange}
    (hover : blocks.stop ≤ db.block) (gateway : Address32) :
    readEvents db' gateway blocks = readEvents db gateway blocks := by
  refine readEvents_congr fun hlt => ?_
  exact (run_past h hblocks).2 (Nat.lt_of_lt_of_le hlt hover)

/-- **A read task that is due reads final blocks.** Once the chain has
reached the task's start block, the events it reads are the same at every
later time, whatever is called in between: the members of a shard sign
the same events, whenever each of them runs the task. -/
theorem due_read_final (h : ChainRun cfg ok db is db')
    (hblocks : db.block + is.countP Input.isNewBlock < 2 ^ 64) {blocks : BlockRange}
    (hdue : (Task.readGatewayEvents blocks).startBlock ≤ finalizedBlock db)
    (gateway : Address32) :
    readEvents db' gateway blocks = readEvents db gateway blocks := by
  have hover : blocks.stop ≤ db.block := hdue
  exact readEvents_final h hblocks hover gateway

/-- Block 0 of the example chain, read when it is over and once more after
the next message. -/
theorem due_read_final_example :
    (readEvents (exampleDb (sendCalls.take 4)) (exampleAddress 1) ⟨0, 1⟩).length = 1 ∧
      readEvents (exec exampleConfig (exampleDb (sendCalls.take 4)) (exampleInput exampleSend))
          (exampleAddress 1) ⟨0, 1⟩
        = readEvents (exampleDb (sendCalls.take 4)) (exampleAddress 1) ⟨0, 1⟩ := by
  have hrun : ChainRun exampleConfig (fun _ _ => True) (exampleDb (sendCalls.take 4))
      ([] ++ [exampleInput exampleSend])
      (exec exampleConfig (exampleDb (sendCalls.take 4)) (exampleInput exampleSend)) :=
    .next .start trivial rfl
  exact ⟨by decide +kernel,
    due_read_final hrun (by decide +kernel) (by decide +kernel) (exampleAddress 1)⟩

/-- Ranges that follow each other are read as one. -/
theorem readEvents_append (db : Db) (gateway : Address32) {a b c : Nat} (hab : a ≤ b)
    (hbc : b ≤ c) :
    readEvents db gateway ⟨a, b⟩ ++ readEvents db gateway ⟨b, c⟩
      = readEvents db gateway ⟨a, c⟩ := by
  unfold readEvents
  dsimp only
  rw [← List.flatMap_append]
  have hb : a + 1 * (b - a) = b := by omega
  have hrange := @List.range'_append a (b - a) (c - b) 1
  rw [hb] at hrange
  rw [hrange, show b - a + (c - b) = c - a by omega]

/-! ## Messages are numbered -/

/-- Only events and shards were written. -/
def OnlyLogs (db db' : Db) : Prop := db' = { db with events := db'.events, shards := db'.shards }

theorem OnlyLogs.trans (h : OnlyLogs db db') (h' : OnlyLogs db' db'') : OnlyLogs db db'' := by
  unfold OnlyLogs at *
  rw [h', h]

theorem OnlyLogs.sent (h : OnlyLogs db db') : db'.sent = db.sent := (congrArg Db.sent h :)

theorem OnlyLogs.nonce (h : OnlyLogs db db') : db'.nonce = db.nonce := (congrArg Db.nonce h :)

theorem OnlyLogs.foldl {α : Type} {f : Db → α → Db} (hf : ∀ db a, OnlyLogs db (f db a))
    (as : List α) (db : Db) : OnlyLogs db (as.foldl f db) := by
  induction as generalizing db with
  | nil => rfl
  | cons a as ih => exact (hf db a).trans (ih (f db a))

theorem withBatch_onlyLogs (cfg : Config) (db : Db) (gateway : Address32) (batch : BatchId)
    (msg : GatewayMessage) : OnlyLogs db (db.withBatch cfg gateway batch msg) := by
  have hop : ∀ db op, OnlyLogs db (applyOp cfg gateway db op) := by
    intro db op
    cases op <;> rfl
  exact (OnlyLogs.foldl hop msg.ops db).trans rfl

theorem withShards_onlyLogs (db : Db) (gateway : Address32) (keys : List TssPublicKey) :
    OnlyLogs db (db.withShards gateway keys) := by
  have hdrop : ∀ keys db key, OnlyLogs db (dropKey gateway keys db key) := by
    intro keys db key
    unfold dropKey
    split <;> rfl
  have hadd : ∀ keys db key, OnlyLogs db (addKey gateway keys db key) := by
    intro keys db key
    unfold addKey
    dsimp only
    split <;> rfl
  have hremove : OnlyLogs db { db with shards := db.shards.removeAll gateway } := rfl
  exact hremove.trans ((OnlyLogs.foldl (hdrop _) _ _).trans (OnlyLogs.foldl (hadd _) _ _))

/-- The numbers of the messages sent from `src` to `dest`. -/
def Db.nonces (db : Db) (src dest : Address32) : List Nat :=
  db.sent.filterMap fun (_, msg) =>
    if msg.src = src ∧ msg.dest = dest then some msg.nonce.toNat else none

/-- What tells two messages sent apart. -/
def stamp (msg : GmpMessage) : Address32 × Address32 × UInt64 := (msg.src, msg.dest, msg.nonce)

/-- The messages between two addresses are numbered from zero. -/
structure Numbered (db : Db) : Prop where
  nonces : ∀ src dest, db.nonces src dest = List.range (db.nonce.getD (src, dest) 0)
  stamps : (db.sent.map fun e => stamp e.2).Nodup

theorem Numbered.nonce_le (h : Numbered db) (src dest : Address32) :
    db.nonce.getD (src, dest) 0 ≤ db.sent.length := by
  have hlen := congrArg List.length (h.nonces src dest)
  rw [List.length_range] at hlen
  rw [← hlen]
  exact List.length_filterMap_le ..

/-- The next message between two addresses is a new one. -/
theorem Numbered.fresh (h : Numbered db) {msg : GmpMessage}
    (hnonce : msg.nonce.toNat = db.nonce.getD (msg.src, msg.dest) 0) :
    stamp msg ∉ db.sent.map fun e => stamp e.2 := by
  intro hmem
  obtain ⟨⟨g, msg'⟩, hsent, heq⟩ := List.mem_map.mp hmem
  obtain ⟨hsrc, hrest⟩ := Prod.mk.inj heq
  obtain ⟨hdest, hnonce'⟩ := Prod.mk.inj hrest
  have hmem' : msg.nonce.toNat ∈ db.nonces msg.src msg.dest := by
    refine List.mem_filterMap.mpr ⟨(g, msg'), hsent, ?_⟩
    dsimp only at hsrc hdest hnonce' ⊢
    rw [if_pos ⟨hsrc, hdest⟩, hnonce']
  rw [h.nonces, List.mem_range, hnonce] at hmem'
  exact Nat.lt_irrefl _ hmem'

theorem Numbered.send (h : Numbered db) (gateway : Address32) {msg : GmpMessage}
    (hnonce : msg.nonce.toNat = db.nonce.getD (msg.src, msg.dest) 0) :
    Numbered (db.withSent gateway msg (db.nonce.getD (msg.src, msg.dest) 0 + 1)) where
  nonces src dest := by
    have hsplit : (db.withSent gateway msg (db.nonce.getD (msg.src, msg.dest) 0 + 1)).nonces src dest
        = db.nonces src dest
          ++ if msg.src = src ∧ msg.dest = dest then [msg.nonce.toNat] else [] := by
      unfold Db.nonces
      show (db.sent ++ [(gateway, msg)]).filterMap _ = _
      rw [List.filterMap_append]
      split
      · next heq => simp [heq]
      · next hne => simp [hne]
    have hget : (db.withSent gateway msg (db.nonce.getD (msg.src, msg.dest) 0 + 1)).nonce.getD
        (src, dest) 0 = if (src, dest) = (msg.src, msg.dest)
          then db.nonce.getD (msg.src, msg.dest) 0 + 1 else db.nonce.getD (src, dest) 0 :=
      StorageMap.getD_insert ..
    rw [hsplit, hget, h.nonces]
    by_cases heq : msg.src = src ∧ msg.dest = dest
    · obtain ⟨rfl, rfl⟩ := heq
      rw [if_pos ⟨rfl, rfl⟩, if_pos rfl, hnonce, List.range_succ]
    · have hne : (src, dest) ≠ (msg.src, msg.dest) := fun h =>
        heq ⟨(Prod.mk.inj h).1.symm, (Prod.mk.inj h).2.symm⟩
      rw [if_neg heq, if_neg hne, List.append_nil]
  stamps := by
    show ((db.sent ++ [(gateway, msg)]).map _).Nodup
    rw [List.map_append]
    refine List.nodup_append.mpr ⟨h.stamps, List.nodup_singleton _, fun a ha b hb hab => ?_⟩
    rw [hab, List.mem_singleton.mp hb] at ha
    exact h.fresh hnonce ha

/-- A message was sent, in the last step, through `gateway`. -/
structure Sends (cfg : Config) (db : Db) (gateway : Address32) (msg : GmpMessage) (nonce : Nat)
    (db' : Db) : Prop where
  number : msg.nonce = UInt64.ofNat (db.nonce.getD (msg.src, msg.dest) 0)
  next : addChecked cfg.overflowChecks 64 (db.nonce.getD (msg.src, msg.dest) 0) 1 = some nonce
  eq : db' = db.withSent gateway msg nonce

theorem Effect.sends (h : Effect cfg db i db') :
    (db'.sent = db.sent ∧ db'.nonce = db.nonce) ∨
      ∃ gateway msg nonce, Sends cfg db gateway msg nonce db' := by
  cases h with
  | commands => exact Or.inl ⟨(withBatch_onlyLogs ..).sent, (withBatch_onlyLogs ..).nonce⟩
  | setShards => exact Or.inl ⟨(withShards_onlyLogs ..).sent, (withShards_onlyLogs ..).nonce⟩
  | send hnonce => exact Or.inr ⟨_, _, _, rfl, hnonce, rfl⟩
  | _ => exact Or.inl ⟨rfl, rfl⟩

/-- While there are numbers left, a message gets the next one. -/
theorem Sends.numbered {msg : GmpMessage} {nonce : Nat}
    (h : Sends cfg db gateway msg nonce db') (hnum : Numbered db)
    (hsent : db'.sent.length < 2 ^ 64) :
    msg.nonce.toNat = db.nonce.getD (msg.src, msg.dest) 0 ∧ Numbered db' := by
  have hlen : db'.sent.length = db.sent.length + 1 := by
    rw [h.eq]
    exact List.length_append
  have hle := hnum.nonce_le msg.src msg.dest
  have hnonce : msg.nonce.toNat = db.nonce.getD (msg.src, msg.dest) 0 := by
    rw [h.number, UInt64.toNat_ofNat']
    exact Nat.mod_eq_of_lt (by omega)
  have hnext := h.next
  rw [addChecked_of_lt (by omega)] at hnext
  rw [h.eq, ← Option.some.inj hnext]
  exact ⟨hnonce, hnum.send gateway hnonce⟩

theorem sent_length_le (h : Effect cfg db i db') : db.sent.length ≤ db'.sent.length := by
  rcases h.sends with ⟨hsent, -⟩ | ⟨gateway, msg, nonce, hsends⟩
  · rw [hsent]
  · rw [hsends.eq]
    show _ ≤ (db.sent ++ [(gateway, msg)]).length
    rw [List.length_append]
    exact Nat.le_add_right ..

theorem Effect.numbered (h : Effect cfg db i db') (hnum : Numbered db)
    (hsent : db'.sent.length < 2 ^ 64) : Numbered db' := by
  rcases h.sends with ⟨hsame, hnonce⟩ | ⟨gateway, msg, nonce, hsends⟩
  · refine ⟨fun src dest => ?_, ?_⟩
    · rw [Db.nonces, hsame, hnonce]
      exact hnum.nonces src dest
    · rw [hsame]
      exact hnum.stamps
  · exact (hsends.numbered hnum hsent).2

theorem run_numbered (h : ChainRun cfg ok .new is db) (hsent : db.sent.length < 2 ^ 64) :
    Numbered db := by
  revert hsent
  refine h.invariant (P := fun _ db => db.sent.length < 2 ^ 64 → Numbered db) ?_ ?_
  · exact fun _ => ⟨fun _ _ => rfl, List.nodup_nil⟩
  · intro is s i s' _ ih _ hs hsent
    cases hs
    have heffect := exec_effect cfg s i
    exact heffect.numbered (ih (Nat.lt_of_le_of_lt (sent_length_le heffect) hsent)) hsent

/-- Messages with the same header have the same stamp. -/
theorem stamp_of_encodeHeader {m m' : GmpMessage} (h : m.encodeHeader = m'.encodeHeader) :
    stamp m = stamp m' := by
  have heq := @GmpMessage.encodeHeader_inj m { m' with bytes := m.bytes } h rfl
  have hsrc := congrArg GmpMessage.src heq
  have hdest := congrArg GmpMessage.dest heq
  have hnonce := congrArg GmpMessage.nonce heq
  dsimp only at hsrc hdest hnonce
  rw [stamp, hsrc, hdest, hnonce]
  rfl

/-! ## Messages in the log of a gateway -/

/-- The messages the log of `gateway` has for a block. -/
def Db.received (db : Db) (gateway : Address32) (block : Nat) : List GmpMessage :=
  receivedMessages (db.events.get (gateway, block))

/-- The messages sent through `gateway`. -/
def Db.sentVia (db : Db) (gateway : Address32) : List GmpMessage :=
  db.sent.filterMap fun (g, msg) => if g = gateway then some msg else none

/-- The log of `gateway` got no message. -/
structure NoMessage (gateway : Address32) (db db' : Db) : Prop where
  block : db'.block = db.block
  received : ∀ block, db'.received gateway block = db.received gateway block

theorem NoMessage.trans (h : NoMessage gateway db db') (h' : NoMessage gateway db' db'') :
    NoMessage gateway db db'' where
  block := h'.block.trans h.block
  received block := (h'.received block).trans (h.received block)

theorem NoMessage.frame (h : NoMessage gateway db' db'') (hblock : db'.block = db.block)
    (hevents : db'.events = db.events) : NoMessage gateway db db'' where
  block := h.block.trans hblock
  received block := by
    rw [h.received, Db.received, hevents]
    rfl

theorem NoMessage.refl (gateway : Address32) (db : Db) : NoMessage gateway db db :=
  ⟨rfl, fun _ => rfl⟩

/-- Another event, or an event of another address. -/
theorem NoMessage.log {address : Address32} {event : GmpEvent}
    (h : (∀ msg, event ≠ .messageReceived msg) ∨ address ≠ gateway) :
    NoMessage gateway db (db.log address event) where
  block := rfl
  received block := by
    unfold Db.received Db.log
    rw [Multimap.get_insert]
    split
    · next heq =>
        obtain ⟨rfl, rfl⟩ := Prod.mk.inj heq
        rcases h with hevent | hne
        · refine filterMap_insertSorted ?_ _
          cases event with
          | messageReceived msg => exact absurd rfl (hevent msg)
          | _ => rfl
        · exact absurd rfl hne
    · rfl

theorem NoMessage.foldl {α : Type} {f : Db → α → Db} {as : List α}
    (hf : ∀ db, ∀ a ∈ as, NoMessage gateway db (f db a)) (db : Db) :
    NoMessage gateway db (as.foldl f db) := by
  induction as generalizing db with
  | nil => exact .refl gateway db
  | cons a as ih =>
      have hrest := ih fun db b hb => hf db b (List.mem_cons_of_mem a hb)
      exact (hf db a List.mem_cons_self).trans (hrest _)

theorem dropKey_noMessage (g : Address32) (keys : List TssPublicKey) (db : Db)
    (key : TssPublicKey) : NoMessage gateway db (dropKey g keys db key) := by
  unfold dropKey
  split
  · exact .refl gateway db
  · exact .log (Or.inl (by simp))

theorem addKey_noMessage (g : Address32) (keys : List TssPublicKey) (db : Db)
    (key : TssPublicKey) : NoMessage gateway db (addKey g keys db key) := by
  unfold addKey
  dsimp only
  split
  · exact (NoMessage.refl gateway _).frame rfl rfl
  · exact (NoMessage.log (Or.inl (by simp))).frame rfl rfl

theorem withShards_noMessage (db : Db) (g : Address32) (keys : List TssPublicKey) :
    NoMessage gateway db (db.withShards g keys) := by
  have hdrop : ∀ db', NoMessage gateway db'
      ((db.shards.get g).foldl (dropKey g (keySet keys)) db') :=
    NoMessage.foldl fun db' key _ => dropKey_noMessage g (keySet keys) db' key
  have hadd : ∀ db', NoMessage gateway db'
      ((keySet keys).foldl (addKey g (db.shards.get g)) db') :=
    NoMessage.foldl fun db' key _ => addKey_noMessage g (db.shards.get g) db' key
  exact ((hdrop { db with shards := db.shards.removeAll g }).trans (hadd _)).frame rfl rfl

/-- No message of the batch goes to the address of `gateway` itself. -/
def Unaddressed (gateway : Address32) (_ : Db) (i : Input) : Prop :=
  ∀ {g batch msg signer sig}, i.call = .submitCommands g batch msg signer sig →
    ∀ m, GatewayOp.sendMessage m ∈ msg.ops → m.dest ≠ gateway

theorem withBatch_noMessage (db : Db) (g : Address32) (batch : BatchId) {msg : GatewayMessage}
    (h : ∀ m, GatewayOp.sendMessage m ∈ msg.ops → m.dest ≠ gateway) :
    NoMessage gateway db (db.withBatch cfg g batch msg) := by
  refine (NoMessage.foldl (fun db op hop => ?_) db).trans (.log (Or.inl (by simp)))
  cases op with
  | sendMessage m =>
      exact (NoMessage.log (Or.inr (h m hop))).trans (.log (Or.inl (by simp)))
  | registerShard key => exact (NoMessage.log (Or.inl (by simp))).frame rfl rfl
  | unregisterShard key => exact (NoMessage.log (Or.inl (by simp))).frame rfl rfl

/-- The log of a gateway gets messages from `send_message` only. -/
theorem Effect.messages (h : Effect cfg db i db') (hok : Unaddressed gateway db i) :
    (NoMessage gateway db db' ∧ db'.sentVia gateway = db.sentVia gateway) ∨
    (i.isNewBlock = true ∧ ∃ block, addChecked cfg.overflowChecks 64 db.block 1 = some block ∧
      db' = { db with block }) ∨
    ∃ msg nonce, Sends cfg db gateway msg nonce db' := by
  cases h with
  | newBlock hcall hblock => exact Or.inr (Or.inl ⟨isNewBlock_iff.mpr hcall, _, hblock, rfl⟩)
  | commands hcall =>
      refine Or.inl ⟨withBatch_noMessage db _ _ (hok hcall), ?_⟩
      rw [Db.sentVia, (withBatch_onlyLogs ..).sent, Db.sentVia]
  | setShards =>
      refine Or.inl ⟨withShards_noMessage db _ _, ?_⟩
      rw [Db.sentVia, (withShards_onlyLogs ..).sent, Db.sentVia]
  | @send _ _ g _ _ _ _ _ hnonce =>
      by_cases hg : g = gateway
      · subst hg
        exact Or.inr (Or.inr ⟨_, _, rfl, hnonce, rfl⟩)
      · refine Or.inl ⟨(NoMessage.log (Or.inr hg)).frame rfl rfl, ?_⟩
        show (db.sent ++ [_]).filterMap _ = _
        rw [List.filterMap_append]
        simp [hg, Db.sentVia]
  | _ => exact Or.inl ⟨(NoMessage.refl gateway _).frame rfl rfl, rfl⟩

theorem recvMessages_succ (db : Db) (gateway : Address32) (n : Nat) :
    recvMessages db gateway ⟨0, n + 1⟩
      = recvMessages db gateway ⟨0, n⟩ ++ db.received gateway n := by
  unfold recvMessages
  dsimp only
  rw [Nat.sub_zero, Nat.sub_zero, List.range'_concat, List.flatMap_append]
  simp [Db.received]

theorem recvMessages_congr {blocks : BlockRange}
    (h : ∀ {block}, block < blocks.stop → db'.received gateway block = db.received gateway block) :
    recvMessages db' gateway blocks = recvMessages db gateway blocks := by
  unfold recvMessages
  simp only [List.flatMap]
  congr 1
  refine List.map_congr_left fun block hmem => h ?_
  rw [List.mem_range'_1] at hmem
  omega

/-- The log of `gateway` up to the current block is what was sent. -/
structure Faithful (gateway : Address32) (db : Db) : Prop where
  future : ∀ {block}, db.block < block → db.received gateway block = []
  perm : (recvMessages db gateway ⟨0, db.block + 1⟩).Perm (db.sentVia gateway)

theorem Faithful.noMessage (h : Faithful gateway db) (hno : NoMessage gateway db db')
    (hsent : db'.sentVia gateway = db.sentVia gateway) : Faithful gateway db' where
  future hlt := by
    rw [hno.received]
    exact h.future (hno.block ▸ hlt)
  perm := by
    rw [hno.block, hsent, recvMessages_congr fun _ => hno.received _]
    exact h.perm

theorem Faithful.newBlock (h : Faithful gateway db) :
    Faithful gateway { db with block := db.block + 1 } where
  future hlt := h.future (Nat.lt_of_succ_lt hlt)
  perm := by
    -- nothing is logged for the block that begins
    rw [recvMessages_succ]
    show (recvMessages db gateway _ ++ db.received gateway (db.block + 1)).Perm _
    rw [h.future (Nat.lt_succ_self _), List.append_nil]
    exact h.perm

theorem Faithful.mem_sentVia (h : Faithful gateway db) {msg : GmpMessage}
    (hmem : GmpEvent.messageReceived msg ∈ db.events.get (gateway, db.block)) :
    msg ∈ db.sentVia gateway := by
  refine h.perm.mem_iff.mp ?_
  rw [recvMessages_succ, List.mem_append]
  exact Or.inr (List.mem_filterMap.mpr ⟨_, hmem, rfl⟩)

theorem Faithful.send (h : Faithful gateway db) {msg : GmpMessage} {nonce : Nat}
    (hfresh : msg ∉ db.sentVia gateway) : Faithful gateway (db.withSent gateway msg nonce) := by
  have hnew : GmpEvent.messageReceived msg ∉ db.events.get (gateway, db.block) :=
    fun hmem => hfresh (h.mem_sentVia hmem)
  have hother : ∀ {block}, block ≠ db.block →
      (db.withSent gateway msg nonce).received gateway block = db.received gateway block := by
    intro block hne
    have hget := Multimap.get_insert_of_ne db.events (.messageReceived msg)
      (show (gateway, block) ≠ (gateway, db.block) from fun heq => hne (Prod.mk.inj heq).2)
    exact congrArg receivedMessages hget
  have hcurrent : ((db.withSent gateway msg nonce).received gateway db.block).Perm
      (msg :: db.received gateway db.block) :=
    (Multimap.get_insert_perm GmpEvent.rank_injective hnew).filterMap _
  have hsentVia : (db.withSent gateway msg nonce).sentVia gateway
      = db.sentVia gateway ++ [msg] := by
    show (db.sent ++ [(gateway, msg)]).filterMap _ = _
    rw [List.filterMap_append]
    simp [Db.sentVia]
  refine ⟨fun {block} hlt => ?_, ?_⟩
  · have hlt' : db.block < block := hlt
    rw [hother (Nat.ne_of_gt hlt')]
    exact h.future hlt'
  · show (recvMessages (db.withSent gateway msg nonce) gateway ⟨0, db.block + 1⟩).Perm _
    rw [hsentVia, recvMessages_succ,
      recvMessages_congr fun hlt => hother (Nat.ne_of_lt hlt)]
    have hperm := h.perm
    rw [recvMessages_succ] at hperm
    refine (hcurrent.append_left _).trans ?_
    exact List.perm_middle.trans ((hperm.cons msg).trans (List.perm_append_singleton msg _).symm)

theorem run_faithful (h : ChainRun cfg (Unaddressed gateway) .new is db)
    (hsent : db.sent.length < 2 ^ 64) (hblocks : is.countP Input.isNewBlock < 2 ^ 64) :
    Faithful gateway db := by
  revert hsent hblocks
  refine h.invariant (P := fun is db => db.sent.length < 2 ^ 64 →
    is.countP Input.isNewBlock < 2 ^ 64 → Faithful gateway db) ?_ ?_
  · exact fun _ _ => ⟨fun _ => rfl, List.Perm.refl _⟩
  · intro is s i s' hrun ih hok hs hsent hblocks
    cases hs
    have heffect := exec_effect cfg s i
    rw [List.countP_append] at hblocks
    have hsent' := Nat.lt_of_le_of_lt (sent_length_le heffect) hsent
    have hfaithful := ih hsent' (Nat.lt_of_le_of_lt (Nat.le_add_right ..) hblocks)
    rcases heffect.messages hok with ⟨hno, hvia⟩ | ⟨hnew, block, hblock, heq⟩ |
      ⟨msg, nonce, hsends⟩
    · exact hfaithful.noMessage hno hvia
    · have hbound : s.block + 1 < 2 ^ 64 := by
        rw [(run_past hrun (by simp only [Db.new]; omega)).1]
        rw [List.countP_singleton, if_pos hnew] at hblocks
        simpa [Db.new] using hblocks
      rw [addChecked_of_lt hbound] at hblock
      rw [heq, ← Option.some.inj hblock]
      exact hfaithful.newBlock
    · have hnum := run_numbered hrun hsent'
      have hfresh := hnum.fresh (hsends.numbered hnum hsent).1
      rw [hsends.eq]
      refine hfaithful.send fun hmem => hfresh ?_
      obtain ⟨⟨g, msg'⟩, hmem, hif⟩ := List.mem_filterMap.mp hmem
      dsimp only at hif
      split at hif
      · cases hif
        exact List.mem_map.mpr ⟨(g, msg), hmem, rfl⟩
      · cases hif

/-- **Every message sent is in the log of its gateway exactly once**, and
the log has no other message, in any run that sends fewer than 2^64
messages in fewer than 2^64 blocks and executes no message addressed to
the gateway itself. -/
theorem sent_logged_once (h : ChainRun cfg (Unaddressed gateway) .new is db)
    (hsent : db.sent.length < 2 ^ 64) (hblocks : is.countP Input.isNewBlock < 2 ^ 64) :
    (recvMessages db gateway ⟨0, db.block + 1⟩).Perm (db.sentVia gateway) :=
  (run_faithful h hsent hblocks).perm

theorem sent_logged_once_example :
    ((exampleDb sendCalls).sentVia (exampleAddress 1)).length = 2 ∧
      (recvMessages (exampleDb sendCalls) (exampleAddress 1)
          ⟨0, (exampleDb sendCalls).block + 1⟩).Perm
        ((exampleDb sendCalls).sentVia (exampleAddress 1)) := by
  have hrun : ChainRun exampleConfig (Unaddressed (exampleAddress 1)) .new
      (sendCalls.map exampleInput) (exampleDb sendCalls) := by
    refine exampleDb_run fun db call hcall => ?_
    intro g batch msg signer sig heq
    simp only [sendCalls, exampleSend, List.mem_cons, List.not_mem_nil, or_false] at hcall
    rcases hcall with rfl | rfl | rfl | rfl | rfl <;> cases heq
  exact ⟨by decide +kernel, sent_logged_once hrun (by decide +kernel) (by decide +kernel)⟩

end Connector

end Timechain
