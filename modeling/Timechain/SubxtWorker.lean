import Timechain.Codec
import Timechain.Run
import Timechain.Storage

/-!
# The transaction worker

The task of the client that signs and submits transactions
(`tc-subxt/src/worker.rs`) and the database it keeps of those that are not
finalized (`tc-subxt/src/db.rs`). The worker numbers new transactions,
resolves a pending one when it is finalized, and signs it again, with its old
nonce, when a best block comes after its era. A restart builds the worker from
the database and the nonce of the account on chain.

What the chain and the disk answer is part of the input: the hash of a signed
transaction, and whether the database could be written (`Signed`). What a
transaction does is not read here (`Tx`); its submission only logs. A panic is
`none`, as is a loop that signs more often than there are answers.

The queue is numbered upwards as long as every start finds the database empty
(`pending_nonces_increasing`), and so has each entry the channel it came
through (`finalized_resolves`): both fail on the first start that finds a
transaction. The database follows the queue as long as no transaction
outlives its era (`db_mirrors_pending`).
-/

namespace Timechain

namespace Subxt

variable {Tx : Type}

abbrev H256 : Type := Bytes 32

/-- `MORTALITY`, in blocks. -/
def mortality : Nat := 32

structure TxData (Tx : Type) where
  hash : H256
  era : Nat
  nonce : Nat
  transaction : Tx

/-! ## The database -/

/-- Keyed by the account's public key and the transaction's hash. -/
abbrev TransactionsDb (Tx : Type) : Type := StorageMap (Bytes 32 × H256) (TxData Tx)

/-- Keys are ordered as byte strings. -/
def hashKey (hash : H256) : Nat := hash.toList.foldl (fun n byte => n * 256 + byte.toNat) 0

namespace TransactionsDb

def storeTx (db : TransactionsDb Tx) (publicKey : Bytes 32) (tx : TxData Tx) : TransactionsDb Tx :=
  db.insert (publicKey, tx.hash) tx

def removeTx (db : TransactionsDb Tx) (publicKey : Bytes 32) (hash : H256) : TransactionsDb Tx :=
  db.remove (publicKey, hash)

/-- Entries below the account's nonce are deleted, the others sorted. -/
def loadPendingTxs (db : TransactionsDb Tx) (publicKey : Bytes 32) (nonce : Nat) :
    List (TxData Tx) × TransactionsDb Tx :=
  let entries := db.iterPrefix hashKey publicKey
  let (deleted, pending) := entries.partition fun e => e.2.nonce < nonce
  ((pending.map Prod.snd).insertionSort fun a b => a.nonce ≤ b.nonce,
    db.removeAll (deleted.map fun e => (publicKey, e.1)))

end TransactionsDb

/-! ## The worker -/

structure TxStatus (Tx : Type) where
  data : TxData Tx
  /-- The channel that waits for the finalized extrinsic. -/
  eventSender : Option Nat
  bestBlock : Option Nat

structure SubxtWorker (Tx : Type) where
  publicKey : Bytes 32
  nonce : Nat
  latestBlock : Nat
  pendingTx : List (TxStatus Tx)
  db : TransactionsDb Tx
  /-- History: the channels resolved, with the hash each was sent. -/
  resolved : List (Nat × H256)

/-- A signed transaction's hash, and whether `store_tx` succeeds. -/
structure Signed where
  hash : H256
  stored : Bool

namespace SubxtWorker

def new (publicKey : Bytes 32) (nonce latestBlock : Nat) (db : TransactionsDb Tx) :
    SubxtWorker Tx :=
  let (txsData, db) := db.loadPendingTxs publicKey nonce
  { publicKey := publicKey
    nonce := nonce
    latestBlock := latestBlock
    pendingTx := txsData.map fun data => ⟨data, none, none⟩
    db := db
    resolved := [] }

/-- A nonce is given to a retry only. Nonce and era are `u64`. -/
def addTxToPool (w : SubxtWorker Tx) (signed : Signed) (transaction : Tx)
    (eventSender : Option Nat) (nonce : Option Nat) : SubxtWorker Tx :=
  let data : TxData Tx :=
    { transaction := transaction
      era := (w.latestBlock + mortality) % 2 ^ 64
      hash := signed.hash
      nonce := nonce.getD w.nonce }
  let w := { w with db := if signed.stored then w.db.storeTx w.publicKey data else w.db }
  match nonce with
  | none =>
      { w with
        pendingTx := w.pendingTx ++ [⟨data, eventSender, none⟩]
        nonce := (w.nonce + 1) % 2 ^ 64 }
  | some _ => { w with pendingTx := ⟨data, eventSender, none⟩ :: w.pendingTx }

/-- One extrinsic of a finalized block, and whether `remove_tx` succeeds. -/
def finalizeExtrinsic (w : SubxtWorker Tx) (hash : H256) (removed : Bool) :
    Option (SubxtWorker Tx) :=
  match w.pendingTx with
  | [] => some w
  | tx :: rest =>
      if hash = tx.data.hash then
        let w := { w with
          pendingTx := rest
          db := if removed then w.db.removeTx w.publicKey tx.data.hash else w.db }
        -- `unwrap`
        tx.eventSender.map fun sender => { w with resolved := w.resolved ++ [(sender, hash)] }
      else some w

def finalizedBlock (w : SubxtWorker Tx) (extrinsics : List (H256 × Bool)) :
    Option (SubxtWorker Tx) :=
  extrinsics.foldlM (fun w e => w.finalizeExtrinsic e.1 e.2) w

/-- A transaction seen in a best block. -/
def markBest (number : Nat) (extrinsics : List H256) (tx : TxStatus Tx) : TxStatus Tx :=
  if extrinsics.contains tx.data.hash then { tx with bestBlock := some number } else tx

def isOutdated (number : Nat) (tx : TxStatus Tx) : Bool :=
  tx.bestBlock.isNone && tx.data.era < number

/-- The `while` loop over the queue. A transaction that is signed again goes
to the front, where the next round finds it. -/
def retryLoop : (fuel : Nat) → List Signed → SubxtWorker Tx → (newPending : List (TxStatus Tx)) →
    Option (SubxtWorker Tx)
  | 0, _, _, _ => none
  | fuel + 1, supply, w, newPending =>
      match w.pendingTx with
      | [] => some { w with pendingTx := newPending }
      | tx :: rest =>
          if isOutdated w.latestBlock tx then
            match supply with
            | [] => none
            | signed :: supply =>
                let w := { w with pendingTx := rest }
                retryLoop fuel supply
                  (w.addTxToPool signed tx.data.transaction tx.eventSender (some tx.data.nonce))
                  newPending
          else retryLoop fuel supply { w with pendingTx := rest } (newPending ++ [tx])

/-- Every round takes an answer or shortens the queue. -/
def bestBlock (w : SubxtWorker Tx) (number : Nat) (extrinsics : List H256)
    (supply : List Signed) : Option (SubxtWorker Tx) :=
  let w := { w with
    latestBlock := number
    pendingTx := w.pendingTx.map (markBest number extrinsics) }
  retryLoop (supply.length + w.pendingTx.length + 1) supply w []

end SubxtWorker

inductive Event (Tx : Type) where
  | newTx (transaction : Tx) (channel : Nat) (signed : Signed)
  | finalized (extrinsics : List (H256 × Bool))
  | bestBlock (number : Nat) (extrinsics : List H256) (supply : List Signed)
  /-- The process ends; the next one calls `new`. -/
  | restart (nonce latestBlock : Nat)

namespace SubxtWorker

def step (w : SubxtWorker Tx) : Event Tx → Option (SubxtWorker Tx)
  | .newTx transaction channel signed =>
      some (w.addTxToPool signed transaction (some channel) none)
  | .finalized extrinsics => w.finalizedBlock extrinsics
  | .bestBlock number extrinsics supply => w.bestBlock number extrinsics supply
  | .restart nonce latestBlock => some (new w.publicKey nonce latestBlock w.db)

/-! ## The loops -/

/-- A transaction and what the worker has made of it. -/
structure Continues (tx tx' : TxStatus Tx) : Prop where
  nonce : tx'.data.nonce = tx.data.nonce
  eventSender : tx'.eventSender = tx.eventSender

theorem Continues.refl (tx : TxStatus Tx) : Continues tx tx := ⟨rfl, rfl⟩

theorem Continues.trans {tx tx' tx'' : TxStatus Tx} (h : Continues tx tx')
    (h' : Continues tx' tx'') : Continues tx tx'' :=
  ⟨h'.nonce.trans h.nonce, h'.eventSender.trans h.eventSender⟩

theorem markBest_continues (number : Nat) (extrinsics : List H256) (tx : TxStatus Tx) :
    Continues tx (markBest number extrinsics tx) := by
  rw [markBest]
  split
  · exact ⟨rfl, rfl⟩
  · exact .refl tx

/-- The loop keeps the queue, each transaction in its place. -/
theorem retryLoop_continues {fuel : Nat} {supply : List Signed} {w w' : SubxtWorker Tx}
    {newPending : List (TxStatus Tx)} (h : retryLoop fuel supply w newPending = some w') :
    w'.nonce = w.nonce ∧
      ∃ kept, w'.pendingTx = newPending ++ kept ∧ List.Forall₂ Continues w.pendingTx kept := by
  induction fuel generalizing supply w newPending with
  | zero => cases h
  | succ fuel ih =>
      rw [retryLoop] at h
      split at h
      · next hnil =>
        cases h
        refine ⟨rfl, [], (List.append_nil _).symm, ?_⟩
        rw [hnil]
        exact .nil
      · next tx rest hcons =>
        split at h
        · cases supply with
          | nil => cases h
          | cons signed supply =>
              obtain ⟨hnonce, kept, hpending, hkept⟩ := ih h
              refine ⟨hnonce, kept, hpending, ?_⟩
              -- the retry is the head of the queue the next round starts with
              obtain ⟨tx', kept', htx, hrest, rfl⟩ := List.forall₂_cons_left_iff.mp hkept
              rw [hcons]
              exact .cons ⟨htx.nonce, htx.eventSender⟩ hrest
        · obtain ⟨hnonce, kept, hpending, hkept⟩ := ih h
          refine ⟨hnonce, tx :: kept, ?_, ?_⟩
          · rw [hpending, List.append_assoc, List.singleton_append]
          · rw [hcons]
            exact .cons (.refl tx) hkept

theorem bestBlock_continues {w w' : SubxtWorker Tx} {number : Nat} {extrinsics : List H256}
    {supply : List Signed} (h : w.bestBlock number extrinsics supply = some w') :
    w'.nonce = w.nonce ∧ List.Forall₂ Continues w.pendingTx w'.pendingTx := by
  obtain ⟨hnonce, kept, hpending, hkept⟩ := retryLoop_continues h
  refine ⟨hnonce, ?_⟩
  rw [hpending, List.nil_append]
  exact (List.forall₂_map_left_iff.mp hkept).imp fun tx _ htx =>
    (markBest_continues number extrinsics tx).trans htx

theorem map_eq_of_continues {β : Type} {f : TxStatus Tx → β}
    (hf : ∀ {tx tx'}, Continues tx tx' → f tx' = f tx) {txs txs' : List (TxStatus Tx)}
    (h : List.Forall₂ Continues txs txs') : txs'.map f = txs.map f := by
  induction h with
  | nil => rfl
  | cons htx _ ih => rw [List.map_cons, List.map_cons, hf htx, ih]

/-- What finalizing each extrinsic keeps, a finalized block keeps. -/
theorem finalizedBlock_rule {P : SubxtWorker Tx → Prop} {extrinsics : List (H256 × Bool)}
    (hstep : ∀ {w e w'}, e ∈ extrinsics → P w → w.finalizeExtrinsic e.1 e.2 = some w' → P w')
    {w w' : SubxtWorker Tx} (hw : P w) (h : w.finalizedBlock extrinsics = some w') : P w' := by
  induction extrinsics generalizing w with
  | nil =>
      cases h
      exact hw
  | cons e extrinsics ih =>
      obtain ⟨w₁, h₁, h⟩ := Option.bind_eq_some_iff.mp h
      exact ih (fun he => hstep (List.mem_cons_of_mem _ he)) (hstep List.mem_cons_self hw h₁) h

/-- An extrinsic that is not at the front does nothing; the front is
resolved. -/
theorem finalizeExtrinsic_cases {w w' : SubxtWorker Tx} {hash : H256} {removed : Bool}
    (h : w.finalizeExtrinsic hash removed = some w') :
    w' = w ∨ ∃ tx rest sender, w.pendingTx = tx :: rest ∧ tx.data.hash = hash ∧
      tx.eventSender = some sender ∧
      w' = { w with
        pendingTx := rest
        db := if removed then w.db.removeTx w.publicKey tx.data.hash else w.db
        resolved := w.resolved ++ [(sender, hash)] } := by
  rw [finalizeExtrinsic] at h
  split at h
  · cases h
    exact .inl rfl
  · next tx rest hcons =>
    split at h
    · next hhash =>
      obtain ⟨sender, hsender, rfl⟩ := Option.map_eq_some_iff.mp h
      exact .inr ⟨tx, rest, sender, hcons, hhash.symm, hsender, rfl⟩
    · cases h
      exact .inl rfl

/-! ## Nonces -/

def nonces (w : SubxtWorker Tx) : List Nat := w.pendingTx.map fun tx => tx.data.nonce

/-- No start finds a transaction of its account in the database, and the
counter has room. -/
def Countable (w : SubxtWorker Tx) : Event Tx → Prop
  | .newTx _ _ _ => w.nonce + 1 < 2 ^ 64
  | .restart nonce _ => (w.db.loadPendingTxs w.publicKey nonce).1 = []
  | _ => True

structure Counted (w : SubxtWorker Tx) : Prop where
  increasing : w.nonces.Pairwise (· < ·)
  below : ∀ nonce ∈ w.nonces, nonce < w.nonce

theorem new_pendingTx (publicKey : Bytes 32) (nonce latestBlock : Nat) (db : TransactionsDb Tx) :
    (new publicKey nonce latestBlock db).pendingTx =
      (db.loadPendingTxs publicKey nonce).1.map fun data => ⟨data, none, none⟩ := rfl

theorem Counted.new {publicKey : Bytes 32} {nonce latestBlock : Nat} {db : TransactionsDb Tx}
    (h : (db.loadPendingTxs publicKey nonce).1 = []) :
    Counted (new publicKey nonce latestBlock db) := by
  have hnil : (SubxtWorker.new publicKey nonce latestBlock db).nonces = [] := by
    rw [nonces, new_pendingTx, h, List.map_nil, List.map_nil]
  constructor
  · rw [hnil]
    exact .nil
  · rw [hnil]
    exact fun nonce hnonce => by cases hnonce

theorem Counted.newTx {w : SubxtWorker Tx} (h : w.Counted) (hroom : w.nonce + 1 < 2 ^ 64)
    (signed : Signed) (transaction : Tx) (channel : Option Nat) :
    (w.addTxToPool signed transaction channel none).Counted := by
  have hnonces : (w.addTxToPool signed transaction channel none).nonces = w.nonces ++ [w.nonce] :=
    List.map_append
  have hnonce : (w.addTxToPool signed transaction channel none).nonce = w.nonce + 1 :=
    Nat.mod_eq_of_lt hroom
  constructor
  · rw [hnonces, List.pairwise_append]
    refine ⟨h.increasing, List.pairwise_singleton .., fun n hn n' hn' => ?_⟩
    rw [List.mem_singleton.mp hn']
    exact h.below n hn
  · rw [hnonces, hnonce]
    intro n hn
    rcases List.mem_append.mp hn with hn | hn
    · exact Nat.lt_succ_of_lt (h.below n hn)
    · rw [List.mem_singleton.mp hn]
      exact Nat.lt_succ_self _

theorem Counted.finalize {w w' : SubxtWorker Tx} (h : w.Counted) {hash : H256} {removed : Bool}
    (hstep : w.finalizeExtrinsic hash removed = some w') : w'.Counted := by
  rcases finalizeExtrinsic_cases hstep with rfl | ⟨tx, rest, sender, hcons, _, _, rfl⟩
  · exact h
  · have hnonces : w.nonces = tx.data.nonce :: rest.map fun tx => tx.data.nonce := by
      rw [nonces, hcons, List.map_cons]
    constructor
    · exact (List.pairwise_cons.mp (hnonces ▸ h.increasing)).2
    · exact fun n hn => h.below n (hnonces ▸ List.mem_cons_of_mem _ hn)

theorem Counted.step {w w' : SubxtWorker Tx} {e : Event Tx} (h : w.Counted) (hok : w.Countable e)
    (hstep : w.step e = some w') : w'.Counted := by
  cases e with
  | newTx transaction channel signed =>
      cases hstep
      exact h.newTx hok signed transaction (some channel)
  | finalized extrinsics => exact finalizedBlock_rule (fun _ h => h.finalize) h hstep
  | bestBlock number extrinsics supply =>
      obtain ⟨hnonce, hcontinues⟩ := bestBlock_continues hstep
      have hnonces : w'.nonces = w.nonces := map_eq_of_continues (fun h => h.nonce) hcontinues
      exact ⟨hnonces ▸ h.increasing, hnonces ▸ hnonce ▸ h.below⟩
  | restart nonce latestBlock =>
      cases hstep
      exact .new hok

/-- The nonces in the queue go up and are below the next one, if no start
finds a transaction in the database. -/
theorem pending_nonces_increasing {publicKey : Bytes 32} {nonce latestBlock : Nat}
    {db : TransactionsDb Tx} (hstart : (db.loadPendingTxs publicKey nonce).1 = [])
    {es : List (Event Tx)} {w : SubxtWorker Tx}
    (hrun : Run step Countable (new publicKey nonce latestBlock db) es w) :
    (w.pendingTx.map fun tx => tx.data.nonce).Pairwise (· < ·) ∧
      ∀ tx ∈ w.pendingTx, tx.data.nonce < w.nonce := by
  have hcounted : w.Counted := hrun.invariant (P := fun _ w => w.Counted) (.new hstart)
    fun _ h hok hstep => h.step hok hstep
  exact ⟨hcounted.increasing, fun tx htx => hcounted.below _ (List.mem_map_of_mem htx)⟩

/-! A first transaction, nonce 0, is included, finalized and resolved; the
process starts again with nonce 1 and numbers two more. -/

def exampleKey : Bytes 32 := Vector.replicate 32 0

def exampleHash (n : UInt8) : H256 := Vector.replicate 32 n

def exampleSigned (n : UInt8) : Signed := ⟨exampleHash n, true⟩

def exampleEvents : List (Event Unit) :=
  [.newTx () 0 (exampleSigned 1), .bestBlock 1 [exampleHash 1] [],
    .finalized [(exampleHash 1, true)], .restart 1 1, .newTx () 0 (exampleSigned 2),
    .newTx () 1 (exampleSigned 3), .bestBlock 40 [] [exampleSigned 4, exampleSigned 5]]

def exampleWorker : SubxtWorker Unit :=
  Run.endState step (new exampleKey 0 0 ∅) exampleEvents

/-- `Countable`, as a check. -/
def isCountable (w : SubxtWorker Tx) : Event Tx → Bool
  | .newTx _ _ _ => w.nonce + 1 < 2 ^ 64
  | .restart nonce _ => (w.db.loadPendingTxs w.publicKey nonce).1.isEmpty
  | _ => true

theorem countable_of_check (w : SubxtWorker Tx) (e : Event Tx) (h : w.isCountable e = true) :
    w.Countable e := by
  cases e with
  | newTx => exact of_decide_eq_true (p := w.nonce + 1 < 2 ^ 64) h
  | restart => exact List.isEmpty_iff.mp h
  | finalized => trivial
  | bestBlock => trivial

theorem pending_nonces_increasing_retry :
    exampleWorker.pendingTx.length = 2 ∧
      ((exampleWorker.pendingTx.map fun tx => tx.data.nonce).Pairwise (· < ·) ∧
        ∀ tx ∈ exampleWorker.pendingTx, tx.data.nonce < exampleWorker.nonce) :=
  ⟨by decide +kernel, @pending_nonces_increasing Unit exampleKey 0 0 ∅ rfl exampleEvents
    exampleWorker (Run.of_guarded countable_of_check (by decide +kernel))⟩

/-- A process ends before its transaction is included. -/
def interruptedEvents : List (Event Unit) :=
  [.newTx () 0 (exampleSigned 1), .restart 0 0, .newTx () 1 (exampleSigned 2)]

/-- The new process loads the transaction with nonce 0 and gives nonce 0 to
the next one. -/
theorem restart_repeats_nonce :
    ∃ w, Run step (fun _ _ => True) (new exampleKey 0 0 ∅) interruptedEvents w ∧
      ¬ ((w.pendingTx.map fun tx => tx.data.nonce).Pairwise (· < ·)) := by
  refine ⟨_, Run.to_endState (fun _ _ _ => trivial) (by decide +kernel), ?_⟩
  have hnonces : (Run.endState step (new exampleKey 0 0 ∅) interruptedEvents).nonces = [0, 0] := by
    decide +kernel
  rw [← nonces, hnonces]
  decide

/-! ## Channels -/

/-- No start finds a transaction of its account in the database. -/
def StartsEmpty (w : SubxtWorker Tx) : Event Tx → Prop
  | .restart nonce _ => (w.db.loadPendingTxs w.publicKey nonce).1 = []
  | _ => True

def senders (w : SubxtWorker Tx) : List (Option Nat) := w.pendingTx.map TxStatus.eventSender

/-- Every entry has the channel it came through. -/
def Answerable (w : SubxtWorker Tx) : Prop := ∀ sender ∈ w.senders, sender ≠ none

theorem Answerable.new {publicKey : Bytes 32} {nonce latestBlock : Nat} {db : TransactionsDb Tx}
    (h : (db.loadPendingTxs publicKey nonce).1 = []) :
    Answerable (new publicKey nonce latestBlock db) := by
  intro sender hsender
  rw [senders, new_pendingTx, h] at hsender
  cases hsender

theorem Answerable.finalize {w w' : SubxtWorker Tx} (h : w.Answerable) {hash : H256}
    {removed : Bool} (hstep : w.finalizeExtrinsic hash removed = some w') : w'.Answerable := by
  rcases finalizeExtrinsic_cases hstep with rfl | ⟨tx, rest, sender, hcons, _, _, rfl⟩
  · exact h
  · intro sender hsender
    refine h sender ?_
    rw [senders, hcons]
    exact List.mem_cons_of_mem _ hsender

theorem Answerable.step {w w' : SubxtWorker Tx} {e : Event Tx} (h : w.Answerable)
    (hok : w.StartsEmpty e) (hstep : w.step e = some w') : w'.Answerable := by
  cases e with
  | newTx transaction channel signed =>
      cases hstep
      intro sender hsender
      have hsenders : (w.addTxToPool signed transaction (some channel) none).senders =
          w.senders ++ [some channel] := List.map_append
      rw [hsenders] at hsender
      rcases List.mem_append.mp hsender with hsender | hsender
      · exact h sender hsender
      · rw [List.mem_singleton.mp hsender]
        exact Option.some_ne_none _
  | finalized extrinsics => exact finalizedBlock_rule (fun _ h => h.finalize) h hstep
  | bestBlock number extrinsics supply =>
      obtain ⟨_, hcontinues⟩ := bestBlock_continues hstep
      have hsenders : w'.senders = w.senders :=
        map_eq_of_continues (fun h => h.eventSender) hcontinues
      rw [Answerable, hsenders]
      exact h
  | restart nonce latestBlock =>
      cases hstep
      exact .new hok

/-- The front has a channel, so that it can be resolved. -/
theorem Answerable.finalizeExtrinsic_some {w : SubxtWorker Tx} (h : w.Answerable) (hash : H256)
    (removed : Bool) : ∃ w', w.finalizeExtrinsic hash removed = some w' := by
  rw [finalizeExtrinsic]
  split
  · exact ⟨w, rfl⟩
  · next tx rest hcons =>
    split
    · have hsender : tx.eventSender ∈ w.senders := by
        rw [senders, hcons]
        exact List.mem_cons_self
      obtain ⟨sender, hsome⟩ := Option.ne_none_iff_exists'.mp (h _ hsender)
      rw [hsome]
      exact ⟨_, rfl⟩
    · exact ⟨w, rfl⟩

theorem Answerable.finalizedBlock_some {w : SubxtWorker Tx} (h : w.Answerable)
    (extrinsics : List (H256 × Bool)) : ∃ w', w.finalizedBlock extrinsics = some w' := by
  induction extrinsics generalizing w with
  | nil => exact ⟨w, rfl⟩
  | cons e extrinsics ih =>
      obtain ⟨w₁, h₁⟩ := h.finalizeExtrinsic_some e.1 e.2
      obtain ⟨w', h'⟩ := ih (h.finalize h₁)
      exact ⟨w', Option.bind_eq_some_iff.mpr ⟨w₁, h₁, h'⟩⟩

/-- A finalized block never makes the worker panic, if no start finds a
transaction in the database. -/
theorem finalized_resolves {publicKey : Bytes 32} {nonce latestBlock : Nat}
    {db : TransactionsDb Tx} (hstart : (db.loadPendingTxs publicKey nonce).1 = [])
    {es : List (Event Tx)} {w : SubxtWorker Tx}
    (hrun : Run step StartsEmpty (new publicKey nonce latestBlock db) es w)
    (extrinsics : List (H256 × Bool)) : ∃ w', w.finalizedBlock extrinsics = some w' := by
  have hanswerable : w.Answerable := hrun.invariant (P := fun _ w => w.Answerable) (.new hstart)
    fun _ h hok hstep => h.step hok hstep
  exact hanswerable.finalizedBlock_some extrinsics

theorem startsEmpty_of_check (w : SubxtWorker Tx) (e : Event Tx) (h : w.isCountable e = true) :
    w.StartsEmpty e := by
  cases e with
  | restart => exact List.isEmpty_iff.mp h
  | newTx => trivial
  | finalized => trivial
  | bestBlock => trivial

/-- Both transactions of the second process are finalized. -/
theorem finalized_resolves_retry :
    ∃ w', exampleWorker.finalizedBlock [(exampleHash 4, true), (exampleHash 5, true)] = some w' :=
  @finalized_resolves Unit exampleKey 0 0 ∅ rfl exampleEvents exampleWorker
    (Run.of_guarded startsEmpty_of_check (by decide +kernel)) _

/-- The transaction a process leaves behind is finalized under the next
one. -/
theorem restart_finalized_panics :
    ∃ w, Run step (fun _ _ => True) (new exampleKey 0 0 ∅)
        [.newTx () 0 (exampleSigned 1), .restart 0 0] w ∧
      w.pendingTx.head?.map (fun tx => tx.data.hash) = some (exampleHash 1) ∧
      w.finalizedBlock [(exampleHash 1, true)] = none := by
  refine ⟨_, Run.to_endState (fun _ _ _ => trivial) (by decide +kernel), by decide +kernel, ?_⟩
  rw [← Option.isNone_iff_eq_none]
  decide +kernel

/-! ## Queue and database -/

/-- No transaction outlives its era, the database can be written, and the
hash of a new transaction is new. -/
def Timely (w : SubxtWorker Tx) : Event Tx → Prop
  | .newTx _ _ signed =>
      signed.stored = true ∧ w.db.get (w.publicKey, signed.hash) = none
  | .finalized extrinsics => ∀ e ∈ extrinsics, e.2 = true
  | .bestBlock number extrinsics _ =>
      ∀ tx ∈ w.pendingTx, isOutdated number (markBest number extrinsics tx) = false
  | .restart _ _ => False

structure Mirrored (w : SubxtWorker Tx) : Prop where
  stored : ∀ hash data, w.db.get (w.publicKey, hash) = some data ↔
    data.hash = hash ∧ ∃ tx ∈ w.pendingTx, tx.data = data
  distinct : (w.pendingTx.map fun tx => tx.data.hash).Nodup

theorem retryLoop_eq {fuel : Nat} {supply : List Signed} {w w' : SubxtWorker Tx}
    {newPending : List (TxStatus Tx)}
    (hcurrent : ∀ tx ∈ w.pendingTx, isOutdated w.latestBlock tx = false)
    (h : retryLoop fuel supply w newPending = some w') :
    w' = { w with pendingTx := newPending ++ w.pendingTx } := by
  induction fuel generalizing w newPending with
  | zero => cases h
  | succ fuel ih =>
      rw [retryLoop] at h
      split at h
      · next hnil =>
        cases h
        rw [hnil, List.append_nil]
      · next tx rest hcons =>
        rw [hcons] at hcurrent
        rw [if_neg (by simp [hcurrent tx List.mem_cons_self])] at h
        have hw' := ih (w := { w with pendingTx := rest })
          (fun tx' htx' => hcurrent tx' (List.mem_cons_of_mem _ htx')) h
        rw [hw', hcons, List.append_assoc, List.singleton_append]

theorem markBest_data (number : Nat) (extrinsics : List H256) (tx : TxStatus Tx) :
    (markBest number extrinsics tx).data = tx.data := by
  rw [markBest]
  split <;> rfl

theorem Mirrored.newTx {w : SubxtWorker Tx} (h : w.Mirrored) {signed : Signed}
    (hstored : signed.stored = true) (hnew : w.db.get (w.publicKey, signed.hash) = none)
    (transaction : Tx) (channel : Option Nat) :
    (w.addTxToPool signed transaction channel none).Mirrored := by
  have hfresh : ∀ tx ∈ w.pendingTx, tx.data.hash ≠ signed.hash := by
    intro tx htx heq
    have hget := (h.stored signed.hash tx.data).mpr ⟨heq, tx, htx, rfl⟩
    exact Option.some_ne_none _ (hget.symm.trans hnew)
  constructor
  · intro hash data
    rw [addTxToPool, hstored]
    simp only [if_true, TransactionsDb.storeTx, StorageMap.get_insert, Prod.mk.injEq, true_and,
      List.mem_append, List.mem_singleton]
    split
    · next heq =>
      subst heq
      constructor
      · intro hdata
        cases hdata
        exact ⟨rfl, _, .inr rfl, rfl⟩
      · rintro ⟨hhash, tx, htx | rfl, rfl⟩
        · exact absurd hhash (hfresh tx htx)
        · rfl
    · next hne =>
      rw [h.stored]
      constructor
      · rintro ⟨hhash, tx, htx, hdata⟩
        exact ⟨hhash, tx, .inl htx, hdata⟩
      · rintro ⟨hhash, tx, htx | rfl, rfl⟩
        · exact ⟨hhash, tx, htx, rfl⟩
        · exact absurd hhash.symm hne
  · have hhashes : (w.addTxToPool signed transaction channel none).pendingTx.map
        (fun tx => tx.data.hash) = w.pendingTx.map (fun tx => tx.data.hash) ++ [signed.hash] :=
      List.map_append
    rw [hhashes, List.nodup_append]
    refine ⟨h.distinct, List.nodup_singleton _, fun a ha b hb => ?_⟩
    obtain ⟨tx, htx, rfl⟩ := List.mem_map.mp ha
    rw [List.mem_singleton.mp hb]
    exact hfresh tx htx

theorem Mirrored.finalize {w w' : SubxtWorker Tx} (h : w.Mirrored) {hash : H256}
    (hstep : w.finalizeExtrinsic hash true = some w') : w'.Mirrored := by
  rcases finalizeExtrinsic_cases hstep with rfl | ⟨tx, rest, sender, hcons, _, _, rfl⟩
  · exact h
  · have hdistinct := h.distinct
    rw [hcons, List.map_cons, List.nodup_cons] at hdistinct
    refine ⟨fun hash data => ?_, hdistinct.2⟩
    simp only [if_true, TransactionsDb.removeTx, StorageMap.get_remove, Prod.mk.injEq, true_and]
    split
    · next heq =>
      refine ⟨fun hnone => (by cases hnone), ?_⟩
      rintro ⟨hhash, tx', htx', rfl⟩
      refine absurd (List.mem_map.mpr ⟨tx', htx', ?_⟩) hdistinct.1
      exact hhash.trans heq
    · next hne =>
      rw [h.stored, hcons]
      constructor
      · rintro ⟨hhash, tx', htx', rfl⟩
        rcases List.mem_cons.mp htx' with rfl | htx'
        · exact absurd hhash.symm hne
        · exact ⟨hhash, tx', htx', rfl⟩
      · rintro ⟨hhash, tx', htx', hdata⟩
        exact ⟨hhash, tx', List.mem_cons_of_mem _ htx', hdata⟩

/-- A best block without retries changes no data. -/
theorem Mirrored.bestBlock {w w' : SubxtWorker Tx} (h : w.Mirrored) {number : Nat}
    {extrinsics : List H256} {supply : List Signed}
    (hcurrent : ∀ tx ∈ w.pendingTx, isOutdated number (markBest number extrinsics tx) = false)
    (hstep : w.bestBlock number extrinsics supply = some w') : w'.Mirrored := by
  have hmarked : ∀ tx ∈ w.pendingTx.map (markBest number extrinsics),
      isOutdated number tx = false := by
    intro _ hmem
    obtain ⟨tx, htx, rfl⟩ := List.mem_map.mp hmem
    exact hcurrent tx htx
  cases retryLoop_eq hmarked hstep
  constructor
  · intro hash data
    rw [h.stored]
    refine and_congr_right fun _ => ?_
    simp only [List.nil_append, List.mem_map]
    constructor
    · rintro ⟨tx, htx, rfl⟩
      exact ⟨_, ⟨tx, htx, rfl⟩, markBest_data ..⟩
    · rintro ⟨_, ⟨tx, htx, rfl⟩, rfl⟩
      exact ⟨tx, htx, (markBest_data ..).symm⟩
  · rw [List.nil_append, List.map_map]
    have hhash : (fun tx : TxStatus Tx => tx.data.hash) ∘ markBest number extrinsics =
        fun tx => tx.data.hash := by
      funext tx
      rw [Function.comp_apply, markBest_data]
    rw [hhash]
    exact h.distinct

theorem Mirrored.step {w w' : SubxtWorker Tx} {e : Event Tx} (h : w.Mirrored) (hok : w.Timely e)
    (hstep : w.step e = some w') : w'.Mirrored := by
  cases e with
  | newTx transaction channel signed =>
      cases hstep
      exact h.newTx hok.1 hok.2 transaction (some channel)
  | finalized extrinsics =>
      refine finalizedBlock_rule (fun he h hstep => ?_) h hstep
      rw [hok _ he] at hstep
      exact h.finalize hstep
  | bestBlock number extrinsics supply => exact h.bestBlock hok hstep
  | restart => exact hok.elim

/-- Database and queue hold the same data, as long as no transaction
outlives its era. -/
theorem db_mirrors_pending {publicKey : Bytes 32} {nonce latestBlock : Nat}
    {es : List (Event Tx)} {w : SubxtWorker Tx}
    (hrun : Run step Timely (new publicKey nonce latestBlock ∅) es w) (hash : H256)
    (data : TxData Tx) :
    w.db.get (w.publicKey, hash) = some data ↔
      data.hash = hash ∧ ∃ tx ∈ w.pendingTx, tx.data = data := by
  have hempty : Mirrored (new publicKey nonce latestBlock (∅ : TransactionsDb Tx)) :=
    ⟨fun _ _ => ⟨fun h => (by cases h), fun ⟨_, _, htx, _⟩ => (by cases htx)⟩, .nil⟩
  have hmirrored : w.Mirrored := hrun.invariant (P := fun _ w => w.Mirrored) hempty
    fun _ h hok hstep => h.step hok hstep
  exact hmirrored.stored hash data

/-- `Timely`, as a check. -/
def isTimely (w : SubxtWorker Tx) : Event Tx → Bool
  | .newTx _ _ signed => signed.stored && !w.db.containsKey (w.publicKey, signed.hash)
  | .finalized extrinsics => extrinsics.all fun e => e.2
  | .bestBlock number extrinsics _ =>
      w.pendingTx.all fun tx => !isOutdated number (markBest number extrinsics tx)
  | .restart _ _ => false

theorem timely_of_check (w : SubxtWorker Tx) (e : Event Tx) (h : w.isTimely e = true) :
    w.Timely e := by
  cases e with
  | newTx transaction channel signed =>
      obtain ⟨hstored, hnew⟩ := Bool.and_eq_true_iff.mp h
      exact ⟨hstored, StorageMap.containsKey_eq_false.mp (by simpa using hnew)⟩
  | finalized extrinsics => exact List.all_eq_true.mp h
  | bestBlock number extrinsics supply =>
      exact fun tx htx => by simpa using List.all_eq_true.mp h tx htx
  | restart => cases h

/-- Two transactions, of which the first is finalized. -/
def timelyEvents : List (Event Unit) :=
  [.newTx () 0 (exampleSigned 1), .newTx () 1 (exampleSigned 2),
    .bestBlock 1 [exampleHash 1] [], .bestBlock 32 [] [], .finalized [(exampleHash 1, true)]]

def timelyWorker : SubxtWorker Unit := Run.endState step (new exampleKey 0 0 ∅) timelyEvents

theorem db_mirrors_pending_timely :
    timelyWorker.pendingTx.length = 1 ∧ ∀ hash data,
      timelyWorker.db.get (timelyWorker.publicKey, hash) = some data ↔
        data.hash = hash ∧ ∃ tx ∈ timelyWorker.pendingTx, tx.data = data :=
  ⟨by decide +kernel, @db_mirrors_pending Unit exampleKey 0 0 timelyEvents timelyWorker
    (Run.of_guarded timely_of_check (by decide +kernel))⟩

/-- The first best block after the era: the transaction is signed again and
stored under its new hash, and stays stored under the old one. -/
theorem retry_leaves_entry :
    ∃ w, Run step (fun _ _ => True) (new exampleKey 0 0 ∅)
        [.newTx () 0 (exampleSigned 1), .bestBlock 33 [] [exampleSigned 2]] w ∧
      w.db.containsKey (exampleKey, exampleHash 1) = true ∧
      w.pendingTx.map (fun tx => tx.data.hash) = [exampleHash 2] :=
  ⟨_, Run.to_endState (fun _ _ _ => trivial) (by decide +kernel), by decide +kernel,
    by decide +kernel⟩

end SubxtWorker

end Subxt

end Timechain
