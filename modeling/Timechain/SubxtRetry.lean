import Timechain.SubxtWorker

/-!
# Signing outdated transactions again

What a best block does to the queue of the worker. The loop takes from the
front of the queue it also puts the transactions it signs again on, so that
it meets each of them a second time. It stops because the new era is not
over: `Retries` is the queue it leaves, and the answers it took, one for each
outdated transaction.

The new era is the number of the block and 32, in 64 bits. The client widens
the 32 bits of a header to the number of a block (`BestBlock.number`), so the
sum is exact there. With a number for which it is not, the new era is over
at once and the loop does not stop (`bestBlock_endless`).
-/

namespace Timechain

namespace Subxt

variable {Tx : Type}

/-- A block of the best block stream: the header's number and the hashes of
the extrinsics. -/
structure BestBlock where
  header : UInt32
  extrinsics : List H256

/-- `IBlock::number`. -/
def BestBlock.number (block : BestBlock) : Nat := block.header.toNat

namespace SubxtWorker

/-- A transaction under its old nonce, with a new hash and era. -/
def resigned (number : Nat) (signed : Signed) (tx : TxStatus Tx) : TxStatus Tx where
  data :=
    { transaction := tx.data.transaction
      era := number + mortality
      hash := signed.hash
      nonce := tx.data.nonce }
  eventSender := tx.eventSender
  bestBlock := none

/-- The queue before and after, with the answers taken in between: the
outdated transactions are signed again, each with the next answer, the
others stay. -/
inductive Retries (number : Nat) :
    List (TxStatus Tx) → List Signed → List (TxStatus Tx) → Prop
  | nil : Retries number [] [] []
  | resign {tx : TxStatus Tx} {signed : Signed} {txs txs' : List (TxStatus Tx)}
      {taken : List Signed} : isOutdated number tx = true → Retries number txs taken txs' →
      Retries number (tx :: txs) (signed :: taken) (resigned number signed tx :: txs')
  | keep {tx : TxStatus Tx} {txs txs' : List (TxStatus Tx)} {taken : List Signed} :
      isOutdated number tx = false → Retries number txs taken txs' →
      Retries number (tx :: txs) taken (tx :: txs')

/-- How many transactions are outdated. -/
def outdated (number : Nat) (txs : List (TxStatus Tx)) : Nat := txs.countP (isOutdated number)

/-- What identifies a transaction for the caller and the chain. -/
def entry (tx : TxStatus Tx) : Nat × Tx × Option Nat :=
  (tx.data.nonce, tx.data.transaction, tx.eventSender)

theorem isOutdated_resigned (number : Nat) (signed : Signed) (tx : TxStatus Tx) :
    isOutdated number (resigned number signed tx) = false := by
  have hera : ¬number + mortality < number := by omega
  simp [isOutdated, resigned, hera]

theorem Retries.entries {number : Nat} {txs txs' : List (TxStatus Tx)} {taken : List Signed}
    (h : Retries number txs taken txs') : txs'.map entry = txs.map entry := by
  induction h with
  | nil => rfl
  | resign _ _ ih => rw [List.map_cons, List.map_cons, ih]; rfl
  | keep _ _ ih => rw [List.map_cons, List.map_cons, ih]

theorem Retries.of_keep {number : Nat} {tx : TxStatus Tx} {txs txs' : List (TxStatus Tx)}
    {taken : List Signed} (hera : isOutdated number tx = false)
    (h : Retries number (tx :: txs) taken txs') :
    ∃ kept, txs' = tx :: kept ∧ Retries number txs taken kept := by
  cases h with
  | resign hagain _ =>
      rw [hera] at hagain
      cases hagain
  | keep _ hrest => exact ⟨_, rfl, hrest⟩

theorem entries_markBest (number : Nat) (extrinsics : List H256) (txs : List (TxStatus Tx)) :
    (txs.map (markBest number extrinsics)).map entry = txs.map entry := by
  rw [List.map_map]
  refine List.map_congr_left fun tx _ => ?_
  rw [Function.comp_apply, markBest]
  split <;> rfl

/-! ## One round -/

theorem retryLoop_nil {fuel : Nat} {supply : List Signed} {w : SubxtWorker Tx}
    {newPending : List (TxStatus Tx)} (h : w.pendingTx = []) :
    retryLoop (fuel + 1) supply w newPending = some { w with pendingTx := newPending } := by
  rw [retryLoop, h]

theorem retryLoop_keep {fuel : Nat} {supply : List Signed} {w : SubxtWorker Tx}
    {newPending rest : List (TxStatus Tx)} {tx : TxStatus Tx} (h : w.pendingTx = tx :: rest)
    (hera : isOutdated w.latestBlock tx = false) :
    retryLoop (fuel + 1) supply w newPending =
      retryLoop fuel supply { w with pendingTx := rest } (newPending ++ [tx]) := by
  rw [retryLoop, h]
  simp only [hera, Bool.false_eq_true, if_false]

theorem retryLoop_no_answer {fuel : Nat} {w : SubxtWorker Tx}
    {newPending rest : List (TxStatus Tx)} {tx : TxStatus Tx} (h : w.pendingTx = tx :: rest)
    (hera : isOutdated w.latestBlock tx = true) :
    retryLoop (fuel + 1) [] w newPending = none := by
  rw [retryLoop, h]
  simp only [hera, if_true]

/-- An outdated transaction takes an answer and is at the front again. -/
theorem retryLoop_resign {fuel : Nat} {supply : List Signed} {w : SubxtWorker Tx}
    {newPending rest : List (TxStatus Tx)} {tx : TxStatus Tx} {signed : Signed}
    (h : w.pendingTx = tx :: rest) (hera : isOutdated w.latestBlock tx = true) :
    retryLoop (fuel + 1) (signed :: supply) w newPending =
      retryLoop fuel supply
        ({ w with pendingTx := rest }.addTxToPool signed tx.data.transaction tx.eventSender
          (some tx.data.nonce)) newPending := by
  rw [retryLoop, h]
  simp only [hera, if_true]

theorem addTxToPool_retry {w : SubxtWorker Tx} (hroom : w.latestBlock + mortality < 2 ^ 64)
    (signed : Signed) (tx : TxStatus Tx) :
    (w.addTxToPool signed tx.data.transaction tx.eventSender (some tx.data.nonce)).pendingTx =
      resigned w.latestBlock signed tx :: w.pendingTx := by
  simp only [addTxToPool, Nat.mod_eq_of_lt hroom, Option.getD_some, resigned]

/-! ## The loop -/

/-- What the loop makes of a queue: with an answer for each outdated
transaction it stops, having taken just those; with fewer it asks for more. -/
def Outcome (number nonce : Nat) (txs : List (TxStatus Tx)) (supply : List Signed)
    (newPending : List (TxStatus Tx)) (result : Option (SubxtWorker Tx)) : Prop :=
  (outdated number txs ≤ supply.length → ∃ w' kept, result = some w' ∧ w'.nonce = nonce ∧
    w'.pendingTx = newPending ++ kept ∧
    Retries number txs (supply.take (outdated number txs)) kept) ∧
  (supply.length < outdated number txs → result = none)

theorem outdated_keep {number : Nat} {tx : TxStatus Tx} (txs : List (TxStatus Tx))
    (h : isOutdated number tx = false) : outdated number (tx :: txs) = outdated number txs :=
  List.countP_cons_of_neg (by rw [h]; exact Bool.false_ne_true)

theorem outdated_resign {number : Nat} {tx : TxStatus Tx} (txs : List (TxStatus Tx))
    (h : isOutdated number tx = true) : outdated number (tx :: txs) = outdated number txs + 1 :=
  List.countP_cons_of_pos h

namespace Outcome

variable {number nonce : Nat} {tx : TxStatus Tx} {txs newPending : List (TxStatus Tx)}
  {signed : Signed} {supply : List Signed} {result : Option (SubxtWorker Tx)}

theorem keep (hera : isOutdated number tx = false)
    (h : Outcome number nonce txs supply (newPending ++ [tx]) result) :
    Outcome number nonce (tx :: txs) supply newPending result := by
  rw [Outcome, outdated_keep txs hera]
  refine ⟨fun hle => ?_, h.2⟩
  obtain ⟨w', kept, hw', hnonce, hkept, hretries⟩ := h.1 hle
  refine ⟨w', tx :: kept, hw', hnonce, ?_, .keep hera hretries⟩
  rw [hkept, List.append_assoc, List.singleton_append]

theorem no_answer (hera : isOutdated number tx = true) :
    Outcome number nonce (tx :: txs) [] newPending (none : Option (SubxtWorker Tx)) := by
  rw [Outcome, outdated_resign txs hera]
  exact ⟨fun h => absurd h (Nat.not_succ_le_zero _), fun _ => rfl⟩

/-- The transaction just signed is met again, and kept. -/
theorem resign (hera : isOutdated number tx = true)
    (h : Outcome number nonce (resigned number signed tx :: txs) supply newPending result) :
    Outcome number nonce (tx :: txs) (signed :: supply) newPending result := by
  rw [Outcome, outdated_keep txs (isOutdated_resigned number signed tx)] at h
  rw [Outcome, outdated_resign txs hera, List.length_cons]
  refine ⟨fun hle => ?_, fun hlt => h.2 (Nat.lt_of_succ_lt_succ hlt)⟩
  obtain ⟨w', kept, hw', hnonce, hkept, hretries⟩ := h.1 (Nat.le_of_succ_le_succ hle)
  obtain ⟨kept', rfl, hrest⟩ := hretries.of_keep (isOutdated_resigned number signed tx)
  exact ⟨w', _, hw', hnonce, hkept, .resign hera hrest⟩

end Outcome

theorem retryLoop_outcome {fuel : Nat} {supply : List Signed} {w : SubxtWorker Tx}
    {newPending : List (TxStatus Tx)} (hroom : w.latestBlock + mortality < 2 ^ 64)
    (hfuel : min (outdated w.latestBlock w.pendingTx) supply.length + w.pendingTx.length < fuel) :
    Outcome w.latestBlock w.nonce w.pendingTx supply newPending
      (retryLoop fuel supply w newPending) := by
  -- every round keeps a transaction or makes the front one up to date
  induction fuel generalizing supply w newPending with
  | zero => omega
  | succ fuel ih =>
      cases hpending : w.pendingTx with
      | nil =>
          rw [retryLoop_nil hpending]
          refine ⟨fun _ => ⟨_, [], rfl, rfl, (List.append_nil _).symm, .nil⟩, fun h => ?_⟩
          exact absurd h (Nat.not_lt_zero _)
      | cons tx rest =>
          rw [hpending, List.length_cons] at hfuel
          cases hera : isOutdated w.latestBlock tx with
          | false =>
              rw [outdated_keep rest hera] at hfuel
              rw [retryLoop_keep hpending hera]
              refine .keep hera (@ih supply { w with pendingTx := rest } _ hroom ?_)
              simp only
              omega
          | true =>
              rw [outdated_resign rest hera] at hfuel
              cases supply with
              | nil =>
                  rw [retryLoop_no_answer hpending hera]
                  exact .no_answer hera
              | cons signed supply =>
                  have hnext := addTxToPool_retry (w := { w with pendingTx := rest }) hroom signed tx
                  have hcount := outdated_keep rest (isOutdated_resigned w.latestBlock signed tx)
                  rw [retryLoop_resign hpending hera]
                  apply Outcome.resign hera
                  rw [← hnext]
                  refine @ih supply ({ w with pendingTx := rest }.addTxToPool signed
                    tx.data.transaction tx.eventSender (some tx.data.nonce)) newPending hroom ?_
                  rw [hnext, List.length_cons]
                  rw [List.length_cons] at hfuel
                  show min (outdated w.latestBlock (resigned w.latestBlock signed tx :: rest)) _ +
                    (rest.length + 1) < fuel
                  omega

theorem bestBlock_outcome (w : SubxtWorker Tx) {number : Nat} (hroom : number + mortality < 2 ^ 64)
    (extrinsics : List H256) (supply : List Signed) :
    Outcome number w.nonce (w.pendingTx.map (markBest number extrinsics)) supply []
      (w.bestBlock number extrinsics supply) := by
  refine @retryLoop_outcome _ _ supply
    { w with latestBlock := number, pendingTx := w.pendingTx.map (markBest number extrinsics) }
    [] hroom ?_
  simp only
  omega

/-- A best block, whatever is pending and whatever it contains. The loop
signs as often as transactions are outdated once those in the block are
marked; the queue keeps its entries in their places, with new hashes and eras
for the outdated ones. -/
theorem best_block_keeps_queue (w : SubxtWorker Tx) (block : BestBlock) (supply : List Signed) :
    ((w.bestBlock block.number block.extrinsics supply).isSome ↔
      outdated block.number (w.pendingTx.map (markBest block.number block.extrinsics)) ≤
        supply.length) ∧
    ∀ w', w.bestBlock block.number block.extrinsics supply = some w' →
      w'.nonce = w.nonce ∧ w'.pendingTx.map entry = w.pendingTx.map entry ∧
      Retries block.number (w.pendingTx.map (markBest block.number block.extrinsics))
        (supply.take
          (outdated block.number (w.pendingTx.map (markBest block.number block.extrinsics))))
        w'.pendingTx := by
  have hroom : block.number + mortality < 2 ^ 64 := by
    have hheader : block.number < 2 ^ 32 := block.header.toNat_lt
    unfold mortality
    omega
  obtain ⟨hsome, hnone⟩ := w.bestBlock_outcome hroom block.extrinsics supply
  have hiff : (w.bestBlock block.number block.extrinsics supply).isSome ↔
      outdated block.number (w.pendingTx.map (markBest block.number block.extrinsics)) ≤
        supply.length := by
    constructor
    · intro h
      refine Nat.le_of_not_lt fun hlt => ?_
      rw [hnone hlt] at h
      cases h
    · intro hle
      obtain ⟨w', kept, hw', -⟩ := hsome hle
      rw [hw']
      rfl
  refine ⟨hiff, fun w' hw' => ?_⟩
  obtain ⟨w'', kept, hw'', hnonce, hkept, hretries⟩ :=
    hsome (hiff.mp (by rw [hw']; rfl))
  obtain rfl : w' = w'' := Option.some.inj (hw'.symm.trans hw'')
  rw [hkept, List.nil_append]
  refine ⟨hnonce, ?_, hretries⟩
  rw [hretries.entries, entries_markBest]

/-- Three transactions, the era of the first and of the last over; the last
one is in the block. -/
def staleQueue : SubxtWorker Unit :=
  { publicKey := exampleKey
    nonce := 3
    latestBlock := 32
    pendingTx :=
      [⟨⟨exampleHash 1, 10, 0, ()⟩, some 7, none⟩, ⟨⟨exampleHash 2, 50, 1, ()⟩, none, none⟩,
        ⟨⟨exampleHash 3, 20, 2, ()⟩, some 8, none⟩]
    db := ∅
    resolved := [] }

def staleBlock : BestBlock := ⟨33, [exampleHash 3]⟩

theorem best_block_keeps_queue_stale :
    ((staleQueue.bestBlock staleBlock.number staleBlock.extrinsics [exampleSigned 9]).isSome ↔
      outdated staleBlock.number
        (staleQueue.pendingTx.map (markBest staleBlock.number staleBlock.extrinsics)) ≤ 1) ∧
    (staleQueue.bestBlock staleBlock.number staleBlock.extrinsics [exampleSigned 9]).map
      (fun w => w.pendingTx.map fun tx => (tx.data.hash, tx.data.era, tx.data.nonce)) =
      some [(exampleHash 9, 65, 0), (exampleHash 2, 50, 1), (exampleHash 3, 20, 2)] :=
  ⟨(best_block_keeps_queue staleQueue staleBlock [exampleSigned 9]).1, by decide +kernel⟩

/-! ## Block numbers at the end of `u64` -/

/-- A sum that wraps: what was signed again is outdated again, whatever the
number of answers. -/
theorem retryLoop_endless {fuel : Nat} {supply : List Signed} {w : SubxtWorker Tx}
    {newPending : List (TxStatus Tx)} (hnumber : w.latestBlock < 2 ^ 64)
    (hwrap : 2 ^ 64 ≤ w.latestBlock + mortality)
    (h : ∃ tx ∈ w.pendingTx, isOutdated w.latestBlock tx = true) :
    retryLoop fuel supply w newPending = none := by
  induction fuel generalizing supply w newPending with
  | zero => rfl
  | succ fuel ih =>
      obtain ⟨old, hmem, hold⟩ := h
      cases hpending : w.pendingTx with
      | nil =>
          rw [hpending] at hmem
          cases hmem
      | cons tx rest =>
          cases hera : isOutdated w.latestBlock tx with
          | false =>
              rw [retryLoop_keep hpending hera]
              refine @ih supply { w with pendingTx := rest } _ hnumber hwrap ⟨old, ?_, hold⟩
              rw [hpending] at hmem
              rcases List.mem_cons.mp hmem with rfl | hrest
              · rw [hera] at hold
                cases hold
              · exact hrest
          | true =>
              cases supply with
              | nil => exact retryLoop_no_answer hpending hera
              | cons signed supply =>
                  rw [retryLoop_resign hpending hera]
                  refine ih hnumber hwrap ⟨_, List.mem_cons_self .., ?_⟩
                  have hsmall : (w.latestBlock + mortality) % 2 ^ 64 < w.latestBlock := by
                    unfold mortality at hwrap ⊢
                    omega
                  simp only [isOutdated, Option.isNone_none, Bool.true_and, decide_eq_true_eq]
                  exact hsmall

theorem bestBlock_endless (w : SubxtWorker Tx) {number : Nat} (hnumber : number < 2 ^ 64)
    (hwrap : 2 ^ 64 ≤ number + mortality) (extrinsics : List H256)
    (h : ∃ tx ∈ w.pendingTx.map (markBest number extrinsics), isOutdated number tx = true)
    (supply : List Signed) : w.bestBlock number extrinsics supply = none :=
  @retryLoop_endless _ _ supply
    { w with latestBlock := number, pendingTx := w.pendingTx.map (markBest number extrinsics) }
    [] hnumber hwrap h

end SubxtWorker

end Subxt

end Timechain
