import Timechain.ChronicleWorker

/-!
# What a final block does

`on_finality` is long, but what it can do is little, and is said once
(`onFinality_ends`): it appends entries to the log, takes from the queues
exactly what these entries account for, closes the senders they name,
removes no file, and reports no shard whose key was found on disk.
`Entry.Fine` is what the entries may say: they are about shards the chain
lists, and about blocks that are reached.

A piece of code inside a loop over a queue `Works` outside of the queues,
and `Takes` what the loop holds in its hands; between the stages a call
`Goes` on with everything accounted for. The proof follows the code, stage
by stage, with the rules of `Outcome` and `Buckets`.
-/

namespace Timechain

namespace Chronicle

open Buckets (inQueue inQueue_nil inQueue_append)

variable {C : TssCrate}

/-! ## Entries -/

namespace Entry

/-- The messages for block `k` an entry accounts for. -/
def message (k : BlockNumber) : Entry C → List (ShardId × PeerId × C.Message)
  | .handled _ n shardId peerId msg => inQueue n [(shardId, peerId, msg)] k
  | .dropped _ n shardId peerId msg => inQueue n [(shardId, peerId, msg)] k
  | .lost _ n msgs => inQueue n msgs k
  | _ => []

/-- The requests for block `k` an entry accounts for. -/
def request (k : BlockNumber) : Entry C → List (ShardId × TaskId × List UInt8)
  | .signing _ n shardId taskId data => inQueue n [(shardId, taskId, data)] k
  | .refused _ n shardId taskId data => inQueue n [(shardId, taskId, data)] k
  | _ => []

/-- What an entry of a call for the final block `f` may say, where the chain
lists `shards`. -/
def Fine (f : Finality C) (shards : List ShardId) : Entry C → Prop
  | .joined shardId => shardId ∈ shards
  | .committed shardId _ => shardId ∈ shards
  | .signing block n shardId _ _ => block = f.block ∧ n ≤ block ∧ shardId ∈ shards
  | .refused block n shardId _ _ => block = f.block ∧ n ≤ block ∧ shardId ∉ shards
  | .started shardId _ => shardId ∈ shards
  | .completed shardId _ => shardId ∈ shards
  | .handled block n shardId _ _ => block = f.block ∧ n ≤ block ∧ shardId ∈ shards
  | .dropped block n shardId _ _ => block = f.block ∧ n ≤ block ∧ shardId ∉ shards
  | .lost block n _ => block = f.block ∧ n ≤ block
  | .sent _ msg => msg.shardId ∈ shards ∧ msg.block ≤ f.block
  | .submitCommitment shardId _ _ => shardId ∈ shards
  | .submitOnline shardId => shardId ∈ shards
  | .answered _ _ _ _ => True
  | .hungUp _ _ => True

/-- The sender an entry closes. -/
def closes : Entry C → Option (TaskId × Nat)
  | .answered taskId channel _ _ => some (taskId, channel)
  | .hungUp taskId channel => some (taskId, channel)
  | _ => none

/-- An entry that closes no sender and reports no shard. -/
def plain : Entry C → Bool
  | .submitOnline _ => false
  | .answered .. => false
  | .hungUp .. => false
  | _ => true

theorem closes_of_plain {e : Entry C} (h : e.plain = true) : e.closes = none := by
  cases e <;> first | rfl | cases h

end Entry

/-- How entries close senders: each one closed is there, and gone then. -/
inductive Closes : StorageMap TaskId Nat → List (Entry C) → StorageMap TaskId Nat → Prop
  | nil (m : StorageMap TaskId Nat) : Closes m [] m
  | other {m m' : StorageMap TaskId Nat} {e : Entry C} {es : List (Entry C)} :
      e.closes = none → Closes m es m' → Closes m (e :: es) m'
  | close {m m' : StorageMap TaskId Nat} {e : Entry C} {es : List (Entry C)} {taskId : TaskId}
      {channel : Nat} : e.closes = some (taskId, channel) → m.get taskId = some channel →
      Closes (m.remove taskId) es m' → Closes m (e :: es) m'

theorem Closes.append {m m' m'' : StorageMap TaskId Nat} {es es' : List (Entry C)}
    (h : Closes m es m') (h' : Closes m' es' m'') : Closes m (es ++ es') m'' := by
  induction h with
  | nil => exact h'
  | other hnone _ ih => exact .other hnone (ih h')
  | close hsome hget _ ih => exact .close hsome hget (ih h')

theorem Closes.of_plain {m : StorageMap TaskId Nat} {es : List (Entry C)}
    (h : ∀ e ∈ es, e.plain = true) : Closes m es m := by
  induction es with
  | nil => exact .nil m
  | cons e es ih =>
      exact .other (Entry.closes_of_plain (h e List.mem_cons_self))
        (ih fun e' he' => h e' (List.mem_cons_of_mem e he'))

/-! ## What a piece of `on_finality` does -/

variable {f : Finality C} {shards : List ShardId} {es es' : List (Entry C)}
  {w w' w'' : Worker C} {shardId : ShardId}

/-- If the worker has the shard, it has found its key. -/
def Worker.Recovered (settled : C.Instance → Prop) (s : ShardId) (w : Worker C) : Prop :=
  ∀ {tss}, w.tssStates.get s = some tss → tss.Recovered settled

/-- Entries are added, senders closed as they say, and files written. A shard
that is not joined without a commitment keeps the key that was found, and is
not reported. -/
structure Logs (f : Finality C) (shards : List ShardId) (es : List (Entry C)) (w w' : Worker C) :
    Prop where
  log : w'.log = w.log ++ es
  fine : ∀ e ∈ es, e.Fine f shards
  channels : Closes w.channels es w'.channels
  senders : w'.senders = w.senders
  files : ∀ path, w.files.get path ≠ none → w'.files.get path ≠ none
  silent : ∀ {settled s}, Settles C settled → f.getShardCommitment .join s ≠ some none →
    w.Recovered settled s → w'.Recovered settled s ∧ .submitOnline s ∉ es

/-- Work outside of the queues. Shards may be joined. -/
structure Works (f : Finality C) (shards : List ShardId) (es : List (Entry C)) (w w' : Worker C) :
    Prop extends Logs f shards es w w' where
  messages : w'.messages = w.messages
  requests : w'.requests = w.requests
  known : ∀ s, w.tssStates.get s ≠ none → w'.tssStates.get s ≠ none
  joins : ∀ s, w'.tssStates.get s ≠ none → s ∈ shards ∨ w.tssStates.get s ≠ none

theorem Logs.trans (h : Logs f shards es w w') (h' : Logs f shards es' w' w'') :
    Logs f shards (es ++ es') w w'' where
  log := by rw [h'.log, h.log, List.append_assoc]
  fine e he := (List.mem_append.mp he).elim (h.fine e) (h'.fine e)
  channels := h.channels.append h'.channels
  senders := h'.senders.trans h.senders
  files path hpath := h'.files path (h.files path hpath)
  silent hsettles hjoin hw := by
    obtain ⟨hw', hes⟩ := h.silent hsettles hjoin hw
    obtain ⟨hw'', hes'⟩ := h'.silent hsettles hjoin hw'
    exact ⟨hw'', fun hmem => (List.mem_append.mp hmem).elim hes hes'⟩

theorem Works.trans (h : Works f shards es w w') (h' : Works f shards es' w' w'') :
    Works f shards (es ++ es') w w'' where
  toLogs := h.toLogs.trans h'.toLogs
  messages := h'.messages.trans h.messages
  requests := h'.requests.trans h.requests
  known s hs := h'.known s (h.known s hs)
  joins s hs := (h'.joins s hs).elim Or.inl (h.joins s)

/-! ### The single updates -/

theorem Works.record (w : Worker C) (hfine : ∀ e ∈ es, e.Fine f shards)
    (hplain : ∀ e ∈ es, e.plain = true) : Works f shards es w (w.record es) where
  log := rfl
  fine := hfine
  channels := .of_plain hplain
  senders := rfl
  files _ h := h
  silent _ _ hw := ⟨hw, fun hmem => Bool.false_ne_true (hplain _ hmem)⟩
  messages := rfl
  requests := rfl
  known _ h := h
  joins _ h := Or.inr h

/-- A shard is joined or changes, and files are written. -/
theorem Works.setTss {tss : Tss C} {files : Files} (hshard : shardId ∈ shards)
    (hfiles : ∀ {path}, w.files.get path ≠ none → files.get path ≠ none)
    (hrecovered : ∀ {settled}, Settles C settled → f.getShardCommitment .join shardId ≠ some none →
      w.Recovered settled shardId → tss.Recovered settled) :
    Works f shards [] w { w.setTss shardId tss with files := files } where
  log := (List.append_nil _).symm
  fine _ h := (List.not_mem_nil h).elim
  channels := .nil _
  senders := rfl
  files _ h := hfiles h
  silent {settled s} hsettles hjoin hw := by
    refine ⟨fun {tss'} hget => ?_, List.not_mem_nil⟩
    have hget : (w.tssStates.insert shardId tss).get s = some tss' := hget
    rw [StorageMap.get_insert] at hget
    split at hget
    · next heq =>
        cases hget
        subst heq
        exact hrecovered hsettles hjoin hw
    · exact hw hget
  messages := rfl
  requests := rfl
  known _ h := StorageMap.get_insert_ne_none.mpr (Or.inr h)
  joins s h := (StorageMap.get_insert_ne_none.mp h).imp_left fun heq : s = shardId => heq ▸ hshard

/-- A shard that has become ready is reported. It did not find its key. -/
theorem Works.online {tss tss' : Tss C} {files : Files} {key : C.VerifyingKey}
    (hshard : shardId ∈ shards) (hget : w.tssStates.get shardId = some tss)
    (hnext : tss.nextAction w.files f.writable = some (some (.publicKey key), tss', files)) :
    Works f shards [.submitOnline shardId] w
      ({ w.setTss shardId tss' with files := files }.record [.submitOnline shardId]) := by
  have hset : Works f shards [] w { w.setTss shardId tss' with files := files } :=
    .setTss hshard (fun h => Tss.nextAction_kept hnext h)
      fun hsettles _ hw => ((hw hget).nextAction hsettles hnext).1
  refine { hset with log := rfl, fine := ?_, channels := .other rfl (.nil _), silent := ?_ }
  · exact fun e he => List.mem_singleton.mp he ▸ hshard
  · intro settled s hsettles hjoin hw
    refine ⟨(hset.silent hsettles hjoin hw).1, fun hmem => ?_⟩
    cases List.mem_singleton.mp hmem
    exact ((hw hget).nextAction hsettles hnext).2 key rfl

theorem Works.setExecutors (w : Worker C) (executors : StorageMap ShardId TaskExecutor) :
    Works f shards [] w { w with executorStates := executors } where
  log := (List.append_nil _).symm
  fine _ h := (List.not_mem_nil h).elim
  channels := .nil _
  senders := rfl
  files _ h := h
  silent _ _ hw := ⟨hw, List.not_mem_nil⟩
  messages := rfl
  requests := rfl
  known _ h := h
  joins _ h := Or.inr h

/-! ### What waits in the queues -/

/-- Messages and requests, by block, are accounted for that were taken out
of the queues before. -/
def Takes (f : Finality C) (shards : List ShardId)
    (msgs : BlockNumber → List (ShardId × PeerId × C.Message))
    (reqs : BlockNumber → List (ShardId × TaskId × List UInt8)) (w w' : Worker C) : Prop :=
  ∃ es, Works f shards es w w' ∧ (∀ k, es.flatMap (Entry.message k) = msgs k) ∧
    ∀ k, es.flatMap (Entry.request k) = reqs k

/-- Work that has nothing to do with the queues. -/
abbrev Polls (f : Finality C) (shards : List ShardId) (w w' : Worker C) : Prop :=
  Takes f shards (fun _ => []) (fun _ => []) w w'

section Takes

variable {msgs msgs' msgs'' : BlockNumber → List (ShardId × PeerId × C.Message)}
  {reqs reqs' reqs'' : BlockNumber → List (ShardId × TaskId × List UInt8)}

theorem Takes.trans (h : Takes f shards msgs reqs w w') (h' : Takes f shards msgs' reqs' w' w'')
    (hmsgs : ∀ k, msgs k ++ msgs' k = msgs'' k) (hreqs : ∀ k, reqs k ++ reqs' k = reqs'' k) :
    Takes f shards msgs'' reqs'' w w'' := by
  obtain ⟨es, hworks, hes⟩ := h
  obtain ⟨es', hworks', hes'⟩ := h'
  refine ⟨es ++ es', hworks.trans hworks', fun k => ?_, fun k => ?_⟩
  · rw [List.flatMap_append, hes.1, hes'.1, hmsgs]
  · rw [List.flatMap_append, hes.2, hes'.2, hreqs]

theorem Polls.trans (h : Polls f shards w w') (h' : Takes f shards msgs reqs w' w'') :
    Takes f shards msgs reqs w w'' :=
  Takes.trans h h' (fun _ => rfl) fun _ => rfl

theorem Takes.polls (h : Takes f shards msgs reqs w w') (h' : Polls f shards w' w'') :
    Takes f shards msgs reqs w w'' :=
  h.trans h' (fun _ => List.append_nil _) fun _ => List.append_nil _

theorem Works.polls (h : Works f shards [] w w') : Polls f shards w w' :=
  ⟨[], h, fun _ => rfl, fun _ => rfl⟩

theorem Polls.refl (w : Worker C) : Polls f shards w w :=
  (Works.setExecutors w w.executorStates).polls

/-- One entry. -/
theorem Takes.record (w : Worker C) {e : Entry C} (hfine : e.Fine f shards)
    (hplain : e.plain = true) :
    Takes f shards (fun k => e.message k) (fun k => e.request k) w (w.record [e]) := by
  refine ⟨[e], .record w ?_ ?_, fun k => ?_, fun k => ?_⟩
  · exact fun e' he' => List.mem_singleton.mp he' ▸ hfine
  · exact fun e' he' => List.mem_singleton.mp he' ▸ hplain
  · exact List.append_nil _
  · exact List.append_nil _

/-- Entries that have nothing to do with the queues. -/
theorem Polls.record (w : Worker C) (hfine : ∀ e ∈ es, e.Fine f shards)
    (hplain : ∀ e ∈ es, e.plain = true)
    (hquiet : ∀ e ∈ es, ∀ k, e.message k = [] ∧ e.request k = []) :
    Polls f shards w (w.record es) :=
  ⟨es, .record w hfine hplain, fun k => List.flatMap_eq_nil_iff.mpr fun e he => (hquiet e he k).1,
    fun k => List.flatMap_eq_nil_iff.mpr fun e he => (hquiet e he k).2⟩

theorem Polls.takeChannel (w : Worker C) {taskId : TaskId} {fate : Nat → Entry C}
    (hcloses : ∀ channel, (fate channel).closes = some (taskId, channel))
    (hfine : ∀ channel, (fate channel).Fine f shards)
    (hquiet : ∀ channel k, (fate channel).message k = [] ∧ (fate channel).request k = []) :
    Polls f shards w (w.takeChannel taskId fate) := by
  unfold Worker.takeChannel
  split
  · exact .refl w
  · next channel hget =>
      have hsame : Works f shards [] w w := .setExecutors w w.executorStates
      refine ⟨[fate channel], { hsame with
        log := rfl, fine := ?_, channels := .close (hcloses channel) hget (.nil _), silent := ?_ },
        fun k => ?_, fun k => ?_⟩
      · exact fun e he => List.mem_singleton.mp he ▸ hfine channel
      · intro settled s _ _ hw
        refine ⟨hw, fun hmem => ?_⟩
        have hnone := hcloses channel
        rw [← List.mem_singleton.mp hmem] at hnone
        cases hnone
      · exact (List.append_nil _).trans (hquiet channel k).1
      · exact (List.append_nil _).trans (hquiet channel k).2

/-- The worker knows exactly the shards the chain lists. -/
def Listed (shards : List ShardId) (w : Worker C) : Prop :=
  ∀ s, w.tssStates.get s ≠ none ↔ s ∈ shards

theorem Takes.listed (h : Takes f shards msgs reqs w w') (hlisted : Listed shards w) :
    Listed shards w' := by
  obtain ⟨es, hworks, -⟩ := h
  intro s
  refine ⟨fun hs => (hworks.joins s hs).elim id (hlisted s).mp, fun hs => ?_⟩
  exact hworks.known s ((hlisted s).mpr hs)

end Takes

/-! ### Polls -/

variable {block : BlockNumber}

theorem perform_ends {tss tss' : Tss C} {files : Files} {action : TssAction C}
    (hshard : shardId ∈ shards) (hblock : block ≤ f.block)
    (hget : w.tssStates.get shardId = some tss)
    (hnext : tss.nextAction w.files f.writable = some (some action, tss', files)) :
    (Worker.perform f shardId block { w.setTss shardId tss' with files := files } action).Ends
      (Polls f shards w) fun _ => False := by
  have hset : Polls f shards w { w.setTss shardId tss' with files := files } :=
    (Works.setTss hshard (fun h => Tss.nextAction_kept hnext h)
      fun hsettles _ hw => ((hw hget).nextAction hsettles hnext).1).polls
  cases action with
  | send msgs =>
      refine hset.trans (Polls.record _ ?_ ?_ ?_) <;> intro e he <;>
        obtain ⟨m, -, rfl⟩ := List.mem_map.mp he
      · refine ⟨hshard, ?_⟩
        show (if C.isResponse m.2 then 0 else block) ≤ f.block
        split
        · exact Nat.zero_le _
        · exact hblock
      · rfl
      · exact fun _ => ⟨rfl, rfl⟩
  | commit commitment proof =>
      rw [Worker.perform]
      split
      · exact hset.trans (.record _ hshard rfl)
      · trivial
  | publicKey key =>
      rw [Worker.perform]
      split
      · trivial
      · split
        · exact ⟨_, .online hshard hget hnext, fun _ => rfl, fun _ => rfl⟩
        · trivial
  | signature taskId hash signature =>
      exact hset.trans (Polls.takeChannel _ (fun _ => rfl) (fun _ => trivial) fun _ _ => ⟨rfl, rfl⟩)

theorem pollRounds_ends (hshard : shardId ∈ shards) (hblock : block ≤ f.block) (rounds : Nat)
    (w : Worker C) :
    (Worker.pollRounds f shardId block rounds w).Ends (Polls f shards w) fun _ => False := by
  induction rounds generalizing w with
  | zero => trivial
  | succ rounds ih =>
      unfold Worker.pollRounds
      split
      · trivial
      · next tss hget =>
          split
          · trivial
          · next tss' files hnext =>
              exact (Works.setTss hshard (fun h => Tss.nextAction_kept hnext h)
                fun hsettles _ hw => ((hw hget).nextAction hsettles hnext).1).polls
          · next action tss' files hnext =>
              refine Outcome.Ends.bind (perform_ends hshard hblock hget hnext) fun w₁ hw₁ => ?_
              exact (ih w₁).mono (fun _ h => hw₁.polls h) fun _ h => h

/-- A piece of code that ends with a poll: what was done before it counts. -/
theorem Takes.pollActions {msgs : BlockNumber → List (ShardId × PeerId × C.Message)}
    {reqs : BlockNumber → List (ShardId × TaskId × List UInt8)} {E : Worker C → Prop}
    (h : Takes f shards msgs reqs w w') (hshard : shardId ∈ shards) (hblock : block ≤ f.block) :
    (Worker.pollActions f shardId block w').Ends (Takes f shards msgs reqs w) E :=
  (pollRounds_ends hshard hblock _ w').mono (fun _ hpoll => h.polls hpoll) fun _ h => h.elim

/-! ### Shards are joined and told their commitment -/

theorem insertTss_ends (hshard : shardId ∈ shards) (w : Worker C) (members : List PeerId)
    (threshold : Nat) {commitment : Option C.Vss}
    (hcommitment : f.getShardCommitment .join shardId ≠ some none → commitment ≠ none) :
    (Worker.insertTss f w shardId members threshold commitment).Ends
      (fun w' => Polls f shards w w' ∧ w'.tssStates.get shardId ≠ none) (· = w) := by
  unfold Worker.insertTss
  split
  · rfl
  · trivial
  · next tss files hnew =>
      have hset : Polls f shards w { w.setTss shardId tss with files := files } := by
        refine (Works.setTss hshard (fun h => Tss.new_kept hnew h) fun hsettles hjoin _ => ?_).polls
        obtain ⟨vss, rfl⟩ := Option.ne_none_iff_exists'.mp (hcommitment hjoin)
        exact .new hsettles hnew
      have hjoin := hset.trans (Takes.record _ (e := .joined shardId) hshard rfl)
      refine ((hjoin.pollActions hshard (Nat.le_refl _)).and
        (pollRounds_ends hshard (Nat.le_refl _) _ _)).mono (fun w' hw' => ⟨hw'.1, ?_⟩) fun _ h => h.1
      obtain ⟨es, hworks, -⟩ := hw'.2
      exact hworks.known shardId (StorageMap.get_insert_ne_none.mpr (Or.inl rfl))

theorem joinShard_ends (hshard : shardId ∈ shards) (w : Worker C) :
    (Worker.joinShard f w shardId).Ends
      (fun w' => Polls f shards w w' ∧ w'.tssStates.get shardId ≠ none) (· = w) := by
  unfold Worker.joinShard
  split
  · next hknown => exact ⟨.refl w, StorageMap.containsKey_iff.mp hknown⟩
  · split
    · rfl
    · split
      · rfl
      · split
        · rfl
        · next hnone => exact insertTss_ends hshard _ _ _ fun h => absurd hnone h
        · split
          · rfl
          · exact insertTss_ends hshard _ _ _ fun _ => Option.some_ne_none _

theorem commitShard_ends (hshard : shardId ∈ shards) (w : Worker C) :
    (Worker.commitShard f w shardId).Ends (Polls f shards w) (· = w) := by
  unfold Worker.commitShard
  split
  · exact .refl w
  · next tss hget =>
      split
      · exact .refl w
      · next hcommitted =>
          split
          · rfl
          · split
            · exact .refl w
            · split
              · rfl
              · trivial
              · split
                · rfl
                · next commitment _ =>
                    -- a shard that has found its key is committed
                    have hset : Polls f shards w (w.setTss shardId (tss.onCommit commitment)) :=
                      (Works.setTss hshard (fun h => h) fun hsettles _ hw =>
                        absurd ((hw hget).committed hsettles) hcommitted).polls
                    exact (hset.trans (Takes.record _ (e := .committed shardId commitment) hshard
                      rfl)).pollActions hshard (Nat.le_refl _)

theorem runTasks_ends (hshard : shardId ∈ shards) (w : Worker C) :
    (Worker.runTasks f w shardId).Ends (Polls f shards w) (· = w) := by
  unfold Worker.runTasks
  split
  · rfl
  · split
    · exact .refl w
    · dsimp only
      generalize TaskExecutor.processTasks _ _ = answer
      obtain ⟨result, executor⟩ := answer
      have hstore : Polls f shards w
          { w with executorStates := w.executorStates.insert shardId executor } :=
        (Works.setExecutors w _).polls
      cases result with
      | error error => exact hstore
      | ok sessions =>
          obtain ⟨started, completed, failed⟩ := sessions
          dsimp only
          split
          · exact hstore
          · next tss hget =>
              refine hstore.trans (Polls.trans (Works.setTss hshard (fun h => h)
                fun {settled} hsettles _ hw => ?_).polls (Polls.record _ ?_ ?_ ?_))
              · have hcompleted := List.foldlRecOn completed
                  (fun tss session => tss.onComplete session) (motive := Tss.Recovered settled)
                  (hw hget) fun _ ht id _ => ht.onComplete hsettles id
                exact List.foldlRecOn started (fun tss session => tss.onStart session)
                  (motive := Tss.Recovered settled) hcompleted
                  fun _ ht id _ => ht.onStart hsettles id
              all_goals
                intro e he
                rcases List.mem_append.mp he with he | he <;>
                  obtain ⟨session, -, rfl⟩ := List.mem_map.mp he
              · exact hshard
              · exact hshard
              · rfl
              · rfl
              · exact fun _ => ⟨rfl, rfl⟩
              · exact fun _ => ⟨rfl, rfl⟩

/-- A loop over the shards. -/
theorem each_ends {body : Worker C → ShardId → Outcome (Worker C)}
    (hbody : ∀ s ∈ shards, ∀ w, (body w s).Ends (Polls f shards w) (· = w)) (w : Worker C) :
    (Outcome.each body shards w).Ends (Polls f shards w) (Polls f shards w) := by
  refine Outcome.Ends.each (I := fun _ w' => Polls f shards w w') (fun _ s hs w₁ hw₁ => ?_) (.refl w)
  exact (hbody s hs w₁).mono (fun _ h => hw₁.trans h) fun _ h => h ▸ hw₁

/-! ### The queues are drained -/

variable {n : BlockNumber}

theorem handleRequest_ends (hn : n ≤ f.block) (hlisted : Listed shards w)
    (request : ShardId × TaskId × List UInt8) :
    (Worker.handleRequest f n w request).Ends
      (Takes f shards (fun _ => []) (inQueue n [request]) w) fun _ => False := by
  obtain ⟨shardId, taskId, data⟩ := request
  unfold Worker.handleRequest
  dsimp only
  split
  · next hget =>
      have hunlisted : shardId ∉ shards := fun hmem => (hlisted shardId).mpr hmem hget
      have hclosed : Polls f shards w (w.takeChannel taskId (.hungUp taskId)) :=
        .takeChannel w (fun _ => rfl) (fun _ => trivial) fun _ _ => ⟨rfl, rfl⟩
      exact hclosed.trans (Takes.record _ (e := .refused f.block n shardId taskId data)
        ⟨rfl, hn, hunlisted⟩ rfl)
  · next tss hget =>
      have hshard : shardId ∈ shards := (hlisted shardId).mp (by simp [hget])
      have hset : Polls f shards w (w.setTss shardId (tss.onSign taskId data)) :=
        (Works.setTss hshard (fun h => h)
          fun hsettles _ hw => (hw hget).onSign hsettles taskId data).polls
      exact (hset.trans (Takes.record _ (e := .signing f.block n shardId taskId data)
        ⟨rfl, hn, hshard⟩ rfl)).pollActions hshard (Nat.le_refl _)

theorem handleMessage_ends (hn : n ≤ f.block) (hlisted : Listed shards w)
    (message : ShardId × PeerId × C.Message) :
    (Worker.handleMessage f n w message).Ends
      (Takes f shards (inQueue n [message]) (fun _ => []) w) (· = w) := by
  obtain ⟨shardId, peerId, msg⟩ := message
  unfold Worker.handleMessage
  dsimp only
  split
  · next hget =>
      have hunlisted : shardId ∉ shards := fun hmem => (hlisted shardId).mpr hmem hget
      exact Takes.record w (e := .dropped f.block n shardId peerId msg) ⟨rfl, hn, hunlisted⟩ rfl
  · next tss hget =>
      split
      · rfl
      · next tss' hmessage =>
          have hshard : shardId ∈ shards := (hlisted shardId).mp (by simp [hget])
          have hset : Polls f shards w (w.setTss shardId tss') :=
            (Works.setTss hshard (fun h => h)
              fun hsettles _ hw => (hw hget).onMessage hsettles hmessage).polls
          exact (hset.trans (Takes.record _ (e := .handled f.block n shardId peerId msg)
            ⟨rfl, hn, hshard⟩ rfl)).pollActions hshard hn

/-- All messages of the bucket are accounted for, also if one fails. -/
theorem handleMessages_ends (hn : n ≤ f.block) (hlisted : Listed shards w)
    (msgs : List (ShardId × PeerId × C.Message)) :
    (Worker.handleMessages f n msgs w).Ends
      (Takes f shards (inQueue n msgs) (fun _ => []) w)
      (Takes f shards (inQueue n msgs) (fun _ => []) w) := by
  induction msgs generalizing w with
  | nil => exact (Polls.refl w).trans ⟨[], .setExecutors w _, fun k => (inQueue_nil n k).symm,
      fun _ => rfl⟩
  | cons message rest ih =>
      have hmessage := handleMessage_ends hn hlisted message
      unfold Worker.handleMessages
      split
      · next w₁ heq =>
          rw [heq] at hmessage
          have hfirst : Takes f shards (inQueue n [message]) (fun _ => []) w w₁ := hmessage
          exact (ih (hfirst.listed hlisted)).mono
            (fun _ h => hfirst.trans h (fun k => inQueue_append n [message] rest k) fun _ => rfl)
            fun _ h => hfirst.trans h (fun k => inQueue_append n [message] rest k) fun _ => rfl
      · next w₁ heq =>
          rw [heq] at hmessage
          have hsame : w₁ = w := hmessage
          rw [hsame]
          exact Takes.record w (e := .lost f.block n (message :: rest)) ⟨rfl, hn⟩ rfl
      · trivial

/-- The entries account for what has left the queues. -/
structure Accounts (f : Finality C) (shards : List ShardId) (es : List (Entry C))
    (w w' : Worker C) : Prop extends Logs f shards es w w' where
  messages : ∀ k, es.flatMap (Entry.message k) ++ w'.messages.pending k = w.messages.pending k
  requests : ∀ k, es.flatMap (Entry.request k) ++ w'.requests.pending k = w.requests.pending k

/-- A piece of `on_finality` between two of its stages. -/
def Goes (f : Finality C) (shards : List ShardId) (w w' : Worker C) : Prop :=
  ∃ es, Accounts f shards es w w'

theorem Goes.trans (h : Goes f shards w w') (h' : Goes f shards w' w'') : Goes f shards w w'' := by
  obtain ⟨es, haccounts⟩ := h
  obtain ⟨es', haccounts'⟩ := h'
  refine ⟨es ++ es', haccounts.toLogs.trans haccounts'.toLogs, fun k => ?_, fun k => ?_⟩
  · rw [List.flatMap_append, List.append_assoc, haccounts'.messages, haccounts.messages]
  · rw [List.flatMap_append, List.append_assoc, haccounts'.requests, haccounts.requests]

/-- What was taken out of the queues is handled. -/
theorem Takes.goes {msgs : BlockNumber → List (ShardId × PeerId × C.Message)}
    {reqs : BlockNumber → List (ShardId × TaskId × List UInt8)}
    {messages : Buckets (ShardId × PeerId × C.Message)}
    {requests : Buckets (ShardId × TaskId × List UInt8)}
    (h : Takes f shards msgs reqs { w with messages := messages, requests := requests } w')
    (hmsgs : ∀ k, w.messages.pending k = msgs k ++ messages.pending k)
    (hreqs : ∀ k, w.requests.pending k = reqs k ++ requests.pending k) : Goes f shards w w' := by
  obtain ⟨es, hworks, hes⟩ := h
  refine ⟨es, ⟨hworks.log, hworks.fine, hworks.channels, hworks.senders, hworks.files,
    fun h => hworks.silent h⟩, fun k => ?_, fun k => ?_⟩
  · rw [hes.1, hworks.messages, hmsgs]
  · rw [hes.2, hworks.requests, hreqs]

theorem Polls.goes (h : Polls f shards w w') : Goes f shards w w' :=
  Takes.goes (w := w) h (fun _ => rfl) fun _ => rfl

theorem Goes.refl (w : Worker C) : Goes f shards w w := (Polls.refl w).goes

/-- The requests that are due are signed. -/
structure Signed (f : Finality C) (shards : List ShardId) (w w' : Worker C) : Prop where
  goes : Goes f shards w w'
  listed : Listed shards w'
  requests : ∀ k ≤ f.block, w'.requests.pending k = []

theorem Signed.polls (h : Signed f shards w w') (h' : Polls f shards w' w'') :
    Signed f shards w w'' := by
  refine ⟨h.goes.trans h'.goes, h'.listed h.listed, fun k hk => ?_⟩
  obtain ⟨es, hworks, -⟩ := h'
  rw [hworks.requests]
  exact h.requests k hk

theorem drainRequests_ends (hlisted : Listed shards w) :
    (Worker.drainRequests f w).Ends (Signed f shards w) (Goes f shards w) := by
  refine (Buckets.drain_ends (Q := fun w' => Goes f shards w w' ∧ Listed shards w')
    (E := fun _ => False) ?_ ⟨.refl w, hlisted⟩).mono (fun _ h => ⟨h.1.1, h.1.2, h.2⟩)
    fun _ h => h.elim
  intro s n bucket rest hs hpop
  have hn := (Buckets.popDue_some hpop).1
  have hloop : (Outcome.each (Worker.handleRequest f n) bucket { s with requests := rest }).Ends
      (Takes f shards (fun _ => []) (inQueue n bucket) { s with requests := rest })
      fun _ => False := by
    refine Outcome.Ends.each (I := fun done w' => Takes f shards (fun _ => [])
      (inQueue n done) { s with requests := rest } w') (fun done request _ w₁ hw₁ => ?_) ?_
    · refine (handleRequest_ends hn (hw₁.listed hs.2) request).mono (fun w₂ hw₂ => ?_) fun _ h => h
      exact hw₁.trans hw₂ (fun _ => rfl) fun k => inQueue_append n done [request] k
    · exact ⟨[], .setExecutors _ _, fun _ => rfl, fun k => (inQueue_nil n k).symm⟩
  refine hloop.mono (fun w' hw' => ⟨⟨hs.1.trans ?_, hw'.listed hs.2⟩, ?_⟩) fun _ h => h
  · exact Takes.goes (w := s) hw' (fun _ => rfl) (Buckets.pending_popDue hpop)
  · obtain ⟨es, hworks, -⟩ := hw'
    exact hworks.requests

theorem drainMessages_ends (hlisted : Listed shards w) :
    (Worker.drainMessages f w).Ends
      (fun w' => (Goes f shards w w' ∧ Listed shards w' ∧ w'.requests = w.requests) ∧
        ∀ k ≤ f.block, w'.messages.pending k = []) (Goes f shards w) := by
  refine Buckets.drain_ends (Q := fun w' => Goes f shards w w' ∧ Listed shards w' ∧
    w'.requests = w.requests) ?_ ⟨.refl w, hlisted, rfl⟩
  intro s n bucket rest hs hpop
  have hgoes : ∀ {w'}, Takes f shards (inQueue n bucket) (fun _ => [])
      { s with messages := rest } w' → Goes f shards w w' := fun hw' =>
    hs.1.trans (Takes.goes (w := s) hw' (Buckets.pending_popDue hpop) fun _ => rfl)
  refine (handleMessages_ends (Buckets.popDue_some hpop).1 (w := { s with messages := rest }) hs.2.1
    bucket).mono (fun w' hw' => ⟨⟨hgoes hw', hw'.listed hs.2.1, ?_⟩, ?_⟩) fun w' hw' => hgoes hw'
  · obtain ⟨es, hworks, -⟩ := hw'
    exact hworks.requests.trans hs.2.2
  · obtain ⟨es, hworks, -⟩ := hw'
    exact hworks.messages

/-! ### The whole call -/

theorem retain_known (w : Worker C) (shards : List ShardId) (s : ShardId) :
    (w.retain shards).tssStates.get s = if s ∈ shards then w.tssStates.get s else none := by
  unfold Worker.retain
  dsimp only
  rw [StorageMap.get_removeAll]
  simp only [List.mem_filter, StorageMap.mem_map_iter]
  by_cases hs : s ∈ shards
  · simp [hs]
  · simp [hs]

theorem retain_goes (w : Worker C) (shards : List ShardId) :
    Goes f shards w (w.retain shards) := by
  refine ⟨[], ⟨(List.append_nil _).symm, fun _ h => (List.not_mem_nil h).elim, .nil _, rfl,
    fun _ h => h, fun _ _ hw => ⟨fun hget => ?_, List.not_mem_nil⟩⟩, fun _ => rfl, fun _ => rfl⟩
  rw [retain_known] at hget
  split at hget
  · exact hw hget
  · cases hget

/-- The loop that joins shards. -/
theorem joinShards_ends (shards : List ShardId) (w : Worker C) :
    (Outcome.each (Worker.joinShard f) shards (w.retain shards)).Ends
      (fun w' => Goes f shards w w' ∧ Listed shards w') (Goes f shards w) := by
  have hloop : (Outcome.each (Worker.joinShard f) shards (w.retain shards)).Ends
      (fun w' => Polls f shards (w.retain shards) w' ∧ ∀ s ∈ shards, w'.tssStates.get s ≠ none)
      (Polls f shards (w.retain shards)) := by
    refine Outcome.Ends.each (I := fun done w' => Polls f shards (w.retain shards) w' ∧
      ∀ s ∈ done, w'.tssStates.get s ≠ none) (fun done shardId hshard w₁ hw₁ => ?_) ?_
    · refine (joinShard_ends hshard w₁).mono (fun w₂ hw₂ => ⟨hw₁.1.trans hw₂.1, fun s hs => ?_⟩)
        fun w₂ hw₂ => hw₂ ▸ hw₁.1
      rcases List.mem_append.mp hs with hs | hs
      · obtain ⟨es, hworks, -⟩ := hw₂.1
        exact hworks.known s (hw₁.2 s hs)
      · exact List.mem_singleton.mp hs ▸ hw₂.2
    · exact ⟨.refl _, fun s hs => (List.not_mem_nil hs).elim⟩
  refine hloop.mono (fun w' hw' => ⟨(retain_goes w shards).trans hw'.1.goes, fun s => ?_⟩)
    fun w' hw' => (retain_goes w shards).trans hw'.goes
  refine ⟨fun hs => ?_, hw'.2 s⟩
  obtain ⟨es, hworks, -⟩ := hw'.1
  refine (hworks.joins s hs).elim id fun hretained => ?_
  by_contra hunlisted
  rw [retain_known, if_neg hunlisted] at hretained
  exact hretained rfl

/-- What a call has done when it returns: nothing is left that is due, and
the worker knows the shards of the chain. -/
structure Done (f : Finality C) (shards : List ShardId) (w w' : Worker C) : Prop
    extends Signed f shards w w' where
  messages : ∀ k ≤ f.block, w'.messages.pending k = []

theorem afterJoining_ends (hlisted : Listed shards w) :
    (Worker.afterJoining f shards w).Ends (Done f shards w) (Goes f shards w) := by
  unfold Worker.afterJoining
  have hsigned : ((Outcome.each (Worker.commitShard f) shards w).bind (Worker.drainRequests f)).Ends
      (Signed f shards w) (Goes f shards w) := by
    refine Outcome.Ends.bind ((each_ends (fun _ hs => commitShard_ends hs) w).mono
      (fun _ h => h) fun _ h => h.goes) fun w₁ hw₁ => ?_
    exact (drainRequests_ends (hw₁.listed hlisted)).mono
      (fun _ h => ⟨hw₁.goes.trans h.goes, h.listed, h.requests⟩) fun _ h => hw₁.goes.trans h
  have htasks : (((Outcome.each (Worker.commitShard f) shards w).bind (Worker.drainRequests f)).bind
      (Outcome.each (Worker.runTasks f) shards)).Ends (Signed f shards w) (Goes f shards w) :=
    hsigned.bind fun w₂ hw₂ => (each_ends (fun _ hs => runTasks_ends hs) w₂).mono
      (fun _ h => hw₂.polls h) fun _ h => hw₂.goes.trans h.goes
  refine htasks.bind fun w₃ hw₃ => ?_
  refine (drainMessages_ends hw₃.listed).mono (fun w₄ hw₄ => ?_) fun _ h => hw₃.goes.trans h
  obtain ⟨⟨hgoes, hlisted', hrequests⟩, hmessages⟩ := hw₄
  exact ⟨⟨hw₃.goes.trans hgoes, hlisted', fun k hk => hrequests ▸ hw₃.requests k hk⟩, hmessages⟩

theorem onFinality_ends (hshards : f.getShards = some shards) (w : Worker C) :
    (w.onFinality f).Ends (Done f shards w) (Goes f shards w) := by
  unfold Worker.onFinality
  rw [hshards]
  refine (joinShards_ends shards w).bind fun w₁ hw₁ => ?_
  exact (afterJoining_ends hw₁.2).mono
    (fun _ h => ⟨⟨hw₁.1.trans h.goes, h.listed, h.requests⟩, h.messages⟩) fun _ h => hw₁.1.trans h

theorem onFinality_goes (h : (w.onFinality f).state? = some w') :
    Goes f (f.getShards.getD []) w w' := by
  cases hshards : f.getShards with
  | none =>
      unfold Worker.onFinality at h
      rw [hshards] at h
      cases h
      exact .refl w
  | some shards =>
      exact ((onFinality_ends hshards w).mono (fun _ h => h.goes) fun _ h => h).state h

/-- **A call that returns leaves nothing behind.** Whatever the state of the
worker, after an `on_finality` that returned `Ok` no request and no message
for this block or one before is waiting, and the worker has exactly the
shards the chain lists. -/
theorem finality_drains (h : w.onFinality f = .ok w') :
    ∃ shards, f.getShards = some shards ∧ (∀ s, w'.tssStates.get s ≠ none ↔ s ∈ shards) ∧
      (∀ k ≤ f.block, w'.requests.pending k = []) ∧ ∀ k ≤ f.block, w'.messages.pending k = [] := by
  cases hshards : f.getShards with
  | none =>
      unfold Worker.onFinality at h
      rw [hshards] at h
      cases h
  | some shards =>
      have hends := onFinality_ends hshards w
      rw [h] at hends
      exact ⟨shards, rfl, hends.listed, hends.requests, hends.messages⟩

/-- A request and a message for block 1 wait. -/
theorem finality_drains_example :
    let w := Run.endState Worker.step (.new examplePeer 0 ∅) (exampleInputs.take 3)
    (w.requests.pending 1).length = 1 ∧ (w.messages.pending 1).length = 1 ∧
      ∃ w', w.onFinality (exampleFinality 1 .created none) = .ok w' ∧
        ∃ shards, (exampleFinality 1 .created none).getShards = some shards ∧
          (∀ s, w'.tssStates.get s ≠ none ↔ s ∈ shards) ∧
          (∀ k ≤ 1, w'.requests.pending k = []) ∧ ∀ k ≤ 1, w'.messages.pending k = [] := by
  intro w
  obtain ⟨w', hok⟩ : ∃ w', w.onFinality (exampleFinality 1 .created none) = .ok w' :=
    Outcome.exists_of_isOk (by decide +kernel)
  exact ⟨by decide +kernel, by decide +kernel, w', hok, finality_drains hok⟩

end Chronicle

end Timechain
