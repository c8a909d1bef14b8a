import Timechain.TssTable

/-!
# A shard of honest members

The sessions of different ids have nothing to do with each other: what
happens in a shard is, for each id, what happens in its `Table`. So in
every run in which members sign the same data under an id, and have begun
to when a message of that id reaches them, the tables are as they should
be (`Net.Inv`), and a shard that has come to rest has signed everything
(`roast_completes`).
-/

namespace Timechain

namespace Signing

variable {F : Frost}

namespace Net

/-- The sessions with an id. -/
def table (s : Net F) (id : Nat) : Table F where
  sess m := s.session id m
  flight := s.flight.filterMap fun w => w.msg.letter w.src w.dst id
  outputs := s.outputs.filterMap fun o => if o.2.1 = id then some (o.1, o.2.2) else none

/-- Members sign `data id` under the ids in `ids`, and a message reaches a
member when it has begun to sign under its id. -/
def Honest (shard : Shard F) (ids : Finset Nat) (data : Nat → List UInt8) (s : Net F) :
    NetInput F → Prop
  | .onSign m id data' => m ∈ shard.members ∧ id ∈ ids ∧ data' = data id
  | .poll m _ => m ∈ shard.members
  | .deliver k => ∀ w id msg, s.flight[k]? = some w → w.msg = .roast id msg →
      (s.session id w.dst).signer.data ≠ none
  | .onStart _ _ => False
  | .onComplete _ _ => False

structure Inv (shard : Shard F) (data : Nat → List UInt8) (s : Net F) : Prop where
  tss : ∀ m, s.tss m = { shard.tss m with signingSessions := (s.tss m).signingSessions }
  signing : ∀ m id r, (s.tss m).signingSessions.get id = some r → r.signer.data ≠ none
  flight : ∀ w ∈ s.flight, w.src ≠ w.dst
  tables : ∀ id, (s.table id).Inv shard (data id)

/-! ## Polls -/

end Net

/-- What a poll of `m` sends. -/
def Poll.wires (m : Identifier) : Poll F → List (Wire F)
  | .act (.send msgs) => msgs.map fun e => ⟨m, e.1, e.2⟩
  | _ => []

/-- What a poll of `m` outputs. -/
def Poll.outputs (m : Identifier) : Poll F → List (Output F)
  | .act (.signature id hash signature) => [(m, id, hash, signature)]
  | _ => []

theorem Poll.letters_eq (m : Identifier) (id : Nat) (poll : Poll F) :
    poll.letters m id = (poll.wires m).filterMap fun w => w.msg.letter w.src w.dst id := by
  cases poll with
  | idle => rfl
  | panic => rfl
  | act action =>
      cases action with
      | send msgs =>
          rw [letters, wires, List.filterMap_map]
          rfl
      | signature => rfl

theorem Poll.signatures_eq (m : Identifier) (id : Nat) (poll : Poll F) :
    poll.signatures m id
      = (poll.outputs m).filterMap fun o => if o.2.1 = id then some (o.1, o.2.2) else none := by
  cases poll with
  | idle => rfl
  | panic => rfl
  | act action =>
      cases action with
      | send => rfl
      | signature id' hash signature =>
          by_cases hid : id' = id
          · simp [signatures, outputs, hid]
          · simp [signatures, outputs, hid]

namespace Net

/-- The member is left as `t`, and what the poll sends or outputs is added. -/
def emit (s : Net F) (m : Identifier) (poll : Poll F) (t : Tss F) : Net F where
  tss := Function.update s.tss m t
  flight := s.flight ++ poll.wires m
  outputs := s.outputs ++ poll.outputs m

theorem step_poll {s s' : Net F} {m : Identifier} {supply : List F.SigningNonces}
    (h : s.step (.poll m supply) = some s') :
    ∃ poll t, (s.tss m).nextAction supply = some (poll, t) ∧ s' = s.emit m poll t := by
  dsimp only [step] at h
  split at h
  · cases h
  · cases h
  · next t hnext =>
    cases h
    refine ⟨_, t, hnext, ?_⟩
    simp only [emit, set, Poll.wires, Poll.outputs, List.append_nil]
  · next msgs t hnext =>
    cases h
    refine ⟨_, t, hnext, ?_⟩
    simp only [emit, set, Poll.wires, Poll.outputs, List.append_nil]
  · next id hash signature t hnext =>
    cases h
    refine ⟨_, t, hnext, ?_⟩
    simp only [emit, set, Poll.wires, Poll.outputs, List.append_nil]

theorem session_update (s : Net F) (m : Identifier) (t : Tss F) (id : Nat) :
    (fun m' => (Function.update s.tss m t m').session id)
      = Function.update (fun m' => (s.tss m').session id) m (t.session id) := by
  funext m'
  rw [Function.update_apply, Function.update_apply]
  split
  · rfl
  · rfl

theorem table_set (s : Net F) (m : Identifier) (t : Tss F) (id : Nat) :
    (s.set m t).table id = (s.table id).set m (t.session id) := by
  simp only [table, Table.set, set, session, session_update]

theorem table_set_self (s : Net F) (m : Identifier) (id : Nat) :
    (s.table id).set m ((s.tss m).session id) = s.table id :=
  (s.table id).set_self m

/-- A session with data is there. -/
theorem get_of_data {s : Net F} {m : Identifier} {id : Nat}
    (hdata : (s.session id m).signer.data ≠ none) :
    (s.tss m).signingSessions.get id = some (s.session id m) := by
  cases hget : (s.tss m).signingSessions.get id with
  | none =>
      refine absurd ?_ hdata
      rw [session, Tss.session, StorageMap.getD, hget]
      rfl
  | some r => rw [session, Tss.session_eq_of_get hget]

theorem table_emit (s : Net F) (m : Identifier) (poll : Poll F) (t : Tss F) (id : Nat) :
    (s.emit m poll t).table id = (s.table id).emit m id poll (t.session id) := by
  simp only [table, Table.emit, emit, session, session_update, List.filterMap_append,
    Poll.letters_eq, Poll.signatures_eq]

end Net

/-- A poll of one session has nothing for the others. -/
theorem Polls.foreign {x : Identifier} {id id' : Nat} {r r' : Roast F} {poll : Poll F}
    (h : Polls x id r poll r') (hne : id' ≠ id) :
    poll.letters x id' = [] ∧ poll.signatures x id' = [] := by
  induction h with
  | panic => exact ⟨rfl, rfl⟩
  | idle => exact ⟨rfl, rfl⟩
  | complete => exact ⟨rfl, if_neg (Ne.symm hne)⟩
  | send =>
      refine ⟨List.filterMap_eq_nil_iff.mpr fun e he => ?_, rfl⟩
      obtain ⟨p, -, rfl⟩ := List.mem_map.mp he
      exact if_neg (Ne.symm hne)
  | again _ _ _ _ ih => exact ih

/-- A poll does not send to the member itself. -/
theorem Polls.wires_ne {x : Identifier} {id : Nat} {r r' : Roast F} {poll : Poll F}
    (h : Polls x id r poll r') : ∀ w ∈ poll.wires x, w.src ≠ w.dst := by
  induction h with
  | panic => exact fun w hw => by cases hw
  | idle => exact fun w hw => by cases hw
  | complete => exact fun w hw => by cases hw
  | send =>
      intro w hw
      obtain ⟨e, he, rfl⟩ := List.mem_map.mp hw
      obtain ⟨p, hp, rfl⟩ := List.mem_map.mp he
      exact (bne_iff_ne.mp (List.mem_filter.mp hp).2).symm
  | again _ _ _ _ ih => exact ih

namespace Tss

theorem Visits.wires_ne {ids : List Nat} {t t' : Tss F} {poll : Poll F} {m : Identifier}
    (h : Visits ids t poll t') (hm : t.frostId = m) : ∀ w ∈ poll.wires m, w.src ≠ w.dst := by
  induction h with
  | done => exact fun w hw => by cases hw
  | missing => exact fun w hw => by cases hw
  | next _ _ _ ih => exact ih hm
  | stop _ hpolls _ => exact hm ▸ hpolls.wires_ne

/-- Only the sessions change. -/
theorem Visits.frame {ids : List Nat} {t t' : Tss F} {poll : Poll F} (h : Visits ids t poll t') :
    t' = { t with signingSessions := t'.signingSessions } := by
  induction h with
  | done => rfl
  | missing => rfl
  | next _ _ _ ih => exact ih
  | stop => rfl

/-- In a poll that finds nothing, each session is polled as it is. -/
theorem Visits.idle_polls {ids : List Nat} {t t' : Tss F} {poll : Poll F}
    (h : Visits ids t poll t') (hidle : poll = .idle) (hnodup : ids.Nodup) {id : Nat}
    (hid : id ∈ ids) {r : Roast F} (hr : t.signingSessions.get id = some r) :
    ∃ r', Polls t.frostId id r .idle r' := by
  induction h with
  | done => cases hid
  | missing => cases hidle
  | @next t t' id' ids r₁ r₁' poll hget hpolls _ ih =>
      obtain ⟨hnew, hnodup⟩ := List.nodup_cons.mp hnodup
      rcases List.mem_cons.mp hid with rfl | hmem
      · obtain rfl := Option.some.inj (hr.symm.trans hget)
        exact ⟨_, hpolls⟩
      · refine ih hidle hnodup hmem ?_
        have hne : id ≠ id' := by
          rintro rfl
          exact hnew hmem
        rw [setSession_get, if_neg hne]
        exact hr
  | stop _ _ hne => exact absurd hidle hne

end Tss

/-! ## What a run keeps -/

namespace Net

variable {shard : Shard F} {data : Nat → List UInt8} {s s' : Net F}

/-- Member `m` in the middle of a poll of its sessions. -/
structure Polled (shard : Shard F) (data : Nat → List UInt8) (s : Net F) (m : Identifier)
    (t : Tss F) : Prop where
  frostId : t.frostId = m
  signing : ∀ id r, t.signingSessions.get id = some r → r.signer.data ≠ none
  tables : ∀ id, ((s.table id).set m (t.session id)).Inv shard (data id)

theorem Polled.sess {m : Identifier} {t : Tss F} {id : Nat} {r : Roast F}
    (hget : t.signingSessions.get id = some r) :
    ((s.table id).set m (t.session id)).sess m = r := by
  rw [Table.set_sess, if_pos rfl, Tss.session_eq_of_get hget]

/-- Session `id` is polled. The other tables do not notice. -/
theorem Polled.polls {m : Identifier} {t : Tss F} (h : Polled shard data s m t)
    (hsigns : shard.SignsOwn) (hagg : shard.AggregatesMatching) (hm : m ∈ shard.members) {id : Nat}
    {r r' : Roast F} {poll : Poll F} (hget : t.signingSessions.get id = some r)
    (hpolls : Polls t.frostId id r poll r') :
    poll ≠ .panic ∧
      (∀ id' r₁, (t.setSession id r').signingSessions.get id' = some r₁ → r₁.signer.data ≠ none) ∧
      ∀ id', ((s.table id').emit m id' poll ((t.setSession id r').session id')).Inv shard
        (data id') := by
  have hdata := h.signing id r hget
  rw [h.frostId] at hpolls
  obtain ⟨hpanic, hinv, -⟩ := (h.tables id).polls hsigns hagg hm hpolls (Polled.sess hget) hdata
  refine ⟨hpanic, fun id' r₁ hr₁ => ?_, fun id' => ?_⟩
  · rw [Tss.setSession_get] at hr₁
    split at hr₁
    · cases hr₁
      rw [(hpolls.lasts hpanic).data]
      exact hdata
    · exact h.signing id' r₁ hr₁
  · rw [Tss.session_setSession]
    split
    · next hid =>
      rw [Table.emit_set] at hinv
      exact hid ▸ hinv
    · next hid =>
      obtain ⟨hletters, hsignatures⟩ := hpolls.foreign hid
      have heq : (s.table id').emit m id' poll (t.session id')
          = (s.table id').set m (t.session id') := by
        simp only [Table.emit, Table.set, hletters, hsignatures, List.append_nil]
      rw [heq]
      exact h.tables id'

/-- The poll goes on with the next session. -/
theorem Polled.next {m : Identifier} {t : Tss F} (h : Polled shard data s m t)
    (hsigns : shard.SignsOwn) (hagg : shard.AggregatesMatching) (hm : m ∈ shard.members) {id : Nat}
    {r r' : Roast F} (hget : t.signingSessions.get id = some r)
    (hpolls : Polls t.frostId id r .idle r') : Polled shard data s m (t.setSession id r') := by
  obtain ⟨-, hsigning, htables⟩ := h.polls hsigns hagg hm hget hpolls
  refine ⟨h.frostId, hsigning, fun id' => ?_⟩
  have hinv := htables id'
  rwa [Table.emit_idle] at hinv

theorem setSession_get_ne_none {t : Tss F} {id id' : Nat} {r : Roast F}
    (h : t.signingSessions.get id' ≠ none) :
    (t.setSession id r).signingSessions.get id' ≠ none := by
  rw [Tss.setSession_get]
  split
  · exact Option.some_ne_none _
  · exact h

/-- All sessions are polled. -/
theorem Polled.visits {m : Identifier} {ids : List Nat} {t t' : Tss F} {poll : Poll F}
    (hvisits : Tss.Visits ids t poll t') (h : Polled shard data s m t) (hsigns : shard.SignsOwn)
    (hagg : shard.AggregatesMatching) (hm : m ∈ shard.members)
    (hids : ∀ id ∈ ids, t.signingSessions.get id ≠ none) :
    poll ≠ .panic ∧
      (∀ id r, t'.signingSessions.get id = some r → r.signer.data ≠ none) ∧
      ∀ id, ((s.table id).emit m id poll (t'.session id)).Inv shard (data id) := by
  induction hvisits with
  | done t =>
      refine ⟨by simp, h.signing, fun id => ?_⟩
      rw [Table.emit_idle]
      exact h.tables id
  | missing hget => exact absurd hget (hids _ List.mem_cons_self)
  | next hget hpolls _ ih =>
      refine ih (h.next hsigns hagg hm hget hpolls) fun id' hid' => ?_
      exact setSession_get_ne_none (hids id' (List.mem_cons_of_mem _ hid'))
  | stop hget hpolls _ => exact h.polls hsigns hagg hm hget hpolls

/-- Nonces that suffice for a poll of the sessions `ids`. -/
def pollWork (shard : Shard F) (t : Tss F) (ids : List Nat) : Nat :=
  (ids.map fun id => (t.session id).work shard.members.length + 1).sum

theorem pollWork_setSession {t : Tss F} {id : Nat} {ids : List Nat} (hid : id ∉ ids)
    (r : Roast F) : pollWork shard (t.setSession id r) ids = pollWork shard t ids := by
  refine congrArg List.sum (List.map_congr_left fun id' hid' => ?_)
  have hne : id' ≠ id := fun heq => hid (heq ▸ hid')
  rw [Tss.session_setSession, if_neg hne]

/-- A poll ends. -/
theorem Polled.pollSessions_isSome {m : Identifier} {ids : List Nat} {t : Tss F}
    (h : Polled shard data s m t) (hsigns : shard.SignsOwn) (hagg : shard.AggregatesMatching)
    (hm : m ∈ shard.members) (hids : ∀ id ∈ ids, t.signingSessions.get id ≠ none)
    (hnodup : ids.Nodup) {supply : List F.SigningNonces}
    (hsupply : pollWork shard t ids ≤ supply.length) :
    ∃ poll t', Tss.pollSessions ids supply t = some (poll, t') := by
  induction ids generalizing t supply with
  | nil => exact ⟨_, _, rfl⟩
  | cons id ids ih =>
      obtain ⟨hnew, hnodup⟩ := List.nodup_cons.mp hnodup
      obtain ⟨r, hget⟩ := Option.ne_none_iff_exists'.mp (hids id List.mem_cons_self)
      have hsess : ((s.table id).set m (t.session id)).sess m = r := Polled.sess hget
      have hwork : (t.session id).work shard.members.length + 1 + pollWork shard t ids
          ≤ supply.length := by
        rw [pollWork, List.map_cons, List.sum_cons] at hsupply
        exact hsupply
      rw [Tss.session_eq_of_get hget] at hwork
      obtain ⟨poll, r', supply', heq, hle⟩ := (h.tables id).pollSession_isSome hsigns hagg hm id
        (by rw [hsess]; exact h.signing id r hget) supply (by rw [hsess]; omega)
      rw [hsess] at heq hle
      rw [← h.frostId] at heq
      simp only [Tss.pollSessions, hget, heq]
      cases poll with
      | idle =>
          refine ih (h.next hsigns hagg hm hget (pollSession_polls heq)) (fun id' hid' => ?_)
            hnodup ?_
          · exact setSession_get_ne_none (hids id' (List.mem_cons_of_mem _ hid'))
          · rw [pollWork_setSession hnew]
            omega
      | act action => exact ⟨_, _, rfl⟩
      | panic => exact ⟨_, _, rfl⟩

theorem inv_start (shard : Shard F) (data : Nat → List UInt8) : (start shard).Inv shard data where
  tss _ := rfl
  signing _ _ _ hr := by cases hr
  flight _ hw := by cases hw
  tables id := Table.inv_start shard (data id)

theorem Inv.frostId (h : s.Inv shard data) (m : Identifier) : (s.tss m).frostId = m := by
  rw [h.tss m]
  rfl

/-- A member whose sessions change. -/
theorem Inv.tss_update (h : s.Inv shard data) {m : Identifier} {t : Tss F}
    (ht : t = { s.tss m with signingSessions := t.signingSessions }) (m' : Identifier) :
    Function.update s.tss m t m' = { shard.tss m' with
      signingSessions := (Function.update s.tss m t m').signingSessions } := by
  rw [Function.update_apply]
  split
  · next hm =>
    rw [ht, h.tss m, hm]
  · exact h.tss m'

theorem Inv.onSign (h : s.Inv shard data) (m : Identifier) (id : Nat) :
    (s.set m ((s.tss m).onSign id (data id))).Inv shard data where
  tss := h.tss_update rfl
  signing m' id' r hr := by
    rw [set_tss] at hr
    split at hr
    · rw [Tss.onSign, Tss.setSession_get] at hr
      split at hr
      · cases hr
        exact Option.some_ne_none _
      · exact h.signing m id' r hr
    · exact h.signing m' id' r hr
  flight := h.flight
  tables id' := by
    rw [table_set, Tss.onSign, Tss.session_setSession]
    split
    · next hid =>
      rw [hid]
      exact (h.tables id).setData m
    · rw [table_set_self]
      exact h.tables id'

theorem Inv.polled (h : s.Inv shard data) (m : Identifier) :
    Polled shard data s m (s.tss m) where
  frostId := h.frostId m
  signing := h.signing m
  tables id := by
    rw [table_set_self]
    exact h.tables id

theorem Inv.nextAction (h : s.Inv shard data) (hsigns : shard.SignsOwn)
    (hagg : shard.AggregatesMatching) {m : Identifier} (hm : m ∈ shard.members)
    {supply : List F.SigningNonces} {poll : Poll F} {t : Tss F}
    (hnext : (s.tss m).nextAction supply = some (poll, t)) :
    poll ≠ .panic ∧ (s.emit m poll t).Inv shard data := by
  have hvisits := Tss.pollSessions_visits hnext
  obtain ⟨hpanic, hsigning, htables⟩ := Polled.visits hvisits (h.polled m) hsigns hagg hm
    fun _ => StorageMap.mem_map_iter.mp
  refine ⟨hpanic, h.tss_update hvisits.frame, fun m' id r hr => ?_, fun w hw => ?_, fun id => ?_⟩
  · dsimp only [emit] at hr
    rw [Function.update_apply] at hr
    split at hr
    · exact hsigning id r hr
    · exact h.signing m' id r hr
  · rcases List.mem_append.mp hw with hw | hw
    · exact h.flight w hw
    · exact hvisits.wires_ne (h.frostId m) w hw
  · rw [table_emit]
    exact htables id

theorem Inv.nextAction_isSome (h : s.Inv shard data) (hsigns : shard.SignsOwn)
    (hagg : shard.AggregatesMatching) {m : Identifier} (hm : m ∈ shard.members) :
    ∃ bound, ∀ supply : List F.SigningNonces, bound ≤ supply.length →
      ∃ poll t, (s.tss m).nextAction supply = some (poll, t) ∧ poll ≠ .panic := by
  refine ⟨pollWork shard (s.tss m) (((s.tss m).signingSessions.iter id).map Prod.fst),
    fun supply hsupply => ?_⟩
  obtain ⟨poll, t, hnext⟩ := (h.polled m).pollSessions_isSome hsigns hagg hm
    (fun _ => StorageMap.mem_map_iter.mp) (StorageMap.iter_keys_nodup ..) hsupply
  exact ⟨poll, t, hnext, (h.nextAction hsigns hagg hm hnext).1⟩

/-- A message of session `id`, for a member that signs under it. -/
theorem Inv.onMessage_eq (h : s.Inv shard data) {w : Wire F} (hw : w ∈ s.flight) {id : Nat}
    {msg : RoastMessage F} (hmsg : w.msg = .roast id msg)
    (hdata : (s.session id w.dst).signer.data ≠ none) :
    (s.tss w.dst).onMessage w.src w.msg
      = (s.tss w.dst).setSession id ((s.session id w.dst).onMessage w.src msg) := by
  have hletter : (⟨w.src, w.dst, msg⟩ : Letter F) ∈ (s.table id).flight := by
    refine List.mem_filterMap.mpr ⟨w, hw, ?_⟩
    rw [hmsg]
    exact if_pos rfl
  have hsrc : w.src ∈ shard.members := (h.tables id).sources _ hletter
  have hself : (s.tss w.dst).frostId ≠ w.src := by
    rw [h.frostId]
    exact (h.flight w hw).symm
  have hmember : w.src ∈ (s.tss w.dst).members := by
    rw [h.tss]
    exact hsrc
  unfold Tss.onMessage
  rw [if_neg hself, if_neg (not_not.mpr hmember), hmsg]
  simp only [get_of_data hdata]

theorem eraseIdx_split {α : Type} {l : List α} {k : Nat} {a : α} (h : l[k]? = some a) :
    ∃ before after, l = before ++ a :: after ∧ l.eraseIdx k = before ++ after := by
  obtain ⟨hlt, rfl⟩ := List.getElem?_eq_some_iff.mp h
  refine ⟨l.take k, l.drop (k + 1), ?_, List.eraseIdx_eq_take_drop_succ ..⟩
  rw [← List.drop_eq_getElem_cons hlt, List.take_append_drop]

/-- Other sessions do not notice a message. -/
theorem table_deliver_of_none {w : Wire F} {before after : List (Wire F)}
    (hflight : s.flight = before ++ w :: after) {t : Tss F} {id : Nat}
    (hletter : w.msg.letter w.src w.dst id = none)
    (hsession : t.session id = s.session id w.dst) :
    ({ s.set w.dst t with flight := before ++ after } : Net F).table id = s.table id := by
  have hsame : (before ++ after).filterMap (fun e => e.msg.letter e.src e.dst id)
      = s.flight.filterMap fun e => e.msg.letter e.src e.dst id := by
    rw [hflight, List.filterMap_append, List.filterMap_append, List.filterMap_cons, hletter]
  have hset : (s.set w.dst t).table id = s.table id := by
    rw [table_set, hsession]
    exact s.table_set_self w.dst id
  rw [← hset]
  exact congrArg (fun flight => ({ (s.set w.dst t).table id with flight := flight } : Table F))
    hsame

/-- The message is taken out of its table. -/
theorem Inv.table_deliver (h : s.Inv shard data) {w : Wire F} {before after : List (Wire F)}
    (hflight : s.flight = before ++ w :: after) {id : Nat} {msg : RoastMessage F}
    (hmsg : w.msg = .roast id msg) (id' : Nat) :
    (({ s.set w.dst ((s.tss w.dst).setSession id ((s.session id w.dst).onMessage w.src msg)) with
      flight := before ++ after } : Net F).table id').Inv shard (data id') := by
  by_cases hid : id' = id
  · subst hid
    have hletters : (s.table id').flight
        = before.filterMap (fun e => e.msg.letter e.src e.dst id')
          ++ (⟨w.src, w.dst, msg⟩ : Letter F)
            :: after.filterMap fun e => e.msg.letter e.src e.dst id' := by
      dsimp only [table]
      rw [hflight, List.filterMap_append, List.filterMap_cons, hmsg]
      simp only [TssMessage.letter, if_pos]
    have hinv := (h.tables id').deliver hletters
    rw [← List.filterMap_append] at hinv
    have hset := s.table_set w.dst ((s.tss w.dst).setSession id'
      ((s.session id' w.dst).onMessage w.src msg)) id'
    rw [Tss.session_setSession, if_pos rfl] at hset
    have heq := congrArg (fun T => ({ T with
      flight := (before ++ after).filterMap fun e => e.msg.letter e.src e.dst id' } : Table F)) hset
    exact (congrArg (Table.Inv shard (data id')) heq).mpr hinv
  · rw [table_deliver_of_none hflight (by rw [hmsg]; exact if_neg (Ne.symm hid))]
    · exact h.tables id'
    · rw [Tss.session_setSession, if_neg hid]
      rfl

theorem Inv.deliver (h : s.Inv shard data) {k : Nat} {w : Wire F} (hk : s.flight[k]? = some w)
    (hdata : ∀ id msg, w.msg = .roast id msg → (s.session id w.dst).signer.data ≠ none) :
    ({ s.set w.dst ((s.tss w.dst).onMessage w.src w.msg) with
      flight := s.flight.eraseIdx k } : Net F).Inv shard data := by
  have hw : w ∈ s.flight := List.mem_of_getElem? hk
  obtain ⟨before, after, hflight, herase⟩ := eraseIdx_split hk
  have hrest : ∀ e ∈ before ++ after, e.src ≠ e.dst :=
    fun e he => h.flight e (List.mem_of_mem_eraseIdx (herase ▸ he))
  rw [herase]
  cases hmsg : w.msg with
  | dkg =>
      have hsame : (s.tss w.dst).onMessage w.src .dkg = s.tss w.dst := by
        unfold Tss.onMessage
        split
        · rfl
        · split
          · rfl
          · rfl
      rw [hsame]
      refine ⟨h.tss_update rfl, fun m id r hr => ?_, hrest, fun id => ?_⟩
      · rw [set_tss] at hr
        split at hr
        · exact h.signing _ id r hr
        · exact h.signing m id r hr
      · rw [table_deliver_of_none hflight (by rw [hmsg]; rfl) rfl]
        exact h.tables id
  | roast id msg =>
      have hnone := hdata id msg hmsg
      have honMessage := h.onMessage_eq hw hmsg hnone
      rw [hmsg] at honMessage
      rw [honMessage]
      refine ⟨h.tss_update rfl, fun m id' r hr => ?_, hrest, h.table_deliver hflight hmsg⟩
      rw [set_tss] at hr
      split at hr
      · rw [Tss.setSession_get] at hr
        split at hr
        · cases hr
          rw [(Roast.onMessage_frame ..).data]
          exact hnone
        · exact h.signing _ id' r hr
      · exact h.signing m id' r hr

/-- A step of an honest run. -/
theorem Inv.step (h : s.Inv shard data) (hsigns : shard.SignsOwn)
    (hagg : shard.AggregatesMatching) {ids : Finset Nat} {input : NetInput F}
    (hok : Honest shard ids data s input) (hstep : s.step input = some s') :
    s'.Inv shard data := by
  cases input with
  | onStart => exact hok.elim
  | onSign m id data' =>
      obtain ⟨-, -, rfl⟩ := hok
      cases hstep
      exact h.onSign m id
  | onComplete => exact hok.elim
  | poll m supply =>
      obtain ⟨poll, t, hnext, rfl⟩ := step_poll hstep
      exact (h.nextAction hsigns hagg hok hnext).2
  | deliver k =>
      dsimp only [Net.step] at hstep
      split at hstep
      · cases hstep
      · next w hw =>
        cases hstep
        exact h.deliver hw fun id msg => hok w id msg hw

theorem run_inv (hsigns : shard.SignsOwn) (hagg : shard.AggregatesMatching) {ids : Finset Nat}
    {inputs : List (NetInput F)}
    (hrun : Run Net.step (Honest shard ids data) (.start shard) inputs s) : s.Inv shard data := by
  refine hrun.invariant (P := fun _ s => s.Inv shard data) (inv_start shard data) ?_
  intro inputs s input s' _ h hok hstep
  exact h.step hsigns hagg hok hstep

/-! ## Coming to rest -/

end Net

/-- Members that have nothing to do are polled one after the other. -/
theorem Table.Inv.rest {shard : Shard F} {data : List UInt8} {T : Table F} {id : Nat}
    (h : T.Inv shard data) (hsigns : shard.SignsOwn) (hagg : shard.AggregatesMatching)
    {members : List Identifier} (hmem : ∀ m ∈ members, m ∈ shard.members)
    (hnodup : members.Nodup) (hdata : ∀ m ∈ members, (T.sess m).signer.data ≠ none)
    (hidle : ∀ m ∈ members, ∃ r, Polls m id (T.sess m) .idle r) :
    ∃ T' : Table F, T'.Inv shard data ∧ T'.flight = T.flight ∧ T'.outputs = T.outputs ∧
      (∀ m ∈ members, (T'.sess m).Rests) ∧ ∀ m ∉ members, T'.sess m = T.sess m := by
  induction members generalizing T with
  | nil => exact ⟨T, h, rfl, rfl, fun m hm => absurd hm List.not_mem_nil, fun _ _ => rfl⟩
  | cons m members ih =>
      obtain ⟨hnew, hnodup⟩ := List.nodup_cons.mp hnodup
      obtain ⟨r, hpolls⟩ := hidle m List.mem_cons_self
      obtain ⟨-, hinv, hrests⟩ := h.polls hsigns hagg (hmem m List.mem_cons_self) hpolls rfl
        (hdata m List.mem_cons_self)
      rw [Table.emit_idle] at hinv
      have hother : ∀ m' ∈ members, (T.set m r).sess m' = T.sess m' := by
        intro m' hm'
        rw [Table.set_sess, if_neg]
        rintro rfl
        exact hnew hm'
      obtain ⟨T', hinv', hflight, houtputs, hrests', hsame⟩ := ih hinv
        (fun m' hm' => hmem m' (List.mem_cons_of_mem _ hm')) hnodup
        (fun m' hm' => by
          rw [hother m' hm']
          exact hdata m' (List.mem_cons_of_mem _ hm'))
        (fun m' hm' => by
          rw [hother m' hm']
          exact hidle m' (List.mem_cons_of_mem _ hm'))
      refine ⟨T', hinv', hflight, houtputs, fun m' hm' => ?_, fun m' hm' => ?_⟩
      · rcases List.mem_cons.mp hm' with rfl | hm'
        · rw [hsame m' hnew, Table.set_sess, if_pos rfl]
          exact hrests rfl
        · exact hrests' m' hm'
      · rw [List.mem_cons, not_or] at hm'
        rw [hsame m' hm'.2, Table.set_sess, if_neg hm'.1]

/-- With no message in flight and nothing to do, each coordinator has its
signature. -/
theorem Table.Inv.signed {shard : Shard F} {data : List UInt8} {T : Table F} {id : Nat}
    (h : T.Inv shard data) (hsigns : shard.SignsOwn) (hagg : shard.AggregatesMatching)
    (hflight : T.flight = []) (hdata : ∀ m ∈ shard.members, (T.sess m).signer.data ≠ none)
    (hidle : ∀ m ∈ shard.members, ∃ r, Polls m id (T.sess m) .idle r) {c : Identifier}
    (hc : c ∈ shard.coordinators) :
    ∃ signature, T.outputsOf c = [(c, F.messageHash data, signature)] := by
  obtain ⟨T', hinv, hflight', houtputs, hrests, -⟩ := h.rest hsigns hagg (fun _ hm => hm)
    shard.sorted.nodup hdata hidle
  have hnone := hinv.done_of_rests (hflight'.trans hflight) hrests hc
  have hof : T.outputsOf c = T'.outputsOf c := by rw [Table.outputsOf, Table.outputsOf, houtputs]
  cases hinv.progress c with
  | signer hno => exact absurd hc hno
  | waits _ hsome => exact absurd hnone hsome
  | done _ _ hone => exact ⟨_, hof.trans hone⟩

namespace Net

variable {shard : Shard F} {data : Nat → List UInt8} {s : Net F}

/-- A member that has nothing to do has nothing to do under any id. -/
theorem Inv.idle_polls (h : s.Inv shard data) {m : Identifier} {id : Nat}
    (hdata : (s.session id m).signer.data ≠ none)
    (hidle : ∃ supply t, (s.tss m).nextAction supply = some (.idle, t)) :
    ∃ r, Polls m id (s.session id m) .idle r := by
  obtain ⟨supply, t, hnext⟩ := hidle
  have hget := get_of_data hdata
  have hpolls := (Tss.pollSessions_visits hnext).idle_polls rfl (StorageMap.iter_keys_nodup ..)
    (StorageMap.mem_map_iter.mpr (hget ▸ Option.some_ne_none _)) hget
  rwa [h.frostId] at hpolls

theorem outputsOf_table (s : Net F) (id : Nat) (m : Identifier) :
    (s.table id).outputsOf m
      = (s.outputs.filter fun o => o.1 = m ∧ o.2.1 = id).map fun o => (o.1, o.2.2) := by
  have hlist : ∀ outputs : List (Output F),
      (outputs.filterMap fun o => if o.2.1 = id then some (o.1, o.2.2) else none).filter
          (fun o => o.1 = m)
        = (outputs.filter fun o => o.1 = m ∧ o.2.1 = id).map fun o => (o.1, o.2.2) := by
    intro outputs
    induction outputs with
    | nil => rfl
    | cons o outputs ih =>
        by_cases hid : o.2.1 = id
        · by_cases hm : o.1 = m
          · simp [hid, hm, ih]
          · simp [hid, hm, ih]
        · simp [hid, ih]
  exact hlist s.outputs

/-- What a coordinator has output under an id. -/
theorem outputs_of_table {id : Nat} {m : Identifier} {hash : Bytes 32} {signature : F.Signature}
    (h : (s.table id).outputsOf m = [(m, hash, signature)]) :
    (s.outputs.filter fun o => o.1 = m ∧ o.2.1 = id) = [(m, id, hash, signature)] := by
  rw [outputsOf_table, List.map_eq_singleton_iff] at h
  obtain ⟨⟨m', id', hash', signature'⟩, hfilter, heq⟩ := h
  have hmem : (m', id', hash', signature') ∈ s.outputs.filter fun o => o.1 = m ∧ o.2.1 = id := by
    rw [hfilter]
    exact List.mem_singleton_self _
  have hid : id' = id := (of_decide_eq_true (List.mem_filter.mp hmem).2).2
  obtain ⟨rfl, rfl, rfl⟩ : m' = m ∧ hash' = hash ∧ signature' = signature := by
    simpa using heq
  rw [hfilter, hid]

/-- Only coordinators output signatures. -/
theorem Inv.mem_coordinators (h : s.Inv shard data) {o : Output F} (ho : o ∈ s.outputs) :
    o.1 ∈ shard.coordinators := by
  cases (h.tables o.2.1).progress o.1 with
  | signer _ _ hnil =>
      rw [outputsOf_table, List.map_eq_nil_iff, List.filter_eq_nil_iff] at hnil
      exact absurd (decide_eq_true ⟨rfl, rfl⟩) (hnil o ho)
  | waits hc => exact hc
  | done hc => exact hc

end Net

/-- **Signing completes** when all members are honest: no coordinator starts
more than `n - t + 1` sessions, every poll ends without a panic, and in a
shard at rest each coordinator has output one signature for each id. -/
theorem roast_completes {shard : Shard F} (hsigns : shard.SignsOwn)
    (hagg : shard.AggregatesMatching) {ids : Finset Nat} {data : Nat → List UInt8}
    {inputs : List (NetInput F)} {s : Net F}
    (hrun : Run Net.step (Net.Honest shard ids data) (.start shard) inputs s) :
    (∀ id m, (s.session id m).started ≤ shard.members.length - shard.threshold + 1) ∧
    (∀ m ∈ shard.members, ∃ bound, ∀ supply : List F.SigningNonces, bound ≤ supply.length →
      ∃ poll t, (s.tss m).nextAction supply = some (poll, t) ∧ poll ≠ .panic) ∧
    (∀ o ∈ s.outputs, o.1 ∈ shard.coordinators) ∧
    ((∀ m ∈ shard.members, ∀ id ∈ ids, (s.session id m).signer.data ≠ none) → s.Quiet shard →
      shard.coordinators.length = shard.members.length - shard.threshold + 1 ∧
      ∀ c ∈ shard.coordinators, ∀ id ∈ ids, ∃ signature,
        (s.outputs.filter fun o => o.1 = c ∧ o.2.1 = id)
          = [(c, id, F.messageHash (data id), signature)]) := by
  have h := Net.run_inv hsigns hagg hrun
  have hle := shard.le
  have hpos := shard.pos
  refine ⟨fun id m => ?_, fun m hm => h.nextAction_isSome hsigns hagg hm,
    fun o ho => h.mem_coordinators ho, fun hall hquiet => ⟨?_, fun c hc id hid => ?_⟩⟩
  · have hbound : (s.session id m).started + shard.threshold
        ≤ shard.members.toFinset.card + 1 := ((h.tables id).steady m).bound
    rw [shard.card_members] at hbound
    omega
  · rw [Shard.coordinators, List.length_take]
    omega
  · obtain ⟨hflight, hidle⟩ := hquiet
    have hnil : (s.table id).flight = [] := by
      rw [Net.table, hflight]
      rfl
    obtain ⟨signature, hone⟩ := (h.tables id).signed hsigns hagg hnil
      (fun m hm => hall m hm id hid)
      (fun m hm => h.idle_polls (hall m hm id hid) (hidle m hm)) hc
    exact ⟨signature, Net.outputs_of_table hone⟩

/-! Two coordinators, one of three members more than they need. -/

def trioShard : Shard toyFrost where
  members := [1, 2, 3]
  threshold := 2
  keyPackage m := m
  publicKeyPackage := ()
  sorted := by decide
  pos := Nat.two_pos
  le := by decide
  size := by decide

/-- All are polled, and the oldest message is delivered. -/
def trioRound (n : Nat) : List (NetInput toyFrost) :=
  trioShard.members.map (fun m => .poll m ((List.range 4).map (100 * n + 10 * m + ·))) ++
    [.deliver 0]

/-- All sign `[7]` under id 0. -/
def trioInputs : List (NetInput toyFrost) :=
  trioShard.members.map (.onSign · 0 [7]) ++ (List.range 12).flatMap trioRound

def trioNet : Net toyFrost := Run.endState Net.step (.start trioShard) trioInputs

theorem trioShard_signsOwn : trioShard.SignsOwn := by
  intro m _ package nonces _ hown
  exact (if_pos hown).trans_ne (Option.some_ne_none _)

theorem trioShard_aggregatesMatching : trioShard.AggregatesMatching := by
  intro package shares _ hkeys hmatch hnone
  obtain ⟨p, share, hshare, hinvalid⟩ := (toyFrost_aggregatesValid package shares hkeys).mp hnone
  obtain ⟨nonces, hnonces, hsign⟩ := hmatch p share hshare
  have hsame : some nonces = some share := (if_pos hnonces).symm.trans hsign
  exact hinvalid (hnonces.trans hsame)

/-- `Honest`, for inputs that are given. -/
def Net.honestCheck (shard : Shard F) (ids : Finset Nat) (data : Nat → List UInt8) (s : Net F) :
    NetInput F → Bool
  | .onSign m id data' => decide (m ∈ shard.members ∧ id ∈ ids ∧ data' = data id)
  | .poll m _ => decide (m ∈ shard.members)
  | .deliver k =>
      match s.flight[k]? with
      | some ⟨_, dst, .roast id _⟩ => (s.session id dst).signer.data.isSome
      | _ => true
  | .onStart _ _ => false
  | .onComplete _ _ => false

theorem Net.honest_of_check {shard : Shard F} {ids : Finset Nat} {data : Nat → List UInt8}
    (s : Net F) (input : NetInput F) (h : honestCheck shard ids data s input = true) :
    Honest shard ids data s input := by
  cases input with
  | onStart => cases h
  | onSign m id data' =>
      have hall : m ∈ shard.members ∧ id ∈ ids ∧ data' = data id := of_decide_eq_true h
      exact hall
  | onComplete => cases h
  | poll m supply =>
      have hm : m ∈ shard.members := of_decide_eq_true h
      exact hm
  | deliver k =>
      rintro ⟨src, dst, _⟩ id msg hw rfl
      dsimp only [honestCheck] at h
      rw [hw] at h
      exact Option.isSome_iff_ne_none.mp h

theorem trioInputs_run :
    Run Net.step (Net.Honest trioShard {0} fun _ => [7]) (.start trioShard) trioInputs trioNet :=
  Run.of_guarded Net.honest_of_check (by decide +kernel)

theorem roast_completes_trio :
    trioShard.coordinators = [1, 2] ∧ trioNet.Quiet trioShard ∧
    ∀ c ∈ trioShard.coordinators, ∃ signature,
      (trioNet.outputs.filter fun o => o.1 = c ∧ o.2.1 = 0)
        = [(c, 0, toyFrost.messageHash [7], signature)] := by
  obtain ⟨-, -, -, hquiet⟩ := roast_completes trioShard_signsOwn trioShard_aggregatesMatching
    trioInputs_run
  have hidle : ∀ m ∈ trioShard.members,
      ((trioNet.tss m).nextAction [0]).any (fun e => e.1.isIdle) = true := by
    decide +kernel
  have hrest : trioNet.Quiet trioShard :=
    ⟨by decide +kernel, fun m hm => ⟨[0], Tss.nextAction_idle (hidle m hm)⟩⟩
  have hall : ∀ m ∈ trioShard.members, ∀ id ∈ ({0} : Finset Nat),
      (trioNet.session id m).signer.data ≠ none := by
    decide +kernel
  exact ⟨rfl, hrest, fun c hc => (hquiet hall hrest).2 c hc 0 (Finset.mem_singleton_self 0)⟩

end Signing

end Timechain
