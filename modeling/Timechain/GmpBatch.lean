import Mathlib.Algebra.BigOperators.Group.List.Basic
import Mathlib.Algebra.Ring.Nat
import Mathlib.Data.List.Infix
import Timechain.Primitives

/-!
# What the batch builder packs

`BatchBuilder.push` compares the limit with the gas of the *new op
alone*: the builder's own `gas` starts at zero and nothing ever adds to
it. So the collected ops are flushed exactly in front of an op that
exceeds the limit by itself, and every other op joins the open batch.

`pack` says this as a recursion over the ops, and `feed_pack` connects
it to the builder. Two consequences are drawn:

- nothing is lost, repeated or reordered (`flatten_pack`), and no batch
  is empty (`ne_nil_of_mem_pack`) - what the op queue relies on;
- the gas limit is kept exactly when every stretch of ops that no
  oversized op interrupts stays below it (`batches_gas_le_iff`).
-/

namespace Timechain

/-! ## Gas of a batch -/

theorem GatewayMessage.foldl_gas (ops : List GatewayOp) (acc : Nat) (h : acc ≤ maxVal 128) :
    ops.foldl (fun acc op => satAdd 128 acc op.gas) acc
      = min (acc + (ops.map GatewayOp.gas).sum) (maxVal 128) := by
  induction ops generalizing acc with
  | nil => simp [Nat.min_eq_left h]
  | cons op ops ih =>
      rw [List.foldl_cons, ih _ (satAdd_le_max ..), List.map_cons, List.sum_cons, satAdd]
      omega

theorem GatewayMessage.gas_eq (m : GatewayMessage) :
    m.gas = min (m.ops.map GatewayOp.gas).sum (maxVal 128) := by
  rw [gas, foldl_gas _ _ (Nat.zero_le _), Nat.zero_add]

/-- A stretch of a batch never costs more than the batch. -/
theorem GatewayMessage.gas_le_of_segment {seg ops : List GatewayOp} (h : seg <:+: ops) :
    GatewayMessage.gas ⟨seg⟩ ≤ GatewayMessage.gas ⟨ops⟩ := by
  have hsum : (seg.map GatewayOp.gas).sum ≤ (ops.map GatewayOp.gas).sum := by
    obtain ⟨pre, post, rfl⟩ := h
    simp only [List.map_append, List.sum_append]
    omega
  rw [gas_eq, gas_eq]
  exact min_le_min_right _ hsum

/-! ## Packing, as a recursion -/

/-- The batches made from an open batch `p` and the ops still to come:
an op that exceeds the limit by itself closes a non-empty open batch. -/
def pack (limit : Nat) : List GatewayOp → List GatewayOp → List (List GatewayOp)
  | p, [] => if p = [] then [] else [p]
  | p, op :: ops =>
      if limit < op.gas ∧ p ≠ [] then p :: pack limit [op] ops
      else pack limit (p ++ [op]) ops

theorem flatten_pack (limit : Nat) (p ops : List GatewayOp) :
    (pack limit p ops).flatten = p ++ ops := by
  induction ops generalizing p with
  | nil =>
      rw [pack]
      split
      · next h => simp [h]
      · simp
  | cons op ops ih =>
      rw [pack]
      split
      · rw [List.flatten_cons, ih]; rfl
      · rw [ih, List.append_assoc]; rfl

theorem ne_nil_of_mem_pack {limit : Nat} {p ops g : List GatewayOp}
    (hg : g ∈ pack limit p ops) : g ≠ [] := by
  induction ops generalizing p with
  | nil =>
      rw [pack] at hg
      split at hg
      · cases hg
      · next h => rwa [List.mem_singleton.mp hg]
  | cons op ops ih =>
      rw [pack] at hg
      split at hg
      · next h =>
          rcases List.mem_cons.mp hg with rfl | hg
          · exact h.2
          · exact ih hg
      · exact ih hg

/-- Every batch is a stretch of the ops. -/
theorem infix_of_mem_pack {limit : Nat} {p ops g : List GatewayOp}
    (hg : g ∈ pack limit p ops) : g <:+: p ++ ops := by
  rw [← flatten_pack limit p ops]
  obtain ⟨l, r, hlr⟩ := List.append_of_mem hg
  refine ⟨l.flatten, r.flatten, ?_⟩
  rw [hlr, List.flatten_append, List.flatten_cons, List.append_assoc]

/-- Past its first op, a batch holds no op that exceeds the limit. -/
theorem gas_le_of_mem_pack {limit : Nat} {p ops g : List GatewayOp}
    (hp : ∀ op ∈ p.tail, op.gas ≤ limit) (hg : g ∈ pack limit p ops) :
    ∀ op ∈ g.tail, op.gas ≤ limit := by
  induction ops generalizing p with
  | nil =>
      rw [pack] at hg
      split at hg
      · cases hg
      · rwa [List.mem_singleton.mp hg]
  | cons op ops ih =>
      rw [pack] at hg
      split at hg
      · rcases List.mem_cons.mp hg with rfl | hg
        · exact hp
        · exact ih (by simp) hg
      · next h =>
          refine ih ?_ hg
          cases p with
          | nil => simp
          | cons a p =>
              intro op' hop'
              rw [List.cons_append, List.tail_cons, List.mem_append, List.mem_singleton] at hop'
              rcases hop' with hop' | rfl
              · exact hp op' hop'
              · exact Nat.le_of_not_lt fun hlt => h ⟨hlt, List.cons_ne_nil a p⟩

/-- The open batch only grows until it is closed. -/
theorem prefix_mem_pack {limit : Nat} {p : List GatewayOp} (hp : p ≠ []) (ops : List GatewayOp) :
    ∃ g ∈ pack limit p ops, p <+: g := by
  induction ops generalizing p with
  | nil => exact ⟨p, by simp [pack, hp], List.prefix_rfl⟩
  | cons op ops ih =>
      rw [pack]
      split
      · exact ⟨p, List.mem_cons_self .., List.prefix_rfl⟩
      · obtain ⟨g, hg, hpre⟩ := ih (List.append_ne_nil_of_left_ne_nil hp [op])
        exact ⟨g, hg, (List.prefix_append p [op]).trans hpre⟩

/-- Ops within the limit join the open batch without closing it. -/
theorem pack_append_of_le {limit : Nat} {p l : List GatewayOp} (hl : ∀ op ∈ l, op.gas ≤ limit)
    (ops : List GatewayOp) : pack limit p (l ++ ops) = pack limit (p ++ l) ops := by
  induction l generalizing p with
  | nil => simp
  | cons op l ih =>
      have hop : ¬(limit < op.gas ∧ p ≠ []) := fun h =>
        absurd (hl op (List.mem_cons_self ..)) (Nat.not_le.mpr h.1)
      rw [List.cons_append, pack, if_neg hop, ih fun o ho => hl o (List.mem_cons_of_mem _ ho),
        List.append_assoc]
      rfl

/-- A stretch of ops that no oversized op interrupts ends up in one
batch. -/
theorem exists_mem_pack_of_segment {limit : Nat} {p : List GatewayOp} {op : GatewayOp}
    {l : List GatewayOp} (hl : ∀ o ∈ l, o.gas ≤ limit) (pre post : List GatewayOp) :
    ∃ g ∈ pack limit p (pre ++ (op :: l) ++ post), op :: l <:+: g := by
  induction pre generalizing p with
  | nil =>
      rw [List.nil_append, List.cons_append, pack]
      split
      · obtain ⟨g, hg, hpre⟩ := @prefix_mem_pack limit ([op] ++ l) (by simp) post
        rw [pack_append_of_le hl]
        exact ⟨g, List.mem_cons_of_mem _ hg, hpre.isInfix⟩
      · obtain ⟨g, hg, hpre⟩ := @prefix_mem_pack limit (p ++ [op] ++ l) (by simp) post
        rw [pack_append_of_le hl]
        refine ⟨g, hg, List.IsInfix.trans ⟨p, [], ?_⟩ hpre.isInfix⟩
        simp
  | cons o pre ih =>
      rw [List.cons_append, List.cons_append, pack]
      split
      · obtain ⟨g, hg, hin⟩ := @ih [o]
        exact ⟨g, List.mem_cons_of_mem _ hg, hin⟩
      · exact ih

/-- How many batches `ops` are packed into: one, and one more for every
op after the first that exceeds the limit by itself. -/
def demand (limit : Nat) : List GatewayOp → Nat
  | [] => 0
  | _ :: ops => 1 + ops.countP fun op => limit < op.gas

theorem length_pack {limit : Nat} {p : List GatewayOp} (hp : p ≠ []) (ops : List GatewayOp) :
    (pack limit p ops).length = 1 + ops.countP fun op => limit < op.gas := by
  induction ops generalizing p with
  | nil => simp [pack, hp]
  | cons op ops ih =>
      rw [pack, List.countP_cons]
      split
      · next h =>
          rw [List.length_cons, ih (List.cons_ne_nil op []), if_pos (decide_eq_true h.1)]
          omega
      · next h =>
          have hle : ¬limit < op.gas := fun hlt => h ⟨hlt, hp⟩
          rw [ih (List.append_ne_nil_of_left_ne_nil hp _), if_neg (by simpa using hle)]
          omega

theorem length_pack_nil (limit : Nat) (ops : List GatewayOp) :
    (pack limit [] ops).length = demand limit ops := by
  cases ops with
  | nil => rfl
  | cons op ops =>
      rw [pack, if_neg (by simp), length_pack (by simp)]
      rfl

/-! ## The builder computes the packing -/

namespace BatchBuilder

/-- `push` on a builder whose `gas` is zero, as all of them are. -/
theorem push_eq {b : BatchBuilder} (hb : b.gas = 0) (op : GatewayOp) :
    b.push op =
      if b.batchGasLimit < op.gas ∧ b.ops ≠ [] then
        (some ⟨b.ops⟩, { b with ops := [op] })
      else (none, { b with ops := b.ops ++ [op] }) := by
  obtain ⟨limit, gas, ops⟩ := b
  obtain rfl : gas = 0 := hb
  simp only [push, takeBatch, Nat.zero_add, gt_iff_lt]
  by_cases hgas : limit < op.gas
  · cases ops <;> simp [hgas]
  · simp [hgas]

/-- No path of the builder changes `gas`. -/
theorem push_gas {b : BatchBuilder} (hb : b.gas = 0) (op : GatewayOp) : (b.push op).2.gas = 0 := by
  rw [push_eq hb]
  split <;> exact hb

theorem push_limit {b : BatchBuilder} (hb : b.gas = 0) (op : GatewayOp) :
    (b.push op).2.batchGasLimit = b.batchGasLimit := by
  rw [push_eq hb]
  split <;> rfl

/-- Push a list of ops, collecting the batches returned on the way. -/
def feed : BatchBuilder → List GatewayOp → List GatewayMessage × BatchBuilder
  | b, [] => ([], b)
  | b, op :: ops =>
      let (batch, b) := b.push op
      let (batches, b) := feed b ops
      (batch.toList ++ batches, b)

/-- All batches made from `ops`: those returned by `push`, then the
final `take_batch`. -/
def batches (limit : Nat) (ops : List GatewayOp) : List GatewayMessage :=
  let (batches, b) := feed (new limit) ops
  batches ++ b.takeBatch.1.toList

theorem takeBatch_eq (b : BatchBuilder) :
    b.takeBatch.1.toList = (pack b.batchGasLimit b.ops []).map GatewayMessage.mk := by
  rw [takeBatch, pack]
  cases b.ops <;> simp

theorem feed_pack {b : BatchBuilder} (hb : b.gas = 0) (ops : List GatewayOp) :
    (b.feed ops).1 ++ (b.feed ops).2.takeBatch.1.toList
      = (pack b.batchGasLimit b.ops ops).map GatewayMessage.mk := by
  induction ops generalizing b with
  | nil => simp [feed, takeBatch_eq]
  | cons op ops ih =>
      have hrec := ih (push_gas hb op)
      rw [push_limit hb] at hrec
      simp only [feed, List.append_assoc, hrec, pack]
      rw [push_eq hb]
      split <;> simp

theorem batches_eq (limit : Nat) (ops : List GatewayOp) :
    batches limit ops = (pack limit [] ops).map GatewayMessage.mk :=
  feed_pack rfl ops

/-! ## When the gas limit is kept -/

/-- **When batches respect the gas limit.** Every batch is a single op or
within the limit exactly when every stretch of two or more ops whose ops
past the first each fit the limit also fits it together. -/
theorem batches_gas_le_iff (limit : Nat) (ops : List GatewayOp) :
    (∀ m ∈ batches limit ops, m.ops.length = 1 ∨ m.gas ≤ limit) ↔
      ∀ seg, seg <:+: ops → 2 ≤ seg.length → (∀ op ∈ seg.tail, op.gas ≤ limit) →
        GatewayMessage.gas ⟨seg⟩ ≤ limit := by
  rw [batches_eq, List.forall_mem_map]
  constructor
  · rintro hbatch seg ⟨pre, post, rfl⟩ hlen htail
    cases seg with
    | nil => simp at hlen
    | cons op l =>
        obtain ⟨g, hg, hin⟩ := @exists_mem_pack_of_segment limit [] op l htail pre post
        have hglen : 2 ≤ g.length := Nat.le_trans hlen hin.length_le
        rcases hbatch g hg with hone | hgas
        · simp only at hone; omega
        · exact Nat.le_trans (GatewayMessage.gas_le_of_segment hin) hgas
  · intro hseg g hg
    have hin : g <:+: ops := infix_of_mem_pack hg
    have hpos : 0 < g.length := List.length_pos_iff.mpr (ne_nil_of_mem_pack hg)
    by_cases hone : g.length = 1
    · exact Or.inl hone
    · exact Or.inr (hseg g hin (by omega) (gas_le_of_mem_pack (by simp) hg))

/-- Two registrations, 40000 gas each, under a limit of 50000: one batch
of 80000. -/
theorem two_registrations_exceed_limit :
    ¬∀ m ∈ batches 50000 (List.replicate 2 (.registerShard (Vector.replicate 33 0))),
      m.ops.length = 1 ∨ m.gas ≤ 50000 := by
  decide

end BatchBuilder

end Timechain
