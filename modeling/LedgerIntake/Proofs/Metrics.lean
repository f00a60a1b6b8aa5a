import Mathlib.Data.List.Induction
import LedgerIntake.Admission
import LedgerIntake.Proofs.Number.Exact

/-!
# Counts and observations

A histogram is settled by the observations that it took in: each bucket counts those that do not
exceed its bound, and numbers of rows are summed without rounding as long as their sum is an exact
binary64. What an answered payload adds to each counter depends on the answer and on the number of
its rows alone.
-/

namespace LedgerIntake

namespace Histogram

/-- The histogram of some observations, taken in one after the other. -/
def ofObservations (bounds values : List Binary64) : Histogram :=
  values.foldl observe (.ofBounds bounds)

variable (bounds values : List Binary64)

/-- Later observations are made by what the earlier ones left, so runs can be added at the end. -/
theorem ofObservations_append (behind : List Binary64) :
    ofObservations bounds (values ++ behind) = behind.foldl observe
    (ofObservations bounds values) :=
  List.foldl_append

/-- A histogram counts its observations, modulo 2⁶⁴. -/
theorem count_ofObservations :
    (ofObservations bounds values).count = UInt64.ofNat values.length := by
  induction values using List.reverseRecOn with
  | nil => rfl
  | append_singleton values value inductionHypothesis =>
    rw [ofObservations_append, List.foldl_cons, observe, List.foldl_nil, inductionHypothesis,
      List.length_append, UInt64.ofNat_add]
    rfl

/-- Every bucket counts the observations up to its bound, those of lower buckets included. The
induction adds observations at the end. -/
theorem buckets_ofObservations : (ofObservations bounds values).buckets
    = bounds.map fun bound =>
      ⟨bound, UInt64.ofNat (values.countP fun value => value.atMost bound)⟩ := by
  induction values using List.reverseRecOn with
  | nil => rfl
  | append_singleton values value inductionHypothesis =>
    rw [ofObservations_append, List.foldl_cons, observe, List.foldl_nil, inductionHypothesis,
      List.map_map]
    refine List.map_congr_left fun bound _ => ?_
    rw [Function.comp_apply, List.countP_append, UInt64.ofNat_add]
    cases below : value.atMost bound with
    | false => simp [below]
    | true => simp [below]

/-- Counts are summed without rounding up to 2⁵³, so the sum of a histogram of counts is theirs. -/
theorem sum_ofObservations (counts : List Nat) (small : counts.sum ≤ 2 ^ 53) :
    (ofObservations bounds (counts.map Binary64.ofNat)).sum = Binary64.ofNat counts.sum := by
  induction counts using List.reverseRecOn with
  | nil =>
    show Binary64.ofMagnitude false 0 = Binary64.ofNat 0
    decide
  | append_singleton counts count inductionHypothesis =>
    rw [List.sum_append, List.sum_singleton] at small ⊢
    rw [List.map_append, List.map_singleton, ofObservations_append, List.foldl_cons, observe,
      List.foldl_nil, inductionHypothesis (by omega), Binary64.add_ofNat small]

end Histogram

/-- The count of a kind takes what is added to it, and the others stay. -/
theorem RejectionCounts.get_add (counts : RejectionCounts) (amount : UInt64)
    (changed kind : RejectionKind) :
    (counts.add amount changed).get kind = counts.get kind + if changed = kind then amount
      else 0 := by
  cases changed <;> cases kind <;> simp [add, get]

namespace Metrics

/-- A counter takes what is added to it, and the others stay. All pairs
of counters are gone through. -/
theorem get_add (metrics : Metrics) (amount : UInt64) (changed counter : Counter) :
    (metrics.add amount changed).get counter = metrics.get counter + if changed
      = counter then amount else 0 := by
  cases changed <;> cases counter <;> simp [add, get, RejectionCounts.get_add]

/-- An increment adds one to the counter that changes, and nothing to the others. -/
theorem get_increment (metrics : Metrics) (changed counter : Counter) :
    (metrics.increment changed).get counter = metrics.get counter + if changed
      = counter then 1 else 0 :=
  metrics.get_add 1 changed counter

/-- Observing a size changes no counter. -/
@[simp] theorem get_observeSize (metrics : Metrics) (rows : Binary64) (counter : Counter) :
    (metrics.observeSize rows).get counter = metrics.get counter := by
  cases counter <;> rfl

/-- Observing a latency changes no counter. -/
@[simp] theorem get_observeLatency (metrics : Metrics) (elapsed : Elapsed) (counter : Counter) :
    (metrics.observeLatency elapsed).get counter = metrics.get counter := by
  cases counter <;> rfl

/-- What a payload adds to a counter, given the number of its rows, if they could be
read, and its acknowledgment. -/
def share (rows : Option Nat) (reply : Acknowledgment) : Counter → Nat
  | .batches => 1
  | .accepted => if reply = .accepted then 1 else 0
  | .rejected kind =>
    match reply with
    | .accepted => 0
    | .rejected rejection => if rejection.kind = kind then 1 else 0
  | .rows => rows.getD 0
  | .admittedRows => if reply = .accepted then rows.getD 0 else 0
  | .refusedRows => if reply = .accepted then 0 else rows.getD 0

/-- A batch adds to every counter its share of the reply, so the accounts of a
batch are read off one table. -/
theorem get_countBatch (metrics : Metrics) (rows : Option Nat) (reply : Acknowledgment)
    (elapsed : Elapsed)
    (counter : Counter) : (metrics.countBatch rows reply elapsed).get counter
      = metrics.get counter + UInt64.ofNat (share rows reply counter) := by
  cases rows <;> cases reply <;> cases counter <;>
    simp [countBatch, countRows, countOutcome, get_increment, get_add, share,
      apply_ite UInt64.ofNat]

/-- Adding to a counter leaves the sizes as they are. -/
@[simp] theorem batchSize_add (metrics : Metrics) (amount : UInt64) (changed : Counter) :
    (metrics.add amount changed).batchSize = metrics.batchSize := by
  cases changed <;> rfl

/-- Adding to a counter leaves the latencies as they are. -/
@[simp] theorem batchLatency_add (metrics : Metrics) (amount : UInt64) (changed : Counter) :
    (metrics.add amount changed).batchLatency = metrics.batchLatency := by
  cases changed <;> rfl

/-- An increment leaves the sizes as they are. -/
@[simp] theorem batchSize_increment (metrics : Metrics) (changed : Counter) :
    (metrics.increment changed).batchSize = metrics.batchSize := metrics.batchSize_add 1 changed

/-- An increment leaves the latencies as they are. -/
@[simp] theorem batchLatency_increment (metrics : Metrics) (changed : Counter) :
    (metrics.increment changed).batchLatency = metrics.batchLatency :=
      metrics.batchLatency_add 1 changed

/-- The number of rows is observed if they could be read, admitted or not. -/
theorem batchSize_countBatch (metrics : Metrics) (rows : Option Nat) (reply : Acknowledgment)
    (elapsed : Elapsed) :
    (metrics.countBatch rows reply elapsed).batchSize
      = (rows.toList.map Binary64.ofNat).foldl Histogram.observe metrics.batchSize := by
  cases rows <;> cases reply <;>
    simp [countBatch, countRows, countOutcome, observeSize, observeLatency]

/-- The time is observed in any case, also for a payload that is no batch. -/
theorem batchLatency_countBatch (metrics : Metrics) (rows : Option Nat) (reply : Acknowledgment)
    (elapsed : Elapsed) :
    (metrics.countBatch rows reply elapsed).batchLatency
      = metrics.batchLatency.observe elapsed.inSeconds := by
  cases rows <;> cases reply <;>
    simp [countBatch, countRows, countOutcome, observeSize, observeLatency]

end Metrics

end LedgerIntake
