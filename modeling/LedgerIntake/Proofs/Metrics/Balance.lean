import LedgerIntake.Proofs.Connection
import LedgerIntake.Proofs.Connection.Safety
import LedgerIntake.Proofs.Metrics

/-!
# Metrics that balance

The intake of a server meets one occurrence after the other: batches are handled, frames are turned
down for their length, handshakes succeed or fail, and the pool is drained or cleared from outside.
The occurrences alone tell how many payloads came, which of them could be read and how many rows
these have, how many frames were too long and how many handshakes failed. After any run the counters
agree with these numbers, with each other and with the pool.

Counters wrap around and sums are rounded, so the laws are those of runs in which no counter passes
2⁶⁴ and the rows are fewer than 2⁵³.
-/

namespace LedgerIntake

/-- What the intake of a server may meet. -/
inductive Occurrence where
  /-- A payload is handled, which takes some time. -/
  | batch (payload : Bytes) (elapsed : Elapsed)
  /-- A frame that should hold a batch is turned down for its length. -/
  | overlongBatch (size : Nat)
  /-- The message that has to offer the token is answered. -/
  | request (message : Bytes)
  /-- The frame of such a message is turned down for its length. -/
  | overlongRequest (size : Nat)
  | drain (limit : Nat)
  | clear

namespace Occurrence

/-- Whether a payload is handled. -/
def isBatch : Occurrence → Bool
  | .batch _ _ => true
  | _ => false

/-- Whether a frame that should hold a batch is too long. -/
def isOverlongBatch : Occurrence → Bool
  | .overlongBatch _ => true
  | _ => false

/-- Whether a handshake is refused, for its length or by the guard. -/
def isRefusedHandshake (guard : Guard) : Occurrence → Bool
  | .request message => !(guard.handshake message).success
  | .overlongRequest _ => true
  | _ => false

/-- The number of rows of a batch that can be read. -/
def rowCount? : Occurrence → Option Nat
  | .batch payload _ => (Batch.decode payload).toOption.map fun table => table.rows.length
  | _ => none

/-- The time that a payload takes, in seconds. -/
def seconds? : Occurrence → Option Binary64
  | .batch _ elapsed => some elapsed.inSeconds
  | _ => none

/-- Only payloads have rows and are timed; whatever else occurs leaves histograms alone. -/
theorem rowless_of_not_isBatch {occurrence : Occurrence} (other : occurrence.isBatch = false) :
    occurrence.rowCount? = none ∧ occurrence.seconds? = none := by
  cases occurrence with
  | batch => cases other
  | _ => exact ⟨rfl, rfl⟩

/-- Every payload is timed, and nothing else is. -/
theorem length_seconds? (occurrence : Occurrence) :
    occurrence.seconds?.toList.length = occurrence.isBatch.toNat := by
  cases occurrence <;> rfl

/-- Occurrences so few that no counter wraps around and no sum of rows is rounded. -/
structure Few (guard : Guard) (occurrences : List Occurrence) : Prop where
  batches : occurrences.countP isBatch < UInt64.size
  overlong : occurrences.countP isOverlongBatch < UInt64.size
  refused : occurrences.countP (isRefusedHandshake guard) < UInt64.size
  rows : (occurrences.filterMap rowCount?).sum < 2 ^ 53

/-- The occurrences before the last one are fewer, so a bound on a run bounds its beginnings. -/
theorem Few.of_append {guard : Guard} {front behind : List Occurrence}
    (few : Few guard (front ++ behind)) :
    Few guard front := by
  obtain ⟨batches, overlong, refused, rows⟩ := few
  rw [List.countP_append] at batches overlong refused
  rw [List.filterMap_append, List.sum_append] at rows
  exact ⟨by omega, by omega, by omega, by omega⟩

end Occurrence

namespace Intake

/-- The intake after an occurrence. -/
def meet [Diagnostics] (server : Server) (intake : Intake) : Occurrence → Intake
  | .batch payload elapsed => (intake.handle payload elapsed).2
  | .overlongBatch size => (server.refuse .serving size intake).intake
  | .request message => (server.authenticate message intake).intake
  | .overlongRequest size => (server.refuse .authenticating size intake).intake
  | .drain limit => { intake with pool := (intake.pool.drain limit).2 }
  | .clear => { intake with pool := intake.pool.clear.2 }

/-- The intake after some occurrences. -/
def meetAll [Diagnostics] (server : Server) (intake : Intake)
    (occurrences : List Occurrence) : Intake :=
  occurrences.foldl (meet server) intake

/-- The count of a counter. -/
def total (intake : Intake) (counter : Counter) : Nat := (intake.metrics.get counter).toNat

/-- A counter that does not wrap around grows by what is added to it, as a
number and not only modulo 2⁶⁴. -/
theorem total_of_get {intake later : Intake} {counter : Counter} {amount : Nat}
    (added : later.metrics.get counter = intake.metrics.get counter + UInt64.ofNat amount)
    (room : intake.total counter + amount < UInt64.size) :
    later.total counter = intake.total counter + amount := by
  have small : amount < UInt64.size := by omega
  rw [total, added, UInt64.toNat_add, UInt64.toNat_ofNat_of_lt' small]
  exact Nat.mod_eq_of_lt room

end Intake

section Steps

open Metrics (share)
open Occurrence

/-- What the acknowledgment of a payload adds to the counters: to one of four
outcomes, and to that of unreadable payloads if there are no rows. The pool takes the
rows that are counted as admitted. -/
structure Examined.Weighs (rows : Option Nat) (reply : Acknowledgment)
    (pool later : Pool) : Prop where
  outcome : share rows reply .accepted + share rows reply (.rejected .codec)
    + share rows reply (.rejected .validation)
    + share rows reply (.rejected .capacity) = 1
  unreadable : rows.toList.length + share rows reply (.rejected .codec) = 1
  framing : share rows reply (.rejected .framing) = 0
  auth : share rows reply (.rejected .auth) = 0
  admitted : later.admittedTotal = pool.admittedTotal + share rows reply .admittedRows

/-- What is offered to the pool weighs what the reply says, by one case for each finding. -/
theorem Examined.offer_weighs [Diagnostics] (examined : Examined) (pool : Pool) :
    Weighs examined.rowCount? (examined.offer pool).1 pool (examined.offer pool).2 := by
  cases examined with
  | unreadable cause => constructor <;> simp [offer, rowCount?, share]
  | invalid rows faults => constructor <;> simp [offer, rowCount?, share]
  | valid records =>
    rcases Nat.lt_or_ge pool.available records.length with exceeds | room
    · rw [offer_of_lt pool records exceeds]
      constructor <;> simp [rowCount?, share]
    · rw [offer_of_le pool records room]
      constructor <;> simp [rowCount?, share, Pool.extend]

/-- A payload has the rows of the table that it is decoded to, or none if it is no batch. -/
theorem Examined.rowCount?_ofPayload (payload : Bytes) (elapsed : Elapsed) :
    (ofPayload payload).rowCount? = (Occurrence.batch payload elapsed).rowCount? := by
  rw [ofPayload, Occurrence.rowCount?]
  cases Batch.decode payload with
  | error cause => rfl
  | ok table =>
    show (ofRows table.rows).rowCount? = some table.rows.length
    by_cases passing : ∀ row ∈ table.rows, Record.fault? row = none
    · rw [ofRows_of_passes passing, rowCount?, length_records passing]
    · rw [ofRows_of_fault passing, rowCount?]

/-- The rows of a batch are admitted or turned down, all of them together. -/
theorem Metrics.share_rows (rows : Option Nat) (reply : Acknowledgment) :
    share rows reply .admittedRows + share rows reply .refusedRows = rows.getD 0 := by
  rw [share, share]
  split
  · exact Nat.add_zero _
  · exact Nat.zero_add _

/-- What an occurrence adds to the counters, to the histograms and to the records
that the pool ever admitted. -/
structure Intake.Adds (guard : Guard) (occurrence : Occurrence) (amount : Counter → Nat)
    (intake later : Intake) :
    Prop where
  counted : ∀ counter, later.metrics.get counter
    = intake.metrics.get counter + UInt64.ofNat (amount counter)
  batches : amount .batches = occurrence.isBatch.toNat
  outcomes : amount .accepted + amount (.rejected .codec) + amount (.rejected .validation)
    + amount (.rejected .capacity) = occurrence.isBatch.toNat
  readable : occurrence.rowCount?.toList.length + amount (.rejected .codec)
    = occurrence.isBatch.toNat
  framing : amount (.rejected .framing) = occurrence.isOverlongBatch.toNat
  auth : amount (.rejected .auth) = (occurrence.isRefusedHandshake guard).toNat
  rows : amount .rows = occurrence.rowCount?.getD 0
  divided : amount .admittedRows + amount .refusedRows = occurrence.rowCount?.getD 0
  admitted : later.pool.admittedTotal = intake.pool.admittedTotal + amount .admittedRows
  batchSize : later.metrics.batchSize
    = (occurrence.rowCount?.toList.map Binary64.ofNat).foldl
      Histogram.observe intake.metrics.batchSize
  batchLatency : later.metrics.batchLatency
    = occurrence.seconds?.toList.foldl Histogram.observe intake.metrics.batchLatency

namespace Intake

variable {guard : Guard}

/-- A payload adds what its acknowledgment tells, to the counters, to the
histograms and to the pool. -/
theorem adds_batch [Diagnostics] (intake : Intake) (payload : Bytes) (elapsed : Elapsed) :
    Adds guard (.batch payload elapsed)
    (share (Examined.ofPayload payload).rowCount? (intake.handle payload elapsed).1)
      intake (intake.handle payload elapsed).2 := by
  have weighs := (Examined.ofPayload payload).offer_weighs intake.pool
  have same := Examined.rowCount?_ofPayload payload elapsed
  exact {
    counted := intake.metrics.get_countBatch _ _ elapsed
    batches := rfl
    outcomes := weighs.outcome
    readable := by rw [← same]; exact weighs.unreadable
    framing := weighs.framing
    auth := weighs.auth
    rows := by rw [← same]; rfl
    divided := by rw [← same]; exact Metrics.share_rows _ _
    admitted := weighs.admitted
    batchSize := by rw [← same]; exact intake.metrics.batchSize_countBatch _ _ elapsed
    batchLatency := intake.metrics.batchLatency_countBatch _ _ elapsed }

/-- A rejection that concerns no batch adds to the counter of its kind alone. -/
theorem adds_countRejection (intake : Intake) {occurrence : Occurrence} {kind : RejectionKind}
    (other : occurrence.isBatch = false) (apart : kind = .framing ∨ kind = .auth)
    (framing : occurrence.isOverlongBatch = decide (kind = .framing))
    (auth : occurrence.isRefusedHandshake guard = decide (kind = .auth)) :
    Adds guard occurrence (fun counter => if .rejected kind = counter then 1 else 0) intake
      (intake.countRejection kind) := by
  obtain ⟨unread, untimed⟩ := rowless_of_not_isBatch other
  rcases apart with rfl | rfl <;>
    constructor <;> simp [countRejection, Metrics.get_increment, apply_ite UInt64.ofNat, *]

/-- Where nothing is counted and the pool takes nothing, there was no batch and no rejection. -/
theorem adds_nothing {intake later : Intake} {occurrence : Occurrence}
    (metrics : later.metrics = intake.metrics)
    (pool : later.pool.admittedTotal = intake.pool.admittedTotal)
    (other : occurrence.isBatch = false)
    (framing : occurrence.isOverlongBatch = false)
    (auth : occurrence.isRefusedHandshake guard = false) :
    Adds guard occurrence (fun _ => 0) intake later := by
  obtain ⟨unread, untimed⟩ := rowless_of_not_isBatch other
  constructor <;> simp [*]

/-- Whatever the intake of a server meets, what it adds balances, by
one case for each occurrence. -/
theorem exists_adds [Diagnostics] (server : Server) (intake : Intake) (occurrence : Occurrence) :
    ∃ amount, Adds server.guard occurrence amount intake (intake.meet server occurrence) := by
  cases occurrence with
  | batch payload elapsed => exact ⟨_, adds_batch intake payload elapsed⟩
  | overlongBatch size => exact ⟨_, adds_countRejection intake rfl (.inl rfl) rfl rfl⟩
  | overlongRequest size => exact ⟨_, adds_countRejection intake rfl (.inr rfl) rfl rfl⟩
  | drain limit => exact ⟨_, adds_nothing rfl rfl rfl rfl rfl⟩
  | clear => exact ⟨_, adds_nothing rfl rfl rfl rfl rfl⟩
  | request message =>
    rw [meet, Server.authenticate]
    by_cases success : (server.guard.handshake message).success = true
    · rw [if_pos success]
      exact ⟨_, adds_nothing rfl rfl rfl rfl (by rw [isRefusedHandshake, success]; rfl)⟩
    · rw [if_neg success]
      exact ⟨_, adds_countRejection intake rfl (.inr rfl) rfl
        (by rw [isRefusedHandshake]; simp [success])⟩

end Intake

end Steps

section Runs

open Occurrence

/-- The counters of an intake agree with the occurrences that it met. -/
structure Intake.Accounts (guard : Guard) (occurrences : List Occurrence)
    (intake : Intake) : Prop where
  batches : intake.total .batches = occurrences.countP isBatch
  outcomes : intake.total .accepted + intake.total (.rejected .codec)
    + intake.total (.rejected .validation)
    + intake.total (.rejected .capacity) = occurrences.countP isBatch
  readable : (occurrences.filterMap rowCount?).length + intake.total (.rejected .codec)
    = occurrences.countP isBatch
  framing : intake.total (.rejected .framing) = occurrences.countP isOverlongBatch
  auth : intake.total (.rejected .auth) = occurrences.countP (isRefusedHandshake guard)
  rows : intake.total .rows = (occurrences.filterMap rowCount?).sum
  divided : intake.total .admittedRows + intake.total .refusedRows
    = (occurrences.filterMap rowCount?).sum
  admitted : intake.pool.admittedTotal = intake.total .admittedRows
  timed : (occurrences.filterMap seconds?).length = occurrences.countP isBatch
  batchSize : intake.metrics.batchSize
    = .ofObservations Metrics.sizeBounds ((occurrences.filterMap rowCount?).map Binary64.ofNat)
  batchLatency : intake.metrics.batchLatency
    = .ofObservations Metrics.latencyBounds (occurrences.filterMap seconds?)

namespace Intake

variable {guard : Guard} {front : List Occurrence} {occurrence : Occurrence} {intake later : Intake}

/-- A new intake met nothing, so all its accounts are zero. -/
theorem accounts_create {capacity : Nat} (created : create capacity = .ok intake) :
    Accounts guard [] intake := by
  rw [create, Pool.create] at created
  split at created
  · cases created
  · cases created
    constructor <;> rfl

/-- Every occurrence adds to the counters what makes them agree again. None of them wraps around,
because none is greater than the number of occurrences or of rows that it counts. -/
theorem Accounts.step (accounts : Accounts guard front intake) {amount : Counter → Nat}
    (adds : Adds guard occurrence amount intake later) (few : Few guard (front ++ [occurrence])) :
    Accounts guard (front ++ [occurrence]) later := by
  have counted (property : Occurrence → Bool) : (front ++ [occurrence]).countP property
      = front.countP property + (property occurrence).toNat := by
    rw [List.countP_append, List.countP_singleton]
    cases property occurrence <;> rfl
  have gathered {α : Type} (read : Occurrence → Option α) : (front ++ [occurrence]).filterMap read
      = front.filterMap read ++ (read occurrence).toList := by
    rw [List.filterMap_append]
    cases found : read occurrence <;> simp [found]
  have rows : ((front ++ [occurrence]).filterMap rowCount?).sum
      = (front.filterMap rowCount?).sum + occurrence.rowCount?.getD 0 := by
    rw [gathered, List.sum_append]
    cases occurrence.rowCount? <;> rfl
  obtain ⟨fewBatches, fewOverlong, fewRefused, fewRows⟩ := few
  rw [counted] at fewBatches fewOverlong fewRefused
  rw [rows] at fewRows
  have grown (counter : Counter) (room : intake.total counter + amount counter < UInt64.size) :=
    total_of_get (adds.counted counter) room
  have most : 2 ^ 53 < UInt64.size := by decide
  obtain ⟨batches, outcomes, readable, framing, auth, rowsTotal,
    divided, admitted, timed, batchSize, batchLatency⟩ :=
    accounts
  obtain ⟨-, batches', outcomes', readable', framing', auth',
    rows', divided', admitted', batchSize',
    batchLatency'⟩ := adds
  constructor
  case batches => rw [counted, grown _ (by omega)]; omega
  case outcomes =>
    rw [counted, grown .accepted (by omega), grown (.rejected .codec) (by omega),
      grown (.rejected .validation) (by omega), grown (.rejected .capacity) (by omega)]
    omega
  case readable =>
    rw [counted, gathered, List.length_append, grown _ (by omega)]
    omega
  case framing => rw [counted, grown _ (by omega)]; omega
  case auth => rw [counted, grown _ (by omega)]; omega
  case rows => rw [rows, grown _ (by omega)]; omega
  case divided =>
    rw [rows, grown .admittedRows (by omega), grown .refusedRows (by omega)]
    omega
  case admitted => rw [admitted', grown _ (by omega), admitted]
  case timed =>
    rw [counted, gathered, List.length_append, timed, length_seconds?]
  case batchSize =>
    rw [batchSize', batchSize, gathered, List.map_append, Histogram.ofObservations_append]
  case batchLatency =>
    rw [batchLatency', batchLatency, gathered, Histogram.ofObservations_append]

/-- Accounts agree after any run that begins with a new intake. The induction
adds occurrences at the end. -/
theorem accounts_meetAll [Diagnostics] {server : Server} {capacity : Nat} {intake : Intake}
    (created : create capacity = .ok intake)
    (occurrences : List Occurrence) (few : Few server.guard occurrences) :
    Accounts server.guard occurrences (intake.meetAll server occurrences) := by
  induction occurrences using List.reverseRecOn with
  | nil => exact accounts_create created
  | append_singleton front occurrence inductionHypothesis =>
    obtain ⟨amount, adds⟩ := exists_adds server (intake.meetAll server front) occurrence
    rw [meetAll, List.foldl_append]
    exact (inductionHypothesis few.of_append).step adds few

/-- What an intake counted of some occurrences balances. -/
structure Balanced (guard : Guard) (occurrences : List Occurrence) (intake : Intake) : Prop where
  received : intake.total .batches = occurrences.countP isBatch
  /-- Every payload has one outcome. -/
  outcomes : intake.total .batches = intake.total .accepted + intake.total (.rejected .codec)
    + intake.total (.rejected .validation) + intake.total (.rejected .capacity)
  framing : intake.total (.rejected .framing) = occurrences.countP isOverlongBatch
  auth : intake.total (.rejected .auth) = occurrences.countP (isRefusedHandshake guard)
  /-- Every row that could be read was admitted or turned down. -/
  rows : intake.total .rows = intake.total .admittedRows + intake.total .refusedRows
  counted : intake.total .rows = (occurrences.filterMap rowCount?).sum
  summed : intake.metrics.batchSize.sum.exact = intake.total .rows
  admitted : intake.total .admittedRows = intake.pool.admittedTotal
  sized : intake.metrics.batchSize.count.toNat = intake.total .batches
    - intake.total (.rejected .codec)
  timed : intake.metrics.batchLatency.count.toNat = intake.total .batches
  /-- Each bucket holds the batches of at most so many rows. -/
  buckets : intake.metrics.batchSize.buckets.map (fun bucket => (bucket.bound, bucket.count.toNat))
    = [1, 5, 10, 25, 50, 100, 250, 500, 1000].map fun bound =>
      (Binary64.ofNat bound, (occurrences.filterMap rowCount?).countP (· ≤ bound))
  increasing :
      (intake.metrics.batchSize.buckets.map fun bucket => bucket.count.toNat).Pairwise (· ≤ ·)
  within : ∀ bucket ∈ intake.metrics.batchSize.buckets,
    bucket.count.toNat ≤ intake.metrics.batchSize.count.toNat

/-- The buckets of the histogram of batch sizes, told by the sizes themselves. -/
theorem Accounts.buckets {guard : Guard} {occurrences : List Occurrence} {intake : Intake}
    (accounts : Accounts guard occurrences intake) (few : Few guard occurrences) :
    intake.metrics.batchSize.buckets.map (fun bucket => (bucket.bound, bucket.count.toNat))
      = [1, 5, 10, 25, 50, 100, 250, 500, 1000].map fun bound =>
        (Binary64.ofNat bound, (occurrences.filterMap rowCount?).countP (· ≤ bound)) := by
  have small : ∀ bound ∈ [1, 5, 10, 25, 50, 100, 250, 500, 1000], bound ≤ 2 ^ 53 := by decide
  rw [accounts.batchSize, Histogram.buckets_ofObservations, Metrics.sizeBounds, List.map_map,
    List.map_map]
  refine List.map_congr_left fun bound among => Prod.ext rfl ?_
  have same : (occurrences.filterMap rowCount?).countP
        ((fun value => value.atMost (Binary64.ofNat bound)) ∘ Binary64.ofNat)
      = (occurrences.filterMap rowCount?).countP (· ≤ bound) := by
    refine List.countP_congr fun rows held => ?_
    have least : rows ≤ (occurrences.filterMap rowCount?).sum := List.le_sum_of_mem held
    rw [Function.comp_apply,
      Binary64.atMost_ofNat (Nat.le_trans least (Nat.le_of_lt few.rows)) (small bound among)]
  have most := List.countP_le_length (p := (· ≤ bound)) (l := occurrences.filterMap rowCount?)
  have readable := accounts.readable
  have received := few.batches
  simp only [Function.comp_apply, List.countP_map, same]
  exact UInt64.toNat_ofNat_of_lt' (by omega)

/-- Metrics balance after every run that begins with a new intake. Each occurrence keeps the
accounts of the run before it, and the equations are read off the accounts; that nothing wraps
comes from the few occurrences. -/
theorem meetAll_balances [Diagnostics] (server : Server) (capacity : Nat) (intake : Intake)
    (created : create capacity = .ok intake)
    (occurrences : List Occurrence) (few : Few server.guard occurrences) :
    Balanced server.guard occurrences (intake.meetAll server occurrences) := by
  have accounts := accounts_meetAll created occurrences few
  -- All that is left to know of the run is that its counters agree.
  obtain ⟨later, same⟩ : ∃ later, later = intake.meetAll server occurrences := ⟨_, rfl⟩
  rw [← same] at accounts ⊢
  have buckets := accounts.buckets few
  have received := few.batches
  have readable := accounts.readable
  have count : later.metrics.batchSize.count.toNat = (occurrences.filterMap rowCount?).length := by
    rw [accounts.batchSize, Histogram.count_ofObservations, List.length_map]
    exact UInt64.toNat_ofNat_of_lt' (by omega)
  constructor
  case received => exact accounts.batches
  case outcomes => rw [accounts.batches, accounts.outcomes]
  case framing => exact accounts.framing
  case auth => exact accounts.auth
  case rows => rw [accounts.rows, accounts.divided]
  case counted => exact accounts.rows
  case summed =>
    rw [accounts.batchSize, Histogram.sum_ofObservations _ _ (Nat.le_of_lt few.rows),
      Binary64.exact_ofNat (Nat.le_of_lt few.rows), accounts.rows]
  case admitted => exact accounts.admitted.symm
  case sized =>
    rw [count, accounts.batches]
    omega
  case timed =>
    rw [accounts.batchLatency, Histogram.count_ofObservations, accounts.timed, accounts.batches]
    exact UInt64.toNat_ofNat_of_lt' received
  case buckets => exact buckets
  case increasing =>
    have counts := congrArg (List.map Prod.snd) buckets
    rw [List.map_map, List.map_map] at counts
    refine Eq.mpr (congrArg (List.Pairwise (· ≤ ·)) counts) (List.pairwise_map.mpr ?_)
    have ordered : [1, 5, 10, 25, 50, 100, 250, 500, 1000].Pairwise (· ≤ ·) := by decide
    refine ordered.imp fun {lower upper} below => List.countP_mono_left fun rows _ atMost => ?_
    exact decide_eq_true (Nat.le_trans (of_decide_eq_true atMost) below)
  case within =>
    intro bucket among
    have listed :=
      List.mem_map_of_mem (f := fun bucket : Bucket => (bucket.bound, bucket.count.toNat)) among
    rw [buckets] at listed
    obtain ⟨bound, -, same⟩ := List.mem_map.mp listed
    rw [count, ← (Prod.mk.inj same).2]
    exact List.countP_le_length

attribute [local instance] Diagnostics.plain in
/-- A server with room for one record turns down two handshakes, admits a batch of one
record, has no room for it again until the pool is drained, and meets a payload that is no
batch and a frame that is too long. -/
theorem meetAll_balances_crowded : ∃ intake later occurrences, create 1 = .ok intake ∧
    Balanced ⟨some "key"⟩ occurrences later ∧ later.total .batches = 4 ∧
    later.total .admittedRows = 2 ∧ later.total .refusedRows = 1 ∧
    later.total (.rejected .auth) = 2 ∧ later.total (.rejected .framing) = 1 := by
  obtain ⟨occurrences, same⟩ : ∃ occurrences : List Occurrence, occurrences =
      [.request [], .overlongRequest 5000, .batch Concurrent.leastFrame ⟨0, 20⟩,
        .batch Concurrent.leastFrame ⟨0, 30⟩,
        .drain 1, .batch Concurrent.leastFrame ⟨1, 0⟩, .batch [] ⟨0, 5⟩,
          .overlongBatch 1001, .clear] := ⟨_, rfl⟩
  have few : Few ⟨some "key"⟩ occurrences := by
    rw [same]
    constructor <;> decide +kernel
  have balanced :=
    meetAll_balances ⟨⟨some "key"⟩, 1000⟩ 1 ⟨⟨1, [], 1, 0, 0⟩, .fresh⟩ rfl occurrences few
  refine ⟨_, _, occurrences, rfl, balanced, ?_, ?_⟩
  · rw [balanced.received, same]
    rfl
  · rw [same]
    decide +kernel

end Intake

namespace Server

/-- Answering a message is an occurrence, a request or a batch according to the phase. -/
theorem exists_meet_accept [Diagnostics] (server : Server) (phase : Phase) (message : Bytes)
    (intake : Intake) (elapsed : Elapsed) :
    ∃ occurrence, (server.accept phase message intake elapsed).intake
      = intake.meet server occurrence := by
  cases phase with
  | authenticating => exact ⟨.request message, rfl⟩
  | serving => exact ⟨.batch message elapsed, rfl⟩
  | closed => exact ⟨.batch message elapsed, rfl⟩

/-- Turning a message down for its length is an occurrence as well. -/
theorem exists_meet_refuse [Diagnostics] (server : Server) (phase : Phase) (size : Nat)
    (intake : Intake) :
    ∃ occurrence, (server.refuse phase size intake).intake = intake.meet server occurrence := by
  cases phase with
  | authenticating => exact ⟨.overlongRequest size, rfl⟩
  | serving => exact ⟨.overlongBatch size, rfl⟩
  | closed => exact ⟨.overlongBatch size, rfl⟩

/-- What a connection does to the intake of its server is a run of
occurrences, whatever its peer sends. -/
theorem exists_meetAll_serveFrom [Diagnostics] (server : Server) (clock : Nat → Elapsed)
    (turn : Nat) (phase : Phase)
    (inflow : Inflow) (intake : Intake) :
    ∃ occurrences, (server.serveFrom clock turn phase inflow intake).intake
      = intake.meetAll server occurrences := by
  induction length :
      inflow.bytes.length using Nat.strongRecOn generalizing turn phase inflow intake with
  | ind count inductionHypothesis =>
    by_cases active : phase = .closed
    · exact ⟨[], by rw [serveFrom, if_pos active]; rfl⟩
    · rw [serveFrom_eq active]
      rcases header : inflow.readLength with ⟨fault | _ | size, inner⟩
      · exact ⟨[], rfl⟩
      · exact ⟨[], rfl⟩
      · dsimp only
        split
        · obtain ⟨occurrence, met⟩ := server.exists_meet_refuse phase size intake
          exact ⟨[occurrence], met⟩
        · rcases body : inner.readPayload size (server.limitIn phase) with ⟨fault | message, later⟩
          · exact ⟨[], rfl⟩
          · have fewer : later.bytes.length < count := length ▸ Inflow.length_bytes_lt header body
            obtain ⟨occurrence, met⟩ := server.exists_meet_accept phase message intake (clock turn)
            dsimp only
            split
            · exact ⟨[occurrence], met⟩
            · obtain ⟨rest, same⟩ := inductionHypothesis _ fewer (turn + 1)
                (server.accept phase message intake (clock turn)).phase later
                (server.accept phase message intake (clock turn)).intake rfl
              refine ⟨occurrence :: rest, ?_⟩
              rw [Intake.meetAll, List.foldl_cons, ← met]
              exact same

end Server

end Runs

end LedgerIntake
