import LedgerIntake.Acknowledgment

/-!
# Metrics

Counters of 64 bits that wrap around, and histograms whose buckets are cumulative: an observation
counts in every bucket whose bound it does not exceed. A snapshot is written as JSON, or as text of
one sample a line for a monitoring system.
-/

namespace LedgerIntake

open Json

/-- The observations up to a bound. -/
structure Bucket where
  bound : Binary64
  count : UInt64
deriving DecidableEq

/-- Observations sorted into buckets. -/
structure Histogram where
  buckets : List Bucket
  /-- The sum of all observations, rounded after each of them. -/
  sum : Binary64
  /-- The number of observations. -/
  count : UInt64
deriving DecidableEq

namespace Histogram

/-- A histogram without observations. -/
def ofBounds (bounds : List Binary64) : Histogram :=
  ⟨bounds.map fun bound => ⟨bound, 0⟩, .ofMagnitude false 0, 0⟩

/-- Takes in an observation. What is not a number falls into no bucket. -/
def observe (histogram : Histogram) (value : Binary64) : Histogram where
  buckets := histogram.buckets.map fun bucket =>
    if value.atMost bucket.bound then { bucket with count := bucket.count + 1 } else bucket
  sum := histogram.sum.add value
  count := histogram.count + 1

/-- A number in JSON, where only finite numbers have a text. -/
def numberText (value : Binary64) : String :=
  if value.isFinite then Number.layout.write value else "null"

/-- The histogram as an object; each bucket is a pair of its bound and its count. -/
def toText (histogram : Histogram) : String :=
  object
    [("buckets", brackets (histogram.buckets.map fun bucket =>
        brackets [numberText bucket.bound, bucket.count.toNat.repr])),
     ("sum", numberText histogram.sum), ("count", histogram.count.toNat.repr)]

end Histogram

/-- Time that passed, in whole seconds and nanoseconds. -/
structure Elapsed where
  seconds : UInt64
  nanoseconds : UInt32
deriving DecidableEq

/-- The time in seconds: both parts are rounded, and so are their quotient and their sum. -/
def Elapsed.inSeconds (elapsed : Elapsed) : Binary64 :=
  (Binary64.ofNat elapsed.seconds.toNat).add
    ((Binary64.ofNat elapsed.nanoseconds.toNat).div (.ofNat 1000000000))

/-- What is counted. -/
inductive Counter where
  /-- Payloads received, whatever became of them. -/
  | batches
  /-- Batches of which every row was admitted. -/
  | accepted
  /-- Batches and connections turned down, for each kind of rejection. -/
  | rejected (kind : RejectionKind)
  /-- Rows of batches that could be read. -/
  | rows
  /-- Rows that were admitted. -/
  | admittedRows
  /-- Rows of batches that could be read and were turned down. -/
  | refusedRows
deriving DecidableEq

/-- A count for each kind of rejection. -/
structure RejectionCounts where
  codec : UInt64
  validation : UInt64
  capacity : UInt64
  framing : UInt64
  auth : UInt64
deriving DecidableEq

namespace RejectionCounts

/-- The count of a kind. -/
def get (counts : RejectionCounts) : RejectionKind → UInt64
  | .codec => counts.codec
  | .validation => counts.validation
  | .capacity => counts.capacity
  | .framing => counts.framing
  | .auth => counts.auth

/-- Adds to the count of a kind. -/
def add (counts : RejectionCounts) (amount : UInt64) : RejectionKind → RejectionCounts
  | .codec => { counts with codec := counts.codec + amount }
  | .validation => { counts with validation := counts.validation + amount }
  | .capacity => { counts with capacity := counts.capacity + amount }
  | .framing => { counts with framing := counts.framing + amount }
  | .auth => { counts with auth := counts.auth + amount }

end RejectionCounts

/-- What a server counts and observes. -/
structure Metrics where
  batches : UInt64
  accepted : UInt64
  rejected : RejectionCounts
  rows : UInt64
  admittedRows : UInt64
  refusedRows : UInt64
  /-- Rows of each batch that could be read. -/
  batchSize : Histogram
  /-- Seconds spent on each payload. -/
  batchLatency : Histogram
deriving DecidableEq

namespace Metrics

/-- The bounds for numbers of rows. -/
def sizeBounds : List Binary64 := [1, 5, 10, 25, 50, 100, 250, 500, 1000].map Binary64.ofNat

/-- The bounds for seconds, given in hundredths. -/
def latencyBounds : List Binary64 :=
  [1, 5, 10, 25, 50, 100, 250, 500, 1000].map fun hundredths =>
    Binary64.ofFraction false hundredths 100

/-- Nothing counted, nothing observed. -/
def fresh : Metrics :=
  ⟨0, 0, ⟨0, 0, 0, 0, 0⟩, 0, 0, 0, .ofBounds sizeBounds, .ofBounds latencyBounds⟩

/-- The count of a counter. -/
def get (metrics : Metrics) : Counter → UInt64
  | .batches => metrics.batches
  | .accepted => metrics.accepted
  | .rejected kind => metrics.rejected.get kind
  | .rows => metrics.rows
  | .admittedRows => metrics.admittedRows
  | .refusedRows => metrics.refusedRows

/-- Adds to a counter, which wraps around at 2⁶⁴. -/
def add (metrics : Metrics) (amount : UInt64) : Counter → Metrics
  | .batches => { metrics with batches := metrics.batches + amount }
  | .accepted => { metrics with accepted := metrics.accepted + amount }
  | .rejected kind => { metrics with rejected := metrics.rejected.add amount kind }
  | .rows => { metrics with rows := metrics.rows + amount }
  | .admittedRows => { metrics with admittedRows := metrics.admittedRows + amount }
  | .refusedRows => { metrics with refusedRows := metrics.refusedRows + amount }

/-- Counts one occurrence. -/
def increment (metrics : Metrics) (counter : Counter) : Metrics := metrics.add 1 counter

/-- Takes in the number of rows of a batch that could be read. -/
def observeSize (metrics : Metrics) (rows : Binary64) : Metrics :=
  { metrics with batchSize := metrics.batchSize.observe rows }

/-- Takes in the time that a payload took. -/
def observeLatency (metrics : Metrics) (elapsed : Elapsed) : Metrics :=
  { metrics with batchLatency := metrics.batchLatency.observe elapsed.inSeconds }

end Metrics

/-- The key of a counter in a snapshot. -/
def Counter.name : Counter → String
  | .batches => "batches_total"
  | .accepted => "batches_accepted"
  | .rejected kind => "rejected_" ++ kind.name
  | .rows => "transactions_total"
  | .admittedRows => "transactions_processed"
  | .refusedRows => "transactions_failed"

/-- All counters, in the order in which they are listed. -/
def Counter.all : List Counter :=
  [.batches, .accepted] ++ RejectionKind.all.map .rejected ++ [.rows, .admittedRows, .refusedRows]

/-- The metrics together with the number of records in the pool at the same moment. -/
structure MetricsSnapshot where
  metrics : Metrics
  poolSize : UInt64
deriving DecidableEq

namespace MetricsSnapshot

/-- The snapshot as an object. -/
def toText (snapshot : MetricsSnapshot) : String :=
  object
    ((Counter.all.map fun counter =>
        (counter.name, (snapshot.metrics.get counter).toNat.repr))
      ++ [("batch_size", snapshot.metrics.batchSize.toText),
        ("batch_latency", snapshot.metrics.batchLatency.toText),
        ("mempool_size", snapshot.poolSize.toNat.repr)])

/-- A line of text. -/
def line (parts : List String) : String := String.join parts ++ "\n"

/-- What stands in front of the samples of one name. -/
def heading (name help kind : String) : String :=
  line ["# HELP ", name, " ", help] ++ line ["# TYPE ", name, " ", kind]

/-- A sample without labels. -/
def sample (name value : String) : String := line [name, " ", value]

/-- A sample with one label. -/
def labelled (name label key value : String) : String :=
  line [name, "\x7b", label, "=\"", key, "\"\x7d ", value]

/-- A counter and the blank line behind it. -/
def counterLines (name help : String) (count : UInt64) : String :=
  heading name help "counter" ++ sample name count.toNat.repr ++ "\n"

/-- A histogram and the blank line behind it. The bucket without a bound holds every observation. -/
def histogramLines (name help : String) (histogram : Histogram) : String :=
  heading name help "histogram"
    ++ String.join (histogram.buckets.map fun bucket =>
      labelled (name ++ "_bucket") "le" (Layout.measurement.write bucket.bound)
        bucket.count.toNat.repr)
    ++ labelled (name ++ "_bucket") "le" "+Inf" histogram.count.toNat.repr
    ++ sample (name ++ "_sum") (Layout.measurement.write histogram.sum)
    ++ sample (name ++ "_count") histogram.count.toNat.repr ++ "\n"

/-- The rejections by kind and the blank line behind them. -/
def rejectionLines (counts : RejectionCounts) : String :=
  let name := "tessera_batches_rejected_total"
  heading name "Batches refused, by reason" "counter"
    ++ String.join (RejectionKind.all.map fun kind =>
      labelled name "kind" kind.name (counts.get kind).toNat.repr) ++ "\n"

/-- The snapshot as lines of samples. -/
def exposition (snapshot : MetricsSnapshot) : String :=
  let metrics := snapshot.metrics
  counterLines "tessera_batches_total" "Batches received" metrics.batches
    ++ counterLines "tessera_batches_accepted_total" "Batches fully admitted" metrics.accepted
    ++ rejectionLines metrics.rejected
    ++ counterLines "tessera_transactions_total" "Rows in decoded batches" metrics.rows
    ++ counterLines "tessera_transactions_processed_total" "Rows admitted to the mempool"
      metrics.admittedRows
    ++ counterLines "tessera_transactions_failed_total" "Rows in refused batches"
      metrics.refusedRows
    ++ histogramLines "tessera_batch_size" "Rows per batch" metrics.batchSize
    ++ histogramLines "tessera_batch_latency_seconds" "Batch handling latency in seconds"
      metrics.batchLatency
    ++ heading "tessera_mempool_size" "Entries held by the mempool" "gauge"
    ++ sample "tessera_mempool_size" snapshot.poolSize.toNat.repr

end MetricsSnapshot

end LedgerIntake
