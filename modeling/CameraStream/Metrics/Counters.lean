import CameraStream.Metrics.Gauge

/-!
# Metrics

What the library counts about its own work. A `Metric` is one series: a name, and the labels that
tell its series apart. `Counters` hold the value of every series that was touched; a series that
never was reads as zero.

Durations are not kept: of a distribution only the number of its samples counts.
-/

namespace CameraStream

/-- Why a buffer went back to the source without reaching the sink. -/
inductive DropReason where
  /-- The frame arrived incomplete and the source asks to drop such frames. -/
  | damaged
  | failed
  | stopped
deriving DecidableEq, Repr

def DropReason.text : DropReason → String
  | .damaged => "damaged"
  | .failed => "failed"
  | .stopped => "stopped"

/-- One series of numbers. -/
inductive Metric where
  /-- Buffers accepted into the queue of a pipeline. -/
  | pushed (pipeline : String)
  /-- Buffers handed to the sink of a pipeline. -/
  | delivered (pipeline : String)
  /-- Buffers of a pipeline that went back without reaching the sink. -/
  | dropped (pipeline : String) (reason : DropReason)
  /-- Negotiations without a result. -/
  | negotiationFailures
  /-- Buffers waiting in a queue. -/
  | queueDepth
  /-- Times taken by a stage, or by the whole work on a buffer. -/
  | stageTime (stage : String)
deriving DecidableEq, Repr

namespace Metric

/-- How the values of a metric are to be read. -/
inductive Shape where
  | counter | gauge | histogram
deriving DecidableEq, Repr

def Shape.text : Shape → String
  | counter => "counter"
  | gauge => "gauge"
  | histogram => "histogram"

def name : Metric → String
  | pushed _ => "camcore_buffers_pushed"
  | delivered _ => "camcore_buffers_delivered"
  | dropped _ _ => "camcore_buffers_dropped"
  | negotiationFailures => "camcore_negotiation_failures"
  | queueDepth => "camcore_queue_depth"
  | stageTime _ => "camcore_stage_time_ns"

def labels : Metric → List (String × String)
  | pushed p => [("pipeline", p)]
  | delivered p => [("pipeline", p)]
  | dropped p r => [("pipeline", p), ("reason", r.text)]
  | stageTime s => [("stage", s)]
  | negotiationFailures | queueDepth => []

/-- The series of the whole work on a buffer in a pipeline. -/
def dispatchTime (pipeline : String) : Metric := stageTime (pipeline ++ ":dispatch")

/-- How a kind of metric is announced. -/
structure Description where
  shape : Shape
  name : String
  unit : String
  text : String
deriving DecidableEq, Repr

/-- Every kind of metric, in the order of announcement. -/
def descriptions : List Description :=
  [⟨.counter, "camcore_buffers_pushed", "count", "Buffers accepted into a pipeline queue"⟩,
    ⟨.counter, "camcore_buffers_delivered", "count", "Buffers handed to a sink"⟩,
    ⟨.counter, "camcore_buffers_dropped", "count",
      "Buffers returned to the source without reaching the sink"⟩,
    ⟨.counter, "camcore_negotiation_failures", "count",
      "Format negotiations that found no usable format"⟩,
    ⟨.gauge, "camcore_queue_depth", "count", "Buffers waiting in a pipeline queue"⟩,
    ⟨.histogram, "camcore_stage_time_ns", "nanoseconds",
      "Time a stage spends on a single buffer"⟩]

end Metric

/-- The values of the series touched so far. -/
structure Counters where
  entries : List (Metric × Nat) := []
deriving DecidableEq, Repr

namespace Counters

/-- The value of a series among entries. -/
def valueIn (m : Metric) : List (Metric × Nat) → Nat
  | [] => 0
  | (m', n) :: rest => if m = m' then n else valueIn m rest

def get (c : Counters) (m : Metric) : Nat := valueIn m c.entries

/-- The entries with the value of one series changed, or with the series added. -/
def update (m : Metric) (f : Nat → Nat) : List (Metric × Nat) → List (Metric × Nat)
  | [] => [(m, f 0)]
  | (m', n) :: rest => if m = m' then (m', f n) :: rest else (m', n) :: update m f rest

def set (c : Counters) (m : Metric) (n : Nat) : Counters := ⟨update m (fun _ => n) c.entries⟩

/-- Shows the number of buffers that wait in a queue. -/
def showDepth (c : Counters) (depth : Nat) : Counters := c.set .queueDepth (gaugeReading depth)

def count (c : Counters) (m : Metric) : Counters := ⟨update m (· + 1) c.entries⟩

theorem valueIn_update (m m' : Metric) (f : Nat → Nat) (xs : List (Metric × Nat)) :
    valueIn m' (update m f xs) = if m' = m then f (valueIn m xs) else valueIn m' xs := by
  induction xs with
  | nil => simp [update, valueIn]
  | cons x xs ih =>
    obtain ⟨k, n⟩ := x
    by_cases hk : m = k
    · subst hk
      by_cases h : m' = m <;> simp [update, valueIn, h]
    · by_cases h : m' = k
      · have h' : m' ≠ m := fun e => hk (e ▸ h)
        rw [if_neg h']
        simp [update, valueIn, hk, h]
      · simp [update, valueIn, hk, h, ih]

theorem get_set (c : Counters) (m m' : Metric) (n : Nat) :
    (c.set m n).get m' = if m' = m then n else c.get m' :=
  valueIn_update m m' _ c.entries

theorem get_count (c : Counters) (m m' : Metric) :
    (c.count m).get m' = if m' = m then c.get m + 1 else c.get m' :=
  valueIn_update m m' _ c.entries

end Counters
end CameraStream
