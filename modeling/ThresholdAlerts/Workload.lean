import ThresholdAlerts.Ingest.Dispatcher
/-! A synthetic workload that measures the engine: hosts report metrics, each metric has some rules, and
samples are drawn by a shift-register generator of random words. The samples are evaluated one after
the other and then once more by a dispatcher. -/
namespace ThresholdAlerts.Workload

def hosts : List String :=
  ["web-1", "web-2", "web-3", "db-1", "db-2", "cache-1", "api-1", "api-2"]

def metrics : List String :=
  ["cpu_percent", "memory_percent", "disk_percent", "p99_latency_ms"]

def operators : List Operator :=
  [.gt, .gte, .lt, .lte]

def keys : List String :=
  hosts.flatMap fun host => metrics.map fun metric => host ++ "." ++ metric

def nextWord (s : UInt64) : UInt64 :=
  let s := s ^^^ (s <<< 13)
  let s := s ^^^ (s >>> 7)
  s ^^^ (s <<< 17)

def seed : UInt64 := 12345

def draw (n : Nat) (s : UInt64) : UInt64 × Nat :=
  let s := nextWord s
  (s, s.toNat % n)

/-- The `i`-th rule of a key, drawn at random. -/
def rule (key : String) (i : Nat) (s : UInt64) : UInt64 × Rule :=
  let (s, severity) := draw 3 s
  let (s, operator) := draw operators.length s
  let (s, threshold) := draw 100 s
  let (s, more) := draw 3 s
  (s, {
    id := key ++ "-" ++ toString i
    name := key ++ " rule " ++ toString i
    metricKey := key
    operator := operators.getD operator .gt
    threshold := some (Float.ofNat threshold)
    severity := [Severity.info, .warning].getD severity .critical
    required := (1 + more).toUInt32 })

/-- Rules for pairs of a key and a number. -/
def rulesOf : List (String × Nat) → UInt64 → UInt64 × List Rule
  | [], s => (s, [])
  | (key, i) :: rest, s =>
    let (s, r) := rule key i s
    let (s, others) := rulesOf rest s
    (s, r :: others)

def rules (perKey : Nat) (s : UInt64) : UInt64 × List Rule :=
  rulesOf (keys.flatMap fun key => (List.range perKey).map fun i => (key, i)) s

/-- Samples drawn at random, in front of those in `before` reversed. -/
def samplesFrom (keys : Array String) (time : Timestamp) : Nat → List Sample → UInt64 → List Sample
  | 0, before, _ => before.reverse
  | n + 1, before, s =>
    let (s, key) := draw keys.size s
    let (s, value) := draw 1000 s
    let sample := { metricKey := keys.getD key "", value := Float.ofNat value / 10, time }
    samplesFrom keys time n (sample :: before) s

def samples (count : Nat) (time : Timestamp) (s : UInt64) : List Sample :=
  samplesFrom keys.toArray time count [] s

structure Size where
  samples : Nat := 100000
  rulesPerKey : Nat := 4
  workers : Nat
deriving Repr

/-- The size that arguments ask for; one that is missing or no number leaves the usual size. -/
def Size.ofArgs (args : List String) (cpus : Nat) : Size :=
  let arg (i usual : Nat) := ((args[i]?).bind (Config.readNumber? (Nat.pow 2 64))).getD usual
  { samples := arg 0 100000, rulesPerKey := arg 1 4, workers := arg 2 cpus }

def prepare (rules : List Rule) (calendar : Timestamp) (ids : Nat → AlertId) (jitter : Nat → Nat) :
    World :=
  let w := World.fresh { workers := 1 } { contents := .ofList rules } calendar ids jitter
  (w.run refresh).1

/-- Evaluates samples one after the other and counts their events. -/
def direct : List Sample → World → Nat → World × Nat
  | [], w, events => (w, events)
  | s :: rest, w, events =>
    let (w, new) := w.sample s.metricKey s.value s.time
    direct rest w (events + new.length)

/-- Evaluates samples through a dispatcher. -/
def dispatched (samples : List Sample) (workers : Nat) (w : World) : World × DispatchSummary :=
  let d := Dispatcher.make workers Dispatcher.usualCapacity
  let (w, d) := d.sendAll samples w
  let (w, _, summary) := d.shutdown w
  (w, summary)

def totals (w : World) : List (String × Nat) :=
  let (w, health) := w.run health
  [("Rule evaluations", health.stats.ruleEvaluations),
    ("Alerts opened", health.stats.alertsOpened),
    ("Alerts resolved", health.stats.alertsResolved),
    ("Open alerts", health.summary.openAlerts),
    ("Stored alerts", w.sink.store.size)]

end ThresholdAlerts.Workload
