import Std.Time.DateTime.Timestamp
import ThresholdAlerts.Alert.Identifier
import ThresholdAlerts.Monitor
import ThresholdAlerts.Workload
/-! The command line. Samples come from standard input, one JSON object on a line; the rules are in the
file that `VIGIL_RULES_FILE` names. With `benchmark` as the first argument a synthetic workload is
measured instead, of as many samples, rules for each key and workers as the further arguments say. -/
namespace ThresholdAlerts

def readCalendar : IO Timestamp := do
  let nanos := (← Std.Time.Timestamp.now).toNanosecondsSinceUnixEpoch.val
  return { seconds := nanos / 1000000000, nanos := (nanos % 1000000000).toNat }

def readClock : IO Duration := do
  return { nanos := ← IO.monoNanosNow }

def readSeed : IO UInt64 := do
  return Partition.word (← IO.getRandomBytes 8).toList

def readIds : IO (Nat → AlertId) := do
  return Identifier.nth (← readSeed) (← readSeed)

def readNumbers : IO (Nat → Nat) := do
  let seed ← readSeed
  return fun n => (Identifier.word seed n).toNat

def readFile (path : String) : IO FileContents :=
  try
    return .bytes (← IO.FS.readBinFile path).toList
  catch
    | .noFileOrDirectory .. => return .missing
    | e => return .unreadable (toString e)

def countProcessors : IO Nat :=
  try
    let lines ← IO.FS.lines "/proc/cpuinfo"
    return max 1 (lines.toList.countP (·.startsWith "processor"))
  catch _ => return 1

def readEnv : IO (String → Option String) := do
  let names := ["VIGIL_RULES_FILE", "VIGIL_RULE_REFRESH_SECS", "VIGIL_SINK_TIMEOUT_MS",
    "VIGIL_RETRY_MAX_ATTEMPTS", "VIGIL_RETRY_BASE_MS", "VIGIL_RETRY_MAX_BACKOFF_MS",
    "VIGIL_RETRY_TICK_MS", "VIGIL_WORKERS", "VIGIL_MAX_STALENESS_SECS"]
  let values ← names.mapM fun name => do return (name, ← IO.getEnv name)
  return fun name => (values.lookup name).join

/-- Feeds standard input to a monitor. -/
partial def feedInput (input : IO.FS.Stream) (path : String) (began : Duration) (m : Monitor) :
    IO Monitor := do
  let bytes ← input.read 65536
  let clock : Duration := { nanos := (← readClock).nanos - began.nanos }
  let m ← if m.wantsRules clock then pure (m.handle (.rules (← readFile path))) else pure m
  let m := m.handle (.time clock (← readCalendar))
  if bytes.isEmpty || m.stopped then return m
  else feedInput input path began (m.handle (.bytes bytes.toList))

def fail (e : MonitorError) : IO UInt32 := do
  IO.eprintln ("Error: " ++ e.message)
  return 1

def runMonitor : IO UInt32 := do
  let config := Config.ofEnv (← readEnv) (← countProcessors)
  match Monitor.rulesFile config with
  | .error e => fail e
  | .ok path =>
    let began ← readClock
    match Monitor.start config path (← readFile path) (← readCalendar) (← readIds)
      (← readNumbers) with
    | .error e => fail e
    | .ok m =>
      match (← feedInput (← IO.getStdin) path began m).finish with
      | .error e => fail e
      | .ok m =>
        m.lines.forM fun line => IO.println line
        return 0

/-- Reports how long some samples took and how many events they produced. -/
def reportPhase (samples events : Nat) (began ended : Duration) : IO Unit := do
  let nanos := max 1 (ended.nanos - began.nanos)
  IO.println "done"
  IO.println ("  Samples/sec: " ++ toString (samples * 1000000000 / nanos))
  IO.println ("  Total time:  " ++ Duration.text { nanos })
  IO.println ("  Events:      " ++ toString events)
  IO.println ""

def runWorkload (args : List String) : IO UInt32 := do
  let size := Workload.Size.ofArgs args (← countProcessors)
  let (seed, rules) := Workload.rules size.rulesPerKey Workload.seed
  IO.println "Vigil Benchmark"
  IO.println "==============="
  IO.println ("Metric keys:     " ++ toString Workload.keys.length)
  IO.println ("Rules:           " ++ toString rules.length)
  IO.println ("Samples:         " ++ toString size.samples)
  IO.println ("Workers:         " ++ toString size.workers)
  IO.println ""
  let now ← readCalendar
  let w := Workload.prepare rules now (← readIds) (← readNumbers)
  let samples := Workload.samples size.samples now seed
  IO.print "Benchmarking direct evaluation... "
  let began ← readClock
  let (w, events) := Workload.direct samples w 0
  reportPhase samples.length events began (← readClock)
  IO.print "Benchmarking partitioned dispatch... "
  let began ← readClock
  let (w, summary) := Workload.dispatched samples size.workers w
  reportPhase summary.samples summary.events began (← readClock)
  IO.println "Engine Statistics:"
  (Workload.totals w).forM fun (label, n) =>
    IO.println ("  " ++ (label ++ ":").pushn ' ' (17 - label.length) ++ toString n)
  return 0

end ThresholdAlerts

def main (args : List String) : IO UInt32 :=
  match args with
  | "benchmark" :: rest => ThresholdAlerts.runWorkload rest
  | _ => ThresholdAlerts.runMonitor
