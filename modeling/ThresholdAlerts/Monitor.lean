import ThresholdAlerts.Ingest.Dispatcher
import ThresholdAlerts.Ingest.Reader
import ThresholdAlerts.Text.Quoted
import ThresholdAlerts.Json.Writer
import ThresholdAlerts.Wire.Health
/-! The monitor: it recovers, takes in samples line by line, looks after the rules and the backlog as
time passes, and reports at the end of its input. -/
namespace ThresholdAlerts

inductive MonitorError where
  | config (cause : ConfigError)
  | noRulesFile
  | engine (cause : EngineError)
  | ingest (cause : IngestError)
deriving Repr

namespace MonitorError

def ofSource : SourceError → String
  | .unavailable text => "Unavailable(" ++ Text.quoted text ++ ")"
  | .io text => "Io(" ++ Text.quoted text ++ ")"
  | .parse text => "Parse(" ++ Text.quoted text ++ ")"

def ofIngest : IngestError → String
  | .io text => "Io(" ++ Text.quoted text ++ ")"
  | .malformed line reason =>
    "Parse \x7b line: " ++ toString line ++ ", reason: " ++ Text.quoted reason ++ " \x7d"
  | .workerStopped worker => "WorkerStopped(" ++ toString worker ++ ")"

def message : MonitorError → String
  | .config cause =>
    "Invalid \x7b name: " ++ Text.quoted cause.setting ++ ", reason: " ++ Text.quoted cause.reason
      ++ " \x7d"
  | .noRulesFile => Text.quoted "VIGIL_RULES_FILE must point to a JSON rules file"
  | .engine (.ruleStore cause) => "RuleStore(" ++ ofSource cause ++ ")"
  | .engine (.alertRepository cause) => "AlertRepository(" ++ Text.quoted cause.message ++ ")"
  | .ingest cause => ofIngest cause

end MonitorError

structure Monitor where
  world : World
  dispatcher : Dispatcher
  /-- The bytes of the line that is not at its end yet, in reverse order. -/
  line : List UInt8 := []
  lineNumber : Nat := 0
  /-- Whether nothing more is read, though more may come. -/
  stopped : Bool := false
  /-- Why a sample was not taken. -/
  refused : Option IngestError := none
  refreshAt : Duration
  retryAt : Duration
  refreshEvery : Duration
  retryEvery : Duration

namespace Monitor

/-- The rules file of valid settings. -/
def rulesFile (c : Config) : Except MonitorError String :=
  match c.validate with
  | .error e => .error (.config e)
  | .ok _ =>
    match c.rulesFile with
    | none => .error .noRulesFile
    | some path => .ok path

def start (c : Config) (path : String) (contents : FileContents) (calendar : Timestamp)
    (ids : Nat → AlertId) (jitter : Nat → Nat) : Except MonitorError Monitor :=
  let w := World.fresh c { contents := .file path contents } calendar ids jitter
  match w.run recover with
  | (_, .error e) => .error (.engine e)
  | (w, .ok _) => .ok {
      world := w
      dispatcher := Dispatcher.make c.workers Dispatcher.usualCapacity
      refreshAt := c.refreshInterval
      retryAt := c.retryTick
      refreshEvery := c.refreshInterval
      retryEvery := c.retryTick }

/-- Takes one item of the input. A malformed line is skipped. -/
def take (m : Monitor) : Except IngestError Sample → Monitor
  | .ok sample =>
    match m.dispatcher.send sample m.world with
    | .ok (world, dispatcher) => { m with world, dispatcher }
    | .error e => { m with stopped := true, refused := some e }
  | .error e => { m with stopped := e.isFatal }

def takeLine (m : Monitor) (line : List UInt8) : Monitor :=
  if m.stopped then m
  else
    let (world, now) := m.world.readCalendar
    let (reader, item) := SampleReader.next { lines := [line], lineNumber := m.lineNumber } now
    let m := { m with world, lineNumber := reader.lineNumber }
    match item with
    | some item => m.take item
    | none => m

/-- Takes in bytes, and has all samples evaluated that came with them. -/
def feed (m : Monitor) (bytes : List UInt8) : Monitor :=
  let (lines, line) := takeLines m.line bytes
  let m := lines.foldl takeLine { m with line }
  let (world, dispatcher) := m.dispatcher.drain m.world
  { m with world, dispatcher }

def wantsRules (m : Monitor) (clock : Duration) : Bool :=
  m.refreshAt ≤ clock

def refreshIfDue (m : Monitor) (clock : Duration) : Monitor :=
  if m.refreshAt ≤ clock then
    { m with world := (m.world.run refresh).1, refreshAt := clock + m.refreshEvery }
  else m

def retryIfDue (m : Monitor) (clock : Duration) : Monitor :=
  if m.retryAt ≤ clock then
    { m with world := (m.world.run retry).1, retryAt := clock + m.retryEvery }
  else m

def tick (m : Monitor) (clock : Duration) (calendar : Timestamp) : Monitor :=
  let clock := max m.world.clock clock
  ({ m with world := { m.world with clock, calendar } }.refreshIfDue clock).retryIfDue clock

def withRules (m : Monitor) (contents : FileContents) : Monitor :=
  { m with world := m.world.editSource (.setFile contents) }

/-- What comes to a monitor from outside. -/
inductive Signal where
  | time (clock : Duration) (calendar : Timestamp)
  /-- The rules file was looked at. -/
  | rules (contents : FileContents)
  | bytes (bytes : List UInt8)

/-- What comes of the input. -/
def Signal.input : Signal → List UInt8
  | .bytes all => all
  | _ => []

def handle (m : Monitor) : Signal → Monitor
  | .time clock calendar => m.tick clock calendar
  | .rules contents => m.withRules contents
  | .bytes bytes => m.feed bytes

/-- The input is at its end: the last line counts, the workers finish, and what is undelivered gets one
more attempt. -/
def finish (m : Monitor) : Except MonitorError Monitor :=
  let m := if m.line.isEmpty then m else { m with line := [] }.takeLine m.line.reverse
  match m.refused with
  | some e => .error (.ingest e)
  | none =>
    let (world, dispatcher, _) := m.dispatcher.shutdown m.world
    .ok { m with world := (world.run retry).1, dispatcher }

def openLine (a : Alert) : String :=
  "OPEN [" ++ a.severity.name ++ "] " ++ a.ruleName ++ " (" ++ a.id ++ "): " ++ a.message

/-- The final report: the state of the engine and a line for each open alert. -/
def report (m : Monitor) : EngineHealth × List String :=
  let (w, health) := m.world.run health
  (health, w.sink.store.openAlerts.map openLine)

def lines (m : Monitor) : List String :=
  let (health, openLines) := m.report
  health.toJson.pretty 0 :: openLines

/-- Runs on a whole input. -/
def session (c : Config) (file : String → FileContents) (input : List UInt8) (calendar : Timestamp)
    (ids : Nat → AlertId) (jitter : Nat → Nat) : Except MonitorError Monitor := do
  let path ← rulesFile c
  let m ← start c path (file path) calendar ids jitter
  (m.handle (.bytes input)).finish

end Monitor

end ThresholdAlerts
