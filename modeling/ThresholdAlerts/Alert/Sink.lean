import ThresholdAlerts.Alert.Store
/-! The sink that alert events are sent to: a store of alert records behind a script. The script says
for each call how long it waits, what it does and how long it holds back its answer, so that every
mix of answers, delays and lost acknowledgements can be played. -/
namespace ThresholdAlerts

inductive Deed where
  | pass
  /-- Does the call and answers this id. -/
  | rename (id : AlertId)
  | fail (error : SinkError)
  /-- Fails because the thing asked for is not there. -/
  | missing
deriving DecidableEq, Repr

/-- One call to the sink: it waits `before`, acts, and answers `after` that. -/
structure Act where
  deed : Deed := .pass
  before : Duration := 0
  after : Duration := 0
deriving DecidableEq, Repr

/-- The acts of the next calls, and the act of every call after those. -/
structure Script where
  queue : List Act := []
  default : Act := {}
deriving DecidableEq, Repr

namespace Script

def next (s : Script) : Script × Act :=
  match s.queue with
  | [] => (s, s.default)
  | act :: rest => ({ s with queue := rest }, act)

def append (s : Script) (acts : List Act) : Script :=
  { s with queue := s.queue ++ acts }

end Script

/-- The alert store and the scripts of the four kinds of calls to it. -/
structure Sink where
  store : AlertStore := {}
  create : Script := {}
  resolve : Script := {}
  findOpen : Script := {}
  findAll : Script := {}
deriving Inhabited

namespace Sink

/-- Carries out `deed` for a call that passes through `call`; `subject` names what the call asks
for. -/
def perform (s : Sink) (deed : Deed) (subject : String)
    (call : AlertStore → AlertStore × Except SinkError α) (renamed : AlertId → α → α) :
    Sink × Except SinkError α :=
  match deed with
  | .fail error => (s, .error error)
  | .missing => (s, .error (.notFound subject))
  | .pass =>
    let (store, answer) := call s.store
    ({ s with store }, answer)
  | .rename id =>
    let (store, answer) := call s.store
    ({ s with store }, answer.map (renamed id))

/-- Takes the act of the call that sends `event`. -/
def startDelivery (s : Sink) (event : Event) : Sink × Act :=
  match event with
  | .opened _ =>
    let (create, act) := s.create.next
    ({ s with create }, act)
  | .resolved .. =>
    let (resolve, act) := s.resolve.next
    ({ s with resolve }, act)

/-- The effect of sending `event`. A record kept under another id than the one it was sent with
counts as delivered. -/
def deliver (s : Sink) (deed : Deed) (event : Event) : Sink × Except SinkError Unit :=
  match event with
  | .opened alert =>
    let (s, answer) := s.perform deed alert.id (·.create alert) fun id _ => id
    (s, answer.map fun _ => ())
  | .resolved id _ time _ => s.perform deed id (·.resolve id time) fun _ u => u

def startFindOpen (s : Sink) : Sink × Act :=
  let (findOpen, act) := s.findOpen.next
  ({ s with findOpen }, act)

def lookUp (s : Sink) (deed : Deed) (rule : RuleId) : Sink × Except SinkError (Option Alert) :=
  s.perform deed rule (fun store => (store, store.findOpen rule)) fun _ found => found

def startFindAll (s : Sink) : Sink × Act :=
  let (findAll, act) := s.findAll.next
  ({ s with findAll }, act)

def listOpen (s : Sink) (deed : Deed) : Sink × Except SinkError (List Alert) :=
  s.perform deed "all" (fun store => (store, store.findAllOpen)) fun _ found => found

end Sink

end ThresholdAlerts
