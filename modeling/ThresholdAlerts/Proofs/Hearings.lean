import ThresholdAlerts.Proofs.Readers
/-! What the source of the rules tells their store. Each fetch brings news, of rules or of a failure, and the news
of all fetches make a log. Main statement: after any uses of a new store, one at a time, its rules, their generation
and its health all tell of that log, and so do the rules that were handed out on the way. -/
namespace ThresholdAlerts

open Prog

/-- What comes of a fetch. -/
abbrev News :=
  Except SourceError (List Rule)

/-! ### Programs that keep what they hear -/

/-- The news in an answer. -/
def Request.news : (r : Request) → r.Answer → List News
  | .fetch, a => [a]
  | _, _ => []

/-- The same program, which also answers the news that it heard, the newest first, before those of `log`. -/
def Prog.heard : Prog T α → List News → Prog T (α × List News)
  | .done a, log => .done (a, log)
  | .get next, log => .get fun w => (next w).heard log
  | .set w next, log => .set w (next.heard log)
  | .ask r next, log => .ask r fun a => (next a).heard (r.news a ++ log)
  | .fork tasks next, log => .fork tasks fun results => (next results).heard log

/-- The same thread, with another answer in the end. -/
def Thread.map (f : α → β) : Thread T C α → Thread T C β
  | .ready p => .ready (f <$> p)
  | .finished a => .finished (f a)
  | .waiting r ticket wait next => .waiting r ticket wait fun a => f <$> next a
  | .joining children line next => .joining children line fun results => f <$> next results

section Heard

variable {outside : World → World → Prop} {w w' : World}

theorem Prog.heard_bind (p : Prog T α) (f : α → Prog T β) (log : List News) :
    (p >>= f).heard log = p.heard log >>= fun r => (f r.1).heard r.2 := by
  change (p.bind f).heard log = (p.heard log).bind _
  induction p generalizing log with
  | done a => rfl
  | get next ih => simp only [bind, heard, ih]
  | set w next ih => simp only [bind, heard, ih]
  | ask r next ih => simp only [bind, heard, ih]
  | fork tasks next ih => simp only [bind, heard, ih]

/-- Whoever forgets the news has the program as it was. -/
theorem Prog.map_fst_heard (p : Prog T α) (log : List News) : Prod.fst <$> p.heard log = p := by
  change (p.heard log).bind (fun r => .done r.1) = p
  induction p generalizing log with
  | done a => rfl
  | get next ih => simp only [bind, heard, ih]
  | set w next ih => simp only [bind, heard, ih]
  | ask r next ih => simp only [bind, heard, ih]
  | fork tasks next ih => simp only [bind, heard, ih]

theorem Prog.advance_map (t : Tasks T C) (f : α → β) (p : Prog T α) (w : World) :
    (f <$> p).advance t w = ((p.advance t w).1, (p.advance t w).2.map f) := by
  change (p.bind fun a => .done (f a)).advance t w = _
  induction p generalizing w with
  | done a => rfl
  | get next ih => exact ih w w
  | set w' next ih => exact ih w'
  | ask r next ih =>
    simp only [bind, advance]
    generalize r.poll _ _ = polled
    obtain ⟨w', a | wait⟩ := polled
    · exact ih a w'
    · rfl
  | fork tasks next ih =>
    simp only [bind, advance]
    generalize t.members.pollGroup _ _ _ = polled
    obtain ⟨w', children, line⟩ := polled
    dsimp only
    cases t.results? children with
    | none => rfl
    | some results => exact ih results w'

theorem Thread.poll_map (t : Tasks T C) (f : α → β) (c : Thread T C α) (w : World) :
    (c.map f).poll t w = ((c.poll t w).1, (c.poll t w).2.map f) := by
  cases c with
  | ready p => exact p.advance_map t f w
  | finished a => rfl
  | waiting r ticket wait next =>
    simp only [map, poll]
    generalize r.poll wait w = polled
    obtain ⟨w', a | wait⟩ := polled
    · exact (next a).advance_map t f w'
    · rfl
  | joining children line next =>
    simp only [map, poll]
    generalize t.members.pollGroup children line w = polled
    obtain ⟨w', children, line⟩ := polled
    dsimp only
    cases t.results? children with
    | none => rfl
    | some results => exact (next results).advance_map t f w'

theorem Thread.result?_map (f : α → β) (c : Thread T C α) : (c.map f).result? = c.result?.map f := by
  cases c <;> rfl

theorem CallThread.Completes.map {c : CallThread α} {a : α} (f : α → β) (completes : c.Completes outside w w' a) :
    CallThread.Completes outside w (Thread.map f c) w' (f a) := by
  induction completes with
  | finished => exact .finished
  | @polled w w₁ w' c a waits change rest ih =>
    have waits : Thread.result? (Thread.map f c) = none := by rw [Thread.result?_map, waits, Option.map_none]
    refine .polled waits change ?_
    rw [poll, Thread.poll_map]
    exact ih

theorem CallThread.Completes.of_map {f : α → β} {c : CallThread α} {b : β}
    (completes : CallThread.Completes outside w (Thread.map f c) w' b) :
    ∃ a, f a = b ∧ c.Completes outside w w' a := by
  generalize mapped : Thread.map f c = d at completes
  induction completes generalizing c with
  | finished =>
    cases c with
    | finished a =>
      obtain rfl := Thread.finished.inj mapped
      exact ⟨a, rfl, .finished⟩
    | _ => cases mapped
  | @polled w w₁ w' d a waits change rest ih =>
    subst mapped
    rw [Thread.result?_map, Option.map_eq_none_iff] at waits
    rw [poll, Thread.poll_map] at ih
    obtain ⟨a, same, rest⟩ := ih rfl
    exact ⟨a, same, .polled waits change rest⟩

theorem Prog.completes_heard (p : Prog Visit α) (log : List News) (a : α) :
    (CallThread.start p w).2.Completes outside (CallThread.start p w).1 w' a ↔
      ∃ log', (CallThread.start (p.heard log) w).2.Completes outside (CallThread.start (p.heard log) w).1 w'
        (a, log') := by
  have same := (p.heard log).advance_map Visit.tasks Prod.fst w
  rw [map_fst_heard] at same
  simp only [CallThread.start, same]
  constructor
  · intro completes
    obtain ⟨⟨_, log'⟩, rfl, heard⟩ := completes.of_map
    exact ⟨log', heard⟩
  · rintro ⟨log', heard⟩
    exact heard.map Prod.fst

theorem CallThread.completes_of_result {c : CallThread α} {a : α} (ends : Thread.result? c = some a) :
    c.Completes outside w w a := by
  rw [eq_finished ends]
  exact .finished

end Heard

/-! ### What a log tells -/

namespace News

/-- The rules that were loaded, the latest first. -/
def loads (log : List News) : List (List Rule) :=
  log.filterMap Except.toOption

/-- The failures since the last fetch that succeeded, the latest first. -/
def failures : List News → List SourceError
  | .error e :: older => e :: failures older
  | _ => []

end News

/-- The rules are the last ones that the log tells of; with none there they are those of a new store. -/
def RuleSnapshot.Tells (x : RuleSnapshot) (log : List News) : Prop :=
  match News.loads log with
  | [] => x = {}
  | rules :: older => ∃ now, x = build rules (older.length + 1) now

/-- What a fetch may change in a store, but for the mark and the turns. -/
def RuleStore.status (s : RuleStore) : RuleSnapshot × Nat × Option SourceError :=
  (s.snapshot, s.failures, s.lastError)

def RuleStore.learn (s : RuleStore) : News → Timestamp → RuleStore
  | .ok rules, now => s.loaded rules now
  | .error e, _ => s.failed e

/-- The store tells of the log. -/
structure RuleStore.Tells (s : RuleStore) (log : List News) : Prop where
  snapshot : s.snapshot.Tells log
  failures : s.failures = min (News.failures log).length maxFailures
  lastError : s.lastError = (News.failures log).head?

section Tells

variable {s s' : RuleStore} {x : RuleSnapshot} {log : List News}

theorem News.loads_append (log older : List News) : loads (log ++ older) = loads log ++ loads older :=
  List.filterMap_append

theorem RuleSnapshot.Tells.generation (tells : x.Tells log) : x.generation = (News.loads log).length := by
  rw [Tells] at tells
  cases loads : News.loads log with
  | nil =>
    simp only [loads] at tells
    exact congrArg RuleSnapshot.generation tells
  | cons rules older =>
    simp only [loads] at tells
    obtain ⟨now, rfl⟩ := tells
    exact RuleSnapshot.generation_foldl ..

theorem RuleStore.tells_new (age : Duration) : ({ maxStaleness := age } : RuleStore).Tells [] :=
  ⟨rfl, rfl, rfl⟩

theorem RuleStore.Tells.of_status (tells : s.Tells log) (same : s'.status = s.status) : s'.Tells log := by
  obtain ⟨snapshot, rest⟩ := Prod.mk.inj same
  obtain ⟨failures, lastError⟩ := Prod.mk.inj rest
  exact ⟨snapshot ▸ tells.snapshot, failures.trans tells.failures, lastError.trans tells.lastError⟩

theorem RuleStore.Tells.learn (tells : s.Tells log) (news : News) (now : Timestamp) :
    (s.learn news now).Tells (news :: log) := by
  cases news with
  | ok rules =>
    refine ⟨⟨now, ?_⟩, rfl, rfl⟩
    exact congrArg (RuleSnapshot.build rules · now) (congrArg (· + 1) tells.snapshot.generation)
  | error e =>
    refine ⟨tells.snapshot, ?_, rfl⟩
    change min (s.failures + 1) maxFailures = min ((News.failures log).length + 1) maxFailures
    rw [tells.failures]
    omega

/-- Health reports the run of failures, and the text of the latest if there is one. -/
theorem RuleStore.Tells.health (tells : s.Tells log) (now : Timestamp) :
    (s.health now).consecutiveFailures = min (News.failures log).length maxFailures ∧
      ((s.health now).degraded = true ↔ 0 < (News.failures log).length) ∧
      (s.health now).lastError = (News.failures log).head?.map SourceError.message ∧
      (s.health now).generation = (News.loads log).length ∧
      (News.loads log = [] → (s.health now).stale = true) := by
  have degraded : (s.health now).degraded = true ↔ 0 < (News.failures log).length := by
    have counts : 0 < maxFailures := by decide
    rw [RuleStore.health, decide_eq_true_iff, tells.failures]
    omega
  refine ⟨tells.failures, degraded, congrArg (Option.map _) tells.lastError, tells.snapshot.generation, ?_⟩
  intro never
  have unloaded := tells.snapshot
  rw [RuleSnapshot.Tells, never] at unloaded
  simp only [RuleStore.health, isStale, unloaded]

end Tells

/-! ### What a use hears -/

/-- What a use hears, and what the store makes of it. -/
inductive World.Hears (w w' : World) : List News → Prop
  | nothing (status : w'.engine.rules.status = w.engine.rules.status)
      (fetches : w'.source.fetches = w.source.fetches) : Hears w w' []
  | told {news} (now : Timestamp) (status : w'.engine.rules.status = (w.engine.rules.learn news now).status)
      (fetches : w'.source.fetches = w.source.fetches + 1) : Hears w w' [news]

namespace World.Hears

variable {w w' : World} {heard : List News}

theorem tells {log : List News} (hears : w.Hears w' heard) (tells : w.engine.rules.Tells log) :
    w'.engine.rules.Tells (heard ++ log) := by
  cases hears with
  | nothing status fetches => exact tells.of_status status
  | told now status fetches => exact (tells.learn ..).of_status status

theorem fetches (hears : w.Hears w' heard) : w'.source.fetches = w.source.fetches + heard.length := by
  cases hears with
  | nothing status fetches => exact fetches
  | told now status fetches => exact fetches

theorem keeps (hears : w.Hears w' heard) (unloaded : News.loads heard = []) :
    w'.engine.rules.snapshot = w.engine.rules.snapshot := by
  cases hears with
  | nothing status fetches => exact congrArg Prod.fst status
  | @told news now status fetches =>
    cases news with
    | ok rules => cases unloaded
    | error e => exact congrArg Prod.fst status

end World.Hears

/-- The rules that a use hands out with its answer. -/
def Use.given? (u : Use) (a : u.Answer) : Option RuleSnapshot :=
  (Access.mk u (.finished a)).result?

/-- How a use ends that is made with no other under way. -/
structure Use.Ends (u : Use) (w : World) (result : u.Answer × List News) (w' : World) : Prop where
  hears : w.Hears w' result.2
  given : ∀ {x}, u.given? result.1 = some x → x = w'.engine.rules.snapshot
  turns : w'.engine.rules.turns = []

section Uses

variable {T : Type} {pact : Pact} {team : Team T} {outside : World → World → Prop} {w w' : World}

section Parts

variable {post : β × List News → World → Prop} {log : List News}

theorem Prog.ensures_heard_pure {b : β} (h : post (b, log) w) :
    ((pure b : Prog T β).heard log).Ensures pact team w post := h

theorem Prog.ensures_heard_read {f : World → α} {k : α → Prog T β}
    (h : ((k (f w)).heard log).Ensures pact team w post) : ((read f >>= k).heard log).Ensures pact team w post := h

theorem Prog.ensures_heard_modify {f : World → World} {k : Unit → Prog T β} (self : pact.self w (f w))
    (h : ((k ()).heard log).Ensures pact team (f w) post) :
    ((modify f >>= k).heard log).Ensures pact team w post := ⟨self, h⟩

theorem Prog.ensures_heard_step {f : World → World × α} {k : α → Prog T β} (self : pact.self w (f w).1)
    (h : ((k (f w).2).heard log).Ensures pact team (f w).1 post) :
    ((step f >>= k).heard log).Ensures pact team w post := ⟨self, h⟩

theorem Prog.ensures_heard_request {r : Request} {k : r.Answer → Prog T β}
    (h : r.Handled pact w fun a w' => ((k a).heard (r.news a ++ log)).Ensures pact team w' post) :
    ((request r >>= k).heard log).Ensures pact team w post := h

theorem Prog.Ensures.heard_bind [team.Monotone] {mid : α × List News → World → Prop} {p : Prog T α}
    {f : α → Prog T β} (h : (p.heard log).Ensures pact team w mid)
    (next : ∀ a log' w', mid (a, log') w' → ((f a).heard log').Ensures pact team w' post) :
    ((p >>= f).heard log).Ensures pact team w post := by
  rw [Prog.heard_bind]
  exact h.bind fun r w' here => next r.1 r.2 w' here

end Parts

theorem heard_fetchRules {w₀ : World} {ticket : Ticket} (calm : ∀ {w w'}, outside w w' → w.Unasked w')
    (fetches : w.source.fetches = w₀.source.fetches)
    (rules : w.engine.rules = { w₀.engine.rules with turns := [ticket] }) :
    ((fetchRules : Prog T _).heard []).Ensures (Pact.alone outside) team w fun result w' =>
      Use.refresh.Ends w₀ result w'.endTurn := by
  refine ensures_heard_modify trivial
    (ensures_heard_request ((Request.handled_ask calm).imp fun answer w₁ ⟨once, same⟩ => ?_))
  have once : w₁.source.fetches = w₀.source.fetches + 1 := once.trans (congrArg (· + 1) fetches)
  have same : w₁.engine.rules = { w₀.engine.rules with turns := [ticket], invalidated := false } :=
    same.trans (congrArg RuleStore.beginFetch rules)
  have turns := congrArg (·.turns.tail) same
  cases answer with
  | ok rules =>
    refine ensures_heard_step trivial (ensures_heard_pure ⟨.told w₁.readCalendar.2 ?_ once, ?_, turns⟩)
    · exact congrArg (fun s => (s.loaded rules w₁.readCalendar.2).status) same
    · intro x given
      exact (Option.some.inj given).symm
  | error e =>
    refine ensures_heard_modify trivial (ensures_heard_pure ⟨.told w₁.calendar ?_ once, ?_, turns⟩)
    · exact congrArg (fun s => (s.failed e).status) same
    · intro x given
      cases given

theorem heard_refreshRules (calm : ∀ {w w'}, outside w w' → w.Unasked w') [team.Monotone]
    (turns : w.engine.rules.turns = []) :
    ((refreshRules : Prog T _).heard []).Ensures (Pact.alone outside) team w (Use.refresh.Ends w) := by
  refine ensures_heard_request ((Request.handled_turn calm turns).imp fun _ w₁ ⟨fetches, ticket, rules⟩ => ?_)
  refine (heard_fetchRules calm fetches rules).heard_bind fun result log w₂ ends => ?_
  exact ensures_heard_modify trivial (ensures_heard_pure ends)

/-- A read hands out the rules that there are in the end, whether it fetched them or not. -/
theorem heard_currentRules (calm : ∀ {w w'}, outside w w' → w.Unasked w') [team.Monotone]
    (turns : w.engine.rules.turns = []) :
    ((currentRules : Prog T _).heard []).Ensures (Pact.alone outside) team w (Use.read.Ends w) := by
  refine ensures_heard_read ?_
  cases invalidated : w.engine.rules.invalidated with
  | false =>
    refine ensures_heard_read (ensures_heard_pure ⟨.nothing rfl rfl, ?_, turns⟩)
    intro x given
    exact (Option.some.inj given).symm
  | true =>
    refine ensures_heard_request ((Request.handled_turn calm turns).imp fun _ w₁ ⟨fetches, ticket, rules⟩ => ?_)
    refine ensures_heard_read ?_
    have still : w₁.engine.rules.invalidated = true := (congrArg RuleStore.invalidated rules).trans invalidated
    rw [still]
    refine (heard_fetchRules calm fetches rules).heard_bind fun result log w₂ ends => ?_
    refine ensures_heard_modify trivial (ensures_heard_read (ensures_heard_pure ⟨ends.hears, ?_, ends.turns⟩))
    intro x given
    exact (Option.some.inj given).symm

theorem Use.ends {u : Use} (direct : u.IsDirect) (calm : ∀ {w w'}, outside w w' → w.Unasked w')
    (turns : w.engine.rules.turns = []) :
    (u.program.heard []).Ensures (Pact.alone outside) (Team.polled outside) w (u.Ends w) := by
  cases u with
  | invalidate =>
    refine ensures_heard_modify trivial (ensures_heard_pure ⟨.nothing rfl rfl, ?_, turns⟩)
    intro x given
    cases given
  | read => exact heard_currentRules calm turns
  | refresh => exact heard_refreshRules calm turns
  | call c => exact direct.elim

end Uses

/-! ### Uses one after the other -/

structure Exchange extends Deal where
  answer : use.Answer
  heard : List News

namespace Exchange

/-- The use is made with no other under way, and that is its answer and what it hears. -/
def Runs (outside : World → World → Prop) (x : Exchange) : Prop :=
  let started := CallThread.start (x.use.program.heard []) x.before
  started.2.Completes outside started.1 x.after (x.answer, x.heard)

/-- An exchange that is over as soon as it is made. -/
def made (use : Use) (before : World)
    (finished : (Thread.result? (CallThread.start (use.program.heard []) before).2).isSome) : Exchange :=
  let started := CallThread.start (use.program.heard []) before
  let result := (Thread.result? started.2).get finished
  { use, before, after := started.1, answer := result.1, heard := result.2 }

/-- All that was heard in some exchanges. -/
def log (xs : List Exchange) : List News :=
  xs.flatMap (·.heard)

/-- How an exchange stands to those before it. -/
structure Follows (x : Exchange) (earlier : List Exchange) : Prop where
  tells : x.after.engine.rules.Tells (log (x :: earlier))
  keeps : News.loads x.heard = [] → x.after.engine.rules.snapshot = x.before.engine.rules.snapshot
  given : ∀ {s}, x.use.given? x.answer = some s → s = x.after.engine.rules.snapshot

variable {outside : World → World → Prop} {w₀ w : World} {x : Exchange} {xs : List Exchange} {age : Duration}

theorem exists_of_runs {d : Deal} (ran : d.Runs outside) : ∃ x : Exchange, x.toDeal = d ∧ x.Runs outside := by
  obtain ⟨answer, completes⟩ := ran
  obtain ⟨heard, completes⟩ := (Prog.completes_heard _ [] _).mp completes
  exact ⟨{ d with answer, heard }, rfl, completes⟩

theorem Runs.deal (ran : x.Runs outside) : x.toDeal.Runs outside :=
  ⟨x.answer, (Prog.completes_heard _ [] _).mpr ⟨x.heard, ran⟩⟩

theorem exists_of_dealings {ds : List Deal} (dealt : Dealings outside w₀ ds w) :
    ∃ xs : List Exchange, xs.map (·.toDeal) = ds ∧ ∀ x ∈ xs, x.Runs outside := by
  induction dealt with
  | begun => exact ⟨[], rfl, by simp⟩
  | gap dealt change ih => exact ih
  | deal dealt ran ih =>
    obtain ⟨xs, rfl, each⟩ := ih
    obtain ⟨x, rfl, here⟩ := exists_of_runs ran
    exact ⟨x :: xs, rfl, List.forall_mem_cons.mpr ⟨here, each⟩⟩

theorem runs_made {use : Use} {before : World}
    (finished : (Thread.result? (CallThread.start (use.program.heard []) before).2).isSome) :
    (made use before finished).Runs outside :=
  CallThread.completes_of_result (Option.some_get finished).symm

theorem Runs.ends (calm : ∀ {w w'}, outside w w' → w.Unasked w') (ran : x.Runs outside) (direct : x.use.IsDirect)
    (turns : x.before.engine.rules.turns = []) : x.use.Ends x.before (x.answer, x.heard) x.after :=
  CallThread.Completes.ends ran (Use.ends direct calm turns).advance

theorem follows {earlier : List Exchange} (ends : x.use.Ends x.before (x.answer, x.heard) x.after)
    (tells : x.before.engine.rules.Tells (log earlier)) : x.Follows earlier :=
  ⟨ends.hears.tells tells, ends.hears.keeps, ends.given⟩

/-- Where uses of a new store have brought it, and each of the uses to the place where it stands. -/
structure Stands (w₀ : World) (xs : List Exchange) (w : World) : Prop where
  turns : w.engine.rules.turns = []
  tells : w.engine.rules.Tells (log xs)
  fetches : w.source.fetches = w₀.source.fetches + (log xs).length
  each : ∀ {later x earlier}, xs = later ++ x :: earlier → x.Follows earlier ∧
    (News.loads (log later) = [] → w.engine.rules.snapshot = x.after.engine.rules.snapshot)

theorem Stands.new (new : w₀.engine.rules = { maxStaleness := age }) : Stands w₀ [] w₀ := by
  refine ⟨?_, ?_, rfl, ?_⟩
  · rw [new]
  · rw [new]
    exact RuleStore.tells_new age
  · intro later x earlier split
    cases later <;> cases split

theorem Stands.unasked {w' : World} (stands : Stands w₀ xs w) (unasked : w.Unasked w') : Stands w₀ xs w' := by
  obtain ⟨rules, fetches⟩ := unasked
  refine ⟨?_, ?_, fetches.trans stands.fetches, ?_⟩
  · exact rules ▸ stands.turns
  · exact rules ▸ stands.tells
  · rw [rules]
    exact stands.each

theorem Stands.next (stands : Stands w₀ xs x.before)
    (ends : x.use.Ends x.before (x.answer, x.heard) x.after) : Stands w₀ (x :: xs) x.after := by
  have here := follows ends stands.tells
  refine ⟨ends.turns, here.tells, ?_, ?_⟩
  · have heard : x.after.source.fetches = x.before.source.fetches + x.heard.length := ends.hears.fetches
    rw [heard, stands.fetches, log, log, List.flatMap_cons, List.length_append]
    omega
  · intro later y earlier split
    cases later with
    | nil =>
      obtain ⟨rfl, rfl⟩ := List.cons.inj split
      exact ⟨here, fun _ => rfl⟩
    | cons z later =>
      obtain ⟨rfl, rest⟩ := List.cons.inj split
      obtain ⟨follows, still⟩ := stands.each rest
      refine ⟨follows, fun unloaded => ?_⟩
      rw [log, List.flatMap_cons, News.loads_append, List.append_eq_nil_iff] at unloaded
      exact (here.keeps unloaded.1).trans (still unloaded.2)

theorem stands (calm : ∀ {w w'}, outside w w' → w.Unasked w') (new : w₀.engine.rules = { maxStaleness := age })
    (dealt : Dealings outside w₀ (xs.map (·.toDeal)) w) (ran : ∀ x ∈ xs, x.Runs outside)
    (direct : ∀ x ∈ xs, x.use.IsDirect) : Stands w₀ xs w := by
  generalize deals : xs.map (·.toDeal) = ds at dealt
  induction dealt generalizing xs with
  | begun =>
    obtain rfl := List.map_eq_nil_iff.mp deals
    exact .new new
  | gap dealt change ih => exact (ih ran direct deals).unasked (calm change)
  | deal dealt _ ih =>
    obtain ⟨x, earlier, rfl, rfl, rfl⟩ := List.map_eq_cons_iff.mp deals
    obtain ⟨here, before⟩ := List.forall_mem_cons.mp ran
    obtain ⟨fits, others⟩ := List.forall_mem_cons.mp direct
    have stands := ih before others rfl
    exact stands.next (here.ends calm fits stands.turns)

/-- After any uses of a new store the rules are those of the last fetch that succeeded, their generation counts such
fetches, and health tells of the failures since. No other fetch changes the rules, and the rules that a use handed
out are those of the fetches up to then, whatever is done later. -/
theorem tells_log (new : w₀.engine.rules = { maxStaleness := age })
    (dealt : Dealings World.BesideFetches w₀ (xs.map (·.toDeal)) w) (ran : ∀ x ∈ xs, x.Runs World.BesideFetches)
    (direct : ∀ x ∈ xs, x.use.IsDirect) :
    (w.engine.rules.snapshot.Tells (log xs) ∧
      w.engine.rules.snapshot.generation = (News.loads (log xs)).length ∧
      w.source.fetches = w₀.source.fetches + (log xs).length) ∧
    (∀ now, let health := w.engine.rules.health now
      health.consecutiveFailures = min (News.failures (log xs)).length (Nat.pow 2 32 - 1) ∧
      (health.degraded = true ↔ 0 < (News.failures (log xs)).length) ∧
      health.lastError = (News.failures (log xs)).head?.map SourceError.message ∧
      health.generation = (News.loads (log xs)).length ∧
      (News.loads (log xs) = [] → health.stale = true)) ∧
    ∀ later x earlier, xs = later ++ x :: earlier →
      (News.loads x.heard = [] → x.after.engine.rules.snapshot = x.before.engine.rules.snapshot) ∧
      (News.loads (log later) = [] → w.engine.rules.snapshot = x.after.engine.rules.snapshot) ∧
      ∀ s, x.use.given? x.answer = some s →
        s = x.after.engine.rules.snapshot ∧ s.Tells (log (x :: earlier)) := by
  have stands := stands World.BesideFetches.unasked new dealt ran direct
  refine ⟨⟨stands.tells.snapshot, stands.tells.snapshot.generation, stands.fetches⟩, stands.tells.health, ?_⟩
  intro later x earlier split
  obtain ⟨follows, still⟩ := stands.each split
  refine ⟨follows.keeps, still, fun s given => ?_⟩
  obtain rfl := follows.given given
  exact ⟨rfl, follows.tells.snapshot⟩

/-- The first rules are loaded. -/
def loaded : Exchange :=
  made .refresh (.watched { workers := 1 } {}) (by decide +kernel)

/-- Then their source is away, and a refresh fails. -/
def refused : Exchange :=
  made .refresh (loaded.after.editSource (.setFailure (some (.unavailable "away")))) (by decide +kernel)

def marked : Exchange :=
  made .invalidate refused.after (by decide +kernel)

/-- A read fetches in vain, and hands out the rules that there are. -/
def served : Exchange :=
  made .read marked.after (by decide +kernel)

theorem dealt_served :
    Dealings World.BesideFetches (.watched { workers := 1 } {}) ([served, marked, refused, loaded].map (·.toDeal))
      served.after := by
  have first : Dealings World.BesideFetches (.watched { workers := 1 } {}) [loaded.toDeal] refused.before :=
    .gap (.deal .begun (runs_made _).deal) (World.besideFetches_editSource _ _)
  exact .deal (.deal (.deal first (runs_made _).deal) (runs_made _).deal) (runs_made _).deal

/-- The rules outlive an outage in which a refresh and a read fail, and health tells of both. -/
theorem tells_log_in_outage :
    served.after.engine.rules.snapshot = loaded.after.engine.rules.snapshot ∧
      served.after.engine.rules.snapshot.generation = 1 ∧
      ∀ now, let health := served.after.engine.rules.health now
        health.consecutiveFailures = 2 ∧ health.degraded = true ∧
          health.lastError = some "Rule repository unavailable: away" := by
  have ran : ∀ x ∈ [served, marked, refused, loaded], x.Runs World.BesideFetches := by
    simp only [List.forall_mem_cons]
    exact ⟨runs_made _, runs_made _, runs_made _, runs_made _, by simp⟩
  have direct : ∀ x ∈ [served, marked, refused, loaded], x.use.IsDirect := by
    simp only [List.forall_mem_cons]
    exact ⟨trivial, trivial, trivial, trivial, by simp⟩
  obtain ⟨⟨-, generation, -⟩, health, each⟩ := tells_log rfl dealt_served ran direct
  obtain ⟨-, still, -⟩ := each [served, marked, refused] loaded [] rfl
  refine ⟨still (List.eq_nil_of_length_eq_zero (by decide +kernel)), generation.trans (by decide +kernel), ?_⟩
  intro now
  obtain ⟨failures, degraded, error, -⟩ := health now
  exact ⟨failures.trans (by decide +kernel), degraded.mpr (by decide +kernel), error.trans (by decide +kernel)⟩

end Exchange

end ThresholdAlerts
