import ThresholdAlerts.Proofs.Acceptance
import ThresholdAlerts.Proofs.Rebuilds
import ThresholdAlerts.Proofs.Renaming
import ThresholdAlerts.Proofs.Restart
/-! A recovery on a new engine, whose sink does at once what it is asked. Main statement: where storage holds one
open alert at most for each rule, and none of other rules, every firing state is the one that storage tells. -/
namespace ThresholdAlerts

open Prog

section Takeovers

variable {T : Type} {team : Team T} [team.Monotone] {outside : World → World → Prop} {w : World}

/-! ### Requests to a sink that does at once what it is asked -/

theorem Request.Handled.muted {r : Request} {post : r.Answer → World → Prop}
    (h : r.Handled (Pact.alone outside) w post) (other : ∀ event, r ≠ .deliver event)
    (plain : w.sink = { store := w.sink.store }) (steady : ∀ {w w'}, outside w w' → w'.sink = w.sink) :
    r.Handled (Pact.alone outside) w fun a w' => post a w' ∧ w'.sink = w.sink := by
  obtain ⟨starts, I, begun, guarded⟩ := h
  have started : (r.start w.takeTicket.2 w.takeTicket.1).1.sink = w.sink :=
    (mute_start (w := w.takeTicket.1) plain r w.takeTicket.2).sink
  refine ⟨starts, fun w' wait => I w' wait ∧ w'.sink = w.sink, ⟨begun, started⟩,
    fun ⟨i, same⟩ change => ⟨guarded.others i change, (steady change).trans same⟩, ?_, ?_⟩
  all_goals
    rintro w' w'' wait next ⟨i, same⟩ polled
    have mute := mute_poll other wait w'
    rw [polled] at mute
  · exact ⟨trivial, (guarded.waits i polled).2, mute.sink.trans same⟩
  · exact ⟨trivial, (guarded.answers i polled).2, mute.sink.trans same⟩

/-- A program that sends nothing leaves the sink as it is. -/
theorem Prog.Ensures.muted {α : Type} {p : Prog T α} {post : α → World → Prop}
    (h : p.Ensures (Pact.alone outside) Team.nobody w post)
    (minds : p.Minds (fun r => ∀ event, r ≠ .deliver event) (fun _ => True) w)
    (plain : w.sink = { store := w.sink.store }) (steady : ∀ {w w'}, outside w w' → w'.sink = w.sink) :
    p.Ensures (Pact.alone outside) team w fun a w' => post a w' ∧ w'.sink = w.sink := by
  induction p generalizing w with
  | done a => exact ⟨h, rfl⟩
  | get next ih => exact ih w h minds plain
  | set w' next ih =>
    have same := minds.1.sink
    refine ⟨trivial, (ih h.2 minds.2 ?_).weaken fun a w'' ⟨ends, same'⟩ => ⟨ends, same'.trans same⟩⟩
    rw [same]
    exact plain
  | ask r next ih =>
    refine (Request.Handled.muted h minds.1 plain steady).imp fun a w' ⟨goes, same⟩ => ?_
    refine (ih a goes (minds.2 a w') ?_).weaken fun b w'' ⟨ends, same'⟩ => ⟨ends, same'.trans same⟩
    rw [same]
    exact plain
  | fork ts next ih => exact h.elim

/-- A request that the sink, as long as it stays as it is, answers the first time it is polled. -/
theorem Request.handled_at_once {r : Request} {wait : r.Wait} {given : r.Answer}
    (calm : ∀ {w w'}, outside w w' → w.Elsewhere w') (steady : ∀ {w w'}, outside w w' → w'.sink = w.sink)
    (begins : r.start w.takeTicket.2 w.takeTicket.1 = (w.takeTicket.1, wait))
    (answered : ∀ {w'}, w.Unmoved w' → w'.sink = w.sink → w.clock ≤ w'.clock →
      r.poll wait w' = (w'.moved, .answered given)) :
    r.Handled (Pact.alone outside) w fun answer w' => answer = given ∧ w.Unmoved w' ∧ w'.sink = w.sink := by
  refine ⟨trivial, fun w' now => now = wait ∧ w.Unmoved w' ∧ w'.sink = w.sink ∧ w.clock ≤ w'.clock, ?_, ?_, ?_, ?_⟩
  · rw [begins]
    exact ⟨rfl, ⟨rfl, rfl, rfl, rfl, rfl⟩, rfl, Nat.le_refl _⟩
  · rintro w' w'' now ⟨same, unmoved, sink, later⟩ change
    exact ⟨same, unmoved.trans (calm change).unmoved, (steady change).trans sink,
      Nat.le_trans later (calm change).clock⟩
  all_goals
    rintro w' w'' now next ⟨rfl, unmoved, sink, later⟩ polled
    rw [answered unmoved sink later] at polled
  · exact absurd (Prod.mk.inj polled).2 nofun
  · obtain ⟨rfl, answers⟩ := Prod.mk.inj polled
    exact ⟨trivial, (Request.Progress.answered.inj answers).symm, unmoved.trans ⟨rfl, rfl, rfl, rfl, rfl⟩, sink⟩

/-- What is looked up is found at once, as the store has it. -/
theorem Request.handled_findOpen_plain (plain : w.sink = { store := w.sink.store })
    (calm : ∀ {w w'}, outside w w' → w.Elsewhere w')
    (steady : ∀ {w w'}, outside w w' → w'.sink = w.sink) (rules : List RuleId) :
    (Request.findOpen rules).Handled (Pact.alone outside) w fun answer w' =>
      answer = rules.map w.sink.store.findOpen ∧ w.Unmoved w' ∧ w'.sink = w.sink := by
  let flights : List (RuleId × Flight (Except SinkError (Option Alert))) :=
    rules.map fun rule => (rule, { act := {}, start := w.clock })
  have started : startLookups w.takeTicket.1 rules = (w.takeTicket.1, flights) :=
    startLookups_at_once (w := w.takeTicket.1) plain rules
  have begins : (Request.findOpen rules).start w.takeTicket.2 w.takeTicket.1 = (w.takeTicket.1, flights) := started
  refine handled_at_once calm steady begins fun {w'} unmoved sink later => ?_
  let flown (rule : RuleId) : RuleId × Flight (Except SinkError (Option Alert)) :=
    (rule, { act := {}, start := w.clock, answer := some (w'.sink.store.findOpen rule) })
  have due (rule : RuleId) : (flown rule).2.result? w'.clock = some (w.sink.store.findOpen rule) := by
    rw [← sink]
    exact if_pos later
  have all : ((rules.map flown).mapM fun f => f.2.result? w'.clock) = some (rules.map w.sink.store.findOpen) := by
    rw [List.mapM_map]
    exact mapM_eq_some fun rule _ => due rule
  rw [poll, pollLookups_at_once w' rules later]
  dsimp only
  rw [all]
  rfl

theorem Request.handled_findAll_plain (plain : w.sink = { store := w.sink.store })
    (calm : ∀ {w w'}, outside w w' → w.Elsewhere w') (steady : ∀ {w w'}, outside w w' → w'.sink = w.sink) :
    Request.findAll.Handled (Pact.alone outside) w fun answer w' =>
      answer = w.sink.store.findAllOpen ∧ w.Unmoved w' ∧ w'.sink = w.sink := by
  let flight : Flight (Except SinkError (List Alert)) := { act := {}, start := w.clock }
  have started : w.sink.startFindAll = (w.sink, {}) := by
    rw [plain]
    rfl
  have begins : Request.findAll.start w.takeTicket.2 w.takeTicket.1 = (w.takeTicket.1, flight) := by
    change ({ w.takeTicket.1 with sink := w.sink.startFindAll.1 },
      ({ act := w.sink.startFindAll.2, start := w.clock } : Flight (Except SinkError (List Alert)))) = _
    rw [started]
    rfl
  refine handled_at_once calm steady begins fun {w'} _ sink later => ?_
  have listed : w'.sink.listOpen .pass = (w'.sink, w.sink.store.findAllOpen) := by
    rw [sink, plain]
    rfl
  have acts : flight.actsAt ≤ w'.clock := later
  have due : (flight.answered w.sink.store.findAllOpen).result? w'.clock = some w.sink.store.findAllOpen :=
    if_pos later
  have flown : flight.poll w' (fun sink deed => sink.listOpen deed) =
      (w', flight.answered w.sink.store.findAllOpen) := by
    rw [Flight.poll]
    simp only [flight, acts, if_true, listed]
    rfl
  simp only [poll, flown, due]
  rfl

/-! ### The parts of a recovery -/

theorem minds_seedRules (found : List (RuleId × Except SinkError (Option Alert)))
    (report : RecoveryReport) (w : World) :
    (seedRules found report : Prog T _).Minds (fun r => ∀ event, r ≠ .deliver event) (fun _ => True) w := by
  induction found generalizing report w with
  | nil => exact minds_pure _ _
  | cons pair rest ih =>
    obtain ⟨rule, look⟩ := pair
    match look with
    | .error e => exact minds_pure _ _
    | .ok none => exact ih report w
    | .ok (some alert) =>
      refine minds_bind (minds_request (fun _ => nofun) w) fun id w₁ => ?_
      exact minds_bind (minds_step (fun w => .of_same rfl rfl) w₁) fun _ => ih _

/-- Where every open alert is tracked none is closed. -/
theorem ensures_sweep {alerts : List Alert} {snapshot : RuleSnapshot} {report : RecoveryReport} (line : w.InLine)
    (calm : ∀ {w w'}, outside w w' → w.Elsewhere w')
    (tracked : ∀ alert ∈ alerts, (w.firing alert.ruleId).openAlertId = some alert.id) :
    (resolveStrays snapshot alerts report : Prog T _).Ensures (Pact.alone outside) team w fun _ w' =>
      w'.InLine ∧ w'.engine.rules = w.engine.rules ∧ w'.ids = w.ids ∧ ∀ rule, w'.firing rule = w.firing rule := by
  induction alerts generalizing w with
  | nil => exact ensures_pure ⟨line, rfl, rfl, fun _ => rfl⟩
  | cons alert rest ih =>
    obtain ⟨here, others⟩ := List.forall_mem_cons.mp tracked
    refine ((ensures_trackedAlert (line.rest.vacant alert.ruleId)).alone calm).bind ?_
    rintro answer w₁ ⟨⟨answered, vacant⟩, keeps, quiet⟩
    have line₁ : w₁.InLine := line.one keeps vacant (line.rest.tagged alert.ruleId) (line.each alert.ruleId)
    have firing (rule : RuleId) : w₁.firing rule = w.firing rule := by
      refine World.firing_of_held ?_
      by_cases same : rule = alert.ruleId
      · rw [same, vacant.held]
      · exact keeps.held same
    have found : answer = some alert.id := by
      rw [answered, ← here, World.firing_eq]
      cases w.engine.tracker.held alert.ruleId <;> rfl
    rw [if_pos found]
    refine (ih line₁ fun alert mem => firing alert.ruleId ▸ others alert mem).weaken ?_
    rintro _ w₂ ⟨line₂, rules, ids, same⟩
    exact ⟨line₂, rules.trans keeps.rules, ids.trans quiet.ids, fun rule => (same rule).trans (firing rule)⟩

/-! ### What storage tells -/

def AlertStore.revived (s : AlertStore) (rule : RuleId) : FiringState :=
  match s.newestOpen? rule with
  | some alert => .recovered rule alert.id
  | none => .initial rule

def AlertStore.lookUps (s : AlertStore) (rules : List RuleId) : List (RuleId × Except SinkError (Option Alert)) :=
  rules.map fun rule => (rule, .ok (s.newestOpen? rule))

/-- Rules that were seeded with what storage tells are as it tells. -/
theorem World.Seeds.revived {s : AlertStore} {rules : List RuleId} {answer : Except SinkError RecoveryReport}
    {w' : World} (seeds : w.Seeds (s.lookUps rules) answer w')
    (initial : ∀ rule, w.firing rule = .initial rule)
    (listed : ∀ {rule alert}, s.newestOpen? rule = some alert → rule ∈ rules) :
    (∃ report, answer = .ok report) ∧ ∀ rule, w'.firing rule = s.revived rule := by
  obtain ⟨reported, isOpen⟩ := seeds.all fun pair mem => by
    obtain ⟨rule, -, rfl⟩ := List.mem_map.mp mem
    exact ⟨_, rfl⟩
  refine ⟨reported, fun rule => ?_⟩
  rw [AlertStore.revived]
  rcases seeds.each rule with same | ⟨alert, mem, same⟩
  · cases newest : s.newestOpen? rule with
    | none => rw [same, initial]
    | some alert =>
      have opened := isOpen (List.mem_map.mpr ⟨rule, listed newest, by rw [newest]⟩)
      rw [same, initial] at opened
      exact absurd opened Bool.false_ne_true
  · obtain ⟨rule', -, found⟩ := List.mem_map.mp mem
    obtain ⟨rfl, newest⟩ := Prod.mk.inj found
    rw [same, Except.ok.inj newest]

theorem Request.handled_lookUps {s : AlertStore} (sink : w.sink = { store := s })
    (available : s.unavailable = false) (calm : ∀ {w w'}, outside w w' → w.Elsewhere w')
    (steady : ∀ {w w'}, outside w w' → w'.sink = w.sink) (rules : List RuleId) :
    (Request.findOpen rules).Handled (Pact.alone outside) w fun answer w' =>
      rules.zip answer = s.lookUps rules ∧ w.Unmoved w' ∧ w'.sink = { store := s } := by
  refine (handled_findOpen_plain (by rw [sink]) calm steady rules).imp ?_
  rintro _ w' ⟨rfl, unmoved, same⟩
  rw [sink, AlertStore.findOpen_of_available available]
  exact ⟨(List.map_prod_left_eq_zip ..).symm, unmoved, same.trans sink⟩

/-- The open alerts of storage are of the rules of a snapshot, one at most of each. -/
def AlertStore.Sorted (s : AlertStore) (snapshot : RuleSnapshot) : Prop :=
  ∀ alert ∈ s.openAlerts, snapshot.contains alert.ruleId = true ∧ s.newestOpen? alert.ruleId = some alert

/-- Every rule is as storage tells. -/
structure World.Revived (s : AlertStore) (w w' : World) : Prop where
  line : w'.InLine
  rules : w'.engine.rules = w.engine.rules
  ids : w'.ids = w.ids
  firing : ∀ rule, w'.firing rule = s.revived rule

/-- The part of a recovery that comes after the rules were taken up. -/
theorem ensures_revival {s : AlertStore} {snapshot : RuleSnapshot} (line : w.InLine)
    (calm : ∀ {w w'}, outside w w' → w.Elsewhere w') (steady : ∀ {w w'}, outside w w' → w'.sink = w.sink)
    (sink : w.sink = { store := s }) (available : s.unavailable = false)
    (initial : ∀ rule, w.firing rule = .initial rule) (sound : snapshot.Sound)
    (loaded : w.engine.rules.snapshot = snapshot) (sorted : s.Sorted snapshot) :
    (do
      let rules ← read (·.listed snapshot)
      let found ← request (.findOpen rules)
      match ← seedRules (rules.zip found) {} with
      | .error e => return .error (.alertRepository e)
      | .ok report =>
        match ← request .findAll with
        | .error e => return .error (.alertRepository e)
        | .ok alerts => return .ok (← resolveStrays snapshot alerts report) :
        Prog T (Except EngineError RecoveryReport)).Ensures (Pact.alone outside) team w fun answer w' =>
      (∃ report, answer = .ok report) ∧ w.Revived s w' := by
  refine ensures_read (ensures_request ((Request.handled_lookUps sink available calm steady _).imp ?_))
  rintro found w₁ ⟨looked, unmoved, sink₁⟩
  have loaded₁ : w₁.engine.rules.snapshot = snapshot := (congrArg RuleStore.snapshot unmoved.rules).trans loaded
  have known : ∀ pair ∈ s.lookUps (w.listed snapshot), ∃ r, w₁.rule? pair.1 = some r := fun pair mem => by
    obtain ⟨_, listed, rfl⟩ := List.mem_map.mp mem
    rw [World.rule?, loaded₁]
    exact sound.known_of_listed listed
  rw [looked]
  refine ((ensures_seedRules (unmoved.inLine line) calm known).muted (minds_seedRules _ _ w₁) (by rw [sink₁])
    steady).bind ?_
  rintro _ w₂ ⟨seeds, same⟩
  have sink₂ := same.trans sink₁
  obtain ⟨⟨report, rfl⟩, firing⟩ := seeds.revived
    (fun rule => (World.firing_of_tracker unmoved.tracker).trans (initial rule)) fun newest => by
      obtain ⟨mem, rfl, -⟩ := AlertStore.newestOpen?_eq_some newest
      exact sound.mem_listed.mpr (sorted _ mem).1
  refine ensures_request ((Request.handled_findAll_plain (by rw [sink₂]) calm steady).imp ?_)
  rintro _ w₃ ⟨rfl, unmoved', -⟩
  have firing₃ (rule : RuleId) : w₃.firing rule = s.revived rule :=
    (World.firing_of_tracker unmoved'.tracker).trans (firing rule)
  rw [sink₂, AlertStore.findAllOpen_of_available available]
  refine (ensures_sweep (unmoved'.inLine seeds.line) calm fun alert mem => ?_).bind ?_
  · rw [firing₃, AlertStore.revived, (sorted alert mem).2]
    rfl
  · rintro report' w₄ ⟨line₄, rules₄, ids₄, same⟩
    refine ensures_pure ⟨⟨report', rfl⟩, line₄, ?_, ?_, fun rule => (same rule).trans (firing₃ rule)⟩
    · exact rules₄.trans (unmoved'.rules.trans (seeds.rules.trans unmoved.rules))
    · exact ids₄.trans (unmoved'.ids.trans (seeds.ids.trans unmoved.ids))

/-! ### The whole recovery -/

/-- The rules that are gone by are those of a list. -/
def World.Serves (w : World) (rules : List Rule) : Prop :=
  ∀ generation now, w.engine.rules.snapshot.Alike (.build rules generation now)

theorem World.Fetched.serves {rules : List Rule} {w' : World} (fetched : w.Fetched (.ok rules) w') :
    w'.Serves rules := fun generation now => by
  obtain ⟨now', built⟩ := fetched.took
  rw [built]
  exact RuleSnapshot.alike_build ..

/-- On a new engine every rule is as storage tells after a recovery, and the rules are those of the source. -/
theorem ensures_takeover {s : AlertStore} {rules : List Rule} (line : w.InLine)
    (calm : ∀ {w w'}, outside w w' → w.Elsewhere w') (source : SteadySource outside)
    (steady : ∀ {w w'}, outside w w' → w'.sink = w.sink)
    (untracked : ∀ rule, w.engine.tracker.held rule = none) (fetches : w.source.fetch = .ok rules)
    (sink : w.sink = { store := s }) (available : s.unavailable = false)
    (sorted : ∀ generation now, s.Sorted (.build rules generation now)) :
    (recover : Prog T _).Ensures (Pact.alone outside) team w fun answer w' =>
      (∃ report, answer = .ok report) ∧ w'.InLine ∧ w'.ids = w.ids ∧
        w'.Serves rules ∧ ∀ rule, w'.firing rule = s.revived rule := by
  have loads : (refreshRules : Prog T _).Ensures (Pact.alone outside) Team.nobody w fun answer w' =>
      w.Fetched (.ok rules) w' ∧ answer = .ok w'.engine.rules.snapshot :=
    ensures_refreshRules line.rest calm fun answer w' fetched answers => by
      obtain rfl := (answers source).trans fetches
      exact ⟨fetched, rfl⟩
  refine (loads.muted (minds_refreshRules (fun _ => nofun) (fun _ => nofun) w) (by rw [sink]) steady).bind ?_
  rintro _ w₁ ⟨⟨fetched, rfl⟩, same⟩
  obtain ⟨claims, line₁⟩ := line.claims fetched untracked
  obtain ⟨now, built⟩ := fetched.took
  have initial (rule : RuleId) : w₁.firing rule = .initial rule := by
    rw [World.firing_of_tracker fetched.tracker, World.firing_eq, untracked]
    rfl
  refine ensures_step trivial ?_
  rw [claims]
  refine (ensures_revival line₁ calm steady (same.trans sink) available initial ?_ rfl ?_).weaken ?_
  · change w₁.engine.rules.snapshot.Sound
    rw [built]
    exact RuleSnapshot.sound_build ..
  · change s.Sorted w₁.engine.rules.snapshot
    rw [built]
    exact sorted _ _
  · rintro answer w' ⟨reported, line', rules', ids', firing⟩
    refine ⟨reported, line', ids'.trans fetched.ids, fun generation now' => ?_, firing⟩
    rw [rules']
    exact fetched.serves generation now'

/-! ### Where nothing waits -/

theorem World.Settled.openOf (settled : w.Settled) {alert : Alert} (mem : alert ∈ w.sink.store.openAlerts) :
    w.openAlert alert.ruleId = some alert.id :=
  (settled.stored _ _).mp ((AlertStore.openOf_iff settled.named).mpr ⟨alert, mem, rfl, rfl⟩)

theorem World.Settled.newest (settled : w.Settled) {alert : Alert} (mem : alert ∈ w.sink.store.openAlerts) :
    w.sink.store.newestOpen? alert.ruleId = some alert := by
  have keyed : w.sink.store.Keyed := settled.named
  obtain ⟨other, newest⟩ := Option.isSome_iff_exists.mp (AlertStore.newestOpen?_isSome.mpr ⟨alert, mem, rfl⟩)
  obtain ⟨mem', named, -⟩ := AlertStore.newestOpen?_eq_some newest
  have tracked := settled.openOf mem'
  rw [named, settled.openOf mem] at tracked
  have there := (keyed.mem_openAlerts.mp mem).1
  rw [Option.some.inj tracked, (keyed.mem_openAlerts.mp mem').1] at there
  rw [newest, Option.some.inj there]

theorem World.InLine.known (line : w.InLine) {rule : RuleId} {id : AlertId} (tracked : w.openAlert rule = some id) :
    ∃ r, w.rule? rule = some r := by
  refine Option.ne_none_iff_exists'.mp fun gone => ?_
  have firing : (w.firing rule).openAlertId = some id := tracked
  rw [World.firing_eq] at firing
  cases held : w.engine.tracker.held rule with
  | none =>
    rw [held] at firing
    exact absurd (show none = some id from firing) (by simp)
  | some h =>
    have clear := line.spent held ((line.each rule h held).gone gone)
    rw [held, Option.getD_some, FiringState.openAlertId, clear] at firing
    exact absurd firing (by simp)

theorem World.Settled.sorted {rules : List Rule} (settled : w.Settled) (line : w.InLine) (serves : w.Serves rules)
    (generation : Nat) (now : Timestamp) : w.sink.store.Sorted (.build rules generation now) := by
  refine fun alert mem => ⟨?_, settled.newest mem⟩
  obtain ⟨r, known⟩ := line.known (settled.openOf mem)
  rw [RuleSnapshot.contains, (serves generation now).1, Std.TreeMap.contains_eq_isSome_getElem?]
  rw [World.rule?, RuleSnapshot.get?, Std.TreeMap.get?_eq_getElem?] at known
  rw [known, Option.isSome_some]

/-- What storage tells of a rule that is not pending is what is tracked, but for the breaches that were seen. -/
theorem World.Settled.revived {rule : RuleId} (settled : w.Settled) (idle : (w.firing rule).status ≠ .pending) :
    Phase.Renamed (fun id id' => id' = id ∧ ∃ rule, w.openAlert rule = some id) (fun _ _ => True)
      (w.firing rule).phase (w.sink.store.revived rule).phase := by
  have stored := settled.stored rule
  have tracked : w.openAlert rule = (w.firing rule).openAlertId := rfl
  rw [FiringState.status] at idle
  rw [FiringState.openAlertId] at tracked
  cases phase : (w.firing rule).phase with
  | pending n =>
    rw [phase] at idle
    exact absurd rfl idle
  | clear =>
    rw [phase] at tracked
    have none : w.sink.store.newestOpen? rule = none := by
      refine Option.eq_none_iff_forall_ne_some.mpr fun alert newest => ?_
      obtain ⟨mem, rfl, -⟩ := AlertStore.newestOpen?_eq_some newest
      exact absurd ((settled.openOf mem).symm.trans tracked) (by simp)
    rw [AlertStore.revived, none]
    exact .clear
  | opened id n =>
    rw [phase] at tracked
    obtain ⟨alert, mem, rfl, rfl⟩ := (AlertStore.openOf_iff settled.named).mp ((stored id).mpr tracked)
    rw [AlertStore.revived, settled.newest mem]
    exact .opened ⟨rfl, _, tracked⟩ trivial

end Takeovers

end ThresholdAlerts
