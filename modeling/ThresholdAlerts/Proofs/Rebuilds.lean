import ThresholdAlerts.Proofs.Lines
/-! A recovery that is made alone, whatever the sink answers. Main statement: on a new engine it leaves all
firing states in line with the rules that it loaded, also if a look-up fails and it stops half-way. -/
namespace ThresholdAlerts

open Prog

section Rebuilds

variable {T : Type} {team : Team T} [team.Monotone] {outside : World → World → Prop} {w w₁ w' : World}
  {rule : RuleId} {id : SlotId} {ticket : Ticket} {a : Account} {h : Option Holding} {past : List Happening}

/-! ### Looking things up -/

theorem World.Unmoved.trans {w₁ w₂ w₃ : World} (same : w₁.Unmoved w₂) (same' : w₂.Unmoved w₃) : w₁.Unmoved w₃ :=
  ⟨same'.tracker.trans same.tracker, same'.rules.trans same.rules, same'.reconciled.trans same.reconciled,
    same'.ids.trans same.ids, same'.journal.trans same.journal⟩

theorem World.Elsewhere.unmoved (change : w.Elsewhere w') : w.Unmoved w' := by
  obtain ⟨engine, -, journal, ids⟩ := change.engine
  exact ⟨by rw [engine], by rw [engine], by rw [engine], ids, journal⟩

theorem World.Unmoved.inLine (same : w.Unmoved w') (line : w.InLine) : w'.InLine :=
  line.of_same same.tracker (congrArg RuleStore.snapshot same.rules) same.reconciled (same.atRest line.rest)

structure World.Untold (w : World) : Prop where
  outbox : ∀ rule, (w.account rule).outbox = []
  past : ∀ rule, (w.account rule).past = []

theorem World.Untold.of_same (untold : w.Untold) (tracker : w'.engine.tracker = w.engine.tracker)
    (journal : w'.journal = w.journal) : w'.Untold := by
  have same (rule : RuleId) : w'.account rule = w.account rule := by
    rw [World.account, tracker, journal, World.account]
  exact ⟨fun rule => same rule ▸ untold.outbox rule, fun rule => same rule ▸ untold.past rule⟩

theorem World.Untold.one (untold : w.Untold) (keeps : w.Keeps (· ≠ rule) w') (vacant : w'.Vacant rule h [])
    (empty : (h.getD (.initial rule)).outbox = []) : w'.Untold := by
  refine ⟨fun rule' => ?_, fun rule' => ?_⟩
  all_goals
    by_cases same : rule' = rule
    · subst same
      rw [vacant.account]
      first | exact empty | rfl
    · rw [keeps.account same]
      first | exact untold.outbox rule' | exact untold.past rule'

theorem World.Untold.held (untold : w.Untold) (rule : RuleId) :
    ((w.engine.tracker.held rule).getD (.initial rule)).outbox = [] := by
  rw [← Tracker.slotFor_holding]
  exact untold.outbox rule

def RecoveryReport.strays (r : RecoveryReport) : Nat :=
  r.orphaned + r.superseded

theorem Request.unmoved_startLookups (w : World) (rules : List RuleId) : w.Unmoved (startLookups w rules).1 := by
  induction rules generalizing w with
  | nil => exact ⟨rfl, rfl, rfl, rfl, rfl⟩
  | cons rule rest ih =>
    have first : w.Unmoved { w with sink := w.sink.startFindOpen.1 } := ⟨rfl, rfl, rfl, rfl, rfl⟩
    exact first.trans (ih _)

theorem Request.handled_lookup (calm : ∀ {w w'}, outside w w' → w.Elsewhere w') {r : Request}
    (starts : w.Unmoved (r.start w.takeTicket.2 w.takeTicket.1).1)
    (polls : ∀ wait w, (∃ wait', r.poll wait w = (w, .waiting wait')) ∨ ∃ a, r.poll wait w = (w.moved, .answered a)) :
    r.Handled (Pact.alone outside) w fun _ w' => w.Unmoved w' := by
  refine ⟨trivial, fun w' _ => w.Unmoved w', starts, fun same change => same.trans (calm change).unmoved, ?_, ?_⟩
  all_goals
    intro w' w'' wait next same polled
    rcases polls wait w' with ⟨_, result⟩ | ⟨_, result⟩ <;> rw [result] at polled
  · obtain ⟨rfl, -⟩ := Prod.mk.inj polled
    exact ⟨trivial, same⟩
  · exact absurd (Prod.mk.inj polled).2 (by simp)
  · exact absurd (Prod.mk.inj polled).2 (by simp)
  · obtain ⟨rfl, -⟩ := Prod.mk.inj polled
    exact ⟨trivial, same.trans ⟨rfl, rfl, rfl, rfl, rfl⟩⟩

theorem Request.handled_findOpen (calm : ∀ {w w'}, outside w w' → w.Elsewhere w') (rules : List RuleId) :
    (Request.findOpen rules).Handled (Pact.alone outside) w fun _ w' => w.Unmoved w' := by
  have taken : w.Unmoved w.takeTicket.1 := ⟨rfl, rfl, rfl, rfl, rfl⟩
  exact handled_lookup calm (taken.trans (unmoved_startLookups _ rules)) (poll_findOpen rules)

theorem Request.handled_findAll (calm : ∀ {w w'}, outside w w' → w.Elsewhere w') :
    Request.findAll.Handled (Pact.alone outside) w fun _ w' => w.Unmoved w' :=
  handled_lookup calm ⟨rfl, rfl, rfl, rfl, rfl⟩ poll_findAll

/-! ### Seeding a rule -/

theorem World.Seated.seed (seated : w.Seated rule id ticket a) (alertId : AlertId) :
    let w' := (w.onTracker fun _ => (w.engine.tracker.seed id alertId).1).leave id
    (Pact.desk rule).self w w' ∧ w'.Vacant rule (some (a.holding.seed rule alertId)) a.past := by
  intro w'
  let w₁ := w.onTracker fun _ => (w.engine.tracker.seed id alertId).1
  have alters : w.Alters id [] w₁ :=
    World.alters_onTracker (f := fun _ => (w.engine.tracker.seed id alertId).1)
      (seated.coherent.rewrites_seed seated.found alertId)
  have slot : w₁.slot id =
      if (w.slot id).state.isOpen then w.slot id else { w.slot id with state := .recovered rule alertId } :=
    seated.coherent.slot_seed seated.found alertId
  obtain ⟨self, there⟩ := seated.alters alters (by simp) (.inl ⟨rfl, rfl⟩) ⟨rfl, rfl⟩
  obtain ⟨self', vacant⟩ := there.leave
  have seeded : (w₁.account rule).holding = a.holding.seed rule alertId ∧ (w₁.account rule).past = a.past := by
    rw [alters.account seated.found (by simp), slot, ← seated.account, World.account_of_find seated.found,
      Holding.seed]
    refine ⟨?_, rfl⟩
    change _ = if (w.slot id).state.isOpen then _ else _
    split <;> rfl
  rw [seeded.1, seeded.2] at vacant
  exact ⟨(Pact.desk rule).goesOn self self', vacant⟩

theorem ensures_seed (v : w.Vacant rule h past) (alertId : AlertId) :
    (do
      let slot ← request (.slot rule)
      step fun w =>
        let (tracker, isNew) := w.engine.tracker.seed slot alertId
        ((w.onTracker fun _ => tracker).leave slot, isNew) : Prog T Bool).Ensures (Pact.desk rule) Team.nobody w
      fun _ w' =>
        w'.Vacant rule (some ({ h.getD (.initial rule) with retired := false }.seed rule alertId)) past := by
  refine ensures_request ((Request.handled_slot v).imp fun id w₁ ⟨ticket, seated⟩ => ?_)
  exact seated.seed alertId

theorem World.InLine.one (line : w.InLine) (keeps : w.Keeps (· ≠ rule) w')
    (vacant : w'.Vacant rule h past) (tagged : Holding.Tagged rule h)
    (own : ∀ held ∈ h, held.InLine (w.rule? rule)) : w'.InLine := by
  have frame : w.Keeps (· ∉ [rule]) w' := keeps.mono fun away same => away (List.mem_singleton.mpr same)
  refine ⟨line.rest.after frame fun rule' mem => ?_, by rw [keeps.reconciled, keeps.rules, line.reconciled],
    fun rule' held there => ?_⟩
  · obtain rfl := List.mem_singleton.mp mem
    exact ⟨h, past, vacant, tagged⟩
  · rw [World.rule?, keeps.rules, ← World.rule?]
    by_cases same : rule' = rule
    · subst same
      rw [vacant.held] at there
      exact own held there
    · rw [keeps.held same] at there
      exact line.each rule' held there

theorem Holding.seed_retired (h : Holding) (rule : RuleId) (alertId : AlertId) :
    (h.seed rule alertId).retired = h.retired := by
  rw [seed]
  split <;> rfl

theorem Holding.seed_outbox (h : Holding) (rule : RuleId) (alertId : AlertId) :
    (h.seed rule alertId).outbox = h.outbox := by
  rw [seed]
  split <;> rfl

theorem Holding.seed_state (h : Holding) (rule : RuleId) (alertId : AlertId) :
    (h.seed rule alertId).state = if h.state.isOpen then h.state else .recovered rule alertId := by
  rw [seed]
  split <;> rfl

/-- What is held for a rule that was seeded. -/
def World.seeded (w : World) (rule : RuleId) (alertId : AlertId) : Holding :=
  { (w.engine.tracker.held rule).getD (.initial rule) with retired := false }.seed rule alertId

theorem World.firing_seeded {alertId : AlertId} (vacant : w'.Vacant rule (some (w.seeded rule alertId)) past) :
    w'.firing rule = if (w.firing rule).isOpen then w.firing rule else .recovered rule alertId := by
  rw [World.firing_eq, World.firing_eq, vacant.held]
  exact Holding.seed_state ..

theorem World.InLine.seed {r : Rule} {alertId : AlertId} (line : w.InLine) (known : w.rule? rule = some r)
    (keeps : w.Keeps (· ≠ rule) w') (vacant : w'.Vacant rule (some (w.seeded rule alertId)) past) : w'.InLine := by
  refine line.one keeps vacant (fun held mem => ?_) fun held mem => ?_
  · obtain rfl := Option.some.inj mem
    rw [seeded, Holding.seed_outbox]
    cases before : w.engine.tracker.held rule with
    | none => simp [Holding.initial]
    | some h₀ => exact line.rest.tagged rule h₀ before
  · obtain rfl := Option.some.inj mem
    refine ⟨fun retired => ?_, fun gone => absurd (gone.symm.trans known) (by simp),
      fun r' defined print remembered => ?_⟩
    · rw [seeded, Holding.seed_retired] at retired
      exact absurd retired Bool.false_ne_true
    · rw [seeded, Holding.seed_state, ← World.firing_eq] at remembered
      split at remembered
      · exact line.fits defined print remembered
      · exact absurd remembered (by simp [FiringState.recovered])

/-- The rules for which alerts were found are open, with these unless they were open before, and the others are
as they were. All of them are dealt with if every look-up was answered. -/
structure World.Seeds (found : List (RuleId × Except SinkError (Option Alert))) (w : World)
    (answer : Except SinkError RecoveryReport) (w' : World) : Prop where
  line : w'.InLine
  rules : w'.engine.rules = w.engine.rules
  ids : w'.ids = w.ids
  each : ∀ rule, w'.firing rule = w.firing rule ∨
    ∃ alert, (rule, .ok (some alert)) ∈ found ∧ w'.firing rule = .recovered rule alert.id
  all : (∀ pair ∈ found, ∃ look, pair.2 = .ok look) → (∃ report, answer = .ok report) ∧
    ∀ {rule alert}, (rule, .ok (some alert)) ∈ found → (w'.firing rule).isOpen = true
  untold : w.Untold → w'.Untold

theorem World.Seeds.skip {found : List (RuleId × Except SinkError (Option Alert))}
    {answer : Except SinkError RecoveryReport} (seeds : w.Seeds found answer w') (rule : RuleId) :
    w.Seeds ((rule, .ok none) :: found) answer w' := by
  refine ⟨seeds.line, seeds.rules, seeds.ids, fun rule' => ?_, fun answered => ?_, seeds.untold⟩
  · exact (seeds.each rule').imp_right fun ⟨alert, mem, same⟩ => ⟨alert, List.mem_cons_of_mem _ mem, same⟩
  · obtain ⟨reported, isOpen⟩ := seeds.all (List.forall_mem_cons.mp answered).2
    exact ⟨reported, fun mem => isOpen ((List.mem_cons.mp mem).resolve_left (by simp))⟩

/-- A rule is seeded, and then the others are. -/
theorem World.Seeds.cons {found : List (RuleId × Except SinkError (Option Alert))}
    {answer : Except SinkError RecoveryReport} {alert : Alert} (seeds : w₁.Seeds found answer w')
    (keeps : w.Keeps (· ≠ rule) w₁) (ids : w₁.ids = w.ids)
    (vacant : w₁.Vacant rule (some (w.seeded rule alert.id)) past) (started : w.Untold → past = []) :
    w.Seeds ((rule, .ok (some alert)) :: found) answer w' := by
  have seeded : w₁.firing rule = if (w.firing rule).isOpen then w.firing rule else .recovered rule alert.id :=
    World.firing_seeded vacant
  have opened : (w₁.firing rule).isOpen = true := by
    rw [seeded]
    split
    · assumption
    · rfl
  have first (rule' : RuleId) : w₁.firing rule' = w.firing rule' ∨
      rule' = rule ∧ w₁.firing rule' = .recovered rule alert.id := by
    by_cases same : rule' = rule
    · subst same
      rw [seeded]
      split
      · exact .inl rfl
      · exact .inr ⟨rfl, rfl⟩
    · rw [World.firing_eq, keeps.held same, ← World.firing_eq]
      exact .inl rfl
  refine ⟨seeds.line, seeds.rules.trans keeps.rules, seeds.ids.trans ids, fun rule' => ?_, fun answered => ?_,
    fun before => ?_⟩
  · rcases seeds.each rule' with same | ⟨alert', mem, same⟩
    · rw [same]
      refine (first rule').imp_right fun recovered => ⟨alert, ?_, ?_⟩
      · rw [recovered.1]
        exact List.mem_cons_self
      · rw [recovered.2, recovered.1]
    · exact .inr ⟨alert', List.mem_cons_of_mem _ mem, same⟩
  · obtain ⟨reported, isOpen⟩ := seeds.all (List.forall_mem_cons.mp answered).2
    refine ⟨reported, fun {rule' alert'} mem => ?_⟩
    rcases List.mem_cons.mp mem with same | mem
    · obtain ⟨rfl, -⟩ := Prod.mk.inj same
      rcases seeds.each rule' with same | ⟨alert', -, same⟩
      · rw [same]
        exact opened
      · rw [same]
        rfl
    · exact isOpen mem
  · rw [started before] at vacant
    refine seeds.untold (before.one keeps vacant ?_)
    rw [Option.getD_some, World.seeded, Holding.seed_outbox]
    exact before.held rule

theorem ensures_seedRules {found : List (RuleId × Except SinkError (Option Alert))} {report : RecoveryReport}
    (line : w.InLine) (calm : ∀ {w w'}, outside w w' → w.Elsewhere w')
    (known : ∀ pair ∈ found, ∃ r, w.rule? pair.1 = some r) :
    (seedRules found report : Prog T _).Ensures (Pact.alone outside) team w (w.Seeds found) := by
  induction found generalizing w report with
  | nil => exact ensures_pure ⟨line, rfl, rfl, fun _ => .inl rfl, fun _ => ⟨⟨report, rfl⟩, by simp⟩, id⟩
  | cons pair rest ih =>
    obtain ⟨rule, look⟩ := pair
    obtain ⟨⟨r, here⟩, others⟩ := List.forall_mem_cons.mp known
    rcases look with e | _ | alert
    · refine ensures_pure ⟨line, rfl, rfl, fun _ => .inl rfl, fun all => ?_, id⟩
      obtain ⟨look, answered⟩ := all _ List.mem_cons_self
      exact absurd answered (by simp)
    · exact (ih line others).weaken fun _ _ seeds => seeds.skip rule
    · refine ((ensures_seed (line.rest.vacant rule) alert.id).alone calm).bind ?_
      rintro isNew w₁ ⟨vacant, keeps, quiet⟩
      have known₁ : ∀ pair ∈ rest, ∃ r, w₁.rule? pair.1 = some r := fun pair mem => by
        rw [World.rule?, keeps.rules]
        exact others pair mem
      exact (ih (line.seed here keeps vacant) known₁).weaken fun _ _ seeds =>
        seeds.cons keeps quiet.ids vacant fun before => before.past rule

/-! ### Closing stray alerts -/

theorem ensures_trackedAlert (v : w.Vacant rule h past) :
    (trackedAlert rule : Prog T _).Ensures (Pact.desk rule) Team.nobody w fun answer w' =>
      answer = h.bind (·.state.openAlertId) ∧ w'.Vacant rule h past := by
  refine ensures_request ((Request.handled_existingSlot v).imp fun answer w₁ answered => ?_)
  rcases answered with ⟨rfl, rfl, vacant⟩ | ⟨held, id, ticket, rfl, rfl, seated⟩
  · exact ensures_pure ⟨rfl, vacant⟩
  · obtain ⟨self, vacant⟩ := seated.leave
    refine ⟨self, ?_, vacant⟩
    exact congrArg FiringState.openAlertId seated.state

/-- The slot of a stray alert is left with the state that it had. It is retired if the rule is gone. -/
theorem ensures_resolveStray {alert : Alert} (v : w.Vacant alert.ruleId h past) (orphaned : Bool) :
    (resolveStray alert orphaned : Prog T _).Ensures (Pact.desk alert.ruleId) Team.nobody w fun _ w' =>
      ∃ g past', w'.Vacant alert.ruleId (if orphaned then g.remains else some g) past' ∧
        g.state = (h.getD (.initial alert.ruleId)).state ∧ g.retired = orphaned ∧
        ∀ d ∈ g.outbox, (∃ d₀ ∈ (h.getD (.initial alert.ruleId)).outbox, d₀.event = d.event) ∨
          d.event.ruleId = alert.ruleId := by
  have read : w.Notes [] w.readCalendar.1 := ⟨rfl, rfl, rfl, rfl, rfl, rfl, rfl⟩
  refine ensures_step ⟨read.keeps (by simp), read.quiet (by simp)⟩ ?_
  refine ensures_request ((Request.handled_slot (v.noted read)).imp fun id w₁ ⟨ticket, seated⟩ => ?_)
  have named : (Event.resolved alert.id alert.ruleId w.readCalendar.2
    (if orphaned then .ruleRemoved else .superseded)).ruleId = alert.ruleId := rfl
  refine (ensures_dispatch seated named).bind ?_
  rintro _ w₂ ⟨a, there, passes⟩
  have waits : ∀ d ∈ a.outbox, (∃ d₀ ∈ (h.getD (.initial alert.ruleId)).outbox, d₀.event = d.event) ∨
      d.event.ruleId = alert.ruleId := fun d mem => (passes.outbox d mem).imp_right fun new => by
    rw [List.mem_singleton.mp new]
    exact named
  cases orphaned with
  | true =>
    obtain ⟨self, retired⟩ := there.retire
    obtain ⟨self', vacant⟩ := retired.release
    exact ⟨(Pact.desk alert.ruleId).goesOn self self', _, _, vacant, passes.state, rfl, waits⟩
  | false =>
    obtain ⟨self, vacant⟩ := there.leave
    exact ⟨self, _, _, vacant, passes.state, passes.retired, waits⟩

/-- What is left of the slot of a stray alert keeps all firing states in line. -/
theorem World.InLine.stray {g : Holding} {orphaned : Bool} (line : w.InLine)
    (gone : orphaned = true ↔ w.rule? rule = none) (keeps : w.Keeps (· ≠ rule) w')
    (vacant : w'.Vacant rule (if orphaned then g.remains else some g) past)
    (state : g.state = ((w.engine.tracker.held rule).getD (.initial rule)).state) (retired : g.retired = orphaned)
    (waits : ∀ d ∈ g.outbox, (∃ d₀ ∈ ((w.engine.tracker.held rule).getD (.initial rule)).outbox, d₀.event = d.event) ∨
      d.event.ruleId = rule) : w'.InLine := by
  have tagged : ∀ d ∈ g.outbox, d.event.ruleId = rule := fun d mem => by
    rcases waits d mem with ⟨d₀, old, same⟩ | new
    · cases before : w.engine.tracker.held rule with
      | none => exact absurd old (by simp [before, Holding.initial])
      | some h₀ =>
        rw [before] at old
        exact same ▸ line.rest.tagged rule h₀ before d₀ old
    · exact new
  have current : ∀ r ∈ w.rule? rule, ∀ known ∈ g.state.fingerprint, known = r.fingerprint := by
    rw [state, ← World.firing_eq]
    exact fun r => line.fits
  cases orphaned with
  | true =>
    refine line.one keeps vacant (Holding.tagged_remains tagged) fun held mem => ?_
    obtain ⟨rfl, waits⟩ := Holding.mem_remains mem
    refine ⟨fun now => ⟨?_, waits now⟩, fun _ => retired, current⟩
    rw [state]
    cases before : w.engine.tracker.held rule with
    | none => rfl
    | some h₀ => exact line.spent before ((line.each rule h₀ before).gone (gone.mp rfl))
  | false =>
    refine line.one keeps vacant (fun held mem => Option.some.inj mem ▸ tagged) fun held mem => ?_
    obtain rfl := Option.some.inj mem
    refine ⟨fun now => absurd (retired.symm.trans now) Bool.false_ne_true, fun absent => ?_, current⟩
    exact absurd (gone.mpr absent) Bool.false_ne_true

theorem ensures_resolveStrays {alerts : List Alert} {snapshot : RuleSnapshot} {report : RecoveryReport}
    (line : w.InLine) (calm : ∀ {w w'}, outside w w' → w.Elsewhere w')
    (loaded : w.engine.rules.snapshot = snapshot) :
    (resolveStrays snapshot alerts report : Prog T _).Ensures (Pact.alone outside) team w fun r w' =>
      w'.InLine ∧ report.strays ≤ r.strays ∧ (r.strays = report.strays → w.Untold → w'.Untold) := by
  induction alerts generalizing w report with
  | nil => exact ensures_pure ⟨line, Nat.le_refl _, fun _ => id⟩
  | cons alert rest ih =>
    refine ((ensures_trackedAlert (line.rest.vacant alert.ruleId)).alone calm).bind ?_
    rintro tracked w₁ ⟨⟨-, vacant⟩, keeps, -⟩
    have line₁ : w₁.InLine := line.one keeps vacant (line.rest.tagged alert.ruleId) (line.each alert.ruleId)
    have loaded₁ : w₁.engine.rules.snapshot = snapshot := by rw [keeps.rules, loaded]
    have goes (orphaned : Bool) (report' : RecoveryReport) (gone : orphaned = true ↔ w₁.rule? alert.ruleId = none)
        (more : report.strays < report'.strays) :
        (do resolveStray alert orphaned; resolveStrays snapshot rest report' : Prog T _).Ensures
          (Pact.alone outside) team w₁ fun r w' =>
            w'.InLine ∧ report.strays ≤ r.strays ∧ (r.strays = report.strays → w.Untold → w'.Untold) := by
      refine ((ensures_resolveStray (line₁.rest.vacant alert.ruleId) orphaned).alone calm).bind ?_
      rintro _ w₂ ⟨⟨g, past, vacant, state, retired, waits⟩, keeps', -⟩
      have line₂ : w₂.InLine := line₁.stray gone keeps' vacant state retired waits
      refine (ih line₂ (by rw [keeps'.rules, loaded₁])).weaken ?_
      rintro r w₃ ⟨line₃, grows, -⟩
      exact ⟨line₃, by omega, fun same => by omega⟩
    have known : w₁.rule? alert.ruleId = none ↔ snapshot.contains alert.ruleId = false := by
      rw [World.rule?, loaded₁, RuleSnapshot.get?, RuleSnapshot.contains, Std.TreeMap.get?_eq_getElem?,
        Std.TreeMap.contains_eq_isSome_getElem?, Option.isSome_eq_false_iff, Option.isNone_iff_eq_none]
    split
    · refine (ih line₁ loaded₁).weaken ?_
      rintro r w₂ ⟨line₂, grows, untold⟩
      refine ⟨line₂, grows, fun same before => ?_⟩
      rw [before.past] at vacant
      exact untold same (before.one keeps vacant (before.held alert.ruleId))
    · split
      · next there => exact goes false _ (by rw [known, there]; simp) (by simp [RecoveryReport.strays])
      · next absent => exact goes true _ (by rw [known]; simpa using absent) (by simp [RecoveryReport.strays])

/-! ### The whole recovery -/

theorem World.InLine.claims {rules : List Rule} (line : w.InLine) (fetched : w.Fetched (.ok rules) w₁)
    (untracked : ∀ rule, w.engine.tracker.held rule = none) :
    (w₁.claimGeneration w₁.engine.rules.snapshot.generation).1 =
        w₁.claimed w₁.engine.rules.snapshot.generation ∧
      (w₁.claimed w₁.engine.rules.snapshot.generation).InLine := by
  obtain ⟨now, same⟩ := fetched.took
  have newer : w₁.engine.reconciled < w₁.engine.rules.snapshot.generation := by
    rw [fetched.reconciled, line.reconciled, same, RuleSnapshot.generation_build]
    exact Nat.lt_succ_self _
  refine ⟨?_, (fetched.atRest line.rest).of_same rfl rfl, rfl, fun rule h held => ?_⟩
  · rw [World.claimGeneration, if_pos newer]
    rfl
  · have none := untracked rule
    rw [← fetched.tracker] at none
    exact absurd (none.symm.trans held) (by simp)

/-- On a new engine a recovery leaves all firing states in line, however far it gets; and no event is handed over
if it comes to its end and finds no stray alert. -/
theorem ensures_recover (line : w.InLine) (calm : ∀ {w w'}, outside w w' → w.Elsewhere w')
    (untracked : ∀ rule, w.engine.tracker.held rule = none) :
    (recover : Prog T _).Ensures (Pact.alone outside) team w fun answer w' => w'.InLine ∧
      ∀ report, answer = .ok report → report.strays = 0 → w.Untold → w'.Untold := by
  refine ensures_then (ensures_refreshRules line.rest calm ?_)
  rintro (e | rules) w₁ fetched -
  · have same : w₁.engine.rules.snapshot = w.engine.rules.snapshot := fetched.took
    refine ensures_pure ⟨line.of_same fetched.tracker same fetched.reconciled (fetched.atRest line.rest), ?_⟩
    exact fun report ended => absurd ended (by simp)
  · obtain ⟨now, same⟩ := id fetched.took
    obtain ⟨claims, line₁⟩ := line.claims fetched untracked
    refine ensures_step trivial ?_
    rw [claims]
    refine ensures_read (ensures_request ((Request.handled_findOpen calm _).imp fun found w₂ unmoved => ?_))
    have line₂ := unmoved.inLine line₁
    have loaded : w₂.engine.rules.snapshot = w₁.engine.rules.snapshot :=
      congrArg RuleStore.snapshot unmoved.rules
    refine (ensures_seedRules line₂ calm fun pair mem => ?_).bind ?_
    · have sound : w₁.engine.rules.snapshot.Sound := by
        rw [same]
        exact RuleSnapshot.sound_build ..
      rw [World.rule?, loaded]
      exact sound.known_of_listed (List.of_mem_zip mem).1
    · rintro (e | report) w₃ ⟨line₃, rules₃, -, -, -, untold₃⟩
      · exact ensures_pure ⟨line₃, fun report ended => absurd ended (by simp)⟩
      · refine ensures_request ((Request.handled_findAll calm).imp fun listed w₄ unmoved' => ?_)
        have line₄ := unmoved'.inLine line₃
        cases listed with
        | error e => exact ensures_pure ⟨line₄, fun report ended => absurd ended (by simp)⟩
        | ok alerts =>
          have loaded₄ : w₄.engine.rules.snapshot = w₁.engine.rules.snapshot := by
            rw [unmoved'.rules, rules₃, loaded]
          refine (ensures_resolveStrays line₄ calm loaded₄).bind ?_
          rintro r w₅ ⟨line₅, grows, untold₅⟩
          refine ensures_pure ⟨line₅, fun r' same swept untold => ?_⟩
          obtain rfl := Except.ok.inj same
          have claimed : (w₁.claimed w₁.engine.rules.snapshot.generation).Untold :=
            untold.of_same fetched.tracker fetched.journal
          have untold₄ := (untold₃ (claimed.of_same unmoved.tracker unmoved.journal)).of_same unmoved'.tracker
            unmoved'.journal
          exact untold₅ (by omega) untold₄

end Rebuilds

end ThresholdAlerts
