import ThresholdAlerts.Proofs.Renaming
import ThresholdAlerts.Proofs.Rounds
import ThresholdAlerts.Proofs.Timeline
/-! Samples that are taken while the rules stay as they are. Main statement: while a call takes a sample, each
rule that watches its metric is free before it and has judged the sample after it, whatever is done for other
rules in the meantime. -/
namespace ThresholdAlerts

open Prog

def World.watchers (w : World) (metric : String) : List Rule :=
  w.engine.rules.snapshot.rulesFor metric

def Sample.call (x : Sample) : Call :=
  .sample x.metricKey x.value x.time

/-- What a call is set up to do that takes a sample: the rules that watch the metric judge it side by side. -/
def Sample.judging (x : Sample) : List Rule → CallThread Reply
  | [] => .finished (.events [])
  | rules => .joining ((rules.map fun r => Visit.evaluate r.id x.metricKey x.value x.time).map Visit.tasks.ready) {}
      fun results => .done (.events results.flatten)

/-- No call is under way, the rules are up to date, and nothing waits to be delivered. The ids of new alerts
are distinct, and no alert is open under one of them. -/
structure World.Ready (w : World) : Prop where
  rest : w.AtRest
  fresh : w.engine.rules.invalidated = false
  reconciled : w.engine.rules.snapshot.generation ≤ w.engine.reconciled
  delivered : ∀ rule, (w.account rule).outbox = []
  distinct : Function.Injective w.ids.value
  unused : ∀ rule, ∀ id ∈ (w.firing rule).openAlertId, ∀ n, w.ids.taken ≤ n → w.ids.value n ≠ id

/-- Since `w₀` a rule has judged some samples, and nobody sits at its desk. While every call to the sink is
accepted, what it produced was sent, and nothing waits. -/
def World.HasJudged (w₀ : World) (r : Rule) (samples : List Sample) (events : List Event) (w : World) : Prop :=
  ∃ h news, w.Vacant r.id h (news ++ (w₀.account r.id).past) ∧
    (w₀.firing r.id).Follows r samples events (h.getD (.initial r.id)).state ∧
    (Happening.AllAccepted news → (h.getD (.initial r.id)).outbox = [] ∧
      (news.filterMap Happening.produced?).reverse = events ∧ (news.filterMap Happening.sent?).reverse = events)

/-- How far a call has come that takes a sample. The rules that watch its metric have judged `samples` before
it, and produced `events`. -/
def Sample.At (w₀ : World) (x : Sample) (samples : List Sample) (events : RuleId → List Event) (w : World) :
    CallThread Reply → Prop
  | .ready p => p = x.call.program ∧ ∀ r ∈ w₀.watchers x.metricKey, w₀.HasJudged r samples (events r.id) w
  | .joining visits _ next => (∀ results, next results = .done (.events results.flatten)) ∧
      List.Forall₂ (fun r v => Thread.Keeps (Pact.judging r.id)
        (fun new w' => w₀.HasJudged r (samples ++ [x]) (events r.id ++ new) w') w v)
        (w₀.watchers x.metricKey) visits
  | .finished reply => ∃ news, reply = .events news.flatten ∧
      List.Forall₂ (fun r new => w₀.HasJudged r (samples ++ [x]) (events r.id ++ new) w) (w₀.watchers x.metricKey) news
  | .waiting .. => False

/-! ### Up to the first wait -/

section Stretching

variable {T C α β : Type} (t : Tasks T C) (w : World)

theorem Prog.stretch_read (f : World → α) (k : α → Prog T β) : (read f >>= k).stretch t w = (k (f w)).stretch t w := rfl

theorem Prog.stretch_modify (f : World → World) (k : Unit → Prog T β) :
    (modify f >>= k).stretch t w = (k ()).stretch t (f w) := rfl

theorem Prog.stretch_step (f : World → World × α) (k : α → Prog T β) :
    (step f >>= k).stretch t w = (k (f w).2).stretch t (f w).1 := rfl

theorem Prog.then_assoc (p : Prog T α) (f : α → Prog T β) {γ : Type} (g : β → Prog T γ) :
    p >>= f >>= g = p >>= fun a => f a >>= g := by
  change (p.bind f).bind g = p.bind fun a => (f a).bind g
  induction p with
  | done a => rfl
  | get next ih => exact congrArg Prog.get (funext ih)
  | set w next ih => exact congrArg (Prog.set w) ih
  | ask r next ih => exact congrArg (Prog.ask r) (funext ih)
  | fork ts next ih => exact congrArg (Prog.fork ts) (funext ih)

end Stretching

section Evaluations

variable {w₀ w w' : World} {r : Rule} {x : Sample} {samples : List Sample} {events : List Event}
  {made : RuleId → List Event}

theorem World.Ready.hasJudged (ready : w₀.Ready) (r : Rule) : w₀.HasJudged r [] [] w₀ := by
  have vacant := ready.rest.vacant r.id
  have delivered := ready.delivered r.id
  rw [vacant.account] at delivered
  refine ⟨w₀.engine.tracker.held r.id, [], vacant, ?_, fun _ => ⟨delivered, rfl, rfl⟩⟩
  rw [← World.firing_eq]
  exact .nil _

theorem World.HasJudged.others (judged : w₀.HasJudged r samples events w) (keeps : w.Keeps (· = r.id) w') :
    w₀.HasJudged r samples events w' := by
  obtain ⟨h, news, vacant, follows, accepted⟩ := judged
  exact ⟨h, news, vacant.others keeps, follows, accepted⟩

theorem World.HasJudged.named (judged : w₀.HasJudged r samples events w) (rest : w₀.AtRest) :
    ∀ event ∈ events, event.ruleId = r.id := by
  obtain ⟨h, news, vacant, follows, accepted⟩ := judged
  exact follows.named (rest.firing_ruleId r.id).symm

theorem Happening.AllAccepted.append {news news' : List Happening} (h : Happening.AllAccepted (news ++ news')) :
    Happening.AllAccepted news ∧ Happening.AllAccepted news' :=
  ⟨fun e error mem => h e error (List.mem_append_left _ mem),
    fun e error mem => h e error (List.mem_append_right _ mem)⟩

theorem filterMap_smooth (events : List Event) :
    (((events.reverse.map Event.smooth).flatten).filterMap Happening.produced? = []) ∧
      (((events.reverse.map Event.smooth).flatten).filterMap Happening.sent?).reverse = events := by
  induction events with
  | nil => exact ⟨rfl, rfl⟩
  | cons e rest ih =>
    obtain ⟨produced, sent⟩ := ih
    rw [List.reverse_cons, List.map_append, List.flatten_append, List.filterMap_append, List.filterMap_append, produced,
      List.reverse_append, sent]
    exact ⟨rfl, rfl⟩

/-- The visit of a rule that is free judges one more sample. -/
theorem ensures_judged (judged : w₀.HasJudged r samples events w) (known : w.rule? r.id = some r)
    (watches : r.metricKey = x.metricKey) :
    (evaluate r.id x.metricKey x.value x.time : Prog Empty (List Event)).Ensures (Pact.judging r.id) Team.nobody w
      fun new w' => w₀.HasJudged r (samples ++ [x]) (events ++ new) w' := by
  obtain ⟨h, news, vacant, follows, accepted⟩ := judged
  refine (ensures_evaluate vacant known rfl watches x.value x.time).weaken ?_
  rintro new w' ⟨fresh, a, rfl, passes, vacant'⟩
  obtain ⟨news', past, smooth⟩ := passes.past
  let produced := (((h.getD (.initial r.id)).state.judge fresh r x.value x.time).2.map Happening.produced).reverse
  have grown : a.past = (news' ++ produced ++ news) ++ (w₀.account r.id).past := by
    rw [past]
    simp [Holding.judged, produced]
  refine ⟨some a.holding, news' ++ produced ++ news, grown ▸ vacant', ?_, fun all => ?_⟩
  · have state : a.holding.state = ((h.getD (.initial r.id)).state.judge fresh r x.value x.time).1 := passes.state
    rw [Option.getD_some, state]
    exact follows.snoc fresh
  · obtain ⟨late, early⟩ := all.append
    obtain ⟨empty, produced_eq, sent_eq⟩ := accepted early
    obtain ⟨empty', shape⟩ := smooth late.append.1 empty
    obtain ⟨silent, sends⟩ := filterMap_smooth ((h.getD (.initial r.id)).state.judge fresh r x.value x.time).2
    rw [← shape] at silent sends
    have early_silent : produced.filterMap Happening.sent? = [] := by
      simp [produced, List.filterMap_map, Function.comp_def, Happening.sent?]
    have made : produced.filterMap Happening.produced? =
        ((h.getD (.initial r.id)).state.judge fresh r x.value x.time).2.reverse := by
      simp [produced, List.filterMap_map, Function.comp_def, Happening.produced?]
    refine ⟨empty', ?_, ?_⟩
    · simp only [List.filterMap_append, silent, made, List.nil_append, List.reverse_append, List.reverse_reverse,
        produced_eq]
    · simp only [List.filterMap_append, early_silent, List.append_nil, List.reverse_append, sends, sent_eq]

theorem stretch_sample (x : Sample) (fresh : w.engine.rules.invalidated = false)
    (older : w.engine.rules.snapshot.generation ≤ w.engine.reconciled) :
    ∃ w', w.Notes [] w' ∧ x.call.program.stretch Visit.tasks w = (w', x.judging (w.watchers x.metricKey)) := by
  have goes (w₁ : World) (rules : w₁.engine.rules = w.engine.rules)
      (same : w₁.engine.reconciled = w.engine.reconciled) :
      Prog.stretch Visit.tasks
        (do return Reply.events (← evaluateAll (← currentRules) x.metricKey x.value x.time)) w₁ =
        (w₁, x.judging (w.watchers x.metricKey)) := by
    have passes : w₁.claimGeneration w.engine.rules.snapshot.generation = (w₁, false) := by
      rw [World.claimGeneration, same, if_neg (Nat.not_lt_of_le older)]
    rw [currentRules]
    simp only [Prog.then_assoc, Prog.stretch_read, rules, fresh, Bool.false_eq_true, if_false, evaluateAll,
      reconcileIfNewer, Prog.stretch_step, passes]
    rw [World.watchers]
    cases w.engine.rules.snapshot.rulesFor x.metricKey with
    | nil => rfl
    | cons r rest => rfl
  rw [Sample.call, Call.program, takeSample]
  simp only [Prog.then_assoc, Prog.stretch_modify]
  split
  · simp only [Prog.then_assoc, Prog.stretch_modify]
    refine ⟨_, ?_, goes _ rfl rfl⟩
    exact ⟨rfl, rfl, rfl, rfl, rfl, rfl, rfl⟩
  · rw [Prog.then_assoc]
    refine ⟨_, ?_, goes _ rfl rfl⟩
    exact ⟨rfl, rfl, rfl, rfl, rfl, rfl, rfl⟩

/-! ### Moves -/

theorem World.watchers_apart (rest : w₀.AtRest) {metric metric' : String} {r r' : Rule} (mem : r ∈ w₀.watchers metric)
    (mem' : r' ∈ w₀.watchers metric') (same : r.id = r'.id) : metric = metric' ∧ r = r' := by
  obtain ⟨known, watches⟩ := rest.indexed.listed mem
  obtain ⟨known', watches'⟩ := rest.indexed.listed mem'
  rw [same, known'] at known
  obtain rfl := Option.some.inj known
  exact ⟨watches.symm.trans watches', rfl⟩

theorem World.AtRest.watchers_once (rest : w.AtRest) (metric : String) : ((w.watchers metric).map Rule.id).Nodup :=
  rest.indexed.once metric

theorem forall₂_imp_mem {R R' : α → β → Prop} {l : List α} {l' : List β} (h : List.Forall₂ R l l')
    (next : ∀ a ∈ l, ∀ b, R a b → R' a b) : List.Forall₂ R' l l' := by
  induction h with
  | nil => exact .nil
  | cons here others ih =>
    obtain ⟨first, later⟩ := List.forall_mem_cons.mp next
    exact .cons (first _ here) (ih later)

theorem Sample.At.others {c : CallThread Reply} (here : x.At w₀ samples made w c)
    (keeps : w.Keeps (· ∈ (w₀.watchers x.metricKey).map Rule.id) w') : x.At w₀ samples made w' c := by
  have own (r : Rule) (mem : r ∈ w₀.watchers x.metricKey) : w.Keeps (· = r.id) w' :=
    keeps.mono fun same => same ▸ List.mem_map_of_mem mem
  cases c with
  | ready p => exact ⟨here.1, fun r mem => (here.2 r mem).others (own r mem)⟩
  | finished reply =>
    obtain ⟨news, same, each⟩ := here
    exact ⟨news, same, forall₂_imp_mem each fun r mem new judged => judged.others (own r mem)⟩
  | waiting => exact here
  | joining visits line next =>
    obtain ⟨ends, each⟩ := here
    refine ⟨ends, forall₂_imp_mem each fun r mem visit stands => ?_⟩
    exact stands.others (fun judged keeps => judged.others keeps) (own r mem)

theorem Sample.At.congr {made' : RuleId → List Event} {c : CallThread Reply} (here : x.At w₀ samples made w c)
    (same : ∀ r ∈ w₀.watchers x.metricKey, made' r.id = made r.id) : x.At w₀ samples made' w c := by
  cases c with
  | ready p => exact ⟨here.1, fun r mem => same r mem ▸ here.2 r mem⟩
  | finished reply =>
    obtain ⟨news, eq, each⟩ := here
    exact ⟨news, eq, forall₂_imp_mem each fun r mem new judged => same r mem ▸ judged⟩
  | waiting => exact here
  | joining visits line next =>
    obtain ⟨ends, each⟩ := here
    exact ⟨ends, forall₂_imp_mem each fun r mem visit stands => same r mem ▸ stands⟩

/-- A move of the call leaves all other rules alone. -/
theorem Sample.At.move {c c' : CallThread Reply} (ready : w₀.Ready) (rules : w.engine.rules = w₀.engine.rules)
    (reconciled : w.engine.reconciled = w₀.engine.reconciled) (here : x.At w₀ samples made w c)
    (move : CallThread.Move w c w' c') :
    x.At w₀ samples made w' c' ∧ w.Keeps (· ∉ (w₀.watchers x.metricKey).map Rule.id) w' ∧ w.Draws w' := by
  have still : w.Keeps (· ∉ (w₀.watchers x.metricKey).map Rule.id) w ∧ w.Draws w :=
    ⟨.refl _ w, (World.Quiet.refl w).draws⟩
  have listed : ∀ r ∈ w₀.watchers x.metricKey, w.rule? r.id = some r ∧ r.metricKey = x.metricKey := by
    intro r mem
    rw [World.rule?, rules]
    exact ready.rest.indexed.listed mem
  cases move with
  | @begin p =>
    obtain ⟨rfl, free⟩ := here
    obtain ⟨w₁, notes, goes⟩ := stretch_sample x (w := w) (by rw [rules]; exact ready.fresh)
      (by rw [rules, reconciled]; exact ready.reconciled)
    rw [goes]
    refine ⟨?_, notes.keeps (by simp), (notes.quiet (by simp)).draws⟩
    have same : w.watchers x.metricKey = w₀.watchers x.metricKey := by rw [World.watchers, rules, World.watchers]
    have visits : List.Forall₂ (fun r v => Thread.Keeps (Pact.judging r.id)
        (fun new w' => w₀.HasJudged r (samples ++ [x]) (made r.id ++ new) w') w₁ v) (w₀.watchers x.metricKey)
        (((w₀.watchers x.metricKey).map fun r => Visit.evaluate r.id x.metricKey x.value x.time).map
          Visit.tasks.ready) := by
      rw [List.map_map, List.forall₂_map_right_iff]
      refine List.forall₂_same.mpr fun r mem => ?_
      refine ⟨fun w' => w₀.HasJudged r samples (made r.id) w' ∧ w'.rule? r.id = some r, ⟨?_, ?_⟩,
        fun here keeps => ⟨here.1.others keeps, ?_⟩, fun here => ensures_judged here.1 here.2 (listed r mem).2⟩
      · exact (free r mem).others (notes.keeps (by simp))
      · rw [World.rule?, notes.rules]
        exact (listed r mem).1
      · rw [World.rule?, keeps.rules]
        exact here.2
    rw [same]
    cases watchers : w₀.watchers x.metricKey with
    | nil => exact ⟨[], rfl, by rw [watchers]; exact .nil⟩
    | cons r rest =>
      rw [watchers] at visits
      exact ⟨fun _ => rfl, by rw [watchers]; exact visits⟩
  | resume => exact here.elim
  | wait => exact here.elim
  | @child visits line next i v _ v' member moved =>
    obtain ⟨ends, each⟩ := here
    have inside : i < (w₀.watchers x.metricKey).length :=
      each.length_eq ▸ (List.getElem?_eq_some_iff.mp member).1
    have stands := each.get inside (List.getElem?_eq_some_iff.mp member).1
    simp only [List.get_eq_getElem, (List.getElem?_eq_some_iff.mp member).2] at stands
    obtain ⟨⟨keeps, draws⟩, stands'⟩ := stands.move moved
    have frame : w.Keeps (· ∉ (w₀.watchers x.metricKey).map Rule.id) w' := keeps.mono fun away same =>
      away (same ▸ List.mem_map_of_mem (List.getElem_mem inside))
    refine ⟨⟨ends, forall₂_set each member (fun r there _ => ?_) fun j r other ne there stands'' => ?_⟩, frame, draws⟩
    · obtain rfl := Option.some.inj ((List.getElem?_eq_getElem inside).symm.trans there)
      exact stands'
    · refine stands''.others (fun judged keeps => judged.others keeps) (keeps.mono fun same mine => ne ?_)
      obtain ⟨inside', rfl⟩ := List.getElem?_eq_some_iff.mp there
      have once := ready.rest.watchers_once x.metricKey
      refine (@List.Nodup.getElem_inj_iff _ _ once j (by simpa using inside') i (by simpa using inside)).mp ?_
      rw [List.getElem_map, List.getElem_map]
      exact same.symm.trans mine
  | line => exact ⟨here, still⟩
  | @join visits line next results all =>
    obtain ⟨ends, each⟩ := here
    rw [ends]
    refine ⟨⟨results, rfl, Errand.forall₂_results each all fun r events there => there⟩, still⟩

end Evaluations

end ThresholdAlerts
