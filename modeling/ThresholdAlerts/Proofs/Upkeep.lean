import ThresholdAlerts.Proofs.Calm
/-! Upkeep of a calm world. Main statement: refreshes of the rules, passes over the backlogs and reports leave
everything as it is, whatever else goes on; a report then tells of no delivery that waits. -/
namespace ThresholdAlerts

open Prog

section Upkeep

variable {T : Type} {team : Team T} {rules : List Rule} {mine : RuleId → Prop} {steady : Prop} {P : World → Prop}
  {w w' : World} {rule : RuleId} {id : SlotId} {r : Rule}

namespace World.AtPeace

theorem rule?_eq (calm : w.AtPeace rules) (rule : RuleId) : w.rule? rule = Rule.inForce rules rule := by
  obtain ⟨generation, time, loaded⟩ := calm.loaded
  rw [rule?, loaded, RuleSnapshot.get?_build, Rule.inForce]

theorem reconcile (calm : w.AtPeace rules) (found : w.engine.tracker.find? rule = some id) :
    (w.reconcile id rule false).2 = none ∧ w.Rests rules (w.reconcile id rule false).1 := by
  obtain ⟨r, known⟩ := calm.tracker.known found
  have reads : w.Rests rules w.readCalendar.1 := calm.aside rfl rfl rfl rfl rfl rfl rfl (Nat.le_refl _) rfl
  have read := calm.rests reads
  have listed : w.readCalendar.1.rule? rule = some r := (read.rule?_eq rule).trans known
  have same : w.reconcile id rule false = w.readCalendar.1.change id (.sync r w.readCalendar.2) := by
    rw [World.reconcile]
    generalize w.readCalendar = moment at listed
    obtain ⟨w₁, now⟩ := moment
    dsimp only at listed ⊢
    rw [listed]
    rfl
  obtain ⟨silent, rests⟩ := read.sync (reads.tracker.stays found) known w.readCalendar.2
  rw [same]
  exact ⟨silent, reads.trans rests⟩

theorem rests_unmark (calm : w.AtPeace rules) (rule : RuleId) :
    w.Rests rules (w.onTracker (·.unmarkBacklogged rule)) := by
  have coherent := calm.tracker.coherent
  have coherent' : (w.engine.tracker.unmarkBacklogged rule).Coherent :=
    ⟨coherent.found, coherent.named, coherent.kept, coherent.below⟩
  exact .of_tracker (.of_alike coherent' (fun _ => .refl _) id .inl) rfl rfl rfl rfl rfl

theorem rests_loadRules (calm : w.AtPeace rules) : w.Rests rules (w.loadRules rules).1 :=
  ⟨.refl calm.tracker.coherent, .inr ⟨_, _, rfl⟩, rfl, rfl, rfl, rfl, rfl, Nat.le_refl _, rfl⟩

theorem rests_claimGeneration (calm : w.AtPeace rules) (generation : Nat) :
    w.Rests rules (w.claimGeneration generation).1 := by
  rw [claimGeneration]
  split
  · exact calm.aside rfl rfl rfl rfl rfl rfl rfl (Nat.le_refl _) rfl
  · exact .refl calm

end World.AtPeace

/-! ### Work on one rule -/

theorem calm_reconcileRule (leaves : (Pact.calm rules mine steady).Leaves P) (here : w.AtPeace rules ∧ P w) :
    (reconcileRule rule false : Prog T _).Ensures (Pact.calm rules mine steady) team w fun events w' =>
      events = [] ∧ w'.AtPeace rules ∧ P w' := by
  refine ensures_request ((Request.calm_existingSlot leaves here).imp fun answer w₁ ⟨there, found⟩ => ?_)
  cases answer with
  | none => exact ensures_pure ⟨rfl, there⟩
  | some slot =>
    have found := found slot rfl
    obtain ⟨silent, rests⟩ := there.1.reconcile found
    refine ensures_step (Pact.calm_self fun _ => rests) ?_
    rw [silent]
    have there' := leaves.rests there rests
    have found' := rests.tracker.stays found
    have lets := there'.1.rests_release found'
    exact ensures_modify (Pact.calm_self fun _ => lets) (ensures_pure ⟨rfl, leaves.rests there' lets⟩)

theorem calm_retryRule (leaves : (Pact.calm rules mine steady).Leaves P) (here : w.AtPeace rules ∧ P w)
    (report : RetryReport) :
    (retryRule rule report : Prog T _).Ensures (Pact.calm rules mine steady) team w fun _ w' =>
      w'.AtPeace rules ∧ P w' := by
  refine ensures_request ((Request.calm_existingSlot leaves here).imp fun answer w₁ ⟨there, found⟩ => ?_)
  have unmarks := there.1.rests_unmark rule
  cases answer with
  | none => exact ensures_modify (Pact.calm_self fun _ => unmarks) (ensures_pure (leaves.rests there unmarks))
  | some slot =>
    have found := found slot rfl
    have empty : (w₁.slot slot).outbox = [] := there.1.tracker.slot_empty found
    have there' := leaves.rests there unmarks
    have lets := unmarks.trans (there'.1.rests_release (unmarks.tracker.stays found))
    refine ensures_read (ensures_read ?_)
    rw [empty]
    refine ensures_read ?_
    rw [empty]
    exact ensures_modify (Pact.calm_self fun _ => lets) (ensures_pure (leaves.rests there lets))

theorem calm_retryRules (leaves : (Pact.calm rules mine steady).Leaves P) (here : w.AtPeace rules ∧ P w)
    [team.Monotone] (backlogged : List RuleId) (report : RetryReport) :
    (retryRules backlogged report : Prog T _).Ensures (Pact.calm rules mine steady) team w fun _ w' =>
      w'.AtPeace rules ∧ P w' := by
  induction backlogged generalizing w report with
  | nil => exact ensures_pure here
  | cons rule rest ih => exact (calm_retryRule leaves here report).bind fun report' w₁ there => ih there report'

/-! ### The rules -/

theorem calm_refreshRules [team.Monotone] (leaves : (Pact.calm rules mine steady).Leaves P)
    (here : w.AtPeace rules ∧ P w) :
    (refreshRules : Prog T _).Ensures (Pact.calm rules mine steady) team w fun answer w' =>
      (∃ snapshot, answer = .ok snapshot) ∧ w'.AtPeace rules ∧ P w' := by
  refine ensures_request ((Request.calm_refreshTurn leaves here).imp fun _ w₁ there => ?_)
  have marks : w₁.Rests rules (w₁.onRules (·.beginFetch)) :=
    there.1.aside rfl rfl there.1.valid.symm rfl rfl rfl rfl (Nat.le_refl _) rfl
  rw [fetchRules, Prog.then_assoc]
  refine ensures_modify (Pact.calm_self fun _ => marks) ?_
  rw [Prog.then_assoc]
  refine ensures_request ((Request.calm_fetch leaves (leaves.rests there marks)).imp ?_)
  rintro _ w₂ ⟨rfl, there₂⟩
  have loads := there₂.1.rests_loadRules
  have there₃ := leaves.rests there₂ loads
  have ends : (w₂.loadRules rules).1.Rests rules (w₂.loadRules rules).1.endTurn :=
    there₃.1.aside rfl rfl rfl rfl rfl rfl rfl (Nat.le_refl _) rfl
  dsimp only
  rw [Prog.then_assoc]
  refine ensures_step (Pact.calm_self fun _ => loads) ?_
  exact ensures_modify (Pact.calm_self fun _ => ends) (ensures_pure ⟨⟨_, rfl⟩, leaves.rests there₃ ends⟩)

/-- Bringing a rule in line is nobody's business while all is calm. -/
def Duty.reconcile (rules : List Rule) : Duty where
  pact := Pact.calm rules (fun _ => False) False
  post events _ := events = []
  stable same _ := same

theorem calm_reconcileIfNewer (leaves : (Pact.calm rules mine steady).Leaves P) (here : w.AtPeace rules ∧ P w)
    (generation : Nat) :
    (reconcileIfNewer generation).Ensures (Pact.calm rules mine steady)
      (Team.dutiful (Pact.calm rules mine steady)) w fun events w' => events = [] ∧ w'.AtPeace rules ∧ P w' := by
  have claims := here.1.rests_claimGeneration generation
  have there := leaves.rests here claims
  refine ensures_step (Pact.calm_self fun _ => claims) ?_
  split
  · refine ensures_read ?_
    generalize (w.claimGeneration generation).1.engine.tracker.ruleIds = tracked
    refine ⟨fun w' => w'.AtPeace rules ∧ P w', tracked.map fun _ => Duty.reconcile rules, ?_, there, ?_, ?_⟩
    · have duty {d : Duty} (mem : d ∈ tracked.map fun _ => Duty.reconcile rules) : d = Duty.reconcile rules := by
        obtain ⟨_, -, same⟩ := List.mem_map.mp mem
        exact same.symm
      have seen {w w' : World} (calm : w.AtPeace rules) (self : (Duty.reconcile rules).pact.self w w') :
          (Pact.calm rules mine steady).others w w' := by
        obtain ⟨calm', retains, same⟩ := self calm
        exact ⟨calm', retains.mono fun _ => id, fun _ => same⟩
      refine ⟨fun d mem w w' self calm => ?_, fun d mem w w' others => ?_, fun here others => leaves.others here others,
        fun d mem w w' here self => ?_, fun {i j d d'} _ listed listed' w w' here self => ?_⟩
      · obtain rfl := duty mem
        obtain ⟨calm', retains, same⟩ := self calm
        exact ⟨calm', retains.mono fun _ => id, same⟩
      · obtain rfl := duty mem
        exact ⟨others.1, others.2.1.mono False.elim, False.elim⟩
      · obtain rfl := duty mem
        exact leaves.others here (seen here.1 self)
      · obtain rfl := duty (List.mem_of_getElem? listed)
        obtain rfl := duty (List.mem_of_getElem? listed')
        obtain ⟨calm', retains, -⟩ := self here.1
        exact ⟨calm', retains.mono False.elim, False.elim⟩
    · rw [List.forall₂_map_left_iff, List.forall₂_map_right_iff]
      refine List.forall₂_same.mpr fun rule _ => ?_
      refine ⟨fun w' => w'.AtPeace rules ∧ True, ⟨there.1, trivial⟩, fun here others => ⟨others.1, trivial⟩,
        fun here => ?_⟩
      exact (calm_reconcileRule Pact.leaves_true here).weaken fun _ _ done => done.1
    · rintro results w' there' each
      refine ensures_pure ⟨?_, there'⟩
      rw [List.flatten_eq_nil_iff]
      intro events mem
      obtain ⟨i, inside, rfl⟩ := List.mem_iff_getElem.mp mem
      have bound : i < (tracked.map fun _ => Duty.reconcile rules).length := each.length_eq ▸ inside
      have done := each.get bound inside
      rw [List.get_eq_getElem, List.getElem_map] at done
      exact done
  · exact ensures_pure ⟨rfl, there⟩

/-! ### Calls -/

theorem calm_refresh (leaves : (Pact.calm rules mine steady).Leaves P) (here : w.AtPeace rules ∧ P w) :
    Call.refresh.program.Ensures (Pact.calm rules mine steady) (Team.dutiful (Pact.calm rules mine steady)) w
      fun _ w' => w'.AtPeace rules ∧ P w' := by
  have refreshes : refresh.Ensures (Pact.calm rules mine steady) (Team.dutiful (Pact.calm rules mine steady)) w
      fun answer w' => (∃ events, answer = .ok events) ∧ w'.AtPeace rules ∧ P w' := by
    refine (calm_refreshRules leaves here).bind ?_
    rintro _ w₁ ⟨⟨snapshot, rfl⟩, there⟩
    exact (calm_reconcileIfNewer leaves there snapshot.generation).bind fun events w₂ done =>
      ensures_pure ⟨⟨events, rfl⟩, done.2⟩
  refine refreshes.bind ?_
  rintro _ w₁ ⟨⟨events, rfl⟩, there⟩
  exact ensures_pure there

theorem calm_retry (leaves : (Pact.calm rules mine steady).Leaves P) (here : w.AtPeace rules ∧ P w) :
    Call.retry.program.Ensures (Pact.calm rules mine steady) (Team.dutiful (Pact.calm rules mine steady)) w
      fun _ w' => w'.AtPeace rules ∧ P w' := by
  have passes : retry.Ensures (Pact.calm rules mine steady) (Team.dutiful (Pact.calm rules mine steady)) w
      fun _ w' => w'.AtPeace rules ∧ P w' := ensures_read (calm_retryRules leaves here _ _)
  exact passes.bind fun _ w₁ there => ensures_pure there

/-! ### The report -/

theorem calm_summarize [team.Monotone] {slots : List SlotId} {summary : TrackerSummary}
    (leaves : (Pact.calm rules mine steady).Leaves P) (here : w.AtPeace rules ∧ P w)
    (found : ∀ id ∈ slots, ∃ rule, w.engine.tracker.find? rule = some id) :
    (summarize slots summary : Prog T _).Ensures (Pact.calm rules mine steady) team w fun s w' =>
      s.pendingDeliveries = summary.pendingDeliveries ∧ w'.AtPeace rules ∧ P w' := by
  induction slots generalizing w summary with
  | nil => exact ensures_pure ⟨rfl, here⟩
  | cons id rest ih =>
    obtain ⟨⟨rule, first⟩, others⟩ := List.forall_mem_cons.mp found
    have stay : (Pact.calm rules mine steady).Leaves fun w =>
        ∀ id ∈ rest, ∃ rule, w.engine.tracker.find? rule = some id := fun _ _ found others id mem => by
      obtain ⟨rule, there⟩ := found id mem
      exact ⟨rule, others.2.1.stays there⟩
    have leaves' := leaves.and stay
    refine ensures_request ((Request.calm_knownSlot leaves' ⟨here.1, here.2, others⟩ first).imp ?_)
    rintro _ w₁ ⟨rfl, there, first'⟩
    have lets := there.1.rests_leave first'
    obtain ⟨calm, p, others'⟩ := leaves'.rests there lets
    refine ensures_step (Pact.calm_self fun _ => lets) ?_
    refine (ih ⟨calm, p⟩ others').weaken fun s w' ⟨same, calm', p'⟩ => ⟨same.trans ?_, calm', p'⟩
    change summary.pendingDeliveries + (w₁.slot id).outbox.length = _
    rw [World.slot, there.1.tracker.slot_empty first', List.length_nil, Nat.add_zero]

def EngineHealth.Clean (h : EngineHealth) (samples : Nat) : Prop :=
  h.summary.pendingDeliveries = 0 ∧ h.deadLetters = 0 ∧ h.stats.samples = samples

theorem calm_health {samples : Nat} (calm : w.AtPeace rules) (counted : w.engine.stats.samples = samples) :
    Call.health.program.Ensures (Pact.calm rules (fun _ => False) True)
      (Team.dutiful (Pact.calm rules (fun _ => False) True)) w
      fun reply _ => ∀ h, reply = .health h → h.Clean samples := by
  have leaves : (Pact.calm rules (fun _ => False) True).Leaves fun w => w.engine.stats.samples = samples :=
    fun _ _ counted others => (others.2.2 trivial).trans counted
  have found : ∀ id ∈ w.engine.tracker.slotIds, ∃ rule, w.engine.tracker.find? rule = some id := fun _ mem =>
    mem_values.mp mem
  have reports : health.Ensures (Pact.calm rules (fun _ => False) True)
      (Team.dutiful (Pact.calm rules (fun _ => False) True)) w fun h _ => h.Clean samples := by
    refine ensures_read ((calm_summarize leaves ⟨calm, counted⟩ found).bind ?_)
    rintro summary w₁ ⟨pending, calm₁, counted₁⟩
    refine ⟨Pact.calm_self fun calm => calm.aside rfl rfl rfl rfl rfl rfl rfl (Nat.le_refl _) rfl, ?_⟩
    exact ⟨pending, calm₁.unburied, counted₁⟩
  refine reports.bind fun h w₁ clean => ensures_pure fun h' same => ?_
  obtain rfl := Reply.health.inj same
  exact clean

end Upkeep

end ThresholdAlerts
