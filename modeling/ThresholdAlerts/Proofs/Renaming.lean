import ThresholdAlerts.Ingest.Sample
import ThresholdAlerts.Proofs.Verdicts
/-! Alerts under other ids. `R` says which ids stand for each other, and `N` which counts of breaches may be
taken for each other while an alert is open. Main statement: from phases that are the same in this sense, the
same samples lead to events and phases that are the same again, however the ids of new alerts are drawn. -/
namespace ThresholdAlerts

/-- The events are the same, but for the id of the alert. -/
inductive Event.Renamed (R : AlertId → AlertId → Prop) : Event → Event → Prop
  | opened {alert : Alert} {id : AlertId} (stands : R alert.id id) :
      Renamed R (.opened alert) (.opened { alert with id })
  | resolved {id id' : AlertId} {rule : RuleId} {time : Timestamp} {reason : ResolveReason} (stands : R id id') :
      Renamed R (.resolved id rule time reason) (.resolved id' rule time reason)

/-- The phases are the same, but for the id of the open alert and the breaches that it saw. -/
inductive Phase.Renamed (R : AlertId → AlertId → Prop) (N : Nat → Nat → Prop) : Phase → Phase → Prop
  | clear : Renamed R N .clear .clear
  | pending (n : Nat) : Renamed R N (.pending n) (.pending n)
  | opened {id id' : AlertId} {n n' : Nat} (stands : R id id') (counts : N n n') :
      Renamed R N (.opened id n) (.opened id' n')

def FiringState.Fits (r : Rule) (s : FiringState) : Prop :=
  ∀ known ∈ s.fingerprint, known = r.fingerprint

/-- The firing states are the same for a rule, but for the id of the open alert. -/
structure FiringState.Renamed (R : AlertId → AlertId → Prop) (N : Nat → Nat → Prop) (r : Rule)
    (s s' : FiringState) : Prop where
  ruleId : s'.ruleId = s.ruleId
  phase : Phase.Renamed R N s.phase s'.phase
  fits : s'.Fits r ↔ s.Fits r

/-- What a rule comes to that judges some samples one after the other, and the events that this produces. -/
inductive FiringState.Follows (r : Rule) : FiringState → List Sample → List Event → FiringState → Prop
  | nil (s) : Follows r s [] [] s
  | cons {s x samples events s'} (fresh : AlertId)
      (rest : Follows r (s.judge fresh r x.value x.time).1 samples events s') :
      Follows r s (x :: samples) ((s.judge fresh r x.value x.time).2 ++ events) s'

section Renaming

variable {R R' : AlertId → AlertId → Prop} {N : Nat → Nat → Prop} {r : Rule} {s s' t t' : FiringState}
  {events events' : List Event} {samples : List Sample}

theorem Event.opens_renamed (h : List.Forall₂ (Event.Renamed R) events events') :
    List.Forall₂ R (Event.opens events) (Event.opens events') := by
  induction h with
  | nil => exact .nil
  | cons here others ih =>
    cases here with
    | opened stands => exact .cons stands ih
    | resolved stands => exact ih

theorem Phase.Renamed.mono {phase phase' : Phase} (h : Phase.Renamed R N phase phase')
    (more : ∀ {a b}, R a b → R' a b) : Phase.Renamed R' N phase phase' := by
  cases h with
  | clear => exact .clear
  | pending n => exact .pending n
  | opened stands counts => exact .opened (more stands) counts

namespace FiringState

theorem Renamed.mono (h : s.Renamed R N r s') (more : ∀ {a b}, R a b → R' a b) : s.Renamed R' N r s' :=
  ⟨h.ruleId, h.phase.mono more, h.fits⟩

theorem Renamed.status (h : s.Renamed R N r s') : s'.status = s.status := by
  have phase := h.phase
  rw [FiringState.status, FiringState.status]
  generalize s.phase = p at phase
  generalize s'.phase = p' at phase
  cases phase <;> rfl

theorem Renamed.breaches (h : s.Renamed R (· = ·) r s') : s'.breaches = s.breaches := by
  have phase := h.phase
  rw [FiringState.breaches, FiringState.breaches]
  generalize s.phase = p at phase
  generalize s'.phase = p' at phase
  cases phase with
  | clear => rfl
  | pending n => rfl
  | opened stands counts => exact counts.symm

theorem syncRule_of_fits (fits : s.Fits r) (time : Timestamp) :
    s.syncRule r time = ({ s with fingerprint := some r.fingerprint }, none) := by
  obtain ⟨rule, phase, fingerprint, seen⟩ := s
  cases fingerprint with
  | none => rfl
  | some known =>
    obtain rfl := fits known rfl
    rw [syncRule]
    exact if_pos rfl

theorem syncRule_of_edited (edited : ¬ s.Fits r) (time : Timestamp) :
    s.syncRule r time = ({ s with fingerprint := some r.fingerprint, phase := .clear },
      s.openAlertId.map fun id => s.closing id .ruleChanged time) := by
  obtain ⟨rule, phase, fingerprint, seen⟩ := s
  cases fingerprint with
  | none => exact absurd (fun _ impossible => absurd impossible (by simp)) edited
  | some known =>
    rw [syncRule]
    refine if_neg fun same => edited fun known' mem => ?_
    obtain rfl := Option.some.inj mem
    exact same

theorem Renamed.syncRule (h : s.Renamed R N r s') (time : Timestamp) :
    List.Forall₂ (Event.Renamed R) (s.syncRule r time).2.toList (s'.syncRule r time).2.toList ∧
      (s.syncRule r time).1.Renamed R N r (s'.syncRule r time).1 := by
  have known (s : FiringState) : (s.syncRule r time).1.Fits r := fun known mem => by
    rw [fingerprint_syncRule] at mem
    exact (Option.some.inj mem).symm
  have fits : (s'.syncRule r time).1.Fits r ↔ (s.syncRule r time).1.Fits r := ⟨fun _ => known s, fun _ => known s'⟩
  by_cases here : s.Fits r
  · rw [syncRule_of_fits here, syncRule_of_fits (h.fits.mpr here)] at fits ⊢
    exact ⟨.nil, h.ruleId, h.phase, fits⟩
  · rw [syncRule_of_edited here, syncRule_of_edited (mt h.fits.mp here)] at fits ⊢
    refine ⟨?_, h.ruleId, .clear, fits⟩
    have phase := h.phase
    simp only [openAlertId, closing, h.ruleId]
    generalize s.phase = p at phase
    generalize s'.phase = p' at phase
    cases phase with
    | clear => exact .nil
    | pending n => exact .nil
    | opened stands counts => exact .cons (.resolved stands) .nil

/-- The ids of the alerts that are opened stand for each other, in the order in which they are opened. -/
def Opening (R : AlertId → AlertId → Prop) (events events' : List Event) : Prop :=
  ∀ pair ∈ (Event.opens events).zip (Event.opens events'), R pair.1 pair.2

theorem renamed_countBreach {fresh fresh' : AlertId} (n : Nat) (value : Float) (time : Timestamp)
    (counts : ∀ n, N n n)
    (opening : Opening R (countBreach n fresh r value time).2.toList (countBreach n fresh' r value time).2.toList) :
    List.Forall₂ (Event.Renamed R) (countBreach n fresh r value time).2.toList
        (countBreach n fresh' r value time).2.toList ∧
      Phase.Renamed R N (countBreach n fresh r value time).1 (countBreach n fresh' r value time).1 := by
  simp only [countBreach] at opening ⊢
  split
  · next enough =>
    rw [if_pos enough, if_pos enough] at opening
    have stands : R fresh fresh' := opening (fresh, fresh') List.mem_cons_self
    have opens : Event.Renamed R (.opened (Alert.ofRule fresh r value time))
        (.opened { Alert.ofRule fresh r value time with id := fresh' }) := .opened stands
    exact ⟨.cons opens .nil, .opened stands (counts _)⟩
  · exact ⟨.nil, .pending _⟩

theorem Renamed.transition {fresh fresh' : AlertId} (h : s.Renamed R N r s')
    (known : s'.fingerprint = s.fingerprint) (breached : Bool) (value : Float) (time : Timestamp)
    (counts : ∀ n, N n n) (more : ∀ n n', N n n' → N (oneMore n) (oneMore n'))
    (opening : Opening R (s.transition fresh r breached value time).2.toList
      (s'.transition fresh' r breached value time).2.toList) :
    List.Forall₂ (Event.Renamed R) (s.transition fresh r breached value time).2.toList
        (s'.transition fresh' r breached value time).2.toList ∧
      (s.transition fresh r breached value time).1.Renamed R N r (s'.transition fresh' r breached value time).1 := by
  obtain ⟨ruleId, phase, fits⟩ := h
  have fits' : (s'.transition fresh' r breached value time).1.Fits r ↔
      (s.transition fresh r breached value time).1.Fits r := by
    rw [Fits, Fits]
    change (∀ k ∈ (s'.fingerprint <|> some r.fingerprint), _) ↔ ∀ k ∈ (s.fingerprint <|> some r.fingerprint), _
    rw [known]
  suffices List.Forall₂ (Event.Renamed R) (s.nextPhase fresh r breached value time).2.toList
      (s'.nextPhase fresh' r breached value time).2.toList ∧
      Phase.Renamed R N (s.nextPhase fresh r breached value time).1 (s'.nextPhase fresh' r breached value time).1 from
    ⟨this.1, ruleId, this.2, fits'⟩
  change Opening R (s.nextPhase fresh r breached value time).2.toList
    (s'.nextPhase fresh' r breached value time).2.toList at opening
  simp only [nextPhase, closing, ruleId] at opening ⊢
  generalize s.phase = p at phase opening ⊢
  generalize s'.phase = p' at phase opening ⊢
  cases phase with
  | clear =>
    cases breached with
    | false => exact ⟨.nil, .clear⟩
    | true => exact renamed_countBreach 0 value time counts opening
  | pending n =>
    cases breached with
    | false => exact ⟨.nil, .clear⟩
    | true => exact renamed_countBreach n value time counts opening
  | opened stands same =>
    cases breached with
    | false => exact ⟨.cons (.resolved stands) .nil, .clear⟩
    | true => exact ⟨.nil, .opened stands (more _ _ same)⟩

/-- A sample leads from firing states that are the same up to ids to such states again. -/
theorem Renamed.judge {fresh fresh' : AlertId} (h : s.Renamed R N r s') (value : Float) (time : Timestamp)
    (counts : ∀ n, N n n) (more : ∀ n n', N n n' → N (oneMore n) (oneMore n'))
    (opening : Opening R (s.judge fresh r value time).2 (s'.judge fresh' r value time).2) :
    List.Forall₂ (Event.Renamed R) (s.judge fresh r value time).2 (s'.judge fresh' r value time).2 ∧
      (s.judge fresh r value time).1.Renamed R N r (s'.judge fresh' r value time).1 := by
  rw [FiringState.judge, FiringState.judge] at opening ⊢
  cases judged : r.breaches value with
  | error e => exact ⟨.nil, h⟩
  | ok breached =>
    rw [judged] at opening
    dsimp only at opening ⊢
    obtain ⟨ended, synced⟩ := h.syncRule time
    have known : (s'.syncRule r time).1.fingerprint = (s.syncRule r time).1.fingerprint := by
      rw [fingerprint_syncRule, fingerprint_syncRule]
    have opening' : Opening R ((s.syncRule r time).1.transition fresh r breached value time).2.toList
        ((s'.syncRule r time).1.transition fresh' r breached value time).2.toList := by
      rw [Opening, Event.opens_append, Event.opens_append, opens_syncRule, opens_syncRule] at opening
      exact opening
    obtain ⟨opened, moved⟩ := synced.transition known breached value time counts more opening'
    exact ⟨List.rel_append ended opened, moved⟩

theorem Renamed.shape (h : s.Renamed R N r s') (fresh fresh' : AlertId) (value : Float) (time : Timestamp)
    (counts : ∀ n, N n n) (more : ∀ n n', N n n' → N (oneMore n) (oneMore n')) :
    (Event.opens (s.judge fresh r value time).2).length = (Event.opens (s'.judge fresh' r value time).2).length := by
  have any : s.Renamed (fun _ _ => True) N r s' := h.mono fun _ => trivial
  have free : Opening (fun _ _ => True) (s.judge fresh r value time).2 (s'.judge fresh' r value time).2 :=
    fun _ _ => trivial
  exact (Event.opens_renamed (any.judge value time counts more free).1).length_eq

/-! ### Many samples -/

theorem Follows.snoc {x : Sample} (h : Follows r s samples events t) (fresh : AlertId) :
    Follows r s (samples ++ [x]) (events ++ (t.judge fresh r x.value x.time).2) (t.judge fresh r x.value x.time).1 := by
  induction h with
  | nil s =>
    rw [List.nil_append, List.nil_append, ← List.append_nil (s.judge fresh r x.value x.time).2]
    exact .cons fresh (.nil _)
  | cons fresh' rest ih =>
    rw [List.cons_append, List.append_assoc]
    exact .cons fresh' ih

theorem judge_ruleId (s : FiringState) (fresh : AlertId) (r : Rule) (value : Float) (time : Timestamp) :
    (s.judge fresh r value time).1.ruleId = s.ruleId := by
  rw [FiringState.judge]
  cases r.breaches value with
  | error e => rfl
  | ok breached => exact apply_ruleId s (.sync r time)

theorem Follows.named (h : Follows r s samples events t) (known : r.id = s.ruleId) :
    ∀ event ∈ events, event.ruleId = r.id := by
  induction h with
  | nil => simp
  | cons fresh rest ih =>
    refine List.forall_mem_append.mpr ⟨fun event made => ?_, ih (known.trans (judge_ruleId ..).symm)⟩
    exact (ruleId_judge known made).trans known.symm

/-- The events of a rule that opens alerts under ids of its own are the same up to these ids. -/
theorem Follows.renamed (h : Follows r s samples events t) (h' : Follows r s' samples events' t')
    (same : s.Renamed R N r s') (counts : ∀ n, N n n) (more : ∀ n n', N n n' → N (oneMore n) (oneMore n'))
    (opening : Opening R events events') :
    List.Forall₂ (Event.Renamed R) events events' ∧ t.Renamed R N r t' := by
  induction h generalizing s' events' with
  | nil s =>
    cases h'
    exact ⟨.nil, same⟩
  | @cons s x samples events t fresh rest ih =>
    cases h' with
    | @cons _ _ _ events' _ fresh' rest' =>
      have shape := same.shape fresh fresh' x.value x.time counts more
      rw [Opening, Event.opens_append, Event.opens_append, List.zip_append shape] at opening
      obtain ⟨here, later⟩ := List.forall_mem_append.mp opening
      obtain ⟨made, judged⟩ := same.judge x.value x.time counts more here
      obtain ⟨others, last⟩ := ih rest' judged later
      exact ⟨List.rel_append made others, last⟩

end FiringState

end Renaming

end ThresholdAlerts
