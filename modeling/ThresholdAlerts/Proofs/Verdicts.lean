import Mathlib.Data.List.Forall2
import ThresholdAlerts.Proofs.Lifecycle
import ThresholdAlerts.Proofs.Streaks
/-! What a visit does to the firing state of a rule, told by the state alone: a sample is judged by the rule,
and a state is settled with the present definition of its rule. -/
namespace ThresholdAlerts

namespace FiringState

/-- The firing state after a sample, and the events that the sample produces. -/
def judge (s : FiringState) (fresh : AlertId) (r : Rule) (value : Float) (time : Timestamp) :
    FiringState × List Event :=
  match r.breaches value with
  | .error _ => (s, [])
  | .ok breached =>
    let (s, ended) := s.syncRule r time
    let (s, event) := s.transition fresh r breached value time
    (s, ended.toList ++ event.toList)

/-- A sample is judged by some rules in turn, whose alerts take their ids from one supply. -/
def judgeEach (state : RuleId → FiringState) (value : Float) (time : Timestamp) :
    Supply AlertId → List Rule → List (FiringState × List Event)
  | _, [] => []
  | ids, r :: rest =>
    let ruling := (state r.id).judge ids.next r value time
    ruling :: judgeEach state value time (ids.after (Event.opens ruling.2).length) rest

/-- The firing state after it is brought in line with the present definition of its rule, if there is one,
and the event that this produces. -/
def settle (s : FiringState) (definition : Option Rule) (announced : Bool) (time : Timestamp) :
    FiringState × Option Event :=
  match definition with
  | some r => if announced then s.resetHysteresis r time else s.syncRule r time
  | none => s.forceResolve .ruleRemoved time

theorem forall₂_judgeEach (state : RuleId → FiringState) (value : Float) (time : Timestamp)
    (ids : Supply AlertId) (rules : List Rule) :
    List.Forall₂ (fun r ruling => ∃ fresh, ruling = (state r.id).judge fresh r value time) rules
      (judgeEach state value time ids rules) := by
  induction rules generalizing ids with
  | nil => exact .nil
  | cons r rest ih => exact .cons ⟨ids.next, rfl⟩ (ih _)

theorem opens_syncRule (s : FiringState) (r : Rule) (time : Timestamp) :
    Event.opens (s.syncRule r time).2.toList = [] := by
  have outcome := s.syncRule_outcome (.sync r time) r time
  generalize (s.syncRule r time).1 = s' at outcome
  generalize (s.syncRule r time).2 = event at outcome ⊢
  cases outcome with
  | still same => rfl
  | closes was clear => rfl
  | opens made was now => exact absurd made nofun

theorem settle_eq_apply (s : FiringState) (definition : Option Rule) (announced : Bool) (time : Timestamp) :
    ∃ c : Change, s.settle definition announced time = s.apply c ∧ ∀ rule retired, c.Suits rule retired := by
  cases definition with
  | none => exact ⟨.force .ruleRemoved time, rfl, fun _ _ => trivial⟩
  | some r =>
    cases announced with
    | true => exact ⟨.reset r time, rfl, fun _ _ => trivial⟩
    | false => exact ⟨.sync r time, rfl, fun _ _ => trivial⟩

theorem ruleId_settle {s : FiringState} {definition : Option Rule} {announced : Bool} {time : Timestamp}
    {event : Event} (made : (s.settle definition announced time).2 = some event) : event.ruleId = s.ruleId := by
  obtain ⟨c, same, suits⟩ := s.settle_eq_apply definition announced time
  rw [same] at made
  exact ruleId_of_apply (suits s.ruleId true) made

theorem ruleId_judge {s : FiringState} {fresh : AlertId} {r : Rule} {value : Float} {time : Timestamp}
    {event : Event} (known : r.id = s.ruleId) (made : event ∈ (s.judge fresh r value time).2) :
    event.ruleId = s.ruleId := by
  rw [judge] at made
  cases judged : r.breaches value with
  | error e =>
    rw [judged] at made
    exact absurd made (by simp)
  | ok breached =>
    simp only [judged, List.mem_append, Option.mem_toList] at made
    have named : (s.syncRule r time).1.ruleId = s.ruleId := apply_ruleId s (.sync r time)
    have sync : (Change.sync r time).Suits s.ruleId true := trivial
    have step : (Change.transition fresh r breached value time).Suits (s.syncRule r time).1.ruleId false :=
      ⟨known.trans named.symm, rfl⟩
    rcases made with ended | opened
    · exact ruleId_of_apply sync ended
    · exact (ruleId_of_apply step opened).trans named

/-! ### Phases and fingerprints -/

theorem fingerprint_syncRule (s : FiringState) (r : Rule) (time : Timestamp) :
    (s.syncRule r time).1.fingerprint = some r.fingerprint := by
  rw [syncRule]
  cases remembered : s.fingerprint with
  | none => rfl
  | some known =>
    dsimp only
    split
    · next same => rw [remembered, same]
    · rfl

theorem fingerprint_settle (s : FiringState) (r : Rule) (announced : Bool) (time : Timestamp) :
    (s.settle (some r) announced time).1.fingerprint = some r.fingerprint := by
  have synced := s.fingerprint_syncRule r time
  cases announced with
  | true =>
    rw [settle, if_pos rfl, resetHysteresis, dropPending_fingerprint]
    exact synced
  | false => exact synced

theorem fingerprint_judge (s : FiringState) (fresh : AlertId) (r : Rule) (value : Float) (time : Timestamp) :
    (s.judge fresh r value time).1.fingerprint = s.fingerprint ∨
      (s.judge fresh r value time).1.fingerprint = some r.fingerprint := by
  rw [judge]
  cases r.breaches value with
  | error e => exact .inl rfl
  | ok breached =>
    refine .inr ?_
    change ((s.syncRule r time).1.fingerprint <|> some r.fingerprint) = _
    rw [fingerprint_syncRule]
    rfl

/-- What is clear stays clear when it is settled, and nothing is produced. -/
theorem settle_clear {s : FiringState} (clear : s.phase = .clear) (definition : Option Rule) (announced : Bool)
    (time : Timestamp) :
    (s.settle definition announced time).1.phase = .clear ∧ (s.settle definition announced time).2 = none := by
  have shut : s.openAlertId = none := by rw [openAlertId, clear]
  have synced (r : Rule) : (s.syncRule r time).1.phase = .clear ∧ (s.syncRule r time).2 = none := by
    rw [syncRule]
    split
    · split
      · exact ⟨clear, rfl⟩
      · exact ⟨rfl, by simp [forceResolve, openAlertId, clear]⟩
    · exact ⟨clear, rfl⟩
  cases definition with
  | none => exact ⟨rfl, by rw [settle, forceResolve, shut]; rfl⟩
  | some r =>
    obtain ⟨phase, silent⟩ := synced r
    cases announced with
    | true =>
      refine ⟨?_, silent⟩
      change (s.syncRule r time).1.dropPending.phase = .clear
      rw [dropPending, phase]
      exact phase
    | false => exact ⟨phase, silent⟩

end FiringState

end ThresholdAlerts
