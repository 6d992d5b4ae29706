import ThresholdAlerts.Proofs.Reliance
/-! Groups of tasks that are polled. Main statements: however a group is polled, its members are polled one
after the other, and when a group is polled for the first time each member is polled once, in order, before
any is polled again. -/
namespace ThresholdAlerts

open Relation

namespace Members

variable {C : Type} {m : Members C} {w : World} {group : List C}

def Polled (m : Members C) (a b : World × List C) : Prop :=
  ∃ i c, a.2[i]? = some c ∧ b = ((m.poll c a.1).1, a.2.set i (m.poll c a.1).2)

def Polls (m : Members C) : World × List C → World × List C → Prop :=
  ReflTransGen m.Polled

theorem pollEach_cons (m : Members C) (c : C) (rest : List C) (w : World) :
    m.pollEach (c :: rest) w =
      ((m.pollEach rest (m.poll c w).1).1, (m.poll c w).2 :: (m.pollEach rest (m.poll c w).1).2) := rfl

theorem polled_middle (before rest : List C) (c : C) (w : World) :
    m.Polled (w, before ++ c :: rest) ((m.poll c w).1, before ++ (m.poll c w).2 :: rest) :=
  ⟨before.length, c, by simp, by simp⟩

theorem polls_pollEach (before rest : List C) (w : World) :
    m.Polls (w, before ++ rest) ((m.pollEach rest w).1, before ++ (m.pollEach rest w).2) := by
  induction rest generalizing before w with
  | nil => exact .refl
  | cons c rest ih =>
    have others := ih (before ++ [(m.poll c w).2]) (m.poll c w).1
    simp only [List.append_assoc, List.singleton_append] at others
    exact (ReflTransGen.single (polled_middle before rest c w)).trans others

theorem polls_pollLine (unfinished polls : Nat) (line : Line) (group : List C) (w : World) :
    m.Polls (w, group)
      ((m.pollLine unfinished polls line group w).1, (m.pollLine unfinished polls line group w).2.1) := by
  fun_induction pollLine m unfinished polls line group w with
  | case1 unfinished polls place rest seen group w absent ih => exact ih
  | case2 unfinished polls place rest seen group w c member w' c' polled group' line' done ih =>
    exact (ReflTransGen.single ⟨place, c, member, by rw [polled]⟩).trans ih
  | case3 unfinished polls place rest seen group w c member w' c' polled group' line' more ih =>
    exact (ReflTransGen.single ⟨place, c, member, by rw [polled]⟩).trans ih
  | case4 => exact .refl

theorem polls_pollGroup (group : List C) (line : Line) (w : World) :
    m.Polls (w, group) ((m.pollGroup group line w).1, (m.pollGroup group line w).2.1) := by
  unfold pollGroup
  split
  · exact polls_pollEach [] group w
  · exact polls_pollLine ..

/-! ### The first round -/

theorem queue_join (l : Line) (place : Nat) : ∃ more, (l.join place).queue = l.queue ++ more := by
  rw [Line.join]
  split
  · exact ⟨[], (List.append_nil _).symm⟩
  · exact ⟨[place], rfl⟩

theorem queue_foldl {step : Line → Ticket → Line} (joins : ∀ l t, ∃ more, (step l t).queue = l.queue ++ more)
    (news : List Ticket) (l : Line) : ∃ more, (news.foldl step l).queue = l.queue ++ more := by
  induction news generalizing l with
  | nil => exact ⟨[], (List.append_nil _).symm⟩
  | cons t rest ih =>
    obtain ⟨first, joined⟩ := joins l t
    obtain ⟨more, looked⟩ := ih (step l t)
    exact ⟨first ++ more, by rw [List.foldl_cons, looked, joined, List.append_assoc]⟩

theorem queue_look (l : Line) (w : World) (tickets : C → List Ticket) (group : List C) :
    ∃ more, (l.look w tickets group).queue = l.queue ++ more := by
  refine queue_foldl (fun l t => ?_) (l.news w) l
  cases group.findIdx? fun c => (tickets c).contains t with
  | none => exact ⟨[], (List.append_nil _).symm⟩
  | some place => exact queue_join l place

theorem pollLine_cons {place : Nat} {c : C} (member : group[place]? = some c) (unfinished polls : Nat)
    (rest : List Nat) (seen : Nat) :
    m.pollLine (unfinished + 1) (polls + 1) { queue := place :: rest, seen } group w =
      let polled := m.poll c w
      let group := group.set place polled.2
      let line := ({ queue := rest, seen } : Line).look polled.1 m.tickets group
      if m.isFinished polled.2 then m.pollLine unfinished unfinished line group polled.1
      else m.pollLine (unfinished + 1) polls line group polled.1 := by
  rw [pollLine]
  simp only [member]

/-- Those who stand at the front of the line in their order are polled before anyone else is. -/
theorem polls_front (before rest : List C) (w : World) (extra : List Nat) (seen : Nat)
    {unfinished polls : Nat} (some : rest.length ≤ unfinished) (enough : rest.length ≤ polls) :
    let line : Line := { queue := List.range' before.length rest.length ++ extra, seen }
    m.Polls ((m.pollEach rest w).1, before ++ (m.pollEach rest w).2)
      ((m.pollLine unfinished polls line (before ++ rest) w).1,
        (m.pollLine unfinished polls line (before ++ rest) w).2.1) := by
  induction rest generalizing before w extra seen unfinished polls with
  | nil => exact polls_pollLine ..
  | cons c rest ih =>
    intro line
    obtain ⟨unfinished, rfl⟩ :=
      Nat.exists_eq_add_one_of_ne_zero (Nat.ne_of_gt (Nat.lt_of_lt_of_le (Nat.succ_pos _) some))
    obtain ⟨polls, rfl⟩ :=
      Nat.exists_eq_add_one_of_ne_zero (Nat.ne_of_gt (Nat.lt_of_lt_of_le (Nat.succ_pos _) enough))
    have queue : line =
        { queue := before.length :: (List.range' (before.length + 1) rest.length ++ extra), seen } := by
      simp [line, List.range'_succ]
    have member : (before ++ c :: rest)[before.length]? = Option.some c := by simp
    rw [queue, pollLine_cons member, pollEach_cons]
    generalize m.poll c w = polled
    obtain ⟨w', c'⟩ := polled
    dsimp only
    have group : (before ++ c :: rest).set before.length c' = (before ++ [c']) ++ rest := by simp
    have others : before ++ c' :: (m.pollEach rest w').2 = (before ++ [c']) ++ (m.pollEach rest w').2 := by simp
    rw [group, others]
    have looked := queue_look (C := C)
      { queue := List.range' (before.length + 1) rest.length ++ extra, seen } w' m.tickets (before ++ [c'] ++ rest)
    generalize Line.look _ w' m.tickets (before ++ [c'] ++ rest) = line' at looked
    obtain ⟨queue', seen'⟩ := line'
    obtain ⟨more, rfl⟩ := looked
    have here : before.length + 1 = (before ++ [c']).length := by simp
    dsimp only
    rw [here, List.append_assoc (List.range' _ _)]
    have some' : rest.length ≤ unfinished := Nat.le_of_succ_le_succ some
    split
    · exact ih (before ++ [c']) w' (extra ++ more) seen' some' some'
    · exact ih (before ++ [c']) w' (extra ++ more) seen' (Nat.le_succ_of_le some') (Nat.le_of_succ_le_succ enough)

/-- When nobody is finished each member is polled once before any is polled again. -/
theorem polls_first (group : List C) (w : World) (unfinished : ∀ c ∈ group, m.isFinished c = false) :
    m.Polls (m.pollEach group w)
      ((m.pollGroup group (.all group.length w) w).1, (m.pollGroup group (.all group.length w) w).2.1) := by
  unfold pollGroup
  split
  · exact .refl
  · have all : (group.countP fun c => !m.isFinished c) = group.length :=
      List.countP_eq_length.mpr fun c mem => by simp [unfinished c mem]
    have looked := queue_look (.all group.length w) w m.tickets group
    generalize Line.look _ w m.tickets group = line at looked
    obtain ⟨queue, seen⟩ := line
    obtain ⟨more, rfl⟩ := looked
    have front : List.range group.length ++ more = List.range' ([] : List C).length group.length ++ more := by
      rw [List.range_eq_range', List.length_nil]
    rw [Line.all, front]
    exact polls_front [] group w more seen (Nat.le_of_eq all.symm) (Nat.le_of_eq all.symm)

end Members

end ThresholdAlerts
