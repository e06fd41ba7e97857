import Mathlib.Data.List.Basic

/-!
# Waiting for a number of steps

A step relation between states is labelled by events.  Some of the events are
counted, and something waits for a goal: each counted step either reaches the
goal or brings it one step closer, and the other steps change nothing for it.
With a lower and an upper bound for the number of counted steps, every run
which contains enough of them reaches the goal between the two bounds.
-/

namespace MagicalOs.Library.Countdown

variable {State Event : Type}

/-- The events lead from one state to another, and all but the last `Hold`. -/
def Leads (step : State → Event → State → Prop) (Holds : State → Prop)
    (state : State) : List Event → State → Prop
  | [], last => last = state
  | event :: rest, last =>
      Holds state ∧
        ∃ middle, step state event middle ∧
          Leads step Holds middle rest last

section Leads

variable {step : State → Event → State → Prop} {Holds : State → Prop}
  {state middle last : State} {event : Event} {front back : List Event}

theorem Leads.single (holds : Holds state) (taken : step state event last) :
    Leads step Holds state [event] last :=
  ⟨holds, last, taken, rfl⟩

theorem Leads.cons (holds : Holds state) (taken : step state event middle)
    (later : Leads step Holds middle back last) :
    Leads step Holds state (event :: back) last :=
  ⟨holds, middle, taken, later⟩

theorem Leads.append (first : Leads step Holds state front middle)
    (second : Leads step Holds middle back last) :
    Leads step Holds state (front ++ back) last := by
  induction front generalizing state with
  | nil =>
      have same : middle = state := first
      rwa [same] at second
  | cons event front induction =>
      rcases first with ⟨holds, next, taken, later⟩
      exact .cons holds taken (induction later)

theorem Leads.mono {Weaker : State → Prop}
    (weaken : ∀ state, Holds state → Weaker state)
    (leads : Leads step Holds state front last) :
    Leads step Weaker state front last := by
  induction front generalizing state with
  | nil => exact leads
  | cons event front induction =>
      rcases leads with ⟨holds, next, taken, later⟩
      exact .cons (weaken state holds) taken (induction later)

end Leads

/-- The steps from a state, without a condition on the way. -/
def Run (step : State → Event → State → Prop) :
    State → List Event → State → Prop :=
  Leads step fun _ => True

/--
`Waiting least most` says that the goal is at least `least` and at most `most`
counted steps away.
-/
structure CountsDown (step : State → Event → State → Prop)
    (counts : Event → Bool) (Waiting : Nat → Nat → State → Prop)
    (Goal : State → Prop) : Prop where
  positive : ∀ {least most state}, Waiting least most state → 0 < most
  counted : ∀ {least most state event after}, Waiting least most state →
    counts event = true → step state event after →
    (least ≤ 1 ∧ Goal after) ∨ Waiting (least - 1) (most - 1) after
  others : ∀ {least most state event after}, Waiting least most state →
    counts event = false → step state event after →
    Waiting least most after

/-- A run reaches the goal within the bounds, and waits until then. -/
def Reaches (step : State → Event → State → Prop)
    (counts : Event → Bool) (Waiting : Nat → Nat → State → Prop)
    (Goal : State → Prop) (least most : Nat) (state : State)
    (events : List Event) (last : State) : Prop :=
  ∃ front event back goal, events = front ++ event :: back ∧
    counts event = true ∧
    Leads step (fun state => ∃ least most, Waiting least most state) state
      (front ++ [event]) goal ∧
    Run step goal back last ∧ Goal goal ∧
    least ≤ front.countP counts + 1 ∧ front.countP counts + 1 ≤ most

section CountsDown

variable {step : State → Event → State → Prop} {counts : Event → Bool}
  {Waiting : Nat → Nat → State → Prop} {Goal : State → Prop}
  {least most : Nat} {state middle last : State} {event : Event}
  {events : List Event}

/-- A goal reached after a step is reached from the state before it. -/
theorem Reaches.cons {laterLeast laterMost : Nat}
    (waiting : Waiting least most state) (taken : step state event middle)
    (lower : least ≤ laterLeast + [event].countP counts)
    (upper : laterMost + [event].countP counts ≤ most)
    (reaches : Reaches step counts Waiting Goal laterLeast laterMost middle
      events last) :
    Reaches step counts Waiting Goal least most state (event :: events)
      last := by
  rcases reaches with
    ⟨front, final, back, goal, rfl, counted, leads, after, reached, first,
      second⟩
  have total : (event :: front).countP counts =
      [event].countP counts + front.countP counts := by
    rw [← List.countP_append, List.singleton_append]
  refine ⟨event :: front, final, back, goal, rfl, counted, ?_, after, reached,
    ?_, ?_⟩
  · exact .cons ⟨least, most, waiting⟩ taken leads
  · rw [total]
    omega
  · rw [total]
    omega

/-- A run either keeps waiting, with both bounds lowered, or has got there. -/
theorem CountsDown.run (countdown : CountsDown step counts Waiting Goal)
    (waiting : Waiting least most state) (ran : Run step state events last) :
    Waiting (least - events.countP counts) (most - events.countP counts)
        last ∨
      Reaches step counts Waiting Goal least most state events last := by
  induction events generalizing least most state with
  | nil =>
      have same : last = state := ran
      exact .inl (same ▸ waiting)
  | cons event events induction =>
      rcases ran with ⟨_, middle, taken, later⟩
      have positive := countdown.positive waiting
      cases counted : counts event with
      | false =>
          have before := countdown.others waiting counted taken
          rcases induction before later with still | reaches
          · left
            simpa [counted] using still
          · right
            apply reaches.cons waiting taken
            · simp [counted]
            · simp [counted]
      | true =>
          rcases countdown.counted waiting counted taken with
            ⟨soon, goal⟩ | before
          · right
            refine ⟨[], event, events, middle, rfl, counted, ?_, later, goal,
              ?_, ?_⟩
            · exact .single ⟨least, most, waiting⟩ taken
            · simpa using soon
            · exact positive
          · rcases induction before later with still | reaches
            · left
              simpa [counted, Nat.sub_sub, Nat.add_comm] using still
            · right
              apply reaches.cons waiting taken
              · simp [counted]
                omega
              · simp [counted]
                omega

/-- Before the lower bound a run keeps waiting, -/
theorem CountsDown.waits (countdown : CountsDown step counts Waiting Goal)
    (waiting : Waiting least most state) (ran : Run step state events last)
    (early : events.countP counts < least) :
    Waiting (least - events.countP counts) (most - events.countP counts)
      last := by
  rcases countdown.run waiting ran with still | reaches
  · exact still
  · rcases reaches with
      ⟨front, event, back, goal, rfl, counted, _, _, _, lower, _⟩
    simp only [List.countP_append, List.countP_cons, counted, if_true]
      at early
    omega

/-- and at the upper bound it has reached the goal. -/
theorem CountsDown.reaches (countdown : CountsDown step counts Waiting Goal)
    (waiting : Waiting least most state) (ran : Run step state events last)
    (enough : most ≤ events.countP counts) :
    Reaches step counts Waiting Goal least most state events last := by
  rcases countdown.run waiting ran with still | reaches
  · have positive := countdown.positive still
    omega
  · exact reaches

end CountsDown

end MagicalOs.Library.Countdown
