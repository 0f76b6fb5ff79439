import RegisterMachine.Proofs.Move

/-!
Runs of the standard machine. A state is reachable when calls of `step` lead to it from a start,
and a call that failed may be followed by another. What holds of every start and outlives every
move holds of every reachable state.
-/

namespace RegisterMachine

/-- The states that calls of `step` lead to, whichever of them failed. -/
inductive Machine.Reachable (m : Machine) (p : Program) : State → Prop where
  | start {sink s} (started : m.start p sink = .ok s) : m.Reachable p s
  | step {s} (before : m.Reachable p s) : m.Reachable p (m.attempt p s).2

def Machine.after (m : Machine) (p : Program) (s : State) : Nat → State
  | 0 => s
  | n + 1 => (m.attempt p (m.after p s n)).2

theorem Machine.Reachable.after {m : Machine} {p : Program} {s : State}
    (reached : m.Reachable p s) (n : Nat) : m.Reachable p (m.after p s n) := by
  induction n with
  | zero => exact reached
  | succ n ih => exact ih.step

variable {p : Program} {s t : State} {depth : Nat}

section Starting

theorem Frame.enter_eq_ok_iff {id : RoutineId} {args : List Value} {f : Frame} :
    Frame.enter p id args = .ok f ↔ ∃ r, p.routine id = .ok r ∧ args.length ≤ r.registerCount ∧
      f = {
        routine := id
        name := r.name
        registers :=
          (args ++ List.replicate (r.registerCount - args.length) Value.unset).toArray } := by
  unfold enter
  cases p.routine id with
  | error e => simp
  | ok r =>
    simp only [ok_bind, Except.ok.injEq, exists_eq_left']
    by_cases crowded : r.registerCount < args.length
    · simp [crowded, throw, throwThe, MonadExceptOf.throw, Nat.not_le.mpr crowded]
    · simp [crowded, pure, Except.pure, Nat.not_lt.mp crowded, eq_comm (a := f)]

theorem Machine.start_eq_ok {m : Machine} {sink : Sink} (started : m.start p sink = .ok s) :
    ∃ id f, Frame.enter p id [] = .ok f ∧ s.calls.items = [f] ∧
      s.calls.limit = m.maxDepth ∧ s.heap = {} := by
  unfold start at started
  cases found : p.find Program.entry with
  | error e => simp [found] at started
  | ok id =>
    cases entered : Frame.enter p id [] with
    | error e => simp [found, entered] at started
    | ok f =>
      cases pushed : (Stack.empty m.maxDepth).push f with
      | error e => simp [found, entered, pushed, Functor.map, Except.map] at started
      | ok calls =>
        simp only [found, entered, pushed, ok_bind, pure, Except.pure, Except.ok.injEq] at started
        subst started
        obtain ⟨items, limit⟩ := Stack.push_eq_ok_iff.mp pushed
        exact ⟨id, f, entered, items, by rw [limit, Stack.limit_empty], rfl⟩

end Starting

section Stepping

variable {res : Except Failure Bool}

theorem Outcome.executes_or_stays (outcome : Outcome p s res t) :
    (∃ f below r i, Executes p s f below r i) ∨ t = s ∧ res ≠ .ok true := by
  cases outcome with
  | halted empty => exact .inr ⟨rfl, by simp⟩
  | astray top absent => exact .inr ⟨rfl, by simp⟩
  | pastEnd top found ended => exact .inr ⟨rfl, by simp⟩
  | unknown executes | refused executes | done executes | broken executes =>
    exact .inl ⟨_, _, _, _, executes⟩

theorem Effect.deliver_limit {opcode : String} {v : Value} {e : Fault}
    (ran : deliver p opcode v s = .ok () t ∨ deliver p opcode v s = .error e t) :
    t.calls.limit = s.calls.limit := by
  rw [deliver_run] at ran
  cases items : s.calls.items with
  | nil =>
    simp only [items, reduceCtorEq, false_or, EStateM.Result.error.injEq] at ran
    rw [ran.2]
  | cons g rest =>
    cases received : g.receive p opcode v with
    | error e' =>
      simp only [items, received, reduceCtorEq, false_or, EStateM.Result.error.injEq] at ran
      rw [ran.2]
    | ok g' =>
      simp only [items, received, reduceCtorEq, or_false, EStateM.Result.ok.injEq, true_and] at ran
      rw [← ran, Stack.limit_replaceTop]

theorem Effect.push_limit {g : Frame} {e : Fault}
    (ran : push g s = .ok () t ∨ push g s = .error e t) : t.calls.limit = s.calls.limit := by
  rw [push_run] at ran
  cases pushed : s.calls.push g with
  | error e' =>
    simp only [pushed, reduceCtorEq, false_or, EStateM.Result.error.injEq] at ran
    rw [ran.2]
  | ok calls =>
    simp only [pushed, reduceCtorEq, or_false, EStateM.Result.ok.injEq, true_and] at ran
    rw [← ran]
    exact (Stack.push_eq_ok_iff.mp pushed).2

theorem Deed.perform_limit {i : Instruction} {f : Frame} {d : Deed} {e : Fault}
    (ran : d.perform p i f s = .ok () t ∨ d.perform p i f s = .error e t) :
    t.calls.limit = s.calls.limit := by
  cases d with
  | change c =>
    simp only [perform, reduceCtorEq, or_false, EStateM.Result.ok.injEq, true_and] at ran
    rw [← ran, Stack.limit_replaceTop]
  | print v =>
    simp only [perform, Effect.print_run] at ran
    split at ran
    · simp only [reduceCtorEq, or_false, EStateM.Result.ok.injEq, true_and] at ran
      rw [← ran]
    · simp only [reduceCtorEq, false_or, EStateM.Result.error.injEq] at ran
      rw [← ran.2]
  | enter callee => exact Effect.push_limit ran
  | resume id parked => exact Effect.push_limit (s := { s with heap := s.heap.park id none }) ran
  | leave =>
    simp only [perform, reduceCtorEq, or_false, EStateM.Result.ok.injEq, true_and] at ran
    rw [← ran, Stack.limit_pop]
  | handBack v | yield v => rw [Effect.deliver_limit ran, Stack.limit_pop]

theorem Outcome.limit (outcome : Outcome p s res t) : t.calls.limit = s.calls.limit := by
  have passed (f : Frame) : (s.advance f).calls.limit = s.calls.limit := Stack.limit_replaceTop ..
  cases outcome with
  | halted | astray | pastEnd => rfl
  | unknown executes => exact passed _
  | refused executes reason => exact passed _
  | done executes fits performed =>
    exact (Deed.perform_limit (e := .emptyStack) (.inl performed)).trans (passed _)
  | broken executes fits performed => exact (Deed.perform_limit (.inr performed)).trans (passed _)

end Stepping

/-- A property of every start that no move destroys holds of every reachable state. -/
theorem Machine.Reachable.invariant {Holds : State → Prop}
    (starts : ∀ sink s, (standard depth).start p sink = .ok s → Holds s)
    (moves : ∀ s f below r i res t, Holds s → Executes p s f below r i →
      t.calls.limit = s.calls.limit → Move p s f below i res t → Holds t)
    (reached : (standard depth).Reachable p s) : Holds s := by
  induction reached with
  | start started => exact starts _ _ started
  | @step s before ih =>
    have outcome := attempt_outcome depth p s
    obtain ⟨f, below, r, i, executes⟩ | ⟨stays, -⟩ := outcome.executes_or_stays
    · exact moves s f below r i _ _ ih executes outcome.limit (outcome.move executes)
    · rw [stays]
      exact ih

section Running

variable {m : Machine} {k n : Nat} {e : Failure}

theorem Machine.runFor_succ (m : Machine) (p : Program) (n : Nat) (s : State) :
    m.runFor p (n + 1) s = match m.attempt p s with
      | (.ok true, t) => m.runFor p n t
      | (.ok false, t) => (.halted, t)
      | (.error e, t) => (.failed e, t) := by
  simp only [runFor, attempt]
  cases m.step p s with
  | ok more t => cases more <;> rfl
  | error e t => rfl

theorem Machine.runFor_succ_of_ok (stepped : m.attempt p s = (.ok true, t)) (n : Nat) :
    m.runFor p (n + 1) s = m.runFor p n t := by
  rw [runFor_succ, stepped]

theorem Machine.runFor_add (first : m.runFor p k s = (.unfinished, t)) (n : Nat) :
    m.runFor p (k + n) s = m.runFor p n t := by
  induction k generalizing s with
  | zero =>
    cases first
    rw [Nat.zero_add]
  | succ k ih =>
    rw [Nat.succ_add, runFor_succ]
    rw [runFor_succ] at first
    generalize m.attempt p s = ran at first
    obtain ⟨res, u⟩ := ran
    cases res with
    | error e => simp at first
    | ok more =>
      cases more with
      | false => simp at first
      | true => exact ih first

theorem Machine.runFor_of_failed (failed : m.runFor p k s = (.failed e, t)) (later : k ≤ n) :
    m.runFor p n s = (.failed e, t) := by
  induction k generalizing s n with
  | zero => cases failed
  | succ k ih =>
    obtain ⟨n, rfl⟩ := Nat.exists_eq_add_of_le' (Nat.le_trans (Nat.succ_le_succ k.zero_le) later)
    rw [runFor_succ] at failed ⊢
    generalize m.attempt p s = ran at failed ⊢
    obtain ⟨res, u⟩ := ran
    cases res with
    | error e' => exact failed
    | ok more =>
      cases more with
      | false => simp at failed
      | true => exact ih failed (Nat.le_of_succ_le_succ later)

/-- A run that spends some of a finite budget with every step that succeeds comes to an end. -/
theorem Machine.runFor_ends {budget : State → Nat}
    (spends : ∀ s, (m.attempt p s).1 = .ok true → budget (m.attempt p s).2 < budget s) {n : Nat}
    (enough : budget s < n) : (m.runFor p n s).1 ≠ .unfinished := by
  induction n generalizing s with
  | zero => omega
  | succ n ih =>
    have spent := spends s
    rw [runFor_succ]
    generalize m.attempt p s = ran at spent
    obtain ⟨res, t⟩ := ran
    cases res with
    | error e => simp
    | ok more =>
      cases more with
      | false => simp
      | true => exact ih (Nat.lt_of_lt_of_le (spent rfl) (Nat.le_of_lt_succ enough))

end Running

end RegisterMachine
