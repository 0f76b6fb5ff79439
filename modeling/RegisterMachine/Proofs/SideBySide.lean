import RegisterMachine.Proofs.Isolation

/-!
Two runs side by side. Where a step of the one is the image of a step of the other, and the next as
well, so are the runs, under one map of the states: this is said here once, for whole runs. And the
frames and the shared contents alone decide what a step does, so from two states that have those in
common it comes out the same, up to what carrying out the deed makes of room and sink.
-/

namespace RegisterMachine

namespace Machine

section Runs

variable {m m' : Machine} {p q : Program} {φ : State → State} {s : State} {n : Nat}

theorem after_succ (m : Machine) (p : Program) (s : State) (n : Nat) :
    m.after p s (n + 1) = m.after p (m.attempt p s).2 n := by
  induction n with
  | zero => rfl
  | succ n ih => rw [after, ih, after]

theorem after_map (step : ∀ k < n,
      m'.attempt q (φ (m.after p s k)) = Prod.map id φ (m.attempt p (m.after p s k)))
    {k : Nat} (within : k ≤ n) : m'.after q (φ s) k = φ (m.after p s k) := by
  induction k with
  | zero => rfl
  | succ k ih => rw [after, ih (by omega), step k (by omega), after, Prod.map_snd]

theorem runFor_map (step : ∀ k < n, (m.runFor p k s).1 = .unfinished →
      m'.attempt q (φ (m.after p s k)) = Prod.map id φ (m.attempt p (m.after p s k))) :
    m'.runFor q n (φ s) = Prod.map id φ (m.runFor p n s) := by
  induction n generalizing s with
  | zero => rfl
  | succ n ih =>
    have first := step 0 (by omega) rfl
    rw [after] at first
    rw [runFor_succ, runFor_succ, first]
    cases ran : m.attempt p s with
    | mk res t =>
      cases res with
      | error e => rfl
      | ok more =>
        cases more with
        | false => rfl
        | true =>
          refine ih fun k within going => ?_
          have later := step (k + 1) (by omega) (by rw [runFor_succ, ran]; exact going)
          rw [after_succ, ran] at later
          exact later

theorem runFor_eq_after (m : Machine) (p : Program) (s : State) (n : Nat) :
    ∃ k ≤ n, (m.runFor p n s).2 = m.after p s k ∧
      ∀ j < n, (m.runFor p j s).1 = .unfinished ↔ j < k := by
  induction n generalizing s with
  | zero => exact ⟨0, Nat.le_refl 0, rfl, nofun⟩
  | succ n ih =>
    have last (ending : Ending) (finished : ending ≠ .unfinished) {t : State}
        (ran : ∀ k, m.runFor p (k + 1) s = (ending, t)) (came : (m.attempt p s).2 = t) :
        ∃ k ≤ n + 1, (m.runFor p (n + 1) s).2 = m.after p s k ∧
          ∀ j < n + 1, (m.runFor p j s).1 = .unfinished ↔ j < k := by
      refine ⟨1, by omega, by rw [ran, after, after, came], fun j _ => ?_⟩
      cases j with
      | zero => exact ⟨fun _ => Nat.zero_lt_one, fun _ => rfl⟩
      | succ j => simp [ran, finished]
    cases ran : m.attempt p s with
    | mk res t =>
      cases res with
      | error e =>
        exact last (.failed e) (by simp) (fun k => by rw [runFor_succ, ran]) (by rw [ran])
      | ok more =>
        cases more with
        | false =>
          exact last .halted (by simp) (fun k => by rw [runFor_succ, ran]) (by rw [ran])
        | true =>
          have on (k : Nat) : m.runFor p (k + 1) s = m.runFor p k t := by rw [runFor_succ, ran]
          obtain ⟨k, within, ends, going⟩ := ih t
          refine ⟨k + 1, by omega, by rw [on, ends, after_succ, ran], fun j small => ?_⟩
          cases j with
          | zero => exact ⟨fun _ => Nat.zero_lt_succ k, fun _ => rfl⟩
          | succ j => rw [on, going j (by omega)]; omega

theorem runFor_failed {k : Nat} {e : Failure} {t : State}
    (going : (m.runFor p k s).1 = .unfinished) (failed : m.attempt p (m.after p s k) = (.error e, t))
    (later : k < n) : m.runFor p n s = (.failed e, t) := by
  induction k generalizing s n with
  | zero =>
    obtain ⟨n, rfl⟩ := Nat.exists_eq_add_of_lt later
    rw [after] at failed
    rw [runFor_succ, failed]
  | succ k ih =>
    obtain ⟨n, rfl⟩ := Nat.exists_eq_add_of_lt later
    rw [after_succ] at failed
    rw [runFor_succ] at going ⊢
    cases ran : m.attempt p s with
    | mk res u =>
      simp only [ran] at going failed ⊢
      cases res with
      | error e => cases going
      | ok more =>
        cases more with
        | false => cases going
        | true => exact ih going failed (by omega)

theorem execute_failed {sink : Sink} {k : Nat} {e : Failure} (started : m.start p sink = .ok s)
    (going : (m.runFor p k s).1 = .unfinished)
    (failed : (m.attempt p (m.after p s k)).1 = .error e) (later : k < n) :
    (m.execute p sink n).1 = .failed e := by
  simp only [execute, started, runFor_failed going (Prod.ext failed rfl) later]

theorem execute_map {ψ : Sink → Sink} {sink : Sink}
    (begins : m'.start q (ψ sink) = (m.start p sink).map φ)
    (runs : ∀ s, m.start p sink = .ok s →
      m'.runFor q n (φ s) = Prod.map id φ (m.runFor p n s))
    (prints : ∀ t, (φ t).sink = ψ t.sink) (counts : ∀ t, (φ t).dispatched = t.dispatched) :
    m'.execute q (ψ sink) n = Prod.map id (Prod.map ψ id) (m.execute p sink n) := by
  unfold execute
  rw [begins]
  cases started : m.start p sink with
  | error e => rfl
  | ok s => simp only [Except.map, runs s started, Prod.map, id, prints, counts]

end Runs

def transport (φ : State → State) :
    EStateM.Result Fault State Unit → EStateM.Result Fault State Unit
  | .ok u t => .ok u (φ t)
  | .error e t => .error e (φ t)

theorem finish_transport {φ : State → State}
    (counts : ∀ t : State, φ { t with dispatched := t.dispatched + 1 } =
      { φ t with dispatched := (φ t).dispatched + 1 })
    (l : Location) (x : EStateM.Result Fault State Unit) :
    finish l (transport φ x) = Prod.map id φ (finish l x) := by
  cases x with
  | ok u t => simp only [transport, finish, Prod.map, id, counts]
  | error e t => rfl

/-- What a step comes to from two states with the same frames and the same shared contents. -/
inductive Together (p : Program) (s t : State) :
    Except Failure Bool × State → Except Failure Bool × State → Prop where
  | stays {res} (idle : res ≠ .ok true)
      (room : ∀ depth limit l, res ≠ .error ⟨.stackOverflow depth limit, l⟩) :
      Together p s t (res, s) (res, t)
  | fails {f below r i e} (executes : Executes p s f below r i)
      (room : ∀ depth limit, e.fault ≠ .stackOverflow depth limit) :
      Together p s t (.error e, s.advance f) (.error e, t.advance f)
  | performs {f below r i} {d : Deed} (executes : Executes p s f below r i)
      (fits : d.Fits p i f.advance s.heap) :
      Together p s t
        (finish ⟨r.name, f.pointer, i.opcode⟩ (d.perform p i f.advance (s.advance f)))
        (finish ⟨r.name, f.pointer, i.opcode⟩ (d.perform p i f.advance (t.advance f)))

theorem attempt_together {s t : State} (p : Program) (depth : Nat)
    (frames : t.calls.items = s.calls.items) (heap : t.heap = s.heap) :
    Together p s t ((standard depth).attempt p s) ((standard depth).attempt p t) := by
  cases top : s.calls.items with
  | nil =>
    have top' := frames.trans top
    simp only [attempt, step, Stack.top?, top, top', List.head?_nil]
    exact .stays (by simp) (by simp)
  | cons f below =>
    rw [attempt_top _ top, attempt_top _ (frames.trans top)]
    cases found : p.routine f.routine with
    | error e =>
      refine .stays (by simp) fun depth limit l same => ?_
      obtain rfl := (Failure.mk.inj (Except.error.inj same)).1
      unfold Program.routine at found
      split at found <;> cases found
    | ok r =>
      simp only
      cases fetched : r.body[f.pointer]? with
      | none => exact .stays (by simp) (by simp)
      | some i =>
        have executes : Executes p s f below r i := ⟨top, found, fetched⟩
        have passed : (s.advance f).calls.items = f.advance :: below :=
          Stack.items_replaceTop top f.advance
        have passed' : (t.advance f).calls.items = f.advance :: below :=
          Stack.items_replaceTop (frames.trans top) f.advance
        have same : (t.advance f).heap = (s.advance f).heap := heap
        simp only
        cases known : (standard depth).handler? i.opcode with
        | none => exact .fails executes (by simp)
        | some handler =>
          obtain ⟨plan, follows, sound⟩ := handler?_planned known
          have decision := sound p i f.advance s.heap rfl
          simp only
          -- a plan sees the frame and the heap, which are the same, so it decides the same twice
          rw [follows p i _ _ _ passed, follows p i _ _ _ passed', same]
          change Sound p i f.advance s.heap (plan p i f.advance (s.advance f).heap) at decision
          cases decided : plan p i f.advance (s.advance f).heap with
          | error e =>
            rw [decided] at decision
            exact .fails executes decision.ne_overflow
          | ok d =>
            rw [decided] at decision
            exact .performs executes decision

end Machine

end RegisterMachine
