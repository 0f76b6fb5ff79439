import RegisterMachine.Proofs.SideBySide

/-!
How much room there is for calls shows only when there is none left. A machine that allows more
frames takes the same steps to the same states, until the other is to put a frame on a stack that is
full: this fails, and nothing else fails for want of room. Frames that rest in coroutines are not on
the stack and take no room.
-/

namespace RegisterMachine

namespace Stack

variable {α : Type} {s : Stack α} {x : α} {limit : Nat}

def withLimit (s : Stack α) (limit : Nat) : Stack α := { s with room := limit - s.depth }

@[simp] theorem items_withLimit (s : Stack α) (limit : Nat) :
    (s.withLimit limit).items = s.items := rfl

theorem limit_withLimit (fits : s.depth ≤ limit) : (s.withLimit limit).limit = limit :=
  Nat.add_sub_cancel' fits

theorem replaceTop_withLimit (s : Stack α) (x : α) (limit : Nat) :
    (s.withLimit limit).replaceTop x = (s.replaceTop x).withLimit limit := by
  obtain ⟨items, room⟩ := s
  cases items <;> rfl

theorem pop_withLimit (fits : s.depth ≤ limit) :
    (s.withLimit limit).pop = s.pop.withLimit limit := by
  obtain ⟨items, room⟩ := s
  cases items with
  | nil => rfl
  | cons y rest =>
    simp only [depth, List.length_cons] at fits
    simp only [withLimit, pop, depth, List.length_cons, mk.injEq, true_and]
    omega

theorem push_withLimit {t : Stack α} (fits : s.limit ≤ limit) (pushed : s.push x = .ok t) :
    (s.withLimit limit).push x = .ok (t.withLimit limit) := by
  obtain ⟨items, kept⟩ := push_eq_ok_iff.mp pushed
  have inside : t.depth ≤ limit := Nat.le_trans (kept ▸ t.depth_le_limit) fits
  refine push_eq_ok_iff.mpr ⟨items, ?_⟩
  rw [limit_withLimit inside, limit_withLimit (Nat.le_trans s.depth_le_limit fits)]

end Stack

/-- The state as it is on a stack with that limit. -/
def State.withLimit (s : State) (limit : Nat) : State :=
  { s with calls := s.calls.withLimit limit }

/-- A frame is to be put on the stack next: by a call that finds its function and passes it no more
arguments than it takes, or by the resumption of a coroutine in which a frame rests. -/
def State.NeedsRoom (p : Program) (s : State) : Prop :=
  ∃ f below r i, Executes p s f below r i ∧
    ((∃ name args id callee, Calls i f s.heap name ∧ i.inputs.mapM f.get = .ok args ∧
        p.find name = .ok id ∧ Frame.enter p id args = .ok callee) ∨
      ∃ id parked, i.opcode = "co-invoke" ∧ f.operand i 0 = .ok (.coroutine id) ∧
        (s.heap.coroutine id).parked = some parked)

def Machine.Overflows (m : Machine) (p : Program) (s : State) : Prop :=
  ∃ depth limit l, (m.attempt p s).1 = .error ⟨.stackOverflow depth limit, l⟩

section Steps

variable {p : Program} {s t : State} {f : Frame} {below : List Frame} {r : Routine}
  {i : Instruction} {depth limit : Nat}

theorem State.advance_withLimit (s : State) (f : Frame) (limit : Nat) :
    (s.withLimit limit).advance f = (s.advance f).withLimit limit := by
  simp only [advance, withLimit, Stack.replaceTop_withLimit]

theorem push_withLimit (fits : s.calls.limit ≤ limit) (room : s.calls.room ≠ 0) (g : Frame) :
    Effect.push g (s.withLimit limit) =
      Machine.transport (·.withLimit limit) (Effect.push g s) := by
  rw [Effect.push_run, Effect.push_run]
  cases pushed : s.calls.push g with
  | error e => exact absurd (Stack.push_eq_error_iff.mp pushed).1 room
  | ok calls =>
    simp only [State.withLimit, Stack.push_withLimit fits pushed]
    rfl

theorem deliver_withLimit (s : State) (opcode : String) (v : Value) (limit : Nat) :
    Effect.deliver p opcode v (s.withLimit limit) =
      Machine.transport (·.withLimit limit) (Effect.deliver p opcode v s) := by
  rw [Effect.deliver_run, Effect.deliver_run]
  simp only [State.withLimit, Stack.items_withLimit]
  cases s.calls.items with
  | nil => rfl
  | cons g rest =>
    simp only
    cases g.receive p opcode v with
    | error e => rfl
    | ok g' => simp only [Stack.replaceTop_withLimit, Machine.transport]

def Deed.AddsFrame : Deed → Prop
  | enter _ | resume .. => True
  | change _ | print _ | leave | handBack _ | yield _ => False

theorem Deed.perform_withLimit (fits : s.calls.limit ≤ limit) (d : Deed)
    (room : d.AddsFrame → s.calls.room ≠ 0) :
    d.perform p i f (s.withLimit limit) =
      Machine.transport (·.withLimit limit) (d.perform p i f s) := by
  have popped : (s.withLimit limit).calls.pop = s.calls.pop.withLimit limit :=
    Stack.pop_withLimit (Nat.le_trans s.calls.depth_le_limit fits)
  cases d with
  | change c =>
    simp only [perform, State.withLimit, Stack.replaceTop_withLimit, Machine.transport]
  | print v =>
    simp only [perform, Effect.print_run, State.withLimit]
    split <;> rfl
  | enter callee => exact push_withLimit fits (room trivial) callee
  | resume id parked =>
    exact push_withLimit (s := { s with heap := s.heap.park id none }) fits (room trivial) _
  | leave =>
    simp only [perform, popped]
    rfl
  | handBack v =>
    simp only [perform, popped]
    exact deliver_withLimit { s with calls := s.calls.pop } i.opcode v limit
  | yield v =>
    simp only [perform, popped]
    exact deliver_withLimit { s with calls := s.calls.pop, heap := s.heap.rest f } i.opcode v limit

theorem Frame.receive_ne_overflow {opcode : String} {v : Value} {g : Frame} {e : Fault}
    (declined : g.receive p opcode v = .error e) (depth limit : Nat) :
    e ≠ .stackOverflow depth limit := by
  rintro rfl
  unfold receive at declined
  cases found : g.callSite? p with
  | none => simp [found] at declined
  | some site =>
    cases output : site.output with
    | none => simp [found, output] at declined
    | some q =>
      by_cases inside : q < g.registers.size <;> simp [found, output, inside, outOfRange] at declined

theorem deliver_ne_overflow {opcode : String} {v : Value} {e : Fault}
    (failed : Effect.deliver p opcode v s = .error e t) (depth limit : Nat) :
    e ≠ .stackOverflow depth limit := by
  rw [Effect.deliver_run] at failed
  cases items : s.calls.items with
  | nil =>
    simp only [items, EStateM.Result.error.injEq] at failed
    simp [← failed.1]
  | cons g rest =>
    cases declined : g.receive p opcode v with
    | ok g' => simp [items, declined] at failed
    | error e' =>
      simp only [items, declined, EStateM.Result.error.injEq] at failed
      exact failed.1 ▸ Frame.receive_ne_overflow declined depth limit

theorem Deed.perform_overflow {d : Deed} {e : Fault} {depth limit : Nat}
    (failed : d.perform p i f s = .error e t) (overflow : e = .stackOverflow depth limit) :
    d.AddsFrame ∧ s.calls.room = 0 ∧ depth = s.calls.depth + 1 ∧ limit = s.calls.limit := by
  cases perform_breaks failed with
  | enter full | resume full =>
    obtain ⟨rfl, rfl⟩ := Fault.stackOverflow.inj overflow
    exact ⟨trivial, full, rfl, rfl⟩
  | print text full => cases overflow
  | handBack declined | yield declined =>
    exact absurd overflow (deliver_ne_overflow declined depth limit)

theorem Deed.perform_full {d : Deed} (pushes : d.AddsFrame) (full : s.calls.room = 0) :
    ∃ t, d.perform p i f s = .error (.stackOverflow (s.calls.depth + 1) s.calls.limit) t := by
  have full (g : Frame) :
      s.calls.push g = .error (.stackOverflow (s.calls.depth + 1) s.calls.limit) :=
    Stack.push_eq_error_iff.mpr ⟨full, rfl⟩
  cases d with
  | enter callee => exact ⟨s, by simp only [perform, Effect.push_run, full]⟩
  | resume id parked =>
    exact ⟨{ s with heap := s.heap.park id none }, by simp only [perform, Effect.push_run, full]⟩
  | change | print | leave | handBack | yield => exact pushes.elim

theorem Deed.Fits.needsRoom {d : Deed} (fits : d.Fits p i f.advance s.heap) (pushes : d.AddsFrame)
    (executes : Executes p s f below r i) : s.NeedsRoom p := by
  refine ⟨f, below, r, i, executes, ?_⟩
  cases d with
  | enter callee =>
    obtain ⟨name, args, id, called, read, found, entered⟩ := fits
    exact .inl ⟨name, args, id, callee, called.of_advance, read, found, entered⟩
  | resume id parked => exact .inr ⟨id, parked, fits⟩
  | change | print | leave | handBack | yield => exact pushes.elim

theorem State.NeedsRoom.decides (pushes : s.NeedsRoom p) (m : Nat) :
    ∃ f below r i, ∃ d : Deed, Executes p s f below r i ∧ d.AddsFrame ∧
      (Machine.standard m).attempt p s = Machine.finish ⟨r.name, f.pointer, i.opcode⟩
        (d.perform p i f.advance (s.advance f)) := by
  obtain ⟨f, below, r, i, executes, ⟨name, args, id, callee, called, read, found, entered⟩ |
    ⟨id, parked, opcode, named, rested⟩⟩ := pushes
  · have read : i.inputs.mapM f.advance.get = .ok args := read
    have decided : Plan.callee p name args = .ok (.enter callee) := by
      simp [Plan.callee, found, entered, pure, Except.pure]
    refine ⟨f, below, r, i, .enter callee, executes, trivial, ?_⟩
    cases called with
    | function opcode named =>
      have known : (Machine.standard m).handler? i.opcode = some Opcodes.callFunction :=
        opcode ▸ rfl
      rw [executes.attempt_eq known follows_callFunction]
      simp only [Plan.callFunction, read, named, ok_bind, decided]
      rfl
    | @method id method opcode receiver named =>
      have receiver : f.advance.operandAs .object i 0 = .ok id := receiver
      have known : (Machine.standard m).handler? i.opcode = some Opcodes.callMethod := opcode ▸ rfl
      rw [executes.attempt_eq known follows_callMethod]
      simp only [Plan.callMethod, receiver, read, named, ok_bind, decided]
      rfl
  · have receiver : f.advance.operandAs .coroutine i 0 = .ok id :=
      Frame.operandAs_eq_ok_iff.mpr ⟨_, named, rfl⟩
    have known : (Machine.standard m).handler? i.opcode = some Opcodes.resume := opcode ▸ rfl
    refine ⟨f, below, r, i, .resume id parked, executes, trivial, ?_⟩
    rw [executes.attempt_eq known follows_resume]
    simp only [Plan.resume, receiver, ok_bind, rested]
    rfl

variable {m m' : Nat}

theorem Machine.attempt_standard (m m' : Nat) (p : Program) (s : State) :
    (standard m').attempt p s = (standard m).attempt p s := rfl

theorem Machine.overflow_eq {l : Option Location}
    (overflow : ((standard m).attempt p s).1 = .error ⟨.stackOverflow depth limit, l⟩) :
    s.NeedsRoom p ∧ s.calls.room = 0 ∧ depth = s.calls.depth + 1 ∧ limit = s.calls.limit := by
  have together := attempt_together (t := s) p m rfl rfl
  generalize (standard m).attempt p s = ran at together overflow
  cases together with
  | stays idle room => exact absurd overflow (room depth limit l)
  | fails executes room =>
    exact absurd (congrArg Failure.fault (Except.error.inj overflow)) (room depth limit)
  | @performs f below r i d executes fits =>
    cases performed : d.perform p i f.advance (s.advance f) with
    | ok u t => simp [performed, finish] at overflow
    | error e t =>
      simp only [performed, finish, Except.error.injEq, Failure.mk.injEq] at overflow
      obtain ⟨pushes, full, deep, most⟩ := Deed.perform_overflow performed overflow.1
      simp only [State.advance, Stack.depth_replaceTop, Stack.limit_replaceTop] at deep most
      simp only [State.advance, Stack.replaceTop, executes.top] at full
      exact ⟨fits.needsRoom pushes executes, full, deep, most⟩

theorem Machine.overflows_iff :
    (standard m).Overflows p s ↔ s.NeedsRoom p ∧ s.calls.room = 0 := by
  constructor
  · rintro ⟨depth, limit, l, overflow⟩
    obtain ⟨pushes, full, -⟩ := overflow_eq overflow
    exact ⟨pushes, full⟩
  · rintro ⟨pushes, full⟩
    obtain ⟨f, below, r, i, d, executes, puts, ran⟩ := pushes.decides m
    have none : (s.advance f).calls.room = 0 := by
      simpa [State.advance, Stack.replaceTop, executes.top] using full
    obtain ⟨t, failed⟩ := Deed.perform_full (p := p) (i := i) (f := f.advance) puts none
    rw [Overflows, ran, failed]
    exact ⟨_, _, _, rfl⟩

/-- A step that does not fail for want of room comes out the same where there is more. -/
theorem Machine.attempt_withLimit (fits : s.calls.limit ≤ limit)
    (roomy : ¬(standard m).Overflows p s) :
    (standard m').attempt p (s.withLimit limit) =
      Prod.map id (·.withLimit limit) ((standard m).attempt p s) := by
  have together := attempt_together (s := s) (t := s.withLimit limit) p m rfl rfl
  rw [attempt_standard m m']
  generalize (standard m).attempt p s = ran at together ⊢
  generalize (standard m).attempt p (s.withLimit limit) = ran' at together ⊢
  cases together with
  | stays idle room => rfl
  | fails executes room => rw [State.advance_withLimit]; rfl
  | @performs f below r i d executes puts =>
    have inside : (s.advance f).calls.limit ≤ limit := by simpa [State.advance] using fits
    rw [State.advance_withLimit, d.perform_withLimit inside, finish_transport fun _ => rfl]
    intro pushes full
    simp only [State.advance, Stack.replaceTop, executes.top] at full
    exact roomy (overflows_iff.mpr ⟨puts.needsRoom pushes executes, full⟩)

theorem Machine.after_limit (m : Nat) (p : Program) (s : State) (n : Nat) :
    ((standard m).after p s n).calls.limit = s.calls.limit := by
  induction n with
  | zero => rfl
  | succ n ih => exact (attempt_outcome m p _).limit.trans ih

theorem Program.find_ne_overflow {name : String} {e : Fault} (absent : p.find name = .error e)
    (depth limit : Nat) : e ≠ .stackOverflow depth limit := by
  obtain ⟨rfl, -⟩ := find_eq_error_iff.mp absent
  exact Fault.noConfusion

theorem Machine.start_standard (p : Program) (sink : Sink) :
    (∃ e, p.find Program.entry = .error e ∧ ∀ m, (standard m).start p sink = .error e) ∨
      ∃ id f, p.find Program.entry = .ok id ∧
        (standard 0).start p sink = .error (.stackOverflow 1 0) ∧
        ∀ room, (standard (room + 1)).start p sink =
          .ok { calls := { items := [f], room }, sink } := by
  unfold start
  cases found : p.find Program.entry with
  | error e => exact .inl ⟨e, rfl, fun _ => rfl⟩
  | ok id =>
    obtain ⟨r, present, -⟩ := find_eq_ok found
    obtain ⟨f, entered⟩ : ∃ f, Frame.enter p id [] = .ok f :=
      ⟨_, Frame.enter_eq_ok_iff.mpr ⟨r, present, Nat.zero_le _, rfl⟩⟩
    refine .inr ⟨id, f, rfl, ?_⟩
    simp only [ok_bind, entered]
    exact ⟨rfl, fun _ => rfl⟩

end Steps

section Runs

variable {p : Program} {s : State} {sink : Sink} {m m' n : Nat}

theorem Machine.start_overflow_iff {depth limit : Nat} :
    (standard m).start p sink = .error (.stackOverflow depth limit) ↔
      (m = 0 ∧ ∃ id, p.find Program.entry = .ok id) ∧ depth = m + 1 ∧ limit = m := by
  obtain ⟨e, absent, started⟩ | ⟨id, f, found, full, roomy⟩ := start_standard p sink
  · have other := Program.find_ne_overflow absent depth limit
    simp [started, absent, other]
  · cases m with
    | zero => simp [full, found, eq_comm]
    | succ room => simp [roomy]

theorem Machine.start_withLimit (le : m ≤ m')
    (roomy : ∀ depth limit, (standard m).start p sink ≠ .error (.stackOverflow depth limit)) :
    (standard m').start p sink = ((standard m).start p sink).map (·.withLimit m') := by
  obtain ⟨e, absent, started⟩ | ⟨id, f, found, full, started⟩ := start_standard p sink
  · rw [started, started]
    rfl
  · cases m with
    | zero => exact absurd full (roomy 1 0)
    | succ room =>
      obtain ⟨more, rfl⟩ := Nat.exists_eq_add_of_le' le
      rw [started, ← Nat.add_assoc, started]
      simp [Except.map, State.withLimit, Stack.withLimit, Stack.depth]

theorem Machine.after_withLimit (fits : s.calls.limit ≤ m')
    (roomy : ∀ k < n, ¬(standard m).Overflows p ((standard m).after p s k)) {k : Nat}
    (within : k ≤ n) : (standard m').after p (s.withLimit m') k =
      ((standard m).after p s k).withLimit m' := by
  refine after_map (φ := (·.withLimit m')) (fun k small => ?_) within
  have inside : ((standard m).after p s k).calls.limit ≤ m' := after_limit m p s k ▸ fits
  exact attempt_withLimit inside (roomy k small)

theorem Machine.execute_withLimit (le : m ≤ m') (p : Program) (sink : Sink) (steps : Nat)
    (roomy : ∀ depth limit l,
      ((standard m).execute p sink steps).1 ≠ .failed ⟨.stackOverflow depth limit, l⟩) :
    (standard m').execute p sink steps = (standard m).execute p sink steps := by
  have begins : (standard m').start p sink = ((standard m).start p sink).map (·.withLimit m') := by
    refine start_withLimit le fun depth limit full => roomy depth limit none ?_
    simp only [execute, full]
  have runs (s : State) (started : (standard m).start p sink = .ok s) :
      (standard m').runFor p steps (s.withLimit m') =
        Prod.map id (·.withLimit m') ((standard m).runFor p steps s) := by
    obtain ⟨-, -, -, -, limit, -⟩ := start_eq_ok started
    refine runFor_map (φ := (·.withLimit m')) fun k small going => ?_
    have inside : ((standard m).after p s k).calls.limit ≤ m' :=
      Nat.le_trans (Nat.le_of_eq ((after_limit m p s k).trans limit)) le
    refine attempt_withLimit inside ?_
    rintro ⟨depth, limit, l, overflow⟩
    exact roomy depth limit l (execute_failed started going overflow small)
  exact execute_map (ψ := id) begins runs (fun _ => rfl) fun _ => rfl

/-- A machine that allows more frames runs as another does, step by step, until a frame is to be put
on a stack that is full for the other: there, and nowhere else, the other fails for want of room. -/
theorem Machine.limit_unseen (le : m ≤ m') (p : Program) (sink : Sink) :
    (∀ depth limit, (standard m).start p sink = .error (.stackOverflow depth limit) ↔
      (m = 0 ∧ ∃ id, p.find Program.entry = .ok id) ∧ depth = m + 1 ∧ limit = m) ∧
    ((∀ depth limit, (standard m).start p sink ≠ .error (.stackOverflow depth limit)) →
      (standard m').start p sink = ((standard m).start p sink).map (·.withLimit m')) ∧
    (∀ s, (standard m).start p sink = .ok s →
      let run := (standard m).after p s
      let wide := (standard m').after p (s.withLimit m')
      (∀ n, (∀ k < n, ¬(standard m).Overflows p (run k)) →
        wide n = (run n).withLimit m' ∧
        ∀ k < n, ((standard m').attempt p (wide k)).1 = ((standard m).attempt p (run k)).1) ∧
      (∀ n, (standard m).Overflows p (run n) ↔ (run n).NeedsRoom p ∧ (run n).calls.depth = m) ∧
      ∀ n depth limit l,
        ((standard m).attempt p (run n)).1 = .error ⟨.stackOverflow depth limit, l⟩ →
          depth = m + 1 ∧ limit = m) ∧
    ∀ steps, (∀ depth limit l,
        ((standard m).execute p sink steps).1 ≠ .failed ⟨.stackOverflow depth limit, l⟩) →
      (standard m').execute p sink steps = (standard m).execute p sink steps := by
  refine ⟨fun _ _ => start_overflow_iff, start_withLimit le, fun s started => ?_,
    execute_withLimit le p sink⟩
  intro run wide
  obtain ⟨-, -, -, -, limit, -⟩ := start_eq_ok started
  have fits : s.calls.limit ≤ m' := Nat.le_trans (Nat.le_of_eq limit) le
  have most (n : Nat) : (run n).calls.limit = m := (after_limit m p s n).trans limit
  refine ⟨fun n roomy => ⟨after_withLimit fits roomy (Nat.le_refl n), fun k small => ?_⟩,
    fun n => ?_, fun n depth limit l overflow => ?_⟩
  · have same : wide k = (run k).withLimit m' :=
      after_withLimit fits roomy (Nat.le_of_lt small)
    rw [same, attempt_withLimit (Nat.le_trans (Nat.le_of_eq (most k)) le) (roomy k small)]
    rfl
  -- depth and room always add up to the limit, so to have no room is to be that deep
  · have full : (run n).calls.room = 0 ↔ (run n).calls.depth = m := by
      have := most n
      rw [Stack.limit] at this
      omega
    rw [overflows_iff, full]
  · obtain ⟨-, full, deep, same⟩ := overflow_eq overflow
    have := most n
    rw [Stack.limit] at this same
    omega

end Runs

theorem Machine.yielding_limits :
    let s : State := { State.yielding with calls := { State.yielding.calls with room := 0 } }
    (standard 1).start .yielding {} = .ok s ∧
      ((standard 1).after .yielding s 1).heap.coroutines.size = 1 ∧
      (standard 3).after .yielding (s.withLimit 3) 1 =
        ((standard 1).after .yielding s 1).withLimit 3 ∧
      ((standard 1).Overflows .yielding ((standard 1).after .yielding s 1) ↔
        ((standard 1).after .yielding s 1).NeedsRoom .yielding ∧
          ((standard 1).after .yielding s 1).calls.depth = 1) ∧
      (standard 1).Overflows .yielding ((standard 1).after .yielding s 1) ∧
      (standard 3).execute .yielding {} 9 = (standard 2).execute .yielding {} 9 ∧
      ((standard 2).execute .yielding {} 9).1 = .halted := by
  intro s
  have started : (standard 1).start .yielding {} = .ok s := rfl
  obtain ⟨-, -, runs, -⟩ := limit_unseen (show 1 ≤ 3 by decide) .yielding {}
  obtain ⟨same, overflows, -⟩ := runs s started
  have roomy : ∀ k < 1, ¬(standard 1).Overflows .yielding ((standard 1).after .yielding s k) := by
    rintro k small ⟨depth, limit, l, overflow⟩
    obtain rfl : k = 0 := by omega
    cases overflow
  obtain ⟨-, -, -, ends⟩ := limit_unseen (show 2 ≤ 3 by decide) .yielding {}
  have halts : ((standard 2).execute .yielding {} 9).1 = .halted := by decide +kernel
  refine ⟨started, rfl, (same 1 roomy).1, overflows 1, ⟨2, 1, _, rfl⟩, ends 9 ?_, halts⟩
  intro depth limit l failed
  cases halts.symm.trans failed

end RegisterMachine
