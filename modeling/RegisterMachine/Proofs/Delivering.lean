import RegisterMachine.Proofs.Activations

/-!
Delivery to a frame of whatever program. Where the value goes is found by the numbers of the frame
in the program that runs: they may lead to an instruction of another function or to none, and the
frame may lack the register that is meant. All that can be in the way is found before anything
changes.
-/

namespace RegisterMachine

/-- The program has that instruction in the function of the frame, just before the pointer. -/
structure Frame.Past (p : Program) (f : Frame) (site : Instruction) : Prop where
  begun : 1 ≤ f.pointer
  placed : ∃ r, p.routines[f.routine]? = some r ∧ r.body[f.pointer - 1]? = some site

/-- The program has no instruction before the pointer of the frame, or no such function. -/
def Frame.Lost (p : Program) (f : Frame) : Prop :=
  f.pointer = 0 ∨ p.routines[f.routine]? = none ∨
    ∃ r, p.routines[f.routine]? = some r ∧ r.body[f.pointer - 1]? = none

/-- What is in the way of a delivery to the topmost of the frames. -/
inductive Obstructed (p : Program) (opcode : String) : List Frame → Fault → Prop where
  | noFrame : Obstructed p opcode [] (.undeliverable opcode .noFrame)
  | noCallSite {f below} (lost : f.Lost p) :
      Obstructed p opcode (f :: below) (.undeliverable opcode .noCallSite)
  | noOutput {f below site} (past : f.Past p site) (silent : site.output = none) :
      Obstructed p opcode (f :: below) (.undeliverable opcode .noOutput)
  | noRegister {f below site} {q : Register} (past : f.Past p site) (output : site.output = some q)
      (outside : f.registers.size ≤ q) :
      Obstructed p opcode (f :: below) (.registerOutOfRange f.name q f.registers.size)

section Sites

variable {p : Program} {f : Frame} {site : Instruction}

theorem Frame.past_iff : f.Past p site ↔ f.callSite? p = some site := by
  rw [callSite?_eq_some_iff, Program.fetch?, Option.bind_eq_some_iff]
  constructor
  · intro past
    exact ⟨past.begun, past.placed⟩
  · intro found
    exact ⟨found.1, found.2⟩

theorem Frame.lost_iff : f.Lost p ↔ f.callSite? p = none := by
  unfold Lost callSite? Program.fetch?
  by_cases begun : f.pointer = 0
  · simp [begun]
  · cases p.routines[f.routine]? <;> simp [begun]

end Sites

section Deliveries

variable {p : Program} {s t : State} {f g : Frame} {below : List Frame} {opcode : String}
  {v : Value} {e : Fault}

theorem Frame.receive_eq_ok_iff : f.receive p opcode v = .ok g ↔
    ∃ site q, ∃ inside : q < f.registers.size, f.Past p site ∧ site.output = some q ∧
      g = { f with registers := f.registers.set q v, returned := some v } := by
  have written {q : Register} (inside : q < f.registers.size) :
      { f.put q v with returned := some v } =
        { f with registers := f.registers.set q v, returned := some v } := by
    simp [put, Array.setIfInBounds, inside]
  constructor
  · intro received
    obtain ⟨site, q, found, output, inside, rfl⟩ := receive_eq_ok received
    exact ⟨site, q, inside, past_iff.mpr found, output, written inside⟩
  · rintro ⟨site, q, inside, past, output, rfl⟩
    simp only [receive, past_iff.mp past, output, if_pos inside, written inside]

theorem Frame.receive_eq_error_iff :
    f.receive p opcode v = .error e ↔ Obstructed p opcode (f :: below) e := by
  constructor
  · intro failed
    unfold receive at failed
    cases found : f.callSite? p with
    | none =>
      simp only [found, Except.error.injEq] at failed
      exact failed ▸ .noCallSite (lost_iff.mpr found)
    | some site =>
      have past := past_iff.mpr found
      cases output : site.output with
      | none =>
        simp only [found, output, Except.error.injEq] at failed
        exact failed ▸ .noOutput past output
      | some q =>
        by_cases inside : q < f.registers.size
        · simp only [found, output, if_pos inside, reduceCtorEq] at failed
        · simp only [found, output, if_neg inside, Except.error.injEq] at failed
          exact failed ▸ .noRegister past output (Nat.not_lt.mp inside)
  · intro obstructed
    cases obstructed with
    | noCallSite lost => simp only [receive, lost_iff.mp lost]
    | noOutput past silent => simp only [receive, past_iff.mp past, silent]
    | noRegister past output outside =>
      simp only [receive, past_iff.mp past, output, if_neg (Nat.not_lt.mpr outside)]
      rfl

theorem Effect.deliver_eq_ok_iff : deliver p opcode v s = .ok () t ↔
    ∃ f below g, s.calls.items = f :: below ∧ f.receive p opcode v = .ok g ∧
      t = { s with calls := { s.calls with items := g :: below } } := by
  rw [deliver_run]
  cases top : s.calls.items with
  | nil => simp
  | cons f below =>
    have replaced (g : Frame) : s.calls.replaceTop g = { s.calls with items := g :: below } := by
      simp only [Stack.replaceTop, top]
    constructor
    · intro delivered
      cases received : f.receive p opcode v with
      | error e => simp [received] at delivered
      | ok g =>
        simp only [received, EStateM.Result.ok.injEq, true_and] at delivered
        exact ⟨f, below, g, rfl, received, replaced g ▸ delivered.symm⟩
    · rintro ⟨f', below', g, same, received, rfl⟩
      obtain ⟨rfl, rfl⟩ := List.cons.inj same
      simp only [received, replaced]

theorem Effect.deliver_eq_error_iff : deliver p opcode v s = .error e t ↔
    t = s ∧ Obstructed p opcode s.calls.items e := by
  rw [deliver_run]
  cases s.calls.items with
  | nil =>
    constructor
    · intro failed
      obtain ⟨rfl, rfl⟩ := EStateM.Result.error.inj failed
      exact ⟨rfl, .noFrame⟩
    · rintro ⟨rfl, ⟨⟩⟩
      rfl
  | cons f below =>
    rw [← Frame.receive_eq_error_iff]
    cases received : f.receive p opcode v with
    | ok g => simp [received]
    | error e' => simp [received, and_comm, eq_comm]

end Deliveries

/-- A delivery, for any program and in any state, changes the output register of the call and the
value last returned, and nothing else; or it changes nothing, and reports the first thing that is
missing. -/
theorem Effect.deliver_whole (p : Program) (opcode : String) (v : Value) (s : State) :
    (∀ t, deliver p opcode v s = .ok () t ↔
      ∃ f below site q, ∃ inside : q < f.registers.size,
        s.calls.items = f :: below ∧ f.Past p site ∧ site.output = some q ∧
          t = { s with calls := { s.calls with
            items := { f with registers := f.registers.set q v, returned := some v } :: below } }) ∧
      (∀ e t, deliver p opcode v s = .error e t ↔
        t = s ∧ Obstructed p opcode s.calls.items e) ∧
      Obstacle.noFrame.reason = "no frame to resume" ∧
      Obstacle.noCallSite.reason = "resumed frame has no call site" ∧
      Obstacle.noOutput.reason = "call site has no output register" := by
  refine ⟨fun t => ?_, fun e t => deliver_eq_error_iff, rfl, rfl, rfl⟩
  rw [deliver_eq_ok_iff]
  constructor
  · rintro ⟨f, below, g, top, received, rfl⟩
    obtain ⟨site, q, inside, past, output, rfl⟩ := Frame.receive_eq_ok_iff.mp received
    exact ⟨f, below, site, q, inside, top, past, output, rfl⟩
  · rintro ⟨f, below, site, q, inside, top, past, output, rfl⟩
    exact ⟨f, below, _, top, Frame.receive_eq_ok_iff.mpr ⟨site, q, inside, past, output, rfl⟩, rfl⟩

/-- A frame that was built for another program lacks the register that this one has at its place. -/
example :
    let call : Instruction := { opcode := "fn-call", output := some 1, payload := .name "main" }
    let f : Frame := ⟨0, "elsewhere", #[.unset], 1, none, none⟩
    let s : State := { calls := ⟨[f], 0⟩ }
    Effect.deliver ⟨[⟨"main", [call], {}⟩], {}⟩ "fn-ret-val" (.int 7) s =
      .error (.registerOutOfRange "elsewhere" 1 1) s := by
  rfl

end RegisterMachine
