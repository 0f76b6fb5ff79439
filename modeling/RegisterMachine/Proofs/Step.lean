import RegisterMachine.Machine.Execution
import RegisterMachine.Proofs.Catalogue

/-!
One call of `step` on the standard machine. `Outcome` lists all that it can come to: nothing was
left to execute, no instruction was fetched, the instruction was refused, or its deed was carried
out, to the end or until it failed. Every state that follows another does so by one of these.
-/

namespace RegisterMachine

/-- One call of `step`: its result, and the state after it, which a failure has as well. -/
def Machine.attempt (m : Machine) (p : Program) (s : State) : Except Failure Bool × State :=
  match m.step p s with
  | .ok more t => (.ok more, t)
  | .error e t => (.error e, t)

theorem Machine.attempt_eq_error_iff {m : Machine} {p : Program} {s t : State} {e : Failure} :
    m.attempt p s = (.error e, t) ↔ m.step p s = .error e t := by
  unfold attempt
  cases m.step p s <;> simp

namespace Stack

variable {α : Type} {s : Stack α} {x : α} {rest : List α}

theorem items_replaceTop (top : s.items = x :: rest) (y : α) :
    (s.replaceTop y).items = y :: rest := by
  simp [replaceTop, top]

theorem items_pop (top : s.items = x :: rest) : s.pop.items = rest := by
  simp [pop, top]

theorem push_eq_error_iff {e : Fault} :
    s.push x = .error e ↔ s.room = 0 ∧ e = .stackOverflow (s.depth + 1) s.limit := by
  unfold push
  cases s.room <;> simp [eq_comm]

end Stack

def State.advance (s : State) (f : Frame) : State :=
  { s with calls := s.calls.replaceTop f.advance }

/-- The frame `f`, on top of the frames `below`, is about to execute instruction `i` of the
function `r`. -/
structure Executes (p : Program) (s : State) (f : Frame) (below : List Frame) (r : Routine)
    (i : Instruction) : Prop where
  top : s.calls.items = f :: below
  found : p.routine f.routine = .ok r
  fetched : r.body[f.pointer]? = some i

theorem Executes.unique {p : Program} {s : State} {f f' : Frame} {below below' : List Frame}
    {r r' : Routine} {i i' : Instruction} (a : Executes p s f below r i)
    (b : Executes p s f' below' r' i') : f' = f ∧ below' = below ∧ r' = r ∧ i' = i := by
  obtain ⟨rfl, rfl⟩ := List.cons.inj (b.top.symm.trans a.top)
  obtain rfl := Except.ok.inj (b.found.symm.trans a.found)
  exact ⟨rfl, rfl, rfl, Option.some.inj (b.fetched.symm.trans a.fetched)⟩

theorem Executes.attempt_handler {p : Program} {s : State} {f : Frame} {below : List Frame}
    {r : Routine} {i : Instruction} (executes : Executes p s f below r i) {m : Machine}
    {handler : Handler} (known : m.handler? i.opcode = some handler) :
    m.attempt p s = match handler p i (s.advance f) with
      | .ok () t => (.ok true, { t with dispatched := t.dispatched + 1 })
      | .error e t => (.error ⟨e, some ⟨r.name, f.pointer, i.opcode⟩⟩, t) := by
  simp only [Machine.attempt, Machine.step, Stack.top?, executes.top, List.head?_cons,
    executes.found, executes.fetched, Machine.dispatch, known]
  rw [← State.advance]
  cases handler p i (s.advance f) <;> rfl

/-- Executing an instruction is carrying out what the plan of its opcode decides. -/
theorem Executes.attempt_eq {p : Program} {s : State} {f : Frame} {below : List Frame} {r : Routine}
    {i : Instruction} (executes : Executes p s f below r i) {depth : Nat} {handler : Handler}
    {plan : Plan} (known : (Machine.standard depth).handler? i.opcode = some handler)
    (follows : Follows handler plan) :
    (Machine.standard depth).attempt p s = match plan p i f.advance s.heap with
      | .error e => (.error ⟨e, some ⟨r.name, f.pointer, i.opcode⟩⟩, s.advance f)
      | .ok d => match d.perform p i f.advance (s.advance f) with
        | .ok _ t => (.ok true, { t with dispatched := t.dispatched + 1 })
        | .error e t => (.error ⟨e, some ⟨r.name, f.pointer, i.opcode⟩⟩, t) := by
  have heap : (s.advance f).heap = s.heap := rfl
  rw [executes.attempt_handler known, follows p i (s.advance f) f.advance below
    (Stack.items_replaceTop executes.top f.advance), heap]
  cases plan p i f.advance s.heap with
  | error e => rfl
  | ok d =>
    simp only
    cases d.perform p i f.advance (s.advance f) <;> rfl

inductive Outcome (p : Program) (s : State) : Except Failure Bool → State → Prop where
  | halted (empty : s.calls.items = []) : Outcome p s (.ok false) s
  | astray {f below e} (top : s.calls.items = f :: below) (absent : p.routine f.routine = .error e) :
      Outcome p s (.error ⟨e, none⟩) s
  | pastEnd {f below r} (top : s.calls.items = f :: below) (found : p.routine f.routine = .ok r)
      (ended : r.body.length ≤ f.pointer) :
      Outcome p s (.error ⟨.pastEnd r.name f.pointer r.body.length, none⟩) s
  | unknown {f below r i} (executes : Executes p s f below r i) :
      Outcome p s (.error ⟨.unknownOpcode i.opcode, some ⟨r.name, f.pointer, i.opcode⟩⟩)
        (s.advance f)
  | refused {f below r i e} (executes : Executes p s f below r i)
      (reason : Refusal p i f.advance s.heap e) :
      Outcome p s (.error ⟨e, some ⟨r.name, f.pointer, i.opcode⟩⟩) (s.advance f)
  | done {f below r i t} {d : Deed} (executes : Executes p s f below r i)
      (fits : d.Fits p i f.advance s.heap)
      (performed : d.perform p i f.advance (s.advance f) = .ok () t) :
      Outcome p s (.ok true) { t with dispatched := t.dispatched + 1 }
  | broken {f below r i e t} {d : Deed} (executes : Executes p s f below r i)
      (fits : d.Fits p i f.advance s.heap)
      (performed : d.perform p i f.advance (s.advance f) = .error e t) :
      Outcome p s (.error ⟨e, some ⟨r.name, f.pointer, i.opcode⟩⟩) t

theorem attempt_outcome (depth : Nat) (p : Program) (s : State) :
    Outcome p s ((Machine.standard depth).attempt p s).1
      ((Machine.standard depth).attempt p s).2 := by
  cases top : s.calls.items with
  | nil =>
    simp only [Machine.attempt, Machine.step, Stack.top?, top, List.head?_nil]
    exact .halted top
  | cons f below =>
    cases found : p.routine f.routine with
    | error e =>
      simp only [Machine.attempt, Machine.step, Stack.top?, top, List.head?_cons, found]
      exact .astray top found
    | ok r =>
      cases fetched : r.body[f.pointer]? with
      | none =>
        simp only [Machine.attempt, Machine.step, Stack.top?, top, List.head?_cons, found, fetched]
        exact .pastEnd top found (List.getElem?_eq_none_iff.mp fetched)
      | some i =>
        have executes : Executes p s f below r i := ⟨top, found, fetched⟩
        cases known : (Machine.standard depth).handler? i.opcode with
        | none =>
          simp only [Machine.attempt, Machine.step, Stack.top?, top, List.head?_cons, found,
            fetched, Machine.dispatch, known]
          exact .unknown executes
        | some handler =>
          obtain ⟨plan, follows, sound⟩ := handler?_planned known
          have decision := sound p i f.advance s.heap rfl
          rw [executes.attempt_eq known follows]
          cases decided : plan p i f.advance s.heap with
          | error e =>
            rw [decided] at decision
            exact .refused executes decision
          | ok d =>
            rw [decided] at decision
            simp only
            cases performed : d.perform p i f.advance (s.advance f) with
            | ok u t => exact .done executes decision performed
            | error e t => exact .broken executes decision performed

end RegisterMachine
