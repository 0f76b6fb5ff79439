import RegisterMachine.Proofs.Memory
import RegisterMachine.Proofs.Output

/-!
What an instruction may touch. Its opcode says by how much the stack grows, which of the frames can
be another afterwards and in what, and whether arrays, objects, coroutines or the output can be.
All the rest is as it was; the program and the machine are no part of the state.
-/

namespace RegisterMachine

/-- What an instruction that succeeds does to the stack: its frame stays on top, puts another on
top, leaves, or leaves a value to the frame below. -/
inductive Passage where
  | stays
  | enters
  | leaves
  | hands
deriving DecidableEq, Repr

def Passage.depth : Passage → Int
  | stays => 0
  | enters => 1
  | leaves | hands => -1

namespace Opcodes

def passage (opcode : String) : Passage :=
  if opcode ∈ calls then .enters
  else if opcode ∈ plainReturns then .leaves
  else if opcode ∈ transfers then .hands
  else .stays

variable {opcode : String}

theorem passage_of_quiet (quiet : opcode ∉ transfers) : passage opcode = .stays := by
  simp only [transfers, List.mem_append, not_or] at quiet
  obtain ⟨⟨⟨call, plain⟩, value⟩, yields⟩ := quiet
  simp [passage, transfers, call, plain, value, yields]

theorem passage_of_call (call : opcode ∈ calls) : passage opcode = .enters := if_pos call

theorem passage_of_plain (plain : opcode ∈ plainReturns) : passage opcode = .leaves := by
  revert opcode
  decide +kernel

theorem passage_of_value (value : opcode ∈ valueReturns) : passage opcode = .hands := by
  revert opcode
  decide +kernel

end Opcodes

/-- The instruction sends its frame to a label: a conditional jump does so on a true operand. -/
def Instruction.Jumps (i : Instruction) (f : Frame) : Prop :=
  i.opcode = "jump-to" ∨ i.opcode = "jump-if" ∧ f.operand i 0 = .ok (.bool true)

def Passage.Frames (p : Program) (f : Frame) (below : List Frame) (i : Instruction)
    (frames : List Frame) : Passage → Prop
  | stays => ∃ g, frames = g :: below ∧ f.Continues p i g ∧
      (g.pointer = f.pointer + 1 ∨ i.Jumps f)
  | enters => ∃ callee, frames = callee :: f.advance :: below
  | leaves => frames = below
  | hands => ∃ g rest site q v, below = g :: rest ∧ g.callSite? p = some site ∧
      site.output = some q ∧ f.operand i 0 = .ok v ∧
      frames = { g.put q v with returned := some v } :: rest

/-- What an instruction that succeeds may touch: it takes the state `s` to `t`. -/
structure State.Footprint (p : Program) (s : State) (f : Frame) (below : List Frame) (r : Routine)
    (i : Instruction) (t : State) : Prop where
  depth : (t.calls.depth : Int) = s.calls.depth + (Opcodes.passage i.opcode).depth
  limit : t.calls.limit = s.calls.limit
  frames : (Opcodes.passage i.opcode).Frames p f below i t.calls.items
  jumps : i.Jumps f → ∃ l index, i.name = .ok l ∧ Opcodes.target r l = .ok index ∧
    t = { s with
      calls := s.calls.replaceTop { f with pointer := index }
      dispatched := s.dispatched + 1 }
  label : i.opcode = "jump-label" → t = { s.advance f with dispatched := s.dispatched + 1 }
  arrays : (∀ id < s.heap.nextArray, t.heap.elements id = s.heap.elements id) ∨
    i.opcode = "arr-set" ∧ ∃ id place v, f.operandAs .array i 0 = .ok id ∧
      f.operand i 2 = .ok v ∧ t.heap = s.heap.setElement id place v
  objects : (∀ id < s.heap.nextObject, t.heap.object id = s.heap.object id) ∨
    i.opcode = "obj-set" ∧ ∃ id place v, f.operandAs .object i 0 = .ok id ∧
      f.operand i 1 = .ok v ∧ t.heap = s.heap.setCell id place v
  coroutines : i.opcode ≠ "co-invoke" → i.opcode ≠ "co-yield" →
    ∀ id < s.heap.nextCoroutine, t.heap.coroutine id = s.heap.coroutine id
  sink : i.opcode ≠ "debug-print" → t.sink = s.sink
  dispatched : t.dispatched = s.dispatched + 1

section Steps

variable {p : Program} {s t : State} {f : Frame} {below : List Frame} {r : Routine}
  {i : Instruction} {depth : Nat}

theorem Frame.operandAs_bool_iff {k : Nat} {b : Bool} :
    f.operandAs .bool i k = .ok b ↔ f.operand i k = .ok (.bool b) := by
  rw [operandAs_eq_ok_iff]
  constructor
  · rintro ⟨v, held, same⟩
    cases v <;> simp only [Representation.bool, Option.some.injEq, reduceCtorEq] at same
    rwa [← same]
  · exact fun held => ⟨_, held, rfl⟩

theorem Executes.attempt_passing (executes : Executes p s f below r i)
    (passes : i.opcode = "jump-label" ∨
      i.opcode = "jump-if" ∧ f.operand i 0 = .ok (.bool false)) (depth : Nat) :
    (Machine.standard depth).attempt p s =
      (.ok true, { s.advance f with dispatched := s.dispatched + 1 }) := by
  obtain opcode | ⟨opcode, untaken⟩ := passes
  · exact executes.attempt_change (c := .nothing) (opcode ▸ rfl) follows_label rfl
  · refine executes.attempt_change (c := .nothing) (opcode ▸ rfl) follows_jumpIf ?_
    have read : f.advance.operandAs .bool i 0 = .ok false := Frame.operandAs_bool_iff.mpr untaken
    simp only [Plan.jumpIf, read, ok_bind, Bool.false_eq_true, if_false]
    rfl

theorem Executes.attempt_jump (executes : Executes p s f below r i) (jumps : i.Jumps f)
    (depth : Nat) :
    (Machine.standard depth).attempt p s = match i.name >>= Opcodes.target r with
      | .ok index => (.ok true, { s with
          calls := s.calls.replaceTop { f with pointer := index }
          dispatched := s.dispatched + 1 })
      | .error e => (.error ⟨e, some ⟨r.name, f.pointer, i.opcode⟩⟩, s.advance f) := by
  obtain ⟨handler, plan, known, follows, decides⟩ : ∃ handler plan,
      (Machine.standard depth).handler? i.opcode = some handler ∧ Follows handler plan ∧
        plan p i f.advance s.heap = Plan.jump p i f.advance s.heap := by
    obtain opcode | ⟨opcode, taken⟩ := jumps
    · exact ⟨_, _, opcode ▸ rfl, follows_jump, rfl⟩
    · refine ⟨_, _, opcode ▸ rfl, follows_jumpIf, ?_⟩
      have read : f.advance.operandAs .bool i 0 = .ok true := Frame.operandAs_bool_iff.mpr taken
      simp only [Plan.jumpIf, read, ok_bind, if_true]
  have found : p.routine f.advance.routine = .ok r := executes.found
  cases named : i.name with
  | error e =>
    refine executes.attempt_refused known follows (decides.trans ?_)
    simp only [Plan.jump, named, error_bind]
  | ok l =>
    cases target : Opcodes.target r l with
    | error e =>
      simp only [ok_bind, target]
      refine executes.attempt_refused known follows (decides.trans ?_)
      simp only [Plan.jump, named, found, target, ok_bind, error_bind]
    | ok index =>
      simp only [ok_bind, target]
      refine executes.attempt_change (c := .jump index) known follows (decides.trans ?_)
      simp only [Plan.jump, named, found, target, ok_bind, pure, Except.pure]

theorem Executes.condition (executes : Executes p s f below r i) (opcode : i.opcode = "jump-if")
    (through : (Machine.standard depth).attempt p s = (.ok true, t)) :
    ∃ b, f.operand i 0 = .ok (.bool b) := by
  cases read : f.advance.operandAs .bool i 0 with
  | ok b => exact ⟨b, Frame.operandAs_bool_iff.mp read⟩
  | error e =>
    have refused : Plan.jumpIf p i f.advance s.heap = .error e := by
      simp only [Plan.jumpIf, read, error_bind]
    rw [executes.attempt_refused (opcode ▸ rfl) follows_jumpIf refused] at through
    cases through

theorem Delivery.received_eq {opcode : String} {v : Value} {frames frames' : List Frame}
    (delivery : Delivery p opcode v frames (.ok true) frames') :
    ∃ g rest site q, frames = g :: rest ∧ g.callSite? p = some site ∧ site.output = some q ∧
      frames' = { g.put q v with returned := some v } :: rest := by
  cases delivery with
  | received received =>
    obtain ⟨site, q, waits, output, -, rfl⟩ := Frame.receive_eq_ok received
    exact ⟨_, _, site, q, rfl, waits, output, rfl⟩

theorem Machine.Alters.arrays {m : Machine} {k : Heap} (alters : m.Alters p s k) :
    (∀ id < s.heap.nextArray, k.elements id = s.heap.elements id) ∨
      ∃ id place v, m.StoresElement p s id place v ∧ k = s.heap.setElement id place v := by
  cases alters with
  | nothing same => exact .inl fun id _ => by rw [same.elements]
  | array short =>
    exact .inl fun id present => by rw [Heap.elements_addArray, if_neg (Nat.ne_of_lt present)]
  | object | field => exact .inl fun _ _ => rfl
  | element stores inside => exact .inr ⟨_, _, _, stores, rfl⟩

theorem Machine.Alters.objects {m : Machine} {k : Heap} (alters : m.Alters p s k) :
    (∀ id < s.heap.nextObject, k.object id = s.heap.object id) ∨
      ∃ id name place v, m.StoresField p s id name v ∧ s.heap.fieldPlace id name = .ok place ∧
        k = s.heap.setCell id place v := by
  cases alters with
  | nothing same => exact .inl fun id _ => by rw [same.object]
  | object shape =>
    exact .inl fun id present => by rw [Heap.object_addObject, if_neg (Nat.ne_of_lt present)]
  | array | element => exact .inl fun _ _ => rfl
  | field stores placed => exact .inr ⟨_, _, _, _, stores, placed, rfl⟩

theorem Move.coroutines {res : Except Failure Bool} (move : Move p s f below i res t)
    (idle : i.opcode ≠ "co-invoke") (busy : i.opcode ≠ "co-yield") :
    ∀ id < s.heap.nextCoroutine, t.heap.coroutine id = s.heap.coroutine id := by
  intro id present
  cases move with
  | proceeds _ _ _ handles | fails _ handles _ | enters _ _ _ _ _ handles =>
    rw [Heap.coroutine, handles, Heap.coroutine]
  | creates _ _ _ _ _ _ handles =>
    have apart : id ≠ s.heap.coroutines.size := Nat.ne_of_lt present
    rw [Heap.coroutine, handles, Array.getElem?_push, if_neg apart, Heap.coroutine]
  | leaves _ _ handles | hands _ _ _ handles => rw [handles]
  | resumes opcode | loses opcode => exact absurd opcode idle
  | rests opcode => exact absurd opcode busy

theorem Deed.perform_dispatched {d : Deed} (performed : d.perform p i f s = .ok () t) :
    t.dispatched = s.dispatched := by
  have pushed {g : Frame} {u : State} (ran : Effect.push g u = .ok () t) :
      t.dispatched = u.dispatched := by
    rw [Effect.push_run] at ran
    split at ran <;> cases ran
    rfl
  have delivered {v : Value} {u : State} (ran : Effect.deliver p i.opcode v u = .ok () t) :
      t.dispatched = u.dispatched := by
    rw [Effect.deliver_run] at ran
    split at ran
    · cases ran
    · split at ran <;> cases ran
      rfl
  cases d with
  | change c => cases performed; rfl
  | print v =>
    simp only [perform, Effect.print_run] at performed
    split at performed <;> cases performed
    rfl
  | enter callee => exact pushed performed
  | resume id parked => exact pushed (u := { s with heap := s.heap.park id none }) performed
  | leave => cases performed; rfl
  | handBack v => exact delivered (u := { s with calls := s.calls.pop }) performed
  | yield v => exact delivered (u := { s with calls := s.calls.pop, heap := s.heap.rest f }) performed

theorem Passage.Frames.depth_eq {passage : Passage} (top : s.calls.items = f :: below)
    (frames : passage.Frames p f below i t.calls.items) :
    (t.calls.depth : Int) = s.calls.depth + passage.depth := by
  have before : s.calls.depth = below.length + 1 := by rw [Stack.depth, top, List.length_cons]
  rw [before, Stack.depth]
  cases passage with
  | stays =>
    obtain ⟨g, same, -⟩ := frames
    simp [same, depth]
  | enters =>
    obtain ⟨callee, same⟩ := frames
    simp [same, depth]
  | leaves =>
    rw [show t.calls.items = below from frames, depth]
    omega
  | hands =>
    obtain ⟨g, rest, site, q, v, rfl, -, -, -, same⟩ := frames
    rw [same, depth, List.length_cons, List.length_cons]
    omega

theorem Executes.frames (executes : Executes p s f below r i)
    (through : (Machine.standard depth).attempt p s = (.ok true, t)) :
    (Opcodes.passage i.opcode).Frames p f below i t.calls.items := by
  have move := executes.move depth
  rw [through] at move
  have stays {g : Frame} (quiet : i.opcode ∉ Opcodes.transfers)
      (frames : t.calls.items = g :: below) (kept : f.Continues p i g) :
      (Opcodes.passage i.opcode).Frames p f below i t.calls.items := by
    rw [Opcodes.passage_of_quiet quiet]
    refine ⟨g, frames, kept, ?_⟩
    -- A move does not tell whether a conditional jump was taken: its operand does.
    obtain straight | ⟨opcode | opcode, -⟩ := kept.pointer
    · exact .inl straight
    · exact .inr (.inl opcode)
    · obtain ⟨taken, read⟩ := executes.condition opcode through
      cases taken with
      | true => exact .inr (.inr ⟨opcode, read⟩)
      | false =>
        rw [executes.attempt_passing (.inr ⟨opcode, read⟩)] at through
        obtain ⟨-, rfl⟩ := Prod.mk.inj through
        obtain ⟨rfl, -⟩ := List.cons.inj ((Stack.items_replaceTop executes.top _).symm.trans frames)
        exact .inl rfl
  have hands {v : Value} (passage : Opcodes.passage i.opcode = .hands)
    (read : f.operand i 0 = .ok v)
      (delivery : Delivery p i.opcode v below (.ok true) t.calls.items) :
      (Opcodes.passage i.opcode).Frames p f below i t.calls.items := by
    obtain ⟨g, rest, site, q, rfl, waits, output, frames⟩ := delivery.received_eq
    rw [passage]
    exact ⟨g, rest, site, q, v, rfl, waits, output, read, frames⟩
  cases move with
  | proceeds quiet kept frames handles => exact stays quiet frames kept
  | creates opcode named found entered kept frames handles =>
    exact stays (opcode ▸ by decide) frames kept
  | enters called read found entered frames handles =>
    have call : i.opcode ∈ Opcodes.calls := by
      obtain same | same := called.opcode_mem <;> simp [same, Opcodes.calls]
    rw [Opcodes.passage_of_call call]
    exact ⟨_, frames⟩
  | resumes opcode named rested frames handles =>
    rw [Opcodes.passage_of_call (opcode ▸ by decide)]
    exact ⟨_, frames⟩
  | leaves opcode frames handles =>
    rw [Opcodes.passage_of_plain opcode]
    exact frames
  | hands opcode read delivery handles => exact hands (Opcodes.passage_of_value opcode) read delivery
  | rests opcode read delivery handles => exact hands (opcode ▸ by decide) read delivery

theorem Outcome.dispatched (outcome : Outcome p s (.ok true) t) :
    t.dispatched = s.dispatched + 1 := by
  cases outcome with
  | @done f _ _ _ _ _ executes fits performed =>
    exact congrArg (· + 1) (Deed.perform_dispatched (s := s.advance f) performed)

theorem Executes.footprint (executes : Executes p s f below r i)
    (through : (Machine.standard depth).attempt p s = (.ok true, t)) :
    s.Footprint p f below r i t := by
  have alters := Machine.attempt_alters depth p s
  have outcome := attempt_outcome depth p s
  have sink := Machine.attempt_sink depth p s
  have move := executes.move depth
  rw [through] at alters outcome sink move
  refine {
    depth := (executes.frames through).depth_eq executes.top
    limit := outcome.limit
    frames := executes.frames through
    jumps := fun jumps => ?_
    label := fun opcode => ?_
    arrays := ?_
    objects := ?_
    coroutines := move.coroutines
    sink := fun silent => ?_
    dispatched := outcome.dispatched }
  · rw [executes.attempt_jump jumps] at through
    cases named : i.name with
    | error e => simp [named] at through
    | ok l =>
      cases target : Opcodes.target r l with
      | error e => simp [named, target] at through
      | ok index =>
        simp only [named, target, ok_bind, Prod.mk.injEq, true_and] at through
        exact ⟨l, index, rfl, target, through.symm⟩
  · rw [executes.attempt_passing (.inl opcode)] at through
    exact (Prod.mk.inj through).2.symm
  · refine alters.arrays.imp_right ?_
    rintro ⟨id, place, v, ⟨f', below', r', i', index, other, opcode, array, -, -, value, -⟩, stored⟩
    obtain ⟨rfl, -, -, rfl⟩ := executes.unique other
    exact ⟨opcode, id, place, v, array, value, stored⟩
  · refine alters.objects.imp_right ?_
    rintro ⟨id, name, place, v, ⟨f', below', r', i', other, opcode, object, -, value, -⟩, -, stored⟩
    obtain ⟨rfl, -, -, rfl⟩ := executes.unique other
    exact ⟨opcode, id, place, v, object, value, stored⟩
  · have nothing : s.printing? p = none := by
      refine Option.eq_none_iff_forall_ne_some.mpr fun v prints => ?_
      obtain ⟨f', below', r', i', other, opcode, -⟩ := State.printing?_eq_some_iff.mp prints
      obtain ⟨-, -, -, rfl⟩ := executes.unique other
      exact silent opcode
    rw [sink, State.line_of_silent nothing, Sink.append_empty]

/-- A step that succeeds executes an instruction and touches no more than its opcode may, or there
is nothing left to execute and the state stays. -/
theorem Machine.step_footprint {more : Bool} (stepped : (standard depth).step p s = .ok more t) :
    if more then
      ∃ f below r i, Executes p s f below r i ∧ s.Footprint p f below r i t
    else t = s := by
  have through : (standard depth).attempt p s = (.ok more, t) := by rw [attempt, stepped]
  have outcome := attempt_outcome depth p s
  rw [through] at outcome
  cases outcome with
  | halted empty => rfl
  | done executes fits performed => exact ⟨_, _, _, _, executes, executes.footprint through⟩

theorem State.nesting_footprint :
    let run := (Machine.standard 1).after .nesting nesting
    (∃ f below r i, Executes .nesting (run 3) f below r i ∧
      (run 3).Footprint .nesting f below r i (run 4)) ∧
    (run 3).heap.arrays = #[#[.unset]] ∧ (run 4).heap.arrays = #[#[.array 0]] := by
  intro run
  have stepped : (Machine.standard 1).step .nesting (run 3) = .ok true (run 4) := rfl
  exact ⟨Machine.step_footprint stepped, by decide +kernel, by decide +kernel⟩

end Steps

end RegisterMachine
