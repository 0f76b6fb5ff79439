import RegisterMachine.Proofs.Activations

/-!
A call and its return, with everything that happens in between. Nowhere is it kept where a value is
to go: the frame that takes it looks at the instruction before its own pointer. That this is the
call it made rests on the frames below the executing one, which no step touches as long as they are
covered; the induction is on the steps between the call and the return.
-/

namespace RegisterMachine

theorem exists_cons_of_suffix {α : Type} {rest frames : List α} (covered : rest <:+ frames)
    (deep : rest.length < frames.length) : ∃ x others, frames = x :: others ∧ rest <:+ others := by
  cases frames with
  | nil => simp at deep
  | cons x others =>
    obtain rfl | below := List.suffix_cons_iff.mp covered
    · omega
    · exact ⟨x, others, rfl, below⟩

/-- The frames `rest` are on the stack, with at least one frame above them. -/
def State.Covers (s : State) (rest : List Frame) : Prop :=
  ∃ g others, s.calls.items = g :: others ∧ rest <:+ others

section Steps

variable {p : Program} {s t : State} {f g : Frame} {below others rest : List Frame} {r : Routine}
  {i : Instruction}

theorem Move.covers (move : Move p s g others i (.ok true) t) (covered : rest <:+ others)
    (deep : rest.length < t.calls.depth) : t.Covers rest := by
  cases move with
  | proceeds _ _ frames _ | creates _ _ _ _ _ frames _ => exact ⟨_, _, frames, covered⟩
  | enters _ _ _ _ frames _ | resumes _ _ _ frames _ =>
    exact ⟨_, _, frames, covered.trans (List.suffix_cons _ _)⟩
  | leaves _ frames _ =>
    rw [Stack.depth, frames] at deep
    obtain ⟨x, more, split, below⟩ := exists_cons_of_suffix covered deep
    exact ⟨x, more, frames.trans split, below⟩
  | hands _ _ delivery _ | rests _ _ delivery _ =>
    rw [Stack.depth] at deep
    generalize frames : t.calls.items = frames at delivery deep
    cases delivery with
    | @received x x' more received =>
      obtain ⟨y, ys, split, below⟩ := exists_cons_of_suffix covered deep
      obtain ⟨-, rfl⟩ := List.cons.inj split
      exact ⟨x', more, frames, below⟩

theorem Move.uncovers (move : Move p s g others i (.ok true) t) (covered : rest <:+ others)
    (level : t.calls.depth = rest.length) :
    i.opcode ∈ Opcodes.plainReturns ∧ t.calls.items = rest ∨
      i.opcode ∈ Opcodes.valueReturns ++ ["co-yield"] ∧
        ∃ v x x' more, g.operand i 0 = .ok v ∧ rest = x :: more ∧
          x.receive p i.opcode v = .ok x' ∧ t.calls.items = x' :: more := by
  have short : rest.length ≤ others.length := covered.length_le
  rw [Stack.depth] at level
  cases move with
  | proceeds _ _ frames _ | creates _ _ _ _ _ frames _ | enters _ _ _ _ frames _
  | resumes _ _ _ frames _ =>
    rw [frames] at level
    simp only [List.length_cons] at level
    omega
  | leaves opcode frames _ =>
    rw [frames] at level
    exact .inl ⟨opcode, frames.trans (covered.eq_of_length level.symm).symm⟩
  | hands opcode read delivery _ =>
    generalize t.calls.items = frames at delivery level ⊢
    cases delivery with
    | received received =>
      exact .inr ⟨List.mem_append_left _ opcode, _, _, _, _, read,
        covered.eq_of_length level.symm, received, rfl⟩
  | rests opcode read delivery _ =>
    generalize t.calls.items = frames at delivery level ⊢
    cases delivery with
    | received received =>
      exact .inr ⟨List.mem_append_right _ (List.mem_singleton.mpr opcode), _, _, _, _, read,
        covered.eq_of_length level.symm, received, rfl⟩

theorem Move.called (move : Move p s f below i (.ok true) t) (call : i.opcode ∈ Opcodes.calls) :
    ∃ callee, t.calls.items = callee :: f.advance :: below ∧ (i.opcode ≠ "co-invoke" →
      ∃ name args id, Calls i f s.heap name ∧ p.find name = .ok id ∧
        i.inputs.mapM f.get = .ok args ∧ Frame.enter p id args = .ok callee) := by
  have apart : ∀ opcode ∈ Opcodes.plainReturns ++ Opcodes.valueReturns ++ ["co-yield", "co-create"],
      opcode ∉ Opcodes.calls := by decide
  simp only [List.mem_append] at apart
  cases move with
  | proceeds quiet _ _ _ =>
    refine absurd ?_ quiet
    simp only [Opcodes.transfers, List.mem_append]
    exact .inl (.inl (.inl call))
  | creates opcode | rests opcode => exact absurd call (apart _ (.inr (by simp [opcode])))
  | leaves opcode => exact absurd call (apart _ (.inl (.inl opcode)))
  | hands opcode => exact absurd call (apart _ (.inl (.inr opcode)))
  | enters called read found entered frames _ =>
    exact ⟨_, frames, fun _ => ⟨_, _, _, called, found, read, entered⟩⟩
  | resumes opcode _ _ frames _ => exact ⟨_, frames, fun other => absurd opcode other⟩

theorem Frame.enter_registers {id : RoutineId} {args : List Value} {callee : Frame}
    (read : i.inputs.mapM f.get = .ok args) (entered : Frame.enter p id args = .ok callee) :
    (∀ (k : Nat) (q : Register), i.inputs[k]? = some q →
        ∃ v, f.registers[q]? = some v ∧ callee.registers[k]? = some v) ∧
      ∀ (k : Nat) (v : Value), i.inputs.length ≤ k → callee.registers[k]? = some v → v = .unset := by
  have values := mapM_get_eq_ok read
  obtain ⟨r, -, fits, rfl⟩ := enter_eq_ok_iff.mp entered
  have long : args.length = i.inputs.length := by
    simpa using (congrArg List.length values).symm
  refine ⟨fun k q input => ?_, fun k v beyond held => ?_⟩
  · have value := congrArg (fun l => l[k]?) values
    simp only [List.getElem?_map, input, Option.map_some] at value
    cases given : args[k]? with
    | none => simp [given] at value
    | some v =>
      simp only [given, Option.map_some, Option.some.injEq] at value
      refine ⟨v, value, ?_⟩
      have inside : k < args.length := (List.getElem?_eq_some_iff.mp given).1
      simp [List.getElem?_append_left inside, given]
  · simp only [List.getElem?_toArray] at held
    rw [List.getElem?_append_right (long ▸ beyond)] at held
    exact (List.mem_replicate.mp (List.mem_of_getElem? held)).2

variable {depth n : Nat}

theorem Machine.move_of_success (success : ((standard depth).attempt p s).1 = .ok true) :
    ∃ g others r j, Executes p s g others r j ∧
      Move p s g others j (.ok true) ((standard depth).attempt p s).2 := by
  have outcome := attempt_outcome depth p s
  rw [success] at outcome
  obtain ⟨g, others, r, j, executes⟩ | ⟨-, stuck⟩ := outcome.executes_or_stays
  · exact ⟨g, others, r, j, executes, outcome.move executes⟩
  · exact absurd rfl stuck

theorem Executes.receive_eq_ok {opcode : String} {v : Value} (executes : Executes p s f below r i)
    (received : f.advance.receive p opcode v = .ok g) :
    ∃ (out : Register) (inside : out < f.registers.size), i.output = some out ∧
      g = { f.advance with registers := f.registers.set out v inside, returned := some v } := by
  obtain ⟨site, out, found, output, inside, rfl⟩ := Frame.receive_eq_ok received
  have waits := Frame.callSite?_advance executes.found executes.fetched
  have same : i = site := Option.some.inj (waits.symm.trans found)
  have written : f.registers.setIfInBounds out v = f.registers.set out v inside := by
    simp [Array.setIfInBounds, show out < f.registers.size from inside]
  refine ⟨out, inside, same ▸ output, ?_⟩
  simp only [Frame.put, Frame.advance, written]

/-- From a call until the depth at the call is reached again, the frame that called and those below
it stay covered. -/
theorem Machine.after_covers (executes : Executes p s f below r i)
    (call : i.opcode ∈ Opcodes.calls)
    (succeeds : ∀ k ≤ n, ((standard depth).attempt p ((standard depth).after p s k)).1 = .ok true)
    (deeper : ∀ k, 1 ≤ k → k ≤ n → s.calls.depth < ((standard depth).after p s k).calls.depth)
    (k : Nat) (within : k < n) :
    ((standard depth).after p s (k + 1)).Covers (f.advance :: below) := by
  have level : s.calls.depth = (f.advance :: below).length := by rw [Stack.depth, executes.top]; rfl
  induction k with
  | zero =>
    have success := succeeds 0 (by omega)
    obtain ⟨g, others, r', j, other, move⟩ := move_of_success success
    obtain ⟨rfl, rfl, rfl, rfl⟩ := executes.unique other
    obtain ⟨callee, frames, -⟩ := move.called call
    exact ⟨callee, _, frames, List.suffix_rfl⟩
  | succ k ih =>
    have earlier : k < n := by omega
    have success := succeeds (k + 1) (by omega)
    have deep := deeper (k + 2) (by omega) (by omega)
    rw [level] at deep
    obtain ⟨x, more, frames, covered⟩ := ih earlier
    obtain ⟨g, others, r', j, next, move⟩ := move_of_success success
    obtain ⟨rfl, rfl⟩ := List.cons.inj (frames.symm.trans next.top)
    exact move.covers covered deep

/-- A call that succeeds, from any state, and every successful way back to the depth before it. The
frames that wait do not change until the last step, a return or a yield, which hands its value, if
it has one, to the output register of the call. -/
theorem Machine.call_return (executes : Executes p s f below r i)
    (call : i.opcode ∈ Opcodes.calls)
    (succeeds : ∀ k ≤ n, ((standard depth).attempt p ((standard depth).after p s k)).1 = .ok true)
    (deeper : ∀ k, 1 ≤ k → k ≤ n → s.calls.depth < ((standard depth).after p s k).calls.depth)
    (back : ((standard depth).after p s (n + 1)).calls.depth = s.calls.depth) :
    (i.opcode ≠ "co-invoke" → ∃ callee,
      ((standard depth).after p s 1).calls.items = callee :: f.advance :: below ∧
        callee.pointer = 0 ∧
        (∀ (k : Nat) (q : Register), i.inputs[k]? = some q →
          ∃ v, f.registers[q]? = some v ∧ callee.registers[k]? = some v) ∧
        ∀ (k : Nat) (v : Value), i.inputs.length ≤ k → callee.registers[k]? = some v →
          v = .unset) ∧
      (∀ k, 1 ≤ k → k ≤ n →
        ∃ above, ((standard depth).after p s k).calls.items = above ++ f.advance :: below) ∧
      ∃ g others r' j, Executes p ((standard depth).after p s n) g others r' j ∧
        (j.opcode ∈ Opcodes.plainReturns ∧
            ((standard depth).after p s (n + 1)).calls.items = f.advance :: below ∨
          j.opcode ∈ Opcodes.valueReturns ++ ["co-yield"] ∧
            ∃ (v : Value) (out : Register) (inside : out < f.registers.size),
              g.operand j 0 = .ok v ∧ i.output = some out ∧
                ((standard depth).after p s (n + 1)).calls.items =
                  { f.advance with
                    registers := f.registers.set out v inside
                    returned := some v } :: below) := by
  have level : s.calls.depth = (f.advance :: below).length := by rw [Stack.depth, executes.top]; rfl
  have covers := after_covers executes call succeeds deeper
  have success := succeeds 0 (by omega)
  obtain ⟨_, _, _, _, first, move⟩ := move_of_success success
  obtain ⟨rfl, rfl, rfl, rfl⟩ := first.unique executes
  obtain ⟨callee, frames, entered⟩ := move.called call
  refine ⟨fun function => ?_, fun k begun within => ?_, ?_⟩
  · obtain ⟨name, args, id, -, -, read, entered⟩ := entered function
    refine ⟨callee, frames, ?_, Frame.enter_registers read entered⟩
    obtain ⟨_, _, _, rfl⟩ := Frame.enter_eq_ok_iff.mp entered
    rfl
  · obtain ⟨k, rfl⟩ := Nat.exists_eq_add_of_le' begun
    obtain ⟨x, more, frames, above, rfl⟩ := covers k within
    exact ⟨x :: above, frames⟩
  · -- the call itself does not come back, so there is a last step after it
    cases n with
    | zero =>
      have deeper : ((standard depth).after p s 1).calls.depth = below.length + 2 := by
        rw [Stack.depth, show ((standard depth).after p s 1).calls.items = _ from frames]
        rfl
      rw [deeper, level, List.length_cons] at back
      omega
    | succ n =>
      have success := succeeds (n + 1) (by omega)
      obtain ⟨x, more, frames, covered⟩ := covers n (by omega)
      obtain ⟨g, others, r', j, last, move⟩ := move_of_success success
      obtain ⟨rfl, rfl⟩ := List.cons.inj (frames.symm.trans last.top)
      refine ⟨x, more, r', j, last, ?_⟩
      obtain plain | ⟨gives, v, y, y', rest, read, split, received, frames⟩ :=
        move.uncovers covered (back.trans level)
      · exact .inl plain
      · obtain ⟨rfl, rfl⟩ := List.cons.inj split
        obtain ⟨out, inside, output, rfl⟩ := executes.receive_eq_ok received
        exact .inr ⟨gives, v, out, inside, read, output, frames⟩

end Steps

theorem State.yielding_resumed :
    let f : Frame := {
      routine := 0, name := "main", registers := #[.coroutine 0, .unset, .unset], pointer := 1 }
    let s := (Machine.standard 2).after .yielding ((Machine.standard 2).after .yielding yielding 1)
    (s 0).calls.items = [f] ∧
      (∀ k, 1 ≤ k → k ≤ 2 → ∃ above, (s k).calls.items = above ++ [f.advance]) ∧
      (s 3).calls.items = [{ f.advance with
        registers := #[.coroutine 0, .int 7, .unset], returned := some (.int 7) }] := by
  intro f s
  have executes : Executes .yielding (s 0) f [] Program.yielding.routines[0]
      { opcode := "co-invoke", inputs := [0], output := some 1 } := ⟨rfl, rfl, rfl⟩
  have succeeds : ∀ k ≤ 2, ((Machine.standard 2).attempt .yielding (s k)).1 = .ok true := by
    intro k within
    match k, within with
    | 0, _ | 1, _ | 2, _ => rfl
  have deeper : ∀ k, 1 ≤ k → k ≤ 2 → (s 0).calls.depth < (s k).calls.depth := by
    intro k begun within
    match k, begun, within with
    | 1, _, _ | 2, _, _ => decide +kernel
  obtain ⟨-, covered, -⟩ :=
    Machine.call_return executes (by decide +kernel) succeeds deeper (by decide +kernel)
  exact ⟨rfl, covered, rfl⟩

end RegisterMachine
