import RegisterMachine.Proofs.Output

/-!
What a failed step leaves behind. An instruction that is refused has moved the pointer past itself
and done nothing else, and one that was never fetched has not even done that. Three kinds of failure
come after a first effect: a value that finds no place, once its frame has left the stack; a
coroutine that finds no room, once its frame has left the handle; and a line that does not fit.
-/

namespace RegisterMachine

theorem Stack.pop_replaceTop {α : Type} (s : Stack α) (x : α) : (s.replaceTop x).pop = s.pop := by
  obtain ⟨items, room⟩ := s
  cases items <;> rfl

namespace Frame

variable {p : Program} {f g : Frame}

/-- The frame has the name and the registers of its function, which the program has. -/
def Belongs (p : Program) (f : Frame) : Prop :=
  ∃ r, p.routine f.routine = .ok r ∧ f.name = r.name ∧ f.registers.size = r.registerCount

theorem Belongs.congr (belongs : f.Belongs p) (routine : g.routine = f.routine)
    (name : g.name = f.name) (size : g.registers.size = f.registers.size) : g.Belongs p := by
  obtain ⟨r, found, named, sized⟩ := belongs
  exact ⟨r, routine ▸ found, name.trans named, size.trans sized⟩

theorem enter_belongs {id : RoutineId} {args : List Value} (entered : enter p id args = .ok f) :
    f.Belongs p := by
  obtain ⟨r, active⟩ := enter_activates entered
  exact ⟨r, active.found, active.name, active.size⟩

theorem Belongs.activates {site : Instruction} (belongs : f.Belongs p)
    (waits : f.callSite? p = some site) : ∃ r, f.Activates p r := by
  obtain ⟨r, found, name, size⟩ := belongs
  obtain ⟨begun, fetched⟩ := callSite?_eq_some_iff.mp waits
  have present := Program.routine_eq_ok_iff.mp found
  simp only [Program.fetch?, present, Option.bind_some] at fetched
  have inside : f.pointer - 1 < r.body.length := (List.getElem?_eq_some_iff.mp fetched).1
  exact ⟨r, found, name, size, by omega⟩

theorem Belongs.receive_error {opcode : String} {v : Value} {e : Fault} (belongs : f.Belongs p)
    (declined : f.receive p opcode v = .error e) (rest : List Frame) :
    (∃ o, p.obstacle? (f :: rest) = some o ∧ e = .undeliverable opcode o) ∨
      ∃ site q, f.callSite? p = some site ∧ q ∈ site.registers ∧ f.Uncounted p ∧
        e = f.outOfRange q := by
  cases waits : f.callSite? p with
  | none =>
    simp only [receive, waits, Except.error.injEq] at declined
    exact .inl ⟨.noCallSite, by simp [Program.obstacle?, waits], declined.symm⟩
  | some site =>
    simp only [receive, waits] at declined
    cases output : site.output with
    | none =>
      simp only [output, Except.error.injEq] at declined
      exact .inl ⟨.noOutput, by simp [Program.obstacle?, waits, output], declined.symm⟩
    | some q =>
      have mentioned : q ∈ site.registers := by simp [Instruction.registers, output]
      obtain ⟨r, found, -, size⟩ := belongs
      obtain ⟨-, fetched⟩ := callSite?_eq_some_iff.mp waits
      have present := Program.routine_eq_ok_iff.mp found
      simp only [Program.fetch?, present, Option.bind_some] at fetched
      obtain inside | uncounted :=
        lt_or_uncounted found size (List.mem_of_getElem? fetched) mentioned
      · simp [output, inside] at declined
      · simp only [output, uncounted.1, Array.size_empty, Nat.not_lt_zero, if_false,
          Except.error.injEq] at declined
        exact .inr ⟨site, q, rfl, mentioned, uncounted, declined.symm⟩

end Frame

structure State.Belongs (p : Program) (s : State) : Prop where
  stack : ∀ f ∈ s.calls.items, f.Belongs p
  rested : s.heap.AtRest fun f => f.Belongs p

section Frames

variable {p : Program} {s t : State} {f : Frame} {below : List Frame} {r : Routine}
  {i : Instruction} {res : Except Failure Bool} {depth : Nat}

theorem Delivery.belongs {opcode : String} {v : Value} {frames frames' : List Frame}
    (delivery : Delivery p opcode v frames res frames') (all : ∀ f ∈ frames, f.Belongs p) :
    ∀ f ∈ frames', f.Belongs p := by
  cases delivery with
  | nobody | declined => exact all
  | received received =>
    obtain ⟨site, q, -, -, -, rfl⟩ := Frame.receive_eq_ok received
    obtain ⟨first, others⟩ := List.forall_mem_cons.mp all
    exact List.forall_mem_cons.mpr ⟨first.congr rfl rfl (Frame.put_size ..), others⟩

theorem Move.belongs (belongs : s.Belongs p) (executes : Executes p s f below r i)
    (move : Move p s f below i res t) : t.Belongs p := by
  obtain ⟨first, others⟩ := List.forall_mem_cons.mp (executes.top ▸ belongs.stack)
  have advanced : f.advance.Belongs p := first.congr rfl rfl rfl
  have put {frames : List Frame} {g : Frame} (same : t.calls.items = g :: frames)
      (top : g.Belongs p) (rest : ∀ f ∈ frames, f.Belongs p) : ∀ f ∈ t.calls.items, f.Belongs p :=
    same ▸ List.forall_mem_cons.mpr ⟨top, rest⟩
  refine ⟨?_, belongs.rested.move move (fun _ _ => Frame.enter_belongs) fun _ => ?_⟩
  · cases move with
    | proceeds _ kept frames _ | creates _ _ _ _ kept frames _ =>
      exact put frames (first.congr kept.routine kept.name kept.size) others
    | fails frames _ _ | loses _ _ _ _ frames _ => exact put frames advanced others
    | enters _ _ _ entered frames _ =>
      exact put frames (Frame.enter_belongs entered) (List.forall_mem_cons.mpr ⟨advanced, others⟩)
    | resumes _ _ rested frames _ =>
      have resumed := (belongs.rested _ _ rested).congr rfl rfl rfl
      exact put frames resumed (List.forall_mem_cons.mpr ⟨advanced, others⟩)
    | leaves _ frames _ => exact frames ▸ others
    | hands _ _ delivery _ | rests _ _ delivery _ => exact delivery.belongs others
  · exact advanced.congr rfl rfl rfl

theorem Machine.Reachable.belongs (reached : (standard depth).Reachable p s) : s.Belongs p := by
  refine reached.invariant (fun sink s started => ?_) fun _ _ _ _ _ _ _ belongs executes _ move =>
    move.belongs belongs executes
  obtain ⟨id, f, entered, frames, -, heap⟩ := start_eq_ok started
  constructor
  · rw [frames]
    exact List.forall_mem_singleton.mpr (Frame.enter_belongs entered)
  · rw [heap]
    exact fun id f rested => nomatch rested

theorem Frame.size_pos {q : Register} {v : Value} (held : f.registers[q]? = some v) :
    0 < f.registers.size :=
  Nat.zero_lt_of_lt (Array.getElem?_eq_some_iff.mp held).1

theorem Frame.size_pos_of_operand {k : Nat} {v : Value} (read : f.operand i k = .ok v) :
    0 < f.registers.size := by
  obtain ⟨q, -, held⟩ := bind_eq_ok_iff.mp read
  exact size_pos (get_eq_ok_iff.mp held)

theorem Executes.lt_or_uncounted (executes : Executes p s f below r i)
    (reached : (Machine.standard depth).Reachable p s) {q : Register}
    (mentioned : q ∈ i.registers) : q < f.registers.size ∨ f.Uncounted p := by
  obtain ⟨r', found, -, size⟩ := reached.belongs.stack f (executes.top ▸ List.mem_cons_self)
  obtain rfl := Except.ok.inj (found.symm.trans executes.found)
  exact Frame.lt_or_uncounted found size (List.mem_of_getElem? executes.fetched) mentioned

theorem Executes.register_lt (executes : Executes p s f below r i)
    (reached : (Machine.standard depth).Reachable p s) (counted : 0 < f.registers.size)
    {q : Register} (mentioned : q ∈ i.registers) : q < f.registers.size := by
  refine (executes.lt_or_uncounted reached mentioned).resolve_right ?_
  rintro ⟨none, -⟩
  simp [none] at counted

end Frames

/-- An instruction of that opcode meets such a fault before it has done anything. -/
def Fault.Early (opcode : String) : Fault → Prop
  | .pastEnd .. | .undeliverable .. | .outputFailed _ => False
  | .stackOverflow .. => opcode ≠ "co-invoke"
  | _ => True

section Failures

variable {p : Program} {s t : State} {f : Frame} {below : List Frame} {r : Routine}
  {i : Instruction} {e : Fault} {depth : Nat}

theorem Refusal.early {h : Heap} (reason : Refusal p i f h e) : e.Early i.opcode := by
  cases reason <;> trivial

theorem Effect.deliver_error_state {opcode : String} {v : Value}
    (ran : deliver p opcode v s = .error e t) (belong : ∀ g ∈ s.calls.items, g.Belongs p) :
    t = s ∧ ((∃ o, p.obstacle? s.calls.items = some o ∧ e = .undeliverable opcode o) ∨
      ∃ g site q, s.calls.items.head? = some g ∧ g.callSite? p = some site ∧ q ∈ site.registers ∧
        g.Uncounted p ∧ e = g.outOfRange q) := by
  rw [deliver_run] at ran
  cases items : s.calls.items with
  | nil =>
    simp only [items, EStateM.Result.error.injEq] at ran
    exact ⟨ran.2.symm, .inl ⟨.noFrame, rfl, ran.1.symm⟩⟩
  | cons g rest =>
    cases declined : g.receive p opcode v with
    | ok g' => simp [items, declined] at ran
    | error e' =>
      simp only [items, declined, EStateM.Result.error.injEq] at ran
      obtain ⟨rfl, rfl⟩ := ran
      refine ⟨rfl, ((belong g (items ▸ List.mem_cons_self)).receive_error declined rest).imp_right
        ?_⟩
      rintro ⟨site, q, told⟩
      exact ⟨g, site, q, rfl, told⟩

def State.cramped : State := { yielding with calls.room := 0 }

theorem State.cramped_reachable (n : Nat) : (Machine.standard 1).Reachable .yielding
    ((Machine.standard 1).after .yielding cramped n) := by
  have started : (Machine.standard 1).start .yielding {} = .ok cramped := rfl
  exact (Machine.Reachable.start started).after n

end Failures

end RegisterMachine
