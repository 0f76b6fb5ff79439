import RegisterMachine.Proofs.SideBySide

/-!
What an instruction can tell of the program that it belongs to. Another function shows by its name,
its notes and the number of its registers, another instruction by its output register; so no handler
can tell programs apart that have instructions over the same registers in the same places. It makes
a difference only what instruction is executed, and a step of the one program is a step of the other
with another instruction.
-/

namespace RegisterMachine

/-- The registers of an instruction, without what it does to them. -/
def Instruction.outline (i : Instruction) : Instruction :=
  { i with opcode := "", payload := .none }

def Routine.outline (r : Routine) : Routine := { r with body := r.body.map Instruction.outline }

def Program.outline (p : Program) : Program :=
  { p with routines := p.routines.map Routine.outline }

section Outlines

variable {p q : Program} {r : Routine} {i j : Instruction} {id : RoutineId} {index : Nat}

@[simp] theorem Routine.registerCount_outline (r : Routine) :
    r.outline.registerCount = r.registerCount := by
  have same : (r.body.map Instruction.outline).flatMap Instruction.registers =
      r.body.flatMap Instruction.registers := List.flatMap_map ..
  simp only [registerCount, outline, same]

@[simp] theorem Program.find_outline (p : Program) (name : String) :
    p.outline.find name = p.find name := by
  simp [find, outline, List.findIdx?_map, Function.comp_def, Routine.outline]

@[simp] theorem Program.routine_outline (p : Program) (id : RoutineId) :
    p.outline.routine id = (p.routine id).map Routine.outline := by
  simp only [routine, outline, List.getElem?_map, List.length_map]
  cases p.routines[id]? <;> rfl

theorem Routine.name_of_outline {r' : Routine} (same : r'.outline = r.outline) : r'.name = r.name :=
  (Routine.mk.inj same).1

theorem Routine.length_of_outline {r' : Routine} (same : r'.outline = r.outline) :
    r'.body.length = r.body.length := by
  simpa using congrArg List.length (Routine.mk.inj same).2.1

theorem Routine.outline_eq {body : List Instruction}
    (same : ∀ k : Nat, body[k]?.map Instruction.outline = r.body[k]?.map Instruction.outline) :
    outline { r with body } = r.outline := by
  have bodies : body.map Instruction.outline = r.body.map Instruction.outline := by
    refine List.ext_getElem? fun k => ?_
    rw [List.getElem?_map, List.getElem?_map, same k]
  simp only [outline, bodies]

theorem Program.outline_eq {routines : List Routine}
    (same : ∀ id : Nat, routines[id]?.map Routine.outline = p.routines[id]?.map Routine.outline) :
    outline { p with routines } = p.outline := by
  have tables : routines.map Routine.outline = p.routines.map Routine.outline := by
    refine List.ext_getElem? fun id => ?_
    rw [List.getElem?_map, List.getElem?_map, same id]
  simp only [outline, tables]

theorem Program.routine_of_outline (same : q.outline = p.outline) (found : p.routine id = .ok r) :
    ∃ r', q.routine id = .ok r' ∧ r'.outline = r.outline := by
  have both := q.routine_outline id
  rw [same, routine_outline, found] at both
  cases found' : q.routine id with
  | error e => simp [found', Except.map] at both
  | ok r' => exact ⟨r', rfl, (Except.ok.inj (both.trans (congrArg _ found'))).symm⟩

theorem Program.routine_error_of_outline {e : Fault} (same : q.outline = p.outline)
    (absent : p.routine id = .error e) : q.routine id = .error e := by
  have both := q.routine_outline id
  rw [same, routine_outline, absent] at both
  cases absent' : q.routine id with
  | error e' => exact congrArg _ (Except.error.inj (both.trans (congrArg _ absent'))).symm
  | ok r' => simp [absent', Except.map] at both

@[simp] theorem Program.fetch?_outline (p : Program) (id : RoutineId) (index : Nat) :
    p.outline.fetch? id index = (p.fetch? id index).map Instruction.outline := by
  simp only [fetch?, outline, List.getElem?_map]
  cases p.routines[id]? with
  | none => rfl
  | some r => exact List.getElem?_map

@[simp] theorem Frame.enter_outline (p : Program) (id : RoutineId) (args : List Value) :
    enter p.outline id args = enter p id args := by
  simp only [enter, Program.routine_outline]
  cases p.routine id with
  | error e => rfl
  | ok r =>
    simp only [Except.map, ok_bind, Routine.registerCount_outline]
    rfl

theorem Frame.callSite?_outline (p : Program) (f : Frame) :
    f.callSite? p.outline = (f.callSite? p).map Instruction.outline := by
  simp only [callSite?, Program.fetch?_outline]
  split <;> rfl

theorem Frame.receive_outline (p : Program) (f : Frame) : f.receive p.outline = f.receive p := by
  funext opcode v
  simp only [receive, callSite?_outline]
  generalize f.callSite? p = site
  cases site <;> rfl

theorem Effect.call_outline (p : Program) : call p.outline = call p := by
  funext name args
  simp only [call, Program.find_outline, Frame.enter_outline]

theorem Effect.deliver_outline (p : Program) : deliver p.outline = deliver p := by
  funext opcode v s
  simp only [deliver_run, Frame.receive_outline]

end Outlines

section Handlers

open Opcodes

variable {α : Type}

/-- The handler does the same whatever the instructions of the program do to their registers. -/
def Outlined (handler : Handler) : Prop := ∀ p : Program, handler p.outline = handler p

theorem callFunction_outlined : Outlined callFunction := fun p => by
  funext i
  simp only [callFunction, Effect.call_outline]

theorem callMethod_outlined : Outlined callMethod := fun p => by
  funext i
  simp only [callMethod, Effect.call_outline]

theorem createCoroutine_outlined : Outlined createCoroutine := fun p => by
  funext i
  simp only [createCoroutine, Program.find_outline, Frame.enter_outline]

theorem jump_outlined : Outlined jump := fun p => by
  funext i
  refine bind_congr fun label => bind_congr fun f => ?_
  rw [Program.routine_outline]
  cases p.routine f.routine <;> rfl

theorem jumpIf_outlined : Outlined jumpIf := fun p => by
  funext i
  simp only [jumpIf, jump_outlined p]

theorem leaveWith_outlined : Outlined leaveWith := fun p => by
  funext i
  simp only [leaveWith, Effect.deliver_outline]

theorem yield_outlined : Outlined yield := fun p => by
  funext i
  simp only [yield, Effect.deliver_outline]

theorem outlined_of_map {handlers : List (String × Handler)}
    (same : ∀ p : Program, (handlers.map fun e => e.2 p.outline) = handlers.map fun e => e.2 p) :
    ∀ e ∈ handlers, Outlined e.2 :=
  fun e member p => List.map_inj_left.mp (same p) e member

theorem functions_outlined : ∀ e ∈ Extension.functions.handlers, Outlined e.2 := by
  simp only [Extension.functions, List.forall_mem_cons]
  exact ⟨callFunction_outlined, fun _ => rfl, leaveWith_outlined, fun _ => rfl, leaveWith_outlined,
    by simp⟩

theorem jumps_outlined : ∀ e ∈ Extension.jumps.handlers, Outlined e.2 := by
  simp only [Extension.jumps, List.forall_mem_cons]
  exact ⟨jump_outlined, jumpIf_outlined, fun _ => rfl, by simp⟩

theorem objects_outlined : ∀ e ∈ Extension.objects.handlers, Outlined e.2 := by
  simp only [Extension.objects, List.forall_mem_cons]
  exact ⟨fun _ => rfl, fun _ => rfl, fun _ => rfl, callMethod_outlined, by simp⟩

theorem coroutines_outlined : ∀ e ∈ Extension.coroutines.handlers, Outlined e.2 := by
  simp only [Extension.coroutines, List.forall_mem_cons]
  exact ⟨createCoroutine_outlined, fun _ => rfl, yield_outlined, fun _ => rfl, by simp⟩

theorem standard_outlined : ∀ x ∈ Extension.standard, ∀ e ∈ x.handlers, Outlined e.2 := by
  simp only [Extension.standard, List.forall_mem_cons]
  exact ⟨outlined_of_map fun _ => rfl, outlined_of_map fun _ => rfl, outlined_of_map fun _ => rfl,
    outlined_of_map fun _ => rfl, outlined_of_map fun _ => rfl, outlined_of_map fun _ => rfl,
    outlined_of_map fun _ => rfl, functions_outlined, jumps_outlined, objects_outlined,
    outlined_of_map fun _ => rfl, coroutines_outlined, outlined_of_map fun _ => rfl,
    outlined_of_map fun _ => rfl, by simp⟩

theorem handler?_outlined {depth : Nat} {opcode : String} {handler : Handler}
    (found : (Machine.standard depth).handler? opcode = some handler) : Outlined handler :=
  handler?_mem standard_outlined found

end Handlers

/-- What the step comes to if the executing frame, at its place in the function `r`, finds the
instruction `j` there. -/
def Machine.instead (m : Machine) (p : Program) (s : State) (f : Frame) (r : Routine)
    (j : Instruction) : Except Failure Bool × State :=
  match m.dispatch p ⟨r.name, f.pointer, j.opcode⟩ j (s.advance f) with
  | .ok more t => (.ok more, t)
  | .error e t => (.error e, t)

section Steps

variable {p q : Program} {s : State} {f : Frame} {below : List Frame} {r r' : Routine}
  {i j : Instruction} {depth : Nat}

theorem Machine.instead_handler {m : Machine} {handler : Handler}
    (known : m.handler? j.opcode = some handler) : m.instead p s f r j =
      finish ⟨r.name, f.pointer, j.opcode⟩ (handler p j (s.advance f)) := by
  simp only [instead, dispatch, known]
  cases handler p j (s.advance f) <;> rfl

theorem Executes.attempt_instead (executes : Executes p s f below r i) (m : Machine) :
    m.attempt p s = m.instead p s f r i := by
  simp only [Machine.attempt, Machine.step, Stack.top?, executes.top, List.head?_cons,
    executes.found, executes.fetched]
  rfl

theorem Machine.instead_plan {handler : Handler} {plan : Plan}
    (known : (standard depth).handler? j.opcode = some handler) (follows : Follows handler plan)
    (top : s.calls.items = f :: below) : (standard depth).instead p s f r j =
      finish ⟨r.name, f.pointer, j.opcode⟩ (match plan p j f.advance s.heap with
        | .ok d => d.perform p j f.advance (s.advance f)
        | .error e => .error e (s.advance f)) := by
  rw [instead_handler known, follows p j _ _ _ (Stack.items_replaceTop top f.advance)]
  rfl

theorem Executes.outline (executes : Executes p s f below r i) (same : q.outline = p.outline) :
    ∃ r' j, Executes q s f below r' j ∧ r'.name = r.name ∧ j.outline = i.outline := by
  obtain ⟨r', found, outline⟩ := Program.routine_of_outline same executes.found
  have fetched : r'.outline.body[f.pointer]? = some i.outline := by
    rw [outline, Routine.outline, List.getElem?_map, executes.fetched]
    rfl
  rw [Routine.outline, List.getElem?_map, Option.map_eq_some_iff] at fetched
  obtain ⟨j, fetched, same⟩ := fetched
  exact ⟨r', j, ⟨executes.top, found, fetched⟩, Routine.name_of_outline outline, same⟩

theorem Machine.instead_outline (same : q.outline = p.outline) (name : r'.name = r.name) :
    (standard depth).instead q s f r' j = (standard depth).instead p s f r j := by
  cases known : (standard depth).handler? j.opcode with
  | none => simp only [instead, dispatch, known, name]
  | some handler =>
    have outlined := handler?_outlined known
    rw [instead_handler known, instead_handler known, ← outlined q, same, outlined p, name]

theorem Executes.attempt_outline (executes : Executes p s f below r i)
    (same : q.outline = p.outline) (other : Executes q s f below r' j) :
    (Machine.standard depth).attempt q s = (Machine.standard depth).instead p s f r j := by
  obtain ⟨r'', j', executes', name, -⟩ := executes.outline same
  obtain ⟨-, -, rfl, rfl⟩ := other.unique executes'
  rw [other.attempt_instead, Machine.instead_outline same name]

theorem Machine.attempt_outline_idle (same : q.outline = p.outline)
    (idle : ∀ f below r i, ¬Executes p s f below r i) :
    (standard depth).attempt q s = (standard depth).attempt p s := by
  cases top : s.calls.items with
  | nil => simp only [attempt, step, Stack.top?, top, List.head?_nil]
  | cons f below =>
    rw [attempt_top _ top, attempt_top _ top]
    cases found : p.routine f.routine with
    | error e => rw [Program.routine_error_of_outline same found]
    | ok r =>
      obtain ⟨r', found', outline⟩ := Program.routine_of_outline same found
      have past : r.body.length ≤ f.pointer := Nat.not_lt.mp fun inside =>
        idle f below r r.body[f.pointer] ⟨top, found, List.getElem?_eq_getElem inside⟩
      have length := Routine.length_of_outline outline
      rw [found']
      simp only [List.getElem?_eq_none past, List.getElem?_eq_none (length ▸ past), length,
        Routine.name_of_outline outline]

theorem Machine.start_outline (m : Machine) (same : q.outline = p.outline) (sink : Sink) :
    m.start q sink = m.start p sink := by
  unfold start
  rw [← Program.find_outline q, ← Program.find_outline p, same]
  refine bind_congr fun id => ?_
  rw [← Frame.enter_outline q, ← Frame.enter_outline p, same]

end Steps

end RegisterMachine
