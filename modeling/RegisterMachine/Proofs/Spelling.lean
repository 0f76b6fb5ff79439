import RegisterMachine.Proofs.Aftermath
import RegisterMachine.Proofs.Coroutines
import RegisterMachine.Proofs.Outline

/-!
One instruction under several names. The returns have a short spelling, and a yield hands its value
to the frame below as a return does; what is left of the frame that yields rests where it came from,
if it came from anywhere, and that is the only trace it leaves. So a program may be respelled
without anyone noticing, but for the opcodes that the faults name.
-/

namespace RegisterMachine

def Fault.spell (opcode : String) : Fault → Fault
  | unknownOpcode _ => unknownOpcode opcode
  | kindMismatch _ register expected found => kindMismatch opcode register expected found
  | payloadMismatch _ expected found => payloadMismatch opcode expected found
  | missingOperand _ position => missingOperand opcode position
  | missingOutput _ => missingOutput opcode
  | undeliverable _ obstacle => undeliverable opcode obstacle
  | divisionByZero _ => divisionByZero opcode
  | e => e

def Location.spell (opcode : String) (l : Location) : Location := { l with opcode }

def Failure.spell (opcode : String) (e : Failure) : Failure :=
  ⟨e.fault.spell opcode, e.location.map (·.spell opcode)⟩

def Machine.spell (opcode : String) (x : Except Failure Bool × State) :
    Except Failure Bool × State := (x.1.mapError (·.spell opcode), x.2)

def Machine.Ending.spell (opcode : String) : Ending → Ending
  | failed e => failed (e.spell opcode)
  | ending => ending

def Machine.Report.spell (opcode : String) (report : Report) : Report :=
  { report with ending := report.ending.spell opcode }

def Effect.spell (opcode : String) :
    EStateM.Result Fault State Unit → EStateM.Result Fault State Unit
  | .ok u t => .ok u t
  | .error e t => .error (e.spell opcode) t

section Names

variable {o o' : String} {p : Program} {f : Frame} {i j : Instruction}
  {x y : Except Failure Bool × State}

@[simp] theorem Fault.spell_spell (o o' : String) (e : Fault) :
    (e.spell o').spell o = e.spell o := by
  cases e <;> rfl

@[simp] theorem Failure.spell_spell (o o' : String) (e : Failure) :
    (e.spell o').spell o = e.spell o := by
  obtain ⟨fault, location⟩ := e
  cases location <;> simp [spell, Location.spell]

@[simp] theorem Machine.spell_ok (o : String) (res : Bool) (t : State) :
    spell o (.ok res, t) = (.ok res, t) := rfl

@[simp] theorem Machine.spell_error (o : String) (e : Failure) (t : State) :
    spell o (.error e, t) = (.error (e.spell o), t) := rfl

@[simp] theorem Machine.spell_spell (o o' : String) (x : Except Failure Bool × State) :
    spell o (spell o' x) = spell o x := by
  obtain ⟨res, t⟩ := x
  cases res <;> simp

theorem Machine.spell_finish (o : String) (l : Location) (x : EStateM.Result Fault State Unit) :
    spell o (finish l x) = finish (l.spell o) (Effect.spell o x) := by
  cases x <;> rfl

theorem Machine.spell_eq_ok {res : Bool} {t : State} (same : spell o x = spell o y)
    (done : y = (.ok res, t)) : x = (.ok res, t) := by
  subst done
  obtain ⟨res', t'⟩ := x
  cases res' <;> simp_all

theorem Machine.spell_eq_error {e : Failure} {t : State} (same : spell o x = spell o y)
    (failed : y = (.error e, t)) : ∃ e', x = (.error e', t) ∧ e'.spell o = e.spell o := by
  subst failed
  obtain ⟨res', t'⟩ := x
  cases res' <;> simp_all

theorem Frame.operand_spell (inputs : j.inputs = i.inputs) (f : Frame) (k : Nat) :
    f.operand j k = (f.operand i k).mapError (·.spell j.opcode) := by
  unfold operand Instruction.input
  rw [inputs]
  cases i.inputs[k]? with
  | none => rfl
  | some q =>
    simp only [ok_bind, get]
    cases f.registers[q]? <;> rfl

theorem Frame.receive_spell (f : Frame) (p : Program) (o o' : String) (v : Value) :
    (f.receive p o' v).mapError (·.spell o) = f.receive p o v := by
  unfold receive
  cases f.callSite? p with
  | none => rfl
  | some site =>
    cases output : site.output with
    | none => simp only [output]; rfl
    | some r =>
      simp only [output]
      split <;> rfl

theorem Effect.deliver_spell (p : Program) (o o' : String) (v : Value) (s : State) :
    spell o (deliver p o' v s) = deliver p o v s := by
  rw [deliver_run, deliver_run]
  cases s.calls.items with
  | nil => rfl
  | cons g rest =>
    simp only [← g.receive_spell p o o' v]
    cases g.receive p o' v <;> rfl

theorem Machine.finish_deliver (l : Location) (p : Program) (o : String) (v : Value) (s : State)
    (h : Heap) : finish l (Effect.deliver p o v { s with heap := h }) =
      ((finish l (Effect.deliver p o v s)).1,
        { (finish l (Effect.deliver p o v s)).2 with heap := h }) := by
  rw [Effect.deliver_run, Effect.deliver_run]
  cases s.calls.items with
  | nil => rfl
  | cons g rest =>
    simp only
    cases g.receive p o v <;> rfl

end Names

namespace Opcodes

def givers : List String := valueReturns ++ ["co-yield"]

def short (opcode : String) : String :=
  if opcode = "fn-return" then "fn-ret"
  else if opcode = "fn-return-value" then "fn-ret-val"
  else opcode

end Opcodes

/-- What the frame leaves to the coroutines when it goes by such an opcode. -/
def Heap.left (h : Heap) (f : Frame) (opcode : String) : Heap :=
  if opcode = "co-yield" then h.rest f else h

/-- The states are equal except for the frame that rests in one coroutine, if it is one. -/
structure State.SameBut (home : Option CoroutineId) (s t : State) : Prop where
  calls : t.calls = s.calls
  arrays : t.heap.arrays = s.heap.arrays
  objects : t.heap.objects = s.heap.objects
  handles : t.heap.nextCoroutine = s.heap.nextCoroutine
  names : ∀ id, (t.heap.coroutine id).name = (s.heap.coroutine id).name
  coroutines : ∀ id, home ≠ some id → t.heap.coroutine id = s.heap.coroutine id
  sink : t.sink = s.sink
  dispatched : t.dispatched = s.dispatched

section Giving

variable {p : Program} {s : State} {f : Frame} {below : List Frame} {r : Routine}
  {i j j' : Instruction} {depth : Nat}

theorem Heap.coroutine_rest (h : Heap) (f : Frame) (id : CoroutineId) :
    (h.rest f).coroutine id = if f.home = some id ∧ id < h.nextCoroutine then
      { h.coroutine id with parked := some { f with home := none } } else h.coroutine id := by
  unfold rest
  cases f.home with
  | none => simp
  | some home =>
    simp only [park, coroutine, Array.getElem?_modify, nextCoroutine, Option.some.injEq]
    by_cases same : home = id
    · subst same
      by_cases inside : home < h.coroutines.size <;> simp [inside]
    · simp [same]

theorem Heap.left_sameBut (h : Heap) (f : Frame) (o o' : String) (s : State) :
    State.SameBut f.home { s with heap := h.left f o } { s with heap := h.left f o' } := by
  have kept (o : String) : (h.left f o).arrays = h.arrays ∧ (h.left f o).objects = h.objects ∧
      (h.left f o).nextCoroutine = h.nextCoroutine ∧
      (∀ id, ((h.left f o).coroutine id).name = (h.coroutine id).name) ∧
      ∀ id, f.home ≠ some id → (h.left f o).coroutine id = h.coroutine id := by
    unfold left
    split
    · refine ⟨?_, ?_, h.nextCoroutine_rest f, fun id => ?_, fun id other => ?_⟩
      · unfold rest
        cases f.home <;> rfl
      · unfold rest
        cases f.home <;> rfl
      · rw [coroutine_rest]
        split <;> rfl
      · rw [coroutine_rest, if_neg fun both => other both.1]
    · exact ⟨rfl, rfl, rfl, fun _ => rfl, fun _ _ => rfl⟩
  obtain ⟨arrays, objects, handles, names, others⟩ := kept o
  obtain ⟨arrays', objects', handles', names', others'⟩ := kept o'
  exact ⟨rfl, arrays'.trans arrays.symm, objects'.trans objects.symm, handles'.trans handles.symm,
    fun id => (names' id).trans (names id).symm,
    fun id other => (others' id other).trans (others id other).symm, rfl, rfl⟩

theorem Machine.instead_gives (top : s.calls.items = f :: below)
    (gives : j.opcode ∈ Opcodes.givers) :
    (standard depth).instead p s f r j = match f.operand j 0 with
      | .error e => (.error ⟨e, some ⟨r.name, f.pointer, j.opcode⟩⟩, s.advance f)
      | .ok v => finish ⟨r.name, f.pointer, j.opcode⟩ (Effect.deliver p j.opcode v
          { s with calls := s.calls.pop, heap := s.heap.left f.advance j.opcode }) := by
  have popped : (s.advance f).calls.pop = s.calls.pop := Stack.pop_replaceTop ..
  have read : f.advance.operand j 0 = f.operand j 0 := rfl
  obtain returns | yields := List.mem_append.mp gives
  · have other : j.opcode ≠ "co-yield" := fun same => by
      rw [same] at returns
      exact absurd returns (by decide)
    rw [instead_plan (handler?_leaveWith returns depth) follows_leaveWith top]
    simp only [Plan.leaveWith, read, Heap.left, if_neg other]
    cases f.operand j 0 with
    | error e => rfl
    | ok v =>
      simp only [ok_bind, pure, Except.pure, Deed.perform, popped]
      rfl
  · obtain same := List.mem_singleton.mp yields
    have known : (standard depth).handler? j.opcode = some Opcodes.yield := same ▸ rfl
    rw [instead_plan known follows_yield top]
    simp only [Plan.yield, read, Heap.left, if_pos same]
    cases f.operand j 0 with
    | error e => rfl
    | ok v =>
      simp only [ok_bind, pure, Except.pure, Deed.perform, popped]
      rfl

/-- Two instructions that give a value away differ in the name that a failure gives and in what is
left to the coroutines, and in nothing else. -/
theorem Machine.instead_givers (depth : Nat) (p : Program) (r : Routine)
    (top : s.calls.items = f :: below) (inputs : j'.inputs = j.inputs)
    (gives : j.opcode ∈ Opcodes.givers) (gives' : j'.opcode ∈ Opcodes.givers) :
    (∃ e, f.operand j 0 = .error e ∧ ((standard depth).instead p s f r j).2 = s.advance f ∧
        (standard depth).instead p s f r j' =
          spell j'.opcode ((standard depth).instead p s f r j)) ∨
      ∃ v res, ∃ t : State, f.operand j 0 = .ok v ∧ (standard depth).instead p s f r j =
          (res, { t with heap := s.heap.left f.advance j.opcode }) ∧
        (standard depth).instead p s f r j' =
          spell j'.opcode (res, { t with heap := s.heap.left f.advance j'.opcode }) := by
  rw [instead_gives top gives, instead_gives top gives', f.operand_spell inputs]
  cases read : f.operand j 0 with
  | error e => exact .inl ⟨e, rfl, rfl, rfl⟩
  | ok v =>
    let base : State := { s with calls := s.calls.pop }
    let ran := finish ⟨r.name, f.pointer, j.opcode⟩ (Effect.deliver p j.opcode v base)
    refine .inr ⟨v, ran.1, ran.2, rfl, finish_deliver _ p j.opcode v base _, ?_⟩
    refine (finish_deliver _ p j'.opcode v base _).trans ?_
    rw [← Effect.deliver_spell p j'.opcode j.opcode]
    simp only [ran]
    cases Effect.deliver p j.opcode v base <;> rfl

theorem State.SameBut.refl (home : Option CoroutineId) (s : State) : s.SameBut home s :=
  ⟨rfl, rfl, rfl, rfl, fun _ => rfl, fun _ _ => rfl, rfl, rfl⟩

theorem Heap.left_homeless (h : Heap) (homeless : f.home = none) (o : String) : h.left f o = h := by
  unfold left rest
  rw [homeless]
  exact ite_self h

theorem Heap.parked_left {id : CoroutineId} (owned : s.Owned) (top : s.calls.items = f :: below)
    (home : f.home = some id) (o : String) : ((s.heap.left f.advance o).coroutine id).parked =
      if o = "co-yield" then some { f.advance with home := none } else none := by
  have running : some id ∈ s.homes := by
    rw [State.homes, top, List.map_cons, home]
    exact List.mem_cons_self
  unfold left
  split
  · rw [parked_rest, if_pos ⟨home, owned.known id running⟩]
  · exact owned.parked_eq_none running

theorem Machine.Reachable.givers (reached : (standard depth).Reachable p s)
    (top : s.calls.items = f :: below) (inputs : j.inputs = i.inputs)
    (inputs' : j'.inputs = i.inputs) (gives : j.opcode ∈ Opcodes.givers)
    (gives' : j'.opcode ∈ Opcodes.givers) :
    let x := (standard depth).instead p s f r j
    let x' := (standard depth).instead p s f r j'
    x'.1 = x.1.mapError (·.spell j'.opcode) ∧ x.2.SameBut f.home x'.2 ∧
      (f.home = none → x'.2 = x.2) ∧
      ∀ id, f.home = some id → match f.operand i 0 with
        | .ok _ => (x.2.heap.coroutine id).parked =
            if j.opcode = "co-yield" then some { f.advance with home := none } else none
        | .error _ => x.2 = s.advance f ∧ x'.2 = s.advance f := by
  intro x x'
  have read := f.operand_spell inputs 0
  obtain ⟨e, unread, stays, same⟩ | ⟨v, res, t, given, same, same'⟩ :=
    instead_givers depth p r top (inputs'.trans inputs.symm) gives gives'
  · have state := congrArg Prod.snd same
    change x'.2 = x.2 at state
    refine ⟨congrArg Prod.fst same, state ▸ .refl _ _, fun _ => state, fun id home => ?_⟩
    rw [unread] at read
    cases operand : f.operand i 0 with
    | ok v => rw [operand] at read; cases read
    | error e' => exact ⟨stays, state.trans stays⟩
  · have state : x.2 = { t with heap := s.heap.left f.advance j.opcode } := congrArg Prod.snd same
    have state' : x'.2 = { t with heap := s.heap.left f.advance j'.opcode } :=
      congrArg Prod.snd same'
    have result : x.1 = res := congrArg Prod.fst same
    refine ⟨?_, ?_, fun homeless => ?_, fun id home => ?_⟩
    · rw [result]
      exact congrArg Prod.fst same'
    · rw [state, state']
      exact s.heap.left_sameBut f.advance j.opcode j'.opcode t
    · have nowhere : f.advance.home = none := homeless
      rw [state, state', Heap.left_homeless _ nowhere, Heap.left_homeless _ nowhere]
    · rw [given] at read
      cases operand : f.operand i 0 with
      | error e => rw [operand] at read; cases read
      | ok v => rw [state]; exact Heap.parked_left reached.owned top home j.opcode

end Giving

/-- Calls put frames without a home on the stack, and the resumption of a coroutine one with its
home; no frame there gets another. -/
def Machine.Homes (s : State) (f : Frame) (i : Instruction) (t : State) : Prop :=
  t.homes = s.homes ∨ s.homes = f.home :: t.homes ∨
    (i.opcode = "fn-call" ∨ i.opcode = "obj-invoke") ∧ t.homes = none :: s.homes ∨
    i.opcode = "co-invoke" ∧ ∃ id, t.homes = some id :: s.homes

section Homes

variable {p : Program} {s t : State} {f : Frame} {below : List Frame} {i : Instruction}
  {res : Except Failure Bool} {m : Machine}

theorem Move.homes (top : s.calls.items = f :: below) (move : Move p s f below i res t) :
    Machine.Homes s f i t := by
  have before : s.homes = f.home :: below.map Frame.home := by rw [State.homes, top, List.map_cons]
  have same {g : Frame} (frames : t.calls.items = g :: below) (home : g.home = f.home) :
      t.homes = s.homes := by rw [State.homes, frames, before, List.map_cons, home]
  cases move with
  | proceeds _ kept frames _ | creates _ _ _ _ kept frames _ => exact .inl (same frames kept.home)
  | fails frames _ _ | loses _ _ _ _ frames _ => exact .inl (same frames rfl)
  | leaves _ frames _ => exact .inr (.inl (by rw [before, State.homes, frames]))
  | hands _ _ delivery _ | rests _ _ delivery _ =>
    exact .inr (.inl (by rw [before, State.homes, delivery.homes]))
  | enters called _ _ entered frames _ =>
    obtain ⟨_, _, _, callee⟩ := Frame.enter_eq_ok_iff.mp entered
    refine .inr (.inr (.inl ⟨called.opcode_mem, ?_⟩))
    rw [before, State.homes, frames, callee]
    rfl
  | @resumes _ id _ opcode _ _ frames _ =>
    refine .inr (.inr (.inr ⟨opcode, id, ?_⟩))
    rw [before, State.homes, frames]
    rfl

theorem Machine.start_homes {sink : Sink} (started : m.start p sink = .ok s) :
    s.homes = [none] := by
  obtain ⟨id, f, entered, items, -⟩ := start_eq_ok started
  obtain ⟨_, _, _, rfl⟩ := Frame.enter_eq_ok_iff.mp entered
  rw [State.homes, items]
  rfl

end Homes

section Runs

variable {m m' : Machine} {p q : Program} {s : State} {n : Nat} {o : String}

theorem Machine.after_spell
    (same : ∀ k < n, spell o (m'.attempt q (m.after p s k)) =
      spell o (m.attempt p (m.after p s k))) :
    m'.after q s n = m.after p s n := by
  induction n with
  | zero => rfl
  | succ n ih =>
    rw [after, after, ih fun k within => same k (by omega)]
    exact (Prod.mk.inj (same n (by omega))).2

theorem Machine.runFor_spell
    (same : ∀ k < n, spell o (m'.attempt q (m.after p s k)) =
      spell o (m.attempt p (m.after p s k))) :
    Prod.map (Ending.spell o) id (m'.runFor q n s) =
      Prod.map (Ending.spell o) id (m.runFor p n s) := by
  induction n generalizing s with
  | zero => rfl
  | succ n ih =>
    have first := same 0 (by omega)
    rw [after] at first
    rw [runFor_succ, runFor_succ]
    cases ran : m.attempt p s with
    | mk res t =>
      cases res with
      | ok more =>
        rw [spell_eq_ok first ran]
        cases more with
        | true =>
          refine ih fun k within => ?_
          have later := same (k + 1) (by omega)
          rwa [after_succ, ran] at later
        | false => rfl
      | error e =>
        obtain ⟨e', ran', named⟩ := spell_eq_error first ran
        rw [ran']
        exact congrArg (fun e => (Ending.failed e, t)) named

end Runs

section Respelling

variable {p : Program} {chosen : RoutineId → Nat → Bool} {s t : State} {f : Frame}
  {below : List Frame} {r : Routine} {i : Instruction} {depth : Nat}

def Instruction.shorten (i : Instruction) : Instruction :=
  { i with opcode := Opcodes.short i.opcode }

def Routine.respell (chosen : Nat → Bool) (r : Routine) : Routine :=
  { r with body := r.body.mapIdx fun index i => if chosen index then i.shorten else i }

def Program.respell (chosen : RoutineId → Nat → Bool) (p : Program) : Program :=
  { p with routines := p.routines.mapIdx fun id => Routine.respell (chosen id) }

theorem Routine.outline_respell (chosen : Nat → Bool) (r : Routine) :
    (r.respell chosen).outline = r.outline := by
  refine outline_eq fun k => ?_
  rw [List.getElem?_mapIdx]
  cases r.body[k]? with
  | none => rfl
  | some i => cases chosen k <;> rfl

theorem Program.outline_respell (chosen : RoutineId → Nat → Bool) (p : Program) :
    (p.respell chosen).outline = p.outline := by
  refine outline_eq fun id => ?_
  rw [List.getElem?_mapIdx]
  cases p.routines[id]? with
  | none => rfl
  | some r => exact congrArg some (r.outline_respell (chosen id))

theorem Program.routine_respell {id : RoutineId} (found : p.routine id = .ok r) :
    (p.respell chosen).routine id = .ok (r.respell (chosen id)) := by
  rw [routine_eq_ok_iff] at found ⊢
  simp only [respell, List.getElem?_mapIdx, found, Option.map_some]

theorem Executes.respell (executes : Executes p s f below r i)
    (chosen : RoutineId → Nat → Bool) : Executes (p.respell chosen) s f below
      (r.respell (chosen f.routine)) (if chosen f.routine f.pointer then i.shorten else i) := by
  refine ⟨executes.top, Program.routine_respell executes.found, ?_⟩
  simp only [Routine.respell, List.getElem?_mapIdx, executes.fetched, Option.map_some]

theorem Machine.instead_shorten (top : s.calls.items = f :: below) (o : String) :
    spell o ((standard depth).instead p s f r i.shorten) =
      spell o ((standard depth).instead p s f r i) := by
  by_cases plain : i.opcode = "fn-return"
  · have short : i.shorten.opcode = "fn-ret" := by
      rw [Instruction.shorten, Opcodes.short, if_pos plain]
    have known : (standard depth).handler? i.opcode = some Opcodes.leave := plain ▸ rfl
    have known' : (standard depth).handler? i.shorten.opcode = some Opcodes.leave := short ▸ rfl
    rw [instead_handler known, instead_handler known', spell_finish, spell_finish]
    rfl
  by_cases valued : i.opcode = "fn-return-value"
  · have short : i.shorten.opcode = "fn-ret-val" := by
      rw [Instruction.shorten, Opcodes.short, if_neg plain, if_pos valued]
    have gives : i.opcode ∈ Opcodes.givers := by rw [valued]; decide
    have gives' : i.shorten.opcode ∈ Opcodes.givers := by rw [short]; decide
    have inputs : i.shorten.inputs = i.inputs := rfl
    obtain ⟨e, -, -, same⟩ | ⟨v, res, t, -, same, same'⟩ :=
      instead_givers depth p r top inputs gives gives'
    · rw [same, spell_spell]
    · rw [same, same', spell_spell, short, valued]
      rfl
  · have same : i.shorten = i := by
      rw [Instruction.shorten, Opcodes.short, if_neg plain, if_neg valued]
    rw [same]

theorem Machine.attempt_respell (depth : Nat) (p : Program) (chosen : RoutineId → Nat → Bool)
    (s : State) (o : String) : spell o ((standard depth).attempt (p.respell chosen) s) =
      spell o ((standard depth).attempt p s) := by
  have outline := p.outline_respell chosen
  by_cases going : ∃ f below r i, Executes p s f below r i
  · obtain ⟨f, below, r, i, executes⟩ := going
    rw [executes.attempt_outline outline (executes.respell chosen), executes.attempt_instead]
    split
    · exact instead_shorten executes.top o
    · rfl
  · have idle : ∀ f below r i, ¬Executes p s f below r i := fun f below r i executes =>
      going ⟨f, below, r, i, executes⟩
    rw [attempt_outline_idle outline idle]

end Respelling

def Machine.Report.respell (chosen : RoutineId → Nat → Bool) (report : Report) : Report :=
  { report with program := report.program.respell chosen }

section Preparing

open Opcodes Preparation

variable (chosen : RoutineId → Nat → Bool)

def Preparation.respell (s : Preparation) : Preparation :=
  { s with program := s.program.respell chosen }

def Preparation.respelled :
    EStateM.Result Fault Preparation Unit → EStateM.Result Fault Preparation Unit
  | .ok u t => .ok u (t.respell chosen)
  | .error e t => .error e (t.respell chosen)

theorem Opcodes.collectLabels_mapIdx (routine : String) (seen : List (String × Nat)) (index : Nat)
    (body : List Instruction) (g : Nat → Instruction → Instruction)
    (same : ∀ k i, i.opcode = labelOpcode ∨ (g k i).opcode = labelOpcode → g k i = i) :
    collectLabels routine seen index (body.mapIdx g) = collectLabels routine seen index body := by
  induction body generalizing seen index g with
  | nil => rfl
  | cons i rest ih =>
    have others (seen : List (String × Nat)) (index : Nat) :=
      ih seen index (fun k => g (k + 1)) fun k => same (k + 1)
    rw [List.mapIdx_cons]
    by_cases label : i.opcode = labelOpcode
    · rw [same 0 i (.inl label)]
      simp only [collectLabels, others]
    · have label' : (g 0 i).opcode ≠ labelOpcode := fun label' =>
        label (same 0 i (.inr label') ▸ label')
      simp only [collectLabels, if_neg label, if_neg label', others]

theorem Opcodes.labelTable_respell (chosen : Nat → Bool) (r : Routine) :
    labelTable (r.respell chosen) = labelTable r := by
  refine collectLabels_mapIdx _ _ _ _ _ fun k i label => ?_
  split
  · next picked =>
    rw [picked, if_pos rfl] at label
    change i.opcode = labelOpcode ∨ short i.opcode = labelOpcode at label
    have plain : i.opcode ≠ "fn-return" := fun same => absurd (same ▸ label) (by decide)
    have valued : i.opcode ≠ "fn-return-value" := fun same => absurd (same ▸ label) (by decide)
    rw [Instruction.shorten, short, if_neg plain, if_neg valued]
  · rfl

theorem Preparation.consultAt_respell (id : RoutineId) (s : Preparation) :
    consultAt indexLabels id (s.respell chosen) =
      respelled chosen (consultAt indexLabels id s) := by
  have looked : (s.respell chosen).program.routines[id]? =
      (s.program.routines[id]?).map (·.respell (chosen id)) := List.getElem?_mapIdx
  rw [consultAt_run, consultAt_run, looked]
  cases s.program.routines[id]? with
  | none => rfl
  | some r =>
    have finding : indexLabels (r.respell (chosen id)) = indexLabels r := by
      rw [indexLabels, labelTable_respell, indexLabels]
    have notes : (r.respell (chosen id)).notes = r.notes := rfl
    simp only [Option.map_some, settle_run, finding, notes]
    cases attach r.notes (indexLabels r) with
    | error e => rfl
    | ok notes =>
      have moved : (s.program.respell chosen).routines.modify id (fun r => { r with notes }) =
          (s.program.routines.modify id fun r => { r with notes }).mapIdx
            fun id => Routine.respell (chosen id) := by
        refine List.ext_getElem? fun k => ?_
        simp only [Program.respell, List.getElem?_modify, List.getElem?_mapIdx]
        cases s.program.routines[k]? <;> split <;> rfl
      simp only [respelled, respell, moved]
      rfl

theorem Preparation.forM_respell (ids : List RoutineId) (s : Preparation) :
    ids.forM (consultAt indexLabels) (s.respell chosen) =
      respelled chosen (ids.forM (consultAt indexLabels) s) := by
  induction ids generalizing s with
  | nil => rfl
  | cons id rest ih =>
    simp only [List.forM_eq_forM, List.forM_cons, bind_run, consultAt_respell] at ih ⊢
    cases consultAt indexLabels id s with
    | error e t => rfl
    | ok u t => exact ih t

theorem Machine.prepare_respell (depth : Nat) (s : Preparation) :
    (standard depth).prepare (s.respell chosen) =
      Preparation.respelled chosen ((standard depth).prepare s) := by
  have count : (s.respell chosen).program.routines.length = s.program.routines.length :=
    List.length_mapIdx
  rw [prepare_standard, prepare_standard, count, Preparation.forM_respell]

theorem Machine.flushed_spell (o : String) (ending : Ending) (sink : Sink) :
    (flushed ending sink).spell o = flushed (ending.spell o) sink := by
  cases ending with
  | halted =>
    simp only [flushed, Sink.flush, Ending.spell]
    cases sink.flushes <;> rfl
  | failed e => rfl
  | unfinished => rfl

theorem Machine.execute_respell (depth : Nat) (p : Program) (sink : Sink) (n : Nat) (o : String) :
    Prod.map (Ending.spell o) id ((standard depth).execute (p.respell chosen) sink n) =
      Prod.map (Ending.spell o) id ((standard depth).execute p sink n) := by
  have begins := start_outline (standard depth) (p.outline_respell chosen) sink
  simp only [execute, begins]
  cases (standard depth).start p sink with
  | error e => rfl
  | ok s =>
    exact congrArg (fun x : Ending × State => (x.1, x.2.sink, x.2.dispatched))
      (runFor_spell fun k _ => attempt_respell depth p chosen _ o)

theorem Machine.run_respell (depth : Nat) (p : Program) (sink : Sink) (n : Nat) (o : String) :
    ((standard depth).run (p.respell chosen) sink n).spell o =
      (((standard depth).run p sink n).respell chosen).spell o := by
  have prepared : (standard depth).prepare.run { program := p.respell chosen } =
      Preparation.respelled chosen ((standard depth).prepare.run { program := p }) :=
    prepare_respell chosen depth { program := p }
  unfold run
  rw [prepared]
  cases (standard depth).prepare.run { program := p } with
  | error e t => rfl
  | ok u t =>
    have same := execute_respell chosen depth t.program sink n o
    simp only [Preparation.respelled, Preparation.respell, Report.spell, Report.respell,
      flushed_spell]
    generalize (standard depth).execute (t.program.respell chosen) sink n = x' at same
    generalize (standard depth).execute t.program sink n = x at same
    obtain ⟨ending, sink', count⟩ := x
    obtain ⟨ending', sink'', count'⟩ := x'
    obtain ⟨named, same⟩ := Prod.mk.inj same
    obtain ⟨rfl, rfl⟩ := Prod.mk.inj same
    simp only [named]

end Preparing

/-- Two instructions that give a value away come to the same, up to the opcode that a failure names
and to the coroutine that the frame goes back to. And a program runs in the same way whichever of
its returns are in their short spelling. -/
theorem Machine.spelling_unnoticed (depth : Nat) :
    (∀ p s, (standard depth).Reachable p s → ∀ f below r i, Executes p s f below r i →
      (standard depth).attempt p s = (standard depth).instead p s f r i ∧
      ∀ j j', j.inputs = i.inputs → j'.inputs = i.inputs → j.opcode ∈ Opcodes.givers →
        j'.opcode ∈ Opcodes.givers →
        let x := (standard depth).instead p s f r j
        let x' := (standard depth).instead p s f r j'
        x'.1 = x.1.mapError (·.spell j'.opcode) ∧ x.2.SameBut f.home x'.2 ∧
          (f.home = none → x'.2 = x.2) ∧
          ∀ id, f.home = some id → match f.operand i 0 with
            | .ok _ => (x.2.heap.coroutine id).parked =
                if j.opcode = "co-yield" then some { f.advance with home := none } else none
            | .error _ => x.2 = s.advance f ∧ x'.2 = s.advance f) ∧
    (∀ p, (∀ sink s, (standard depth).start p sink = .ok s → s.homes = [none]) ∧
      ∀ s f below r i, Executes p s f below r i →
        Homes s f i ((standard depth).attempt p s).2) ∧
    ∀ (p : Program) (chosen : RoutineId → Nat → Bool),
      (∀ sink, (standard depth).start (p.respell chosen) sink = (standard depth).start p sink) ∧
      (∀ s n, (standard depth).after (p.respell chosen) s n = (standard depth).after p s n ∧
        ∀ o, spell o ((standard depth).attempt (p.respell chosen) ((standard depth).after p s n)) =
            spell o ((standard depth).attempt p ((standard depth).after p s n)) ∧
          Prod.map (Ending.spell o) id ((standard depth).runFor (p.respell chosen) n s) =
            Prod.map (Ending.spell o) id ((standard depth).runFor p n s)) ∧
      ∀ sink n o, ((standard depth).run (p.respell chosen) sink n).spell o =
        (((standard depth).run p sink n).respell chosen).spell o := by
  refine ⟨fun p s reached f below r i executes => ⟨executes.attempt_instead _, ?_⟩,
    fun p => ⟨fun sink s => start_homes, fun s f below r i executes => ?_⟩, fun p chosen => ?_⟩
  · intro j j' inputs inputs' gives gives'
    exact reached.givers executes.top inputs inputs' gives gives'
  · exact (executes.move depth).homes executes.top
  · refine ⟨start_outline _ (p.outline_respell chosen), fun s n => ⟨?_, fun o => ⟨?_, ?_⟩⟩, ?_⟩
    · exact after_spell fun k _ => attempt_respell depth p chosen _ ""
    · exact attempt_respell depth p chosen _ o
    · exact runFor_spell fun k _ => attempt_respell depth p chosen _ o
    · exact run_respell chosen depth p

theorem State.yielding_respelled :
    let s := (Machine.standard 2).after .yielding yielding 3
    let f : Frame := ⟨1, "seven", #[.int 7], 1, none, some 0⟩
    let seven := Program.yielding.routines[1]
    let come (opcode : String) := (Machine.standard 2).instead .yielding s f seven
      { opcode, inputs := [0] }
    (Machine.standard 2).Reachable .yielding s ∧
      Executes .yielding s f s.calls.items.tail seven { opcode := "co-yield", inputs := [0] } ∧
      (come "fn-ret-val").2.calls = (come "co-yield").2.calls ∧
      ((come "co-yield").2.heap.coroutine 0).parked = some { f with pointer := 2, home := none } ∧
      ((come "fn-ret-val").2.heap.coroutine 0).parked = none := by
  intro s f seven come
  have reached := yielding_reachable 3
  have executes : Executes .yielding s f s.calls.items.tail seven
    { opcode := "co-yield", inputs := [0] } := ⟨rfl, rfl, rfl⟩
  obtain ⟨-, same⟩ := (Machine.spelling_unnoticed 2).1 _ _ reached _ _ _ _ executes
  obtain ⟨-, alike, -, rests⟩ := same { opcode := "co-yield", inputs := [0] }
    { opcode := "fn-ret-val", inputs := [0] } rfl rfl (by decide) (by decide)
  obtain ⟨-, -, -, leaves⟩ := same { opcode := "fn-ret-val", inputs := [0] }
    { opcode := "co-yield", inputs := [0] } rfl rfl (by decide) (by decide)
  exact ⟨reached, executes, alike.calls, rests 0 rfl, leaves 0 rfl⟩

end RegisterMachine
