import RegisterMachine.Proofs.Labels
import RegisterMachine.Proofs.Reachable

/-!
What every activation of a reachable state is like, on the stack or at rest in a coroutine. Two
populations exchange frames: a frame that yields leaves the stack with a yield behind it, and comes
back on top of whichever frame resumes it, which then has a call behind it.
-/

namespace RegisterMachine

namespace Frame

structure Activates (p : Program) (r : Routine) (f : Frame) : Prop where
  found : p.routine f.routine = .ok r
  name : f.name = r.name
  size : f.registers.size = r.registerCount
  pointer : f.pointer ≤ r.body.length

/-- The instruction just before the pointer put another frame on top of this one. -/
def Awaits (p : Program) (f : Frame) : Prop :=
  ∃ site, f.callSite? p = some site ∧ site.opcode ∈ Opcodes.calls

/-- The frame has not begun, or the instruction just before the pointer is a yield. -/
def Rests (p : Program) (f : Frame) : Prop :=
  f.pointer = 0 ∨ ∃ site, f.callSite? p = some site ∧ site.opcode = "co-yield"

/-- The frame has no registers, in a program that mentions the largest one. -/
def Uncounted (p : Program) (f : Frame) : Prop :=
  f.registers = #[] ∧ ∃ q ∈ p.registers, UInt64.size - 1 ≤ q

variable {p : Program} {f g : Frame} {r : Routine} {i : Instruction} {q : Register}

theorem callSite?_eq_some_iff : f.callSite? p = some i ↔
    1 ≤ f.pointer ∧ p.fetch? f.routine (f.pointer - 1) = some i := by
  unfold callSite?
  by_cases fresh : f.pointer = 0
  · simp [fresh]
  · simp [fresh, Nat.one_le_iff_ne_zero]

theorem lt_or_uncounted (found : p.routine f.routine = .ok r)
    (size : f.registers.size = r.registerCount) (listed : i ∈ r.body)
    (mentioned : q ∈ i.registers) :
    q < f.registers.size ∨ f.Uncounted p := by
  rw [size]
  refine (Routine.lt_registerCount_or (List.mem_flatMap.mpr ⟨i, listed, mentioned⟩)).imp_right ?_
  rintro ⟨none, largest, named, beyond⟩
  have member := List.mem_of_getElem? (Program.routine_eq_ok_iff.mp found)
  exact ⟨Array.eq_empty_of_size_eq_zero (size.trans none), largest,
    List.mem_flatMap.mpr ⟨r, member, named⟩, beyond⟩

theorem register_lt (numbered : ∀ q ∈ p.registers, q < UInt64.size - 1)
    (found : p.routine f.routine = .ok r) (size : f.registers.size = r.registerCount)
    (listed : i ∈ r.body) (mentioned : q ∈ i.registers) : q < f.registers.size := by
  refine (lt_or_uncounted found size listed mentioned).resolve_right ?_
  rintro ⟨-, largest, named, beyond⟩
  exact absurd (numbered largest named) (Nat.not_lt.mpr beyond)

theorem callSite?_advance (found : p.routine f.routine = .ok r)
    (fetched : r.body[f.pointer]? = some i) : f.advance.callSite? p = some i := by
  have present := Program.routine_eq_ok_iff.mp found
  simp [callSite?, advance, Program.fetch?, present, fetched]

theorem Activates.advance (active : f.Activates p r) (fetched : r.body[f.pointer]? = some i) :
    f.advance.Activates p r where
  found := active.found
  name := active.name
  size := active.size
  pointer := (List.getElem?_eq_some_iff.mp fetched).1

theorem Activates.congr (active : f.Activates p r) (routine : g.routine = f.routine)
    (name : g.name = f.name) (size : g.registers.size = f.registers.size)
    (pointer : g.pointer = f.pointer) : g.Activates p r where
  found := routine ▸ active.found
  name := name ▸ active.name
  size := size ▸ active.size
  pointer := pointer ▸ active.pointer

theorem Activates.continues (prepared : p.Prepared) (active : f.Activates p r)
    (fetched : r.body[f.pointer]? = some i) (kept : f.Continues p i g) : g.Activates p r where
  found := kept.routine ▸ active.found
  name := kept.name ▸ active.name
  size := kept.size ▸ active.size
  pointer := by
    obtain next | ⟨-, r', l, found, -, landed⟩ := kept.pointer
    · rw [next]
      exact (active.advance fetched).pointer
    · obtain rfl := Except.ok.inj (active.found.symm.trans found)
      have inside := ((prepared.target_eq_ok_iff found).mp landed).index_lt
      omega

theorem Activates.receive {opcode : String} {v : Value} (active : f.Activates p r)
    (received : f.receive p opcode v = .ok g) : g.Activates p r := by
  obtain ⟨site, q, -, -, -, rfl⟩ := receive_eq_ok received
  exact active.congr rfl rfl (put_size f q v) rfl

theorem enter_activates {id : RoutineId} {args : List Value} (entered : enter p id args = .ok f) :
    ∃ r, f.Activates p r := by
  obtain ⟨r, found, fits, rfl⟩ := enter_eq_ok_iff.mp entered
  exact ⟨r, found, rfl, by simp; omega, Nat.zero_le _⟩

end Frame

/-- Frames of which each but the uppermost waits for the one above it. -/
structure Program.Stacks (p : Program) (frames : List Frame) : Prop where
  active : ∀ f ∈ frames, ∃ r, f.Activates p r
  awaiting : ∀ f ∈ frames.tail, f.Awaits p

namespace Program.Stacks

variable {p : Program} {f g : Frame} {below : List Frame}

theorem pop (stack : p.Stacks (f :: below)) : p.Stacks below where
  active g member := stack.active g (List.mem_cons_of_mem f member)
  awaiting g member := stack.awaiting g (List.mem_of_mem_tail member)

theorem replace (stack : p.Stacks (f :: below)) (active : ∃ r, g.Activates p r) :
    p.Stacks (g :: below) where
  active := List.forall_mem_cons.mpr ⟨active, stack.pop.active⟩
  awaiting := stack.awaiting

theorem push (stack : p.Stacks (f :: below)) (awaits : f.Awaits p)
    (active : ∃ r, g.Activates p r) : p.Stacks (g :: f :: below) where
  active := List.forall_mem_cons.mpr ⟨active, stack.active⟩
  awaiting := List.forall_mem_cons.mpr ⟨awaits, stack.awaiting⟩

theorem deliver {opcode : String} {v : Value} {frames frames' : List Frame}
    {res : Except Failure Bool} (stack : p.Stacks frames)
    (delivery : Delivery p opcode v frames res frames') : p.Stacks frames' := by
  cases delivery with
  | received received =>
    obtain ⟨r, active⟩ := stack.active _ List.mem_cons_self
    exact stack.replace ⟨r, active.receive received⟩
  | nobody | declined => exact stack

end Program.Stacks

def Program.Parks (p : Program) (h : Heap) : Prop :=
  ∀ id f, (h.coroutine id).parked = some f → (∃ r, f.Activates p r) ∧ f.Rests p

def Heap.AtRest (kind : Frame → Prop) (h : Heap) : Prop :=
  ∀ id f, (h.coroutine id).parked = some f → kind f

namespace Heap.AtRest

variable {kind : Frame → Prop} {h k : Heap}

theorem congr (all : h.AtRest kind) (same : k.coroutines = h.coroutines) : k.AtRest kind := by
  intro id f rested
  exact all id f (by rw [← rested, coroutine, coroutine, same])

theorem push {name : String} {parked : Frame} (all : h.AtRest kind)
    (grown : k.coroutines = h.coroutines.push ⟨name, some parked⟩) (new : kind parked) :
    k.AtRest kind := by
  intro id f rested
  rw [coroutine, grown, Array.getElem?_push] at rested
  split at rested
  · obtain rfl := Option.some.inj rested
    exact new
  · exact all id f rested

theorem park {id : CoroutineId} {parked : Option Frame} (all : h.AtRest kind)
    (new : ∀ f, parked = some f → kind f) : (h.park id parked).AtRest kind := by
  intro other f rested
  rw [coroutine_park] at rested
  split at rested
  · exact new f rested
  · exact all other f rested

theorem rest {f : Frame} (all : h.AtRest kind) (new : kind { f with home := none }) :
    (h.rest f).AtRest kind := by
  unfold Heap.rest
  cases f.home with
  | none => exact all
  | some id =>
    refine all.park fun g rested => ?_
    obtain rfl := Option.some.inj rested
    exact new

theorem move {p : Program} {s t : State} {f : Frame} {below : List Frame} {i : Instruction}
    {res : Except Failure Bool} (all : s.heap.AtRest kind) (move : Move p s f below i res t)
    (created : ∀ id g, Frame.enter p id [] = .ok g → kind g)
    (yielded : i.opcode = "co-yield" → kind { f.advance with home := none }) :
    t.heap.AtRest kind := by
  cases move with
  | proceeds _ _ _ handles | fails _ handles _ | enters _ _ _ _ _ handles => exact all.congr handles
  | leaves _ _ handles | hands _ _ _ handles => exact handles ▸ all
  | creates _ _ _ entered _ _ handles => exact all.push handles (created _ _ entered)
  | resumes _ _ _ _ handles | loses _ _ _ _ _ handles =>
    exact handles ▸ all.park fun g empty => nomatch empty
  | rests opcode _ _ handles => exact handles ▸ all.rest (yielded opcode)

end Heap.AtRest

/-- A state of a run with so much room for calls in which every activation is as it should be. -/
structure State.Sound (p : Program) (depth : Nat) (s : State) : Prop where
  limit : s.calls.limit = depth
  stack : p.Stacks s.calls.items
  parks : p.Parks s.heap

section Steps

variable {p : Program} {depth : Nat} {s t : State} {f : Frame} {below : List Frame} {r : Routine}
  {i : Instruction} {res : Except Failure Bool}

theorem Machine.start_sound {sink : Sink} (started : (standard depth).start p sink = .ok s) :
    s.Sound p depth := by
  obtain ⟨id, f, entered, frames, limit, heap⟩ := start_eq_ok started
  refine ⟨limit, ⟨?_, ?_⟩, ?_⟩
  · rw [frames]
    exact List.forall_mem_singleton.mpr (Frame.enter_activates entered)
  · rw [frames]
    exact fun g member => nomatch member
  · rw [heap]
    exact fun id g rested => nomatch rested

theorem Move.sound (prepared : p.Prepared) (sound : s.Sound p depth)
    (executes : Executes p s f below r i) (limit : t.calls.limit = s.calls.limit)
    (move : Move p s f below i res t) : t.Sound p depth := by
  have stack : p.Stacks (f :: below) := executes.top ▸ sound.stack
  obtain ⟨r', active⟩ := stack.active f List.mem_cons_self
  obtain rfl := Except.ok.inj (executes.found.symm.trans active.found)
  have advanced : ∃ r, f.advance.Activates p r := ⟨r, active.advance executes.fetched⟩
  have site : f.advance.callSite? p = some i :=
    Frame.callSite?_advance executes.found executes.fetched
  refine ⟨limit.trans sound.limit, ?_, ?_⟩
  · cases move with
    | proceeds _ kept frames _ | creates _ _ _ _ kept frames _ =>
      rw [frames]
      exact stack.replace ⟨r, active.continues prepared executes.fetched kept⟩
    | fails frames _ _ | loses _ _ _ _ frames _ =>
      rw [frames]
      exact stack.replace advanced
    | enters called _ _ entered frames _ =>
      have awaits : f.advance.Awaits p := ⟨i, site, by
        obtain same | same := called.opcode_mem <;> simp [same, Opcodes.calls]⟩
      rw [frames]
      exact (stack.replace advanced).push awaits (Frame.enter_activates entered)
    | resumes opcode _ rested frames _ =>
      have awaits : f.advance.Awaits p := ⟨i, site, by simp [opcode, Opcodes.calls]⟩
      obtain ⟨⟨r', resumed⟩, -⟩ := sound.parks _ _ rested
      rw [frames]
      exact (stack.replace advanced).push awaits ⟨r', resumed.congr rfl rfl rfl rfl⟩
    | leaves _ frames _ =>
      rw [frames]
      exact stack.pop
    | hands _ _ delivery _ | rests _ _ delivery _ => exact stack.pop.deliver delivery
  · have rested : s.heap.AtRest fun g => (∃ r, g.Activates p r) ∧ g.Rests p := sound.parks
    refine rested.move move (fun id g entered => ?_) fun opcode => ?_
    · obtain ⟨_, _, _, parked⟩ := Frame.enter_eq_ok_iff.mp entered
      exact ⟨Frame.enter_activates entered, .inl (by rw [parked])⟩
    · exact ⟨⟨r, (active.advance executes.fetched).congr rfl rfl rfl rfl⟩, .inr ⟨i, site, opcode⟩⟩

theorem Machine.Reachable.sound (prepared : p.Prepared)
    (reached : (standard depth).Reachable p s) : s.Sound p depth :=
  reached.invariant (fun _ _ started => start_sound started)
    fun _ _ _ _ _ _ _ sound executes limit move => move.sound prepared sound executes limit

/-- In every reachable state the stack keeps to its limit, every frame is an activation of its
function, a frame under another waits behind its call, and a frame at rest has not begun or is
behind a yield. -/
theorem Machine.Reachable.activations (prepared : p.Prepared)
    (reached : (standard depth).Reachable p s) :
    s.calls.depth ≤ depth ∧
      (∀ f ∈ s.calls.items, ∃ r, f.Activates p r) ∧
      (∀ id f, (s.heap.coroutine id).parked = some f → ∃ r, f.Activates p r) ∧
      (∀ f ∈ s.calls.items.tail, 1 ≤ f.pointer ∧
        ∃ i, p.fetch? f.routine (f.pointer - 1) = some i ∧ i.opcode ∈ Opcodes.calls) ∧
      ∀ id f, (s.heap.coroutine id).parked = some f → f.pointer = 0 ∨
        ∃ i, p.fetch? f.routine (f.pointer - 1) = some i ∧ i.opcode = "co-yield" := by
  obtain ⟨limit, stack, parks⟩ := reached.sound prepared
  refine ⟨limit ▸ s.calls.depth_le_limit, stack.active, fun id f rested => (parks id f rested).1,
    fun f member => ?_, fun id f rested => ?_⟩
  · obtain ⟨site, found, opcode⟩ := stack.awaiting f member
    obtain ⟨begun, fetched⟩ := Frame.callSite?_eq_some_iff.mp found
    exact ⟨begun, site, fetched, opcode⟩
  · obtain fresh | ⟨site, found, opcode⟩ := (parks id f rested).2
    · exact .inl fresh
    · exact .inr ⟨site, (Frame.callSite?_eq_some_iff.mp found).2, opcode⟩

end Steps

/-- A function that makes a coroutine and resumes it twice, and one that yields a number once. -/
def Program.yielding : Program where
  routines := [
    { name := "main"
      body := [
        { opcode := "co-create", output := some 0, payload := .name "seven" },
        { opcode := "co-invoke", inputs := [0], output := some 1 },
        { opcode := "co-invoke", inputs := [0], output := some 2 },
        { opcode := "fn-return" }]
      notes := ⟨[(Opcodes.labelKey, .labels [])]⟩ },
    { name := "seven"
      body := [
        { opcode := "int-val", output := some 0, payload := .int 7 },
        { opcode := "co-yield", inputs := [0] },
        { opcode := "fn-return" }]
      notes := ⟨[(Opcodes.labelKey, .labels [])]⟩ }]

def State.yielding : State where
  calls := { items := [{ routine := 0, name := "main", registers := #[.unset, .unset, .unset] }]
             room := 1 }

theorem Program.yielding_prepared : yielding.Prepared :=
  ⟨2, ⟨⟨yielding.routines.map fun r => { r with notes := {} }, {}⟩, []⟩, ⟨yielding, []⟩, rfl, rfl⟩

theorem State.yielding_reachable (n : Nat) : (Machine.standard 2).Reachable .yielding
    ((Machine.standard 2).after .yielding yielding n) := by
  have started : (Machine.standard 2).start .yielding {} = .ok yielding := rfl
  exact (Machine.Reachable.start started).after n

theorem State.yielding_activations :
    let s := (Machine.standard 2).after .yielding yielding 2
    s.calls.depth = 2 ∧ s.calls.depth ≤ 2 ∧
      (∀ f ∈ s.calls.items, ∃ r, f.Activates .yielding r) ∧
      ∀ f ∈ s.calls.items.tail, 1 ≤ f.pointer ∧
        ∃ i, Program.yielding.fetch? f.routine (f.pointer - 1) = some i ∧
          i.opcode ∈ Opcodes.calls := by
  obtain ⟨bounded, active, -, awaiting, -⟩ :=
    Machine.Reachable.activations Program.yielding_prepared (yielding_reachable 2)
  exact ⟨rfl, bounded, active, awaiting⟩

end RegisterMachine
