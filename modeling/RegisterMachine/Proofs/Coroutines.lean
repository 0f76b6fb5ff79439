import RegisterMachine.Proofs.Activations

/-!
The life of a coroutine. Handles are shared freely, but the frame of a coroutine is in one place at
a time: at rest in the coroutine, or on the stack with the coroutine as its home. Once it is in
neither place it never is again. The owners of a handle are counted over both places at once; no
step gives a handle another owner, and a new handle has one.
-/

namespace RegisterMachine

namespace Heap

variable {h k : Heap} {id : CoroutineId}

theorem coroutine_congr (same : k.coroutines = h.coroutines) (id : CoroutineId) :
    k.coroutine id = h.coroutine id := by
  rw [coroutine, coroutine, same]

theorem coroutine_push {c : Coroutine} (grown : k.coroutines = h.coroutines.push c)
    (id : CoroutineId) : k.coroutine id = if id = h.nextCoroutine then c else h.coroutine id := by
  rw [coroutine, coroutine, nextCoroutine, grown, Array.getElem?_push]
  split <;> rfl

theorem parked_lt {f : Frame} (rested : (h.coroutine id).parked = some f) :
    id < h.nextCoroutine := by
  by_cases given : id < h.nextCoroutine
  · exact given
  · rw [coroutine, Array.getElem?_eq_none (Nat.not_lt.mp given)] at rested
    cases rested

theorem parked_none {other : CoroutineId} : ((h.park id none).coroutine other).parked =
    if other = id then none else (h.coroutine other).parked := by
  rw [coroutine_park]
  by_cases same : other = id
  · subst same
    cases rested : (h.coroutine other).parked with
    | none => simp
    | some f => simp [show other < h.coroutines.size from parked_lt rested]
  · simp [same]

theorem parked_rest (h : Heap) (f : Frame) (id : CoroutineId) : ((h.rest f).coroutine id).parked =
    if f.home = some id ∧ id < h.nextCoroutine then some { f with home := none }
    else (h.coroutine id).parked := by
  unfold rest
  cases f.home with
  | none => simp
  | some home =>
    rw [coroutine_park]
    by_cases same : id = home
    · subst same
      simp [nextCoroutine]
    · simp [same, Ne.symm same]

@[simp] theorem nextCoroutine_park (h : Heap) (id : CoroutineId) (parked : Option Frame) :
    (h.park id parked).nextCoroutine = h.nextCoroutine := by
  simp [park, nextCoroutine]

@[simp] theorem nextCoroutine_rest (h : Heap) (f : Frame) :
    (h.rest f).nextCoroutine = h.nextCoroutine := by
  unfold rest
  cases f.home <;> simp

end Heap

namespace State

def homes (s : State) : List (Option CoroutineId) := s.calls.items.map Frame.home

/-- In how many places the frame of a coroutine is. -/
def owners (s : State) (id : CoroutineId) : Nat :=
  (s.heap.coroutine id).parked.toList.length + s.homes.count (some id)

/-- No coroutine has two owners, and only those that were created have any. -/
structure Owned (s : State) : Prop where
  single : ∀ id, s.owners id ≤ 1
  known : ∀ id, some id ∈ s.homes → id < s.heap.nextCoroutine
  homeless : ∀ id f, (s.heap.coroutine id).parked = some f → f.home = none

namespace Owned

variable {s : State} {id : CoroutineId}

theorem not_running (owned : s.Owned) {f : Frame} (rested : (s.heap.coroutine id).parked = some f) :
    some id ∉ s.homes := by
  have single := owned.single id
  rw [State.owners, rested] at single
  rw [← List.count_eq_zero]
  simp only [Option.toList_some, List.length_singleton] at single
  omega

theorem parked_eq_none (owned : s.Owned) (running : some id ∈ s.homes) :
    (s.heap.coroutine id).parked = none := by
  cases rested : (s.heap.coroutine id).parked with
  | none => rfl
  | some f => exact absurd running (owned.not_running rested)

theorem count_le_one (owned : s.Owned) (id : CoroutineId) : s.homes.count (some id) ≤ 1 := by
  have single := owned.single id
  rw [State.owners] at single
  omega

theorem not_mem_rest (owned : s.Owned) {rest : List (Option CoroutineId)}
    (homes : s.homes = some id :: rest) : some id ∉ rest := by
  have single := owned.count_le_one id
  rw [homes, List.count_cons_self] at single
  rw [← List.count_eq_zero]
  omega

end Owned

theorem homes_length (s : State) : s.homes.length = s.calls.depth := List.length_map _

end State

/-- A coroutine is suspended while a frame rests in it, running while a frame of the stack goes back
to it, and dead otherwise. -/
inductive Standing where
  | suspended
  | running
  | dead
deriving DecidableEq

namespace State

variable {s t : State} {id : CoroutineId}

def standing (s : State) (id : CoroutineId) : Standing :=
  if (s.heap.coroutine id).parked.isSome then .suspended
  else if some id ∈ s.homes then .running
  else .dead

theorem standing_congr (parked : (t.heap.coroutine id).parked = (s.heap.coroutine id).parked)
    (homes : some id ∈ t.homes ↔ some id ∈ s.homes) : t.standing id = s.standing id := by
  simp only [standing, parked, homes]

theorem standing_suspended {f : Frame} (rested : (s.heap.coroutine id).parked = some f) :
    s.standing id = .suspended := by
  simp [standing, rested]

theorem standing_running (empty : (s.heap.coroutine id).parked = none)
    (running : some id ∈ s.homes) : s.standing id = .running := by
  simp [standing, empty, running]

theorem standing_eq_dead_iff : s.standing id = .dead ↔ s.owners id = 0 := by
  unfold standing owners
  cases (s.heap.coroutine id).parked with
  | some f => simp
  | none => simp [List.count_eq_zero]

end State

inductive Turn where
  | resumed
  | yielded
  | returned
  | lost
deriving DecidableEq

def Turn.before : Turn → Standing
  | resumed | lost => .suspended
  | yielded | returned => .running

def Turn.after : Turn → Standing
  | resumed => .running
  | yielded => .suspended
  | returned | lost => .dead

/-- The step from `s` to `t`, at instruction `i` of frame `f`, is one that gives a coroutine such a
turn. -/
def Turn.Due (s : State) (f : Frame) (i : Instruction) (res : Except Failure Bool) (t : State)
    (id : CoroutineId) : Turn → Prop
  | resumed => i.opcode = "co-invoke" ∧ f.operand i 0 = .ok (.coroutine id) ∧ res = .ok true
  | yielded => i.opcode = "co-yield" ∧ f.home = some id ∧ t.calls.depth < s.calls.depth
  | returned => i.opcode ∈ Opcodes.plainReturns ++ Opcodes.valueReturns ∧ f.home = some id ∧
      t.calls.depth < s.calls.depth
  | lost => i.opcode = "co-invoke" ∧ f.operand i 0 = .ok (.coroutine id) ∧
      ∃ e depth limit, res = .error e ∧ e.fault = .stackOverflow depth limit

def Machine.Gives (m : Machine) (p : Program) (s : State) (id : CoroutineId) (turn : Turn) : Prop :=
  ∃ f below r i, Executes p s f below r i ∧
    turn.Due s f i (m.attempt p s).1 (m.attempt p s).2 id

/-- Where the frames of coroutines are after a step, and which coroutines it gives a turn. -/
inductive Handover (s : State) (f : Frame) (i : Instruction) (res : Except Failure Bool)
    (t : State) : Prop where
  | stays (homes : t.homes = s.homes ∨ t.homes = none :: s.homes)
      (handles : t.heap.coroutines = s.heap.coroutines)
      (due : ∀ id turn, ¬Turn.Due s f i res t id turn)
  | creates {name parked} (homes : t.homes = s.homes) (homeless : parked.home = none)
      (handles : t.heap.coroutines = s.heap.coroutines.push ⟨name, some parked⟩)
      (due : ∀ id turn, ¬Turn.Due s f i res t id turn)
  | resumes {id parked} (rested : (s.heap.coroutine id).parked = some parked)
      (homes : t.homes = some id :: s.homes) (handles : t.heap = s.heap.park id none)
      (due : ∀ other turn, Turn.Due s f i res t other turn ↔ turn = .resumed ∧ other = id)
  | loses {id parked} (rested : (s.heap.coroutine id).parked = some parked)
      (homes : t.homes = s.homes) (handles : t.heap = s.heap.park id none)
      (due : ∀ other turn, Turn.Due s f i res t other turn ↔ turn = .lost ∧ other = id)
  | leaves (homes : s.homes = f.home :: t.homes) (handles : t.heap = s.heap)
      (due : ∀ id turn, Turn.Due s f i res t id turn ↔ turn = .returned ∧ f.home = some id)
  | rests (homes : s.homes = f.home :: t.homes) (handles : t.heap = s.heap.rest f.advance)
      (due : ∀ id turn, Turn.Due s f i res t id turn ↔ turn = .yielded ∧ f.home = some id)

section Steps

variable {p : Program} {depth : Nat} {s t : State} {f : Frame} {below : List Frame} {r : Routine}
  {i : Instruction} {res : Except Failure Bool} {id : CoroutineId}

theorem Delivery.homes {opcode : String} {v : Value} {frames frames' : List Frame}
    (delivery : Delivery p opcode v frames res frames') :
    frames'.map Frame.home = frames.map Frame.home := by
  refine delivery.map_eq fun g g' received => ?_
  obtain ⟨site, q, -, -, -, rfl⟩ := Frame.receive_eq_ok received
  rfl

theorem Turn.not_due (deep : s.calls.depth ≤ t.calls.depth)
    (invoked : i.opcode = "co-invoke" → res ≠ .ok true ∧
      ∀ e depth limit, res = .error e → e.fault ≠ .stackOverflow depth limit)
    (id : CoroutineId) (turn : Turn) : ¬turn.Due s f i res t id := by
  cases turn with
  | resumed =>
    intro due
    have done : res = .ok true := due.2.2
    exact (invoked due.1).1 done
  | lost =>
    intro due
    obtain ⟨e, d, l, failed, full⟩ := due.2.2
    exact (invoked due.1).2 e d l failed full
  | yielded | returned =>
    intro due
    have popped : t.calls.depth < s.calls.depth := due.2.2
    omega

theorem Turn.due_returned (returns : i.opcode ∈ Opcodes.plainReturns ++ Opcodes.valueReturns)
    (popped : t.calls.depth < s.calls.depth) (id : CoroutineId) (turn : Turn) :
    turn.Due s f i res t id ↔ turn = .returned ∧ f.home = some id := by
  have others : i.opcode ≠ "co-invoke" ∧ i.opcode ≠ "co-yield" := by
    constructor <;> (intro same; rw [same] at returns; revert returns; decide)
  cases turn <;> simp [Due, returns, popped, others]

theorem Turn.due_yielded (opcode : i.opcode = "co-yield") (popped : t.calls.depth < s.calls.depth)
    (id : CoroutineId) (turn : Turn) :
    turn.Due s f i res t id ↔ turn = .yielded ∧ f.home = some id := by
  cases turn <;> simp [Due, opcode, popped, Opcodes.plainReturns, Opcodes.valueReturns]

theorem Move.handover (top : s.calls.items = f :: below) (move : Move p s f below i res t) :
    Handover s f i res t := by
  have before : s.homes = f.home :: below.map Frame.home := by rw [State.homes, top, List.map_cons]
  have same {g : Frame} (frames : t.calls.items = g :: below) (home : g.home = f.home) :
      t.homes = s.homes := by rw [State.homes, frames, before, List.map_cons, home]
  have level (homes : t.homes = s.homes) : s.calls.depth ≤ t.calls.depth :=
    Nat.le_of_eq (by rw [← State.homes_length, ← State.homes_length, homes])
  have popped (homes : t.homes = below.map Frame.home) : t.calls.depth < s.calls.depth := by
    rw [← State.homes_length, ← State.homes_length, homes, before]
    exact Nat.lt_succ_self _
  -- a turn depends on the homes on the stack and on the handles: each move is read for these
  cases move with
  | proceeds quiet kept frames handles =>
    have homes := same frames kept.home
    have other : i.opcode ≠ "co-invoke" := by
      intro opcode
      rw [opcode] at quiet
      exact quiet (by decide)
    exact .stays (.inl homes) handles (Turn.not_due (level homes) fun opcode => absurd opcode other)
  | creates opcode named found entered kept frames handles =>
    have homes := same frames kept.home
    obtain ⟨_, _, _, parked⟩ := Frame.enter_eq_ok_iff.mp entered
    have other : i.opcode ≠ "co-invoke" := by rw [opcode]; decide
    have homeless : Frame.home _ = none := congrArg Frame.home parked
    exact .creates homes homeless handles
      (Turn.not_due (level homes) fun opcode => absurd opcode other)
  | fails frames handles room =>
    have homes := same frames rfl
    refine .stays (.inl homes) handles (Turn.not_due (level homes) fun opcode => ⟨nofun, ?_⟩)
    intro e d l failed full
    cases failed
    exact room d l full opcode
  | enters called read found entered frames handles =>
    obtain ⟨_, _, _, callee⟩ := Frame.enter_eq_ok_iff.mp entered
    have homes : t.homes = none :: s.homes := by
      rw [State.homes, frames, before, callee]
      rfl
    have deeper : s.calls.depth ≤ t.calls.depth := by
      rw [← State.homes_length, ← State.homes_length, homes]
      exact Nat.le_succ _
    have other : i.opcode ≠ "co-invoke" := by
      obtain same | same := called.opcode_mem <;> simp [same]
    exact .stays (.inr homes) handles (Turn.not_due deeper fun opcode => absurd opcode other)
  | resumes opcode named rested frames handles =>
    refine .resumes rested (by rw [State.homes, frames, before]; rfl) handles fun other turn => ?_
    cases turn <;>
      simp [Turn.Due, opcode, named, eq_comm, Opcodes.plainReturns, Opcodes.valueReturns]
  | @loses e t id parked d l opcode named rested full frames handles =>
    refine .loses rested (same frames rfl) handles fun other turn => ?_
    cases turn <;>
      simp [Turn.Due, opcode, named, full, eq_comm, Opcodes.plainReturns, Opcodes.valueReturns]
  | leaves opcode frames handles =>
    have homes : t.homes = below.map Frame.home := by rw [State.homes, frames]
    exact .leaves (homes ▸ before) handles
      (Turn.due_returned (List.mem_append_left _ opcode) (popped homes))
  | hands opcode read delivery handles =>
    have homes : t.homes = below.map Frame.home := delivery.homes
    exact .leaves (homes ▸ before) handles
      (Turn.due_returned (List.mem_append_right _ opcode) (popped homes))
  | rests opcode read delivery handles =>
    have homes : t.homes = below.map Frame.home := delivery.homes
    exact .rests (homes ▸ before) handles (Turn.due_yielded opcode (popped homes))

namespace Handover

theorem owners_le (handover : Handover s f i res t) (given : id < s.heap.nextCoroutine) :
    t.owners id ≤ s.owners id := by
  unfold State.owners
  cases handover with
  | stays homes handles =>
    have count : t.homes.count (some id) = s.homes.count (some id) := by
      obtain homes | homes := homes <;> simp [homes]
    exact Nat.le_of_eq (by rw [Heap.coroutine_congr handles, count])
  | creates homes homeless handles =>
    have kept : t.heap.coroutine id = s.heap.coroutine id := by
      rw [Heap.coroutine_push handles, if_neg (Nat.ne_of_lt given)]
    exact Nat.le_of_eq (by rw [kept, homes])
  | @resumes other parked rested homes handles =>
    rw [handles, homes, Heap.parked_none, List.count_cons]
    by_cases same : id = other
    · subst same
      simp [rested, Nat.add_comm]
    · simp [same, Ne.symm same]
  | @loses other parked rested homes handles =>
    rw [handles, homes, Heap.parked_none]
    by_cases same : id = other <;> simp [same]
  | leaves homes handles =>
    rw [handles, homes, List.count_cons]
    omega
  | rests homes handles =>
    rw [handles, homes, Heap.parked_rest, List.count_cons]
    by_cases home : f.home = some id
    · simp [Frame.advance, home, given]
      omega
    · simp [Frame.advance, home]

theorem grows (handover : Handover s f i res t) :
    s.heap.nextCoroutine ≤ t.heap.nextCoroutine := by
  cases handover with
  | stays _ handles => exact Nat.le_of_eq (congrArg Array.size handles).symm
  | creates _ _ handles => simp [Heap.nextCoroutine, handles]
  | resumes _ _ handles | loses _ _ handles => simp [handles]
  | leaves _ handles => exact Nat.le_of_eq (by rw [handles])
  | rests _ handles => simp [handles]

theorem known (handover : Handover s f i res t) (owned : s.Owned) (running : some id ∈ t.homes) :
    id < s.heap.nextCoroutine := by
  cases handover with
  | stays homes handles =>
    refine owned.known id ?_
    obtain homes | homes := homes <;> simpa [homes] using running
  | creates homes | loses _ homes => exact owned.known id (homes ▸ running)
  | resumes rested homes =>
    rw [homes, List.mem_cons, Option.some.injEq] at running
    obtain rfl | running := running
    · exact Heap.parked_lt rested
    · exact owned.known id running
  | leaves homes | rests homes => exact owned.known id (homes ▸ List.mem_cons_of_mem _ running)

theorem homeless (handover : Handover s f i res t) (owned : s.Owned) {g : Frame}
    (rested : (t.heap.coroutine id).parked = some g) : g.home = none := by
  cases handover with
  | stays homes handles => exact owned.homeless id g (Heap.coroutine_congr handles id ▸ rested)
  | creates homes homeless handles =>
    rw [Heap.coroutine_push handles] at rested
    split at rested
    · exact Option.some.inj rested ▸ homeless
    · exact owned.homeless id g rested
  | resumes _ _ handles | loses _ _ handles =>
    rw [handles, Heap.parked_none] at rested
    split at rested
    · exact nomatch rested
    · exact owned.homeless id g rested
  | leaves _ handles => exact owned.homeless id g (handles ▸ rested)
  | rests _ handles =>
    rw [handles, Heap.parked_rest] at rested
    split at rested
    · rw [← Option.some.inj rested]
    · exact owned.homeless id g rested

theorem owned (handover : Handover s f i res t) (owned : s.Owned) : t.Owned where
  single id := by
    by_cases given : id < s.heap.nextCoroutine
    · have single := owned.single id
      have less := handover.owners_le given
      omega
    -- a handle without a coroutine has no owner before the step, and the step gives it none
    · have absent : t.homes.count (some id) = 0 :=
        List.count_eq_zero.mpr fun running => given (handover.known owned running)
      rw [State.owners, absent]
      cases (t.heap.coroutine id).parked <;> simp
  known id running := by
    have known := handover.known owned running
    have grows := handover.grows
    exact Nat.lt_of_lt_of_le known grows
  homeless id g rested := handover.homeless owned rested

theorem turn (handover : Handover s f i res t) (owned : s.Owned)
    (given : id < s.heap.nextCoroutine) :
    (t.standing id = s.standing id ∧ ∀ turn : Turn, ¬turn.Due s f i res t id) ∨
      ∃ turn : Turn, turn.Due s f i res t id ∧
        s.standing id = turn.before ∧ t.standing id = turn.after := by
  cases handover with
  | stays homes handles due =>
    refine .inl ⟨State.standing_congr (by rw [Heap.coroutine_congr handles]) ?_, due id⟩
    obtain homes | homes := homes <;> simp [homes]
  | creates homes homeless handles due =>
    refine .inl ⟨State.standing_congr ?_ (by rw [homes]), due id⟩
    rw [Heap.coroutine_push handles, if_neg (Nat.ne_of_lt given)]
  | @resumes other parked rested homes handles due =>
    by_cases same : id = other
    · subst same
      have running : t.standing id = .running :=
        State.standing_running (by simp [handles, Heap.parked_none]) (by simp [homes])
      exact .inr ⟨.resumed, (due id _).mpr ⟨rfl, rfl⟩, State.standing_suspended rested, running⟩
    · refine .inl ⟨State.standing_congr ?_ ?_, fun turn got => same ((due id turn).mp got).2⟩
      · rw [handles, Heap.parked_none, if_neg same]
      · simp [homes, same]
  | @loses other parked rested homes handles due =>
    by_cases same : id = other
    · subst same
      have dead : t.standing id = .dead := by
        simp [State.standing, handles, homes, Heap.parked_none, owned.not_running rested]
      exact .inr ⟨.lost, (due id _).mpr ⟨rfl, rfl⟩, State.standing_suspended rested, dead⟩
    · refine .inl ⟨State.standing_congr ?_ (by rw [homes]), fun turn got => ?_⟩
      · rw [handles, Heap.parked_none, if_neg same]
      · exact same ((due id turn).mp got).2
  | leaves homes handles due =>
    by_cases home : f.home = some id
    · rw [home] at homes
      have empty := owned.parked_eq_none (homes ▸ List.mem_cons_self)
      have dead : t.standing id = .dead := by
        simp [State.standing, handles, empty, owned.not_mem_rest homes]
      have running := State.standing_running empty (homes ▸ List.mem_cons_self)
      exact .inr ⟨.returned, (due id _).mpr ⟨rfl, home⟩, running, dead⟩
    · refine .inl ⟨State.standing_congr (by rw [handles]) ?_, fun turn got => ?_⟩
      · simp [homes, Ne.symm home]
      · exact home ((due id turn).mp got).2
  | rests homes handles due =>
    by_cases home : f.home = some id
    · rw [home] at homes
      have empty := owned.parked_eq_none (homes ▸ List.mem_cons_self)
      have suspended : t.standing id = .suspended := by
        refine State.standing_suspended (f := { f.advance with home := none }) ?_
        rw [handles, Heap.parked_rest, if_pos ⟨home, given⟩]
      have running := State.standing_running empty (homes ▸ List.mem_cons_self)
      exact .inr ⟨.yielded, (due id _).mpr ⟨rfl, home⟩, running, suspended⟩
    · refine .inl ⟨State.standing_congr ?_ ?_, fun turn got => home ((due id turn).mp got).2⟩
      · rw [handles, Heap.parked_rest, if_neg fun ⟨same, _⟩ => home same]
      · simp [homes, Ne.symm home]

end Handover

theorem Machine.start_owned {m : Machine} {sink : Sink} (started : m.start p sink = .ok s) :
    s.Owned := by
  obtain ⟨id, f, entered, frames, -, heap⟩ := start_eq_ok started
  obtain ⟨_, _, _, fresh⟩ := Frame.enter_eq_ok_iff.mp entered
  have homes : s.homes = [none] := by
    rw [State.homes, frames, fresh]
    rfl
  have empty (id : CoroutineId) : (s.heap.coroutine id).parked = none := by
    rw [heap]
    rfl
  refine ⟨fun id => ?_, fun id running => ?_, fun id f rested => ?_⟩
  · simp [State.owners, empty, homes]
  · simp [homes] at running
  · exact nomatch (empty id).symm.trans rested

theorem Machine.Reachable.owned (reached : (standard depth).Reachable p s) : s.Owned :=
  reached.invariant (fun _ _ started => start_owned started)
    fun _ _ _ _ _ _ _ owned executes _ move => (move.handover executes.top).owned owned

theorem Machine.attempt_owners_le (depth : Nat) (p : Program) (given : id < s.heap.nextCoroutine) :
    id < ((standard depth).attempt p s).2.heap.nextCoroutine ∧
      ((standard depth).attempt p s).2.owners id ≤ s.owners id := by
  have outcome := attempt_outcome depth p s
  obtain ⟨f, below, r, i, executes⟩ | ⟨stays, -⟩ := outcome.executes_or_stays
  · have handover := (outcome.move executes).handover executes.top
    exact ⟨Nat.lt_of_lt_of_le given handover.grows, handover.owners_le given⟩
  · rw [stays]
    exact ⟨given, Nat.le_refl _⟩

theorem Machine.after_owners (depth : Nat) (p : Program) (given : id < s.heap.nextCoroutine)
    (dead : s.owners id = 0) (n : Nat) :
    id < ((standard depth).after p s n).heap.nextCoroutine ∧
      ((standard depth).after p s n).owners id = 0 := by
  induction n with
  | zero => exact ⟨given, dead⟩
  | succ n ih =>
    obtain ⟨still, less⟩ := attempt_owners_le depth p ih.1
    exact ⟨still, Nat.le_zero.mp (ih.2 ▸ less)⟩

theorem Machine.Reachable.turn (reached : (standard depth).Reachable p s)
    (given : id < s.heap.nextCoroutine) :
    (((standard depth).attempt p s).2.standing id = s.standing id ∧
        ∀ turn, ¬(standard depth).Gives p s id turn) ∨
      ∃ turn, (standard depth).Gives p s id turn ∧ s.standing id = turn.before ∧
        ((standard depth).attempt p s).2.standing id = turn.after := by
  have outcome := attempt_outcome depth p s
  by_cases busy : ∃ f below r i, Executes p s f below r i
  · obtain ⟨f, below, r, i, executes⟩ := busy
    have handover := (outcome.move executes).handover executes.top
    obtain ⟨same, calm⟩ | ⟨turn, due, changes⟩ := handover.turn reached.owned given
    · refine .inl ⟨same, ?_⟩
      intro turn given
      obtain ⟨f', below', r', i', other, due⟩ := given
      obtain ⟨rfl, rfl, rfl, rfl⟩ := executes.unique other
      exact calm turn due
    · exact .inr ⟨turn, ⟨f, below, r, i, executes, due⟩, changes⟩
  · obtain ⟨stays, -⟩ := outcome.executes_or_stays.resolve_left busy
    refine .inl ⟨by rw [stays], ?_⟩
    intro turn given
    obtain ⟨f, below, r, i, executes, -⟩ := given
    exact busy ⟨f, below, r, i, executes⟩

/-- In every reachable state a handle has at most one frame, on the stack or at rest. A step changes
how a handle stands only by one of the turns of `Turn.Due`, and a handle that is dead stays dead. -/
theorem Machine.Reachable.coroutine_life (reached : (standard depth).Reachable p s) :
    (∀ id, s.homes.count (some id) ≤ 1) ∧
      (∀ id f, (s.heap.coroutine id).parked = some f → some id ∉ s.homes ∧ f.home = none) ∧
      (∀ id < s.heap.nextCoroutine,
        (((standard depth).attempt p s).2.standing id = s.standing id ∧
            ∀ turn, ¬(standard depth).Gives p s id turn) ∨
          ∃ turn, (standard depth).Gives p s id turn ∧ s.standing id = turn.before ∧
            ((standard depth).attempt p s).2.standing id = turn.after) ∧
      ∀ id < s.heap.nextCoroutine, s.standing id = .dead →
        ∀ n, ((standard depth).after p s n).standing id = .dead := by
  have owned := reached.owned
  refine ⟨owned.count_le_one, fun id f rested => ?_, fun id given => reached.turn given,
    fun id given dead n => ?_⟩
  · exact ⟨owned.not_running rested, owned.homeless id f rested⟩
  · rw [State.standing_eq_dead_iff] at dead ⊢
    exact (after_owners depth p given dead n).2

end Steps

theorem State.yielding_coroutine :
    let s := (Machine.standard 2).after .yielding yielding
    ((s 4).standing 0 = .suspended ∧ (s 4).homes.count (some 0) ≤ 1) ∧
      (s 7).standing 0 = .dead ∧
        ∀ n, ((Machine.standard 2).after .yielding (s 7) n).standing 0 = .dead := by
  obtain ⟨single, -, -, -⟩ := Machine.Reachable.coroutine_life (yielding_reachable 4)
  obtain ⟨-, -, -, dead⟩ := Machine.Reachable.coroutine_life (yielding_reachable 7)
  exact ⟨⟨rfl, single 0⟩, rfl, dead 0 (by decide +kernel) rfl⟩

end RegisterMachine
