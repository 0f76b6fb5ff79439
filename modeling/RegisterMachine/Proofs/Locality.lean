import RegisterMachine.Proofs.Isolation

/-!
Instructions that look at nothing but their own frame. Two activations of one function, be it in two
programs, on two machines or at two depths, that hold the same registers at the same pointer decide
the same. So a function of such instructions only goes on alike in both until it ends in both, and
then it ends in the same way.
-/

namespace RegisterMachine

/-- The opcodes that read and write the executing frame only, or end its activation. -/
def Opcodes.frameLocal : List String :=
  [Extension.int, .long, .double, .bool, .castInt, .castLong, .castDouble, .copying, .jumps].flatMap
    Extension.opcodes ++ plainReturns ++ valueReturns ++ ["co-yield"]

namespace Routine

def FrameLocal (g : Routine) : Prop := ∀ i ∈ g.body, i.opcode ∈ Opcodes.frameLocal

/-- The functions are one, as far as a run can tell. -/
structure Matches (r g : Routine) : Prop where
  name : r.name = g.name
  body : r.body = g.body
  labels : r.notes.labels? Opcodes.labelKey = g.notes.labels? Opcodes.labelKey

theorem Matches.target {r g : Routine} (same : r.Matches g) (label : String) :
    Opcodes.target r label = Opcodes.target g label := by
  rw [Opcodes.target, Opcodes.target, same.labels, same.name]

end Routine

namespace Frame

def Plays (p : Program) (g : Routine) (f : Frame) : Prop :=
  ∃ r, p.routine f.routine = .ok r ∧ r.Matches g ∧ f.name = g.name

/-- Two activations of one function with the same registers and the same pointer. -/
structure Twins (g : Routine) (p : Program) (f : Frame) (p' : Program) (f' : Frame) : Prop where
  left : f.Plays p g
  right : f'.Plays p' g
  registers : f.registers = f'.registers
  pointer : f.pointer = f'.pointer

namespace Twins

variable {α : Type} {g : Routine} {p p' : Program} {f f' : Frame}

theorem symm (twins : Twins g p f p' f') : Twins g p' f' p f :=
  ⟨twins.right, twins.left, twins.registers.symm, twins.pointer.symm⟩

theorem name (twins : Twins g p f p' f') : f.name = f'.name := by
  obtain ⟨_, _, _, left⟩ := twins.left
  obtain ⟨_, _, _, right⟩ := twins.right
  rw [left, right]

theorem advance (twins : Twins g p f p' f') : Twins g p f.advance p' f'.advance :=
  ⟨twins.left, twins.right, twins.registers, congrArg (· + 1) twins.pointer⟩

theorem put (twins : Twins g p f p' f') (r : Register) (v : Value) :
    Twins g p (f.put r v) p' (f'.put r v) :=
  ⟨twins.left, twins.right, congrArg (·.setIfInBounds r v) twins.registers, twins.pointer⟩

theorem jump (twins : Twins g p f p' f') (index : Nat) :
    Twins g p { f with pointer := index } p' { f' with pointer := index } :=
  ⟨twins.left, twins.right, twins.registers, rfl⟩

theorem get (twins : Twins g p f p' f') : f.get = f'.get := by
  funext r
  simp only [Frame.get, outOfRange, twins.registers, twins.name]

theorem operand (twins : Twins g p f p' f') (i : Instruction) (k : Nat) :
    f.operand i k = f'.operand i k := by
  simp only [Frame.operand, twins.get]

theorem operandAs (twins : Twins g p f p' f') (rep : Representation α) (i : Instruction) (k : Nat) :
    f.operandAs rep i k = f'.operandAs rep i k := by
  simp only [Frame.operandAs, twins.get]

theorem outlet (twins : Twins g p f p' f') (i : Instruction) : f.outlet i = f'.outlet i := by
  simp only [Frame.outlet, outOfRange, twins.registers, twins.name]

end Twins

end Frame

section Plans

variable {α β : Type} {g : Routine} {p p' : Program} {i : Instruction} {f f' : Frame}
  {opcode : String} {handler : Handler}

/-- The decisions are one and the same, and it concerns the frame alone: it is refused, does
something in its frame, or ends its activation. -/
inductive Concerted (i : Instruction) (f : Frame) :
    Except Fault Deed → Except Fault Deed → Prop where
  | refuses (e : Fault) : Concerted i f (.error e) (.error e)
  | passes : Concerted i f (.ok (.change .nothing)) (.ok (.change .nothing))
  | writes (r : Register) (v : Value) :
      Concerted i f (.ok (.change (.register r v))) (.ok (.change (.register r v)))
  | jumps (index : Nat) : Concerted i f (.ok (.change (.jump index))) (.ok (.change (.jump index)))
  | departs {d : Deed} {x : Departure} (due : x.Due i f) : Concerted i f (.ok d) (.ok d)

theorem Concerted.bind {x : Except Fault α} {k k' : α → Except Fault Deed}
    (then_ : ∀ a, x = .ok a → Concerted i f (k a) (k' a)) :
    Concerted i f (x >>= k) (x >>= k') := by
  cases x with
  | error e => exact .refuses e
  | ok a => exact then_ a rfl

def Secluded (opcode : String) (handler : Handler) : Prop :=
  ∃ plan, Follows handler plan ∧ ∀ g p f p' f' i h h', Frame.Twins g p f p' f' →
    i.opcode = opcode → Concerted i f (plan p i f h) (plan p' i f' h')

theorem computing_secluded {value : Instruction → Frame → Heap → Except Fault Value}
    (follows : Follows handler (.computing value))
    (same : ∀ g p f p' f' i h h', Frame.Twins g p f p' f' → value i f h = value i f' h') :
    Secluded opcode handler := by
  refine ⟨_, follows, fun g p f p' f' i h h' twins _ => ?_⟩
  simp only [Plan.computing, same g p f p' f' i h h' twins, twins.outlet]
  exact .bind fun v _ => .bind fun r _ => .writes r v

theorem unary_secluded (source : Representation α) (target : Representation β) (k : α → β) :
    Secluded opcode (Opcodes.unary source target k) :=
  computing_secluded (follows_unary source target k) fun _ _ _ _ _ i _ _ twins => by
    simp only [Plan.unary, twins.operandAs]

theorem binary_secluded (source : Representation α) (target : Representation β) (k : α → α → β) :
    Secluded opcode (Opcodes.binary source target k) :=
  computing_secluded (follows_binary source target k) fun _ _ _ _ _ i _ _ twins => by
    simp only [Plan.binary, twins.operandAs]

theorem division_secluded (rep : Representation α) (k : α → α → Option α) :
    Secluded opcode (Opcodes.division rep k) :=
  computing_secluded (follows_division rep k) fun _ _ _ _ _ i _ _ twins => by
    simp only [Plan.division, twins.operandAs]

theorem constant_secluded : Secluded opcode Opcodes.constant :=
  computing_secluded follows_constant fun _ _ _ _ _ _ _ _ _ => rfl

theorem copy_secluded : Secluded opcode Opcodes.copy :=
  computing_secluded follows_copy fun _ _ _ _ _ i _ _ twins => twins.operand i 0

theorem label_secluded : Secluded opcode Opcodes.label :=
  ⟨_, follows_label, fun _ _ _ _ _ _ _ _ _ _ => .passes⟩

theorem jump_concerted (twins : Frame.Twins g p f p' f') (h h' : Heap) :
    Concerted i f (Plan.jump p i f h) (Plan.jump p' i f' h') := by
  obtain ⟨r, found, same, -⟩ := twins.left
  obtain ⟨r', found', same', -⟩ := twins.right
  simp only [Plan.jump, found, found', ok_bind, same.target, same'.target]
  exact .bind fun label _ => .bind fun index _ => .jumps index

theorem jump_secluded : Secluded opcode Opcodes.jump :=
  ⟨_, follows_jump, fun _ _ _ _ _ _ h h' twins _ => jump_concerted twins h h'⟩

theorem jumpIf_secluded : Secluded opcode Opcodes.jumpIf := by
  refine ⟨_, follows_jumpIf, fun g p f p' f' i h h' twins _ => ?_⟩
  simp only [Plan.jumpIf, twins.operandAs]
  refine .bind fun taken _ => ?_
  cases taken with
  | false => exact .passes
  | true => exact jump_concerted twins h h'

theorem leave_secluded (returns : opcode ∈ Opcodes.plainReturns) :
    Secluded opcode Opcodes.leave := by
  refine ⟨_, follows_leave, fun g p f p' f' i h h' twins same => ?_⟩
  have plain : i.opcode ∈ Opcodes.plainReturns := same ▸ returns
  exact .departs (x := .leaves) plain

theorem leaveWith_secluded (returns : opcode ∈ Opcodes.valueReturns) :
    Secluded opcode Opcodes.leaveWith := by
  refine ⟨_, follows_leaveWith, fun g p f p' f' i h h' twins same => ?_⟩
  simp only [Plan.leaveWith, ← twins.operand]
  refine .bind fun v read => ?_
  have due : (Departure.returns v).Due i f := ⟨same ▸ returns, read⟩
  exact .departs due

theorem yield_secluded : Secluded "co-yield" Opcodes.yield := by
  refine ⟨_, follows_yield, fun g p f p' f' i h h' twins same => ?_⟩
  simp only [Plan.yield, ← twins.operand]
  refine .bind fun v read => ?_
  have due : (Departure.yields v).Due i f := ⟨same, read⟩
  exact .departs due

end Plans

section Table

variable {α : Type}

theorem table_secluded (x : Extension) (each : ∀ e ∈ x.handlers, ∀ opcode, Secluded opcode e.2) :
    ∀ e ∈ x.table, e.1 ∈ Opcodes.frameLocal → Secluded e.1 e.2 := by
  intro e listed _
  obtain ⟨named, member, rfl⟩ := List.mem_map.mp listed
  exact each named member _

theorem table_apart (x : Extension) (apart : ∀ opcode ∈ x.opcodes, opcode ∉ Opcodes.frameLocal) :
    ∀ e ∈ x.table, e.1 ∈ Opcodes.frameLocal → Secluded e.1 e.2 := by
  intro e listed among
  have named : e.1 ∈ x.opcodes := x.map_fst_table ▸ List.mem_map_of_mem listed
  exact absurd among (apart e.1 named)

theorem calculator_secluded (c : Opcodes.Calculator α) :
    ∀ e ∈ c.handlers, ∀ opcode, Secluded opcode e.2 := by
  simp only [Opcodes.Calculator.handlers, Opcodes.comparison, List.forall_mem_cons]
  exact ⟨fun _ => binary_secluded _ _ _, fun _ => binary_secluded _ _ _,
    fun _ => binary_secluded _ _ _, fun _ => division_secluded _ _, fun _ => division_secluded _ _,
    fun _ => binary_secluded _ _ _, fun _ => binary_secluded _ _ _, fun _ => binary_secluded _ _ _,
    fun _ => constant_secluded, by simp⟩

theorem logic_secluded : ∀ e ∈ Opcodes.logic, ∀ opcode, Secluded opcode e.2 := by
  simp only [Opcodes.logic, List.forall_mem_cons]
  exact ⟨fun _ => binary_secluded _ _ _, fun _ => binary_secluded _ _ _,
    fun _ => binary_secluded _ _ _, fun _ => unary_secluded _ _ _, fun _ => constant_secluded,
    by simp⟩

theorem casts_secluded {x : Extension} (cast : x ∈ [Extension.castInt, .castLong, .castDouble]) :
    ∀ e ∈ x.table, e.1 ∈ Opcodes.frameLocal → Secluded e.1 e.2 := by
  refine table_secluded x ?_
  simp only [List.mem_cons, List.not_mem_nil, or_false] at cast
  obtain rfl | rfl | rfl := cast <;>
    simp only [Extension.castInt, Extension.castLong, Extension.castDouble, Opcodes.fromInt,
      Opcodes.fromLong, Opcodes.fromDouble, List.forall_mem_cons] <;>
    exact ⟨fun _ => unary_secluded _ _ _, fun _ => unary_secluded _ _ _, by simp⟩

theorem functions_secluded :
    ∀ e ∈ Extension.functions.table, e.1 ∈ Opcodes.frameLocal → Secluded e.1 e.2 := by
  simp only [Extension.table, Extension.functions, Extension.opcode, List.map_cons, List.map_nil,
    List.forall_mem_cons, String.reduceAppend]
  exact ⟨fun among => absurd among (by decide),
    fun _ => leave_secluded (by decide), fun _ => leaveWith_secluded (by decide),
    fun _ => leave_secluded (by decide), fun _ => leaveWith_secluded (by decide),
    by simp⟩

theorem coroutines_secluded :
    ∀ e ∈ Extension.coroutines.table, e.1 ∈ Opcodes.frameLocal → Secluded e.1 e.2 := by
  simp only [Extension.table, Extension.coroutines, Extension.opcode, List.map_cons, List.map_nil,
    List.forall_mem_cons, String.reduceAppend]
  exact ⟨fun among => absurd among (by decide),
    fun among => absurd among (by decide), fun _ => yield_secluded,
    fun among => absurd among (by decide), by simp⟩

theorem jumps_secluded : ∀ e ∈ Extension.jumps.handlers, ∀ opcode, Secluded opcode e.2 := by
  simp only [Extension.jumps, List.forall_mem_cons]
  exact ⟨fun _ => jump_secluded, fun _ => jumpIf_secluded, fun _ => label_secluded, by simp⟩

theorem standard_secluded : ∀ x ∈ Extension.standard,
    ∀ e ∈ x.table, e.1 ∈ Opcodes.frameLocal → Secluded e.1 e.2 := by
  simp only [Extension.standard, List.forall_mem_cons]
  exact ⟨table_secluded _ (calculator_secluded _), table_secluded _ (calculator_secluded _),
    table_secluded _ (calculator_secluded _), table_secluded _ logic_secluded,
    casts_secluded (by simp), casts_secluded (by simp), casts_secluded (by simp),
    functions_secluded, table_secluded _ jumps_secluded, table_apart _ (by decide),
    table_apart _ (by decide), coroutines_secluded,
    table_secluded _ (List.forall_mem_singleton.mpr fun _ => copy_secluded),
    table_apart _ (by decide), by simp⟩

theorem handler?_secluded {depth : Nat} {opcode : String} {handler : Handler}
    (among : opcode ∈ Opcodes.frameLocal)
    (found : (Machine.standard depth).handler? opcode = some handler) :
    Secluded opcode handler :=
  handler?_row (fun o h => o ∈ Opcodes.frameLocal → Secluded o h) standard_secluded found among

end Table

section Steps

variable {g : Routine} {p p' : Program} {s s' : State} {id id' : CoroutineId} {d : Departure}

def State.Plays (p : Program) (g : Routine) (s : State) (id : CoroutineId) : Prop :=
  ∃ f below, s.calls.items = f :: below ∧ f.home = some id ∧ f.Plays p g

/-- Two coroutines are running, each in a state of its own, in activations that are twins. -/
def State.Mirrors (g : Routine) (p : Program) (s : State) (id : CoroutineId) (p' : Program)
    (s' : State) (id' : CoroutineId) : Prop :=
  ∃ f below f' below', s.calls.items = f :: below ∧ s'.calls.items = f' :: below' ∧
    f.home = some id ∧ f'.home = some id' ∧ Frame.Twins g p f p' f'

namespace State

theorem Plays.mirrors_self (plays : s.Plays p g id) : s.Mirrors g p id p s id := by
  obtain ⟨f, below, top, home, activates⟩ := plays
  exact ⟨f, below, f, below, top, top, home, home, activates, activates, rfl, rfl⟩

namespace Mirrors

theorem symm (mirrors : s.Mirrors g p id p' s' id') : s'.Mirrors g p' id' p s id := by
  obtain ⟨f, below, f', below', top, top', home, home', twins⟩ := mirrors
  exact ⟨f', below', f, below, top', top, home', home, twins.symm⟩

theorem left (mirrors : s.Mirrors g p id p' s' id') : s.Plays p g id := by
  obtain ⟨f, below, f', below', top, top', home, home', twins⟩ := mirrors
  exact ⟨f, below, top, home, twins.left⟩

theorem departs (mirrors : s.Mirrors g p id p' s' id') (departs : s.Departs p d) :
    s'.Departs p' d := by
  obtain ⟨f, below, f', below', top, top', -, -, twins⟩ := mirrors
  obtain ⟨h, rest, r, i, executes, due⟩ := departs
  obtain ⟨rfl, rfl⟩ := List.cons.inj (top.symm.trans executes.top)
  obtain ⟨q, found, same, -⟩ := twins.left
  obtain ⟨q', found', same', -⟩ := twins.right
  obtain rfl := Except.ok.inj (found.symm.trans executes.found)
  have fetched : q'.body[f'.pointer]? = some i := by
    rw [same'.body, ← same.body, ← twins.pointer]
    exact executes.fetched
  refine ⟨f', below', q', i, ⟨top', found', fetched⟩, ?_⟩
  cases d with
  | leaves => exact due
  | returns v | yields v => exact ⟨due.1, (twins.operand i 0).symm.trans due.2⟩

theorem departs_iff (mirrors : s.Mirrors g p id p' s' id') : s.Departs p d ↔ s'.Departs p' d :=
  ⟨mirrors.departs, mirrors.symm.departs⟩

theorem attempt (secluded : g.FrameLocal) (mirrors : s.Mirrors g p id p' s' id')
    (stays : ∀ d, ¬s.Departs p d) (depth depth' : Nat) :
    ((Machine.standard depth).attempt p s).1 = ((Machine.standard depth').attempt p' s').1 ∧
      ((Machine.standard depth).attempt p s).2.Mirrors g p id p'
        ((Machine.standard depth').attempt p' s').2 id' := by
  obtain ⟨f, below, f', below', top, top', home, home', twins⟩ := mirrors
  obtain ⟨r, found, same, -⟩ := twins.left
  obtain ⟨r', found', same', -⟩ := twins.right
  have agree (opcode : String) : (Machine.standard depth').handler? opcode =
      (Machine.standard depth).handler? opcode := rfl
  rw [Machine.attempt_top _ top, Machine.attempt_top _ top', found, found']
  simp only [same.name, same.body, same'.name, same'.body, ← twins.pointer, agree]
  cases fetched : g.body[f.pointer]? with
  | none => exact ⟨rfl, f, below, f', below', top, top', home, home', twins⟩
  | some i =>
    have among : i.opcode ∈ Opcodes.frameLocal := secluded i (List.mem_of_getElem? fetched)
    have executes : Executes p s f below r i := ⟨top, found, same.body ▸ fetched⟩
    have passed : (s.advance f).calls.items = f.advance :: below := Stack.items_replaceTop top _
    have passed' : (s'.advance f').calls.items = f'.advance :: below' :=
      Stack.items_replaceTop top' _
    simp only
    cases known : (Machine.standard depth).handler? i.opcode with
    | none => exact ⟨rfl, _, _, _, _, passed, passed', home, home', twins.advance⟩
    | some handler =>
      obtain ⟨plan, follows, decides⟩ := handler?_secluded among known
      have concerted := decides g p f.advance p' f'.advance i (s.advance f).heap
        (s'.advance f').heap
        twins.advance rfl
      simp only
      rw [follows p i _ _ _ passed, follows p' i _ _ _ passed']
      generalize plan p i f.advance (s.advance f).heap = x at concerted
      generalize plan p' i f'.advance (s'.advance f').heap = x' at concerted
      cases concerted with
      | refuses e => exact ⟨rfl, _, _, _, _, passed, passed', home, home', twins.advance⟩
      | passes =>
        exact ⟨rfl, _, _, _, _, Stack.items_replaceTop passed _, Stack.items_replaceTop passed' _,
          home, home', twins.advance⟩
      | writes q v =>
        exact ⟨rfl, _, _, _, _, Stack.items_replaceTop passed _, Stack.items_replaceTop passed' _,
          home, home', twins.advance.put q v⟩
      | jumps index =>
        exact ⟨rfl, _, _, _, _, Stack.items_replaceTop passed _, Stack.items_replaceTop passed' _,
          home, home', twins.advance.jump index⟩
      | @departs _ x due => exact absurd ⟨f, below, r, i, executes, due⟩ (stays x)

end Mirrors

end State

end Steps

end RegisterMachine
