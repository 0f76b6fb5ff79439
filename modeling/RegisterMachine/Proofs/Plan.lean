import RegisterMachine.Proofs.Reading

/-!
The plan of each opcode: its deed as a function of the program, the instruction, the executing
frame and the shared contents. A handler follows its plan from every state that has an executing
frame, so neither the frames below nor the room above them nor the sink has a say in what an
instruction does, only in how its deed ends.
-/

namespace RegisterMachine

abbrev Plan := Program → Instruction → Frame → Heap → Except Fault Deed

/-- From every state with an executing frame the handler carries out the deed of the plan. -/
def Follows (handler : Handler) (plan : Plan) : Prop :=
  ∀ p i s f below, s.calls.items = f :: below →
    handler p i s = match plan p i f s.heap with
      | .ok d => d.perform p i f s
      | .error e => .error e s

namespace Plan

variable {α β : Type}

def computing (value : Instruction → Frame → Heap → Except Fault Value) : Plan :=
  fun _ i f h => do
    let v ← value i f h
    let r ← f.outlet i
    pure (.change (.register r v))

def unary (source : Representation α) (target : Representation β) (g : α → β) :
    Instruction → Frame → Heap → Except Fault Value := fun i f _ => do
  let a ← f.operandAs source i 0
  pure (target.toValue (g a))

def binary (source : Representation α) (target : Representation β) (g : α → α → β) :
    Instruction → Frame → Heap → Except Fault Value := fun i f _ => do
  let a ← f.operandAs source i 0
  let b ← f.operandAs source i 1
  pure (target.toValue (g a b))

def division (rep : Representation α) (g : α → α → Option α) :
    Instruction → Frame → Heap → Except Fault Value := fun i f _ => do
  let a ← f.operandAs rep i 0
  let b ← f.operandAs rep i 1
  match g a b with
  | some c => pure (rep.toValue c)
  | none => throw (.divisionByZero i.opcode)

def constant : Instruction → Frame → Heap → Except Fault Value := fun i _ _ =>
  match Value.ofPayload? i.payload with
  | some v => pure v
  | none => throw (.payloadMismatch i.opcode .scalar i.payload.kind)

def copy : Instruction → Frame → Heap → Except Fault Value := fun i f _ => f.operand i 0

def loadElement : Instruction → Frame → Heap → Except Fault Value := fun i f h => do
  let id ← f.operandAs .array i 0
  let index ← f.operandAs .int i 1
  h.load id index.toInt

def arrayLength : Instruction → Frame → Heap → Except Fault Value := fun i f h => do
  let id ← f.operandAs .array i 0
  pure (.int (Int32.ofInt (min (h.elements id).size Int32.maxValue.toInt)))

def loadField : Instruction → Frame → Heap → Except Fault Value := fun i f h => do
  let id ← f.operandAs .object i 0
  let field ← i.name
  h.getField id field

def createArray : Plan := fun _ i f _ => do
  let length ← f.operandAs .int i 0
  if length.toInt < 0 then throw (.indexOutOfBounds length.toInt 0)
  else
    let r ← f.outlet i
    pure (.change (.array r length.toInt.toNat))

def storeElement : Plan := fun _ i f h => do
  let id ← f.operandAs .array i 0
  let index ← f.operandAs .int i 1
  let v ← f.operand i 2
  let place ← h.place id index.toInt
  pure (.change (.element id place v))

def createObject : Plan := fun _ i f _ => do
  let shape ← i.descriptor
  let r ← f.outlet i
  pure (.change (.object r shape))

def storeField : Plan := fun _ i f h => do
  let id ← f.operandAs .object i 0
  let v ← f.operand i 1
  let field ← i.name
  let place ← h.fieldPlace id field
  pure (.change (.cell id place v))

def createCoroutine : Plan := fun p i f _ => do
  let name ← i.name
  let id ← p.find name
  let parked ← Frame.enter p id []
  let r ← f.outlet i
  pure (.change (.coroutine r name parked))

def label : Plan := fun _ _ _ _ => pure (.change .nothing)

def jump : Plan := fun p i f _ => do
  let label ← i.name
  let r ← p.routine f.routine
  let index ← Opcodes.target r label
  pure (.change (.jump index))

def jumpIf : Plan := fun p i f h => do
  if ← f.operandAs .bool i 0 then jump p i f h else label p i f h

def printLine : Plan := fun _ i f _ => do
  let v ← f.operand i 0
  pure (.print v)

def callee (p : Program) (name : String) (args : List Value) : Except Fault Deed := do
  let id ← p.find name
  let callee ← Frame.enter p id args
  pure (.enter callee)

def callFunction : Plan := fun p i f _ => do
  let args ← i.inputs.mapM f.get
  let name ← i.name
  callee p name args

def callMethod : Plan := fun p i f h => do
  let id ← f.operandAs .object i 0
  let method ← i.name
  let args ← i.inputs.mapM f.get
  callee p (Opcodes.methodName (h.object id).shape.name method) args

def leave : Plan := fun _ _ _ _ => pure .leave

def leaveWith : Plan := fun _ i f _ => do
  let v ← f.operand i 0
  pure (.handBack v)

def resume : Plan := fun _ i f h => do
  let id ← f.operandAs .coroutine i 0
  match (h.coroutine id).parked with
  | none => throw (.coroutineUnavailable (h.coroutine id).name)
  | some parked => pure (.resume id parked)

def yield : Plan := fun _ i f _ => do
  let v ← f.operand i 0
  pure (.yield v)

def crash : Plan := fun _ _ f _ => throw (.crash f.name)

end Plan

section Follows

open Effect

variable {α β : Type}

theorem perform_storing (p : Program) (i : Instruction) {s : State} {f : Frame}
    {below : List Frame} (top : s.calls.items = f :: below) (c : Change)
    (keeps : c.frame s.heap f = f) :
    (Deed.change c).perform p i f s = .ok () { s with heap := c.heap s.heap } := by
  simp only [Deed.perform, keeps, Stack.replaceTop_self top]

theorem follows_computing {handler : Handler}
    {value : Instruction → Frame → Heap → Except Fault Value}
    (run : ∀ p i s f below, s.calls.items = f :: below →
      handler p i s = (check (value i f s.heap) >>= write i) s) :
    Follows handler (Plan.computing value) := by
  intro p i s f below top
  rw [run p i s f below top, check_bind]
  unfold Plan.computing
  cases value i f s.heap with
  | error e => rfl
  | ok v =>
    simp only [write_run top, ok_bind]
    cases f.outlet i <;> rfl

theorem follows_unary (source : Representation α) (target : Representation β) (g : α → β) :
    Follows (Opcodes.unary source target g) (.computing (Plan.unary source target g)) := by
  refine follows_computing fun p i s f below top => ?_
  simp only [Opcodes.unary, Plan.unary, readAs_bind _ top]
  cases f.operandAs source i 0 <;> rfl

theorem follows_binary (source : Representation α) (target : Representation β) (g : α → α → β) :
    Follows (Opcodes.binary source target g) (.computing (Plan.binary source target g)) := by
  refine follows_computing fun p i s f below top => ?_
  simp only [Opcodes.binary, Plan.binary, readAs_bind _ top]
  cases f.operandAs source i 0 with
  | error e => rfl
  | ok a => cases f.operandAs source i 1 <;> rfl

theorem follows_division (rep : Representation α) (g : α → α → Option α) :
    Follows (Opcodes.division rep g) (.computing (Plan.division rep g)) := by
  refine follows_computing fun p i s f below top => ?_
  simp only [Opcodes.division, Plan.division, readAs_bind _ top]
  cases f.operandAs rep i 0 with
  | error e => rfl
  | ok a =>
    cases f.operandAs rep i 1 with
    | error e => rfl
    | ok b => simp only [ok_bind]; cases g a b <;> rfl

theorem follows_constant : Follows Opcodes.constant (.computing Plan.constant) := by
  refine follows_computing fun p i s f below top => ?_
  simp only [Opcodes.constant, Plan.constant]
  cases Value.ofPayload? i.payload <;> rfl

theorem follows_loadElement : Follows Opcodes.loadElement (.computing Plan.loadElement) := by
  refine follows_computing fun p i s f below top => ?_
  simp only [Opcodes.loadElement, Plan.loadElement, readAs_bind _ top, heap_bind, check_bind]
  cases f.operandAs .array i 0 with
  | error e => rfl
  | ok id => cases f.operandAs .int i 1 <;> rfl

theorem follows_arrayLength : Follows Opcodes.arrayLength (.computing Plan.arrayLength) := by
  refine follows_computing fun p i s f below top => ?_
  simp only [Opcodes.arrayLength, Plan.arrayLength, readAs_bind _ top, heap_bind]
  cases f.operandAs .array i 0 <;> rfl

theorem follows_loadField : Follows Opcodes.loadField (.computing Plan.loadField) := by
  refine follows_computing fun p i s f below top => ?_
  simp only [Opcodes.loadField, Plan.loadField, readAs_bind _ top, heap_bind, check_bind]
  cases f.operandAs .object i 0 with
  | error e => rfl
  | ok id => cases i.name <;> rfl

theorem follows_copy : Follows Opcodes.copy (.computing Plan.copy) := by
  refine follows_computing fun p i s f below top => ?_
  simp only [Opcodes.copy, Plan.copy, read_bind top, check_bind]
  cases f.operand i 0 <;> rfl

theorem follows_createArray : Follows Opcodes.createArray .createArray := by
  intro p i s f below top
  simp only [Opcodes.createArray, Plan.createArray, readAs_bind _ top]
  cases f.operandAs .int i 0 with
  | error e => rfl
  | ok length =>
    by_cases negative : length.toInt < 0
    · simp only [ok_bind, negative, if_true]
      rfl
    · simp only [ok_bind, negative, if_false, heap_bind, write_bind top]
      cases f.outlet i <;> rfl

theorem follows_storeElement : Follows Opcodes.storeElement .storeElement := by
  intro p i s f below top
  simp only [Opcodes.storeElement, Plan.storeElement, readAs_bind _ top, read_bind top, heap_bind,
    check_bind]
  cases f.operandAs .array i 0 with
  | error e => rfl
  | ok id =>
    cases f.operandAs .int i 1 with
    | error e => rfl
    | ok index =>
      cases f.operand i 2 with
      | error e => rfl
      | ok v =>
        simp only [ok_bind]
        cases s.heap.place id index.toInt with
        | error e => rfl
        | ok place => exact (perform_storing p i top (.element id place v) rfl).symm

theorem follows_storeField : Follows Opcodes.storeField .storeField := by
  intro p i s f below top
  simp only [Opcodes.storeField, Plan.storeField, readAs_bind _ top, read_bind top, heap_bind,
    check_bind]
  cases f.operandAs .object i 0 with
  | error e => rfl
  | ok id =>
    cases f.operand i 1 with
    | error e => rfl
    | ok v =>
      cases i.name with
      | error e => rfl
      | ok field =>
        simp only [ok_bind]
        cases s.heap.fieldPlace id field with
        | error e => rfl
        | ok place => exact (perform_storing p i top (.cell id place v) rfl).symm

theorem follows_createObject : Follows Opcodes.createObject .createObject := by
  intro p i s f below top
  simp only [Opcodes.createObject, Plan.createObject, check_bind, heap_bind, write_bind top]
  cases i.descriptor with
  | error e => rfl
  | ok shape => simp only [ok_bind]; cases f.outlet i <;> rfl

theorem follows_createCoroutine : Follows Opcodes.createCoroutine .createCoroutine := by
  intro p i s f below top
  simp only [Opcodes.createCoroutine, Plan.createCoroutine, check_bind, heap_bind, write_bind top]
  cases i.name with
  | error e => rfl
  | ok name =>
    simp only [ok_bind]
    cases p.find name with
    | error e => rfl
    | ok id =>
      simp only [ok_bind]
      cases Frame.enter p id [] with
      | error e => rfl
      | ok parked => simp only [ok_bind]; cases f.outlet i <;> rfl

theorem follows_label : Follows Opcodes.label .label := by
  intro p i s f below top
  exact (perform_storing p i top .nothing rfl).symm

theorem follows_jump : Follows Opcodes.jump .jump := by
  intro p i s f below top
  simp only [Opcodes.jump, Plan.jump, check_bind, frame_bind top]
  cases i.name with
  | error e => rfl
  | ok label =>
    simp only [ok_bind]
    cases p.routine f.routine with
    | error e => rfl
    | ok r => simp only [ok_bind]; cases Opcodes.target r label <;> rfl

theorem follows_jumpIf : Follows Opcodes.jumpIf .jumpIf := by
  intro p i s f below top
  simp only [Opcodes.jumpIf, Plan.jumpIf, readAs_bind _ top]
  cases f.operandAs .bool i 0 with
  | error e => rfl
  | ok taken =>
    cases taken with
    | false => exact follows_label p i s f below top
    | true => exact follows_jump p i s f below top

theorem follows_printLine : Follows Opcodes.printLine .printLine := by
  intro p i s f below top
  simp only [Opcodes.printLine, Plan.printLine, read_bind top, heap_bind]
  cases f.operand i 0 <;> rfl

theorem call_run (p : Program) (name : String) (args : List Value) (i : Instruction) (s : State)
    (f : Frame) : call p name args s = match Plan.callee p name args with
      | .ok d => d.perform p i f s
      | .error e => .error e s := by
  simp only [call, Plan.callee, check_bind]
  cases p.find name with
  | error e => rfl
  | ok id => simp only [ok_bind]; cases Frame.enter p id args <;> rfl

theorem follows_callFunction : Follows Opcodes.callFunction .callFunction := by
  intro p i s f below top
  simp only [Opcodes.callFunction, Plan.callFunction, readAll_bind top, check_bind]
  cases i.inputs.mapM f.get with
  | error e => rfl
  | ok args =>
    simp only [ok_bind]
    cases i.name with
    | error e => rfl
    | ok name => exact call_run p name args i s f

theorem follows_callMethod : Follows Opcodes.callMethod .callMethod := by
  intro p i s f below top
  simp only [Opcodes.callMethod, Plan.callMethod, readAs_bind _ top, heap_bind, check_bind,
    readAll_bind top]
  cases f.operandAs .object i 0 with
  | error e => rfl
  | ok id =>
    simp only [ok_bind]
    cases i.name with
    | error e => rfl
    | ok method =>
      simp only [ok_bind]
      cases i.inputs.mapM f.get with
      | error e => rfl
      | ok args => exact call_run p _ args i s f

theorem follows_leave : Follows Opcodes.leave .leave := by
  intro p i s f below top
  simp only [Opcodes.leave, Plan.leave, pop_bind top]
  rfl

theorem follows_leaveWith : Follows Opcodes.leaveWith .leaveWith := by
  intro p i s f below top
  simp only [Opcodes.leaveWith, Plan.leaveWith, read_bind top, pop_bind top]
  cases f.operand i 0 <;> rfl

theorem follows_resume : Follows Opcodes.resume .resume := by
  intro p i s f below top
  simp only [Opcodes.resume, Plan.resume, readAs_bind _ top, heap_bind]
  cases f.operandAs .coroutine i 0 with
  | error e => rfl
  | ok id =>
    simp only [ok_bind]
    cases (s.heap.coroutine id).parked <;> rfl

theorem follows_yield : Follows Opcodes.yield .yield := by
  intro p i s f below top
  simp only [Opcodes.yield, Plan.yield, read_bind top, pop_bind top]
  cases f.operand i 0 with
  | error e => rfl
  | ok v =>
    simp only [ok_bind, Deed.perform, Heap.rest]
    cases f.home <;> rfl

theorem follows_crash : Follows Opcodes.crash .crash := by
  intro p i s f below top
  simp only [Opcodes.crash, Plan.crash, frame_bind top]
  rfl

end Follows

end RegisterMachine
