import RegisterMachine.Proofs.Arithmetic
import RegisterMachine.Proofs.CallReturn
import RegisterMachine.Proofs.Spelling

/-!
Methods are functions with a name made of two. A method call looks at the object that it is made on
for the first half of the name, and then it is a call of the function with the same arguments; the
frame that waits for it takes what it is given as though it had called that function. So, as long as
the objects are of one type, a call of the function can take the place of the method call.
-/

namespace RegisterMachine

def Fault.Anonymous (e : Fault) : Prop := ∀ opcode, e.spell opcode = e

/-- A call of the function of that name, over the same registers. -/
def Instruction.asCall (i : Instruction) (name : String) : Instruction :=
  { i with opcode := "fn-call", payload := .name name }

def Program.exchange (p : Program) (id : RoutineId) (index : Nat) (j : Instruction) : Program :=
  { p with routines := p.routines.modify id fun r => { r with body := r.body.set index j } }

section Calling

variable {p : Program} {s t : State} {f : Frame} {below : List Frame} {i j : Instruction}
  {name : String} {args : List Value} {e : Fault}

theorem Frame.mapM_get_anonymous (f : Frame) (registers : List Register) :
    FailsAs Fault.Anonymous (registers.mapM f.get) := by
  induction registers with
  | nil => exact .ok []
  | cons r rest ih =>
    rw [List.mapM_cons]
    refine .bind ?_ fun v _ => ih.bind fun vs _ => .ok (v :: vs)
    unfold get
    split
    · exact .ok _
    · exact .error fun _ => rfl

theorem Plan.callee_anonymous (p : Program) (name : String) (args : List Value) :
    FailsAs Fault.Anonymous (callee p name args) := by
  refine .bind ?_ fun id _ => .bind ?_ fun callee _ => .ok _
  · unfold Program.find
    split
    · exact .ok _
    · exact .error fun _ => rfl
  · refine .bind ?_ fun r _ => ?_
    · unfold Program.routine
      split
      · exact .ok _
      · exact .error fun _ => rfl
    · dsimp only
      split
      · exact .error fun _ => rfl
      · exact .ok _

theorem Opcodes.callFunction_anonymous (top : s.calls.items = f :: below)
    (named : i.name = .ok name) (failed : callFunction p i s = .error e t) : e.Anonymous := by
  rw [callFunction, Effect.readAll_bind top] at failed
  cases read : i.inputs.mapM f.get with
  | error e' =>
    simp only [read, EStateM.Result.error.injEq] at failed
    exact failed.1 ▸ f.mapM_get_anonymous i.inputs e' read
  | ok args =>
    simp only [read, named, Effect.check_bind, call_run p name args i s f] at failed
    cases decided : Plan.callee p name args with
    | error e' =>
      simp only [decided, EStateM.Result.error.injEq] at failed
      exact failed.1 ▸ Plan.callee_anonymous p name args e' decided
    | ok d =>
      obtain ⟨id, -, decided'⟩ := bind_eq_ok_iff.mp decided
      obtain ⟨callee, -, same⟩ := bind_eq_ok_iff.mp decided'
      obtain rfl := Except.ok.inj same
      simp only [decided] at failed
      obtain ⟨-, rfl, -⟩ := push_error failed
      exact fun _ => rfl

theorem Opcodes.callMethod_eq {id : ObjectId} {m : String} (top : s.calls.items = f :: below)
    (receiver : f.operandAs .object i 0 = .ok id) (named : i.name = .ok m) :
    callMethod p i s =
      callFunction p (i.asCall (methodName (s.heap.object id).shape.name m)) s := by
  simp only [callMethod, callFunction, Effect.readAs_bind _ top, receiver, Effect.heap_bind, named,
    Effect.check_bind, Effect.readAll_bind top]
  rfl

end Calling

section Exchange

variable {p : Program} {s : State} {f : Frame} {below : List Frame} {r : Routine}
  {i j : Instruction} {id : RoutineId} {index : Nat}

theorem Program.outline_exchange (placed : p.fetch? id index = some i)
    (same : j.outline = i.outline) : (p.exchange id index j).outline = p.outline := by
  obtain ⟨r, found, fetched⟩ := Option.bind_eq_some_iff.mp placed
  refine outline_eq fun id' => ?_
  rw [List.getElem?_modify]
  split
  · next here =>
    rw [← here, found]
    refine congrArg some (Routine.outline_eq fun k => ?_)
    rw [List.getElem?_set]
    split
    · next place =>
      rw [← place, fetched, if_pos (List.getElem?_eq_some_iff.mp fetched).1]
      exact congrArg some same
    · rfl
  · rw [id_map']

theorem Executes.fetch? (executes : Executes p s f below r i) :
    p.fetch? f.routine f.pointer = some i := by
  rw [Program.fetch?, Program.routine_eq_ok_iff.mp executes.found]
  exact executes.fetched

theorem Executes.exchange (executes : Executes p s f below r i) (id : RoutineId) (index : Nat)
    (j : Instruction) : ∃ r', Executes (p.exchange id index j) s f below r'
      (if f.routine = id ∧ f.pointer = index then j else i) := by
  have found := Program.routine_eq_ok_iff.mp executes.found
  have inside : f.pointer < r.body.length := (List.getElem?_eq_some_iff.mp executes.fetched).1
  by_cases here : f.routine = id
  · refine ⟨{ r with body := r.body.set index j }, executes.top, ?_, ?_⟩
    · rw [Program.routine_eq_ok_iff]
      simp [Program.exchange, here, here ▸ found]
    · by_cases place : index = f.pointer
      · simp [here, place, inside]
      · simp [here, place, Ne.symm place, executes.fetched]
  · refine ⟨r, executes.top, ?_, ?_⟩
    · rw [Program.routine_eq_ok_iff]
      simp [Program.exchange, Ne.symm here, found]
    · rw [if_neg fun both => here both.1]
      exact executes.fetched

end Exchange

/-- The steps from a call up to its return, all of them successful: so many, and the last one brings
the stack back to the depth that it had. -/
structure Machine.ComesBack (m : Machine) (p : Program) (s : State) (n : Nat) : Prop where
  succeeds : ∀ k ≤ n, (m.attempt p (m.after p s k)).1 = .ok true
  deeper : ∀ k, 1 ≤ k → k ≤ n → s.calls.depth < (m.after p s k).calls.depth
  back : (m.after p s (n + 1)).calls.depth = s.calls.depth

/-- If the executing frame is at that place, its register holds an object of that type. -/
def State.Receives (s : State) (id : RoutineId) (index : Nat) (q : Register) (type : String) :
    Prop :=
  ∀ f below, s.calls.items = f :: below → f.routine = id → f.pointer = index →
    ∃ receiver, f.registers[q]? = some (.object receiver) ∧
      (s.heap.object receiver).shape.name = type

/-- What a return leaves of the frames `f` and `below` that it comes back to: the frame has passed
its call, and if there is a value it is in the register `out` and the last one returned. -/
inductive Frame.Answered (f : Frame) (below : List Frame) (out : Option Register) :
    List Frame → Prop where
  | plain : f.Answered below out (f.advance :: below)
  | value {q} (v : Value) (output : out = some q) (inside : q < f.registers.size) :
      f.Answered below out ({ f.advance with
        registers := f.registers.set q v inside, returned := some v } :: below)

section Steps

open Opcodes

variable {p : Program} {s : State} {f : Frame} {below : List Frame} {r : Routine} {i : Instruction}
  {q : Register} {receiver : ObjectId} {m : String} {depth n : Nat}

theorem Machine.ComesBack.answered (returns : (standard depth).ComesBack p s n)
    (executes : Executes p s f below r i) (call : i.opcode ∈ calls) :
    f.Answered below i.output ((standard depth).after p s (n + 1)).calls.items := by
  obtain ⟨succeeds, deeper, back⟩ := returns
  have level : s.calls.depth = (f.advance :: below).length := by rw [Stack.depth, executes.top]; rfl
  obtain ⟨g, others, r', j, last, move⟩ := move_of_success (succeeds n (Nat.le_refl n))
  have covered : f.advance :: below <:+ others := by
    cases n with
    | zero =>
      -- the call itself goes deeper
      obtain ⟨rfl, rfl, rfl, rfl⟩ := last.unique executes
      obtain ⟨callee, frames, -⟩ := move.called call
      have deep : ((standard depth).after p s 1).calls.depth = below.length + 2 :=
        congrArg List.length frames
      rw [deep, level, List.length_cons] at back
      omega
    | succ n =>
      obtain ⟨x, more, frames, covered⟩ :=
        after_covers executes call succeeds deeper n (Nat.lt_succ_self n)
      obtain ⟨rfl, rfl⟩ := List.cons.inj (frames.symm.trans last.top)
      exact covered
  obtain ⟨-, frames⟩ | ⟨-, v, y, y', rest, -, split, received, frames⟩ :=
    move.uncovers covered (back.trans level)
  · exact frames ▸ .plain
  · obtain ⟨rfl, rfl⟩ := List.cons.inj split
    obtain ⟨out, inside, output, rfl⟩ := executes.receive_eq_ok received
    exact frames ▸ .value v output inside

theorem Machine.instead_asCall (top : s.calls.items = f :: below) (opcode : i.opcode = "obj-invoke")
    (first : i.inputs[0]? = some q) (held : f.registers[q]? = some (.object receiver))
    (named : i.name = .ok m) : (standard depth).instead p s f r i = spell "obj-invoke"
      ((standard depth).instead p s f r
        (i.asCall (methodName (s.heap.object receiver).shape.name m))) := by
  have known : (standard depth).handler? i.opcode = some callMethod := opcode ▸ rfl
  have passed : (s.advance f).calls.items = f.advance :: below := Stack.items_replaceTop top _
  have found : f.advance.operandAs .object i 0 = .ok receiver :=
    Frame.operandAs_advance first held .object
  let j := i.asCall (methodName (s.heap.object receiver).shape.name m)
  have known' : (standard depth).handler? j.opcode = some callFunction := rfl
  rw [instead_handler known, instead_handler known', spell_finish, opcode]
  refine congrArg (finish ⟨r.name, f.pointer, "obj-invoke"⟩) ?_
  refine (callMethod_eq passed found named).trans ?_
  change callFunction p j (s.advance f) = Effect.spell _ (callFunction p j (s.advance f))
  cases called : callFunction p j (s.advance f) with
  | ok u t => rfl
  | error e t => exact (congrArg (EStateM.Result.error · t)
      (callFunction_anonymous passed rfl called "obj-invoke")).symm

theorem Machine.attempt_exchange {id : RoutineId} {index : Nat} {type : String}
    (placed : p.fetch? id index = some i) (opcode : i.opcode = "obj-invoke")
    (first : i.inputs[0]? = some q) (named : i.name = .ok m) (receives : s.Receives id index q type)
    (o : String) : spell o ((standard depth).attempt
        (p.exchange id index (i.asCall (methodName type m))) s) =
      spell o ((standard depth).attempt p s) := by
  have outline : (p.exchange id index (i.asCall (methodName type m))).outline = p.outline :=
    Program.outline_exchange placed rfl
  -- the programs differ at one place, so only a step that executes it can tell them apart
  by_cases going : ∃ f below r k, Executes p s f below r k
  · obtain ⟨f, below, r, k, executes⟩ := going
    obtain ⟨r', executes'⟩ := executes.exchange id index (i.asCall (methodName type m))
    rw [executes.attempt_outline outline executes', executes.attempt_instead]
    split
    · next here =>
      obtain ⟨rfl, rfl⟩ := here
      obtain ⟨receiver, held, rfl⟩ := receives f below executes.top rfl rfl
      obtain rfl : i = k := Option.some.inj (placed.symm.trans executes.fetch?)
      rw [instead_asCall executes.top opcode first held named, spell_spell]
    · rfl
  · rw [attempt_outline_idle outline fun f below r k executes => going ⟨f, below, r, k, executes⟩]

theorem Move.called_method (move : Move p s f below i (.ok true) t)
    (opcode : i.opcode = "obj-invoke") (first : i.inputs[0]? = some q)
    (held : f.registers[q]? = some (.object receiver)) (named : i.name = .ok m) : ∃ callee args id,
      t.calls.items = callee :: f.advance :: below ∧
        p.find (methodName (s.heap.object receiver).shape.name m) = .ok id ∧
        i.inputs.mapM f.get = .ok args ∧ Frame.enter p id args = .ok callee ∧
        callee.registers[0]? = some (.object receiver) := by
  obtain ⟨callee, frames, entered⟩ := move.called (opcode ▸ by decide)
  obtain ⟨name, args, id, calls, found, read, entered⟩ := entered (opcode ▸ by decide)
  obtain ⟨v, held', filled⟩ := (Frame.enter_registers read entered).1 0 q first
  obtain rfl : Value.object receiver = v := Option.some.inj (held.symm.trans held')
  refine ⟨callee, args, id, frames, ?_, read, entered, filled⟩
  cases calls with
  | function other => exact absurd (opcode.symm.trans other) (by decide)
  | method _ receives named' =>
    have receives' : f.operandAs .object i 0 = .ok receiver :=
      Frame.operandAs_advance first held .object
    obtain rfl := Except.ok.inj (receives'.symm.trans receives)
    obtain rfl := Except.ok.inj (named.symm.trans named')
    exact found

/-- A method call on an object comes to what a call of the function of both names would in its
place, with the receiver as first argument, and so does the run after it. On anything but an object
it fails. -/
theorem Machine.method_calls (reached : (standard depth).Reachable p s)
    (executes : Executes p s f below r i) (opcode : i.opcode = "obj-invoke")
    (named : i.name = .ok m) (first : i.inputs[0]? = some q) :
    ((∃ v, f.registers[q]? = some v) ∨ f.Uncounted p) ∧ ∀ v, f.registers[q]? = some v →
    (∀ receiver, v = .object receiver →
      let type := (s.heap.object receiver).shape.name
      let j := i.asCall (type ++ "$" ++ m)
      let p' := p.exchange f.routine f.pointer j
      (standard depth).attempt p s = spell "obj-invoke" ((standard depth).instead p s f r j) ∧
        (standard depth).attempt p' s = (standard depth).instead p s f r j ∧
        (((standard depth).attempt p s).1 = .ok true → ∃ callee args id,
          ((standard depth).attempt p s).2.calls.items = callee :: f.advance :: below ∧
            p.find (type ++ "$" ++ m) = .ok id ∧ i.inputs.mapM f.get = .ok args ∧
            Frame.enter p id args = .ok callee ∧ callee.registers[0]? = some v) ∧
        (∀ w n, w = p ∨ w = p' → (standard depth).ComesBack w s n →
          f.Answered below i.output ((standard depth).after w s (n + 1)).calls.items) ∧
        Effect.deliver p' = Effect.deliver p ∧
        ∀ n, (∀ k < n, ((standard depth).after p s k).Receives f.routine f.pointer q type) →
          (standard depth).after p' s n = (standard depth).after p s n ∧
            ∀ o, Prod.map (Ending.spell o) id ((standard depth).runFor p' n s) =
              Prod.map (Ending.spell o) id ((standard depth).runFor p n s)) ∧
    (v.kind ≠ .object → (standard depth).attempt p s =
      (.error ⟨.kindMismatch "obj-invoke" q .object v.kind,
        some ⟨r.name, f.pointer, "obj-invoke"⟩⟩, s.advance f)) := by
  refine ⟨executes.operand_or_uncounted reached first, fun v held => ⟨?_, fun other => ?_⟩⟩
  · rintro receiver rfl
    intro type j p'
    have call : i.opcode ∈ calls := opcode ▸ by decide
    have call' : j.opcode ∈ calls := (by decide : "fn-call" ∈ calls)
    have outline : p'.outline = p.outline := Program.outline_exchange executes.fetch? rfl
    obtain ⟨r', executes'⟩ := executes.exchange f.routine f.pointer j
    rw [if_pos ⟨rfl, rfl⟩] at executes'
    refine ⟨?_, executes.attempt_outline outline executes', fun success => ?_, ?_, ?_, ?_⟩
    · rw [executes.attempt_instead, instead_asCall executes.top opcode first held named]
      rfl
    · have move := executes.move depth
      rw [success] at move
      exact move.called_method opcode first held named
    · rintro w n (rfl | rfl) returns
      · exact returns.answered executes call
      · exact (returns.answered executes' call' :)
    · rw [← Effect.deliver_outline, outline, Effect.deliver_outline]
    · intro n receives
      have same (o : String) (k : Nat) (within : k < n) :
          spell o ((standard depth).attempt p' ((standard depth).after p s k)) =
            spell o ((standard depth).attempt p ((standard depth).after p s k)) :=
        attempt_exchange executes.fetch? opcode first named (receives k within) o
      exact ⟨after_spell (same ""), fun o => runFor_spell (same o)⟩
  · have known : (standard depth).handler? i.opcode = some callMethod := opcode ▸ rfl
    have none : Representation.object.ofValue? v = none := by
      cases v with
      | object receiver => exact absurd rfl other
      | _ => rfl
    have refused : f.advance.operandAs .object i 0 =
        .error (.kindMismatch "obj-invoke" q .object v.kind) := by
      rw [Frame.operandAs_advance first held, none, opcode]
      rfl
    rw [executes.attempt_refused known follows_callMethod (by rw [Plan.callMethod, refused]; rfl),
      opcode]

end Steps

theorem State.receiver_returned :
    let create : Instruction :=
      { opcode := "obj-create", output := some 0, payload := .descriptor ⟨"", []⟩ }
    let i : Instruction :=
      { opcode := "obj-invoke", inputs := [0], output := some 1, payload := .name "$" }
    let r : Routine := ⟨"main", [create, i, Demo.ret], {}⟩
    let p : Program := ⟨[r, ⟨"$$", [Demo.retVal 0], {}⟩], {}⟩
    let f : Frame := ⟨0, "main", #[.object 0, .unset], 1, none, none⟩
    let s : State := { calls := ⟨[f], 1⟩, heap := ({} : Heap).addObject ⟨"", []⟩, dispatched := 1 }
    let answered : Frame := { f.advance with
      registers := #[.object 0, .object 0], returned := some (.object 0) }
    (Machine.standard 2).Reachable p s ∧ Executes p s f [] r i ∧
      (Machine.standard 2).ComesBack p s 1 ∧
      ((Machine.standard 2).after (p.exchange 0 1 (i.asCall "$$")) s 2).calls.items =
        [answered] := by
  intro create i r p f s answered
  have started : (Machine.standard 2).start p {} =
      .ok { calls := ⟨[⟨0, "main", #[.unset, .unset], 0, none, none⟩], 1⟩ } := rfl
  have reached : (Machine.standard 2).Reachable p s := (Machine.Reachable.start started).step
  have executes : Executes p s f [] r i := ⟨rfl, rfl, rfl⟩
  have returns : (Machine.standard 2).ComesBack p s 1 := by
    refine ⟨fun k within => ?_, fun k begun within => ?_, by decide +kernel⟩
    · match k, within with
      | 0, _ | 1, _ => rfl
    · obtain rfl : k = 1 := by omega
      decide +kernel
  have receives : ∀ k < 2, ((Machine.standard 2).after p s k).Receives 0 1 0 "" := by
    intro k within
    obtain rfl | rfl : k = 0 ∨ k = 1 := by omega
    · intro g below top _ _
      obtain ⟨rfl, -⟩ := List.cons.inj (top.symm.trans executes.top)
      exact ⟨0, rfl, rfl⟩
    · intro g below top main _
      obtain ⟨rfl, -⟩ := List.cons.inj (top.symm.trans
        (rfl : _ = (⟨1, "$$", #[.object 0], 0, none, none⟩ : Frame) :: [f.advance]))
      exact absurd main (by decide)
  obtain ⟨-, calls⟩ := Machine.method_calls reached executes rfl rfl (q := 0) rfl
  obtain ⟨-, -, -, -, -, same⟩ := (calls (.object 0) rfl).1 0 rfl
  refine ⟨reached, executes, returns, ?_⟩
  exact (congrArg (·.calls.items) (same 2 receives).1).trans rfl

end RegisterMachine
