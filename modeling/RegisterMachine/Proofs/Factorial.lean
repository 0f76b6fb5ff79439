import RegisterMachine.Demo
import RegisterMachine.Proofs.Footprint
import RegisterMachine.Proofs.Truthful
import RegisterMachine.Proofs.WellFormed
import Mathlib.Data.Nat.Factorial.Basic

/-!
The factorial function, run by the machine. An activation compares its argument with 2, and either
returns 1 or calls itself and multiplies what it is given. So a call takes as many frames as the
argument says, one at least, and the induction is on their number: where there is room for them the
call comes back with the product, and where there is none it fails at the first that is too many.
-/

namespace RegisterMachine

namespace Long

variable {n : Int64} {a : Nat}

theorem mul_ofNat (value : n.toInt = a) (b : Nat) : n * Int64.ofNat b = Int64.ofNat (a * b) := by
  refine Int64.toInt.inj ?_
  rw [Int64.toInt_mul, Int64.toInt_ofNat', Int64.toInt_ofNat', value, Int64.size, Int.mul_bmod_bmod,
    Int.natCast_mul]

theorem toInt_sub_one (positive : 0 < n.toInt) : (n - 1).toInt = n.toInt - 1 := by
  have one : (1 : Int64).toInt = 1 := by decide
  have below := n.toInt_lt
  rw [Int64.toInt_sub, one, Int.bmod_eq_of_le (by omega) (by omega)]

end Long

section Calls

variable {p : Program} {s : State} {f g : Frame} {below : List Frame} {r : Routine}
  {i : Instruction} {depth : Nat}

theorem Executes.room_advance (executes : Executes p s f below r i) :
    (s.advance f).calls.room = s.calls.room := by
  simp only [State.advance, Stack.replaceTop, executes.top]

theorem Executes.attempt_call {name : String} {args : List Value} {id : RoutineId}
    (executes : Executes p s f below r i) (opcode : i.opcode = "fn-call")
    (named : i.name = .ok name) (read : i.inputs.mapM f.get = .ok args)
    (found : p.find name = .ok id) (entered : Frame.enter p id args = .ok g) (depth : Nat) :
    (Machine.standard depth).attempt p s = match (s.advance f).calls.push g with
      | .ok calls => (.ok true, { s with calls, dispatched := s.dispatched + 1 })
      | .error e => (.error ⟨e, some ⟨r.name, f.pointer, i.opcode⟩⟩, s.advance f) := by
  have read : i.inputs.mapM f.advance.get = .ok args := read
  have known : (Machine.standard depth).handler? i.opcode = some Opcodes.callFunction :=
    opcode ▸ rfl
  have decided : Plan.callFunction p i f.advance s.heap = .ok (.enter g) := by
    simp [Plan.callFunction, Plan.callee, read, named, found, entered, pure, Except.pure]
  rw [executes.attempt_eq known follows_callFunction, decided]
  simp only [Deed.perform, Effect.push_run]
  cases (s.advance f).calls.push g <;> rfl

theorem Effect.deliver_answered {out : Register} {site : Instruction}
    (top : s.calls.items = g :: below) (waits : g.callSite? p = some site)
    (output : site.output = some out) (inside : out < g.registers.size) (opcode : String)
    (v : Value) : deliver p opcode v s = .ok () { s with
      calls := s.calls.replaceTop { g.put out v with returned := some v } } := by
  have received : g.receive p opcode v = .ok { g.put out v with returned := some v } := by
    simp only [Frame.receive, waits, output, inside, if_true]
  rw [Effect.deliver_run, top]
  simp only [received]

/-- A frame that leaves the stack and has its value delivered hands it to the frame below, for the
output register of the call there. -/
theorem Executes.attempt_handing {handler : Handler} {plan : Plan} {d : Deed} {h : Heap} {v : Value}
    {out : Register} {site : Instruction} (executes : Executes p s f (g :: below) r i)
    (known : (Machine.standard depth).handler? i.opcode = some handler)
    (follows : Follows handler plan) (decided : plan p i f.advance s.heap = .ok d)
    (hands : d.perform p i f.advance (s.advance f) =
      Effect.deliver p i.opcode v { s.advance f with calls := (s.advance f).calls.pop, heap := h })
    (waits : g.callSite? p = some site) (output : site.output = some out)
    (inside : out < g.registers.size) : (Machine.standard depth).attempt p s = (.ok true, { s with
      calls := s.calls.pop.replaceTop { g.put out v with returned := some v }
      heap := h
      dispatched := s.dispatched + 1 }) := by
  have popped : (s.advance f).calls.pop = s.calls.pop := Stack.pop_replaceTop ..
  have handed := Effect.deliver_answered (s := { s.advance f with calls := s.calls.pop, heap := h })
    (Stack.items_pop executes.top) waits output inside i.opcode v
  rw [executes.attempt_eq known follows, decided]
  simp only [hands, popped, handed]
  rfl

theorem Executes.attempt_return {v : Value} {out : Register} {site : Instruction}
    (executes : Executes p s f (g :: below) r i) (opcode : i.opcode = "fn-return-value")
    (read : f.operand i 0 = .ok v) (waits : g.callSite? p = some site)
    (output : site.output = some out) (inside : out < g.registers.size) (depth : Nat) :
    (Machine.standard depth).attempt p s = (.ok true, { s with
      calls := s.calls.pop.replaceTop { g.put out v with returned := some v }
      dispatched := s.dispatched + 1 }) := by
  have read : f.advance.operand i 0 = .ok v := read
  have known : (Machine.standard depth).handler? i.opcode = some Opcodes.leaveWith := opcode ▸ rfl
  have decided : Plan.leaveWith p i f.advance s.heap = .ok (.handBack v) := by
    simp [Plan.leaveWith, read, pure, Except.pure]
  exact executes.attempt_handing known follows_leaveWith decided rfl waits output inside

end Calls

/-- Function `id` of the program is the factorial, and knows where its label is. -/
structure Program.HasFactorial (p : Program) (id : RoutineId) (r : Routine) : Prop where
  named : p.find "fact" = .ok id
  found : p.routine id = .ok r
  name : r.name = "fact"
  body : r.body = Demo.fact.body
  labelled : r.Labelled

/-- An activation of the factorial, with room for so many more, some instructions after its call by
the top frame of `s`. -/
def State.factorial (s : State) (room count : Nat) (id : RoutineId) (registers : Array Value)
    (pointer : Nat) (returned : Option Value := none) : State :=
  { s with
    calls := {
      items := { routine := id, name := "fact", registers, pointer, returned } :: s.calls.items
      room }
    dispatched := s.dispatched + count }

theorem State.limit_factorial (s : State) (room count : Nat) (id : RoutineId)
    (registers : Array Value) (pointer : Nat) (returned : Option Value) :
    (s.factorial room count id registers pointer returned).calls.limit =
      s.calls.depth + 1 + room := rfl

def Frame.recurring (id : RoutineId) (n : Int64) : Frame where
  routine := id
  name := "fact"
  registers := #[.long n, .long 1, .bool false, .long (n - 1), .unset]
  pointer := 5

structure Instruction.CallsFactorial (i : Instruction) (f : Frame) (n : Int64) : Prop where
  opcode : i.opcode = "fn-call"
  named : i.name = .ok "fact"
  argument : ∃ q, i.inputs = [q] ∧ f.registers[q]? = some (.long n)

theorem Instruction.CallsFactorial.recurring (id : RoutineId) (n : Int64) : CallsFactorial
    { opcode := "fn-call", inputs := [3], output := some 4, payload := .name "fact" }
    (.recurring id n) (n - 1) :=
  ⟨rfl, rfl, 3, rfl, rfl⟩

/-- The state `s`, so many instructions after the call of its top frame `f`, which has been given a
value. -/
def State.answered (s : State) (f : Frame) (out : Register) (v : Value) (count : Nat) : State :=
  { s with
    calls := s.calls.replaceTop { f.advance.put out v with returned := some v }
    dispatched := s.dispatched + count }

namespace Program.HasFactorial

variable {p : Program} {id : RoutineId} {r : Routine} {s : State} {room count pointer depth : Nat}
  {registers : Array Value} {returned : Option Value} {i : Instruction} {n : Int64}

theorem executes (has : p.HasFactorial id r) (fetched : Demo.fact.body[pointer]? = some i) :
    Executes p (s.factorial room count id registers pointer returned)
      { routine := id, name := "fact", registers, pointer, returned } s.calls.items r i where
  top := rfl
  found := has.found
  fetched := has.body ▸ fetched

theorem attempt_computing (has : p.HasFactorial id r)
    (fetched : Demo.fact.body[pointer]? = some i) {handler : Handler}
    {value : Instruction → Frame → Heap → Except Fault Value} {v : Value} {out : Register}
    (known : (Machine.standard depth).handler? i.opcode = some handler)
    (follows : Follows handler (.computing value))
    (found : value i { routine := id, name := "fact", registers, pointer := pointer + 1, returned }
      s.heap = .ok v)
    (output : i.output = some out) (inside : out < registers.size) :
    (Machine.standard depth).attempt p (s.factorial room count id registers pointer returned) =
      (.ok true, s.factorial room (count + 1) id (registers.setIfInBounds out v) (pointer + 1)
        returned) := by
  rw [(has.executes fetched).attempt_value known follows output inside]
  simp only [Frame.advance, State.factorial] at found ⊢
  rw [found]
  rfl

theorem attempt_passing (has : p.HasFactorial id r) (fetched : Demo.fact.body[pointer]? = some i)
    (passes : i.opcode = "jump-label" ∨ i.opcode = "jump-if" ∧
      Frame.operand { routine := id, name := "fact", registers, pointer, returned } i 0 =
        .ok (.bool false)) :
    (Machine.standard depth).attempt p (s.factorial room count id registers pointer returned) =
      (.ok true, s.factorial room (count + 1) id registers (pointer + 1) returned) :=
  (has.executes fetched).attempt_passing passes depth

theorem attempt_jump (has : p.HasFactorial id r) (fetched : Demo.fact.body[pointer]? = some i)
    (jumps : i.Jumps { routine := id, name := "fact", registers, pointer, returned })
    (named : i.name = .ok "base") :
    (Machine.standard depth).attempt p (s.factorial room count id registers pointer returned) =
      (.ok true, s.factorial room (count + 1) id registers 8 returned) := by
  have there : Opcodes.LabelAt r.body "base" 8 := by
    rw [has.body]
    exact ⟨_, rfl, rfl, rfl⟩
  rw [(has.executes fetched).attempt_jump jumps, named, ok_bind,
    (Opcodes.target_eq_ok_iff has.labelled).mpr there]
  rfl

theorem enter (has : p.HasFactorial id r) (v : Value) : Frame.enter p id [v] =
    .ok { routine := id, name := "fact", registers := #[v, .unset, .unset, .unset, .unset] } := by
  have count : r.registerCount = 5 := by
    rw [Routine.registerCount, has.body]
    rfl
  refine Frame.enter_eq_ok_iff.mpr ⟨r, has.found, by simp [count], ?_⟩
  rw [count, has.name]
  rfl

theorem compares (has : p.HasFactorial id r) (s : State) (room count : Nat) (n : Int64) :
    (Machine.standard depth).runFor p 2
        (s.factorial room count id #[.long n, .unset, .unset, .unset, .unset] 0) =
      (.unfinished, s.factorial room (count + 2) id
        #[.long n, .long 2, .bool (compare n.toInt 2 == .lt), .unset, .unset] 2) := by
  rw [Machine.runFor_succ_of_ok (has.attempt_computing rfl rfl follows_constant rfl rfl (by simp)),
    Machine.runFor_succ_of_ok (has.attempt_computing rfl rfl (follows_binary _ _ _) rfl rfl
      (by simp))]
  rfl

theorem settles (has : p.HasFactorial id r) (s : State) (room count : Nat) (n : Int64) :
    (Machine.standard depth).runFor p 3
        (s.factorial room count id #[.long n, .long 2, .bool true, .unset, .unset] 2) =
      (.unfinished, s.factorial room (count + 3) id
        #[.long n, .long 1, .bool true, .unset, .unset] 10) := by
  rw [Machine.runFor_succ_of_ok (has.attempt_jump rfl (.inr ⟨rfl, rfl⟩) rfl),
    Machine.runFor_succ_of_ok (has.attempt_passing rfl (.inl rfl)),
    Machine.runFor_succ_of_ok (has.attempt_computing rfl rfl follows_constant rfl rfl (by simp))]
  rfl

theorem descends (has : p.HasFactorial id r) (s : State) (room count : Nat) (n : Int64) :
    (Machine.standard depth).runFor p 3
        (s.factorial room count id #[.long n, .long 2, .bool false, .unset, .unset] 2) =
      (.unfinished, s.factorial room (count + 3) id (Frame.recurring id n).registers 5) := by
  rw [Machine.runFor_succ_of_ok (has.attempt_passing rfl (.inr ⟨rfl, rfl⟩)),
    Machine.runFor_succ_of_ok (has.attempt_computing rfl rfl follows_constant rfl rfl (by simp)),
    Machine.runFor_succ_of_ok (has.attempt_computing rfl rfl (follows_binary _ _ _) rfl rfl
      (by simp))]
  rfl

variable {f : Frame} {below : List Frame} {r' : Routine} {out : Register} {v : Value}

theorem attempt_push (has : p.HasFactorial id r) (executes : Executes p s f below r' i)
    (calls : i.CallsFactorial f n) (depth : Nat) :
    (Machine.standard depth).attempt p s = match (s.advance f).calls.push
        { routine := id, name := "fact"
          registers := #[.long n, .unset, .unset, .unset, .unset] } with
      | .ok calls => (.ok true, { s with calls, dispatched := s.dispatched + 1 })
      | .error e => (.error ⟨e, some ⟨r'.name, f.pointer, i.opcode⟩⟩, s.advance f) := by
  obtain ⟨q, input, argument⟩ := calls.argument
  have read : i.inputs.mapM f.get = .ok [.long n] := by
    simp [input, Frame.get, argument, pure, Except.pure]
  exact executes.attempt_call calls.opcode calls.named read has.named (has.enter _) depth

theorem attempt_call (has : p.HasFactorial id r) (executes : Executes p s f below r' i)
    (calls : i.CallsFactorial f n) (free : s.calls.room = room + 1) :
    (Machine.standard depth).attempt p s = (.ok true, (s.advance f).factorial room 1 id
      #[.long n, .unset, .unset, .unset, .unset] 0) := by
  rw [has.attempt_push executes calls, Stack.push, executes.room_advance.trans free]
  rfl

theorem attempt_call_full (has : p.HasFactorial id r) (executes : Executes p s f below r' i)
    (calls : i.CallsFactorial f n) (full : s.calls.room = 0) :
    (Machine.standard depth).attempt p s =
      (.error ⟨.stackOverflow (s.calls.limit + 1) s.calls.limit,
        some ⟨r'.name, f.pointer, i.opcode⟩⟩, s.advance f) := by
  have deep : (s.advance f).calls.depth = s.calls.limit := by
    rw [State.advance, Stack.depth_replaceTop, Stack.limit, full, Nat.add_zero]
  have limit : (s.advance f).calls.limit = s.calls.limit := Stack.limit_replaceTop ..
  rw [has.attempt_push executes calls,
    Stack.push_eq_error_iff.mpr ⟨executes.room_advance.trans full, rfl⟩, deep, limit]

theorem attempt_return (has : p.HasFactorial id r) {q : Register}
    (fetched : Demo.fact.body[pointer]? = some (Demo.retVal q)) (held : registers[q]? = some v)
    (executes : Executes p s f below r' i) (output : i.output = some out)
    (inside : out < f.registers.size) (free : s.calls.room = room + 1) :
    (Machine.standard depth).attempt p
        ((s.advance f).factorial room count id registers pointer returned) =
      (.ok true, s.answered f out v (count + 1)) := by
  have passed : (s.advance f).calls.items = f.advance :: below :=
    Stack.items_replaceTop executes.top _
  have ends : Executes p ((s.advance f).factorial room count id registers pointer returned)
      { routine := id, name := "fact", registers, pointer, returned } (s.advance f).calls.items r
      (Demo.retVal q) := has.executes fetched
  rw [passed] at ends
  have read : Frame.operand { routine := id, name := "fact", registers, pointer, returned }
      (Demo.retVal q) 0 = .ok v := by
    simp [Frame.operand, Instruction.input, Demo.retVal, Frame.get, held]
  have waits := Frame.callSite?_advance executes.found executes.fetched
  have back : ((s.advance f).factorial room count id registers pointer returned).calls.pop =
      (s.advance f).calls := by
    rw [State.factorial, Stack.pop, ← executes.room_advance.trans free]
  rw [ends.attempt_return rfl read waits output inside, back]
  simp only [State.advance, Stack.replaceTop_replaceTop]
  rfl

theorem executes_recurring (has : p.HasFactorial id r) (s : State) (room count : Nat) (n : Int64) :
    Executes p (s.factorial room count id (Frame.recurring id n).registers 5) (.recurring id n)
      s.calls.items r
      { opcode := "fn-call", inputs := [3], output := some 4, payload := .name "fact" } :=
  has.executes rfl

theorem reaches_recurring (has : p.HasFactorial id r) (executes : Executes p s f below r' i)
    (calls : i.CallsFactorial f n) (free : s.calls.room = room + 1) (large : 2 ≤ n.toInt) :
    (Machine.standard depth).runFor p 6 s =
      (.unfinished, (s.advance f).factorial room 6 id (Frame.recurring id n).registers 5) := by
  have notLess : (compare n.toInt 2 == .lt) = false := by
    rw [beq_eq_false_iff_ne, Ne, Int.compare_eq_lt]
    omega
  rw [show 6 = 2 + 3 + 1 from rfl,
    Machine.runFor_succ_of_ok (has.attempt_call executes calls free),
    Machine.runFor_add (has.compares ..), notLess]
  exact has.descends ..

theorem multiplies (has : p.HasFactorial id r) (executes : Executes p s f below r' i)
    (output : i.output = some out) (inside : out < f.registers.size)
    (free : s.calls.room = room + 1) (value : Int64) (steps : Nat) :
    (Machine.standard depth).runFor p 2
        (((s.advance f).factorial room count id (Frame.recurring id n).registers 5).answered
          (.recurring id n) 4 (.long value) steps) =
      (.unfinished, s.answered f out (.long (n * value)) (count + steps + 2)) := by
  have back : ((s.advance f).factorial room count id (Frame.recurring id n).registers 5).answered
      (.recurring id n) 4 (.long value) steps =
      (s.advance f).factorial room (count + steps) id
        #[.long n, .long 1, .bool false, .long (n - 1), .long value] 6 (some (.long value)) := by
    simp only [State.answered, State.factorial, Nat.add_assoc]
    rfl
  rw [back,
    Machine.runFor_succ_of_ok (has.attempt_computing rfl rfl (follows_binary _ _ _) rfl rfl
      (by simp)),
    Machine.runFor_succ_of_ok (has.attempt_return rfl rfl executes output inside free)]
  rfl

theorem returns (has : p.HasFactorial id r) (depth m : Nat) (executes : Executes p s f below r' i)
    (calls : i.CallsFactorial f n) (output : i.output = some out)
    (inside : out < f.registers.size) (frames : max 1 n.toInt = m + 1)
    (enough : m + 1 ≤ s.calls.room) :
    (Machine.standard depth).runFor p (8 * m + 7) s = (.unfinished,
      s.answered f out (.long (Int64.ofNat (m + 1).factorial)) (8 * m + 7)) := by
  obtain ⟨room, free⟩ := Nat.exists_eq_add_of_le' (Nat.le_trans (Nat.le_add_left 1 m) enough)
  -- by the frames: the last of them settles, and what is under it multiplies
  induction m generalizing s f below r' i n out room with
  | zero =>
    have small : (compare n.toInt 2 == .lt) = true := by
      rw [beq_iff_eq, Int.compare_eq_lt]
      omega
    rw [show 8 * 0 + 7 = 2 + (3 + 1) + 1 from rfl,
      Machine.runFor_succ_of_ok (has.attempt_call executes calls free),
      Machine.runFor_add (has.compares ..) (3 + 1), small, Machine.runFor_add (has.settles ..) 1,
      Machine.runFor_succ_of_ok (has.attempt_return rfl rfl executes output inside free)]
    rfl
  | succ m ih =>
    have value : n.toInt = (m + 2 : Nat) := by omega
    have product : n * Int64.ofNat (m + 1).factorial = Int64.ofNat (m + 2).factorial := by
      rw [Long.mul_ofNat value, Nat.factorial_succ (m + 1)]
    obtain ⟨room, rfl⟩ := Nat.exists_eq_add_of_le' (show 1 ≤ room by omega)
    have fewer : max 1 (n - 1).toInt = m + 1 := by
      rw [Long.toInt_sub_one (by omega)]
      omega
    have deeper := ih (has.executes_recurring (s.advance f) (room + 1) 6 n) (.recurring id n) rfl
      (by simp [Frame.recurring]) fewer (show m + 1 ≤ room + 1 by omega) room rfl
    rw [show 8 * (m + 1) + 7 = 6 + (8 * m + 7 + 2) by omega,
      Machine.runFor_add (has.reaches_recurring executes calls free (by omega)),
      Machine.runFor_add deeper, has.multiplies executes output inside free, product]
    rfl

theorem overflows (has : p.HasFactorial id r) (depth : Nat) (executes : Executes p s f below r' i)
    (calls : i.CallsFactorial f n) (free : s.calls.room = room)
    (short : (room : Int) < max 1 n.toInt) :
    ∃ l t, (Machine.standard depth).runFor p (6 * room + 1) s =
      (.failed ⟨.stackOverflow (s.calls.limit + 1) s.calls.limit, some l⟩, t) := by
  induction room generalizing s f below r' i n with
  | zero =>
    exact ⟨_, s.advance f, by rw [Machine.runFor_succ, has.attempt_call_full executes calls free]⟩
  | succ room ih =>
    have fewer : (room : Int) < max 1 (n - 1).toInt := by
      rw [Long.toInt_sub_one (by omega)]
      omega
    obtain ⟨l, t, failed⟩ :=
      ih (has.executes_recurring (s.advance f) room 6 n) (.recurring id n) rfl fewer
    have limit : ((s.advance f).factorial room 6 id
        (Frame.recurring id n).registers 5).calls.limit = s.calls.limit := by
      rw [State.limit_factorial, Stack.limit, free, State.advance, Stack.depth_replaceTop]
      omega
    refine ⟨l, t, ?_⟩
    rw [show 6 * (room + 1) + 1 = 6 + (6 * room + 1) by omega,
      Machine.runFor_add (has.reaches_recurring executes calls free (by omega)), failed, limit]

end Program.HasFactorial

theorem factorial_max_one (n : Nat) : (max 1 n).factorial = n.factorial := by
  cases n with
  | zero => rfl
  | succ n => rw [Nat.max_eq_right n.succ_pos]

/-- Called with a long in a reachable state, the factorial comes back with the product of the
numbers up to it, as a long, and everything else as it was, if there is room for as many frames. If
there is not, the run fails for want of room. -/
theorem Machine.factorial_correct {p : Program} (prepared : p.Prepared) {r : Routine}
    (contains : p.get "fact" = .ok r) (code : r.bare = Demo.fact) {depth : Nat} {s : State}
    (reached : (standard depth).Reachable p s) {f : Frame} {below : List Frame} {r' : Routine}
    {i : Instruction} (executes : Executes p s f below r' i) (opcode : i.opcode = "fn-call")
    (named : i.name = .ok "fact") {q out : Register} (input : i.inputs = [q])
    (output : i.output = some out) {n : Int64} (argument : f.registers[q]? = some (.long n)) :
    (s.calls.depth + max 1 n.toInt ≤ depth →
      ∃ inside : out < f.registers.size, ∃ v, v = .long (Int64.ofNat n.toInt.toNat.factorial) ∧
        ∃ steps, steps = 8 * max 1 n.toInt.toNat - 1 ∧
          (standard depth).runFor p steps s = (.unfinished, { s with
            calls := s.calls.replaceTop { f.advance with
              registers := f.registers.set out v inside
              returned := some v }
            dispatched := s.dispatched + steps })) ∧
      (depth < s.calls.depth + max 1 n.toInt → ∃ l t, ∀ steps > 6 * (depth - s.calls.depth),
        (standard depth).runFor p steps s =
          (.failed ⟨.stackOverflow (depth + 1) depth, some l⟩, t)) := by
  obtain ⟨id, found, present⟩ := bind_eq_ok_iff.mp contains
  obtain ⟨name, body, -⟩ := Routine.mk.inj code
  have has : p.HasFactorial id r := ⟨found, present, name, body, prepared.labelled present⟩
  have calls : i.CallsFactorial f n := ⟨opcode, named, q, input, argument⟩
  have limit : s.calls.depth + s.calls.room = depth := reached.limit_eq
  have inside := executes.register_lt reached (Frame.size_pos argument) (q := out)
    (by simp [Instruction.registers, output])
  refine ⟨fun enough => ⟨inside, _, rfl, _, rfl, ?_⟩, fun short => ?_⟩
  · obtain ⟨m, frames⟩ := Nat.exists_eq_add_of_le' (Nat.le_max_left 1 n.toInt.toNat)
    have product : (m + 1).factorial = n.toInt.toNat.factorial := by
      rw [← frames]
      exact factorial_max_one _
    have returns := has.returns depth m executes calls output inside (by omega) (by omega)
    have written (v : Value) : f.registers.setIfInBounds out v = f.registers.set out v inside :=
      dif_pos inside
    rw [frames, show 8 * (m + 1) - 1 = 8 * m + 7 by omega, returns, product, ← written]
    rfl
  · obtain ⟨l, t, failed⟩ := has.overflows depth executes calls rfl (by omega)
    have full : s.calls.limit = depth := limit
    rw [full] at failed
    exact ⟨l, t, fun steps more => runFor_of_failed failed (by omega)⟩

theorem Machine.factorial_of_ten :
    let main : Routine := ⟨"main", [
      Demo.longVal 0 10,
      { opcode := "fn-call", inputs := [0], output := some 1, payload := .name "fact" },
      Demo.print 1,
      Demo.ret], ⟨[(Opcodes.labelKey, .labels [])]⟩⟩
    let p : Program := ⟨[main, { Demo.fact with
      notes := ⟨[(Opcodes.labelKey, .labels [("base", 8)])]⟩ }], {}⟩
    let s (depth : Nat) : State := {
      calls := ⟨[⟨0, "main", #[.long 10, .unset], 1, none, none⟩], depth - 1⟩, dispatched := 1 }
    p.Prepared ∧ (Machine.standard 11).Reachable p (s 11) ∧
      (∃ steps t, (Machine.standard 11).runFor p steps (s 11) = (.unfinished, t) ∧
        t.calls.items =
          [⟨0, "main", #[.long 10, .long 3628800], 2, some (.long 3628800), none⟩]) ∧
      ∃ l t, ∀ steps > 54, (Machine.standard 10).runFor p steps (s 10) =
        (.failed ⟨.stackOverflow 11 10, some l⟩, t) := by
  intro main p s
  have prepared : p.Prepared := ⟨8, ⟨⟨Demo.factorial.routines, {}⟩, []⟩, _, rfl, rfl⟩
  have reached (depth : Nat) : (Machine.standard (depth + 1)).Reachable p (s (depth + 1)) := by
    have started : (Machine.standard (depth + 1)).start p {} =
        .ok { calls := ⟨[⟨0, "main", #[.unset, .unset], 0, none, none⟩], depth⟩ } := rfl
    exact (Reachable.start started).step
  have executes (depth : Nat) : Executes p (s depth) ⟨0, "main", #[.long 10, .unset], 1, none, none⟩
      [] main { opcode := "fn-call", inputs := [0], output := some 1, payload := .name "fact" } :=
    ⟨rfl, rfl, rfl⟩
  have value : Int64.ofNat (Int64.toInt 10).toNat.factorial = 3628800 := by decide
  obtain ⟨comesBack, -⟩ := factorial_correct prepared (r := p.routines[1]) rfl rfl (reached 10)
    (executes 11) rfl rfl rfl rfl rfl
  obtain ⟨-, overflows⟩ := factorial_correct prepared (r := p.routines[1]) rfl rfl (reached 9)
    (executes 10) rfl rfl rfl rfl rfl
  obtain ⟨inside, v, rfl, steps, -, ran⟩ := comesBack (by decide)
  refine ⟨prepared, reached 10, ⟨steps, _, ran, ?_⟩, overflows (by decide)⟩
  rw [value]
  rfl

end RegisterMachine
