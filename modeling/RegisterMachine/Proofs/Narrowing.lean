import RegisterMachine.Proofs.Comparison
import Mathlib.Data.List.Forall2

/-!
From longs to ints. A long keeps its lower half when it is narrowed, and sums, differences and
products have their lower halves from those of their operands; so it makes no difference whether a
sequence of them is computed in longs and narrowed at the end, or narrowed first and computed in
ints. The induction is on the sequence, and one instruction is what its step is about.
-/

namespace RegisterMachine

namespace Opcodes

/-- Narrowing keeps all that the lower half of a long has a say in. -/
structure NarrowingLaws : Prop where
  computed : ∀ (o : Operation) (a b : Int64), ¬o.Divides →
    (Calculator.long.apply o a b).map Int64.toInt32 =
      Calculator.int.apply o a.toInt32 b.toInt32
  restored : ∀ v : Int32, v.toInt64.toInt32 = v
  compared : ∀ (c : Comparison) (v v' : Int32),
    (Scale.integer .long).holds c v.toInt64 v'.toInt64 = (Scale.integer .int).holds c v v'
  kept : ∀ a : Int64, a.toInt32.toInt64 = a ↔ -2 ^ 31 ≤ a.toInt ∧ a.toInt < 2 ^ 31

theorem narrowingLaws : NarrowingLaws where
  computed o a b total := by
    cases o with
    | add => exact congrArg some (Int64.toInt32_add a b)
    | sub => exact congrArg some (Int64.toInt32_sub a b)
    | mul => exact congrArg some (Int64.toInt32_mul a b)
    | div | mod => exact absurd (by decide) total
  restored := Int32.toInt32_toInt64
  compared c v v' := by
    have same (v : Int32) : (Scale.integer .long).rank v.toInt64 = (Scale.integer .int).rank v :=
      Int32.toInt_toInt64 v
    rw [Scale.holds, Scale.holds, Scale.compare_eq, Scale.compare_eq, same, same]
  kept a := by
    have low := a.toInt32.le_toInt
    have high := a.toInt32.toInt_lt
    rw [← Int64.toInt_inj, Int32.toInt_toInt64]
    refine ⟨fun same => by omega, fun within => ?_⟩
    rw [Int64.toInt_toInt32]
    exact bmod_two_pow (k := 31) within.1 within.2

end Opcodes

def Value.narrow : Value → Value
  | .long v => .int v.toInt32
  | v => v

/-- Registers that get what an operation with a result for all operands makes of two of them. -/
structure Assignment where
  operation : Opcodes.Operation
  left : Register
  right : Register
  target : Register
  total : ¬operation.Divides

section Registers

open Opcodes

variable {R R' : Array Value} {q : Register} {qs : List Register} {w : Width} {x : Assignment}
  {xs : List Assignment}

def Opcodes.Width.read (w : Width) (R : Array Value) (q : Register) : Option w.Word :=
  R[q]?.bind w.rep.ofValue?

/-- What the assignment makes of the registers, if it finds words of that width. -/
def Assignment.run (w : Width) (x : Assignment) (R : Array Value) : Option (Array Value) := do
  let a ← w.read R x.left
  let b ← w.read R x.right
  let c ← w.calculator.apply x.operation a b
  pure (R.setIfInBounds x.target (w.value c))

def narrowing (q : Register) (R : Array Value) : Option (Array Value) := do
  let a ← Width.long.read R q
  pure (R.setIfInBounds q (.int a.toInt32))

def chain (steps : List (Array Value → Option (Array Value))) (R : Array Value) :
    Option (Array Value) := steps.foldlM (fun R step => step R) R

theorem Opcodes.Width.read_narrow (plain : ∀ v ∈ R, v.kind ≠ .int) (q : Register) :
    Width.int.read (R.map Value.narrow) q = (Width.long.read R q).map Int64.toInt32 := by
  simp only [Width.read, Array.getElem?_map]
  cases held : R[q]? with
  | none => rfl
  | some v =>
    have other : v.kind ≠ .int := plain v (Array.mem_of_getElem? held)
    cases v with
    | int => exact absurd rfl other
    | _ => rfl

theorem Assignment.run_narrow (plain : ∀ v ∈ R, v.kind ≠ .int) (x : Assignment) :
    x.run .int (R.map Value.narrow) = (x.run .long R).map (·.map Value.narrow) := by
  simp only [Assignment.run, Width.read_narrow plain]
  cases Width.long.read R x.left with
  | none => rfl
  | some a =>
    cases Width.long.read R x.right with
    | none => rfl
    | some b =>
      have both : Calculator.int.apply x.operation a.toInt32 b.toInt32 = _ :=
        (narrowingLaws.computed x.operation a b x.total).symm
      simp only [Option.map_some, Option.bind_eq_bind, Option.bind_some, Width.calculator, both]
      cases Calculator.long.apply x.operation a b with
      | none => rfl
      | some c =>
        have written : (R.setIfInBounds x.target (.long c)).map Value.narrow =
            (R.map Value.narrow).setIfInBounds x.target (.int c.toInt32) :=
          Array.map_setIfInBounds
        exact congrArg some written.symm

theorem Assignment.run_plain (plain : ∀ v ∈ R, v.kind ≠ .int) (ran : x.run .long R = some R') :
    ∀ v ∈ R', v.kind ≠ .int := by
  simp only [Assignment.run, Option.bind_eq_bind, Option.bind_eq_some_iff] at ran
  obtain ⟨a, -, b, -, c, -, written⟩ := ran
  obtain rfl := Option.some.inj written
  intro v member
  obtain old | new := Array.mem_or_eq_of_mem_setIfInBounds member
  · exact plain v old
  · exact new ▸ nofun

theorem chain_cons (step : Array Value → Option (Array Value))
    (steps : List (Array Value → Option (Array Value))) (R : Array Value) :
    chain (step :: steps) R = (step R).bind (chain steps) := List.foldlM_cons

theorem chain_narrow (plain : ∀ v ∈ R, v.kind ≠ .int) (xs : List Assignment) :
    chain (xs.map (·.run .int)) (R.map Value.narrow) =
      (chain (xs.map (·.run .long)) R).map (·.map Value.narrow) := by
  induction xs generalizing R with
  | nil => rfl
  | cons x xs ih =>
    simp only [List.map_cons, chain_cons, x.run_narrow plain]
    cases ran : x.run .long R with
    | none => rfl
    | some R' => exact ih (x.run_plain plain ran)

end Registers

/-- What an instruction of a straight sequence does to the registers of its frame. -/
inductive Task where
  | compute (x : Assignment)
  | narrow (q : Register)

def Task.run (w : Opcodes.Width) : Task → Array Value → Option (Array Value)
  | compute x => x.run w
  | narrow q => narrowing q

theorem Task.runs_compute (w : Opcodes.Width) (xs : List Assignment) :
    (xs.map compute).map (·.run w) = xs.map (·.run w) := List.map_map ..

def Instruction.Does (w : Opcodes.Width) (i : Instruction) : Task → Prop
  | .compute x => i.opcode = w.opcode x.operation ∧ i.inputs[0]? = some x.left ∧
      i.inputs[1]? = some x.right ∧ i.output = some x.target
  | .narrow q => i.opcode = "cast-long-to-int" ∧ i.inputs[0]? = some q ∧ i.output = some q

/-- The frame `f`, on top of the frames `below`, is about to do these tasks one after the other,
each by the next instruction of the function `r`. -/
structure Traverses (p : Program) (s : State) (f : Frame) (below : List Frame) (r : Routine)
    (w : Opcodes.Width) (tasks : List Task) : Prop where
  top : s.calls.items = f :: below
  found : p.routine f.routine = .ok r
  ahead : ∃ code, List.Forall₂ (Instruction.Does w) code tasks ∧ code <+: r.body.drop f.pointer

def State.computed (s : State) (f : Frame) (R : Array Value) (n : Nat) : State :=
  { s with
    calls := s.calls.replaceTop { f with registers := R, pointer := f.pointer + n }
    dispatched := s.dispatched + n }

theorem State.computed_computed (s : State) (f : Frame) (R R' : Array Value) (n : Nat) :
    (s.computed f R 1).computed { f with registers := R, pointer := f.pointer + 1 } R' n =
      s.computed f R' (n + 1) := by
  simp only [computed, Stack.replaceTop_replaceTop, Nat.add_assoc, Nat.add_comm 1 n]

section Steps

open Opcodes

variable {α β : Type} {p : Program} {s : State} {f : Frame} {below : List Frame} {r : Routine}
  {i : Instruction} {q out : Register} {v : Value} {w : Width} {x : Assignment} {depth : Nat}
  {task : Task} {tasks : List Task}

theorem Executes.attempt_unary (executes : Executes p s f below r i) {source : Representation α}
    {target : Representation β} {g : α → β}
    (known : (Machine.standard depth).handler? i.opcode = some (unary source target g))
    (first : i.inputs[0]? = some q) (held : f.registers[q]? = some v) (output : i.output = some out)
    (inside : out < f.registers.size) :
    (Machine.standard depth).attempt p s = match source.ofValue? v with
      | some a => (.ok true, s.given f out (target.toValue (g a)))
      | none => (.error ⟨.kindMismatch i.opcode q source.kind v.kind,
          some ⟨r.name, f.pointer, i.opcode⟩⟩, s.advance f) := by
  rw [executes.attempt_value known (follows_unary source target g) output inside, Plan.unary,
    Frame.operandAs_advance first held]
  cases source.ofValue? v <;> rfl

theorem Frame.operandAs_absent {k : Nat} (named : i.inputs[k]? = some q)
    (absent : f.registers[q]? = none) (rep : Representation α) :
    f.advance.operandAs rep i k = .error (f.advance.outOfRange q) := by
  have absent : f.advance.registers[q]? = none := absent
  simp only [operandAs, Instruction.input, named, get, absent, ok_bind, error_bind]

theorem Executes.attempt_task_empty (executes : Executes p s f below r i) (does : i.Does w task)
    (empty : f.registers = #[]) (depth : Nat) : task.run w f.registers = none ∧
      ∃ e t, (Machine.standard depth).attempt p s = (.error e, t) := by
  have absent (q : Register) : f.registers[q]? = none := by simp [empty]
  cases task with
  | compute x =>
    obtain ⟨opcode, left, -⟩ := does
    obtain ⟨handler, known, follows⟩ := w.planned x.operation depth
    rw [executes.attempt_computing (opcode ▸ known) follows, Plan.division,
      Frame.operandAs_absent left (absent _)]
    exact ⟨by simp [Task.run, Assignment.run, Width.read, absent], _, _, rfl⟩
  | narrow q =>
    obtain ⟨opcode, source, -⟩ := does
    have known : (Machine.standard depth).handler? i.opcode =
        some (unary Width.long.rep .int Int64.toInt32) := opcode ▸ rfl
    rw [executes.attempt_computing known (follows_unary _ _ _), Plan.unary,
      Frame.operandAs_absent source (absent _)]
    exact ⟨by simp [Task.run, narrowing, Width.read, absent], _, _, rfl⟩

theorem Executes.attempt_task (executes : Executes p s f below r i)
    (reached : (Machine.standard depth).Reachable p s) (does : i.Does w task) :
    match task.run w f.registers with
    | some R => (Machine.standard depth).attempt p s = (.ok true, s.computed f R 1)
    | none => ∃ e t, (Machine.standard depth).attempt p s = (.error e, t) := by
  by_cases uncounted : f.Uncounted p
  · obtain ⟨undone, failed⟩ := executes.attempt_task_empty does uncounted.1 depth
    rw [undone]
    exact failed
  cases task with
  | compute x =>
    obtain ⟨opcode, left, right, target⟩ := does
    obtain ⟨v, v', operands⟩ :=
      (executes.operands_or_uncounted reached left right).resolve_right uncounted
    have inside := executes.output_lt reached (Frame.size_pos operands.held) target
    rw [executes.attempt_arithmetic opcode operands target inside]
    simp only [Task.run, Assignment.run, Width.read, operands.held, operands.held',
      Option.bind_some, Option.bind_eq_bind]
    cases w.rep.ofValue? v with
    | none => exact ⟨_, _, rfl⟩
    | some a =>
      cases w.rep.ofValue? v' with
      | none => exact ⟨_, _, rfl⟩
      | some b =>
        simp only [Option.bind_some]
        cases w.calculator.apply x.operation a b with
        | none => exact ⟨_, _, rfl⟩
        | some c => rfl
  | narrow q =>
    obtain ⟨opcode, source, target⟩ := does
    obtain ⟨v, held⟩ := (executes.operand_or_uncounted reached source).resolve_right uncounted
    have inside := executes.output_lt reached (Frame.size_pos held) target
    have known : (Machine.standard depth).handler? i.opcode =
        some (unary Width.long.rep .int Int64.toInt32) := opcode ▸ rfl
    rw [executes.attempt_unary known source held target inside]
    simp only [Task.run, narrowing, Width.read, held, Option.bind_some, Option.bind_eq_bind]
    cases Width.long.rep.ofValue? v with
    | none => exact ⟨_, _, rfl⟩
    | some a => rfl

theorem Traverses.executes (traverses : Traverses p s f below r w (task :: tasks)) :
    ∃ i, Executes p s f below r i ∧ i.Does w task ∧ ∀ R, Traverses p (s.computed f R 1)
      { f with registers := R, pointer := f.pointer + 1 } below r w tasks := by
  obtain ⟨code, does, rest, ahead⟩ := traverses.ahead
  obtain ⟨i, code, first, others, rfl⟩ := List.forall₂_cons_right_iff.mp does
  have fetched : r.body[f.pointer]? = some i := by
    rw [← List.head?_drop, ← ahead]
    rfl
  refine ⟨i, ⟨traverses.top, traverses.found, fetched⟩, first, fun R => ?_⟩
  refine ⟨Stack.items_replaceTop traverses.top _, traverses.found, code, others, rest, ?_⟩
  rw [← List.drop_drop, ← ahead]
  rfl

theorem Traverses.runFor (traverses : Traverses p s f below r w tasks)
    (reached : (Machine.standard depth).Reachable p s) :
    match chain (tasks.map (·.run w)) f.registers with
    | some R => (Machine.standard depth).runFor p tasks.length s =
        (.unfinished, s.computed f R tasks.length)
    | none => ∃ e t, (Machine.standard depth).runFor p tasks.length s = (.failed e, t) := by
  induction tasks generalizing s f with
  | nil =>
    have still : s.computed f f.registers 0 = s := by
      have same := Stack.replaceTop_self traverses.top
      unfold State.computed
      rw [show { f with registers := f.registers, pointer := f.pointer + 0 } = f from rfl, same]
      rfl
    exact congrArg (Prod.mk Machine.Ending.unfinished) still.symm
  | cons task tasks ih =>
    obtain ⟨i, executes, does, next⟩ := traverses.executes
    have attempted := executes.attempt_task reached does
    rw [List.map_cons, chain_cons]
    cases ran : task.run w f.registers with
    | none =>
      simp only [ran] at attempted
      obtain ⟨e, t, failed⟩ := attempted
      exact ⟨e, t, by rw [List.length_cons, Machine.runFor_succ, failed]⟩
    | some R =>
      simp only [ran] at attempted
      have come : (Machine.standard depth).Reachable p (s.computed f R 1) := by
        have step := reached.step
        rwa [attempted] at step
      have rest := ih (next R) come
      simp only [Option.bind_some, State.computed_computed] at rest ⊢
      rw [List.length_cons, Machine.runFor_succ_of_ok attempted]
      exact rest

theorem Instruction.exists_does {code : List Instruction}
    (does : List.Forall₂ (Instruction.Does w) code tasks) (among : task ∈ tasks) :
    ∃ i ∈ code, i.Does w task := by
  induction does with
  | nil => exact absurd among List.not_mem_nil
  | cons first _ ih =>
    obtain rfl | later := List.mem_cons.mp among
    · exact ⟨_, List.mem_cons_self, first⟩
    · obtain ⟨i, member, done⟩ := ih later
      exact ⟨i, List.mem_cons_of_mem _ member, done⟩

theorem Traverses.operands_or_uncounted (traverses : Traverses p s f below r w tasks)
    (reached : (Machine.standard depth).Reachable p s) {x : Assignment}
    (among : .compute x ∈ tasks) :
    (x.left < f.registers.size ∧ x.right < f.registers.size) ∨ f.Uncounted p := by
  obtain ⟨r', found, -, size⟩ := reached.belongs.stack f (traverses.top ▸ List.mem_cons_self)
  obtain rfl := Except.ok.inj (found.symm.trans traverses.found)
  obtain ⟨code, does, ahead⟩ := traverses.ahead
  obtain ⟨i, member, -, left, right, -⟩ := Instruction.exists_does does among
  have listed : i ∈ r'.body := List.mem_of_mem_drop (ahead.subset member)
  have inside {k : Nat} {q : Register} (named : i.inputs[k]? = some q) :
      q < f.registers.size ∨ f.Uncounted p :=
    Frame.lt_or_uncounted found size listed (List.mem_append_left _ (List.mem_of_getElem? named))
  obtain lower | uncounted := inside left
  · exact (inside right).imp_left fun upper => ⟨lower, upper⟩
  · exact .inr uncounted

variable {depth' : Nat} {p' : Program} {s' : State} {f' : Frame} {below' : List Frame}
  {r' : Routine} {xs : List Assignment}

/-- Computed in longs, or narrowed and computed in ints: after as many steps both runs have come as
far, with the registers of the one the narrowed registers of the other, or both have failed. -/
theorem Traverses.narrow (longs : Traverses p s f below r .long (xs.map .compute))
    (ints : Traverses p' s' f' below' r' .int (xs.map .compute))
    (reached : (Machine.standard depth).Reachable p s)
    (reached' : (Machine.standard depth').Reachable p' s') (plain : ∀ v ∈ f.registers, v.kind ≠ .int)
    (same : f'.registers = f.registers.map Value.narrow) :
    (∃ R, (Machine.standard depth).runFor p xs.length s =
          (.unfinished, s.computed f R xs.length) ∧
        (Machine.standard depth').runFor p' xs.length s' =
          (.unfinished, s'.computed f' (R.map Value.narrow) xs.length)) ∨
      (∃ e t, (Machine.standard depth).runFor p xs.length s = (.failed e, t)) ∧
        ∃ e t, (Machine.standard depth').runFor p' xs.length s' = (.failed e, t) := by
  have ran := longs.runFor reached
  have ran' := ints.runFor reached'
  rw [List.length_map, Task.runs_compute] at ran ran'
  rw [same, chain_narrow plain] at ran'
  cases result : chain (xs.map (·.run .long)) f.registers with
  | none =>
    simp only [result, Option.map_none] at ran ran'
    exact .inr ⟨ran, ran'⟩
  | some R =>
    simp only [result, Option.map_some] at ran ran'
    exact .inl ⟨R, ran, ran'⟩

end Steps

end RegisterMachine
