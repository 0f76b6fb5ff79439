import RegisterMachine.Proofs.Factorial
import RegisterMachine.Proofs.Generators
import Mathlib.Data.Nat.Count

/-!
The counter coroutine. It goes on for four instructions each time it is resumed, the first time from
its beginning and later from behind its yield, and yields how often it was resumed. Nobody else gets
at its frame, neither on the stack nor at rest; so it makes no difference who resumes it, and what
runs or fails in between. The induction is on the steps of the run.
-/

namespace RegisterMachine

theorem Heap.park_park (h : Heap) (id : CoroutineId) (parked parked' : Option Frame) :
    (h.park id parked).park id parked' = h.park id parked' := by
  have twice : (h.coroutines.modify id fun c => { c with parked }).modify id
      (fun c => { c with parked := parked' }) =
        h.coroutines.modify id fun c => { c with parked := parked' } := by
    refine Array.toList_inj.mp ?_
    simp only [Array.toList_modify, List.modify_modify_eq]
    rfl
  simp only [park, twice]

section Turns

variable {p : Program} {s : State} {f g : Frame} {below : List Frame} {r : Routine}
  {i : Instruction} {id : CoroutineId}

theorem Executes.attempt_resume (executes : Executes p s f below r i)
    (opcode : i.opcode = "co-invoke") (named : f.operand i 0 = .ok (.coroutine id))
    (rested : (s.heap.coroutine id).parked = some g) {room : Nat} (free : s.calls.room = room + 1)
    (depth : Nat) :
    (Machine.standard depth).attempt p s = (.ok true, { s with
      calls := { items := { g with home := some id } :: f.advance :: below, room }
      heap := s.heap.park id none
      dispatched := s.dispatched + 1 }) := by
  have named : f.advance.operandAs .coroutine i 0 = .ok id :=
    Frame.operandAs_eq_ok_iff.mpr ⟨_, named, rfl⟩
  have known : (Machine.standard depth).handler? i.opcode = some Opcodes.resume := opcode ▸ rfl
  have decided : Plan.resume p i f.advance s.heap = .ok (.resume id g) := by
    simp only [Plan.resume, named, rested, ok_bind, pure, Except.pure]
  have passed : (s.advance f).calls.items = f.advance :: below :=
    Stack.items_replaceTop executes.top _
  have pushed : (s.advance f).calls.push { g with home := some id } =
      .ok { items := { g with home := some id } :: f.advance :: below, room } := by
    simp only [Stack.push, executes.room_advance.trans free, passed]
  rw [executes.attempt_eq known follows_resume, decided]
  simp only [Deed.perform, Effect.push_run, pushed]
  rfl

theorem Executes.attempt_yield {v : Value} {out : Register} {site : Instruction}
    (executes : Executes p s f (g :: below) r i) (opcode : i.opcode = "co-yield")
    (read : f.operand i 0 = .ok v) (waits : g.callSite? p = some site)
    (output : site.output = some out) (inside : out < g.registers.size) (depth : Nat) :
    (Machine.standard depth).attempt p s = (.ok true, { s with
      calls := s.calls.pop.replaceTop { g.put out v with returned := some v }
      heap := s.heap.rest f.advance
      dispatched := s.dispatched + 1 }) := by
  have read : f.advance.operand i 0 = .ok v := read
  have known : (Machine.standard depth).handler? i.opcode = some Opcodes.yield := opcode ▸ rfl
  have decided : Plan.yield p i f.advance s.heap = .ok (.yield v) := by
    simp [Plan.yield, read, pure, Except.pure]
  exact executes.attempt_handing known follows_yield decided rfl waits output inside

end Turns

structure Program.HasCounter (p : Program) (rid : RoutineId) (r : Routine) : Prop where
  found : p.routine rid = .ok r
  name : r.name = "counter"
  body : r.body = Demo.counter.body
  labelled : r.Labelled

/-- An activation of the counter that has yielded `k` times, so many instructions after it went on.
-/
def Frame.counter (rid : RoutineId) (home : Option CoroutineId) (k stage : Nat) : Frame where
  routine := rid
  name := "counter"
  registers :=
    match stage, k with
    | 0, 0 => #[.unset, .unset]
    | 1, 0 => #[.long 1, .unset]
    | 0, k + 1 => #[.long (Int64.ofNat (k + 1)), .long 1]
    | _, k => #[.long (Int64.ofNat (k + 1)), .long 1]
  pointer := if 2 ≤ stage ∨ k = 0 then stage else stage + 4
  home

/-- The coroutine was resumed so many times, and rests or is on its way to the next yield. -/
inductive State.Counting (rid : RoutineId) (id : CoroutineId) (t : State) : Nat → Prop where
  | rests {k} (rested : (t.heap.coroutine id).parked = some (.counter rid none k 0)) :
      Counting rid id t k
  | runs {k stage below} (top : t.calls.items = .counter rid (some id) k stage :: below)
      (early : stage ≤ 3) : Counting rid id t (k + 1)

namespace Program.HasCounter

variable {p : Program} {rid : RoutineId} {r : Routine} {s : State} {id : CoroutineId}
  {k stage depth : Nat} {below : List Frame}

theorem executes (has : p.HasCounter rid r)
    (top : s.calls.items = .counter rid (some id) k stage :: below) {i : Instruction}
    (fetched : Demo.counter.body[(Frame.counter rid (some id) k stage).pointer]? = some i) :
    Executes p s (.counter rid (some id) k stage) below r i where
  top := top
  found := has.found
  fetched := has.body ▸ fetched

theorem enter (has : p.HasCounter rid r) :
    Frame.enter p rid [] = .ok (.counter rid none 0 0) := by
  have count : r.registerCount = 2 := by
    rw [Routine.registerCount, has.body]
    rfl
  refine Frame.enter_eq_ok_iff.mpr ⟨r, has.found, by simp, ?_⟩
  rw [count, has.name]
  rfl

theorem attempt_counter (has : p.HasCounter rid r)
    (top : s.calls.items = .counter rid (some id) k stage :: below) (early : stage < 3) :
    (Machine.standard depth).attempt p s = (.ok true, { s with
      calls := s.calls.replaceTop (.counter rid (some id) k (stage + 1))
      dispatched := s.dispatched + 1 }) := by
  match stage, k with
  | 0, 0 =>
    rw [(has.executes top rfl).attempt_computing rfl follows_constant]
    rfl
  | 0, k + 1 =>
    have next : Int64.ofNat (k + 2) = Int64.ofNat (k + 1) + 1 := Int64.ofNat_add (k + 1) 1
    have added : Frame.counter rid (some id) (k + 1) 1 =
        (Frame.counter rid (some id) (k + 1) 0).advance.put 0 (.long (Int64.ofNat (k + 1) + 1)) := by
      rw [← next]
      rfl
    rw [(has.executes top rfl).attempt_computing rfl (follows_binary _ _ _), added]
    rfl
  | 1, 0 =>
    rw [(has.executes top rfl).attempt_computing rfl follows_constant]
    rfl
  | 1, k + 1 =>
    have there : Opcodes.LabelAt r.body "loop" 2 := by
      rw [has.body]
      exact ⟨_, rfl, rfl, rfl⟩
    rw [(has.executes top rfl).attempt_jump (.inl rfl),
      show Instruction.name _ = .ok "loop" from rfl, ok_bind,
      (Opcodes.target_eq_ok_iff has.labelled).mpr there]
    rfl
  | 2, k =>
    rw [(has.executes top rfl).attempt_passing (.inl rfl)]
    rfl

theorem parked_counter (has : p.HasCounter rid r)
    (reached : (Machine.standard depth).Reachable p s)
    (top : s.calls.items = .counter rid (some id) k 3 :: below) :
    (((Machine.standard depth).attempt p s).2.heap.coroutine id).parked =
      some (.counter rid none (k + 1) 0) := by
  have executes := has.executes top (i := { opcode := "co-yield", inputs := [0] }) rfl
  have departs : s.Departs p (.yields (.long (Int64.ofNat (k + 1)))) :=
    ⟨_, _, _, _, executes, rfl, rfl⟩
  have popped := departs.pops depth
  have handover := (executes.move depth).handover executes.top
  exact handover.parks reached.owned ⟨rfl, rfl, by omega⟩

theorem not_invokes (has : p.HasCounter rid r)
    (top : s.calls.items = .counter rid (some id) k stage :: below) (other : CoroutineId) :
    ¬s.Invokes p other := by
  intro invokes
  obtain ⟨f, below', r', i, executes, opcode, -⟩ := invokes
  obtain ⟨rfl, rfl⟩ := List.cons.inj (executes.top.symm.trans top)
  obtain rfl := Except.ok.inj (has.found.symm.trans executes.found)
  have listed : i ∈ Demo.counter.body := has.body ▸ List.mem_of_getElem? executes.fetched
  have none : ∀ i ∈ Demo.counter.body, i.opcode ≠ "co-invoke" := by decide
  exact none i listed opcode

theorem rested (has : p.HasCounter rid r) (counting : s.Counting rid id k)
    (invokes : s.Invokes p id) : (s.heap.coroutine id).parked = some (.counter rid none k 0) := by
  cases counting with
  | rests rested => exact rested
  | runs top => exact absurd invokes (has.not_invokes top id)

theorem counting (has : p.HasCounter rid r) (reached : (Machine.standard depth).Reachable p s)
    (counting : s.Counting rid id k) (room : s.Invokes p id → s.calls.depth < depth) :
    ((Machine.standard depth).attempt p s).2.Counting rid id
      (k + if s.Invokes p id then 1 else 0) := by
  -- on the stack the counter goes on by itself, so only one at rest can be resumed and counted
  cases counting with
  | rests rested =>
    by_cases invokes : s.Invokes p id
    · rw [if_pos invokes]
      have shallow := room invokes
      obtain ⟨f, below, r', i, executes, opcode, named⟩ := invokes
      have limit : s.calls.depth + s.calls.room = depth := reached.limit_eq
      obtain ⟨room, free⟩ := Nat.exists_eq_add_of_le' (show 1 ≤ s.calls.room by omega)
      rw [executes.attempt_resume opcode named rested free]
      exact .runs rfl (Nat.zero_le 3)
    · rw [if_neg invokes]
      have unresumed : ¬(Machine.standard depth).Gives p s id .resumed := fun given =>
        invokes (Machine.gives_resumed_iff.mp given).1
      obtain kept | ⟨lost, -⟩ := reached.rests_on rested unresumed
      · exact .rests kept
      · obtain ⟨f, below, r', i, executes, opcode, named, -⟩ := lost
        exact absurd ⟨f, below, r', i, executes, opcode, named⟩ invokes
  | @runs k stage below top early =>
    rw [if_neg (has.not_invokes top id)]
    obtain rfl | early := Nat.eq_or_lt_of_le early
    · exact .rests (has.parked_counter reached top)
    · rw [has.attempt_counter top early]
      exact .runs (Stack.items_replaceTop top _) early

theorem counting_after (has : p.HasCounter rid r)
    (reached : (Machine.standard depth).Reachable p s) (begins : s.Counting rid id 0) {n : Nat}
    (room : ∀ j < n, ((Machine.standard depth).after p s j).Invokes p id →
      ((Machine.standard depth).after p s j).calls.depth < depth) :
    ((Machine.standard depth).after p s n).Counting rid id
      (Nat.count (fun j => ((Machine.standard depth).after p s j).Invokes p id) n) := by
  induction n with
  | zero => exact begins
  | succ n ih =>
    have before := ih fun j small => room j (Nat.lt_succ_of_lt small)
    rw [Nat.count_succ]
    exact has.counting (reached.after n) before (room n n.lt_succ_self)

end Program.HasCounter

def State.counter (s : State) (f : Frame) (below : List Frame) (room : Nat) (rid : RoutineId)
    (id : CoroutineId) (k stage : Nat) : State :=
  { s with
    calls := { items := .counter rid (some id) k stage :: f.advance :: below, room }
    heap := s.heap.park id none
    dispatched := s.dispatched + (stage + 1) }

namespace Program.HasCounter

variable {p : Program} {rid : RoutineId} {r r' : Routine} {s : State} {f : Frame}
  {below : List Frame} {i : Instruction} {id : CoroutineId} {k stage room : Nat} {out : Register}

theorem reaches (has : p.HasCounter rid r) (executes : Executes p s f below r' i)
    (opcode : i.opcode = "co-invoke") (named : f.operand i 0 = .ok (.coroutine id))
    (rested : (s.heap.coroutine id).parked = some (.counter rid none k 0))
    (free : s.calls.room = room + 1) (within : stage ≤ 3) (depth : Nat) :
    (Machine.standard depth).after p s (stage + 1) = s.counter f below room rid id k stage ∧
      (Machine.standard depth).runFor p (stage + 1) s =
        (.unfinished, s.counter f below room rid id k stage) := by
  induction stage with
  | zero =>
    have resumed := executes.attempt_resume opcode named rested free depth
    rw [Machine.after, Machine.after, Machine.runFor_succ_of_ok resumed, resumed]
    exact ⟨rfl, rfl⟩
  | succ stage ih =>
    obtain ⟨came, ran⟩ := ih (Nat.le_of_succ_le within)
    have next : (Machine.standard depth).attempt p (s.counter f below room rid id k stage) =
        (.ok true, s.counter f below room rid id k (stage + 1)) := has.attempt_counter rfl within
    rw [Machine.after, came, Machine.runFor_add ran, Machine.runFor_succ_of_ok next, next]
    exact ⟨rfl, rfl⟩

theorem yields (has : p.HasCounter rid r) (executes : Executes p s f below r' i)
    (opcode : i.opcode = "co-invoke") (named : f.operand i 0 = .ok (.coroutine id))
    (output : i.output = some out) (inside : out < f.registers.size)
    (rested : (s.heap.coroutine id).parked = some (.counter rid none k 0))
    (free : s.calls.room = room + 1) (depth : Nat) :
    (Machine.standard depth).runFor p 5 s = (.unfinished, { s with
      calls := s.calls.replaceTop { f.advance.put out (.long (Int64.ofNat (k + 1))) with
        returned := some (.long (Int64.ofNat (k + 1))) }
      heap := s.heap.park id (some (.counter rid none (k + 1) 0))
      dispatched := s.dispatched + 5 }) := by
  obtain ⟨-, ran⟩ := has.reaches executes opcode named rested free (Nat.le_refl 3) depth
  have waits := Frame.callSite?_advance executes.found executes.fetched
  have yielding : Executes p (s.counter f below room rid id k 3) (.counter rid (some id) k 3)
      (f.advance :: below) r { opcode := "co-yield", inputs := [0] } := has.executes rfl rfl
  have yielded := yielding.attempt_yield rfl rfl waits output inside depth
  have calls : s.calls = ⟨f :: below, room + 1⟩ := by
    rw [← free, ← executes.top]
  have parked : (s.heap.park id none).rest (Frame.counter rid (some id) k 3).advance =
      s.heap.park id (some (.counter rid none (k + 1) 0)) := Heap.park_park ..
  rw [Machine.runFor_add ran 1, Machine.runFor_succ_of_ok yielded, calls]
  simp only [State.counter, parked]
  rfl

end Program.HasCounter

/-- Whoever resumes a counter and whatever happens in between: after four more steps a `co-invoke`
of it gets the number of this `co-invoke` among all those of the coroutine, and everything else is
as it was. -/
theorem Machine.counter_counts {p : Program} (prepared : p.Prepared) {r : Routine}
    (contains : p.get "counter" = .ok r) (code : r.bare = Demo.counter) {depth : Nat} {s : State}
    (reached : (standard depth).Reachable p s) (creates : (standard depth).Creates p s "counter") :
    let id := s.heap.nextCoroutine
    let u := (standard depth).after p ((standard depth).attempt p s).2
    ∀ n, (∀ j ≤ n, (u j).Invokes p id → (u j).calls.depth < depth) →
      ∀ f below r' i out, Executes p (u n) f below r' i → i.opcode = "co-invoke" →
        f.operand i 0 = .ok (.coroutine id) → i.output = some out →
        ∃ k, k = Nat.count (fun j => (u j).Invokes p id) (n + 1) ∧
          (∀ j < 4, ∃ g, ((standard depth).after p (u n) (j + 1)).calls.items =
            g :: f.advance :: below) ∧
          ∃ inside : out < f.registers.size, ∃ parked t,
            t = { u n with
              calls := (u n).calls.replaceTop { f.advance with
                registers := f.registers.set out (.long (Int64.ofNat k)) inside
                returned := some (.long (Int64.ofNat k)) }
              heap := (u n).heap.park id (some parked)
              dispatched := (u n).dispatched + 5 } ∧
            (standard depth).runFor p 5 (u n) = (.unfinished, t) ∧ t.standing id = .suspended := by
  intro id u n room f below r' i out executes opcode named output
  obtain ⟨f', below', q, i', creating, creation, called, success⟩ := creates
  obtain ⟨name, rid, fresh, same, found, entered, rested⟩ := creating.created creation success
  obtain rfl := Except.ok.inj (called.symm.trans same)
  obtain ⟨rid', found', present⟩ := bind_eq_ok_iff.mp contains
  obtain rfl := Except.ok.inj (found.symm.trans found')
  obtain ⟨named', body, -⟩ := Routine.mk.inj code
  have has : p.HasCounter rid r := ⟨present, named', body, prepared.labelled present⟩
  obtain rfl := Except.ok.inj (has.enter.symm.trans entered)
  have invokes : (u n).Invokes p id := ⟨f, below, r', i, executes, opcode, named⟩
  obtain ⟨k, counted⟩ : ∃ k, k = Nat.count (fun j => (u j).Invokes p id) n := ⟨_, rfl⟩
  have counting : (u n).Counting rid id k := counted ▸
    has.counting_after reached.step (.rests rested) fun j small => room j (Nat.le_of_lt small)
  have resting := has.rested counting invokes
  have limit : (u n).calls.depth + (u n).calls.room = depth := (reached.step.after n).limit_eq
  have shallow := room n (Nat.le_refl n) invokes
  obtain ⟨room, free⟩ := Nat.exists_eq_add_of_le' (show 1 ≤ (u n).calls.room by omega)
  have inside := executes.register_lt (reached.step.after n) (Frame.size_pos_of_operand named)
    (q := out) (by simp [Instruction.registers, output])
  have yields := has.yields executes opcode named output inside resting free depth
  have written : f.registers.setIfInBounds out (.long (Int64.ofNat (k + 1))) =
      f.registers.set out (.long (Int64.ofNat (k + 1))) inside := dif_pos inside
  refine ⟨k + 1, ?_, fun j small => ?_, inside, .counter rid none (k + 1) 0, _, rfl, ?_, ?_⟩
  · rw [Nat.count_succ, if_pos invokes, counted]
  · have early := Nat.le_of_lt_succ small
    obtain ⟨came, -⟩ := has.reaches executes opcode named resting free early depth
    exact ⟨_, congrArg (·.calls.items) came⟩
  · rw [yields, ← written]
    rfl
  · refine State.standing_suspended (f := .counter rid none (k + 1) 0) ?_
    have created : id < (u n).heap.coroutines.size := Heap.parked_lt resting
    exact (Heap.coroutine_park ..).trans (if_pos ⟨rfl, created⟩)

theorem Machine.counter_at_two :
    let main : Routine := ⟨"main", [
      { opcode := "co-create", output := some 0, payload := .name "counter" },
      { opcode := "co-invoke", inputs := [0], output := some 1 },
      { opcode := "co-invoke", inputs := [0], output := some 1 },
      Demo.ret], ⟨[(Opcodes.labelKey, .labels [])]⟩⟩
    let p : Program := ⟨[main, { Demo.counter with
      notes := ⟨[(Opcodes.labelKey, .labels [("loop", 2)])]⟩ }], {}⟩
    let s : State := { calls := ⟨[⟨0, "main", #[.unset, .unset], 0, none, none⟩], 1⟩ }
    p.Prepared ∧ (Machine.standard 2).Reachable p s ∧
      ∃ t, (Machine.standard 2).runFor p 5 ((Machine.standard 2).after p s 6) = (.unfinished, t) ∧
        t.calls.items = [⟨0, "main", #[.coroutine 0, .long 2], 3, some (.long 2), none⟩] ∧
        t.standing 0 = .suspended := by
  intro main p s
  have prepared : p.Prepared :=
    ⟨2, ⟨⟨[{ main with notes := {} }, Demo.counter], {}⟩, []⟩, _, rfl, rfl⟩
  have reached : (Machine.standard 2).Reachable p s := by
    have started : (Machine.standard 2).start p {} = .ok s := rfl
    exact .start started
  have creates : (Machine.standard 2).Creates p s "counter" :=
    ⟨_, _, _, _, ⟨rfl, rfl, rfl⟩, rfl, rfl, rfl⟩
  have executes : Executes p ((Machine.standard 2).after p ((Machine.standard 2).attempt p s).2 5)
      ⟨0, "main", #[.coroutine 0, .long 1], 2, some (.long 1), none⟩ [] main main.body[2] :=
    ⟨by decide +kernel, rfl, rfl⟩
  obtain ⟨k, counted, -, inside, parked, t, same, ran, suspended⟩ := counter_counts prepared
    (r := p.routines[1]) rfl rfl reached creates 5 (by decide +kernel) _ _ _ _ _ executes rfl rfl rfl
  obtain rfl : k = 2 := counted.trans (by decide +kernel)
  refine ⟨prepared, reached, t, ran, ?_, suspended⟩
  simp only [same, Stack.items_replaceTop executes.top]
  rfl

end RegisterMachine
