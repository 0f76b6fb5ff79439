import RegisterMachine.Proofs.Faults

/-!
What an activation cannot see. An instruction reads its own frame and the shared contents, and when
it hands a value over, the frame right below; of the frames further down it sees neither what they
are nor what they hold. So two runs that differ in those frames only go on in the same way, until
the lowest frame that they have in common leaves the stack, which it then does in both, with one
value.
-/

namespace RegisterMachine

/-- How an activation ends, by itself or for the time being, and what it hands down. -/
inductive Departure where
  | leaves
  | returns (v : Value)
  | yields (v : Value)
deriving DecidableEq

/-- Instruction `i` ends the activation `f` in that way. -/
def Departure.Due (i : Instruction) (f : Frame) : Departure → Prop
  | leaves => i.opcode ∈ Opcodes.plainReturns
  | returns v => i.opcode ∈ Opcodes.valueReturns ∧ f.operand i 0 = .ok v
  | yields v => i.opcode = "co-yield" ∧ f.operand i 0 = .ok v

def State.Departs (p : Program) (s : State) (d : Departure) : Prop :=
  ∃ f below r i, Executes p s f below r i ∧ d.Due i f

/-- The states differ at most in the frames `lo` and `lo'`, as many of them in both, which lie under
the frames `above`. -/
structure State.Shares (s : State) (above lo lo' : List Frame) (t : State) : Prop where
  left : s.calls.items = above ++ lo
  right : t.calls.items = above ++ lo'
  level : lo.length = lo'.length
  limit : s.calls.limit = t.calls.limit
  heap : s.heap = t.heap
  sink : s.sink = t.sink

namespace State.Shares

variable {s t : State} {f : Frame} {above lo lo' : List Frame}

theorem depth (shares : s.Shares above lo lo' t) : s.calls.depth = t.calls.depth := by
  simp [Stack.depth, shares.left, shares.right, shares.level]

theorem covered (shares : s.Shares (f :: above) lo lo' t) : lo.length < s.calls.depth := by
  rw [Stack.depth, shares.left, List.length_append, List.length_cons]
  omega

theorem room (shares : s.Shares above lo lo' t) : s.calls.room = t.calls.room := by
  have limit := shares.limit
  rw [Stack.limit, Stack.limit, shares.depth] at limit
  exact Nat.add_left_cancel limit

theorem replaceTop (shares : s.Shares (f :: above) lo lo' t) (g : Frame) {h k : Heap}
    (same : h = k) : State.Shares { s with calls := s.calls.replaceTop g, heap := h }
      (g :: above) lo lo' { t with calls := t.calls.replaceTop g, heap := k } where
  left := Stack.items_replaceTop shares.left g
  right := Stack.items_replaceTop shares.right g
  level := shares.level
  limit := by simp [shares.limit]
  heap := same
  sink := shares.sink

theorem pop (shares : s.Shares (f :: above) lo lo' t) {h k : Heap} (same : h = k) :
    State.Shares { s with calls := s.calls.pop, heap := h } above lo lo'
      { t with calls := t.calls.pop, heap := k } where
  left := Stack.items_pop shares.left
  right := Stack.items_pop shares.right
  level := shares.level
  limit := by simp [shares.limit]
  heap := same
  sink := shares.sink

end State.Shares

inductive Alike (lo lo' : List Frame) :
    EStateM.Result Fault State Unit → EStateM.Result Fault State Unit → Prop where
  | ok {g above s t} (shares : s.Shares (g :: above) lo lo' t) : Alike lo lo' (.ok () s) (.ok () t)
  | error {e g above s t} (shares : s.Shares (g :: above) lo lo' t) :
      Alike lo lo' (.error e s) (.error e t)

/-- The step came out the same from both states, and there still is a frame above `lo` and `lo'`. -/
structure Lockstep (lo lo' : List Frame) (a b : Except Failure Bool × State) : Prop where
  result : a.1 = b.1
  shares : ∃ g above, a.2.Shares (g :: above) lo lo' b.2

def Deed.departure? : Deed → Option Departure
  | .leave => some .leaves
  | .handBack v => some (.returns v)
  | .yield v => some (.yields v)
  | .change _ | .print _ | .enter _ | .resume .. => none

section Effects

variable {p : Program} {s t : State} {f : Frame} {above lo lo' : List Frame} {i : Instruction}

theorem push_alike (shares : s.Shares (f :: above) lo lo' t) (g : Frame) :
    Alike lo lo' (Effect.push g s) (Effect.push g t) := by
  rw [Effect.push_run, Effect.push_run]
  cases pushed : s.calls.push g with
  | error e =>
    obtain ⟨full, rfl⟩ := Stack.push_eq_error_iff.mp pushed
    have also : t.calls.push g = .error (.stackOverflow (s.calls.depth + 1) s.calls.limit) :=
      Stack.push_eq_error_iff.mpr ⟨shares.room ▸ full, by rw [shares.depth, shares.limit]⟩
    rw [also]
    exact .error shares
  | ok calls =>
    obtain ⟨items, limit⟩ := Stack.push_eq_ok_iff.mp pushed
    cases also : t.calls.push g with
    | error e =>
      obtain ⟨full, -⟩ := Stack.push_eq_error_iff.mp also
      have full : s.calls.push g = .error (.stackOverflow (s.calls.depth + 1) s.calls.limit) :=
        Stack.push_eq_error_iff.mpr ⟨shares.room ▸ full, rfl⟩
      exact nomatch pushed.symm.trans full
    | ok calls' =>
      obtain ⟨items', limit'⟩ := Stack.push_eq_ok_iff.mp also
      have left : calls.items = g :: f :: above ++ lo := by rw [items, shares.left]; rfl
      have right : calls'.items = g :: f :: above ++ lo' := by rw [items', shares.right]; rfl
      have same : calls.limit = calls'.limit := by rw [limit, limit', shares.limit]
      exact .ok ⟨left, right, shares.level, same, shares.heap, shares.sink⟩

theorem deliver_alike (shares : s.Shares (f :: above) lo lo' t) (opcode : String) (v : Value) :
    Alike lo lo' (Effect.deliver p opcode v s) (Effect.deliver p opcode v t) := by
  rw [Effect.deliver_run, Effect.deliver_run, shares.left, shares.right]
  simp only [List.cons_append]
  cases f.receive p opcode v with
  | error e => exact .error shares
  | ok g => exact .ok (shares.replaceTop g shares.heap)

theorem Deed.perform_alike (shares : s.Shares (f :: above) lo lo' t) (d : Deed)
    (stays : d.departure? = none ∨ above ≠ []) :
    Alike lo lo' (d.perform p i f s) (d.perform p i f t) := by
  have below (leaves : d.departure? ≠ none) : ∃ g rest, above = g :: rest :=
    List.exists_cons_of_ne_nil (stays.resolve_left leaves)
  cases d with
  | change c =>
    simp only [perform, ← shares.heap]
    exact .ok (shares.replaceTop _ rfl)
  | print v =>
    simp only [perform, Effect.print_run, ← shares.heap, ← shares.sink]
    split
    · exact .ok ⟨shares.left, shares.right, shares.level, shares.limit, rfl, rfl⟩
    · exact .error ⟨shares.left, shares.right, shares.level, shares.limit, rfl, rfl⟩
  | enter callee => exact push_alike shares callee
  | resume id parked =>
    have emptied : s.heap.park id none = t.heap.park id none := by rw [shares.heap]
    exact push_alike (s := { s with heap := s.heap.park id none })
      (t := { t with heap := t.heap.park id none })
      ⟨shares.left, shares.right, shares.level, shares.limit, emptied, shares.sink⟩ _
  | leave =>
    obtain ⟨g, rest, rfl⟩ := below (Option.some_ne_none _)
    exact .ok (shares.pop shares.heap)
  | handBack v =>
    obtain ⟨g, rest, rfl⟩ := below (Option.some_ne_none _)
    exact deliver_alike (shares.pop shares.heap) i.opcode v
  | yield v =>
    obtain ⟨g, rest, rfl⟩ := below (Option.some_ne_none _)
    have rested : s.heap.rest f = t.heap.rest f := by rw [shares.heap]
    exact deliver_alike (shares.pop rested) i.opcode v

theorem Deed.Fits.departure_due {h : Heap} {d : Deed} (fits : d.Fits p i f h) {x : Departure}
    (ends : d.departure? = some x) : x.Due i f := by
  cases d with
  | change | print | enter | resume => cases ends
  | leave | handBack | yield =>
    cases ends
    exact fits

end Effects

section Steps

variable {p : Program} {s t : State} {f : Frame} {above below lo lo' : List Frame} {r : Routine}
  {i : Instruction} {depth n : Nat}

def Machine.finish (l : Location) :
    EStateM.Result Fault State Unit → Except Failure Bool × State
  | .ok _ t => (.ok true, { t with dispatched := t.dispatched + 1 })
  | .error e t => (.error ⟨e, some l⟩, t)

theorem Machine.attempt_top (m : Machine) (top : s.calls.items = f :: below) :
    m.attempt p s = match p.routine f.routine with
      | .error e => (.error ⟨e, none⟩, s)
      | .ok r => match r.body[f.pointer]? with
        | none => (.error ⟨.pastEnd r.name f.pointer r.body.length, none⟩, s)
        | some i => finish ⟨r.name, f.pointer, i.opcode⟩ (match m.handler? i.opcode with
          | none => .error (.unknownOpcode i.opcode) (s.advance f)
          | some handler => handler p i (s.advance f)) := by
  simp only [attempt, step, Stack.top?, top, List.head?_cons]
  cases p.routine f.routine with
  | error e => rfl
  | ok r =>
    simp only
    cases r.body[f.pointer]? with
    | none => rfl
    | some i =>
      simp only [dispatch]
      cases m.handler? i.opcode with
      | none => rfl
      | some handler =>
        simp only [State.advance]
        cases handler p i { s with calls := s.calls.replaceTop f.advance } <;> rfl

theorem Alike.finish {x y : EStateM.Result Fault State Unit} (alike : Alike lo lo' x y)
    (l : Location) : Lockstep lo lo' (Machine.finish l x) (Machine.finish l y) := by
  cases alike with
  | @ok g above s t shares =>
    exact ⟨rfl, g, above, shares.left, shares.right, shares.level, shares.limit, shares.heap,
      shares.sink⟩
  | @error e g above s t shares => exact ⟨rfl, g, above, shares⟩

theorem State.Shares.attempt (shares : s.Shares (f :: above) lo lo' t) (p : Program)
    (depth : Nat) :
    Lockstep lo lo' ((Machine.standard depth).attempt p s) ((Machine.standard depth).attempt p t) ∨
      above = [] ∧ ∃ d, s.Departs p d ∧ t.Departs p d := by
  rw [Machine.attempt_top _ shares.left, Machine.attempt_top _ shares.right]
  cases found : p.routine f.routine with
  | error e => exact .inl ⟨rfl, f, above, shares⟩
  | ok r =>
    simp only
    cases fetched : r.body[f.pointer]? with
    | none => exact .inl ⟨rfl, f, above, shares⟩
    | some i =>
      have passed : (s.advance f).Shares (f.advance :: above) lo lo' (t.advance f) :=
        shares.replaceTop f.advance shares.heap
      simp only
      cases known : (Machine.standard depth).handler? i.opcode with
      | none => exact .inl (Alike.finish (.error passed) _)
      | some handler =>
        obtain ⟨plan, follows, sound⟩ := handler?_planned known
        have decision := sound p i f.advance (s.advance f).heap rfl
        simp only
        rw [follows p i _ _ _ passed.left, follows p i _ _ _ passed.right, ← passed.heap]
        cases decided : plan p i f.advance (s.advance f).heap with
        | error e => exact .inl (Alike.finish (.error passed) _)
        | ok d =>
          rw [decided] at decision
          cases ends : d.departure? with
          | none => exact .inl ((d.perform_alike passed (.inl ends)).finish _)
          | some x =>
            -- only the last frame above `lo` and `lo'` can hand what it leaves to one of these
            by_cases last : above = []
            · have due : x.Due i f := decision.departure_due ends
              exact .inr ⟨last, x, ⟨f, _, r, i, ⟨shares.left, found, fetched⟩, due⟩,
                f, _, r, i, ⟨shares.right, found, fetched⟩, due⟩
            · exact .inl ((d.perform_alike passed (.inr last)).finish _)

theorem handler?_leave {opcode : String} (returns : opcode ∈ Opcodes.plainReturns)
    (depth : Nat) : (Machine.standard depth).handler? opcode = some Opcodes.leave := by
  simp only [Opcodes.plainReturns, List.mem_cons, List.not_mem_nil, or_false] at returns
  obtain rfl | rfl := returns <;> rfl

theorem State.Departs.pops {d : Departure} (departs : s.Departs p d) (depth : Nat) :
    ((Machine.standard depth).attempt p s).2.calls.depth + 1 = s.calls.depth := by
  obtain ⟨f, below, r, i, executes, due⟩ := departs
  have before : s.calls.depth = below.length + 1 := by rw [Stack.depth, executes.top]; rfl
  rw [before, Nat.add_right_cancel_iff, Stack.depth]
  cases d with
  | leaves =>
    rw [executes.attempt_eq (handler?_leave due depth) follows_leave]
    exact congrArg List.length (Stack.items_pop (Stack.items_replaceTop executes.top _))
  | returns v => exact (executes.delivery (List.mem_append_left _ due.1) due.2 depth).length_eq
  | yields v =>
    have gives : i.opcode ∈ Opcodes.valueReturns ++ ["co-yield"] := by simp [due.1]
    exact (executes.delivery gives due.2 depth).length_eq

/-- A step from states that have a frame in common goes on in common, or takes the last frame that
they have in common off both stacks. -/
theorem State.Shares.step (shares : s.Shares (f :: above) lo lo' t) (p : Program) (depth : Nat) :
    Lockstep lo lo' ((Machine.standard depth).attempt p s) ((Machine.standard depth).attempt p t) ∨
      ((Machine.standard depth).attempt p s).2.calls.depth = lo.length ∧
      ((Machine.standard depth).attempt p t).2.calls.depth = lo.length ∧
      ∃ d, s.Departs p d ∧ t.Departs p d := by
  obtain step | ⟨rfl, d, here, there⟩ := shares.attempt p depth
  · exact .inl step
  · have before : s.calls.depth = lo.length + 1 := by rw [Stack.depth, shares.left]; rfl
    have here' := here.pops depth
    have there' := there.pops depth
    rw [before] at here'
    rw [← shares.depth, before] at there'
    exact .inr ⟨Nat.succ.inj here', Nat.succ.inj there', d, here, there⟩

theorem Machine.after_shares (shares : s.Shares above lo lo' t)
    (kept : ∀ k ≤ n, lo.length < ((standard depth).after p s k).calls.depth) (k : Nat)
    (within : k ≤ n) : ∃ g above',
      ((standard depth).after p s k).Shares (g :: above') lo lo' ((standard depth).after p t k) := by
  induction k with
  | zero =>
    have deep := kept 0 (Nat.zero_le n)
    cases above with
    | nil =>
      rw [after, Stack.depth, shares.left] at deep
      exact absurd deep (Nat.lt_irrefl _)
    | cons g above' => exact ⟨g, above', shares⟩
  | succ k ih =>
    obtain ⟨g, above', shared⟩ := ih (by omega)
    obtain step | ⟨popped, -⟩ := shared.step p depth
    · exact step.shares
    · exact absurd (kept (k + 1) within) (Nat.not_lt_of_le (Nat.le_of_eq popped))

/-- Runs from two states that differ in frames under others only. Until the last of the others
leaves the stack every step has the same result in both, and it leaves by the same instruction with
the same value. -/
theorem Machine.callers_unseen (shares : s.Shares above lo lo' t)
    (kept : ∀ k ≤ n, lo.length < ((standard depth).after p s k).calls.depth) :
    (∀ k < n, ((standard depth).attempt p ((standard depth).after p s k)).1 =
      ((standard depth).attempt p ((standard depth).after p t k)).1) ∧
    (∀ k ≤ n, ∃ g above',
      ((standard depth).after p s k).Shares (g :: above') lo lo' ((standard depth).after p t k)) ∧
    (((standard depth).after p s (n + 1)).calls.depth ≤ lo.length →
      ((standard depth).after p s (n + 1)).calls.depth = lo.length ∧
      ((standard depth).after p t (n + 1)).calls.depth = lo.length ∧
      ∃ d, ((standard depth).after p s n).Departs p d ∧
        ((standard depth).after p t n).Departs p d) := by
  have shared := after_shares (p := p) shares kept
  refine ⟨fun k within => ?_, shared, fun back => ?_⟩
  · obtain ⟨g, above', shares⟩ := shared k (Nat.le_of_lt within)
    obtain step | ⟨popped, -⟩ := shares.step p depth
    · exact step.result
    · exact absurd (kept (k + 1) within) (Nat.not_lt_of_le (Nat.le_of_eq popped))
  · obtain ⟨g, above', shares⟩ := shared n (Nat.le_refl n)
    obtain step | popped := shares.step p depth
    · obtain ⟨_, _, shares⟩ := step.shares
      exact absurd shares.covered (Nat.not_lt_of_le back)
    · exact popped

end Steps

theorem State.yielding_unseen :
    let m := Machine.standard 2
    let s := m.after .yielding yielding 2
    let t := { s with calls := { s.calls with
      items := s.calls.items.take 1 ++ [{ routine := 9, name := "", registers := #[] }] } }
    s ≠ t ∧
      (m.attempt .yielding (m.after .yielding s 0)).1 =
        (m.attempt .yielding (m.after .yielding t 0)).1 ∧
      (m.after .yielding t 2).calls.depth = 1 ∧
      (∃ d, (m.after .yielding s 1).Departs .yielding d ∧
        (m.after .yielding t 1).Departs .yielding d) ∧
      (m.attempt .yielding (m.after .yielding s 1)).1 = .ok true ∧
      ∃ e, (m.attempt .yielding (m.after .yielding t 1)).1 = .error e := by
  intro m s t
  have shares : s.Shares (s.calls.items.take 1) (s.calls.items.drop 1)
      [{ routine := 9, name := "", registers := #[] }] t := ⟨rfl, rfl, rfl, rfl, rfl, rfl⟩
  have kept : ∀ k ≤ 1, (s.calls.items.drop 1).length < (m.after .yielding s k).calls.depth := by
    intro k within
    match k, within with
    | 0, _ | 1, _ => decide +kernel
  obtain ⟨same, -, back⟩ := Machine.callers_unseen shares kept
  obtain ⟨-, popped, departs⟩ := back (by decide +kernel)
  exact ⟨by decide +kernel, same 0 (by decide), popped, departs, rfl, _, rfl⟩

end RegisterMachine
