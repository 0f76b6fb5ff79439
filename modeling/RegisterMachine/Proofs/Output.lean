import RegisterMachine.Proofs.SideBySide

/-!
What a run prints. A step passes a line to the sink when it executes a `debug-print` whose operand
can be read, and nothing otherwise, so what was written is what was there before with the lines of
the steps in their order, cut off where the sink is full. Room in the sink shows in nothing but the
one step whose line does not fit any more: up to there the run is the same as on a sink without end.
-/

namespace RegisterMachine

namespace Sink

variable {s : Sink} {a b : Array UInt8}

def bounded (s : Sink) (n : Nat) : Sink := { s with room := some n }

/-- The pieces one after the other up to the first that does not fit, and whether all of them do. -/
def appendAll (s : Sink) : List (Array UInt8) → Sink × Bool
  | [] => (s, true)
  | piece :: rest =>
    if s.accepted piece.size = piece.size then (s.append piece).appendAll rest
    else (s.append piece, false)

@[simp] theorem room_append (s : Sink) (a : Array UInt8) : (s.append a).room = s.room := rfl

@[simp] theorem append_empty (s : Sink) : s.append #[] = s := by simp [append]

theorem accepted_le (s : Sink) (wanted : Nat) : s.accepted wanted ≤ wanted := by
  unfold accepted
  split <;> omega

theorem size_append (s : Sink) (a : Array UInt8) :
    (s.append a).written.size = s.written.size + s.accepted a.size := by
  simp only [append, Array.size_append, Array.take_eq_extract, Array.size_extract]
  have := s.accepted_le a.size
  omega

theorem written_append (s : Sink) (a : Array UInt8) :
    (s.append a).written = s.written ++ a.take (s.accepted a.size) := rfl

theorem written_append_of_fits (fits : s.accepted a.size = a.size) :
    (s.append a).written = s.written ++ a := by
  simp [written_append, fits]

theorem accepted_add (s : Sink) (a : Array UInt8) (wanted : Nat) :
    s.accepted (a.size + wanted) = s.accepted a.size + (s.append a).accepted wanted := by
  have grown := s.size_append a
  unfold accepted at grown ⊢
  simp only [room_append]
  cases room : s.room with
  | none => rfl
  | some n =>
    simp only [room] at grown ⊢
    omega

theorem accepted_append_of_cut (cut : s.accepted a.size < a.size) (wanted : Nat) :
    (s.append a).accepted wanted = 0 := by
  have grown := s.size_append a
  unfold accepted at grown cut ⊢
  simp only [room_append]
  cases room : s.room with
  | none => simp [room] at cut
  | some n =>
    simp only [room] at grown cut ⊢
    omega

theorem accepted_of_unbounded (unbounded : s.room = none) (wanted : Nat) :
    s.accepted wanted = wanted := by
  simp [accepted, unbounded]

theorem accepted_bounded_iff {n wanted : Nat} (le : s.written.size ≤ n) :
    (s.bounded n).accepted wanted = wanted ↔ s.written.size + wanted ≤ n := by
  simp only [accepted, bounded]
  omega

theorem append_bounded {n : Nat} (unbounded : s.room = none)
    (fits : (s.bounded n).accepted a.size = a.size) :
    (s.bounded n).append a = (s.append a).bounded n := by
  rw [append, fits, append, accepted_of_unbounded unbounded]
  rfl

theorem written_append_bounded {n : Nat} (le : s.written.size ≤ n) (a : Array UInt8) :
    ((s.bounded n).append a).written = (s.written ++ a).take n := by
  have least : a.take (min a.size (n - s.written.size)) = a.take (n - s.written.size) := by
    rcases Nat.le_total a.size (n - s.written.size) with short | long
    · simp [Nat.min_eq_left short, Array.extract_eq_self_of_le short]
    · rw [Nat.min_eq_right long]
  rw [written_append, accepted]
  simp only [bounded, least, Array.take_eq_extract, Array.extract_append,
    Array.extract_eq_self_of_le le, Nat.zero_sub]

theorem append_of_full (full : s.accepted a.size = 0) : s.append a = s := by
  simp [append, full]

theorem append_append (s : Sink) (a b : Array UInt8) :
    (s.append a).append b = s.append (a ++ b) := by
  have both := s.accepted_add a b.size
  rcases Nat.lt_or_eq_of_le (s.accepted_le a.size) with cut | fits
  · have nothing := accepted_append_of_cut cut b.size
    rw [nothing, Nat.add_zero] at both
    rw [append_of_full nothing]
    simp [append, both, Array.extract_append, Nat.sub_eq_zero_of_le (Nat.le_of_lt cut)]
  · have whole (k : Nat) : (a ++ b).take (a.size + k) = a ++ b.take k := by
      simp [Array.extract_append, Array.extract_eq_self_of_le]
    have written : ((s.append a).append b).written = (s.append (a ++ b)).written := by
      rw [written_append, written_append_of_fits fits, written_append, Array.size_append, both,
        fits, whole, Array.append_assoc]
    exact congrArg (fun written => { s with written }) written

theorem appendAll_eq (s : Sink) (pieces : List (Array UInt8)) :
    let whole := pieces.foldr (· ++ ·) #[]
    s.appendAll pieces = (s.append whole, decide (s.accepted whole.size = whole.size)) := by
  induction pieces generalizing s with
  | nil =>
    have none : s.accepted 0 = 0 := Nat.le_zero.mp (s.accepted_le 0)
    simp [appendAll, none]
  | cons piece rest ih =>
    have both := s.accepted_add piece (rest.foldr (· ++ ·) #[]).size
    have le := (s.append piece).accepted_le (rest.foldr (· ++ ·) #[]).size
    simp only [appendAll, List.foldr_cons, ih, append_append, Array.size_append]
    split
    · next fits => simp only [both, fits, Nat.add_left_cancel_iff]
    · next cut =>
      have cut := Nat.lt_of_le_of_ne (s.accepted_le piece.size) cut
      have nothing := accepted_append_of_cut cut (rest.foldr (· ++ ·) #[]).size
      rw [← append_append, append_of_full nothing, decide_eq_false (by omega)]

end Sink

def Heap.line (h : Heap) (v : Value) : Array UInt8 := (h.render v ++ "\n").toUTF8.data

namespace State

def printing? (p : Program) (s : State) : Option Value := do
  let f ← s.calls.top?
  let r ← (p.routine f.routine).toOption
  let i ← r.body[f.pointer]?
  if i.opcode = "debug-print" then (f.operand i 0).toOption else none

def line (p : Program) (s : State) : Array UInt8 :=
  match s.printing? p with
  | some v => s.heap.line v
  | none => #[]

def onto (s : State) (sink : Sink) : State := { s with sink }

def bounded (s : State) (n : Nat) : State := s.onto (s.sink.bounded n)

theorem onto_sink (s : State) : s.onto s.sink = s := rfl

variable {p : Program} {s : State} {f : Frame} {below : List Frame} {r : Routine} {i : Instruction}
  {v : Value}

theorem printing?_eq_some_iff : s.printing? p = some v ↔
    ∃ f below r i, Executes p s f below r i ∧ i.opcode = "debug-print" ∧ f.operand i 0 = .ok v := by
  constructor
  · intro prints
    simp only [printing?, Stack.top?, Option.bind_eq_bind, Option.bind_eq_some_iff] at prints
    obtain ⟨f, top, r, found, i, fetched, prints⟩ := prints
    obtain ⟨below, items⟩ := List.head?_eq_some_iff.mp top
    cases routine : p.routine f.routine with
    | error e => simp [routine, Except.toOption] at found
    | ok r' =>
      obtain rfl : r' = r := by simpa [routine, Except.toOption] using found
      split at prints
      · next opcode =>
        refine ⟨f, below, r', i, ⟨items, routine, fetched⟩, opcode, ?_⟩
        cases read : f.operand i 0 with
        | error e => simp [read, Except.toOption] at prints
        | ok w =>
          obtain rfl : w = v := by simpa [read, Except.toOption] using prints
          rfl
      · cases prints
  · rintro ⟨f, below, r, i, executes, opcode, read⟩
    simp [printing?, Stack.top?, executes.top, executes.found, executes.fetched, opcode, read,
      Except.toOption]

theorem line_of_printing (prints : s.printing? p = some v) : s.line p = s.heap.line v := by
  simp [line, prints]

theorem line_of_silent (silent : s.printing? p = none) : s.line p = #[] := by
  simp [line, silent]

end State

section Steps

variable {p : Program} {s : State} {f : Frame} {r : Routine} {i : Instruction} {v : Value}
  {depth n : Nat}

theorem Deed.perform_onto {d : Deed} (silent : ∀ v, d ≠ .print v) (s : State) (sink : Sink) :
    d.perform p i f (s.onto sink) = Machine.transport (·.onto sink) (d.perform p i f s) := by
  have pushed (g : Frame) (s : State) : Effect.push g (s.onto sink) =
      Machine.transport (·.onto sink) (Effect.push g s) := by
    rw [Effect.push_run, Effect.push_run]
    simp only [State.onto]
    cases s.calls.push g <;> rfl
  have delivered (v : Value) (s : State) : Effect.deliver p i.opcode v (s.onto sink) =
      Machine.transport (·.onto sink) (Effect.deliver p i.opcode v s) := by
    rw [Effect.deliver_run, Effect.deliver_run]
    simp only [State.onto]
    cases s.calls.items with
    | nil => rfl
    | cons g rest => simp only; cases g.receive p i.opcode v <;> rfl
  cases d with
  | change | leave => rfl
  | print v => exact absurd rfl (silent v)
  | enter callee => exact pushed callee s
  | resume id parked => exact pushed _ { s with heap := s.heap.park id none }
  | handBack v => exact delivered v { s with calls := s.calls.pop }
  | yield v => exact delivered v { s with calls := s.calls.pop, heap := s.heap.rest f }

theorem Machine.attempt_onto (depth : Nat) (silent : s.printing? p = none) (sink : Sink) :
    (standard depth).attempt p (s.onto sink) =
      Prod.map id (·.onto sink) ((standard depth).attempt p s) := by
  have together := attempt_together (s := s) (t := s.onto sink) p depth rfl rfl
  generalize (standard depth).attempt p s = ran at together ⊢
  generalize (standard depth).attempt p (s.onto sink) = ran' at together ⊢
  cases together with
  | stays idle room => rfl
  | fails executes room => rfl
  | @performs f below r i d executes fits =>
    have other (v : Value) : d ≠ .print v := by
      rintro rfl
      have prints := State.printing?_eq_some_iff.mpr ⟨f, below, r, i, executes, fits⟩
      cases silent.symm.trans prints
    change finish _ (d.perform p i f.advance ((s.advance f).onto sink)) = _
    rw [d.perform_onto other, finish_transport fun _ => rfl]

theorem Machine.attempt_print (depth : Nat) (prints : s.printing? p = some v) :
    ∃ f below r i, Executes p s f below r i ∧ i.opcode = "debug-print" ∧
      ∀ sink, (standard depth).attempt p (s.onto sink) =
        if sink.accepted (s.line p).size = (s.line p).size then
          (.ok true, { (s.advance f).onto (sink.append (s.line p)) with
            dispatched := s.dispatched + 1 })
        else
          (.error ⟨Sink.full, some ⟨r.name, f.pointer, i.opcode⟩⟩,
            (s.advance f).onto (sink.append (s.line p))) := by
  obtain ⟨f, below, r, i, executes, opcode, read⟩ := State.printing?_eq_some_iff.mp prints
  refine ⟨f, below, r, i, executes, opcode, fun sink => ?_⟩
  have executes' : Executes p (s.onto sink) f below r i :=
    ⟨executes.top, executes.found, executes.fetched⟩
  have read : f.advance.operand i 0 = .ok v := read
  have known : (standard depth).handler? i.opcode = some Opcodes.printLine := opcode ▸ rfl
  have printed : (Deed.print v).perform p i f.advance ((s.onto sink).advance f) =
      if sink.accepted (s.line p).size = (s.line p).size then
        .ok () ((s.advance f).onto (sink.append (s.line p)))
      else .error Sink.full ((s.advance f).onto (sink.append (s.line p))) := by
    rw [State.line_of_printing prints]
    exact Effect.print_run _ _
  rw [executes'.attempt_eq known follows_printLine]
  simp only [Plan.printLine, read, ok_bind, pure, Except.pure, printed]
  by_cases fits : sink.accepted (s.line p).size = (s.line p).size
  · simp only [fits, if_true]
    rfl
  · simp only [fits, if_false]

theorem Machine.attempt_ok_iff (prints : s.printing? p = some v) :
    ((standard depth).attempt p s).1 = .ok true ↔
      s.sink.accepted (s.line p).size = (s.line p).size := by
  obtain ⟨f, below, r, i, -, -, ran⟩ := attempt_print depth prints
  have ran := ran s.sink
  rw [s.onto_sink] at ran
  rw [ran]
  split <;> simp_all

/-- What is written after a step is what was written before and its line, as far as that fits. -/
theorem Machine.attempt_sink (depth : Nat) (p : Program) (s : State) :
    ((standard depth).attempt p s).2.sink = s.sink.append (s.line p) := by
  cases prints : s.printing? p with
  | none =>
    have ran := attempt_onto depth prints s.sink
    rw [s.onto_sink] at ran
    rw [ran, State.line_of_silent prints, Sink.append_empty]
    rfl
  | some v =>
    obtain ⟨f, below, r, i, -, -, ran⟩ := attempt_print depth prints
    have ran := ran s.sink
    rw [s.onto_sink] at ran
    rw [ran]
    split <;> rfl

theorem Machine.size_attempt (unbounded : s.sink.room = none) (depth : Nat) (p : Program) :
    ((standard depth).attempt p s).2.sink.written.size =
      s.sink.written.size + (s.line p).size := by
  rw [attempt_sink, Sink.size_append, Sink.accepted_of_unbounded unbounded]

theorem Machine.attempt_bounded (unbounded : s.sink.room = none)
    (small : ((standard depth).attempt p s).2.sink.written.size ≤ n) :
    (standard depth).attempt p (s.bounded n) =
      Prod.map id (·.bounded n) ((standard depth).attempt p s) := by
  cases prints : s.printing? p with
  | none =>
    have same : ((standard depth).attempt p s).2.sink = s.sink := by
      rw [attempt_sink, State.line_of_silent prints, Sink.append_empty]
    rw [State.bounded, attempt_onto depth prints]
    exact Prod.ext rfl (by simp only [Prod.map, State.bounded, same])
  | some v =>
    rw [size_attempt unbounded] at small
    have whole := Sink.accepted_of_unbounded unbounded (s.line p).size
    have fits := (Sink.accepted_bounded_iff (by omega)).mpr small
    obtain ⟨f, below, r, i, -, -, ran⟩ := attempt_print depth prints
    have wide := ran s.sink
    rw [s.onto_sink, if_pos whole] at wide
    rw [State.bounded, ran, if_pos fits, wide, Sink.append_bounded unbounded fits]
    rfl

theorem Machine.attempt_cut (unbounded : s.sink.room = none) (le : s.sink.written.size ≤ n)
    (beyond : n < ((standard depth).attempt p s).2.sink.written.size) :
    ∃ f below r i, Executes p s f below r i ∧ i.opcode = "debug-print" ∧
      ((standard depth).attempt p s).1 = .ok true ∧
      ((standard depth).attempt p (s.bounded n)).1 =
        .error ⟨Sink.full, some ⟨r.name, f.pointer, i.opcode⟩⟩ := by
  rw [size_attempt unbounded] at beyond
  cases prints : s.printing? p with
  | none =>
    simp only [State.line_of_silent prints, List.size_toArray, List.length_nil] at beyond
    omega
  | some v =>
    have whole := Sink.accepted_of_unbounded unbounded (s.line p).size
    have cut : (s.sink.bounded n).accepted (s.line p).size ≠ (s.line p).size := by
      rw [Ne, Sink.accepted_bounded_iff le]
      omega
    obtain ⟨f, below, r, i, executes, opcode, ran⟩ := attempt_print depth prints
    refine ⟨f, below, r, i, executes, opcode, (attempt_ok_iff prints).mpr whole, ?_⟩
    rw [State.bounded, ran, if_neg cut]

end Steps

section Runs

variable {p : Program} {s : State} {sink : Sink} {depth n steps : Nat}

/-- The lines of the first `n` steps, one after the other. -/
def Machine.printed (m : Machine) (p : Program) (s : State) : (n : Nat) → Array UInt8
  | 0 => #[]
  | n + 1 => m.printed p s n ++ (m.after p s n).line p

theorem Machine.after_sink (depth : Nat) (p : Program) (s : State) (n : Nat) :
    ((standard depth).after p s n).sink = s.sink.append ((standard depth).printed p s n) := by
  induction n with
  | zero => exact s.sink.append_empty.symm
  | succ n ih => rw [after, attempt_sink, ih, printed, Sink.append_append]

theorem Machine.after_room (depth : Nat) (p : Program) (s : State) (n : Nat) :
    ((standard depth).after p s n).sink.room = s.sink.room := by
  rw [after_sink, Sink.room_append]

theorem Machine.printed_extends (m : Machine) (p : Program) (s : State) {j k : Nat} (le : j ≤ k) :
    ∃ rest, m.printed p s k = m.printed p s j ++ rest := by
  induction le with
  | refl => exact ⟨#[], Array.append_empty.symm⟩
  | @step k le ih =>
    obtain ⟨rest, ih⟩ := ih
    exact ⟨rest ++ (m.after p s k).line p, by rw [printed, ih, Array.append_assoc]⟩

theorem Machine.written_after (unbounded : s.sink.room = none) (n : Nat) :
    ((standard depth).after p s n).sink.written =
      s.sink.written ++ (standard depth).printed p s n := by
  rw [after_sink, Sink.written_append_of_fits (Sink.accepted_of_unbounded unbounded _)]

theorem Machine.written_extends (depth : Nat) (p : Program) (unbounded : s.sink.room = none)
    {j k : Nat} (le : j ≤ k) :
    ∃ rest, ((standard depth).after p s k).sink.written =
      ((standard depth).after p s j).sink.written ++ rest := by
  obtain ⟨rest, more⟩ := printed_extends (standard depth) p s le
  exact ⟨rest, by simp only [written_after unbounded, more, Array.append_assoc]⟩

theorem Machine.size_after_mono (unbounded : s.sink.room = none) {j k : Nat} (le : j ≤ k) :
    ((standard depth).after p s j).sink.written.size ≤
      ((standard depth).after p s k).sink.written.size := by
  obtain ⟨rest, more⟩ := written_extends depth p unbounded le
  rw [more, Array.size_append]
  exact Nat.le_add_right _ _

theorem Machine.after_bounded (unbounded : s.sink.room = none) {k : Nat}
    (small : ((standard depth).after p s k).sink.written.size ≤ n) {j : Nat} (within : j ≤ k) :
    (standard depth).after p (s.bounded n) j = ((standard depth).after p s j).bounded n := by
  refine after_map (φ := (·.bounded n)) (fun j earlier => ?_) within
  have fits := Nat.le_trans (size_after_mono unbounded (Nat.succ_le_of_lt earlier)) small
  exact attempt_bounded ((after_room depth p s j).trans unbounded) fits

theorem Machine.exists_crossing (small : s.sink.written.size ≤ n) {m : Machine} {k : Nat}
    (beyond : n < (m.after p s k).sink.written.size) :
    ∃ j < k, (m.after p s j).sink.written.size ≤ n ∧ n < (m.after p s (j + 1)).sink.written.size := by
  induction k with
  | zero => exact absurd small (Nat.not_le.mpr beyond)
  | succ k ih =>
    by_cases before : n < (m.after p s k).sink.written.size
    · obtain ⟨j, earlier, crossing⟩ := ih before
      exact ⟨j, Nat.lt_succ_of_lt earlier, crossing⟩
    · exact ⟨k, Nat.lt_succ_self k, Nat.not_lt.mp before, beyond⟩

theorem Machine.written_cut (unbounded : s.sink.room = none) {k later : Nat}
    (small : ((standard depth).after p s k).sink.written.size ≤ n)
    (beyond : n < ((standard depth).after p s (k + 1)).sink.written.size) (le : k + 1 ≤ later) :
    ((standard depth).after p (s.bounded n) (k + 1)).sink.written =
      ((standard depth).after p s later).sink.written.take n := by
  obtain ⟨rest, more⟩ := written_extends depth p unbounded le
  have now : ((standard depth).after p s (k + 1)).sink.written =
      ((standard depth).after p s k).sink.written ++ ((standard depth).after p s k).line p := by
    rw [after, attempt_sink, Sink.written_append_of_fits]
    exact Sink.accepted_of_unbounded ((after_room depth p s k).trans unbounded) _
  have line (t : State) : (t.bounded n).line p = t.line p := rfl
  calc ((standard depth).after p (s.bounded n) (k + 1)).sink.written
    _ = ((((standard depth).after p s k).sink.bounded n).append
          (((standard depth).after p s k).line p)).written := by
        rw [after, attempt_sink, after_bounded unbounded small (Nat.le_refl k), line]
        rfl
    _ = ((standard depth).after p s (k + 1)).sink.written.take n := by
        rw [Sink.written_append_bounded small, now]
    _ = ((standard depth).after p s later).sink.written.take n := by
        rw [more]
        simp [Array.extract_append, Nat.sub_eq_zero_of_le (Nat.le_of_lt beyond)]

theorem Machine.runFor_bounded (unbounded : s.sink.room = none)
    (small : ((standard depth).runFor p steps s).2.sink.written.size ≤ n) :
    (standard depth).runFor p steps (s.bounded n) =
      Prod.map id (·.bounded n) ((standard depth).runFor p steps s) := by
  obtain ⟨last, -, ends, unfinished⟩ := runFor_eq_after (standard depth) p s steps
  rw [ends] at small
  refine runFor_map (φ := (·.bounded n)) fun k earlier going => ?_
  have before : k + 1 ≤ last := (unfinished k earlier).mp going
  have same := after_bounded unbounded small (Nat.le_of_succ_le before)
  rw [← same, same]
  exact attempt_bounded ((after_room depth p s k).trans unbounded)
    (Nat.le_trans (size_after_mono unbounded before) small)

theorem Machine.runFor_cut (unbounded : s.sink.room = none) (le : s.sink.written.size ≤ n)
    (beyond : n < ((standard depth).runFor p steps s).2.sink.written.size) :
    ∃ l, ((standard depth).runFor p steps (s.bounded n)).1 = .failed ⟨Sink.full, some l⟩ ∧
      l.opcode = "debug-print" ∧
      ((standard depth).runFor p steps (s.bounded n)).2.sink.written =
        ((standard depth).runFor p steps s).2.sink.written.take n := by
  obtain ⟨last, within, ends, unfinished⟩ := runFor_eq_after (standard depth) p s steps
  rw [ends] at beyond
  -- up to the crossing the bounded run is the unbounded one, and there it fails and is over
  obtain ⟨k, earlier, small, crosses⟩ := exists_crossing le beyond
  obtain ⟨f, below, r, i, -, opcode, -, failed⟩ :=
    attempt_cut ((after_room depth p s k).trans unbounded) small crosses
  rw [← after_bounded unbounded small (Nat.le_refl k)] at failed
  have going : ((standard depth).runFor p k (s.bounded n)).1 = .unfinished := by
    obtain ⟨j, before, came, -⟩ := runFor_eq_after (standard depth) p s k
    rw [runFor_bounded unbounded (came ▸ Nat.le_trans (size_after_mono unbounded before) small)]
    exact (unfinished k (by omega)).mpr earlier
  rw [runFor_failed going (Prod.ext failed rfl) (by omega), ends]
  exact ⟨_, rfl, opcode, written_cut unbounded small crosses earlier⟩

theorem Machine.start_onto (m : Machine) (p : Program) (sink : Sink) :
    m.start p sink = (m.start p {}).map (·.onto sink) := by
  unfold start
  cases p.find Program.entry with
  | error e => rfl
  | ok id =>
    simp only [ok_bind]
    cases Frame.enter p id [] with
    | error e => rfl
    | ok f =>
      simp only [ok_bind]
      cases (Stack.empty m.maxDepth).push f <;> rfl

theorem Machine.start_sink {m : Machine} (started : m.start p sink = .ok s) : s.sink = sink := by
  rw [start_onto] at started
  cases plain : m.start p {} with
  | error e => simp [plain, Except.map] at started
  | ok t =>
    rw [plain] at started
    cases started
    rfl

theorem Machine.start_bounded (m : Machine) (p : Program) (sink : Sink) (n : Nat) :
    m.start p (sink.bounded n) = (m.start p sink).map (·.bounded n) := by
  rw [start_onto m p sink, start_onto]
  cases m.start p {} <;> rfl

theorem Machine.execute_bounded (unbounded : sink.room = none)
    (small : ((standard depth).execute p sink steps).2.1.written.size ≤ n) :
    (standard depth).execute p (sink.bounded n) steps =
      Prod.map id (Prod.map (·.bounded n) id) ((standard depth).execute p sink steps) := by
  refine execute_map (ψ := (·.bounded n)) (start_bounded _ p sink n) (fun s started => ?_)
    (fun _ => rfl) fun _ => rfl
  have room := (congrArg Sink.room (start_sink started)).trans unbounded
  simp only [execute, started] at small
  exact runFor_bounded room small

theorem Machine.execute_cut (unbounded : sink.room = none) (le : sink.written.size ≤ n)
    (beyond : n < ((standard depth).execute p sink steps).2.1.written.size) :
    ∃ l, ((standard depth).execute p (sink.bounded n) steps).1 = .failed ⟨Sink.full, some l⟩ ∧
      l.opcode = "debug-print" ∧
      ((standard depth).execute p (sink.bounded n) steps).2.1.written =
        ((standard depth).execute p sink steps).2.1.written.take n := by
  unfold execute at beyond ⊢
  rw [start_bounded]
  cases started : (standard depth).start p sink with
  | error e =>
    simp only [started] at beyond
    omega
  | ok s =>
    simp only [started] at beyond
    have same := start_sink started
    exact runFor_cut (same ▸ unbounded) (same ▸ le) beyond

/-- A sink that takes `n` bytes in all shows in a run only at the `debug-print` with which the
output first goes further: that step fails, and what was written then are the first `n` bytes of
what is written without end. -/
theorem Machine.output_cut (depth n : Nat) (p : Program) (flushes : Bool) :
    let m := standard depth
    let endless : Sink := { flushes }
    m.start p (endless.bounded n) = (m.start p endless).map (·.bounded n) ∧
    (∀ s, m.start p endless = .ok s →
      let run := m.after p s
      let cut := m.after p (s.bounded n)
      (∀ k, (run k).sink.written = m.printed p s k) ∧
      (∀ k, (run k).sink.written.size ≤ n → cut k = (run k).bounded n ∧
        ∀ j < k, (m.attempt p (cut j)).1 = (m.attempt p (run j)).1) ∧
      ∀ k, (run k).sink.written.size ≤ n → n < (run (k + 1)).sink.written.size →
        ∃ f below r i, Executes p (run k) f below r i ∧ i.opcode = "debug-print" ∧
          (m.attempt p (run k)).1 = .ok true ∧
          (m.attempt p (cut k)).1 = .error ⟨Sink.full, some ⟨r.name, f.pointer, i.opcode⟩⟩ ∧
          ∀ later ≥ k + 1, (cut (k + 1)).sink.written = (run later).sink.written.take n) ∧
    (∀ steps,
      let whole := m.execute p endless steps
      let short := m.execute p (endless.bounded n) steps
      (whole.2.1.written.size ≤ n → short = (whole.1, whole.2.1.bounded n, whole.2.2)) ∧
      (n < whole.2.1.written.size → ∃ l, short.1 = .failed ⟨Sink.full, some l⟩ ∧
        l.opcode = "debug-print" ∧ short.2.1.written = whole.2.1.written.take n)) ∧
    ∀ s : State,
      (∀ k, (m.after p s k).sink = s.sink.append (m.printed p s k)) ∧
      ∀ v, s.printing? p = some v →
        ((m.attempt p s).1 = .ok true ↔ s.sink.accepted (s.line p).size = (s.line p).size) ∧
        ∀ pieces, pieces.foldr (· ++ ·) #[] = s.line p →
          (s.sink.appendAll pieces).1 = (m.attempt p s).2.sink ∧
          ((s.sink.appendAll pieces).2 = true ↔ (m.attempt p s).1 = .ok true) := by
  intro m endless
  refine ⟨start_bounded m p endless n, fun s started => ?_, fun steps => ?_, fun s => ?_⟩
  · intro run cut
    have sink : s.sink = endless := start_sink started
    have unbounded : s.sink.room = none := by rw [sink]
    refine ⟨fun k => ?_, fun k small => ?_, fun k small beyond => ?_⟩
    · have written : (run k).sink.written = s.sink.written ++ m.printed p s k :=
        written_after unbounded k
      rw [written, sink, Array.empty_append]
    · refine ⟨after_bounded unbounded small (Nat.le_refl k), fun j earlier => ?_⟩
      have same : cut j = (run j).bounded n :=
        after_bounded unbounded small (Nat.le_of_lt earlier)
      have fits : ((m.attempt p (run j)).2).sink.written.size ≤ n :=
        Nat.le_trans (size_after_mono unbounded (Nat.succ_le_of_lt earlier)) small
      rw [same, attempt_bounded ((after_room depth p s j).trans unbounded) fits]
      rfl
    · have same : cut k = (run k).bounded n := after_bounded unbounded small (Nat.le_refl k)
      obtain ⟨f, below, r, i, executes, opcode, printed, failed⟩ :=
        attempt_cut ((after_room depth p s k).trans unbounded) small beyond
      exact ⟨f, below, r, i, executes, opcode, printed, same ▸ failed,
        fun later le => written_cut unbounded small beyond le⟩
  · exact ⟨execute_bounded rfl, execute_cut rfl (Nat.zero_le n)⟩
  · refine ⟨fun k => after_sink depth p s k, fun v prints => ⟨attempt_ok_iff prints, ?_⟩⟩
    intro pieces joined
    rw [Sink.appendAll_eq, joined, attempt_sink, attempt_ok_iff prints, decide_eq_true_iff]
    exact ⟨rfl, Iff.rfl⟩

end Runs

def Program.nesting : Program where
  routines := [{
    name := "main"
    body := [
      { opcode := "int-val", output := some 0, payload := .int 1 },
      { opcode := "arr-create", inputs := [0], output := some 1 },
      { opcode := "int-val", output := some 0, payload := .int 0 },
      { opcode := "arr-set", inputs := [1, 0, 1] },
      { opcode := "debug-print", inputs := [1] },
      { opcode := "fn-return" }] }]

def State.nesting : State where
  calls := { items := [{ routine := 0, name := "main", registers := #[.unset, .unset] }], room := 0 }

theorem Machine.nesting_cut :
    let run := (standard 1).after .nesting .nesting
    let cut := (standard 1).after .nesting (State.nesting.bounded 3)
    let short := (standard 1).execute .nesting (Sink.bounded {} 3) 9
    (standard 1).start .nesting {} = .ok .nesting ∧
      (run 4).printing? .nesting = some (.array 0) ∧
      (run 4).sink.written.size ≤ 3 ∧ (run 5).sink.text = "[[...]]\n" ∧
      cut 4 = (run 4).bounded 3 ∧
      (∀ later ≥ 5, (cut 5).sink.written = (run later).sink.written.take 3) ∧
      (cut 5).sink.text = "[[." ∧
      ∃ l, short.1 = .failed ⟨Sink.full, some l⟩ ∧ l.opcode = "debug-print" := by
  intro run cut short
  obtain ⟨-, runs, whole, -⟩ := output_cut 1 3 .nesting true
  obtain ⟨-, lockstep, crossing⟩ := runs .nesting rfl
  have small : (run 4).sink.written.size ≤ 3 := by decide +kernel
  have beyond : 3 < (run 5).sink.written.size := by decide +kernel
  obtain ⟨f, below, r, i, -, -, -, -, written⟩ := crossing 4 small beyond
  obtain ⟨l, failed, opcode, -⟩ := (whole 9).2 (by decide +kernel)
  exact ⟨rfl, rfl, small, by decide +kernel, (lockstep 4 small).1, written, by decide +kernel,
    l, failed, opcode⟩

end RegisterMachine
