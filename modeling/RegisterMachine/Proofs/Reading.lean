import RegisterMachine.Proofs.Deed

/-!
What the effects of an executing frame come to. Reading changes nothing and depends on that frame
only; writing changes that frame only. Each effect is given twice, alone and as the first of two.
-/

namespace RegisterMachine

section Except

variable {α β : Type}

@[simp] theorem ok_bind (a : α) (g : α → Except Fault β) : (Except.ok a >>= g) = g a := rfl

@[simp] theorem error_bind (e : Fault) (g : α → Except Fault β) :
    (Except.error e >>= g) = .error e := rfl

theorem toOption_eq_some_iff {ε : Type} {x : Except ε α} {a : α} :
    x.toOption = some a ↔ x = .ok a := by
  cases x <;> simp [Except.toOption]

theorem bind_eq_ok_iff {x : Except Fault α} {g : α → Except Fault β} {b : β} :
    (x >>= g) = .ok b ↔ ∃ a, x = .ok a ∧ g a = .ok b := by
  cases x <;> simp

end Except

namespace Effect

variable {α β : Type} {s : State} {f : Frame} {below : List Frame}

theorem bind_run (x : Effect α) (g : α → Effect β) (s : State) :
    (x >>= g) s = match x s with
      | .ok a t => g a t
      | .error e t => .error e t := by
  simp only [bind, EStateM.bind]
  cases x s <;> rfl

theorem get_run (s : State) : (get : Effect State) s = .ok s s := rfl

theorem modifyGet_run (change : State → α × State) (s : State) :
    (modifyGet change : Effect α) s = .ok (change s).1 (change s).2 := rfl

theorem check_run (x : Except Fault α) (s : State) :
    check x s = match x with
      | .ok a => .ok a s
      | .error e => .error e s := by
  cases x <;> rfl

theorem frame_run (top : s.calls.items = f :: below) : frame s = .ok f s := by
  simp only [frame, bind_run, get_run, Stack.top?, top]
  rfl

theorem read_run (top : s.calls.items = f :: below) (i : Instruction) (k : Nat) :
    read i k s = check (f.operand i k) s := by
  unfold read Frame.operand
  rw [bind_run, check_run]
  cases i.input k with
  | error e => rfl
  | ok r => simp only [bind_run, frame_run top, ok_bind]

theorem readAs_run (rep : Representation α) (top : s.calls.items = f :: below) (i : Instruction)
    (k : Nat) : readAs rep i k s = check (f.operandAs rep i k) s := by
  unfold readAs Frame.operandAs
  rw [bind_run, check_run]
  cases i.input k with
  | error e => rfl
  | ok r =>
    simp only [bind_run, frame_run top, check_run, ok_bind]
    cases f.get r with
    | error e => rfl
    | ok v => simp only [ok_bind]; cases rep.ofValue? v <;> rfl

theorem readAll_run (top : s.calls.items = f :: below) (i : Instruction) :
    readAll i s = check (i.inputs.mapM f.get) s := by
  simp only [readAll, bind_run, frame_run top]

theorem write_run (top : s.calls.items = f :: below) (i : Instruction) (v : Value) :
    write i v s = match f.outlet i with
      | .ok r => .ok () { s with calls := s.calls.replaceTop (f.put r v) }
      | .error e => .error e s := by
  unfold write Frame.outlet
  rw [bind_run, check_run]
  cases i.destination with
  | error e => rfl
  | ok r =>
    simp only [bind_run, frame_run top, check_run, Frame.set_eq, ok_bind]
    by_cases inside : r < f.registers.size <;> simp only [inside, if_true, if_false] <;> rfl

theorem pop_run (top : s.calls.items = f :: below) :
    pop s = .ok f { s with calls := s.calls.pop } := by
  simp only [pop, bind_run, frame_run top]
  rfl

theorem push_run (s : State) (f : Frame) :
    push f s = match s.calls.push f with
      | .ok calls => .ok () { s with calls }
      | .error e => .error e s := by
  simp only [push, bind_run, check_run, get_run]
  cases s.calls.push f <;> rfl

theorem check_bind (x : Except Fault α) (g : α → Effect β) (s : State) :
    (check x >>= g) s = match x with
      | .ok a => g a s
      | .error e => .error e s := by
  cases x <;> rfl

theorem heap_bind (g : Heap → Effect β) (s : State) : (heap >>= g) s = g s.heap s := rfl

theorem frame_bind (top : s.calls.items = f :: below) (g : Frame → Effect β) :
    (frame >>= g) s = g f s := by
  rw [bind_run, frame_run top]

theorem read_bind (top : s.calls.items = f :: below) (i : Instruction) (k : Nat)
    (g : Value → Effect β) :
    (read i k >>= g) s = match f.operand i k with
      | .ok v => g v s
      | .error e => .error e s := by
  rw [bind_run, read_run top]
  cases f.operand i k <;> rfl

theorem readAs_bind (rep : Representation α) (top : s.calls.items = f :: below) (i : Instruction)
    (k : Nat) (g : α → Effect β) :
    (readAs rep i k >>= g) s = match f.operandAs rep i k with
      | .ok a => g a s
      | .error e => .error e s := by
  rw [bind_run, readAs_run _ top]
  cases f.operandAs rep i k <;> rfl

theorem readAll_bind (top : s.calls.items = f :: below) (i : Instruction)
    (g : List Value → Effect β) :
    (readAll i >>= g) s = match i.inputs.mapM f.get with
      | .ok args => g args s
      | .error e => .error e s := by
  rw [bind_run, readAll_run top]
  cases i.inputs.mapM f.get <;> rfl

theorem write_bind (top : s.calls.items = f :: below) (i : Instruction) (v : Value)
    (g : Unit → Effect β) :
    (write i v >>= g) s = match f.outlet i with
      | .ok r => g () { s with calls := s.calls.replaceTop (f.put r v) }
      | .error e => .error e s := by
  rw [bind_run, write_run top]
  cases f.outlet i <;> rfl

theorem pop_bind (top : s.calls.items = f :: below) (g : Frame → Effect β) :
    (pop >>= g) s = g f { s with calls := s.calls.pop } := by
  rw [bind_run, pop_run top]

end Effect

end RegisterMachine
