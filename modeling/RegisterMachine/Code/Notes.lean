import RegisterMachine.Fault
import RegisterMachine.Text.Quoted

/-!
Notes attached to functions and programs before a run. A note is kept under a key and is written
once: a second note under a key is refused and the first one stays.
-/

namespace RegisterMachine

/-- Data that the machine itself never looks at. -/
inductive HostData where
  | long (v : Int64)
  | text (s : String)
deriving DecidableEq, Repr

inductive Note where
  | labels (table : List (String × Nat))
  | index (n : Nat)
  | text (s : String)
  | custom (data : HostData)
deriving DecidableEq, Repr

namespace Note

def sorted (table : List (String × Nat)) : List (String × Nat) :=
  table.mergeSort fun a b => a.1 ≤ b.1

def display : Note → String
  | labels table =>
    let entries := (sorted table).map fun e => Text.quoted e.1 ++ ": " ++ toString e.2
    "Labels(\x7b" ++ ", ".intercalate entries ++ "\x7d)"
  | index n => s!"Index({n})"
  | text s => "Text(" ++ Text.quoted s ++ ")"
  | custom _ => "Custom(..)"

end Note

structure Notes where
  entries : List (String × Note) := []
deriving DecidableEq, Repr, Inhabited

namespace Notes

def get? (n : Notes) (key : String) : Option Note := n.entries.lookup key

def contains (n : Notes) (key : String) : Bool := (n.get? key).isSome

def size (n : Notes) : Nat := n.entries.length

def add (n : Notes) (key : String) (note : Note) : Except Fault Notes :=
  if n.contains key then .error (.duplicateNote key) else .ok ⟨n.entries ++ [(key, note)]⟩

theorem get?_add {n m : Notes} {key : String} {note : Note} (h : n.add key note = .ok m)
    (k : String) : m.get? k = if k = key then some note else n.get? k := by
  unfold add at h
  split at h
  · cases h
  · next fresh =>
    obtain rfl := Except.ok.inj h
    have free : n.get? key = none := by simpa [contains] using fresh
    unfold get? at free ⊢
    by_cases same : k = key
    · subst same
      simp [List.lookup_append, free]
    · have apart : (k == key) = false := by simpa using same
      simp [List.lookup_append, List.lookup_cons, same, apart]

def labels? (n : Notes) (key : String) : Option (List (String × Nat)) :=
  match n.get? key with
  | some (.labels table) => some table
  | _ => none

def custom? (n : Notes) (key : String) : Option HostData :=
  match n.get? key with
  | some (.custom data) => some data
  | _ => none

end Notes

end RegisterMachine
