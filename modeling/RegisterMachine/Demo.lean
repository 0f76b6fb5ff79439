import RegisterMachine.Opcodes.Standard

/-!
Small complete programs for the standard machine, each with what it prints.
-/

namespace RegisterMachine

structure Demo where
  name : String
  description : String
  expected : String
  routines : List Routine

namespace Demo

def print (r : Register) : Instruction := { opcode := "debug-print", inputs := [r] }

def ret : Instruction := { opcode := "fn-return" }

def retVal (r : Register) : Instruction := { opcode := "fn-return-value", inputs := [r] }

def longVal (r : Register) (v : Int64) : Instruction :=
  { opcode := "long-val", output := some r, payload := .long v }

def intVal (r : Register) (v : Int32) : Instruction :=
  { opcode := "int-val", output := some r, payload := .int v }

def doubleVal (r : Register) (bits : UInt64) : Instruction :=
  { opcode := "double-val", output := some r, payload := .double ⟨bits⟩ }

def add : Demo where
  name := "add"
  description := "calls f(1.0, 2.0) = a + b in double precision"
  expected := "3.0\n"
  routines := [
    { name := "main"
      body := [
        doubleVal 0 0x3ff0000000000000,
        doubleVal 1 0x4000000000000000,
        { opcode := "fn-call", inputs := [0, 1], output := some 2, payload := .name "f" },
        print 2,
        ret] },
    { name := "f"
      body := [
        { opcode := "double-add", inputs := [0, 1], output := some 2 },
        retVal 2] }]

def fact : Routine where
  name := "fact"
  body := [
    longVal 1 2,
    { opcode := "long-less", inputs := [0, 1], output := some 2 },
    { opcode := "jump-if", inputs := [2], payload := .name "base" },
    longVal 1 1,
    { opcode := "long-sub", inputs := [0, 1], output := some 3 },
    { opcode := "fn-call", inputs := [3], output := some 4, payload := .name "fact" },
    { opcode := "long-mul", inputs := [0, 4], output := some 4 },
    retVal 4,
    { opcode := "jump-label", payload := .name "base" },
    longVal 1 1,
    retVal 1]

def factorial : Demo where
  name := "factorial"
  description := "recursive long factorial of 10"
  expected := "3628800\n"
  routines := [
    { name := "main"
      body := [
        longVal 0 10,
        { opcode := "fn-call", inputs := [0], output := some 1, payload := .name "fact" },
        print 1,
        ret] },
    fact]

/-- Yields one, two, three and so on, and never returns. -/
def counter : Routine where
  name := "counter"
  body := [
    longVal 0 1,
    longVal 1 1,
    { opcode := "jump-label", payload := .name "loop" },
    { opcode := "co-yield", inputs := [0] },
    { opcode := "long-add", inputs := [0, 1], output := some 0 },
    { opcode := "jump-to", payload := .name "loop" }]

def invokeAndPrint : List Instruction :=
  [{ opcode := "co-invoke", inputs := [0], output := some 1 }, print 1]

def coroutine : Demo where
  name := "coroutine"
  description := "a counter coroutine yielding 1, 2, 3, ..."
  expected := "1\n2\n3\n"
  routines := [
    { name := "main"
      body :=
        { opcode := "co-create", output := some 0, payload := .name "counter" } ::
          invokeAndPrint ++ invokeAndPrint ++ invokeAndPrint ++ [ret] },
    counter]

def object : Demo where
  name := "object"
  description := "sets and reads a field, then calls a method"
  expected := "123\nTest\x7bt=123\x7d\n124\n"
  routines := [
    { name := "main"
      body := [
        { opcode := "obj-create", output := some 0, payload := .descriptor ⟨"Test", ["t"]⟩ },
        longVal 1 123,
        { opcode := "obj-set", inputs := [0, 1], payload := .name "t" },
        { opcode := "obj-get", inputs := [0], output := some 2, payload := .name "t" },
        print 2,
        print 0,
        { opcode := "obj-invoke", inputs := [0], output := some 3, payload := .name "next" },
        print 3,
        ret] },
    { name := "Test$next"
      body := [
        { opcode := "obj-get", inputs := [0], output := some 1, payload := .name "t" },
        longVal 2 1,
        { opcode := "long-add", inputs := [1, 2], output := some 1 },
        retVal 1] }]

def array : Demo where
  name := "array"
  description := "fills a 3-element array and reads it back"
  expected := "42\n[unset, unset, 42]\n3\n"
  routines := [
    { name := "main"
      body := [
        intVal 0 3,
        { opcode := "arr-create", inputs := [0], output := some 1 },
        intVal 2 2,
        longVal 3 42,
        { opcode := "arr-set", inputs := [1, 2, 3] },
        { opcode := "arr-get", inputs := [1, 2], output := some 4 },
        print 4,
        print 1,
        { opcode := "arr-length", inputs := [1], output := some 5 },
        print 5,
        ret] }]

def cast : Demo where
  name := "cast"
  description := "converts between int, long and double"
  expected := "7\n7.0\n3\n-1\n"
  routines := [
    { name := "main"
      body := [
        intVal 0 7,
        { opcode := "cast-int-to-long", inputs := [0], output := some 1 },
        print 1,
        { opcode := "cast-long-to-double", inputs := [1], output := some 2 },
        print 2,
        doubleVal 3 0x400feb851eb851ec,
        { opcode := "cast-double-to-int", inputs := [3], output := some 4 },
        print 4,
        doubleVal 5 0xbff8000000000000,
        { opcode := "cast-double-to-long", inputs := [5], output := some 6 },
        print 6,
        ret] }]

def all : List Demo := [add, factorial, coroutine, object, array, cast]

def names : List String := all.map Demo.name

def find? (name : String) : Option Demo := all.find? (·.name == name)

def program (d : Demo) : Except Fault Program := Program.ofRoutines d.routines

end Demo

end RegisterMachine
