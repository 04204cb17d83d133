import MiniPascal.Decimal.Read
import MiniPascal.Machine.Container
import MiniPascal.Machine.Display
import MiniPascal.Machine.Host
import MiniPascal.Machine.Overload
import MiniPascal.Text.CharClass

/-!
# Built-in functions

The functions that are bound to their names in the frame of global variables before a program
starts.
-/

namespace MiniPascal

namespace Builtin

/-- All built-in functions in the order in which they are bound. -/
def all : List Builtin :=
  [.writeLn, .write, .str, .ord, .copy, .length, .clock, .array, .list, .map, .stack,
    .assertTrue, .assertEqual]

/-- The name that a built-in function is bound to. -/
def name : Builtin → String
  | .writeLn => "WriteLn"
  | .write => "Write"
  | .str => "Str"
  | .ord => "Ord"
  | .copy => "Copy"
  | .length => "Length"
  | .clock => "clock"
  | .array => "Array"
  | .list => "List"
  | .map => "Map"
  | .stack => "Stack"
  | .assertTrue => "AssertTrue"
  | .assertEqual => "AssertEqual"

def arity : Builtin → Nat
  | .writeLn | .write | .str | .ord | .length | .array | .assertTrue => 1
  | .copy => 3
  | .clock | .list | .map | .stack => 0
  | .assertEqual => 2

/-- Whether a built-in function calls the host. -/
def callsHost : Builtin → Bool
  | .writeLn | .write | .clock | .array => true
  | _ => false

end Builtin

namespace NativeOp

def name : NativeOp → String
  | .builtin op => op.name
  | .member op _ => op.name

def arity : NativeOp → Nat
  | .builtin op => op.arity
  | .member op _ => op.arity

/-- Whether a native function calls the host. -/
def callsHost : NativeOp → Bool
  | .builtin op => op.callsHost
  | .member _ _ => false

end NativeOp

namespace Value

/-- The ordinal of a text: a whole number, or a decimal cut off at its point. -/
def ordinalOfText (text : String) : Except RuntimeFault Int64 :=
  let trimmed := Text.trim text
  match Decimal.readInteger? trimmed.toList with
  | some n => .ok n
  | none =>
      match Decimal.readDouble? trimmed.toList with
      | some x => .ok x.toInt64
      | none => .error (.ordinalText trimmed)

def ordinal : Value → Except RuntimeFault Int64
  | .nil => .ok (-1)
  | .integer n => .ok n
  | .double x => .ok x.toInt64
  | .boolean b => .ok (if b then 1 else 0)
  | .char c => .ok (Int64.ofNat c.toNat)
  | .enum member => .ok member.ordinal
  | .string text => ordinalOfText text
  | other => .error (.ordinalKind other.typeName)

/-- The characters of a string from one position up to another. -/
def copy (text : Value) (start stop : Nat) : Except RuntimeFault Value :=
  match text with
  | .string s =>
      if start ≤ stop && stop ≤ s.toList.length then
        .ok (.string (String.ofList ((s.toList.drop start).take (stop - start))))
      else
        .error .indexRange
  | _ => .error .copyKind

/-- The size of a new array, unless a call of the host for so much memory is turned down. -/
def arraySize (host : Host) (call : Nat) (size : Value) : Except RuntimeFault Nat := do
  let n ← size.toIndex
  if host.grants call n then return n else throw .arraySize

end Value

namespace Store

/-- The number of characters, elements or entries of a value. -/
def length (s : Store) : Value → Except RuntimeFault Nat
  | .string text => .ok text.length
  | .array id | .list id | .stack id => .ok (s.sequence id).size
  | .map id => .ok (s.mapEntries id).length
  | other => .error (.lengthKind other.typeName)

/-- A count as a value. -/
def count (n : Nat) : Value :=
  .integer (Int64.ofNat n)

/-- Adds to the output, unless the host does not write the text. -/
def write (s : Store) (host : Host) (text : String) :
    Except RuntimeFault (Value × (Store → Store)) :=
  match host.refusal? s.hostCalls with
  | none => .ok (.nil, (·.print text))
  | some reason => .error (.unwritten reason)

/-- The value of a built-in function, and what it changes. -/
def callBuiltin (s : Store) (host : Host) (op : Builtin) (arguments : List Value) :
    Except RuntimeFault (Value × (Store → Store)) :=
  let first := arguments.headD .nil
  let second := arguments.tail.headD .nil
  let third := arguments.tail.tail.headD .nil
  match op with
  | .writeLn => s.write host (s.display first ++ "\n")
  | .write => s.write host (s.display first)
  | .str => .ok (.string (s.display first), id)
  | .ord => do return (.integer (← first.ordinal), id)
  | .copy => do
      let start ← second.toIndex
      let stop ← third.toIndex
      return (← first.copy start stop, id)
  | .length => do return (count (← s.length first), id)
  | .clock => .ok (.double (host.clock s.hostCalls), id)
  | .array => do
      let size ← first.arraySize host s.hostCalls
      return (.array s.sequences.size, fun s => (s.newSequence (Array.replicate size .nil)).2)
  | .list => .ok (.list s.sequences.size, fun s => (s.newSequence #[]).2)
  | .map => .ok (.map s.maps.size, fun s => (s.newMap []).2)
  | .stack => .ok (.stack s.sequences.size, fun s => (s.newSequence #[]).2)
  | .assertTrue => if first.isTruthy then .ok (.nil, id) else .error .assertion
  | .assertEqual =>
      if first.same second then .ok (.nil, id)
      else .error (.assertionEqual (s.display first) (s.display second))

/-- The store in which a native function runs.  A call of the host counts whatever its answer. -/
def entering (s : Store) (op : NativeOp) : Store :=
  if op.callsHost then s.countHostCall else s

/-- The value of a native function, and what it changes. -/
def callNative (s : Store) (host : Host) (op : NativeOp) (arguments : List Value) :
    Except RuntimeFault (Value × (Store → Store)) :=
  match op with
  | .builtin op => s.callBuiltin host op arguments
  | .member op target => s.callContainer op target arguments

/-- Binds a built-in function to its name in the frame of global variables. -/
def bindBuiltin (s : Store) (op : Builtin) : Store :=
  let (native, s) := s.newNative (.builtin op)
  s.bindIn globalFrame op.name (.native native)

/-- The store in which a program starts: one frame, with the built-in functions. -/
def initial : Store :=
  Builtin.all.foldl bindBuiltin (empty.newFrame ∅).2

end Store

end MiniPascal
