import Calculator.Binary64.Machine
import Calculator.Text.LetterCase

/-!
# Function tables

The functions that expressions may call. A function is found by its name without regard to letter case,
so no table holds two whose names agree in lower case: `FunctionTable.ofList` refuses the first that
would be the second of its name.
-/

namespace Calculator

structure Builtin where
  name : String
  /-- The number of arguments a call must have. A function that demands a negative one is never called. -/
  arity : Int
  apply : List Binary64 → Except MathError Binary64

/-- The name under which a function is found. -/
def Builtin.key (b : Builtin) : String := Text.lower b.name

structure DuplicateBuiltin where
  key : String
deriving DecidableEq, Repr

def DuplicateBuiltin.message (d : DuplicateBuiltin) : String := "duplicate builtin '" ++ d.key ++ "'"

structure FunctionTable where
  builtins : List Builtin
  keys_nodup : (builtins.map Builtin.key).Nodup

namespace FunctionTable

def empty : FunctionTable := ⟨[], List.nodup_nil⟩

def keys (t : FunctionTable) : List String := t.builtins.map Builtin.key

def insert (t : FunctionTable) (b : Builtin) : Except DuplicateBuiltin FunctionTable :=
  if h : b.key ∈ t.builtins.map Builtin.key then .error ⟨b.key⟩
  else .ok ⟨t.builtins ++ [b], by
    rw [List.map_append, List.nodup_append]
    refine ⟨t.keys_nodup, by simp, ?_⟩
    intro k hk k' hk' e
    simp only [List.map_cons, List.map_nil, List.mem_singleton] at hk'
    exact h (hk' ▸ e ▸ hk)⟩

def ofList (builtins : List Builtin) : Except DuplicateBuiltin FunctionTable := builtins.foldlM insert empty

def find? (t : FunctionTable) (key : String) : Option Builtin := t.builtins.find? (·.key == key)

end FunctionTable
end Calculator
