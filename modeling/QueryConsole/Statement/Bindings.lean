import QueryConsole.Statement.Value

namespace QueryConsole

structure Placeholder where
  name : String
  type : ValueType
  deriving DecidableEq

def Placeholder.text (p : Placeholder) : String :=
  "\x7b" ++ p.name ++ ":" ++ p.type.name ++ "\x7d"

structure Binding where
  name : String
  value : Value
  deriving DecidableEq

def Binding.placeholder (b : Binding) : Placeholder :=
  ⟨b.name, b.value.type⟩

structure Bindings where
  toList : List Binding
  deriving DecidableEq

namespace Bindings

def empty : Bindings := ⟨[]⟩

instance : EmptyCollection Bindings := ⟨empty⟩

def size (b : Bindings) : Nat := b.toList.length

def isEmpty (b : Bindings) : Bool := b.toList.isEmpty

def push (b : Bindings) (binding : Binding) : Bindings :=
  ⟨b.toList ++ [binding]⟩

/-- The name of a value that is bound by position: no two positions give one name. -/
def positionalName (stem : String) (position : Nat) : String :=
  stem ++ "_" ++ toString position

def bind (b : Bindings) (stem : String) (v : Value) : Bindings × Placeholder :=
  let binding : Binding := ⟨positionalName stem b.size, v⟩
  (b.push binding, binding.placeholder)

def bindNamed (b : Bindings) (name : String) (v : Value) : Bindings × Placeholder :=
  let binding : Binding := ⟨name, v⟩
  (b.push binding, binding.placeholder)

def get? (b : Bindings) (name : String) : Option Value :=
  (b.toList.find? fun binding => binding.name == name).map (·.value)

@[simp] theorem toList_empty : (∅ : Bindings).toList = [] := rfl

@[simp] theorem toList_push (b : Bindings) (binding : Binding) :
    (b.push binding).toList = b.toList ++ [binding] := rfl

@[simp] theorem size_push (b : Bindings) (binding : Binding) :
    (b.push binding).size = b.size + 1 := by
  simp [size]

end Bindings

/-- A finished statement: nothing else reaches the store. -/
structure Statement where
  text : String
  bindings : Bindings
  deriving DecidableEq

end QueryConsole
