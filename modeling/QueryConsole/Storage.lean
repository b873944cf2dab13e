import QueryConsole.Statement.Bindings
import QueryConsole.Json.Basic
import QueryConsole.Failure

namespace QueryConsole

structure Storage where
  rows : Statement → Except Failure (List Json)
  text : Statement → Except Failure String

inductive Call : Type
  | rows : Statement → Call
  | text : Statement → Call
  deriving DecidableEq

structure Outcome (α : Type) where
  calls : List Call
  result : Except Failure α

namespace Outcome

def ofResult {α : Type} (result : Except Failure α) : Outcome α := ⟨[], result⟩

def callRows (storage : Storage) (s : Statement) : Outcome (List Json) :=
  ⟨[.rows s], storage.rows s⟩

def callText (storage : Storage) (s : Statement) : Outcome String :=
  ⟨[.text s], storage.text s⟩

def after {α β : Type} (check : Except Failure α) (next : α → Outcome β) : Outcome β :=
  match check with
  | .ok a => next a
  | .error e => ofResult (.error e)

def andThen {α β : Type} (o : Outcome α) (f : α → Except Failure β) : Outcome β :=
  ⟨o.calls, o.result.bind f⟩

@[simp] theorem after_ok {α β : Type} (a : α) (next : α → Outcome β) :
    after (.ok a) next = next a := rfl

@[simp] theorem after_error {α β : Type} (e : Failure) (next : α → Outcome β) :
    after (.error e) next = ofResult (.error e) := rfl

@[simp] theorem calls_andThen {α β : Type} (o : Outcome α) (f : α → Except Failure β) :
    (o.andThen f).calls = o.calls := rfl

end Outcome

end QueryConsole
