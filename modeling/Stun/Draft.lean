/-
Stun/Draft.lean

Messages described before they are made.  A draft names a type and attributes;
its id may be chosen, and is drawn at random where it is not.
-/
import Stun.Attribute

namespace Stun

/-- A message to be: its type, its attributes, and its id if it is chosen. -/
structure Draft where
  type : MessageType
  id? : Option TransactionId := none
  attributes : List Attribute := []

namespace Draft

/-! ### Choosing -/

/-- Chooses the id. -/
def withId (d : Draft) (id : TransactionId) : Draft := { d with id? := some id }

/-- Chooses an id at random. -/
def withRandomId {γ : Type} [RandomGen γ] (d : Draft) (g : γ) : Draft × γ :=
  (d.withId (TransactionId.draw g).1, (TransactionId.draw g).2)

/-! ### Making the message -/

/-- The message of a draft, whose id is `id` unless it is chosen. -/
def buildWith (d : Draft) (id : TransactionId) : Except Error Message :=
  match Message.build d.attributes (.new d.type (d.id?.getD id)) with
  | (.ok (), m) => .ok m
  | (.error e, _) => .error e

/-- The message of a draft, with an id at random where none is chosen. -/
def build {γ : Type} [RandomGen γ] (d : Draft) (g : γ) : Except Error Message × γ :=
  match d.id? with
  | some id => (d.buildWith id, g)
  | none => (d.buildWith (TransactionId.draw g).1, (TransactionId.draw g).2)

end Draft

end Stun
