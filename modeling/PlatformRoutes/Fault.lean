namespace PlatformRoutes

/-- One step of the way to a faulty value: a field's name, or a place in a list. -/
inductive Place where
  | field (name : String)
  | item (index : Nat)
  deriving DecidableEq

/-- What is wrong with a value that was given for a field. -/
inductive FaultKind where
  | missing
  | unknownField
  | notText
  | emptyText
  | undecodableText
  | notInteger
  | unreadableInteger
  | fractionalInteger
  | infiniteInteger
  | notNumber
  | unreadableNumber
  | notFlag
  | unreadableFlag
  | notAbove
  | tooSmall
  | tooLarge
  | notListed
  | notList
  | notRecord
  | rejected
  | frozen
  | noSuchField
  deriving DecidableEq

structure Fault where
  path : List Place
  kind : FaultKind
  deriving DecidableEq

/-- A record never changes once it is made. -/
def Fault.immutable (field : String) : Fault := ⟨[.field field], .frozen⟩

/-- The outcome of reading fields. All faults are kept, in the order of the fields; only a value
whose shape no rule can be applied to ends the reading at once. -/
inductive Checked (α : Type) where
  | ok (a : α)
  | faulty (faults : List Fault)
  | misshapen

namespace Checked

def fault (kind : FaultKind) : Checked α := .faulty [⟨[], kind⟩]

def map (f : α → β) : Checked α → Checked β
  | ok a => ok (f a)
  | faulty fs => faulty fs
  | misshapen => misshapen

def apply : Checked (α → β) → Checked α → Checked β
  | ok f, ok a => ok (f a)
  | ok _, faulty fs => faulty fs
  | faulty fs, ok _ => faulty fs
  | faulty fs, faulty gs => faulty (fs ++ gs)
  | misshapen, _ => misshapen
  | _, misshapen => misshapen

instance : Functor Checked := ⟨map, fun a => map fun _ => a⟩

instance : Applicative Checked where
  pure := ok
  seq f x := apply f (x ())

/-- Reads on with the value, where a second rule looks at the result of a first. -/
def andThen : Checked α → (α → Checked β) → Checked β
  | ok a, f => f a
  | faulty fs, _ => faulty fs
  | misshapen, _ => misshapen

/-- Gives a made record another value for a field. This is refused for every name that a field can
have, whatever the value. A name with an underscore in front is none: what is kept under it is no
part of the record. -/
def reassign (record : α) (field : String) (_value : β) : Checked α :=
  if field.toList.head? == some '_' then ok record else faulty [.immutable field]

/-- The faults are those of the value below the given place. -/
def under (place : Place) : Checked α → Checked α
  | faulty fs => faulty (fs.map fun f => { f with path := place :: f.path })
  | c => c

/-- Reads the items of a list, each below its place. -/
def items (read : α → Checked β) : Nat → List α → Checked (List β)
  | _, [] => ok []
  | i, x :: xs => (· :: ·) <$> under (.item i) (read x) <*> items read (i + 1) xs

end Checked

end PlatformRoutes
