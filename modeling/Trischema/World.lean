import Trischema.Error

/-!
What a run depends on besides its data: the clock and the supply of new identifiers and instances. An
`Action` may use and advance them, and what it used stays used when it fails.
-/

namespace Trischema

structure World where
  clock : Moment
  /-- how many identifiers were made -/
  issued : Nat := 0
  /-- how many instances were made -/
  instances : Nat := 0
  deriving DecidableEq, Repr

instance : Inhabited World := ⟨{ clock := default }⟩

/-- A computation that may fail and that advances the world either way. -/
abbrev Action := ExceptT Error (StateM World)

namespace World

/-- The identifier of a number: identifiers are made in order. -/
def identifierOf (n : Nat) : String := "00000000-0000-4000-8000-" ++ padded 12 n

/-- Makes an identifier. -/
def newIdentifier : StateM World String := do
  let w ← get
  set { w with issued := w.issued + 1 }
  return identifierOf (w.issued + 1)

/-- Makes a number that tells a new instance from all others. -/
def newIdentity : StateM World Nat := do
  let w ← get
  set { w with instances := w.instances + 1 }
  return w.instances

end World

namespace Action

variable {α : Type}

def ofExcept (result : Except Error α) : Action α := ExceptT.mk (pure result)

def fail (e : Error) : Action α := ofExcept (.error e)

/-- Runs an action in a world. -/
def runIn (w : World) (action : Action α) : Except Error α × World := (ExceptT.run action).run w

def clock : Action Moment := do return (← get).clock

def newIdentifier : Action String := ExceptT.lift World.newIdentifier

def newIdentity : Action Nat := ExceptT.lift World.newIdentity

end Action

end Trischema
