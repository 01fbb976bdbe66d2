/-!
Classes of a model. What tells a class from every other one is more than the text of its name: several
classes may go by one text. The lineage of a class is the class itself, then every class that it inherits
from, nearest first, `object` last; `linearize?` computes what a new class inherits from its bases.
-/

namespace Trischema

/-- The classes that every model starts from: plain data types, containers, and the domain bases. -/
inductive Builtin
  | object | text | integer | real | boolean | moment | date | bytes | mapping
  | list | tuple | set | frozenSet | complex | unit | any
  | entity | valueObject | enumeration | identifier | constantSet
  deriving DecidableEq, Repr

/-- The full name of a class, which stands for it alone. That of a defined class holds the text that it is
written as, its number among the classes of the model, and what it inherits from, nearest class first. -/
inductive ClassName
  | builtin (b : Builtin)
  | defined (text : String) (number : Nat) (ancestors : List ClassName)
  deriving Repr

namespace Builtin

/-- The name by which a model author writes a builtin class. -/
def label : Builtin → String
  | object => "object" | text => "str" | integer => "int" | real => "float" | boolean => "bool"
  | moment => "datetime" | date => "date" | bytes => "bytes" | mapping => "dict" | list => "list"
  | tuple => "tuple" | set => "set" | frozenSet => "frozenset" | complex => "complex"
  | unit => "NoneType" | any => "Any" | entity => "Entity" | valueObject => "ValueObject"
  | enumeration => "Enumeration" | identifier => "UniqueIdentifier" | constantSet => "Enum"

/-- The name with the place where the class lives. -/
def qualified : Builtin → String
  | moment => "datetime.datetime"
  | date => "datetime.date"
  | any => "typing.Any"
  | entity => "polydb.schema.domain.Entity"
  | valueObject => "polydb.schema.domain.ValueObject"
  | enumeration => "polydb.schema.domain.Enumeration"
  | identifier => "polydb.schema.domain.UniqueIdentifier"
  | constantSet => "enum.Enum"
  | b => b.label

/-- The builtin classes between a builtin class and `object`, itself included. -/
def lineage : Builtin → List Builtin
  | object => [object]
  | boolean => [boolean, integer, object]
  | moment => [moment, date, object]
  | b => [b, object]

end Builtin

namespace ClassName

mutual

/-- Full names are compared number first: within a model the numbers differ. -/
def decEq : (c d : ClassName) → Decidable (c = d)
  | builtin b, builtin e => decidable_of_iff (b = e) (by simp)
  | defined text number ancestors, defined text' number' ancestors' =>
    if h : number = number' ∧ text = text' then
      match decEqAll ancestors ancestors' with
      | .isTrue hancestors => .isTrue (by rw [h.1,h.2,hancestors])
      | .isFalse hancestors => .isFalse (by simp [hancestors])
    else .isFalse fun heq => by
      cases heq
      exact h ⟨rfl,rfl⟩
  | builtin _, defined .. | defined .., builtin _ => .isFalse nofun

def decEqAll : (cs ds : List ClassName) → Decidable (cs = ds)
  | [], [] => .isTrue rfl
  | c :: cs, d :: ds =>
    match decEq c d with
    | .isTrue hfirst =>
      match decEqAll cs ds with
      | .isTrue hrest => .isTrue (by rw [hfirst,hrest])
      | .isFalse hrest => .isFalse (by simp [hrest])
    | .isFalse hfirst => .isFalse (by simp [hfirst])
  | [], _ :: _ | _ :: _, [] => .isFalse nofun

end

instance : DecidableEq ClassName := decEq

/-- The text that a class is written as. -/
def text : ClassName → String
  | builtin b => b.label
  | defined text _ _ => text

/-- The text of a class with the place where it lives. -/
def qualified : ClassName → String
  | builtin b => b.qualified
  | defined text _ _ => "model." ++ text

/-- A class and what it inherits from, nearest class first. -/
def lineage : ClassName → List ClassName
  | builtin b => b.lineage.map builtin
  | defined text number ancestors => defined text number ancestors :: ancestors

end ClassName

/-- A class. `constants` are the stored values of a class with finitely many members. -/
structure Class (α : Type) where
  name : ClassName
  constants : Option (List α) := none

namespace Class

variable {α : Type}

def ofBuiltin (b : Builtin) : Class α := ⟨.builtin b, if b = .constantSet then some [] else none⟩

def lineage (c : Class α) : List ClassName := c.name.lineage

/-- Whether a class inherits from a builtin one, or is it. -/
def isA (c : Class α) (b : Builtin) : Bool := c.lineage.contains (.builtin b)

/-- Whether a class is the builtin one. -/
def isExactly (c : Class α) (b : Builtin) : Bool := c.name == .builtin b

/-- The first of the given builtin classes that the lineage reaches. -/
def nearest? (c : Class α) (bs : List Builtin) : Option Builtin :=
  c.lineage.findSome? fun
    | .builtin b => if bs.contains b then some b else none
    | .defined .. => none

end Class

namespace ClassName

/-- The first head among the sequences that occurs in no tail. -/
def nextHead? (seqs : List (List ClassName)) : Option ClassName :=
  seqs.findSome? fun seq =>
    match seq with
    | [] => none
    | c :: _ => if seqs.any (fun s => (s.drop 1).contains c) then none else some c

/-- Merges sequences, keeping the order of each; `none` when their orders disagree. The fuel is the
number of names that are left. -/
def mergeSequences : Nat → List (List ClassName) → Option (List ClassName)
  | 0, seqs => if seqs.all List.isEmpty then some [] else none
  | fuel + 1, seqs =>
    let seqs := seqs.filter (!·.isEmpty)
    if seqs.isEmpty then some []
    else do
      let c ← nextHead? seqs
      let rest ← mergeSequences fuel (seqs.map fun s => if s.head? = some c then s.drop 1 else s)
      some (c :: rest)

/-- What a new class inherits from: the merge of the lineages of its bases and of the list of bases, so that
a class precedes what it inherits from and bases keep their order. -/
def linearize? (bases : List ClassName) : Option (List ClassName) :=
  let seqs := bases.map lineage ++ [bases]
  mergeSequences seqs.flatten.length seqs

end ClassName

end Trischema
