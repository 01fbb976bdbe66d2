import Trischema.Repository.Basic

/-!
The record store keeps records in memory, under the texts of their identifiers and in the order of their
insertion. It looks for collisions before it writes; an absent value never collides.
-/

namespace Trischema

/-- Stored records by identifier. -/
abbrev Records := List (String × Record)

namespace Records

/-- The keys that must be unique: single ones, then composite ones. -/
def uniqueGroups (d : Descriptor) : List (List String) :=
  d.uniqueProperties.map (fun p => [p.key]) ++ d.together

/-- Whether two records are equal on a key, with no value absent. -/
def collide (group : List String) (a b : Record) : Bool :=
  group.all fun key => !(b.field key).isNull && (a.field key).same (b.field key)

/-- The first unique key on which a record collides with one of the stored ones. -/
def takenGroup? (d : Descriptor) (stored : List Record) (record : Record) : Option (List String) :=
  (uniqueGroups d).find? fun group => stored.any fun r => collide group r record

/-- The records under other identifiers. -/
def others (records : Records) (id : String) : List Record :=
  (records.filter fun (k, _) => k != id).map (·.2)

/-- Refuses a record that collides with a stored one. -/
def checkUnique (d : Descriptor) (stored : List Record) (record : Record) : Except Error Unit :=
  match takenGroup? d stored record with
  | some group => .error (.collision (.values d.name (group.map fun key => (key, record.field key))))
  | none => .ok ()

def contains (records : Records) (id : String) : Bool := (records.lookup id).isSome

/-- Adds a record under a new identifier. -/
def insert (d : Descriptor) (records : Records) (id : String) (record : Record) : Except Error Records :=
  if records.contains id then .error (.alreadyExists d.name id)
  else do
    checkUnique d (records.map (·.2)) record
    return records ++ [(id, record)]

/-- Replaces the record under an identifier. -/
def update (d : Descriptor) (records : Records) (id : String) (record : Record) : Except Error Records := do
  checkUnique d (records.others id) record
  return setNamed records id record

/-- Removes the record under an identifier. -/
def delete (d : Descriptor) (records : Records) (id : String) : Except Error Records :=
  if records.contains id then .ok (records.filter fun (k, _) => k != id)
  else .error (.notFound d.name id .deletion)

/-- Whether a record is as a query says: a text contains the queried one, other values are equal to it. -/
def meets (record : Record) (query : List (Value × Value)) : Bool :=
  query.all fun (key, expected) =>
    let actual := record.field (key.text?.getD "")
    match actual.text?, expected.text? with
    | some whole, some part => Value.containsText whole part
    | _, _ => actual.same expected

end Records

namespace Write

open Records

/-- Stores a new instance. -/
def insertRecord : Write Records Unit := do
  let id ← entityId
  let record ← record
  let w ← get
  keep (← ofExcept (Records.insert w.repository.descriptor w.store id record))
  finish (some .create)

/-- Replaces a stored instance. -/
def updateRecord : Write Records Unit := do
  let id ← entityId
  let w ← get
  let d := w.repository.descriptor
  if !w.store.contains id then fail (.notFound d.name id .update)
  let store ← touched do ofExcept (Records.update d w.store id (← record))
  keep store
  finish none

/-- Removes a stored instance. -/
def deleteRecord : Write Records Unit := do
  let id ← entityId
  let w ← get
  keep (← ofExcept (Records.delete w.repository.descriptor w.store id))
  finish (some .delete)

end Write

namespace Repository

/-- All stored instances. -/
def allRecords (r : Repository) (records : Records) : Except Error (List Value) := do
  r.requireHydrator
  r.hydrateAll (records.map (·.2))

/-- The instance under an identifier, or `null`. -/
def findRecord (r : Repository) (records : Records) (id : Value) : Except Error Value := do
  r.requireHydrator
  match records.lookup id.display with
  | some record => r.hydrate record
  | none => return .null

/-- The instances that are as a query says. -/
def searchRecords (r : Repository) (records : Records) (query : Value) : Except Error (List Value) := do
  r.requireHydrator
  let entries ← r.queryEntries query
  r.hydrateAll ((records.map (·.2)).filter (Records.meets · entries))

/-- The instances that a selection answers. -/
def aggregateRecords (r : Repository) (records : Records) (selection : Selection) :
    Except Error (List Value) := do
  r.requireHydrator
  r.aggregate (records.map (·.2)) selection

end Repository

end Trischema
