import Trischema.Proofs.Relational.Keys
import Trischema.Proofs.Repository.Writing

/-!
Writes to a created table. However instances are written through its binding, the table keeps its columns
and keys, and its rows stay apart on them.
-/

namespace Trischema

namespace TableBinding

variable {b : TableBinding} {db db' : Database} {t t' : Table} {entity id : String} {record : Record}

/-- The cells that a record is written to, by their places. -/
def named (b : TableBinding) (t : Table) (record : Record) : Except Error (List (Nat × Cell)) := do
  b.writtenCells t (← parameters record b.columns)

/-- What an engine answers to a change of a table, in a database. -/
def settled (b : TableBinding) (entity : String) (db : Database) : Except Error Table → Except Error Database
  | .ok t => .ok (db.setTable t)
  | .error e => .error (b.report entity e)

theorem table_found (ht : db.table? b.schema.name = some t) : db.table b.schema.name = pure t := by
  rw [Database.table,ht]
  rfl

theorem insert_eq (ht : db.table? b.schema.name = some t) : b.insert entity id record db = (do
    let primary ← b.primaryName
    if !(t.select [⟨primary, .text id⟩]).isEmpty then .error (.alreadyExists entity id)
    else do
      let cells ← b.named t record
      b.settled entity db (t.insert cells)) := by
  simp only [insert,table_found ht,pure_bind,named,bind_assoc]
  refine bind_congr fun primary => ?_
  split
  · rfl
  · refine bind_congr fun ps => bind_congr fun cells => ?_
    cases t.insert cells <;> rfl

theorem update_eq (ht : db.table? b.schema.name = some t) : b.update entity id record db = (do
    let primary ← b.primaryName
    let cells ← b.named t record
    if (t.select [⟨primary, .text id⟩]).isEmpty then .error (.notFound entity id .update)
    else b.settled entity db (t.replaceAll cells (t.select [⟨primary, .text id⟩]))) := by
  simp only [update,table_found ht,pure_bind,named,bind_assoc]
  refine bind_congr fun primary => bind_congr fun ps => bind_congr fun cells => ?_
  split
  · rfl
  · cases t.replaceAll cells (t.select [⟨primary, .text id⟩]) <;> rfl

theorem delete_eq (ht : db.table? b.schema.name = some t) : b.delete entity id db = (do
    let primary ← b.primaryName
    if (t.select [⟨primary, .text id⟩]).isEmpty then .error (.notFound entity id .deletion)
    else return db.setTable (t.remove (t.select [⟨primary, .text id⟩]))) := by
  simp only [delete,table_found ht,pure_bind]
  refine bind_congr fun primary => ?_
  split <;> rfl

theorem settled_eq_ok {result : Except Error Table} (h : b.settled entity db result = .ok db') :
    ∃ t', result = .ok t' ∧ db' = db.setTable t' := by
  cases result with
  | ok t' => exact ⟨t',rfl,(Except.ok.inj h).symm⟩
  | error e => cases h

/-- What holds of the table of a binding in a database: its columns and keys are those that it was created
with, and its rows are apart. -/
structure Holds (b : TableBinding) (db : Database) (t : Table) : Prop where
  found : db.table? b.schema.name = some t
  name : t.name = b.schema.name
  columns : t.columns = b.definition.empty.columns
  together : t.together = b.schema.together
  sound : t.Sound

theorem holds_created (hcreate : b.definition.create db = .ok db') (hnew : db.table? b.definition.name = none) :
    b.Holds db' b.definition.empty := by
  obtain ⟨_,_,rfl⟩ := TableDefinition.create_new hcreate hnew
  refine ⟨?_,rfl,rfl,rfl,TableDefinition.empty_sound _⟩
  have hself : sameName b.definition.empty.name b.schema.name = true := Database.sameName_refl _
  have hbefore : db.find? (sameName ·.name b.schema.name) = none := hnew
  rw [Database.table?,List.find?_append,hbefore,List.find?_singleton,hself]
  rfl

namespace Holds

/-- Other rows in the same table. -/
theorem setRows (h : b.Holds db t) {rows : List Row} (hsound : Table.Sound { t with rows }) :
    b.Holds (db.setTable { t with rows }) { t with rows } :=
  ⟨Database.table?_setTable h.found rfl,h.name,h.columns,h.together,hsound⟩

theorem insert (h : b.Holds db t) (hok : b.insert entity id record db = .ok db') : ∃ t', b.Holds db' t' := by
  rw [insert_eq h.found] at hok
  obtain ⟨primary,_,hok⟩ := bind_eq_ok.mp hok
  split at hok
  · cases hok
  · obtain ⟨cells,_,hok⟩ := bind_eq_ok.mp hok
    obtain ⟨t',ht',rfl⟩ := settled_eq_ok hok
    have hsound := Table.insert_sound h.sound ht'
    obtain ⟨row,_,_,rfl⟩ := Table.insert_eq_ok.mp ht'
    exact ⟨_,h.setRows hsound⟩

theorem update (h : b.Holds db t) (hok : b.update entity id record db = .ok db') : ∃ t', b.Holds db' t' := by
  rw [update_eq h.found] at hok
  obtain ⟨primary,_,hok⟩ := bind_eq_ok.mp hok
  obtain ⟨cells,_,hok⟩ := bind_eq_ok.mp hok
  split at hok
  · cases hok
  · obtain ⟨t',ht',rfl⟩ := settled_eq_ok hok
    have hkept : ∃ rows, t' = { t with rows } := by
      refine Table.replaceAll_keeps (fun u => ∃ rows, u = { t with rows }) ?_ ⟨t.rows,rfl⟩ ht'
      rintro u u' old _ ⟨rows,rfl⟩ hreplace
      obtain ⟨row,_,_,rfl⟩ := Table.replace_eq_ok.mp hreplace
      exact ⟨_,rfl⟩
    have hsound := Table.replaceAll_sound h.sound ht'
    obtain ⟨rows,rfl⟩ := hkept
    exact ⟨_,h.setRows hsound⟩

theorem delete (h : b.Holds db t) (hok : b.delete entity id db = .ok db') : ∃ t', b.Holds db' t' := by
  rw [delete_eq h.found] at hok
  obtain ⟨primary,_,hok⟩ := bind_eq_ok.mp hok
  split at hok
  · cases hok
  · cases pure_eq_ok.mp hok
    exact ⟨_,h.setRows (Table.remove_sound h.sound _)⟩

end Holds

end TableBinding

end Trischema
