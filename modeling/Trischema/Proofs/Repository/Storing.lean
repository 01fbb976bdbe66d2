import Trischema.Proofs.Json.Values
import Trischema.Proofs.Repository.Agreement

/-!
What writes leave in a table. A call that gets through adds the row of the record that it prepared, puts such a row in
place of others, or takes rows away, so that every row is that of a record which some call prepared.
-/

namespace Trischema

/-- A row has the cells that it is given; where the number of the row is missing among them, it is put there. -/
theorem Table.numbered_cases {t : Table} {given : Int} {cells : List Cell} {row : Row}
    (h : t.numbered given cells = .ok row) : row.cells = cells ∨
      ∃ i n, t.numberPosition? = some i ∧ cellAt cells i = .null ∧ row.cells = cells.set i (.int n) := by
  rw [numbered] at h
  cases hposition : t.numberPosition? with
  | none =>
    rw [hposition] at h
    cases h
    exact .inl rfl
  | some i =>
    rw [hposition] at h
    obtain ⟨n,hn,h⟩ := bind_eq_ok.mp h
    cases pure_eq_ok.mp h
    cases hcell : cellAt cells i with
    | null => exact .inr ⟨i,n,rfl,hcell,rfl⟩
    | int m =>
      rw [hcell] at hn
      cases hn
      refine .inl ?_
      rw [cellAt,List.getD_eq_getElem?_getD] at hcell
      change cells.set i (.int n) = cells
      cases hget : cells[i]? with
      | none => exact List.set_eq_of_length_le (List.getElem?_eq_none_iff.mp hget)
      | some cell =>
        obtain ⟨hlt,hget'⟩ := List.getElem?_eq_some_iff.mp hget
        rw [hget] at hcell
        change cell = _ at hcell
        rw [← hcell,← hget',List.set_getElem_self]
    | real x | text s | blob bs =>
      rw [hcell] at hn
      cases hn

theorem Table.numbered_error {t : Table} {given : Int} {cells : List Cell} {e : Error}
    (h : t.numbered given cells = .error e) : ∃ f, e = .integrity f := by
  rw [numbered] at h
  split at h
  · cases h
  · rcases bind_eq_error.mp h with h | ⟨_,_,h⟩
    · rw [numberOf.eq_def] at h
      split at h
      · cases h
      · cases h
      · exact ⟨_,(Except.error.inj h).symm⟩
    · cases h

theorem Table.accept_error {t : Table} {others : List Row} {row : Row} {e : Error}
    (h : t.accept others row = .error e) : ∃ f, e = .integrity f := by
  rw [accept] at h
  split at h
  · exact ⟨_,(Except.error.inj h).symm⟩
  · cases h

theorem Table.insert_error {t : Table} {named : List (Nat × Cell)} {e : Error} (h : t.insert named = .error e) :
    ∃ f, e = .integrity f := by
  rw [insert_eq] at h
  exact (bind_eq_error.mp h).elim numbered_error fun ⟨_,_,h⟩ => accept_error h

theorem Table.replaceAll_error {t : Table} {named : List (Nat × Cell)} {olds : List Row} {e : Error}
    (h : t.replaceAll named olds = .error e) : ∃ f, e = .integrity f := by
  induction olds generalizing t with
  | nil => cases h
  | cons old rest ih =>
    rcases bind_eq_error.mp h with h | ⟨u,_,h⟩
    · rw [replace_eq] at h
      rcases bind_eq_error.mp h with h | ⟨_,_,h⟩
      · rw [changedRow] at h
        split at h
        · exact ⟨_,(Except.error.inj h).symm⟩
        · exact numbered_error h
      · exact accept_error h
    · exact ih h

theorem Column.encode_error {c : Column} {v : Value} {e : Error} (h : c.encode v = .error e) : e = .failure .kind := by
  unfold encode at h
  split at h
  · cases h
  · split at h
    · rw [Value.toJsonText] at h
      cases hdocument : Json.ofValue .asText v with
      | ok x =>
        rw [hdocument] at h
        cases h
      | error e' =>
        rw [hdocument] at h
        cases h
        exact Json.ofValue_error hdocument
    · split at h
      · cases h
      · split at h <;> cases h

theorem Cell.ofValue_error {v : Value} {e : Error} (h : ofValue v = .error e) : ∃ f, e = .failure f := by
  have hint {n : Int} (h : ofInt n = .error e) : ∃ f, e = .failure f := by
    rw [ofInt] at h
    split at h
    · cases h
    · exact ⟨_,(Except.error.inj h).symm⟩
  unfold ofValue at h
  split at h
  · cases h
  · cases h
  · cases h
  · split at h
    · cases h
    · exact hint h
    · exact ⟨_,(Except.error.inj h).symm⟩

/-- Whether an error is that a row is not kept: a value cannot be bound, or there is something against the row. -/
def Error.IsRefusal (e : Error) : Prop := (∃ f, e = .failure f) ∨ (∃ f, e = .integrity f) ∨ ∃ c, e = .collision c

namespace TableBinding

open Relational Write Adapter

/-- Whether a cell is what is bound for the value of a column. -/
def Written (record : Record) (entry : String × Column) (cell : Cell) : Prop :=
  ∃ bound, entry.2.encode (record.field entry.1) = .ok bound ∧ Cell.ofValue bound = .ok cell

/-- Whether a cell of a row keeps the value of a column: it is what the column makes of it, or the number of the row
where there is none. -/
def Fills (record : Record) (entry : String × Column) (x : Cell) : Prop :=
  ∃ cell, Written record entry cell ∧ (x = cell.stored entry.2.type.affinity ∨
    cell.stored entry.2.type.affinity = .null ∧ entry.2.toTableColumn.numbersRows = true ∧ ∃ n, x = .int n)

/-- Whether a row keeps a record. -/
def Stores (b : TableBinding) (record : Record) (row : Row) : Prop := List.Forall₂ (Fills record) b.columns row.cells

variable {s : Settings} {d : Descriptor} {b : TableBinding} {db db' : Database} {t t' : Table} {record : Record}
  {row old : Row} {cells : List Cell} {named : List (Nat × Cell)} {id : String} {op : Operation} {r : Repository}

theorem parameters_eq_ok {entries : List (String × Column)} {bound : List Value} :
    parameters record entries = .ok bound ↔
      List.Forall₂ (fun entry v => entry.2.encode (record.field entry.1) = .ok v) entries bound := by
  induction entries generalizing bound with
  | nil =>
    rw [parameters,List.forall₂_nil_left_iff]
    exact ⟨fun h => (Except.ok.inj h).symm,fun h => by rw [h]⟩
  | cons entry rest ih =>
    simp only [parameters,bind_eq_ok,pure_eq_ok,List.forall₂_cons_left_iff,ih]
    constructor
    · rintro ⟨v,hv,vs,hvs,rfl⟩
      exact ⟨v,vs,hv,hvs,rfl⟩
    · rintro ⟨v,vs,hv,hvs,rfl⟩
      exact ⟨v,hv,vs,hvs,rfl⟩

theorem ofValues_eq_ok {vs : List Value} :
    Cell.ofValues vs = .ok cells ↔ List.Forall₂ (fun v cell => Cell.ofValue v = .ok cell) vs cells := by
  induction vs generalizing cells with
  | nil =>
    rw [Cell.ofValues,List.forall₂_nil_left_iff]
    exact ⟨fun h => (Except.ok.inj h).symm,fun h => by rw [h]⟩
  | cons v rest ih =>
    simp only [Cell.ofValues,bind_eq_ok,pure_eq_ok,List.forall₂_cons_left_iff,ih]
    constructor
    · rintro ⟨c,hc,cs,hcs,rfl⟩
      exact ⟨c,cs,hc,hcs,rfl⟩
    · rintro ⟨c,cs,hc,hcs,rfl⟩
      exact ⟨c,hc,cs,hcs,rfl⟩

theorem recordOf_eq_ok {entries : List (String × Column)} {found : Record} :
    recordOf t row entries = .ok found ↔ List.Forall₂ (fun entry f => ∃ i, t.position? entry.2.name = some i ∧
      f.1 = entry.1 ∧ entry.2.decode (Table.cellAt row.cells i).toValue = .ok f.2) entries found := by
  induction entries generalizing found with
  | nil =>
    rw [recordOf,List.forall₂_nil_left_iff]
    exact ⟨fun h => (Except.ok.inj h).symm,fun h => by rw [h]⟩
  | cons entry rest ih =>
    rw [recordOf,List.forall₂_cons_left_iff]
    cases hposition : t.position? entry.2.name with
    | none => exact iff_of_false (fun h => by cases h) (by rintro ⟨_,_,⟨_,h,_⟩,_⟩; cases h)
    | some i =>
      simp only [bind_eq_ok,pure_eq_ok,ih]
      constructor
      · rintro ⟨v,hv,others,hothers,rfl⟩
        exact ⟨(entry.1,v),others,⟨i,rfl,rfl,hv⟩,hothers,rfl⟩
      · rintro ⟨⟨_,v⟩,others,⟨_,⟨⟩,rfl,hv⟩,hothers,rfl⟩
        exact ⟨v,hv,others,hothers,rfl⟩

/-- A record is written to all cells of its row, in the order of the columns. -/
theorem Bound.named_eq (h : Bound s d b) (ht : t.columns = b.definition.empty.columns)
    (hnamed : b.named t record = .ok named) :
    ∃ cells, named = (List.range cells.length).zip cells ∧ List.Forall₂ (Written record) b.columns cells := by
  obtain ⟨bound,hbound,hnamed⟩ := bind_eq_ok.mp hnamed
  obtain ⟨positions,hpositions,hnamed⟩ := bind_eq_ok.mp hnamed
  obtain ⟨cells,hcells,hnamed⟩ := bind_eq_ok.mp hnamed
  cases (h.positions_range ht).symm.trans hpositions
  cases pure_eq_ok.mp hnamed
  have hwritten := forall₂_comp (parameters_eq_ok.mp hbound) (ofValues_eq_ok.mp hcells)
    (T := Written record) fun _ v _ hv hcell => ⟨v,hv,hcell⟩
  exact ⟨cells,by rw [hwritten.length_eq],hwritten⟩

theorem stored_written (ht : t.columns = b.definition.empty.columns) (hwritten : List.Forall₂ (Written record) b.columns cells) :
    List.Forall₂ (fun entry x => ∃ cell, Written record entry cell ∧ x = cell.stored entry.2.type.affinity) b.columns
      (t.storeCells cells) := by
  have hcolumns : t.columns = b.columns.map fun entry => entry.2.toTableColumn := by
    rw [ht,TableDefinition.empty,definition,List.map_map]
    rfl
  rw [Table.storeCells,hcolumns]
  clear hcolumns ht
  generalize b.columns = entries at hwritten
  induction hwritten with
  | nil => exact .nil
  | cons hcell _ ih => exact .cons ⟨_,hcell,rfl⟩ ih

theorem stores_numbered (ht : t.columns = b.definition.empty.columns)
    (hwritten : List.Forall₂ (Written record) b.columns cells) {given : Int}
    (hrow : t.numbered given (t.storeCells cells) = .ok row) : b.Stores record row := by
  have hstored := stored_written ht hwritten
  have hkeeps : List.Forall₂ (Fills record) b.columns (t.storeCells cells) :=
    hstored.imp fun _ _ ⟨cell,hcell,hx⟩ => ⟨cell,hcell,.inl hx⟩
  rcases Table.numbered_cases hrow with hsame | ⟨i,n,hposition,hnull,hset⟩
  · rwa [Stores,hsame]
  · rw [Stores,hset]
    refine forall₂_set hkeeps i fun entry hentry => ?_
    obtain ⟨x,hx,cell,hcell,rfl⟩ := getElem?_of_forall₂ hstored.flip hentry
    have hcolumn := (Bound.tableColumn ht).mpr ⟨_,_,hentry,rfl⟩
    obtain ⟨hlt,hnumbers,_⟩ := List.findIdx?_eq_some_iff_getElem.mp hposition
    rw [List.getElem?_eq_getElem hlt,Option.some.injEq] at hcolumn
    rw [Table.cellAt,List.getD_eq_getElem?_getD,hx] at hnull
    exact ⟨cell,hcell,.inr ⟨hnull,by rw [← hcolumn]; exact hnumbers,n,rfl⟩⟩

theorem newRow_stores (h : Bound s d b) (ht : t.columns = b.definition.empty.columns)
    (hnamed : b.named t record = .ok named) (hrow : t.newRow named = .ok row) : b.Stores record row := by
  obtain ⟨cells,rfl,hwritten⟩ := h.named_eq ht hnamed
  have hlength : (t.columns.map fun _ => Cell.null).length = cells.length := by
    rw [List.length_map,ht,TableDefinition.empty,definition,List.length_map,List.length_map,hwritten.length_eq]
  rw [Table.newRow,Table.setCells_range hlength] at hrow
  exact stores_numbered ht hwritten hrow

theorem changedRow_stores (h : Bound s d b) (ht : t.columns = b.definition.empty.columns)
    (ht' : t'.columns = b.definition.empty.columns) (hnamed : b.named t record = .ok named)
    (hold : old.cells.length = b.columns.length) (hrow : t'.changedRow old named = .ok row) : b.Stores record row := by
  obtain ⟨cells,rfl,hwritten⟩ := h.named_eq ht hnamed
  have hlength : old.cells.length = cells.length := by rw [hold,hwritten.length_eq]
  simp only [Table.changedRow,Table.setCells_range hlength] at hrow
  split at hrow
  · cases hrow
  · exact stores_numbered ht' hwritten hrow

/-- The cell of a row that keeps a record, in the place of its column and in the conditions on it. -/
theorem Stores.at (h : Bound s d b) (ht : t.columns = b.definition.empty.columns) (hstores : b.Stores record row)
    {entry : String × Column} (hentry : entry ∈ b.columns) :
    ∃ i, t.position? entry.2.name = some i ∧ Fills record entry (Table.cellAt row.cells i) ∧
      ∀ c, t.meets row ⟨entry.2.name, c⟩ = (Table.cellAt row.cells i).holds entry.2.type.affinity c := by
  obtain ⟨i,hi⟩ := List.mem_iff_getElem?.mp hentry
  obtain ⟨x,hx,hfills⟩ := getElem?_of_forall₂ hstores.flip hi
  have hposition := h.position? ht hi
  have hcell : Table.cellAt row.cells i = x := by
    rw [Table.cellAt,List.getD_eq_getElem?_getD,hx]
    rfl
  refine ⟨i,hposition,by rwa [hcell],fun c => ?_⟩
  have hcolumn := (Bound.tableColumn ht).mpr ⟨_,_,hi,rfl⟩
  rw [Table.meets,hposition]
  dsimp only
  rw [hcolumn]
  rfl

theorem Stores.cell (h : Bound s d b) (ht : t.columns = b.definition.empty.columns) (hstores : b.Stores record row)
    {entry : String × Column} (hentry : entry ∈ b.columns) :
    ∃ x, Fills record entry x ∧ ∀ c, t.meets row ⟨entry.2.name, c⟩ = x.holds entry.2.type.affinity c := by
  obtain ⟨i,_,hfills,hmeets⟩ := hstores.at h ht hentry
  exact ⟨_,hfills,hmeets⟩

/-- What an operation that succeeds makes of the rows of a table. -/
inductive Alters (b : TableBinding) (t : Table) (id : String) (record : Record) : Operation → List Row → Prop
  | insert {primary : String} {row : Row} (hprimary : b.primaryName = .ok primary)
      (hnew : t.select [⟨primary, .text id⟩] = []) (hstores : b.Stores record row) :
      Alters b t id record .insert (Table.place t.rows row)
  | update {primary : String} {rows : List Row} (hprimary : b.primaryName = .ok primary)
      (hthere : t.select [⟨primary, .text id⟩] ≠ []) (hrows : ∀ row ∈ rows, row ∈ t.rows ∨ b.Stores record row)
      (hone : ∀ old, t.select [⟨primary, .text id⟩] = [old] →
        ∃ row, b.Stores record row ∧ rows = Table.place (t.otherRows old) row) : Alters b t id record .update rows
  | delete {primary : String} (hprimary : b.primaryName = .ok primary) (hthere : t.select [⟨primary, .text id⟩] ≠ []) :
      Alters b t id record .delete (t.remove (t.select [⟨primary, .text id⟩])).rows

theorem replaceAll_alters (h : Bound s d b) (ht : t.columns = b.definition.empty.columns)
    (hwide : ∀ row ∈ t.rows, row.cells.length = b.columns.length) (hnamed : b.named t record = .ok named)
    {olds : List Row} (holds : olds ⊆ t.rows) (hok : t.replaceAll named olds = .ok t') :
    ∃ rows, t' = { t with rows } ∧ (∀ row ∈ rows, row ∈ t.rows ∨ b.Stores record row) ∧
      ∀ old, olds = [old] → ∃ row, b.Stores record row ∧ rows = Table.place (t.otherRows old) row := by
  have hkept : ∃ rows, t' = { t with rows } ∧ ∀ row ∈ rows, row ∈ t.rows ∨ b.Stores record row := by
    refine Table.replaceAll_keeps (fun u => ∃ rows, u = { t with rows } ∧ ∀ row ∈ rows, row ∈ t.rows ∨ b.Stores record row)
      ?_ ⟨t.rows,rfl,fun _ => .inl⟩ hok
    rintro u u' old hold ⟨rows,rfl,hrows⟩ hreplace
    obtain ⟨row,hrow,_,rfl⟩ := Table.replace_eq_ok.mp hreplace
    refine ⟨_,rfl,fun x hx => ?_⟩
    rcases List.mem_cons.mp ((Table.place_perm _ row).mem_iff.mp hx) with rfl | hx
    · exact .inr (changedRow_stores h ht ht hnamed (hwide old (holds hold)) hrow)
    · exact hrows x (List.mem_of_mem_filter hx)
  obtain ⟨rows,rfl,hrows⟩ := hkept
  refine ⟨rows,rfl,hrows,?_⟩
  rintro old rfl
  obtain ⟨u,hu,hok⟩ := bind_eq_ok.mp hok
  cases hok
  obtain ⟨row,hrow,_,hu⟩ := Table.replace_eq_ok.mp hu
  exact ⟨row,changedRow_stores h ht ht hnamed (hwide old (holds List.mem_cons_self)) hrow,congrArg Table.rows hu⟩

/-- A change of the store that succeeds alters the rows of the table, and nothing else of it. -/
theorem Holds.alters (hholds : b.Holds db t) (h : Bound s d b) (hwide : ∀ row ∈ t.rows, row.cells.length = b.columns.length)
    (hok : b.adapter.change op r id record db = .ok db') :
    ∃ rows, b.Alters t id record op rows ∧ db' = db.setTable { t with rows } ∧ b.Holds db' { t with rows } := by
  cases op with
  | insert =>
    change b.insert _ _ _ _ = _ at hok
    rw [insert_eq hholds.found] at hok
    obtain ⟨primary,hprimary,hok⟩ := bind_eq_ok.mp hok
    split at hok
    · cases hok
    · rename_i hnew
      obtain ⟨named,hnamed,hok⟩ := bind_eq_ok.mp hok
      obtain ⟨t',ht',rfl⟩ := settled_eq_ok hok
      have hsound := Table.insert_sound hholds.sound ht'
      obtain ⟨row,hrow,_,rfl⟩ := Table.insert_eq_ok.mp ht'
      have hstores := newRow_stores h hholds.columns hnamed hrow
      exact ⟨_,.insert hprimary (by simpa using hnew) hstores,rfl,hholds.setRows hsound⟩
  | update =>
    change b.update _ _ _ _ = _ at hok
    rw [update_eq hholds.found] at hok
    obtain ⟨primary,hprimary,hok⟩ := bind_eq_ok.mp hok
    obtain ⟨named,hnamed,hok⟩ := bind_eq_ok.mp hok
    split at hok
    · cases hok
    · rename_i hthere
      obtain ⟨t',ht',rfl⟩ := settled_eq_ok hok
      have hsound := Table.replaceAll_sound hholds.sound ht'
      obtain ⟨rows,rfl,hrows,hone⟩ := replaceAll_alters h hholds.columns hwide hnamed (List.filter_subset_self _) ht'
      exact ⟨rows,.update hprimary (by simpa using hthere) hrows hone,rfl,hholds.setRows hsound⟩
  | delete =>
    change b.delete _ _ _ = _ at hok
    rw [delete_eq hholds.found] at hok
    obtain ⟨primary,hprimary,hok⟩ := bind_eq_ok.mp hok
    split at hok
    · cases hok
    · rename_i hthere
      cases pure_eq_ok.mp hok
      exact ⟨_,.delete hprimary (by simpa using hthere),rfl,hholds.setRows (Table.remove_sound hholds.sound _)⟩

theorem parameters_error {entries : List (String × Column)} {e : Error} (h : parameters record entries = .error e) :
    e = .failure .kind := by
  induction entries with
  | nil => cases h
  | cons entry rest ih =>
    rcases bind_eq_error.mp h with h | ⟨v,_,h⟩
    · exact Column.encode_error h
    · exact (bind_eq_error.mp h).elim ih fun ⟨_,_,h⟩ => nomatch h

theorem ofValues_error {vs : List Value} {e : Error} (h : Cell.ofValues vs = .error e) : ∃ f, e = .failure f := by
  induction vs with
  | nil => cases h
  | cons v rest ih =>
    rcases bind_eq_error.mp h with h | ⟨cell,_,h⟩
    · exact Cell.ofValue_error h
    · exact (bind_eq_error.mp h).elim ih fun ⟨_,_,h⟩ => nomatch h

/-- A record that is not written has a value that cannot be kept. -/
theorem Bound.named_error (h : Bound s d b) (ht : t.columns = b.definition.empty.columns) {e : Error}
    (hnamed : b.named t record = .error e) : ∃ f, e = .failure f := by
  rcases bind_eq_error.mp hnamed with hparameters | ⟨bound,_,hwritten⟩
  · exact ⟨_,parameters_error hparameters⟩
  · rcases bind_eq_error.mp hwritten with hpositions | ⟨positions,_,hcells⟩
    · cases (h.positions_range ht).symm.trans hpositions
    · exact (bind_eq_error.mp hcells).elim ofValues_error fun ⟨_,_,h⟩ => nomatch h

/-- What a table has against a row is told as such, or as a taken key. -/
theorem settled_error {entity : String} {result : Except Error Table} {e : Error}
    (hresult : ∀ e, result = .error e → ∃ f, e = .integrity f) (h : b.settled entity db result = .error e) :
    e.IsRefusal := by
  cases result with
  | ok t => cases h
  | error e' =>
    obtain ⟨f,rfl⟩ := hresult e' rfl
    cases h
    rw [report]
    split
    · exact .inr (.inr ⟨_,rfl⟩)
    · exact .inr (.inl ⟨f,rfl⟩)

/-- Rows that were there or keep the record of the operation. -/
theorem Alters.rows {rows : List Row} (h : b.Alters t id record op rows) :
    ∀ row ∈ rows, row ∈ t.rows ∨ op ≠ .delete ∧ b.Stores record row := by
  intro row hrow
  cases h with
  | insert _ _ hstores =>
    rcases List.mem_cons.mp ((Table.place_perm _ _).mem_iff.mp hrow) with rfl | hrow
    · exact .inr ⟨Operation.noConfusion,hstores⟩
    · exact .inl hrow
  | update _ _ hrows => exact (hrows row hrow).imp_right fun hstores => ⟨Operation.noConfusion,hstores⟩
  | delete => exact .inl (List.mem_of_mem_filter hrow)

/-- What a call did to a repository over a database. -/
inductive Did (b : TableBinding) (r : Repository) (call : Call) (opened : Repository × Database) :
    Except Error Unit × Repository × Database → Prop
  | unprepared {e : Error} (hprepare : (runOn (prepare call.operation) (call.writing (r, ()))).1 = .error e) :
      Did b r call opened (.error e, opened)
  | refused {id : String} {record : Record} {e : Error}
      (hprepare : (runOn (prepare call.operation) (call.writing (r, ()))).1 = .ok (id, record))
      (hchange : b.adapter.change call.operation r id record opened.2 = .error e) : Did b r call opened (.error e, opened)
  | changed {id : String} {record : Record} {db : Database} {answer : Except Error Unit}
      {published : List (List (Event Value))}
      (hprepare : (runOn (prepare call.operation) (call.writing (r, ()))).1 = .ok (id, record))
      (hchange : b.adapter.change call.operation r id record opened.2 = .ok db) :
      Did b r call opened (answer, { r with published }, db)

theorem did (b : TableBinding) (r : Repository) (call : Call) (published : List (List (Event Value))) (db : Database) :
    b.Did r call ({ r with published }, db) (call.on (·.onRows b) ({ r with published }, db)) := by
  have hspec := write_spec (b.ready_rows call.operation (call.writing ({ r with published }, db)))
  have hbinds := binds_prepare call.operation (call.writing ({ r with published }, db))
  have hany := prepare_any (r := r) call published db
  rw [write_rows] at hspec
  rcases hrun : runOn (prepare call.operation) (call.writing ({ r with published }, db)) with ⟨e | ⟨id,record⟩,w⟩ <;>
    rw [hrun] at hspec hbinds hany
  · rw [Call.on_refused hspec]
    exact .unprepared hany.symm
  · dsimp only at hspec
    have hsame : b.adapter.change call.operation (call.writing ({ r with published }, db)).repository id record db =
        b.adapter.change call.operation r id record db := by
      cases call.operation <;> rfl
    generalize hchange : b.adapter.change _ _ _ _ _ = changed at hspec
    have hchange := hsame.symm.trans hchange
    cases hspec with
    | refused hrefused =>
      rw [Call.on_refused hrefused]
      exact .refused hany.symm hchange
    | @finished store hfinished =>
      rw [Call.on_finished hfinished]
      obtain ⟨bound,hbound⟩ := hbinds
      obtain ⟨later,hlater⟩ := binds_finish (hookOf call.operation) (w.withStore store)
      have hleft : (runOn (finish (hookOf call.operation)) (w.withStore store)).2.repository =
          { r with published := later } := by
        rw [hlater]
        change { w.repository with published := later } = _
        rw [hbound]
        rfl
      rw [hleft]
      exact .changed hany.symm hchange

/-- Whether a record is what a call prepares to be stored. -/
def Prepares (r : Repository) (call : Call) (record : Record) : Prop :=
  call.operation ≠ .delete ∧ ∃ id, (runOn (prepare call.operation) (call.writing (r, ()))).1 = .ok (id, record)

/-- A repository over a table each of whose rows keeps a record of some kind. -/
structure Stocked (b : TableBinding) (r : Repository) (P : Record → Prop) (opened : Repository × Database) : Prop where
  repository : ∃ published, opened.1 = { r with published }
  rows : ∃ t, b.Holds opened.2 t ∧ ∀ row ∈ t.rows, ∃ record, P record ∧ b.Stores record row

variable {P : Record → Prop} {opened : Repository × Database}

theorem Stocked.created {db₀ : Database} (hcreate : b.definition.create db₀ = .ok db)
    (hnew : db₀.table? b.definition.name = none) : b.Stocked r P (r, db) :=
  ⟨⟨r.published,rfl⟩,_,holds_created hcreate hnew,fun _ h => absurd h List.not_mem_nil⟩

theorem Stocked.wide (hrows : ∀ row ∈ t.rows, ∃ record, P record ∧ b.Stores record row) :
    ∀ row ∈ t.rows, row.cells.length = b.columns.length := by
  intro row hrow
  obtain ⟨_,_,hstores⟩ := hrows row hrow
  exact hstores.length_eq.symm

theorem Stocked.call (hstocked : b.Stocked r P opened) (h : Bound s d b) {call : Call}
    (hgood : ∀ record, Prepares r call record → P record) : b.Stocked r P (call.on (·.onRows b) opened).2 := by
  rcases opened with ⟨_,db⟩
  obtain ⟨⟨published,rfl⟩,t,hholds,hrows⟩ := id hstocked
  have hdid := b.did r call published db
  generalize call.on (·.onRows b) ({ r with published }, db) = left at hdid
  cases hdid with
  | unprepared | refused => exact hstocked
  | changed hprepare hchange =>
    obtain ⟨rows,halters,_,hholds'⟩ := hholds.alters h (Stocked.wide hrows) hchange
    refine ⟨⟨_,rfl⟩,_,hholds',fun row hrow => ?_⟩
    rcases halters.rows row hrow with hrow | ⟨hop,hstores⟩
    · exact hrows row hrow
    · exact ⟨_,hgood _ ⟨hop,_,hprepare⟩,hstores⟩

theorem Stocked.run (hstocked : b.Stocked r P opened) (h : Bound s d b) {calls : List Call}
    (hgood : ∀ call ∈ calls, ∀ record, Prepares r call record → P record) : b.Stocked r P (Call.run (·.onRows b) opened calls) := by
  induction calls generalizing opened with
  | nil => exact hstocked
  | cons call rest ih =>
    have hnext := hstocked.call h (hgood call List.mem_cons_self)
    exact ih hnext fun later hlater => hgood later (List.mem_cons_of_mem call hlater)

end TableBinding

end Trischema
