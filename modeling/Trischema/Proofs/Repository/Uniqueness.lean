import Trischema.Proofs.Repository.Rows

/-!
Which duplicates a created table keeps out, over every series of writes: those on the identifier and on
unique groups of properties that are no relationships, and no others.
-/

namespace Trischema

namespace TableBinding

open Relational Write Adapter

variable {r : Registry} {s : Settings} {c : Class Value} {d : Descriptor} {b : TableBinding} {db : Database}
  {t : Table}

theorem ready_rows (b : TableBinding) (op : Operation) (w : Writing Database) : b.adapter.Ready op w :=
  fun _ _ _ => rfl

/-- A change of the store through an adapter over rows keeps what holds of the table. -/
theorem Holds.change (h : b.Holds db t) {op : Operation} {repo : Repository} {id : String} {record : Record}
    {db' : Database} (hok : b.adapter.change op repo id record db = .ok db') : ∃ t', b.Holds db' t' := by
  cases op with
  | insert => exact h.insert hok
  | update => exact h.update hok
  | delete => exact h.delete hok

/-- One call keeps what holds of the table, whatever it answers. -/
theorem Holds.call {opened : Repository × Database} (h : b.Holds opened.2 t) (call : Call) :
    ∃ t', b.Holds (call.on (·.onRows b) opened).2.2 t' := by
  have hspec := write_spec (b.ready_rows call.operation (call.writing opened))
  rw [write_rows] at hspec
  split at hspec
  · rw [Call.on_refused hspec]
    exact ⟨t,h⟩
  · generalize hchange : b.adapter.change _ _ _ _ _ = changed at hspec
    cases hspec with
    | refused hrefused =>
      rw [Call.on_refused hrefused]
      exact ⟨t,h⟩
    | finished hfinished =>
      rw [Call.on_finished hfinished]
      exact h.change hchange

theorem Holds.run {opened : Repository × Database} (h : b.Holds opened.2 t) (calls : List Call) :
    ∃ t', b.Holds (Call.run (·.onRows b) opened calls).2 t' :=
  Call.run_keeps (fun opened => ∃ t', b.Holds opened.2 t') (fun call _ ⟨_,h⟩ => h.call call) ⟨t,h⟩ calls

/-- The row that an operation would store for a record, and the rows that it would stand next to. -/
inductive WouldStore (b : TableBinding) (t : Table) (id : String) (record : Record) :
    Operation → List Row → Row → Prop
  | insert {primary : String} {cells : List (Nat × Cell)} {row : Row} (hprimary : b.primaryName = .ok primary)
      (hcells : b.named t record = .ok cells) (hnew : t.select [⟨primary, .text id⟩] = [])
      (hrow : t.newRow cells = .ok row) : WouldStore b t id record .insert t.rows row
  | update {primary : String} {cells : List (Nat × Cell)} {old row : Row} {rest : List Row}
      (hprimary : b.primaryName = .ok primary) (hcells : b.named t record = .ok cells)
      (hold : t.select [⟨primary, .text id⟩] = old :: rest) (hrow : t.changedRow old cells = .ok row) :
      WouldStore b t id record .update (t.otherRows old) row

/-- A row that the table has a fault with is not stored. -/
theorem change_fault (ht : db.table? b.schema.name = some t) {op : Operation} {repo : Repository} {id : String}
    {record : Record} {others : List Row} {row : Row} {fault : IntegrityFault}
    (h : b.WouldStore t id record op others row) (hfault : t.fault? others row = some fault) :
    b.adapter.change op repo id record db = .error (b.report repo.entity (.integrity fault)) := by
  have haccept : t.accept others row = .error (.integrity fault) := by rw [Table.accept,hfault]
  cases h with
  | insert hprimary hcells hnew hrow =>
    change b.insert _ _ _ _ = _
    rw [insert_eq ht,hprimary]
    change (if !(t.select _).isEmpty then _ else _) = _
    rw [hnew,hcells]
    change b.settled _ _ (t.insert _) = _
    rw [Table.insert_eq,hrow]
    change b.settled _ _ (t.accept _ _) = _
    rw [haccept]
    rfl
  | update hprimary hcells hold hrow =>
    change b.update _ _ _ _ = _
    rw [update_eq ht,hprimary,hcells]
    change (if (t.select _).isEmpty then _ else b.settled _ _ (t.replaceAll _ (t.select _))) = _
    rw [hold]
    change b.settled _ _ (t.replace _ _ >>= _) = _
    rw [Table.replace_eq,hrow]
    change b.settled _ _ (t.accept _ _ >>= _) = _
    rw [haccept]
    rfl

/-- A call whose row the table has a fault with is answered with the report of the fault, and changes nothing. -/
theorem on_fault {opened : Repository × Database} (ht : opened.2.table? b.schema.name = some t) {call : Call}
    {id : String} {record : Record} {others : List Row} {row : Row} {fault : IntegrityFault}
    (hprepare : (runOn (prepare call.operation) (call.writing opened)).1 = .ok (id, record))
    (h : b.WouldStore t id record call.operation others row) (hfault : t.fault? others row = some fault) :
    call.on (·.onRows b) opened = (.error (b.report opened.1.entity (.integrity fault)), opened) := by
  have hspec := write_spec (b.ready_rows call.operation (call.writing opened))
  rw [write_rows,hprepare] at hspec
  have hchange : b.adapter.change call.operation (call.writing opened).repository id record
      (call.writing opened).store = .error (b.report opened.1.entity (.integrity fault)) := change_fault ht h hfault
  dsimp only at hspec
  rw [hchange] at hspec
  obtain hrefused | _ := hspec
  exact Call.on_refused hrefused

/-- Whether two rows coincide on a unique group of properties that are no relationships. -/
def duplicates (b : TableBinding) (d : Descriptor) (x y : Row) : Bool :=
  (Records.uniqueGroups d).any fun group => isScalarGroup d group && b.coincide group x y

theorem duplicates_iff {x y : Row} : b.duplicates d x y = true ↔
    ∃ group ∈ Records.uniqueGroups d, isScalarGroup d group = true ∧ b.coincide group x y = true := by
  simp only [duplicates,List.any_eq_true,Bool.and_eq_true]

/-- Nothing is against a row exactly when the columns accept it, its number is free, and it coincides with no
other in the identifier or on a unique group without relationships. -/
theorem fault?_eq_none_iff (hbound : Bound s d b) (h : b.Holds db t) (others : List Row) (row : Row) :
    t.fault? others row = none ↔
      t.missing? row.cells = none ∧ t.refusing? row.cells = none ∧ t.numberTaken others row = false ∧
      ∀ x ∈ others, b.duplicates d x row = false ∧
        ∀ p ∈ d.identifiers, p.isRelationship = false → t.numberPosition? = none →
          b.coincide [p.key] x row = false := by
  rw [Table.fault?_eq_none,Table.takenKey?_eq_none]
  refine and_congr_right fun _ => and_congr_right fun _ => and_congr_right fun _ => ?_
  have hcollides (x : Row) := not_congr (hbound.collides_iff h.columns h.together x row)
  constructor
  · intro hfree x hx
    have hnone := (hcollides x).mp fun ⟨key,hkey,hcollide⟩ => by
      rw [hfree key hkey x hx] at hcollide
      cases hcollide
    rw [not_or,← duplicates_iff] at hnone
    refine ⟨Bool.eq_false_iff.mpr hnone.2,fun p hp hscalar hnumber => ?_⟩
    exact Bool.eq_false_iff.mpr fun hcoincide => hnone.1 ⟨p,hp,hscalar,hnumber,hcoincide⟩
  · intro hfree key hkey x hx
    refine Bool.eq_false_iff.mpr fun hcollide => (hcollides x).mpr ?_ ⟨key,hkey,hcollide⟩
    rw [not_or,← duplicates_iff,(hfree x hx).1]
    refine ⟨fun ⟨p,hp,hscalar,hnumber,hcoincide⟩ => ?_,Bool.false_ne_true⟩
    rw [(hfree x hx).2 p hp hscalar hnumber] at hcoincide
    cases hcoincide

/-- A fault with a row that every column accepts is a number or a key that is taken. -/
theorem fault_of_accepted {others : List Row} {row : Row} {fault : IntegrityFault}
    (hfault : t.fault? others row = some fault) (hmissing : t.missing? row.cells = none)
    (hrefusing : t.refusing? row.cells = none) : ∃ columns, fault = .unique t.name columns := by
  rw [Table.fault?,hmissing,hrefusing] at hfault
  cases htaken : t.numberTaken others row with
  | true =>
    rw [htaken] at hfault
    exact ⟨_,(Option.some.inj hfault).symm⟩
  | false =>
    rw [htaken] at hfault
    obtain ⟨key,_,hkey⟩ := Option.map_eq_some_iff.mp hfault
    exact ⟨_,hkey.symm⟩

theorem Holds.apart (h : b.Holds db t) (hbound : Bound s d b) :
    t.rows.Pairwise fun x y => b.duplicates d x y = false := by
  rw [List.pairwise_iff_getElem]
  intro i j hi hj hij
  rw [Bool.eq_false_iff]
  intro hduplicates
  obtain ⟨key,hkey,hcollide⟩ :=
    (hbound.collides_iff h.columns h.together _ _).mpr (.inr (duplicates_iff.mp hduplicates))
  have hfalse := List.pairwise_iff_getElem.mp (h.sound.apart key hkey) i j hi hj hij
  rw [hfalse] at hcollide
  cases hcollide

theorem compile_registered {schema : Relational} (hd : r.descriptor (.cls c) = .ok d)
    (h : (Relational.compile r (.ok s) (.cls c) none 0).result = .ok schema) :
    (ofDescriptor r s d).result = .ok schema := by
  have hwithin : ¬ ((s.maxDepth : Int) < 0) := by omega
  simpa [Relational.compile,Settings.limit,Except.map,TypeExpr.isAbsent,hwithin,hd] using h

/-- Over every series of writes to a created table, no two rows coincide on a unique group of properties that
are no relationships: a write that would make them is refused as a taken key and leaves everything as it was.
Besides the identifier, nothing else is kept apart. -/
theorem unique_groups_enforced {db₀ : Database} {schema : Relational} {repo : Repository} {calls : List Call}
    {reached : Repository × Database} (hd : r.descriptor (.cls c) = .ok d)
    (hschema : (Relational.compile r (.ok s) (.cls c) none 0).result = .ok schema)
    (hb : ofSchema d schema = .ok b) (hcreate : b.definition.create db₀ = .ok db)
    (hnew : db₀.table? b.definition.name = none) (hreached : reached = Call.run (·.onRows b) (repo, db) calls) :
    ∃ t, reached.2.table? b.schema.name = some t ∧
      (t.rows.Pairwise fun x y => b.duplicates d x y = false) ∧
      (∀ (call : Call) (id : String) (record : Record) (others : List Row) (row : Row),
        (runOn (prepare call.operation) (call.writing reached)).1 = .ok (id, record) →
        b.WouldStore t id record call.operation others row →
        (∃ x ∈ others, b.duplicates d x row = true) →
        ∃ e, call.on (·.onRows b) reached = (.error e, reached) ∧
          (t.missing? row.cells = none → t.refusing? row.cells = none → ∃ columns,
            e = b.report reached.1.entity (.integrity (.unique t.name columns)))) ∧
      ∀ (others : List Row) (row : Row), t.fault? others row = none ↔
        t.missing? row.cells = none ∧ t.refusing? row.cells = none ∧ t.numberTaken others row = false ∧
        ∀ x ∈ others, b.duplicates d x row = false ∧
          ∀ p ∈ d.identifiers, p.isRelationship = false → t.numberPosition? = none →
            b.coincide [p.key] x row = false := by
  have hbound := bound_of_created hd (compile_registered hd hschema) hb hcreate hnew
  have hstart : b.Holds ((repo, db) : Repository × Database).2 b.definition.empty := holds_created hcreate hnew
  obtain ⟨t,ht⟩ := hstart.run calls
  rw [← hreached] at ht
  have hexact := fault?_eq_none_iff hbound ht
  refine ⟨t,ht.found,ht.apart hbound,?_,hexact⟩
  · intro call id record others row hprepare hstore ⟨x,hx,hduplicates⟩
    obtain ⟨fault,hfault⟩ : ∃ fault, t.fault? others row = some fault := by
      rw [← Option.ne_none_iff_exists',ne_eq,hexact]
      intro hfree
      rw [(hfree.2.2.2 x hx).1] at hduplicates
      cases hduplicates
    refine ⟨_,on_fault ht.found hprepare hstore hfault,fun hmissing hrefusing => ?_⟩
    obtain ⟨columns,rfl⟩ := fault_of_accepted hfault hmissing hrefusing
    exact ⟨columns,rfl⟩

/-- A seat, which has a desk of its own. -/
def seat : Class Value := ⟨.defined "Seat" 0 [.builtin .object], none⟩

/-- A desk that is kept as a text. -/
def deskText : Given := [("unique", .bool true), ("type", .type (.builtin .text))]

/-- A desk that is a link which the seat owns. -/
def deskLink : Given := [("unique", .bool true), ("relationship", .relationship {
  edgeType := "AT"
  target := .cls ⟨.defined "Desk" 1 [.builtin .object], none⟩
  direction := .known .outgoing
  cardinality := some (.known .oneToOne)
  owner := true
  inverse := .null
  joinColumns := []
  joinTable := .null
  cascade := .flag false
  eager := false
  edgeProperties := [] })]

/-- A new seat at the one desk. -/
def taking (id : String) : Call where
  operation := .insert
  entity := .object ⟨0, seat, [("id", .str id), ("desk", .str "d")], [], []⟩
  world := { clock := default }

/-- What two seats at the one desk leave in a new table. -/
def twoSeats (desk : Given) : Except Error (Descriptor × TableBinding × List Row) := do
  let r ← ({} : Registry).registerProperty (.cls seat) (.str "desk") desk
  let d ← r.descriptor (.cls seat)
  let schema ← (Relational.compile r (.ok Settings.defaults) (.cls seat) none 0).result
  let b ← ofSchema d schema
  let repo ← Repository.ofDescriptor d none
  let db ← b.definition.create []
  let t ← (Call.run (·.onRows b) (repo, db) [taking "1", taking "2"]).2.table b.schema.name
  return (d, b, t.rows)

theorem unique_groups_enforced_seats : ∃ d b rows, twoSeats deskText = .ok (d, b, rows) ∧
    ["desk"] ∈ Records.uniqueGroups d ∧ rows.Pairwise fun x y => b.duplicates d x y = false := by
  have hok : ((twoSeats deskText).toOption.any fun (d, _) => (Records.uniqueGroups d).contains ["desk"]) = true := by
    decide +kernel
  obtain ⟨⟨d,b,rows⟩,hseats,hgroup⟩ := exists_ok_of_any hok
  refine ⟨d,b,rows,hseats,List.contains_iff_mem.mp hgroup,?_⟩
  obtain ⟨r,_,h⟩ := bind_eq_ok.mp hseats
  obtain ⟨d,schema,b,_,db,hd,hschema,hb,_,hcreate,h⟩ := exists_created h
  obtain ⟨t,ht,h⟩ := bind_eq_ok.mp h
  cases pure_eq_ok.mp h
  obtain ⟨t',ht',hapart,_⟩ := unique_groups_enforced hd hschema hb hcreate rfl rfl
  rw [Database.table_eq_ok.mp ht] at ht'
  cases ht'
  exact hapart

/-- Whether there are two rows, which are equal on their desks. -/
def haveOneDesk (b : TableBinding) : List Row → Bool
  | [x, y] => b.coincide ["desk"] x y
  | _ => false

/-- Two seats that own links to one desk are both stored, although the desk of a seat is unique. -/
theorem unique_groups_shared_desk : ∃ d b x y, twoSeats deskLink = .ok (d, b, [x, y]) ∧
    ["desk"] ∈ Records.uniqueGroups d ∧ (b.columns.lookup "desk").isSome = true ∧
    b.coincide ["desk"] x y = true := by
  have hok : ((twoSeats deskLink).toOption.any fun seats =>
      (Records.uniqueGroups seats.1).contains ["desk"] && (seats.2.1.columns.lookup "desk").isSome &&
        haveOneDesk seats.2.1 seats.2.2) = true := by decide +kernel
  obtain ⟨⟨d,b,rows⟩,hseats,h⟩ := exists_ok_of_any hok
  simp only [Bool.and_eq_true,List.contains_iff_mem] at h
  obtain ⟨⟨hgroup,hcolumn⟩,hdesk⟩ := h
  unfold haveOneDesk at hdesk
  split at hdesk
  · exact ⟨d,b,_,_,hseats,hgroup,hcolumn,hdesk⟩
  · cases hdesk

end TableBinding

end Trischema
