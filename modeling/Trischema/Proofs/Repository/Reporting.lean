import Mathlib.Data.List.Infix
import Trischema.Proofs.Repository.Agreement
import Trischema.Proofs.Text.Splitting

/-!
How a taken key is reported. The engine lists the columns of the key in one text, which is taken apart at commas and
points; it gives the properties of the columns back where the names of the table and the columns can be read there.
-/

namespace Trischema

namespace IntegrityFault

open Text

variable {table : String} {names : List String}

theorem qualified_single (table name : String) :
    (qualified table [name]).toList = table.toList ++ '.' :: name.toList := by
  have hqualified : qualified table [name] = table ++ "." ++ name := rfl
  rw [hqualified,String.toList_append,String.toList_append,List.append_assoc]
  rfl

theorem qualified_cons (table name other : String) (names : List String) :
    (qualified table (name :: other :: names)).toList =
      (table.toList ++ '.' :: name.toList) ++ ',' :: ' ' :: (qualified table (other :: names)).toList := by
  rw [← qualified_single,qualified,List.map_cons,List.map_cons,String.intercalate_cons_cons,String.toList_append,
    String.toList_append,List.append_assoc]
  rfl

/-- The commas of a listing stand between its columns, or in the names. -/
theorem qualified_count (hnames : names ≠ []) : (qualified table names).toList.count ',' + 1 =
    names.length + names.length * table.toList.count ',' + (names.flatMap String.toList).count ',' := by
  induction names with
  | nil => exact absurd rfl hnames
  | cons name rest ih =>
    rw [List.flatMap_cons,List.count_append]
    cases rest with
    | nil =>
      rw [qualified_single,List.count_append,List.count_cons_of_ne (by decide),List.length_singleton,Nat.one_mul]
      rw [List.flatMap_nil,List.count_nil]
      omega
    | cons other rest =>
      have hrest := ih (List.cons_ne_nil _ _)
      rw [qualified_cons,List.count_append,List.count_append,List.count_cons_of_ne (by decide),List.count_cons_self,
        List.count_cons_of_ne (by decide)]
      rw [List.length_cons,Nat.succ_mul]
      omega

/-- A listing has one part for each column exactly where no name has a comma. -/
theorem splitAll_qualified_length (hnames : names ≠ []) :
    (splitAll ',' (qualified table names).toList).length = names.length ↔
      ',' ∉ table.toList ∧ ∀ name ∈ names, ',' ∉ name.toList := by
  have hlength : names.length ≠ 0 := (List.length_pos_iff.mpr hnames).ne'
  have hfree : (names.flatMap String.toList).count ',' = 0 ↔ ∀ name ∈ names, ',' ∉ name.toList := by
    rw [List.count_eq_zero,List.mem_flatMap]
    exact not_exists.trans (forall_congr' fun name => not_and)
  have htable : names.length * table.toList.count ',' = 0 ↔ ',' ∉ table.toList := by
    rw [Nat.mul_eq_zero,or_iff_right hlength,List.count_eq_zero]
  rw [splitAll_length,qualified_count hnames,← htable,← hfree]
  omega

/-- The parts of a listing where no name has a comma. -/
theorem parts_qualified (hnames : names ≠ []) (htable : ',' ∉ table.toList)
    (hfree : ∀ name ∈ names, ',' ∉ name.toList) :
    (splitAll ',' (qualified table names).toList).map trimBlanks =
      names.map fun name => trimBlanks (table.toList ++ '.' :: name.toList) := by
  have hpart {name : String} (hname : ',' ∉ name.toList) : ',' ∉ table.toList ++ '.' :: name.toList := by
    rw [List.mem_append,List.mem_cons]
    rintro (hin | hpoint | hin)
    · exact htable hin
    · cases hpoint
    · exact hname hin
  induction names with
  | nil => exact absurd rfl hnames
  | cons name rest ih =>
    obtain ⟨hname,hrest⟩ := List.forall_mem_cons.mp hfree
    cases rest with
    | nil => rw [qualified_single,splitAll_free (hpart hname)]; rfl
    | cons other rest =>
      rw [qualified_cons,splitAll_append (hpart hname),List.map_cons,trimmed_cons (by decide) (by decide),
        ih (List.cons_ne_nil _ _) hrest]
      rfl

end IntegrityFault

namespace TableBinding

open Text IntegrityFault

variable {s : Settings} {d : Descriptor} {b : TableBinding} {t : Table}

/-- The name that is read off a column as the engine lists it with its table. -/
def readAs (table name : String) : String :=
  String.ofList (afterPoint (trimBlanks (table.toList ++ '.' :: name.toList)))

theorem afterPoint_append {cs ds : List Char} (h : '.' ∉ cs) : afterPoint (cs ++ '.' :: ds) = ds := by
  rw [afterPoint,cutAt_append h]
  rfl

/-- The name of a column is read as it is where that of the table has no point, and no blank ends it. -/
theorem readAs_eq_iff {table name : String} : readAs table name = name ↔
    '.' ∉ table.toList ∧ ∀ c ∈ name.toList.getLast?, isBlank c = false := by
  have hpoint : isBlank '.' = false := by decide
  have htrim : (∀ c ∈ name.toList.getLast?, isBlank c = false) ↔ name.toList.rdropWhile isBlank = name.toList := by
    rw [List.rdropWhile_eq_self_iff]
    constructor
    · intro h hne
      rw [h _ (List.getLast?_eq_getLast_of_ne_nil hne)]
      exact Bool.false_ne_true
    · intro h c hc
      obtain ⟨hne,rfl⟩ := List.mem_getLast?_eq_getLast hc
      exact Bool.eq_false_iff.mpr (h hne)
  rw [readAs,trimBlanks_stop hpoint,← String.toList_inj,String.toList_ofList,htrim,← mem_dropWhile hpoint]
  by_cases hdot : '.' ∈ table.toList.dropWhile isBlank
  · refine iff_of_false (fun heq => ?_) fun h => h.1 hdot
    obtain ⟨before,after,hsplit,hfree⟩ := List.eq_append_cons_of_mem hdot
    rw [hsplit,List.append_assoc,List.cons_append,afterPoint_append hfree] at heq
    -- the rest of the name of the table would be part of the column
    have hagain := congrArg (List.rdropWhile isBlank) heq
    rw [rdropWhile_stop hpoint,List.rdropWhile_idempotent] at hagain
    have hlength := congrArg List.length hagain
    rw [List.length_append,List.length_cons] at hlength
    omega
  · rw [afterPoint_append hdot]
    exact (and_iff_right hdot).symm

/-- Whether the property of a column is told by what is read where the column is listed: that is the name of the
column, or the property where no column has its name. -/
def Tells (b : TableBinding) (table : String) (entry : String × Column) : Prop :=
  ('.' ∉ table.toList ∧ ∀ c ∈ entry.2.name.toList.getLast?, isBlank c = false) ∨
    readAs table entry.2.name = entry.1 ∧ ∀ other ∈ b.columns, other.2.name ≠ entry.1

/-- A name stands for the property of its column, and for itself where no column has it. -/
theorem keyOf_eq_iff (h : Bound s d b) {entry : String × Column} (hentry : entry ∈ b.columns) {name : String} :
    b.keyOf name = entry.1 ↔ name = entry.2.name ∨ name = entry.1 ∧ ∀ other ∈ b.columns, other.2.name ≠ entry.1 := by
  rw [keyOf]
  split
  · rename_i key c hfind
    have hmem : (key, c) ∈ b.columns := List.mem_reverse.mp (List.mem_of_find?_eq_some hfind)
    have hname : c.name = name := by simpa using List.find?_some hfind
    constructor
    · intro hkey
      have hsame := List.inj_on_of_nodup_map h.columns_keys_nodup hmem hentry hkey
      exact .inl (by rw [← hsame,hname])
    · rintro (rfl | ⟨rfl,hnone⟩)
      · rw [← List.inj_on_of_nodup_map h.names hmem hentry (congrArg String.toLower hname)]
      · exact absurd hname (hnone _ hmem)
  · rename_i hfind
    have hnone : ∀ other ∈ b.columns, other.2.name ≠ name := fun other hother heq =>
      List.find?_eq_none.mp hfind other (List.mem_reverse.mpr hother) (by simpa using heq)
    constructor
    · rintro rfl
      exact .inr ⟨rfl,hnone⟩
    · rintro (heq | ⟨heq,_⟩)
      · exact absurd heq.symm (hnone entry hentry)
      · exact heq

theorem keyOf_readAs (h : Bound s d b) {table : String} {entry : String × Column} (hentry : entry ∈ b.columns) :
    b.keyOf (readAs table entry.2.name) = entry.1 ↔ b.Tells table entry := by
  rw [keyOf_eq_iff h hentry,readAs_eq_iff,Tells]

theorem takenKeys_eq (b : TableBinding) (listed : List Char) : b.takenKeys listed =
    ((splitAll ',' listed).map trimBlanks).map fun part => b.keyOf (String.ofList (afterPoint part)) := by
  rw [takenKeys,List.map_map]
  rfl

/-- The properties of a key are read off the listing of its columns exactly where no name has a comma, and each column
tells its property. -/
theorem takenKeys_iff (h : Bound s d b) {table : String} {entries : List (String × Column)} (hentries : entries ≠ [])
    (hmem : ∀ entry ∈ entries, entry ∈ b.columns) :
    b.takenKeys (qualified table (entries.map (·.2.name))).toList = entries.map (·.1) ↔
      ',' ∉ table.toList ∧ ∀ entry ∈ entries, ',' ∉ entry.2.name.toList ∧ b.Tells table entry := by
  have hnames : entries.map (·.2.name) ≠ [] := by rwa [ne_eq,List.map_eq_nil_iff]
  have hread (htable : ',' ∉ table.toList) (hfree : ∀ name ∈ entries.map (·.2.name), ',' ∉ name.toList) :
      b.takenKeys (qualified table (entries.map (·.2.name))).toList =
        entries.map fun entry => b.keyOf (readAs table entry.2.name) := by
    rw [takenKeys_eq,parts_qualified hnames htable hfree,List.map_map,List.map_map]
    rfl
  constructor
  · intro hkeys
    have hlength : (splitAll ',' (qualified table (entries.map (·.2.name))).toList).length =
        (entries.map (·.2.name)).length := by
      have hboth := congrArg List.length hkeys
      rw [takenKeys,List.length_map,List.length_map] at hboth
      rwa [List.length_map]
    obtain ⟨htable,hfree⟩ := (splitAll_qualified_length hnames).mp hlength
    rw [hread htable hfree] at hkeys
    refine ⟨htable,fun entry hentry => ⟨hfree _ (List.mem_map_of_mem hentry),?_⟩⟩
    exact (keyOf_readAs h (hmem entry hentry)).mp (List.map_inj_left.mp hkeys entry hentry)
  · rintro ⟨htable,htell⟩
    rw [hread htable (List.forall_mem_map.mpr fun entry hentry => (htell entry hentry).1)]
    exact List.map_congr_left fun entry hentry => (keyOf_readAs h (hmem entry hentry)).mpr (htell entry hentry).2

theorem line?_cases {cs listed : List Char} (hline : line? cs = some listed) : cs = listed ∨ cs = listed ++ ['\n'] := by
  unfold line? at hline
  split at hline
  · exact .inl (Option.some.inj hline)
  · split at hline
    · rename_i hend
      rw [Bool.and_eq_true,decide_eq_true_eq] at hend
      obtain ⟨before,rfl⟩ := List.getLast?_eq_some_iff.mp hend.1
      cases hline
      exact .inr (by rw [List.dropLast_concat])
    · cases hline

/-- A line end after a listing is not part of what is read. -/
theorem takenKeys_line {cs listed : List Char} (hline : line? cs = some listed) :
    b.takenKeys listed = b.takenKeys cs := by
  rcases line?_cases hline with rfl | rfl
  · rfl
  · rw [takenKeys_eq,takenKeys_eq,trimmed_concat (by decide) (by decide)]

theorem listed?_eq_none {cs : List Char}
    (h : ∀ before after, cs = before ++ (takenMark ++ after) → line? after = none) : listed? cs = none := by
  induction cs with
  | nil => rfl
  | cons c cs ih =>
    have hhere : (takenMark.isPrefixOf? (c :: cs)).bind line? = none := by
      rw [Option.bind_eq_none_iff]
      intro after hafter
      exact h [] after (List.isPrefixOf?_eq_some_iff_append_eq.mp hafter).symm
    rw [listed?,hhere]
    exact ih fun before after hcs => h (c :: before) after (by rw [hcs,List.cons_append])

/-- Columns that are listed on several lines are not found, unless a name has the mark in it. -/
theorem listed?_lines {rest : List Char} (hline : line? rest = none) (hmark : ¬ takenMark <:+: rest) :
    listed? (takenMark ++ rest) = none := by
  -- the mark does not overlap itself
  have hborder : ∀ cs ∈ takenMark.tails, cs.isPrefixOf takenMark = true → cs = [] ∨ cs = takenMark := by decide
  refine listed?_eq_none fun before after hsplit => ?_
  rcases List.append_eq_append_iff.mp hsplit with ⟨inner,rfl,rfl⟩ | ⟨inner,hbefore,hafter⟩
  · exact absurd ⟨inner,after,List.append_assoc _ _ _⟩ hmark
  · have hsuffix : inner ∈ takenMark.tails := (List.mem_tails _ _).mpr ⟨before,hbefore.symm⟩
    have hprefix : inner <+: takenMark :=
      List.prefix_of_prefix_length_le ⟨rest,hafter.symm⟩ (List.prefix_append _ _) (by
        rw [hbefore,List.length_append]
        omega)
    rcases hborder inner hsuffix (List.isPrefixOf_iff_prefix.mpr hprefix) with rfl | rfl
    · exact absurd ⟨[],after,hafter⟩ hmark
    · rwa [← List.append_cancel_left hafter] at hline

/-- What is reported of the columns of a taken key: their properties, if these can be read off the one line that lists
the columns. Columns that are listed on several lines are not reported as a taken key. -/
structure Reported (b : TableBinding) (entity table : String) (entries : List (String × Column)) : Prop where
  told : (line? (qualified table (entries.map (·.2.name))).toList).isSome = true →
    (b.report entity (.integrity (.unique table (entries.map (·.2.name)))) =
        .collision (.fields entity (entries.map (·.1))) ↔
      ',' ∉ table.toList ∧ ∀ entry ∈ entries, ',' ∉ entry.2.name.toList ∧ b.Tells table entry)
  untold : line? (qualified table (entries.map (·.2.name))).toList = none →
    ¬ takenMark <:+: (qualified table (entries.map (·.2.name))).toList →
    b.report entity (.integrity (.unique table (entries.map (·.2.name)))) =
      .integrity (.unique table (entries.map (·.2.name)))

theorem reported (h : Bound s d b) (entity table : String) {entries : List (String × Column)} (hentries : entries ≠ [])
    (hmem : ∀ entry ∈ entries, entry ∈ b.columns) : b.Reported entity table entries := by
  have hnames : entries.map (·.2.name) ≠ [] := by rwa [ne_eq,List.map_eq_nil_iff]
  have hpoint := point_mem_qualified table hnames
  constructor
  · intro hsome
    obtain ⟨listed,hline⟩ := Option.isSome_iff_exists.mp hsome
    have hlisted : listed ≠ [] := by
      rintro rfl
      rcases line?_cases hline with hcs | hcs <;> rw [hcs] at hpoint <;> exact absurd hpoint (by decide)
    rw [report,taken_message,listed?_line hline hlisted,← takenKeys_iff h hentries hmem,← takenKeys_line hline]
    simp only [Error.collision.injEq,Collision.fields.injEq,true_and]
  · intro hline hmark
    rw [report,taken_message,listed?_lines hline hmark]

end TableBinding

namespace Table

/-- The unique keys of a table: that of the numbers of its rows, and those that are checked on cells. -/
def uniqueKeys (t : Table) : List (List Nat) := t.numberPosition?.toList.map ([·]) ++ t.keys

/-- A key that is reported as taken is one of the table, with the names of its columns. -/
theorem fault?_unique {t : Table} {others : List Row} {row : Row} {table : String} {names : List String}
    (h : t.fault? others row = some (.unique table names)) :
    table = t.name ∧ ∃ key ∈ t.uniqueKeys, names = t.columnNames key := by
  rw [fault?] at h
  cases hmissing : t.missing? row.cells with
  | some c => rw [hmissing] at h; cases h
  | none =>
    cases hrefusing : t.refusing? row.cells with
    | some c => rw [hmissing,hrefusing] at h; cases h
    | none =>
      rw [hmissing,hrefusing] at h
      cases hnumber : t.numberTaken others row with
      | true =>
        rw [hnumber] at h
        cases h
        obtain ⟨i,hi⟩ := Option.isSome_iff_exists.mp (Bool.and_eq_true_iff.mp hnumber).1
        refine ⟨rfl,[i],List.mem_append_left _ ?_,by rw [hi]; rfl⟩
        rw [hi]
        exact List.mem_singleton_self _
      | false =>
        rw [hnumber] at h
        obtain ⟨key,hkey,heq⟩ := Option.map_eq_some_iff.mp h
        cases heq
        exact ⟨rfl,key,List.mem_append_right _ (List.mem_of_find?_eq_some hkey),rfl⟩

end Table

namespace TableBinding

open Relational Write Adapter

variable {s : Settings} {c : Class Value} {d : Descriptor} {b : TableBinding} {db : Database} {t : Table}

/-- A unique key of the table lies in the columns of the identifier, or of a unique group without relationships. -/
theorem group_of_uniqueKey (hbound : Bound s d b) (h : b.Holds db t) {key : List Nat} (hkey : key ∈ t.uniqueKeys) :
    ∃ group, b.LiesAt group key ∧ group ≠ [] ∧ ((∃ p ∈ d.identifiers, group = [p.key]) ∨
      group ∈ Records.uniqueGroups d ∧ isScalarGroup d group = true) := by
  rcases List.mem_append.mp hkey with hnumber | hkey
  · obtain ⟨i,hi,rfl⟩ := List.mem_map.mp hnumber
    obtain ⟨hlt,hnumbers,_⟩ := List.findIdx?_eq_some_iff_getElem.mp (Option.mem_toList.mp hi)
    obtain ⟨name,c,hi,hc⟩ := (Bound.tableColumn h.columns).mp (List.getElem?_eq_getElem hlt)
    rw [hc] at hnumbers
    have hprimary : c.primary = true := (Bool.and_eq_true_iff.mp hnumbers).1
    obtain ⟨p,hp,_,rfl,_,hid⟩ := hbound.unique_column hi (.inr hprimary)
    exact ⟨[p.key],.cons ⟨c,hi⟩ .nil,List.cons_ne_nil _ _,
      .inl ⟨p,List.mem_filter.mpr ⟨hp,by rw [← hid,hprimary]⟩,rfl⟩⟩
  · obtain ⟨group,hlies,hkept⟩ := hbound.group_of_key h.columns h.together hkey
    refine ⟨group,hlies,hbound.kept_ne_nil hkept,?_⟩
    rcases hkept with ⟨p,hp,_,_,rfl⟩ | hgroup
    · exact .inl ⟨p,hp,rfl⟩
    · exact .inr hgroup

/-- Over every series of writes to a created table, a write that takes a unique key is answered with the report of the
key. Each key has columns of the identifier or of a unique group, and is reported by their properties where these can be
read off the listing. -/
theorem taken_keys_told {registry : Registry} {db₀ : Database} {schema : Relational} {repo : Repository}
    {calls : List Call} {reached : Repository × Database} (hd : registry.descriptor (.cls c) = .ok d)
    (hschema : (Relational.compile registry (.ok s) (.cls c) none 0).result = .ok schema)
    (hb : ofSchema d schema = .ok b) (hcreate : b.definition.create db₀ = .ok db)
    (hnew : db₀.table? b.definition.name = none) (hreached : reached = Call.run (·.onRows b) (repo, db) calls) :
    ∃ t, reached.2.table? b.schema.name = some t ∧ t.name = d.name ∧
      (∀ (call : Call) (id : String) (record : Record) (others : List Row) (row : Row) (table : String)
        (names : List String), (runOn (prepare call.operation) (call.writing reached)).1 = .ok (id, record) →
        b.WouldStore t id record call.operation others row → t.fault? others row = some (.unique table names) →
        table = t.name ∧ (∃ key ∈ t.uniqueKeys, names = t.columnNames key) ∧
          call.on (·.onRows b) reached =
            (.error (b.report reached.1.entity (.integrity (.unique t.name names))), reached)) ∧
      ∀ key ∈ t.uniqueKeys, ∃ entries : List (String × Column), (∀ entry ∈ entries, entry ∈ b.columns) ∧
        t.columnNames key = entries.map (·.2.name) ∧
        ((∃ p ∈ d.identifiers, entries.map (·.1) = [p.key]) ∨
          entries.map (·.1) ∈ Records.uniqueGroups d ∧ isScalarGroup d (entries.map (·.1)) = true) ∧
        ∀ entity, b.Reported entity t.name entries := by
  have hbound := bound_of_created hd (compile_registered hd hschema) hb hcreate hnew
  have hstart : b.Holds ((repo, db) : Repository × Database).2 b.definition.empty := holds_created hcreate hnew
  obtain ⟨t,ht⟩ := hstart.run calls
  rw [← hreached] at ht
  refine ⟨t,ht.found,ht.name.trans hbound.compiled.name,?_,?_⟩
  · intro call id record others row table names hprepare hstore hfault
    obtain ⟨rfl,hkey⟩ := Table.fault?_unique hfault
    exact ⟨rfl,hkey,on_fault ht.found hprepare hstore hfault⟩
  · intro key hkey
    obtain ⟨group,hlies,hgroup,hkept⟩ := group_of_uniqueKey hbound ht hkey
    obtain ⟨entries,hentries,rfl,hnames⟩ := Bound.entries_of_liesAt ht.columns hlies
    rw [ne_eq,List.map_eq_nil_iff] at hgroup
    exact ⟨entries,hentries,hnames,hkept,fun entity => reported hbound entity t.name hgroup hentries⟩

/-- A user, who has an address. -/
def user : Class Value := ⟨.defined "User" 0 [.builtin .object], none⟩

/-- A new user at the one address. -/
def signUp (id : String) : Call where
  operation := .insert
  entity := .object ⟨0, user, [("id", .str id), ("email", .str "e")], [], []⟩
  world := { clock := default }

/-- The table of users under a name, each with an address of their own. -/
def users (name : String) : Except Error (Descriptor × Repository × TableBinding × Database) := do
  let registry ← ({} : Registry).registerEntity (.cls user) (some name) none (.list [])
  let registry ← registry.registerProperty (.cls user) (.str "email")
    [("type", .type (.builtin .text)), ("unique", .bool true)]
  let d ← registry.descriptor (.cls user)
  let schema ← (Relational.compile registry (.ok Settings.defaults) (.cls user) none 0).result
  let b ← ofSchema d schema
  let r ← Repository.ofDescriptor d none
  let db ← b.definition.create []
  return (d, r, b, db)

/-- A taken address is reported by its property. -/
theorem taken_keys_told_users : ∃ d r b db t, users "User" = .ok (d, r, b, db) ∧
    db.table? b.schema.name = some t ∧ t.name = "User" ∧ (∃ key ∈ t.uniqueKeys, t.columnNames key = ["email"]) ∧
    b.report "User" (.integrity (.unique "User" ["email"])) = .collision (.fields "User" ["email"]) := by
  have hok : ((users "User").toOption.any fun (_, _, b, db) => b.columns.all (fun e => e.1 == "email" || e.2.name != "email")
      && (db.table? b.schema.name).any fun t => t.name == "User" && t.uniqueKeys.any (t.columnNames · == ["email"])) =
      true := by decide +kernel
  obtain ⟨⟨d,r,b,db⟩,husers,h⟩ := exists_ok_of_any hok
  simp only [Bool.and_eq_true,Option.any_eq_true,List.any_eq_true,List.all_eq_true,Bool.or_eq_true,beq_iff_eq,
    bne_iff_ne] at h
  obtain ⟨hcolumns,t,ht,hname,key,hkey,hnames⟩ := h
  obtain ⟨_,_,h⟩ := bind_eq_ok.mp husers
  obtain ⟨registry,_,h⟩ := bind_eq_ok.mp h
  obtain ⟨d,schema,b,identifier,db,hd,hschema,hb,_,hcreate,h⟩ := exists_created h
  cases pure_eq_ok.mp h
  obtain ⟨t',ht',_,_,hkeys⟩ := taken_keys_told hd hschema hb hcreate rfl
    (rfl : _ = Call.run (·.onRows b) ({ descriptor := d, identifier }, db) [])
  cases ht.symm.trans ht'
  obtain ⟨entries,hentries,hlisted,_,hreported⟩ := hkeys key hkey
  obtain ⟨entry,rfl,hentry⟩ := List.map_eq_singleton_iff.mp (hlisted.symm.trans hnames)
  have hproperty : entry.1 = "email" :=
    (hcolumns entry (hentries entry (List.mem_singleton_self _))).resolve_right (absurd hentry)
  have hlast : "email".toList.getLast? = some 'l' := by decide
  have htold := (hreported "User").told
  rw [hname,List.map_singleton,List.map_singleton,hentry,hproperty,List.forall_mem_singleton,Tells,hentry,hlast] at htold
  refine ⟨_,_,_,_,t,husers,ht,hname,⟨key,hkey,hnames⟩,
    (htold (by decide)).mpr ⟨by decide,by decide,.inl ⟨by decide,?_⟩⟩⟩
  rintro _ ⟨⟩
  decide

/-- Whether an answer reports one taken key of a class under its name, and no property has this key. -/
def isMisread (d : Descriptor) (name key : String) : Except Error Unit → Bool
  | .error (.collision (.fields entity [told])) => entity == name && told == key && !d.keys.contains key
  | _ => false

/-- A point in the name of the table is taken for the one before the column, and there is no such property. -/
theorem taken_keys_told_shop : ∃ d r b db, users "shop.User" = .ok (d, r, b, db) ∧ "email" ∈ d.keys ∧
    "User.email" ∉ d.keys ∧ ((signUp "2").on (·.onRows b) (Call.run (·.onRows b) (r, db) [signUp "1"])).1 =
      .error (.collision (.fields "shop.User" ["User.email"])) := by
  have hok : ((users "shop.User").toOption.any fun (d, r, b, db) => d.keys.contains "email" &&
      isMisread d "shop.User" "User.email"
        ((signUp "2").on (·.onRows b) (Call.run (·.onRows b) (r, db) [signUp "1"])).1) = true := by decide +kernel
  obtain ⟨⟨d,r,b,db⟩,husers,h⟩ := exists_ok_of_any hok
  obtain ⟨hemail,h⟩ := Bool.and_eq_true_iff.mp h
  unfold isMisread at h
  split at h
  · rename_i herror
    simp only [Bool.and_eq_true,beq_iff_eq,Bool.not_eq_true',List.contains_eq_mem,decide_eq_false_iff_not] at h
    obtain ⟨⟨rfl,rfl⟩,hnone⟩ := h
    exact ⟨d,r,b,db,husers,List.contains_iff_mem.mp hemail,hnone,herror⟩
  · cases h

end TableBinding

end Trischema
