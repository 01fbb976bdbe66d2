import Mathlib.Data.List.Perm.Basic
import Trischema.Proofs.Lists
import Trischema.Proofs.Number.Comparing
import Trischema.Proofs.Outcome
import Trischema.Table.Definition

/-!
Rows of a table. The numbers of the rows increase and no two rows are equal on a unique key; every change
that a table accepts keeps both.
-/

namespace Trischema

namespace Cell

theorem same_comm (a b : Cell) : a.same b = b.same a := by
  cases a with
  | real x =>
    cases b with
    | real y => exact Bool.eq_iff_iff.mpr (by simpa [same] using x.compare?_comm y)
    | _ => rfl
  | _ => cases b <;> simp [same,Bool.beq_comm]

end Cell

namespace Table

theorem collide_comm (key : List Nat) (a b : List Cell) : collide key a b = collide key b a := by
  simp only [collide,Cell.same_comm]

theorem place_perm (rows : List Row) (row : Row) : (place rows row).Perm (row :: rows) := by
  have h : (place rows row).Perm
      (row :: (rows.takeWhile (·.number < row.number) ++ rows.dropWhile (·.number < row.number))) :=
    List.perm_middle
  rwa [List.takeWhile_append_dropWhile] at h

/-- A row with a new number goes between the smaller numbers and the greater ones. -/
theorem place_increasing {rows : List Row} {row : Row} (h : rows.Pairwise (·.number < ·.number))
    (hnew : ∀ r ∈ rows, r.number ≠ row.number) : (place rows row).Pairwise (·.number < ·.number) := by
  induction rows with
  | nil => simp [place]
  | cons first rest ih =>
    obtain ⟨hfirst,hrest⟩ := List.pairwise_cons.mp h
    by_cases hlt : first.number < row.number
    · have hcons : place (first :: rest) row = first :: place rest row := by simp [place,hlt]
      rw [hcons,List.pairwise_cons]
      refine ⟨fun r hr => ?_,ih hrest fun r hr => hnew r (List.mem_cons_of_mem _ hr)⟩
      rcases List.mem_cons.mp ((place_perm rest row).mem_iff.mp hr) with rfl | hr
      · exact hlt
      · exact hfirst r hr
    · have hcons : place (first :: rest) row = row :: first :: rest := by simp [place,hlt]
      have hne := hnew first List.mem_cons_self
      rw [hcons,List.pairwise_cons]
      refine ⟨fun r hr => ?_,h⟩
      rcases List.mem_cons.mp hr with rfl | hr
      · omega
      · have := hfirst r hr
        omega

/-- A row goes where its number says: behind the smaller numbers and before the greater ones. -/
theorem place_between {before after : List Row} {row : Row} (hbefore : ∀ r ∈ before, r.number < row.number)
    (hafter : ∀ r ∈ after, row.number < r.number) : place (before ++ after) row = before ++ row :: after := by
  have hless : ∀ r ∈ before, decide (r.number < row.number) = true := fun r hr => decide_eq_true (hbefore r hr)
  have hstop : after.takeWhile (·.number < row.number) = [] ∧ after.dropWhile (·.number < row.number) = after := by
    cases after with
    | nil => exact ⟨rfl,rfl⟩
    | cons r rest =>
      have hr := hafter r List.mem_cons_self
      have hnot : decide (r.number < row.number) = false := decide_eq_false (by omega)
      simp [hnot]
  rw [place,List.takeWhile_append_of_pos hless,List.dropWhile_append_of_pos hless,hstop.1,hstop.2,List.append_nil]

/-- A row with the greatest number goes last. -/
theorem place_last {rows : List Row} {row : Row} (h : ∀ r ∈ rows, r.number < row.number) :
    place rows row = rows ++ [row] := by
  have hplace := place_between h fun r hr => absurd hr List.not_mem_nil
  rwa [List.append_nil] at hplace

theorem mem_keys {t : Table} {key : List Nat} : key ∈ t.keys ↔
    (∃ i c, t.columns[i]? = some c ∧ c.numbersRows = false ∧ (c.primary || c.unique) = true ∧ key = [i]) ∨
      ∃ group ∈ t.together, key = group.filterMap t.position? := by
  rw [keys,List.mem_reverse,declaredKeys,List.mem_eraseDups,List.mem_append,List.mem_map,List.mem_map]
  refine or_congr ⟨?_,?_⟩ ⟨?_,?_⟩
  · rintro ⟨⟨c,i⟩,hmem,rfl⟩
    obtain ⟨hmem,hkey⟩ := List.mem_filter.mp hmem
    rw [Bool.and_eq_true,Bool.not_eq_true'] at hkey
    exact ⟨i,c,List.mem_zipIdx_iff_getElem?.mp hmem,hkey.1,hkey.2,rfl⟩
  · rintro ⟨i,c,hi,hnumbers,hunique,rfl⟩
    refine ⟨(c, i),List.mem_filter.mpr ⟨List.mem_zipIdx_iff_getElem?.mpr hi,?_⟩,rfl⟩
    change (!c.numbersRows && (c.primary || c.unique)) = true
    rw [hnumbers,hunique]
    rfl
  · rintro ⟨group,hgroup,rfl⟩
    exact ⟨group,hgroup,rfl⟩
  · rintro ⟨group,hgroup,rfl⟩
    exact ⟨group,hgroup,rfl⟩

/-- What holds of the rows of a table: their numbers increase, and no two of them are equal on a key. -/
structure Sound (t : Table) : Prop where
  increasing : t.rows.Pairwise (·.number < ·.number)
  apart : ∀ key ∈ t.keys, t.rows.Pairwise fun a b => collide key a.cells b.cells = false

variable {t t' : Table} {others rows : List Row} {row : Row} {named : List (Nat × Cell)}

theorem Sound.sublist (h : t.Sound) (hrows : rows.Sublist t.rows) : Sound { t with rows } :=
  ⟨h.increasing.sublist hrows,fun key hkey => (h.apart key hkey).sublist hrows⟩

theorem takenKey?_eq_none {cells : List Cell} :
    t.takenKey? others cells = none ↔ ∀ key ∈ t.keys, ∀ r ∈ others, collide key r.cells cells = false := by
  simp [takenKey?,List.find?_eq_none]

/-- Whether the number of a row is taken, in a table that numbers its rows by a column. -/
def numberTaken (t : Table) (others : List Row) (row : Row) : Bool :=
  t.numberPosition?.isSome && others.any fun r => r.number == row.number

/-- The first reason not to admit a row next to others. -/
def fault? (t : Table) (others : List Row) (row : Row) : Option IntegrityFault :=
  (t.missing? row.cells).map (fun c => .notNull t.name c.name)
    <|> (t.refusing? row.cells).map (fun c => .check c.name)
    <|> (if t.numberTaken others row then some (.unique t.name (t.columnNames t.numberPosition?.toList)) else none)
    <|> (t.takenKey? others row.cells).map fun key => .unique t.name (t.columnNames key)

theorem check_eq (t : Table) (others : List Row) (row : Row) :
    t.check others row =
      match t.fault? others row with
      | some fault => .error (.integrity fault)
      | none => .ok () := by
  unfold check fault? numberTaken
  cases t.missing? row.cells with
  | some c => rfl
  | none =>
    cases t.refusing? row.cells with
    | some c => rfl
    | none =>
      cases t.numberPosition? with
      | none => cases t.takenKey? others row.cells <;> rfl
      | some i =>
        cases others.any fun r => r.number == row.number with
        | true => rfl
        | false => cases t.takenKey? others row.cells <;> rfl

/-- Puts a row among others if there is nothing against it. -/
def accept (t : Table) (others : List Row) (row : Row) : Except Error Table :=
  match t.fault? others row with
  | some fault => .error (.integrity fault)
  | none => .ok { t with rows := place others row }

theorem accept_eq_ok :
    t.accept others row = .ok t' ↔ t.fault? others row = none ∧ t' = { t with rows := place others row } := by
  rw [accept]
  cases t.fault? others row <;> simp [eq_comm]

theorem check_then_place (t : Table) (others : List Row) (row : Row) :
    (do
      t.check others row
      return { t with rows := place others row }) = t.accept others row := by
  rw [check_eq,accept]
  cases t.fault? others row <;> rfl

/-- A row is admitted exactly when every column accepts its cell and no number or key of it is taken. -/
theorem fault?_eq_none : t.fault? others row = none ↔
    t.missing? row.cells = none ∧ t.refusing? row.cells = none ∧ t.numberTaken others row = false ∧
      t.takenKey? others row.cells = none := by
  simp [fault?]

/-- A row that is admitted and has a new number keeps a table sound. -/
theorem place_sound (h : Sound { t with rows := others }) (hfault : t.fault? others row = none)
    (hnew : ∀ r ∈ others, r.number ≠ row.number) : Sound { t with rows := place others row } := by
  have hfree := takenKey?_eq_none.mp (fault?_eq_none.mp hfault).2.2.2
  refine ⟨place_increasing h.increasing hnew,fun key hkey => ?_⟩
  have hsymm {a b : Row} (hab : collide key a.cells b.cells = false) :
      collide key b.cells a.cells = false := by rwa [collide_comm]
  refine ((place_perm others row).pairwise_iff hsymm).mpr (List.pairwise_cons.mpr ⟨fun r hr => ?_,?_⟩)
  · exact hsymm (hfree key hkey r hr)
  · exact h.apart key hkey

/-- The number of an admitted row is new, where it is not given by a column but known to be new. -/
theorem number_ne_of_fault (hfault : t.fault? others row = none)
    (hgiven : t.numberPosition? = none → ∀ r ∈ others, r.number ≠ row.number) :
    ∀ r ∈ others, r.number ≠ row.number := by
  intro r hr
  cases hposition : t.numberPosition? with
  | none => exact hgiven hposition r hr
  | some i =>
    have htaken := (fault?_eq_none.mp hfault).2.2.1
    simp only [numberTaken,hposition,Option.isSome_some,Bool.true_and,List.any_eq_false,beq_iff_eq] at htaken
    exact htaken r hr

theorem numbered_number {given : Int} {cells : List Cell} (h : t.numbered given cells = .ok row)
    (hnone : t.numberPosition? = none) : row = ⟨given, cells⟩ := by
  simp only [numbered,hnone,Except.ok.injEq] at h
  exact h.symm

theorem lt_nextNumber (h : row ∈ t.rows) : row.number < t.nextNumber := by
  have hfold (rows : List Row) (n : Int) :
      n ≤ rows.foldl (fun n r => max n (r.number + 1)) n ∧
        ∀ r ∈ rows, r.number < rows.foldl (fun n r => max n (r.number + 1)) n := by
    induction rows generalizing n with
    | nil => simp
    | cons first rest ih =>
      obtain ⟨hle,hlt⟩ := ih (max n (first.number + 1))
      rw [List.foldl_cons]
      refine ⟨by omega,fun r hr => ?_⟩
      rcases List.mem_cons.mp hr with rfl | hr
      · omega
      · exact hlt r hr
  exact (hfold t.rows 1).2 row h

/-- The row that named cells make. -/
def newRow (t : Table) (named : List (Nat × Cell)) : Except Error Row :=
  t.numbered t.nextNumber (t.storeCells (setCells (t.columns.map fun _ => .null) named))

theorem insert_eq (t : Table) (named : List (Nat × Cell)) :
    t.insert named = t.newRow named >>= t.accept t.rows := by
  simp only [insert,newRow,check_then_place]

theorem insert_eq_ok : t.insert named = .ok t' ↔
    ∃ row, t.newRow named = .ok row ∧ t.fault? t.rows row = none ∧ t' = { t with rows := place t.rows row } := by
  simp only [insert_eq,bind_eq_ok,accept_eq_ok]

theorem insert_sound (h : t.Sound) (hinsert : t.insert named = .ok t') : t'.Sound := by
  obtain ⟨row,hrow,hfault,rfl⟩ := insert_eq_ok.mp hinsert
  refine place_sound h hfault (number_ne_of_fault hfault fun hnone r hr => ?_)
  rw [numbered_number hrow hnone]
  exact Int.ne_of_lt (lt_nextNumber hr)

/-- The rows that a changed row is checked against. -/
def otherRows (t : Table) (old : Row) : List Row := t.rows.filter (·.number != old.number)

/-- The row that named cells make of an old one; a number that a column holds cannot be taken away. -/
def changedRow (t : Table) (old : Row) (named : List (Nat × Cell)) : Except Error Row :=
  let cells := t.storeCells (setCells old.cells named)
  if t.numberPosition?.any fun i => cellAt cells i == .null then .error (.integrity .datatype)
  else t.numbered old.number cells

theorem replace_eq (t : Table) (old : Row) (named : List (Nat × Cell)) :
    t.replace old named = t.changedRow old named >>= t.accept (t.otherRows old) := by
  simp only [replace,changedRow,check_then_place,otherRows]
  cases t.numberPosition? with
  | none => rfl
  | some i =>
    simp only [Option.any_some]
    split <;> rfl

theorem replace_eq_ok {old : Row} : t.replace old named = .ok t' ↔
    ∃ row, t.changedRow old named = .ok row ∧ t.fault? (t.otherRows old) row = none ∧
      t' = { t with rows := place (t.otherRows old) row } := by
  simp only [replace_eq,bind_eq_ok,accept_eq_ok]

theorem changedRow_number {old : Row} (h : t.changedRow old named = .ok row)
    (hnone : t.numberPosition? = none) : row.number = old.number := by
  simp only [changedRow,hnone,Option.any_none,Bool.false_eq_true,if_false] at h
  rw [numbered_number h hnone]

theorem replace_sound {old : Row} (h : t.Sound) (hreplace : t.replace old named = .ok t') : t'.Sound := by
  obtain ⟨row,hrow,hfault,rfl⟩ := replace_eq_ok.mp hreplace
  refine place_sound (h.sublist List.filter_sublist) hfault (number_ne_of_fault hfault fun hnone r hr => ?_)
  rw [changedRow_number hrow hnone]
  exact bne_iff_ne.mp (List.mem_filter.mp hr).2

/-- What one change of a row keeps, the change of several rows keeps. -/
theorem replaceAll_keeps (motive : Table → Prop)
    (step : ∀ t t', ∀ old ∈ rows, motive t → t.replace old named = .ok t' → motive t') (start : motive t)
    (h : t.replaceAll named rows = .ok t') : motive t' := by
  induction rows generalizing t with
  | nil =>
    cases h
    exact start
  | cons row rest ih =>
    obtain ⟨u,hu,h⟩ := bind_eq_ok.mp h
    exact ih (fun t t' old hold => step t t' old (List.mem_cons_of_mem row hold))
      (step t u row List.mem_cons_self start hu) h

theorem replaceAll_sound (h : t.Sound) (hreplace : t.replaceAll named rows = .ok t') : t'.Sound :=
  replaceAll_keeps Sound (fun _ _ _ _ => replace_sound) h hreplace

theorem remove_sound (h : t.Sound) (rows : List Row) : (t.remove rows).Sound := h.sublist List.filter_sublist

end Table

namespace TableDefinition

variable {d : TableDefinition} {db db' : Database}

theorem empty_sound (d : TableDefinition) : d.empty.Sound := ⟨.nil,fun _ _ => .nil⟩

/-- Columns whose names differ in more than their case. -/
theorem isMeaningful_names (h : d.isMeaningful = true) : (d.columns.map (·.name.toLower)).Nodup := by
  rw [isMeaningful,Bool.and_eq_true,beq_iff_eq] at h
  exact nodup_of_eraseDups_length (by rw [h.1,List.length_map])

theorem isReadable_together (h : d.isReadable = true) {group : List String} (hgroup : group ∈ d.together) :
    group ≠ [] := by
  simp only [isReadable,Bool.and_eq_true,Bool.not_eq_true',List.any_eq_false] at h
  intro hempty
  exact h.1.2 group hgroup (List.isEmpty_iff.mpr hempty)

/-- A table that was not there before is created without rows, after all others. -/
theorem create_new (h : d.create db = .ok db') (hnew : db.table? d.name = none) :
    d.isReadable = true ∧ d.isMeaningful = true ∧ db' = db ++ [d.empty] := by
  unfold create at h
  split at h
  · cases h
  · split at h
    · cases h
    · rename_i hreadable
      split at h
      · rename_i hthere
        simp [hnew] at hthere
      · split at h
        · cases h
        · rename_i hmeaningful
          simp only [Bool.not_eq_true',Bool.not_eq_false] at hmeaningful
          simp only [Bool.or_eq_true,Bool.not_eq_true',not_or,Bool.not_eq_false] at hreadable
          exact ⟨hreadable.1,hmeaningful,(Except.ok.inj h).symm⟩

end TableDefinition

namespace Database

variable {db : Database} {t t' : Table} {name : String}

theorem sameName_refl (name : String) : sameName name name = true := beq_self_eq_true _

theorem table_eq_ok : db.table name = .ok t ↔ db.table? name = some t := by
  rw [table]
  cases db.table? name <;> simp

theorem table?_name (h : db.table? name = some t) : sameName t.name name = true :=
  (List.find?_eq_some_iff_append.mp h).1

/-- Replacing a table changes what is found under its name. -/
theorem table?_setTable (h : db.table? name = some t) (hname : t'.name = t.name) :
    (db.setTable t').table? name = some t' := by
  have hsame := beq_iff_eq.mp (table?_name h)
  unfold setTable table? at *
  induction db with
  | nil => simp at h
  | cons u rest ih =>
    have hu : sameName u.name t'.name = sameName u.name name := by
      simp only [sameName,hname,hsame]
    rw [List.map_cons,hu]
    cases hfirst : sameName u.name name with
    | true =>
      have ht' : sameName t'.name name = true := by rw [hname]; exact beq_iff_eq.mpr hsame
      rw [if_pos rfl,List.find?_cons,ht']
    | false =>
      rw [List.find?_cons,hfirst] at h
      rw [if_neg Bool.false_ne_true,List.find?_cons,hfirst]
      exact ih h

end Database

end Trischema
