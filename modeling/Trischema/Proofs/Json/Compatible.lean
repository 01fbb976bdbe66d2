import Trischema.Proofs.Json.Values
import Trischema.Value.Keyed

/-!
JSON values: what documents are made of. Every one of them can be written as a document, whatever becomes of values that
documents cannot hold.
-/

namespace Trischema

namespace Value

mutual

/-- Whether a value is made of null, truth values, numbers, texts, lists, and dictionaries under texts. -/
def isJson : Value → Bool
  | null | bool _ | int _ | float _ | str _ => true
  | list vs => allJson vs
  | mapping es => entriesJson es
  | v =>
    match v.text?, v.number? with
    | some _, _ | none, some (.int _) => true
    | none, _ => false

def allJson : List Value → Bool
  | [] => true
  | v :: vs => v.isJson && allJson vs

def entriesJson : List (Value × Value) → Bool
  | [] => true
  | (k, v) :: es => k.text?.isSome && v.isJson && entriesJson es

end

theorem allJson_eq (vs : List Value) : allJson vs = vs.all isJson := by
  induction vs with
  | nil => rfl
  | cons v vs ih => rw [allJson,ih,List.all_cons]

theorem entriesJson_eq (es : List (Value × Value)) :
    entriesJson es = es.all fun e => e.1.text?.isSome && e.2.isJson := by
  induction es with
  | nil => rfl
  | cons e es ih =>
    obtain ⟨k,v⟩ := e
    rw [entriesJson,ih,List.all_cons]

/-- A property of values that goes by what they hold: lists and records have it where all their values have it, and
texts, truth values and nothing at all have it always. -/
structure ByParts (P : Value → Prop) : Prop where
  list : ∀ vs, P (.list vs) ↔ ∀ v ∈ vs, P v
  record : ∀ es : List (String × Value), P (.record es) ↔ ∀ e ∈ es, P e.2
  str : ∀ s, P (.str s)
  bool : ∀ b, P (.bool b)
  null : P .null

theorem byParts_isJson : ByParts fun v => v.isJson = true where
  list vs := by rw [isJson,allJson_eq,List.all_eq_true]
  record es := by
    rw [Value.record,isJson,entriesJson_eq,List.all_map,List.all_eq_true]
    simp [text?]
  str _ := rfl
  bool _ := rfl
  null := rfl

end Value

section Entries

variable {α : Type} {P : Value → Prop} {name : String}

/-- Whether the values of entries have a property. -/
def Held (P : Value → Prop) (es : List (String × Value)) : Prop := ∀ e ∈ es, P e.2

@[simp]
theorem held_nil : Held P [] := List.forall_mem_nil _

@[simp]
theorem held_cons {v : Value} {es : List (String × Value)} : Held P ((name, v) :: es) ↔ P v ∧ Held P es :=
  List.forall_mem_cons

@[simp]
theorem held_append {es es' : List (String × Value)} : Held P (es ++ es') ↔ Held P es ∧ Held P es' :=
  List.forall_mem_append

theorem mem_of_mem_setNamed {entries : List (String × α)} {a : α} {e : String × α} (h : e ∈ setNamed entries name a) :
    e ∈ entries ∨ e = (name, a) := by
  induction entries with
  | nil => exact .inr (List.mem_singleton.mp h)
  | cons entry rest ih =>
    obtain ⟨k,b⟩ := entry
    rw [setNamed] at h
    split at h
    · rename_i hk
      rcases List.mem_cons.mp h with rfl | h
      · exact .inr (by rw [hk])
      · exact .inl (List.mem_cons_of_mem _ h)
    · rcases List.mem_cons.mp h with rfl | h
      · exact .inl List.mem_cons_self
      · exact (ih h).imp_left (List.mem_cons_of_mem _)

theorem mem_of_mem_collapse {entries : List (String × α)} {e : String × α} (h : e ∈ collapse entries) : e ∈ entries := by
  have hfold (rest seen : List (String × α)) (h : e ∈ rest.foldl (fun es entry => setNamed es entry.1 entry.2) seen) :
      e ∈ seen ∨ e ∈ rest := by
    induction rest generalizing seen with
    | nil => exact .inl h
    | cons entry rest ih =>
      rcases ih _ h with h | h
      · rcases mem_of_mem_setNamed h with h | rfl
        · exact .inl h
        · exact .inr List.mem_cons_self
      · exact .inr (List.mem_cons_of_mem _ h)
  exact (hfold entries [] h).resolve_left List.not_mem_nil

end Entries

namespace Value.ByParts

variable {P : Value → Prop} (hP : ByParts P)

include hP

theorem record_iff {es : List (String × Value)} : P (.record es) ↔ Held P es := hP.record es

theorem texts (ss : List String) : P (.texts ss) := by
  rw [Value.texts,hP.list,List.forall_mem_map]
  exact fun s _ => hP.str s

theorem ofText? (s : Option String) : P (.ofText? s) := by
  cases s with
  | none => exact hP.null
  | some s => exact hP.str s

theorem keyed {entries : List (String × Value)} (h : Held P entries) : P (.keyed entries) :=
  hP.record_iff.mpr fun e he => h e (mem_of_mem_collapse he)

end Value.ByParts

namespace Json

variable {unknown : Unknown}

mutual

/-- JSON values are written as documents. -/
theorem ofValue_isJson {v : Value} (h : v.isJson = true) : ∃ x, ofValue unknown v = .ok x := by
  cases v with
  | null | bool b | int n | float x | str s => exact ⟨_,rfl⟩
  | list vs =>
    rw [Value.isJson] at h
    exact ofValue_list_ok (ofValues_allJson h)
  | mapping es =>
    rw [Value.isJson] at h
    refine ofValue_mapping_ok (fun e he => ?_) (ofEntries_entriesJson h)
    rw [Value.entriesJson_eq,List.all_eq_true] at h
    exact (Bool.and_eq_true_iff.mp (h e he)).1
  | tuple vs => cases h
  | _ =>
    rw [Value.isJson.eq_def] at h
    dsimp only at h
    split at h
    · rename_i s htext
      refine ⟨.str s,?_⟩
      rw [ofValue.eq_def]
      simp only [htext]
    · rename_i n htext hnumber
      refine ⟨.int n,?_⟩
      rw [ofValue.eq_def]
      simp only [htext,hnumber]
    · cases h

theorem ofValues_allJson {vs : List Value} (h : Value.allJson vs = true) : ∀ v ∈ vs, ∃ x, ofValue unknown v = .ok x := by
  cases vs with
  | nil => exact List.forall_mem_nil _
  | cons v vs =>
    rw [Value.allJson,Bool.and_eq_true] at h
    exact List.forall_mem_cons.mpr ⟨ofValue_isJson h.1,ofValues_allJson h.2⟩

theorem ofEntries_entriesJson {es : List (Value × Value)} (h : Value.entriesJson es = true) :
    ∀ e ∈ es, ∃ x, ofValue unknown e.2 = .ok x := by
  cases es with
  | nil => exact List.forall_mem_nil _
  | cons e es =>
    obtain ⟨k,v⟩ := e
    rw [Value.entriesJson,Bool.and_eq_true,Bool.and_eq_true] at h
    exact List.forall_mem_cons.mpr ⟨ofValue_isJson h.1.2,ofEntries_entriesJson h.2⟩

end

end Json

namespace Value

variable {unknown : Json.Unknown} {v : Value}

/-- Whether a value can be written as a document, given what becomes of values that documents cannot hold. -/
def Fits (unknown : Json.Unknown) (v : Value) : Prop := ∃ x, Json.ofValue unknown v = .ok x

theorem byParts_fits : ByParts (Fits unknown) where
  list vs := by
    refine ⟨fun ⟨x,hx⟩ v hv => ?_,Json.ofValue_list_ok⟩
    obtain ⟨xs,hxs,_⟩ := bind_eq_ok.mp hx
    obtain ⟨y,_,hy⟩ := exists_right_of_forall₂ (Json.ofValues_eq_ok.mp hxs) hv
    exact ⟨y,hy⟩
  record es := by
    refine ⟨fun ⟨x,hx⟩ e he => ?_,Json.ofValue_record_ok⟩
    obtain ⟨ms,_,hms,_⟩ := Json.ofValue_record hx
    obtain ⟨m,_,_,hm⟩ := hms e he
    exact ⟨m.2,hm⟩
  str _ := ⟨_,rfl⟩
  bool _ := ⟨_,rfl⟩
  null := ⟨_,rfl⟩

theorem fits_of_isJson (h : v.isJson = true) : v.Fits unknown := Json.ofValue_isJson h

theorem exists_toJsonText (layout : Json.Layout) : (∃ text, v.toJsonText layout unknown = .ok text) ↔ v.Fits unknown := by
  constructor
  · rintro ⟨text,htext⟩
    obtain ⟨x,hx,_⟩ := map_eq_ok.mp htext
    exact ⟨x,hx⟩
  · rintro ⟨x,hx⟩
    exact ⟨_,map_eq_ok.mpr ⟨x,hx,rfl⟩⟩

end Value

end Trischema
