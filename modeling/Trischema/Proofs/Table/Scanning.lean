import Trischema.Table.Definition
import Trischema.Proofs.Lists
import Trischema.Proofs.Json.Numbers

/-!
Reading table definitions. A definition is taken apart by the lexical rules of the engine: whatever the names and the
texts in it hold, each of them is read as it is, and everything else is the frame that the table has.
-/

namespace Trischema

namespace Definition

/-- What stands between quotes. -/
inductive Quoting
  | name | text
  deriving DecidableEq, Repr

def Quoting.mark : Quoting → Char
  | name => Text.doubleMark
  | text => Text.quoteMark

/-- A piece of a definition. -/
inductive Token
  /-- what is between quotes, with the mark inside once -/
  | quoted (q : Quoting) (s : String)
  | word (s : String)
  | number (s : String)
  | mark (c : Char)
  deriving DecidableEq, Repr

def blanks : List Char := [' ', '\t', '\n', '\x0c', '\r']

def marks : List Char := ['(', ')', ',', ';']

def isWordChar (c : Char) : Bool := c.isAlphanum || c == '_'

/-- Where in a number a reader stands. -/
inductive NumberPart
  | whole | fraction
  /-- behind the mark of the exponent -/
  | power
  | sign | exponent
  deriving DecidableEq, Repr

namespace NumberPart

/-- Where a number goes on with a character, if it does. -/
def after? : NumberPart → Char → Option NumberPart
  | whole, c =>
    if c.isDigit then some whole else if c = '.' then some fraction else if c = 'e' ∨ c = 'E' then some power else none
  | fraction, c => if c.isDigit then some fraction else if c = 'e' ∨ c = 'E' then some power else none
  | power, c => if c.isDigit then some exponent else if c = '-' ∨ c = '+' then some sign else none
  | sign, c | exponent, c => if c.isDigit then some exponent else none

/-- Whether a number may end there. -/
def ends : NumberPart → Bool
  | power | sign => false
  | whole | fraction | exponent => true

end NumberPart

/-- Where a reader stands, with what it has read of a piece. -/
inductive Place
  | between
  | word (read : List Char)
  | number (part : NumberPart) (read : List Char)
  /-- behind a sign, which is no sign before another one -/
  | dash
  | quoted (q : Quoting) (read : List Char)
  /-- behind a mark, which ends what is quoted unless it is written twice -/
  | closing (q : Quoting) (read : List Char)
  deriving DecidableEq, Repr

namespace Place

/-- What a character begins. Comments, other quotes and other marks are refused, so that what is read is read by the
rules of the engine. -/
def begin (c : Char) : Option (List Token × Place) :=
  if c ∈ blanks then some ([], between)
  else if c ∈ marks then some ([.mark c], between)
  else if c = '-' then some ([], dash)
  else if c = Text.doubleMark then some ([], quoted .name [])
  else if c = Text.quoteMark then some ([], quoted .text [])
  else if c.isDigit then some ([], number .whole [c])
  else if isWordChar c then some ([], word [c])
  else none

/-- What a character begins behind a piece. -/
def leave (t : Token) (c : Char) : Option (List Token × Place) := (begin c).map fun (ts, place) => (t :: ts, place)

/-- The pieces that end before or with a character, and where the reader is behind it. -/
def step : Place → Char → Option (List Token × Place)
  | between, c => begin c
  | word read, c =>
    if isWordChar c then some ([], word (read ++ [c]))
    -- a word before quotes may be their prefix
    else if c = Text.quoteMark then none
    else leave (.word (String.ofList read)) c
  | number part read, c =>
    match part.after? c with
    | some part => some ([], number part (read ++ [c]))
    | none => if part.ends && !isWordChar c then leave (.number (String.ofList read)) c else none
  | dash, c => if c = '-' then none else leave (.mark '-') c
  | quoted q read, c =>
    if c.toNat = 0 then none
    else some ([], if c = q.mark then closing q read else quoted q (read ++ [c]))
  | closing q read, c =>
    if c = q.mark then some ([], quoted q (read ++ [c])) else leave (.quoted q (String.ofList read)) c

/-- The pieces that end with the text. -/
def finish : Place → Option (List Token)
  | between => some []
  | word read => some [.word (String.ofList read)]
  | number part read => if part.ends then some [.number (String.ofList read)] else none
  | dash => some [.mark '-']
  | quoted .. => none
  | closing q read => some [.quoted q (String.ofList read)]

end Place

/-- The pieces of a text from where a reader stands. -/
def scan : Place → List Char → Option (List Token)
  | place, [] => place.finish
  | place, c :: cs => (place.step c).bind fun (ts, next) => (scan next cs).map (ts ++ ·)

/-- The pieces of a text. -/
def read (s : String) : Option (List Token) := scan .between s.toList

/-- A sign is a piece of its own. -/
def signed (negative : Bool) (t : Token) : List Token := if negative then [.mark '-', t] else [t]

/-- What a value is read as where it is written. -/
def literalTokens : Value → List Token
  | .bool b => [.number (if b then "1" else "0")]
  | .int n => signed (decide (n < 0)) (.number (toString n.natAbs))
  | .float .nan => [.word "nan"]
  | .float (.infinite s) => signed s (.word "inf")
  | .float (.finite s m e) => signed s (.number (NumberStyle.plain.render (.finite false m e)))
  | v => [.quoted .text v.display]

/-- Whether a value stands in a definition as a number, a bare word or a text without NUL. Only members of sets of whole
numbers do not stand as any of these: they are written by their listing. -/
def isWritable (v : Value) : Bool :=
  match written v with
  | .cell (.text s) => TableDefinition.isText s
  | .cell _ | .word => true
  | .malformed => false

def bracketed (ts : List Token) : List Token := .mark '(' :: (ts ++ [.mark ')'])

/-- A list of things in brackets. -/
def listTokens (things : List (List Token)) : List Token := bracketed ([.mark ','].intercalate things)

/-- The restriction of what has a name to some values. -/
def restrictionTokens (name : String) (vs : List Value) : List Token :=
  .word "CHECK" :: bracketed (.quoted .name name :: .word "IN" :: listTokens (vs.map literalTokens))

/-- A part that some columns have. -/
def optional (b : Bool) (ts : List Token) : List (List Token) := if b then [ts] else []

end Definition

open Definition

/-- The parts of a column, with its name and its values in them. -/
def Column.parts (c : Column) : List (List Token) :=
  [[.quoted .name c.name], [.word c.type.affinity.typeName]]
    ++ optional c.primary [.word "PRIMARY", .word "KEY"]
    ++ optional c.isRequired [.word "NOT", .word "NULL"]
    ++ optional (c.unique && !c.primary) [.word "UNIQUE"]
    ++ (c.restriction.map (restrictionTokens c.name)).toList

/-- The frame of a table, with the names and the values in it. -/
def TableDefinition.tokens (d : TableDefinition) : List Token :=
  ["CREATE", "TABLE", "IF", "NOT", "EXISTS"].map .word ++ .quoted .name d.name
    :: listTokens (d.columns.map (fun c => c.parts.flatten) ++ d.together.map fun g =>
      .word "UNIQUE" :: listTokens (g.map fun k => [.quoted .name k]))

namespace Definition

section Pieces

variable {cs ds rest : List Char} {ts us : List Token} {c : Char} {t : Token} {q : Quoting} {part part' : NumberPart}
  {place : Place}

/-- Whether a text begins between two pieces, or is none. -/
def Ends (rest : List Char) : Prop := ∀ c ∈ rest.head?, c ∈ blanks ++ marks

/-- Whether a text is read as pieces of their own, whatever follows behind them. -/
def Reads (cs : List Char) (ts : List Token) : Prop :=
  ∀ rest, Ends rest → scan .between (cs ++ rest) = (scan .between rest).map (ts ++ ·)

theorem ends_cons (hc : c ∈ blanks ++ marks) (rest : List Char) : Ends (c :: rest) := by
  rintro d ⟨⟩
  exact hc

theorem ends_append (hcs : Ends cs) (hrest : Ends rest) : Ends (cs ++ rest) := by
  cases cs with
  | nil => exact hrest
  | cons c cs => exact ends_cons (hcs c rfl) (cs ++ rest)

theorem scan_step {next : Place} (h : place.step c = some (ts, next)) (rest : List Char) :
    scan place (c :: rest) = (scan next rest).map (ts ++ ·) := by
  rw [scan,h,Option.bind_some]

theorem scan_on {next : Place} (h : place.step c = some ([], next)) (rest : List Char) :
    scan place (c :: rest) = scan next rest := by
  rw [scan_step h]
  exact Option.map_id'

theorem reads_nil : Reads [] [] := fun _ _ => Option.map_id'.symm

theorem Reads.read {s : String} (hs : Reads s.toList ts) : read s = some ts := by
  have hread := hs [] (fun _ h => nomatch h)
  rw [List.append_nil] at hread
  exact hread.trans (congrArg some (List.append_nil ts))

theorem Reads.append (hcs : Reads cs ts) (hds : Reads ds us) (hends : Ends ds) : Reads (cs ++ ds) (ts ++ us) := by
  intro rest hrest
  rw [List.append_assoc,hcs _ (ends_append hends hrest),hds rest hrest,Option.map_map]
  exact congrArg (Option.map · _) (funext fun vs => (List.append_assoc ts us vs).symm)

theorem step_blank (hc : c ∈ blanks) : Place.between.step c = some ([], .between) := if_pos hc

theorem step_mark (hc : c ∈ marks) : Place.between.step c = some ([.mark c], .between) := by
  simp only [marks,List.mem_cons,List.not_mem_nil,or_false] at hc
  rcases hc with rfl | rfl | rfl | rfl <;> rfl

theorem Reads.blank (hcs : Reads cs ts) (hc : c ∈ blanks) : Reads (c :: cs) ts := by
  intro rest hrest
  rw [List.cons_append,scan_on (step_blank hc),hcs rest hrest]

theorem Reads.mark (hcs : Reads cs ts) (hc : c ∈ marks) : Reads (c :: cs) (.mark c :: ts) := by
  intro rest hrest
  rw [List.cons_append,scan_step (step_mark hc),hcs rest hrest,Option.map_map]
  rfl

/-- A piece is read before what it does not go on with. -/
theorem scan_leave (hfinish : place.finish = some [t]) (hstep : ∀ c ∈ rest.head?, place.step c = Place.leave t c) :
    scan place rest = (scan .between rest).map (t :: ·) := by
  cases rest with
  | nil => exact hfinish
  | cons c rest =>
    rw [scan,hstep c rfl,Place.leave,Option.bind_map,scan,Option.map_bind]
    refine congrArg (Option.bind _) (funext fun (ts, next) => ?_)
    rw [Function.comp_apply,Function.comp_apply,Option.map_map]
    rfl

/-- Behind a sign a piece is read as it is without. -/
theorem Reads.dash (hcs : Reads cs ts) (hhead : cs.head? ≠ some '-') (hsome : cs ≠ []) :
    Reads ('-' :: cs) (.mark '-' :: ts) := by
  intro rest hrest
  obtain ⟨c,ds,rfl⟩ := List.exists_cons_of_ne_nil hsome
  have hdash : Place.between.step '-' = some ([], .dash) := rfl
  rw [List.cons_append,scan_on hdash,scan_leave rfl,hcs rest hrest,Option.map_map]
  · rfl
  · rintro d ⟨⟩
    exact if_neg fun h => hhead (congrArg some h)

/-- What may follow a piece is no part of words and numbers, and no mark around what is quoted. -/
theorem apart : ∀ c ∈ blanks ++ marks, isWordChar c = false ∧ (∀ q : Quoting, c ≠ q.mark) ∧
    ∀ part : NumberPart, part.after? c = none := by
  intro c hc
  simp only [blanks,marks,List.cons_append,List.nil_append,List.mem_cons,List.not_mem_nil,or_false] at hc
  rcases hc with rfl | rfl | rfl | rfl | rfl | rfl | rfl | rfl | rfl <;>
    exact ⟨rfl,fun q => by cases q <;> decide,fun part => by cases part <;> rfl⟩

theorem begin_word (hc : isWordChar c = true) :
    Place.between.step c = some ([], if c.isDigit then .number .whole [c] else .word [c]) := by
  have hnone : (('-' :: Text.doubleMark :: Text.quoteMark :: (blanks ++ marks)).all fun d => !isWordChar d) = true := rfl
  have hother {d : Char} (hd : d ∈ '-' :: Text.doubleMark :: Text.quoteMark :: (blanks ++ marks)) : c ≠ d := by
    rintro rfl
    have hplain := List.all_eq_true.mp hnone c hd
    rw [hc] at hplain
    cases hplain
  have hblank : c ∉ blanks := fun h => hother (by simp [h]) rfl
  have hmark : c ∉ marks := fun h => hother (by simp [h]) rfl
  rw [Place.step,Place.begin,if_neg hblank,if_neg hmark,if_neg (hother (by simp)),if_neg (hother (by simp)),
    if_neg (hother (by simp)),if_pos hc]
  split <;> rfl

/-- A reader of a word goes on to its end. -/
theorem scan_word (hds : ∀ d ∈ ds, isWordChar d = true) (rest : List Char) :
    scan (.word cs) (ds ++ rest) = scan (.word (cs ++ ds)) rest := by
  induction ds generalizing cs with
  | nil => rw [List.append_nil,List.nil_append]
  | cons d ds ih =>
    rw [List.forall_mem_cons] at hds
    have hstep : (Place.word cs).step d = some ([], .word (cs ++ [d])) := if_pos hds.1
    rw [List.cons_append,scan_on hstep,ih hds.2,List.append_assoc]
    rfl

/-- Whether a text is a word. -/
def isWord (s : String) : Bool := s.toList.all isWordChar && s.toList.head?.any fun c => !c.isDigit

theorem reads_word {s : String} (hs : isWord s = true) : Reads s.toList [.word s] := by
  intro rest hrest
  rw [isWord,Bool.and_eq_true,List.all_eq_true] at hs
  obtain ⟨hall,hhead⟩ := hs
  have hlist : s = String.ofList s.toList := String.ofList_toList.symm
  cases hcs : s.toList with
  | nil =>
    rw [hcs] at hhead
    cases hhead
  | cons c ds =>
    rw [hcs] at hall hhead hlist
    rw [List.forall_mem_cons] at hall
    have hdigit : c.isDigit = false := by simpa using hhead
    have hbegin := begin_word hall.1
    rw [if_neg (Bool.eq_false_iff.mp hdigit)] at hbegin
    rw [List.cons_append,scan_on hbegin,scan_word hall.2,hlist]
    refine scan_leave rfl fun d hd => ?_
    obtain ⟨hword,hmark,_⟩ := apart d (hrest d hd)
    have hstep : (Place.word ([c] ++ ds)).step d = _ := if_neg (Bool.eq_false_iff.mp hword)
    exact hstep.trans (if_neg (hmark .text))

/-- Where in a number a reader is behind some characters. -/
def NumberPart.behind? (part : NumberPart) (cs : List Char) : Option NumberPart := cs.foldlM after? part

/-- A reader of a number goes on to its end. -/
theorem scan_number (hds : part.behind? ds = some part') (rest : List Char) :
    scan (.number part cs) (ds ++ rest) = scan (.number part' (cs ++ ds)) rest := by
  induction ds generalizing cs part with
  | nil =>
    cases hds
    rw [List.append_nil,List.nil_append]
  | cons d ds ih =>
    rw [NumberPart.behind?,List.foldlM_cons,Option.bind_eq_bind,Option.bind_eq_some_iff] at hds
    obtain ⟨next,hnext,hds⟩ := hds
    have hstep : (Place.number part cs).step d = some ([], .number next (cs ++ [d])) := by
      rw [Place.step,hnext]
    rw [List.cons_append,scan_on hstep,ih hds,List.append_assoc]
    rfl

/-- Whether characters are a number without a sign. -/
structure IsNumber (cs : List Char) : Prop where
  digit : ∃ c ∈ cs.head?, c.isDigit = true
  ends : ∃ part, NumberPart.whole.behind? cs = some part ∧ part.ends = true

theorem reads_number (hcs : IsNumber cs) : Reads cs [.number (String.ofList cs)] := by
  intro rest hrest
  obtain ⟨⟨c,hc,hdigit⟩,part,hpart,hends⟩ := hcs
  obtain ⟨ds,rfl⟩ := List.head?_eq_some_iff.mp hc
  have hword : isWordChar c = true := by simp [isWordChar,Char.isAlphanum,hdigit]
  have hbegin := begin_word hword
  have hafter : NumberPart.whole.after? c = some .whole := if_pos hdigit
  rw [if_pos hdigit] at hbegin
  rw [NumberPart.behind?,List.foldlM_cons,hafter] at hpart
  rw [List.cons_append,scan_on hbegin,scan_number hpart]
  refine scan_leave ?_ fun d hd => ?_
  · exact if_pos hends
  · obtain ⟨hword,_,hnone⟩ := apart d (hrest d hd)
    simp only [Place.step,hnone,hword,hends]
    rfl

/-- A reader between quotes goes on to the mark behind all that is quoted. -/
theorem scan_quoted (hds : ∀ d ∈ ds, d.toNat ≠ 0) (rest : List Char) :
    scan (.quoted q cs) (ds.flatMap (fun d => if d = q.mark then [d, d] else [d]) ++ q.mark :: rest) =
      scan (.closing q (cs ++ ds)) rest := by
  have hstep (cs : List Char) {d : Char} (hd : d.toNat ≠ 0) : (Place.quoted q cs).step d =
      some ([], if d = q.mark then .closing q cs else .quoted q (cs ++ [d])) := if_neg hd
  induction ds generalizing cs with
  | nil =>
    have hmark : q.mark.toNat ≠ 0 := by cases q <;> decide
    have hclose := hstep cs hmark
    rw [if_pos rfl] at hclose
    rw [List.flatMap_nil,List.nil_append,List.append_nil,scan_on hclose]
  | cons d ds ih =>
    rw [List.forall_mem_cons] at hds
    have hread := hstep cs hds.1
    rw [List.flatMap_cons]
    by_cases hd : d = q.mark
    · -- the mark is written twice: the first one closes, the second one opens again
      rw [if_pos hd] at hread
      have hagain : (Place.closing q cs).step d = some ([], .quoted q (cs ++ [d])) := if_pos hd
      simp only [if_pos hd,List.cons_append,List.nil_append]
      rw [scan_on hread,scan_on hagain,ih hds.2,List.append_assoc]
      rfl
    · rw [if_neg hd] at hread
      simp only [if_neg hd,List.cons_append,List.nil_append]
      rw [scan_on hread,ih hds.2,List.append_assoc]
      rfl

/-- What is quoted is one piece, whatever it holds, and reads as it is. -/
theorem reads_enclosed (q : Quoting) {s : String} (hs : TableDefinition.isText s = true) :
    Reads (enclosed q.mark s).toList [.quoted q s] := by
  intro rest hrest
  rw [TableDefinition.isText,Bool.not_eq_true',List.any_eq_false] at hs
  have hchars : ∀ c ∈ s.toList, c.toNat ≠ 0 := fun c hc h => hs c hc (beq_iff_eq.mpr h)
  have hopen : Place.between.step q.mark = some ([], .quoted q []) := by cases q <;> rfl
  rw [enclosed,String.toList_ofList,List.cons_append,List.cons_append,List.append_assoc,List.singleton_append,scan_on hopen,
    scan_quoted hchars]
  refine scan_leave ?_ fun c hc => ?_
  · rw [List.nil_append,Place.finish,String.ofList_toList]
  · obtain ⟨_,hmark,_⟩ := apart c (hrest c hc)
    rw [List.nil_append,Place.step,if_neg (hmark q),String.ofList_toList]

theorem behind?_append (part : NumberPart) (cs ds : List Char) :
    part.behind? (cs ++ ds) = (part.behind? cs).bind (·.behind? ds) := List.foldlM_append

theorem behind?_digits (hpart : ∀ c : Char, c.isDigit = true → part.after? c = some part)
    (hcs : ∀ c ∈ cs, c.isDigit = true) : part.behind? cs = some part := by
  induction cs with
  | nil => rfl
  | cons c cs ih =>
    rw [List.forall_mem_cons] at hcs
    rw [NumberPart.behind?,List.foldlM_cons,hpart c hcs.1]
    exact ih hcs.2

/-- Digits are a number, also with what a number goes on with behind them. -/
theorem isNumber_digits (hcs : Json.Digits cs) (hds : NumberPart.whole.behind? ds = some part)
    (hends : part.ends = true) : IsNumber (cs ++ ds) := by
  have hwhole : NumberPart.whole.behind? cs = some .whole := behind?_digits (fun _ h => if_pos h) hcs.digits
  refine ⟨?_,part,?_,hends⟩
  · obtain ⟨c,ds',rfl⟩ := List.exists_cons_of_ne_nil hcs.some
    exact ⟨c,rfl,hcs.digits c List.mem_cons_self⟩
  · rw [behind?_append,hwhole,Option.bind_some,hds]

theorem isNumber_whole (hcs : Json.Digits cs) : IsNumber cs := by
  have hnone : NumberPart.whole.behind? [] = some .whole := rfl
  have hnumber := isNumber_digits hcs hnone rfl
  rwa [List.append_nil] at hnumber

theorem behind?_point (hds : ∀ d ∈ ds, d.isDigit = true) : NumberPart.whole.behind? ('.' :: ds) = some .fraction := by
  have hpoint : NumberPart.whole.behind? ('.' :: ds) = NumberPart.fraction.behind? ds := rfl
  rw [hpoint]
  exact behind?_digits (fun _ h => if_pos h) hds

theorem behind?_exponent (hpart : part.after? 'e' = some .power) (below : Bool) (hcs : Json.Digits cs) :
    part.behind? (Json.exponentText below cs) = some .exponent := by
  obtain ⟨c,ds,rfl⟩ := List.exists_cons_of_ne_nil hcs.some
  have hdigits := List.forall_mem_cons.mp hcs.digits
  have hsign : NumberPart.power.after? (if below then '-' else '+') = some .sign := by cases below <;> rfl
  have hfirst : NumberPart.sign.after? c = some .exponent := if_pos hdigits.1
  rw [Json.exponentText,NumberPart.behind?,List.foldlM_cons,hpart,Option.bind_eq_bind,Option.bind_some,List.foldlM_cons,
    hsign,Option.bind_eq_bind,Option.bind_some,List.foldlM_cons,hfirst,Option.bind_eq_bind,Option.bind_some]
  exact behind?_digits (fun _ h => if_pos h) hdigits.2

theorem isNumber_positional {digits : String} (hdigits : Json.Digits digits.toList) (point : Int) :
    IsNumber (NumberStyle.plain.positional digits point).toList := by
  have hpoint {cs ds : List Char} (hcs : Json.Digits cs) (hds : ∀ d ∈ ds, d.isDigit = true) :
      IsNumber (cs ++ '.' :: ds) := isNumber_digits hcs (behind?_point hds) rfl
  rw [NumberStyle.positional]
  split
  · simp only [String.toList_append,Json.zeros_toList,List.append_assoc]
    have hzeros := List.forall_mem_append.mpr ⟨Json.zeros_digits (-point).toNat,hdigits.digits⟩
    have hnumber := hpoint Json.zero_digits hzeros
    exact hnumber
  · split
    · simp only [String.toList_append,Json.zeros_toList]
      exact hpoint (Json.digits_append hdigits (Json.zeros_digits _)) Json.zero_digits.digits
    · rename_i hlow hhigh
      simp only [String.toList_append,String.toList_ofList,List.append_assoc]
      refine hpoint ⟨fun c hc => hdigits.digits c (List.mem_of_mem_take hc),?_⟩
        fun c hc => hdigits.digits c (List.mem_of_mem_drop hc)
      rw [Ne,List.take_eq_nil_iff,not_or]
      exact ⟨by omega,hdigits.some⟩

theorem isNumber_scientific {digits : String} (hdigits : Json.Digits digits.toList) (exponent : Int) :
    IsNumber (NumberStyle.plain.scientific digits exponent).toList := by
  obtain ⟨es,hes,htext,_⟩ := Json.exponentText_eq exponent
  obtain ⟨c,ds,hcs⟩ := List.exists_cons_of_ne_nil hdigits.some
  have hlayout : NumberStyle.plain.scientific digits exponent = _ := Json.scientific_layout hcs exponent
  have hall := List.forall_mem_cons.mp (hcs ▸ hdigits.digits)
  have hfirst : Json.Digits [c] := ⟨List.forall_mem_singleton.mpr hall.1,List.cons_ne_nil _ _⟩
  rw [hlayout,String.toList_append,String.toList_append,htext,String.toList_ofList]
  cases ds with
  | nil => exact isNumber_digits hfirst (behind?_exponent rfl _ hes) rfl
  | cons d ds =>
    have hfraction : ("." ++ String.ofList (d :: ds)).toList = '.' :: d :: ds := by
      rw [String.toList_append,show (String.ofList (d :: ds)).toList = d :: ds from String.toList_ofList]
      rfl
    have hbehind : NumberPart.whole.behind? ('.' :: d :: ds ++ Json.exponentText (decide (exponent < 0)) es) =
        some .exponent := by
      rw [behind?_append,behind?_point hall.2,Option.bind_some,behind?_exponent rfl _ hes]
    rw [List.isEmpty_cons,if_neg Bool.false_ne_true,hfraction]
    exact isNumber_digits hfirst hbehind rfl

theorem isNumber_render (m : Nat) (e : Int) : IsNumber (NumberStyle.plain.render (.finite false m e)).toList := by
  have hdigits (n : Nat) : Json.Digits (toString n).toList := by
    rw [Json.toString_toList]
    exact Json.toDigits_digits n
  rw [NumberStyle.render,NumberStyle.renderBy,if_neg Bool.false_ne_true,String.empty_append]
  split
  · have hzero : Json.Digits "0".toList := Json.zero_digits
    exact isNumber_positional hzero 1
  · rw [NumberStyle.layOut]
    split
    · exact isNumber_positional (hdigits _) _
    · exact isNumber_scientific (hdigits _) _

theorem IsNumber.no_sign (hcs : IsNumber cs) : cs.head? ≠ some '-' ∧ cs ≠ [] := by
  obtain ⟨c,hc,hdigit⟩ := hcs.digit
  constructor
  · rintro h
    cases hc.symm.trans h
    cases hdigit
  · rintro rfl
    cases hc

theorem Reads.signed (hcs : Reads cs [t]) (hhead : cs.head? ≠ some '-' ∧ cs ≠ []) (negative : Bool) :
    Reads (Json.signText negative ++ cs) (signed negative t) := by
  cases negative with
  | true => exact hcs.dash hhead.1 hhead.2
  | false => exact hcs

theorem reads_literal {v : Value} (hv : isWritable v = true) : Reads (literal v).toList (literalTokens v) := by
  have htext (hwritten : written v = .cell (.text v.display)) (hliteral : literal v = quotedText v.display) :
      Reads (literal v).toList [.quoted .text v.display] := by
    rw [isWritable,hwritten] at hv
    rw [hliteral]
    exact reads_enclosed .text hv
  cases v with
  | bool b =>
    cases b with
    | true => exact reads_number (isNumber_whole (Json.toDigits_digits 1))
    | false => exact reads_number (isNumber_whole (Json.toDigits_digits 0))
  | int n =>
    have hliteral : (literal (.int n)).toList = _ := Json.toString_int n
    have hnumber := isNumber_whole (Json.toDigits_digits n.natAbs)
    have hdigits : String.ofList (Nat.toDigits 10 n.natAbs) = toString n.natAbs := by
      rw [← Json.toString_toList,String.ofList_toList]
    have hread := (reads_number hnumber).signed hnumber.no_sign (decide (n < 0))
    rwa [hdigits,← hliteral] at hread
  | float x =>
    cases x with
    | nan => exact reads_word rfl
    | infinite s =>
      have hread := (reads_word (s := "inf") rfl).signed (by decide) s
      cases s <;> exact hread
    | finite s m e =>
      have hnumber := isNumber_render m e
      have hread := (reads_number hnumber).signed hnumber.no_sign s
      rw [String.ofList_toList] at hread
      have hliteral : (literal (.float (.finite s m e))).toList =
          Json.signText s ++ (NumberStyle.plain.render (.finite false m e)).toList := by
        have hrender : literal (.float (.finite s m e)) = NumberStyle.plain.render (.finite s m e) := rfl
        rw [hrender,NumberStyle.render,NumberStyle.renderBy,String.toList_append,NumberStyle.renderBy,
          if_neg Bool.false_ne_true,String.empty_append]
        cases s <;> rfl
      rw [hliteral]
      exact hread
  | member x =>
    obtain ⟨cls,mixin,name,value⟩ := x
    cases mixin with
    | integer =>
      cases value with
      | int n => cases hv
      | _ => exact htext rfl rfl
    | plain | text => exact htext rfl rfl
  | _ => exact htext rfl rfl

/-- Parts with a text between them are read one after the other, with the pieces of that text between them. -/
theorem reads_intercalate {sep : String} {between : List Token} {ss : List String} {tss : List (List Token)}
    (hsep : ∀ cs ts, Reads cs ts → Reads (sep.toList ++ cs) (between ++ ts)) (hends : ∀ cs, Ends (sep.toList ++ cs))
    (h : List.Forall₂ (fun s ts => Reads s.toList ts) ss tss) :
    Reads (sep.intercalate ss).toList (between.intercalate tss) := by
  induction h with
  | nil => exact reads_nil
  | @cons s ts ss tss hs hrest ih =>
    cases hrest with
    | nil =>
      rw [String.intercalate_singleton,List.intercalate_singleton]
      exact hs
    | cons hs' hrest =>
      rw [String.intercalate_cons_cons,String.toList_append,String.toList_append,List.append_assoc,
        List.intercalate_cons_cons,List.append_assoc]
      exact hs.append (hsep _ _ ih) (hends _)

/-- A line may begin with blanks. -/
theorem Reads.indented (hcs : Reads cs ts) (n : Nat) : Reads ('\n' :: (List.replicate n ' ' ++ cs)) ts := by
  have hblanks : Reads (List.replicate n ' ' ++ cs) ts := by
    induction n with
    | zero => exact hcs
    | succ n ih => exact ih.blank (by decide)
  exact hblanks.blank (by decide)

/-- Lines of their own between brackets. -/
theorem Reads.lines (hcs : Reads cs ts) (n : Nat) : Reads ('\n' :: (List.replicate n ' ' ++ (cs ++ ['\n']))) ts := by
  have hline := hcs.append (reads_nil.blank (c := '\n') (by decide)) (ends_cons (by decide) [])
  rw [List.append_nil] at hline
  exact hline.indented n

/-- Pieces beside each other, with a blank between them. -/
theorem Reads.beside (hcs : Reads cs ts) (hds : Reads ds us) : Reads (cs ++ ' ' :: ds) (ts ++ us) :=
  hcs.append (hds.blank (by decide)) (ends_cons (by decide) ds)

theorem Reads.bracketed (hcs : Reads cs ts) : Reads ('(' :: (cs ++ [')'])) (bracketed ts) :=
  (hcs.append (reads_nil.mark (by decide)) (ends_cons (by decide) [])).mark (by decide)

theorem reads_list {ss : List String} {tss : List (List Token)}
    (h : List.Forall₂ (fun s ts => Reads s.toList ts) ss tss) :
    Reads (", ".intercalate ss).toList ([.mark ','].intercalate tss) :=
  reads_intercalate (fun _ _ hcs => (hcs.blank (by decide)).mark (by decide)) (fun _ => ends_cons (by decide) _) h

theorem intercalate_nothing (tss : List (List Token)) : [].intercalate tss = tss.flatten := by
  induction tss with
  | nil => rfl
  | cons ts tss ih =>
    cases tss with
    | nil => rw [List.intercalate_singleton,List.flatten_singleton]
    | cons =>
      rw [List.intercalate_cons_cons,List.append_nil,ih]
      rfl

theorem forall₂_optional {R : String → List Token → Prop} {s : String} (b : Bool) (h : R s ts) :
    List.Forall₂ R (if b then [s] else []) (optional b ts) := by
  cases b with
  | true => exact .cons h .nil
  | false => exact .nil

end Pieces

end Definition

namespace Column

variable {c : Column}

theorem reads_restriction {vs : List Value} (hname : TableDefinition.isText c.name = true)
    (hvs : ∀ v ∈ vs, isWritable v = true) :
    Reads ("CHECK (" ++ quotedName c.name ++ " IN (" ++ ", ".intercalate (vs.map literal) ++ "))").toList
      (restrictionTokens c.name vs) := by
  have hvalues := (reads_list (forall₂_map_map fun v hv => reads_literal (hvs v hv))).bracketed
  have hin := (reads_enclosed .name hname).beside ((reads_word (s := "IN") rfl).beside hvalues)
  have hcheck := (reads_word (s := "CHECK") rfl).beside hin.bracketed
  have hhead : "CHECK (".toList = "CHECK".toList ++ [' ', '('] := rfl
  have hmiddle : " IN (".toList = ' ' :: ("IN".toList ++ [' ', '(']) := rfl
  have hend : "))".toList = [')', ')'] := rfl
  simp only [String.toList_append,hhead,hmiddle,hend,List.append_assoc,List.cons_append,List.nil_append] at hcheck ⊢
  exact hcheck

theorem reads_definition (hname : TableDefinition.isText c.name = true)
    (hvalues : ∀ vs ∈ c.restriction, ∀ v ∈ vs, isWritable v = true) : Reads c.definition.toList c.parts.flatten := by
  have htype : isWord c.type.affinity.typeName = true := by cases c.type.affinity <;> rfl
  have hparts : List.Forall₂ (fun s ts => Reads s.toList ts) [quotedName c.name, c.type.affinity.typeName]
      [[.quoted .name c.name], [.word c.type.affinity.typeName]] :=
    .cons (reads_enclosed .name hname) (.cons (reads_word htype) .nil)
  have hprimary := (reads_word (s := "PRIMARY") rfl).beside (reads_word (s := "KEY") rfl)
  have hrequired := (reads_word (s := "NOT") rfl).beside (reads_word (s := "NULL") rfl)
  have hunique := reads_word (s := "UNIQUE") rfl
  rw [← intercalate_nothing]
  refine reads_intercalate (fun _ _ hcs => hcs.blank (by decide)) (fun _ => ends_cons (by decide) _) ?_
  refine List.rel_append (List.rel_append (List.rel_append (List.rel_append hparts
    (forall₂_optional (s := "PRIMARY KEY") _ hprimary)) (forall₂_optional (s := "NOT NULL") _ hrequired))
    (forall₂_optional _ hunique)) ?_
  cases hrestriction : c.restriction with
  | none => exact .nil
  | some vs => exact .cons (reads_restriction hname (hvalues vs hrestriction)) .nil

end Column

namespace TableDefinition

variable {d : TableDefinition}

/-- Whether the names of a table and the texts in it are free of NUL, and every value in it is written as what it is. -/
structure IsWritable (d : TableDefinition) : Prop where
  name : isText d.name = true
  columns : ∀ c ∈ d.columns, isText c.name = true
  values : ∀ c ∈ d.columns, ∀ vs ∈ c.restriction, ∀ v ∈ vs, isWritable v = true
  together : ∀ g ∈ d.together, ∀ k ∈ g, isText k = true

theorem reads_together {g : List String} (hg : ∀ k ∈ g, isText k = true) :
    Reads ("UNIQUE (" ++ ", ".intercalate (g.map quotedName) ++ ")").toList
      (.word "UNIQUE" :: listTokens (g.map fun k => [.quoted .name k])) := by
  have hkeys := reads_list (forall₂_map_map fun k hk => reads_enclosed .name (hg k hk))
  have hhead : "UNIQUE (".toList = "UNIQUE".toList ++ [' ', '('] := rfl
  have hlist := (reads_word (s := "UNIQUE") rfl).beside hkeys.bracketed
  simp only [String.toList_append,hhead,List.append_assoc,List.cons_append,List.nil_append] at hlist ⊢
  exact hlist

theorem reads_parts (hd : d.IsWritable) :
    Reads (",\n    ".intercalate (d.columns.map Column.definition ++ d.together.map fun g =>
        "UNIQUE (" ++ ", ".intercalate (g.map quotedName) ++ ")")).toList
      ([.mark ','].intercalate (d.columns.map (fun c => c.parts.flatten) ++ d.together.map fun g =>
        .word "UNIQUE" :: listTokens (g.map fun k => [.quoted .name k]))) := by
  have hcolumns : List.Forall₂ (fun s ts => Reads s.toList ts) (d.columns.map Column.definition)
      (d.columns.map fun c => c.parts.flatten) :=
    forall₂_map_map fun c hc => Column.reads_definition (hd.columns c hc) (hd.values c hc)
  refine reads_intercalate (fun _ _ hcs => (hcs.indented 4).mark (by decide)) (fun _ => ends_cons (by decide) _) ?_
  exact List.rel_append hcolumns (forall₂_map_map fun g hg => reads_together (hd.together g hg))

theorem statement_toList (d : TableDefinition) : d.statement.toList = "CREATE TABLE IF NOT EXISTS ".toList ++
    (quotedName d.name).toList ++ " (\n    ".toList ++ (",\n    ".intercalate (d.columns.map Column.definition
      ++ d.together.map fun g => "UNIQUE (" ++ ", ".intercalate (g.map quotedName) ++ ")")).toList ++ "\n)".toList := by
  simp only [← String.toList_append]
  rfl

/-- The statement that creates a table is read as the frame of the table: every name in it is one piece that reads as
the name, every text one that reads as the text, whatever they hold and whatever stands beside them. -/
theorem read_statement (hd : d.IsWritable) : Definition.read d.statement = some d.tokens := by
  have hbody := ((reads_parts hd).lines 4).bracketed
  have hcreate := (reads_word (s := "CREATE") rfl).beside ((reads_word (s := "TABLE") rfl).beside
    ((reads_word (s := "IF") rfl).beside ((reads_word (s := "NOT") rfl).beside ((reads_word (s := "EXISTS") rfl).beside
    ((reads_enclosed .name hd.name).beside hbody)))))
  have hhead : "CREATE TABLE IF NOT EXISTS ".toList = "CREATE".toList ++ ' ' :: ("TABLE".toList ++ ' ' ::
      ("IF".toList ++ ' ' :: ("NOT".toList ++ ' ' :: ("EXISTS".toList ++ [' '])))) := by decide +kernel
  have hopen : " (\n    ".toList = ' ' :: '(' :: '\n' :: List.replicate 4 ' ' := rfl
  have hclose : "\n)".toList = ['\n', ')'] := rfl
  refine Reads.read ?_
  rw [statement_toList,hhead,hopen,hclose]
  simp only [List.append_assoc,List.cons_append,List.nil_append] at hcreate ⊢
  exact hcreate

/-- A table whose names and texts look like ends of pieces, definitions and comments. -/
def notes : TableDefinition where
  name := "\"notes\" (--"
  columns := [{ name := "id\"", type := .text, primary := true },
    { name := "\", x)", type := .text, unique := true, enum := some [.str "'", .str "\n'); /*", .str "", .int (-1)] }]
  together := [["id\"", "\", x)"]]

theorem read_statement_notes : notes.IsWritable ∧ Definition.read notes.statement = some
    [.word "CREATE", .word "TABLE", .word "IF", .word "NOT", .word "EXISTS", .quoted .name "\"notes\" (--", .mark '(',
      .quoted .name "id\"", .word "TEXT", .word "PRIMARY", .word "KEY", .word "NOT", .word "NULL", .mark ',',
      .quoted .name "\", x)", .word "TEXT", .word "UNIQUE", .word "CHECK", .mark '(', .quoted .name "\", x)", .word "IN",
      .mark '(', .quoted .text "'", .mark ',', .quoted .text "\n'); /*", .mark ',', .quoted .text "", .mark ',', .mark '-',
      .number "1", .mark ')', .mark ')', .mark ',',
      .word "UNIQUE", .mark '(', .quoted .name "id\"", .mark ',', .quoted .name "\", x)", .mark ')', .mark ')'] := by
  have hnotes : notes.IsWritable :=
    { name := by decide +kernel
      columns := by decide +kernel
      values := by decide +kernel
      together := by decide +kernel }
  exact ⟨hnotes,(read_statement hnotes).trans (by decide +kernel)⟩

end TableDefinition

end Trischema
