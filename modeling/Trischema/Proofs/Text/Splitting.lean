import Mathlib.Data.List.DropRight
import Trischema.Text.Digits
import Trischema.Text.Splitting

/-!
Splitting and trimming. A text falls into one part more than it has marks, a blank at either end is trimmed off the part
that it is in, and what stands around a point is trimmed on its outer side alone.
-/

namespace Trischema

namespace Text

variable {mark c : Char} {cs ds : List Char}

theorem splitAll_ne_nil (mark : Char) (cs : List Char) : splitAll mark cs ≠ [] := by
  cases cs with
  | nil => exact List.cons_ne_nil _ _
  | cons c cs =>
    rw [splitAll]
    split
    · exact List.cons_ne_nil _ _
    · split <;> exact List.cons_ne_nil _ _

theorem splitAll_mark : splitAll mark (mark :: cs) = [] :: splitAll mark cs := by
  rw [splitAll]
  split
  · rename_i hnil
    exact absurd hnil (splitAll_ne_nil mark cs)
  · rename_i hparts
    rw [if_pos rfl,hparts]

theorem splitAll_cons (hc : c ≠ mark) {part : List Char} {parts : List (List Char)}
    (h : splitAll mark cs = part :: parts) : splitAll mark (c :: cs) = (c :: part) :: parts := by
  rw [splitAll,h]
  exact if_neg hc

theorem splitAll_free (h : mark ∉ cs) : splitAll mark cs = [cs] := by
  induction cs with
  | nil => rfl
  | cons c cs ih =>
    rw [List.mem_cons,not_or] at h
    obtain ⟨hc,hcs⟩ := h
    exact splitAll_cons (Ne.symm hc) (ih hcs)

theorem splitAll_append (h : mark ∉ cs) : splitAll mark (cs ++ mark :: ds) = cs :: splitAll mark ds := by
  induction cs with
  | nil => exact splitAll_mark
  | cons c cs ih =>
    rw [List.mem_cons,not_or] at h
    obtain ⟨hc,hcs⟩ := h
    exact splitAll_cons (Ne.symm hc) (ih hcs)

theorem splitAll_length (mark : Char) (cs : List Char) : (splitAll mark cs).length = cs.count mark + 1 := by
  induction cs with
  | nil => rfl
  | cons c cs ih =>
    by_cases hc : c = mark
    · rw [hc,splitAll_mark,List.length_cons,ih,List.count_cons_self]
    · obtain ⟨part,parts,hparts⟩ := List.exists_cons_of_ne_nil (splitAll_ne_nil mark cs)
      rw [hparts] at ih
      rw [splitAll_cons hc hparts,List.count_cons_of_ne hc,← ih]
      rfl

/-- A character that is no mark goes to the last part. -/
theorem splitAll_concat (hc : c ≠ mark) (cs : List Char) :
    ∃ parts part, splitAll mark cs = parts ++ [part] ∧ splitAll mark (cs ++ [c]) = parts ++ [part ++ [c]] := by
  induction cs with
  | nil => exact ⟨[],[],rfl,splitAll_cons hc rfl⟩
  | cons first cs ih =>
    obtain ⟨parts,part,hparts,hconcat⟩ := ih
    by_cases hfirst : first = mark
    · subst hfirst
      rw [List.cons_append,splitAll_mark,splitAll_mark,hparts,hconcat]
      exact ⟨[] :: parts,part,rfl,rfl⟩
    · cases parts with
      | nil => exact ⟨[],first :: part,splitAll_cons hfirst hparts,splitAll_cons hfirst hconcat⟩
      | cons head parts =>
        exact ⟨(first :: head) :: parts,part,splitAll_cons hfirst hparts,splitAll_cons hfirst hconcat⟩

theorem cutAt_append (h : mark ∉ cs) : cutAt mark (cs ++ mark :: ds) = (cs, some ds) := by
  have hother : ∀ c ∈ cs, (c != mark) = true := fun c hc => bne_iff_ne.mpr fun heq => h (heq ▸ hc)
  have htake : (mark :: ds).takeWhile (· != mark) = [] := List.takeWhile_cons_of_neg (by simp)
  have hdrop : (mark :: ds).dropWhile (· != mark) = mark :: ds := List.dropWhile_cons_of_neg (by simp)
  have hcontains : (cs ++ mark :: ds).contains mark = true := by simp
  rw [cutAt,List.takeWhile_append_of_pos hother,List.dropWhile_append_of_pos hother,htake,hdrop,List.append_nil,
    if_pos hcontains]
  rfl

theorem mem_dropWhile {p : Char → Bool} (hc : p c = false) : c ∈ cs.dropWhile p ↔ c ∈ cs := by
  refine ⟨fun h => (List.dropWhile_sublist p).subset h,fun h => ?_⟩
  rw [← List.takeWhile_append_dropWhile (p := p) (l := cs),List.mem_append] at h
  refine h.resolve_left fun htake => ?_
  rw [List.mem_takeWhile_imp htake] at hc
  cases hc

theorem dropWhile_stop {p : Char → Bool} {stop : Char} (hstop : p stop = false) :
    (cs ++ stop :: ds).dropWhile p = cs.dropWhile p ++ stop :: ds := by
  induction cs with
  | nil => exact List.dropWhile_cons_of_neg (by rw [hstop]; exact Bool.false_ne_true)
  | cons c cs ih =>
    rw [List.cons_append,List.dropWhile_cons,List.dropWhile_cons]
    split
    · exact ih
    · rfl

theorem rdropWhile_stop {p : Char → Bool} {stop : Char} (hstop : p stop = false) :
    (cs ++ stop :: ds).rdropWhile p = cs ++ stop :: ds.rdropWhile p := by
  have hreverse : (cs ++ stop :: ds).reverse = ds.reverse ++ stop :: cs.reverse := by simp
  rw [List.rdropWhile,hreverse,dropWhile_stop hstop,List.rdropWhile]
  simp

theorem trimBlanks_eq (cs : List Char) : trimBlanks cs = (cs.dropWhile isBlank).rdropWhile isBlank := rfl

theorem trimBlanks_cons (hc : isBlank c = true) : trimBlanks (c :: cs) = trimBlanks cs := by
  rw [trimBlanks,List.dropWhile_cons_of_pos hc,trimBlanks]

theorem trimBlanks_concat (hc : isBlank c = true) : trimBlanks (cs ++ [c]) = trimBlanks cs := by
  rw [trimBlanks_eq,trimBlanks_eq,List.dropWhile_append]
  split
  · rename_i hempty
    rw [List.isEmpty_iff.mp hempty,List.dropWhile_cons_of_pos hc,List.dropWhile_nil]
  · exact List.rdropWhile_concat_pos _ _ _ hc

/-- Around a character that is no blank, a text is trimmed on its outer sides. -/
theorem trimBlanks_stop {stop : Char} (hstop : isBlank stop = false) :
    trimBlanks (cs ++ stop :: ds) = cs.dropWhile isBlank ++ stop :: ds.rdropWhile isBlank := by
  rw [trimBlanks_eq,dropWhile_stop hstop,rdropWhile_stop hstop]

/-- Blanks around a text are none of its trimmed parts. -/
theorem trimmed_cons (hblank : isBlank c = true) (hc : c ≠ mark) :
    (splitAll mark (c :: cs)).map trimBlanks = (splitAll mark cs).map trimBlanks := by
  obtain ⟨part,parts,hparts⟩ := List.exists_cons_of_ne_nil (splitAll_ne_nil mark cs)
  rw [splitAll_cons hc hparts,hparts,List.map_cons,List.map_cons,trimBlanks_cons hblank]

theorem trimmed_concat (hblank : isBlank c = true) (hc : c ≠ mark) :
    (splitAll mark (cs ++ [c])).map trimBlanks = (splitAll mark cs).map trimBlanks := by
  obtain ⟨parts,part,hparts,hconcat⟩ := splitAll_concat hc cs
  rw [hparts,hconcat,List.map_append,List.map_append,List.map_singleton,List.map_singleton,trimBlanks_concat hblank]

end Text

end Trischema
