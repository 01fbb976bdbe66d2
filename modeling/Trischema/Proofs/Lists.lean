import Mathlib.Data.List.Forall2
import Mathlib.Data.List.Nodup
import Mathlib.Data.List.Pairwise

/-!
Lists without duplicates and lists that agree place by place.
-/

namespace Trischema

variable {α β : Type}

theorem eraseDups_length_le [BEq α] (l : List α) : l.eraseDups.length ≤ l.length := by
  induction h : l.length using Nat.strongRecOn generalizing l with
  | ind n ih =>
    cases l with
    | nil => simp
    | cons a as =>
      have hfilter := List.length_filter_le (fun b => !b == a) as
      rw [List.length_cons] at h
      have hrest := ih _ (by omega) (as.filter fun b => !b == a) rfl
      rw [List.eraseDups_cons,List.length_cons]
      omega

/-- A list that loses nothing with its duplicates has none. -/
theorem nodup_of_eraseDups_length [BEq α] [LawfulBEq α] {l : List α}
    (h : l.eraseDups.length = l.length) : l.Nodup := by
  induction l with
  | nil => exact List.nodup_nil
  | cons a as ih =>
    rw [List.eraseDups_cons,List.length_cons,List.length_cons,Nat.add_right_cancel_iff] at h
    have hle := eraseDups_length_le (as.filter fun b => !b == a)
    have hfilter := List.length_filter_le (fun b => !b == a) as
    have hall := List.length_filter_eq_length_iff.mp (show (as.filter fun b => !b == a).length = as.length by omega)
    rw [List.filter_eq_self.mpr hall] at h
    refine List.nodup_cons.mpr ⟨fun hmem => ?_,ih h⟩
    simpa using hall a hmem

/-- The keys of a list in the order in which they first occur do not depend on what occurs again. -/
theorem eraseDups_append_congr [BEq α] [LawfulBEq α] {xs ys zs : List α} (h : xs.eraseDups = ys.eraseDups) :
    (xs ++ zs).eraseDups = (ys ++ zs).eraseDups := by
  have hmem (z : α) : xs.contains z = ys.contains z := by
    rw [Bool.eq_iff_iff,List.contains_iff_mem,List.contains_iff_mem,← List.mem_eraseDups,h,List.mem_eraseDups]
  have hrest : zs.removeAll xs = zs.removeAll ys := by
    simp only [List.removeAll,List.elem_eq_contains,hmem]
  rw [List.eraseDups_append,List.eraseDups_append,h,hrest]

theorem eraseDups_append_known [BEq α] [LawfulBEq α] {xs ys : List α} (h : ys ⊆ xs) : (xs ++ ys).eraseDups = xs.eraseDups := by
  have hnone : ys.removeAll xs = [] := by
    rw [List.removeAll,List.filter_eq_nil_iff]
    intro y hy
    simp [h hy]
  rw [List.eraseDups_append,hnone,List.eraseDups_nil,List.append_nil]

theorem eraseDups_nodup [BEq α] [LawfulBEq α] (xs : List α) : xs.eraseDups.Nodup := by
  match xs with
  | [] => exact List.nodup_nil
  | x :: xs =>
    rw [List.eraseDups_cons,List.nodup_cons]
    refine ⟨fun h => ?_,eraseDups_nodup _⟩
    have hkept := (List.mem_filter.mp (List.mem_eraseDups.mp h)).2
    simp at hkept
termination_by xs.length
decreasing_by exact Nat.lt_succ_of_le (List.length_filter_le _ _)

theorem eraseDups_of_nodup [BEq α] [LawfulBEq α] {xs : List α} (h : xs.Nodup) : xs.eraseDups = xs := by
  induction xs with
  | nil => rfl
  | cons x xs ih =>
    obtain ⟨hx,hxs⟩ := List.nodup_cons.mp h
    have hall : xs.filter (fun y => !y == x) = xs := by
      refine List.filter_eq_self.mpr fun y hy => ?_
      have hne : y ≠ x := fun heq => hx (heq ▸ hy)
      simp [hne]
    rw [List.eraseDups_cons,hall,ih hxs]

/-- An element is found at its place by what tells it apart. -/
theorem findIdx?_eq_of_nodup [BEq β] [LawfulBEq β] {f : α → β} {l : List α} {i : Nat} {a : α}
    (h : (l.map f).Nodup) (hi : l[i]? = some a) : l.findIdx? (fun x => f x == f a) = some i := by
  obtain ⟨hlt,rfl⟩ := List.getElem?_eq_some_iff.mp hi
  rw [List.findIdx?_eq_some_iff_getElem]
  refine ⟨hlt,beq_self_eq_true _,fun j hji hsame => ?_⟩
  have hj : j < l.length := by omega
  have hne := List.pairwise_iff_getElem.mp h j i (by simpa using hj) (by simpa using hlt) hji
  simp only [List.getElem_map] at hne
  exact hne (beq_iff_eq.mp hsame)

/-- What is asked of one element alone finds that element. -/
theorem filter_eq_middle {p : α → Bool} {before after : List α} {x : α} (hx : p x = true)
    (hrest : ∀ y ∈ before ++ after, p y = false) : (before ++ x :: after).filter p = [x] := by
  have hnone (l : List α) (hl : ∀ y ∈ l, p y = false) : l.filter p = [] :=
    List.filter_eq_nil_iff.mpr fun y hy => by rw [hl y hy]; exact Bool.false_ne_true
  rw [List.forall_mem_append] at hrest
  rw [List.filter_append,List.filter_cons_of_pos hx,hnone before hrest.1,hnone after hrest.2,List.nil_append]

/-- What is asked of all elements but one leaves that one out. -/
theorem filter_eq_rest {p : α → Bool} {before after : List α} {x : α} (hx : p x = false)
    (hrest : ∀ y ∈ before ++ after, p y = true) : (before ++ x :: after).filter p = before ++ after := by
  rw [List.forall_mem_append] at hrest
  rw [List.filter_append,List.filter_cons_of_neg (by rw [hx]; exact Bool.false_ne_true),
    List.filter_eq_self.mpr hrest.1,List.filter_eq_self.mpr hrest.2]

/-- A list without repetitions is longer than one when it has two different elements. -/
theorem two_le_length_iff {l : List α} (h : l.Nodup) : 2 ≤ l.length ↔ ∃ x y, x ≠ y ∧ x ∈ l ∧ y ∈ l := by
  constructor
  · intro hlong
    match l, h, hlong with
    | x :: y :: l, h, _ =>
      have hne : x ≠ y := fun heq => (List.nodup_cons.mp h).1 (heq ▸ List.mem_cons_self)
      exact ⟨x,y,hne,List.mem_cons_self,List.mem_cons_of_mem _ List.mem_cons_self⟩
  · rintro ⟨x,y,hne,hx,hy⟩
    match l, hx, hy with
    | [z], hx, hy => exact absurd ((List.mem_singleton.mp hx).trans (List.mem_singleton.mp hy).symm) hne
    | _ :: _ :: _, _, _ => simp

/-- An entry is found under its name where names differ. -/
theorem lookup_of_nodup [BEq α] [LawfulBEq α] {l : List (α × β)} (h : (l.map (·.1)).Nodup) {entry : α × β}
    (hentry : entry ∈ l) : l.lookup entry.1 = some entry.2 := by
  induction l with
  | nil => cases hentry
  | cons first rest ih =>
    obtain ⟨hfirst,hrest⟩ := List.nodup_cons.mp h
    rcases List.mem_cons.mp hentry with rfl | hmem
    · exact List.lookup_cons_self
    · have hne : entry.1 ≠ first.1 := fun heq => hfirst (List.mem_map.mpr ⟨entry,hmem,heq⟩)
      rw [List.lookup_cons,beq_eq_false_iff_ne.mpr hne]
      exact ih hrest hmem

theorem mem_of_lookup [BEq α] [LawfulBEq α] {l : List (α × β)} {key : α} {x : β} (h : l.lookup key = some x) :
    (key, x) ∈ l := by
  obtain ⟨before,after,rfl,_⟩ := List.lookup_eq_some_iff.mp h
  exact List.mem_append_right _ List.mem_cons_self

theorem find?_reverse_cons (p : α → Bool) (x : α) (xs : List α) :
    (x :: xs).reverse.find? p = (xs.reverse.find? p).or (if p x then some x else none) := by
  rw [List.reverse_cons,List.find?_append]
  cases h : p x <;> simp [h]

/-- The first entry is the last of its name unless one further on has the name, which then goes before it. -/
theorem forall_last_cons {Q : String → String × β → Prop} {first : String × β} {rest : List (String × β)} :
    (∀ name entry, (first :: rest).reverse.find? (·.1 == name) = some entry → Q name entry) ↔
      (rest.any (·.1 == first.1) = true ∨ Q first.1 first) ∧
        ∀ name entry, rest.reverse.find? (·.1 == name) = some entry → Q name entry := by
  have hlater : rest.any (·.1 == first.1) = (rest.reverse.find? (·.1 == first.1)).isSome := by
    rw [Bool.eq_iff_iff,List.any_eq_true,List.find?_isSome]
    simp only [List.mem_reverse]
  simp only [find?_reverse_cons,hlater]
  constructor
  · intro hall
    refine ⟨?_,fun name entry hentry => hall name entry (by rw [hentry]; rfl)⟩
    cases hfound : rest.reverse.find? (·.1 == first.1) with
    | some found => exact .inl rfl
    | none => exact .inr (hall first.1 first (by rw [hfound,if_pos (beq_self_eq_true _)]; rfl))
  · rintro ⟨hfirst,hrest⟩ name entry hentry
    cases hfound : rest.reverse.find? (·.1 == name) with
    | some found =>
      rw [hfound] at hentry
      cases hentry
      exact hrest name _ hfound
    | none =>
      rw [hfound,Option.none_or,Option.ite_none_right_eq_some] at hentry
      obtain ⟨hname,⟨⟩⟩ := hentry
      obtain rfl := beq_iff_eq.mp hname
      exact hfirst.resolve_left (by rw [hfound]; exact Bool.false_ne_true)

section Places

variable {R : α → β → Prop} {xs : List α} {ys : List β}

theorem exists_right_of_forall₂ (h : List.Forall₂ R xs ys) {x : α} (hx : x ∈ xs) : ∃ y ∈ ys, R x y := by
  induction h with
  | nil => simp at hx
  | cons hR _ ih =>
    rcases List.mem_cons.mp hx with rfl | hx
    · exact ⟨_,List.mem_cons_self,hR⟩
    · obtain ⟨y,hy,hR⟩ := ih hx
      exact ⟨y,List.mem_cons_of_mem _ hy,hR⟩

theorem exists_left_of_forall₂ (h : List.Forall₂ R xs ys) {y : β} (hy : y ∈ ys) : ∃ x ∈ xs, R x y := by
  obtain ⟨x,hx,hR⟩ := exists_right_of_forall₂ h.flip hy
  exact ⟨x,hx,hR⟩

/-- Where every element is matched with one of a list that is no longer, and no two with the same, all of that list are
matched. -/
theorem exists_matched (hlength : ys.length ≤ xs.length) (hmatch : ∀ x ∈ xs, ∃ y ∈ ys, R x y)
    (hdistinct : xs.Pairwise fun x x' => ∀ y ∈ ys, R x y → ¬R x' y) : ∀ y ∈ ys, ∃ x ∈ xs, R x y := by
  induction xs generalizing ys with
  | nil =>
    rw [List.length_eq_zero_iff.mp (Nat.le_zero.mp hlength)]
    exact fun _ h => nomatch h
  | cons x xs ih =>
    obtain ⟨hfirst,hrest⟩ := List.pairwise_cons.mp hdistinct
    obtain ⟨y,hy,hxy⟩ := hmatch x List.mem_cons_self
    obtain ⟨before,after,rfl⟩ := List.append_of_mem hy
    -- the other elements are matched with what is left when the match of the first is taken out
    have hleft : before ++ after ⊆ before ++ y :: after := ((List.sublist_cons_self y after).append_left before).subset
    have hothers : ∀ x' ∈ xs, ∃ z ∈ before ++ after, R x' z := by
      intro x' hx'
      obtain ⟨z,hz,hx'z⟩ := hmatch x' (List.mem_cons_of_mem _ hx')
      have hzy : z ≠ y := fun heq => hfirst x' hx' y hy hxy (heq ▸ hx'z)
      simp only [List.mem_append,List.mem_cons,hzy,false_or] at hz
      exact ⟨z,List.mem_append.mpr hz,hx'z⟩
    have hfound := ih (by simp at hlength ⊢; omega) hothers (hrest.imp fun h z hz => h z (hleft hz))
    intro z hz
    by_cases hzy : z = y
    · exact ⟨x,List.mem_cons_self,hzy ▸ hxy⟩
    · simp only [List.mem_append,List.mem_cons,hzy,false_or] at hz
      obtain ⟨x',hx',hx'z⟩ := hfound z (List.mem_append.mpr hz)
      exact ⟨x',List.mem_cons_of_mem _ hx',hx'z⟩

/-- Elements that are all related to something are related, in their order, to a list of such. -/
theorem forall₂_of_forall (h : ∀ x ∈ xs, ∃ y, R x y) : ∃ ys, List.Forall₂ R xs ys := by
  induction xs with
  | nil => exact ⟨[],.nil⟩
  | cons x xs ih =>
    obtain ⟨y,hy⟩ := h x List.mem_cons_self
    obtain ⟨ys,hys⟩ := ih fun x' hx => h x' (List.mem_cons_of_mem x hx)
    exact ⟨y :: ys,.cons hy hys⟩

theorem map_eq_of_forall₂ {γ : Type} {f : α → γ} {g : β → γ} (h : List.Forall₂ R xs ys)
    (same : ∀ x y, R x y → f x = g y) : xs.map f = ys.map g := by
  induction h with
  | nil => rfl
  | cons hR _ ih => rw [List.map_cons,List.map_cons,same _ _ hR,ih]

theorem getElem?_of_forall₂ (h : List.Forall₂ R xs ys) {i : Nat} {y : β} (hy : ys[i]? = some y) :
    ∃ x, xs[i]? = some x ∧ R x y := by
  induction h generalizing i with
  | nil => simp at hy
  | cons hR _ ih =>
    cases i with
    | zero =>
      cases Option.some.inj hy
      exact ⟨_,rfl,hR⟩
    | succ i => exact ih hy

/-- A list that agrees with another still does when an element is replaced by one that agrees. -/
theorem forall₂_set (h : List.Forall₂ R xs ys) (i : Nat) {y : β} (hy : ∀ x, xs[i]? = some x → R x y) :
    List.Forall₂ R xs (ys.set i y) := by
  induction h generalizing i with
  | nil => exact .nil
  | cons hR hrest ih =>
    cases i with
    | zero => exact .cons (hy _ rfl) hrest
    | succ i => exact .cons hR (ih i hy)

/-- A list that agrees with one that has an element in it has an element at the same place. -/
theorem exists_middle_of_forall₂ {before after : List α} {x : α} (h : List.Forall₂ R (before ++ x :: after) ys) :
    ∃ before' y after', ys = before' ++ y :: after' ∧ List.Forall₂ R before before' ∧ R x y ∧
      List.Forall₂ R after after' := by
  induction before generalizing ys with
  | nil =>
    obtain ⟨y,after',hR,hafter,rfl⟩ := List.forall₂_cons_left_iff.mp h
    exact ⟨[],y,after',rfl,.nil,hR,hafter⟩
  | cons z rest ih =>
    obtain ⟨w,ws,hzw,hrest,rfl⟩ := List.forall₂_cons_left_iff.mp h
    obtain ⟨before',y,after',rfl,hbefore,hR,hafter⟩ := ih hrest
    exact ⟨w :: before',y,after',rfl,.cons hzw hbefore,hR,hafter⟩

/-- What sets the elements of one list apart, sets apart those of a list that agrees with it. -/
theorem pairwise_of_forall₂ {S : β → β → Prop} {T : α → α → Prop} (h : List.Forall₂ R xs ys)
    (hys : ys.Pairwise S) (hapart : ∀ x y x' y', R x y → R x' y' → S y y' → T x x') : xs.Pairwise T := by
  induction h with
  | nil => exact .nil
  | cons hR hrest ih =>
    obtain ⟨hfirst,hys⟩ := List.pairwise_cons.mp hys
    refine .cons (fun x hx => ?_) (ih hys)
    obtain ⟨y,hy,hR'⟩ := exists_right_of_forall₂ hrest hx
    exact hapart _ _ _ _ hR hR' (hfirst y hy)

end Places

theorem forall₂_of_map_eq {α β : Type} {f : α → β} {xs ys : List α} (h : xs.map f = ys.map f) :
    List.Forall₂ (fun x y => f x = f y) xs ys := by
  rwa [← List.forall₂_map_left_iff (R := fun b y => b = f y),← List.forall₂_map_right_iff (R := fun b c => b = c),
    List.forall₂_eq_eq_eq]

theorem forall₂_map_map {γ δ : Type} {R : γ → δ → Prop} {f : α → γ} {g : α → δ} {xs : List α}
    (h : ∀ x ∈ xs, R (f x) (g x)) : List.Forall₂ R (xs.map f) (xs.map g) := by
  rw [List.forall₂_map_left_iff,List.forall₂_map_right_iff,List.forall₂_same]
  exact h

/-- Two lists agree place by place with one between them. -/
theorem forall₂_comp {γ : Type} {R : α → β → Prop} {S : β → γ → Prop} {T : α → γ → Prop} {as : List α} {bs : List β}
    {cs : List γ} (has : List.Forall₂ R as bs) (hbs : List.Forall₂ S bs cs) (h : ∀ a b c, R a b → S b c → T a c) :
    List.Forall₂ T as cs := by
  induction has generalizing cs with
  | nil =>
    cases hbs
    exact .nil
  | cons ha _ ih =>
    cases hbs with
    | cons hb hbs => exact .cons (h _ _ _ ha hb) (ih hbs)

/-- Two lists agree place by place when what they stand for does. -/
theorem forall₂_through {γ δ : Type} {R : α → γ → Prop} {S : β → δ → Prop} {T : γ → δ → Prop} {as : List α}
    {bs : List β} {cs : List γ} {ds : List δ} (has : List.Forall₂ R as cs) (hbs : List.Forall₂ S bs ds)
    (h : List.Forall₂ T cs ds) : List.Forall₂ (fun a b => ∃ c d, R a c ∧ S b d ∧ T c d) as bs := by
  induction h generalizing as bs with
  | nil =>
    cases has
    cases hbs
    exact .nil
  | cons hhead _ ih =>
    cases has with
    | cons ha has =>
      cases hbs with
      | cons hb hbs => exact .cons ⟨_,_,ha,hb,hhead⟩ (ih has hbs)

section Sorting

variable {le : α → α → Bool} {p : α → Bool} {l : List α}
variable (trans : ∀ a b c, le a b = true → le b c = true → le a c = true) (total : ∀ a b, (le a b || le b a) = true)
variable (equal : ∀ a b, p a = true → p b = true → le a b = true)

include trans total equal

/-- Sorting leaves the order of elements that are equal in it. -/
theorem filter_mergeSort : (l.mergeSort le).filter p = l.filter p := by
  have hsorted : (l.filter p).Pairwise fun a b => le a b = true :=
    List.pairwise_of_forall_mem_list fun a ha b hb => equal a b (List.mem_filter.mp ha).2 (List.mem_filter.mp hb).2
  have hsublist := (List.sublist_mergeSort trans total hsorted List.filter_sublist).filter p
  have hlength := ((List.mergeSort_perm l le).filter p).length_eq
  rw [List.filter_filter] at hsublist
  simp only [Bool.and_self] at hsublist
  exact (hsublist.eq_of_length hlength.symm).symm

/-- The first of elements that are equal in an order is the first after sorting by it. -/
theorem find?_mergeSort : (l.mergeSort le).find? p = l.find? p := by
  rw [← List.head?_filter,← List.head?_filter,filter_mergeSort trans total equal]

end Sorting

/-- What is asked alike of lists that agree place by place finds elements of one place. -/
theorem find?_of_forall₂ {R : α → β → Prop} {p : α → Bool} {q : β → Bool} {xs : List α} {ys : List β}
    (h : List.Forall₂ R xs ys) (hsame : ∀ x y, R x y → p x = q y) :
    xs.find? p = none ∧ ys.find? q = none ∨
      ∃ x y, xs.find? p = some x ∧ ys.find? q = some y ∧ (x, y) ∈ xs.zip ys := by
  induction h with
  | nil => exact .inl ⟨rfl,rfl⟩
  | @cons x y xs ys hxy _ ih =>
    cases hp : p x with
    | true =>
      have hq : q y = true := (hsame x y hxy).symm.trans hp
      exact .inr ⟨x,y,List.find?_cons_of_pos hp,List.find?_cons_of_pos hq,List.mem_cons_self⟩
    | false =>
      have hq : q y = false := (hsame x y hxy).symm.trans hp
      rw [List.find?_cons_of_neg (by simp [hp]),List.find?_cons_of_neg (by simp [hq])]
      rcases ih with hnone | ⟨a,b,ha,hb,hab⟩
      · exact .inl hnone
      · exact .inr ⟨a,b,ha,hb,List.mem_cons_of_mem _ hab⟩

end Trischema
