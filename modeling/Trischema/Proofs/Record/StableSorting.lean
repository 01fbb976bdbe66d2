import Mathlib.Data.List.Basic
import Trischema.Proofs.Lists

/-!
Stable sorts. A list is sorted by a comparison when it holds the same elements, none before one that it comes after, and
elements that the comparison does not tell apart in the order that they had. There is one such list for every
comparison that looks the same from both sides. Sorting what is sorted by another comparison sorts by both, the later
one first, and what is left out on both sides leaves a sorted list sorted.
-/

namespace Trischema

variable {α : Type}

/-- `ys` is `xs` sorted by `cmp`, with elements that it does not tell apart in the order that they had. -/
structure IsStableSort (cmp : α → α → Ordering) (xs ys : List α) : Prop where
  perm : ys.Perm xs
  sorted : ys.Pairwise fun a b => (cmp a b).isLE = true
  stable : ∀ a, (ys.filter fun b => cmp a b == .eq) = xs.filter fun b => cmp a b == .eq

variable {cmp cmp₁ cmp₂ : α → α → Ordering} {xs ys zs : List α}

theorem isStableSort_mergeSort (cmp : α → α → Ordering) [Std.TransCmp cmp] (xs : List α) :
    IsStableSort cmp xs (xs.mergeSort fun a b => (cmp a b).isLE) := by
  have trans (a b c : α) (hab : (cmp a b).isLE = true) (hbc : (cmp b c).isLE = true) : (cmp a c).isLE = true :=
    Std.TransCmp.isLE_trans hab hbc
  have total (a b : α) : ((cmp a b).isLE || (cmp b a).isLE) = true := by
    have hswap : cmp b a = (cmp a b).swap := Std.OrientedCmp.eq_swap
    rw [hswap]
    cases cmp a b <;> rfl
  refine ⟨List.mergeSort_perm _ _,List.pairwise_mergeSort trans total xs,fun a => ?_⟩
  refine filter_mergeSort trans total fun b c hb hc => ?_
  have hab : cmp a b = .eq := beq_iff_eq.mp hb
  have hac : cmp a c = .eq := beq_iff_eq.mp hc
  rw [← Std.TransCmp.congr_left hab,hac]
  rfl

/-- A list that is in order is left as it is. -/
theorem isStableSort_self (h : xs.Pairwise fun a b => (cmp a b).isLE = true) : IsStableSort cmp xs xs :=
  ⟨List.Perm.refl xs,h,fun _ => rfl⟩

namespace IsStableSort

/-- A list that is sorted from its end is sorted the other way round. -/
theorem reverse [Std.OrientedCmp cmp] (h : IsStableSort cmp xs.reverse ys) :
    IsStableSort (fun a b => cmp b a) xs ys.reverse := by
  refine ⟨?_,List.pairwise_reverse.mpr h.sorted,fun a => ?_⟩
  · exact (List.reverse_perm ys).trans (h.perm.trans (List.reverse_perm xs))
  · have htied (b : α) : (cmp b a == .eq) = (cmp a b == .eq) := by
      have hswap : cmp b a = (cmp a b).swap := Std.OrientedCmp.eq_swap
      rw [hswap]
      cases cmp a b <;> rfl
    simp only [htied]
    rw [List.filter_reverse,h.stable a,List.filter_reverse,List.reverse_reverse]

/-- What two comparisons together do not tell apart is what each of them does not. -/
theorem filter_lex (a : α) (xs : List α) : (xs.filter fun b => compareLex cmp₁ cmp₂ a b == .eq) =
    (xs.filter fun b => cmp₁ a b == .eq).filter fun b => cmp₂ a b == .eq := by
  rw [List.filter_filter]
  refine List.filter_congr fun b _ => ?_
  rw [compareLex]
  cases cmp₁ a b <;> cases cmp₂ a b <;> rfl

/-- Sorting what is sorted by another comparison sorts by both. -/
theorem lex [Std.ReflCmp cmp₁] (hsecond : IsStableSort cmp₂ xs ys) (hfirst : IsStableSort cmp₁ ys zs) :
    IsStableSort (compareLex cmp₁ cmp₂) xs zs := by
  refine ⟨hfirst.perm.trans hsecond.perm,?_,fun a => ?_⟩
  · rw [List.pairwise_iff_forall_sublist]
    intro a b hab
    have hle := List.pairwise_iff_forall_sublist.mp hfirst.sorted hab
    rw [compareLex]
    cases hcmp : cmp₁ a b with
    | lt => rfl
    | gt =>
      rw [hcmp] at hle
      cases hle
    | eq =>
      -- Elements that the later comparison ties are in the order that the earlier one gave them.
      have hself : cmp₁ a a = .eq := Std.ReflCmp.compare_self
      have hboth : [a,b].filter (fun c => cmp₁ a c == .eq) = [a,b] := by simp [hself,hcmp]
      have htied := hab.filter fun c => cmp₁ a c == .eq
      rw [hboth,hfirst.stable a] at htied
      exact List.pairwise_iff_forall_sublist.mp hsecond.sorted (htied.trans List.filter_sublist)
  · rw [filter_lex,filter_lex,hfirst.stable a,List.filter_comm,hsecond.stable a,List.filter_comm]

/-- Leaving elements out commutes with sorting. -/
theorem filter (h : IsStableSort cmp xs ys) (p : α → Bool) : IsStableSort cmp (xs.filter p) (ys.filter p) := by
  refine ⟨h.perm.filter p,h.sorted.filter p,fun a => ?_⟩
  rw [List.filter_comm,h.stable a,List.filter_comm]

/-- The elements of two sorted lists are the same, place by place. -/
theorem eq_of_ties [Std.OrientedCmp cmp] (hperm : ys.Perm zs) (hys : ys.Pairwise fun a b => (cmp a b).isLE = true)
    (hzs : zs.Pairwise fun a b => (cmp a b).isLE = true)
    (hties : ∀ a, (ys.filter fun b => cmp a b == .eq) = zs.filter fun b => cmp a b == .eq) : ys = zs := by
  induction ys generalizing zs with
  | nil => exact hperm.nil_eq
  | cons y ys ih =>
    cases zs with
    | nil => exact absurd hperm.length_eq (by simp)
    | cons z zs =>
      obtain ⟨hy,hysRest⟩ := List.pairwise_cons.mp hys
      obtain ⟨hz,hzsRest⟩ := List.pairwise_cons.mp hzs
      have hself : cmp y y = .eq := Std.ReflCmp.compare_self
      have hhead : y = z := by
        rcases List.mem_cons.mp (hperm.mem_iff.mpr List.mem_cons_self) with heq | hzmem
        · exact heq.symm
        rcases List.mem_cons.mp (hperm.mem_iff.mp List.mem_cons_self) with heq | hymem
        · exact heq
        -- Each of the two is at or before the other, and the first of those that are tied is the same in both lists.
        have htied : cmp y z = .eq := Std.OrientedCmp.isLE_antisymm (hy z hzmem) (hz y hymem)
        have hfirst := hties y
        rw [List.filter_cons_of_pos (by simp [hself]),List.filter_cons_of_pos (by simp [htied])] at hfirst
        exact (List.cons.inj hfirst).1
      subst hhead
      have hrest (a : α) : (ys.filter fun b => cmp a b == .eq) = zs.filter fun b => cmp a b == .eq := by
        have hall := hties a
        rw [List.filter_cons,List.filter_cons] at hall
        cases hya : cmp a y == .eq with
        | true => simpa [hya] using hall
        | false => simpa [hya] using hall
      rw [ih hperm.cons_inv hysRest hzsRest hrest]

theorem unique [Std.OrientedCmp cmp] (hys : IsStableSort cmp xs ys) (hzs : IsStableSort cmp xs zs) : ys = zs :=
  eq_of_ties (hys.perm.trans hzs.perm.symm) hys.sorted hzs.sorted fun a => (hys.stable a).trans (hzs.stable a).symm

/-- Of two elements the one that comes before the other in the order stands before it. -/
theorem sublist_of_lt [Std.OrientedCmp cmp] (h : IsStableSort cmp xs ys) {a b : α} (ha : a ∈ xs) (hb : b ∈ xs)
    (hlt : cmp a b = .lt) : [a,b].Sublist ys := by
  obtain ⟨before,after,rfl⟩ := List.append_of_mem (h.perm.mem_iff.mpr ha)
  have hself : cmp a a = .eq := Std.ReflCmp.compare_self
  have hback : cmp b a = .gt := Std.OrientedCmp.gt_of_lt hlt
  rcases List.mem_append.mp (h.perm.mem_iff.mpr hb) with hbefore | hrest
  · have hle := (List.pairwise_append.mp h.sorted).2.2 b hbefore a List.mem_cons_self
    rw [hback] at hle
    cases hle
  · rcases List.mem_cons.mp hrest with rfl | hafter
    · rw [hself] at hlt
      cases hlt
    · exact ((List.singleton_sublist.mpr hafter).cons_cons a).trans (List.sublist_append_right before (a :: after))

end IsStableSort

end Trischema
