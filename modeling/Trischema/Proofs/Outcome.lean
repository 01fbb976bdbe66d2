import Mathlib.Data.List.Forall2

/-!
Outcomes of computations that may fail: what a chain of them that succeeds is made of.
-/

namespace Trischema

variable {ε α β : Type}

theorem ok_bind (a : α) (f : α → Except ε β) : Except.ok a >>= f = f a := rfl

theorem bind_eq_ok {x : Except ε α} {f : α → Except ε β} {b : β} :
    x >>= f = .ok b ↔ ∃ a, x = .ok a ∧ f a = .ok b := by
  cases x <;> simp [bind,Except.bind]

theorem bind_eq_error {x : Except ε α} {f : α → Except ε β} {e : ε} :
    x >>= f = .error e ↔ x = .error e ∨ ∃ a, x = .ok a ∧ f a = .error e := by
  cases x <;> simp [bind,Except.bind]

theorem pure_eq_ok {a b : α} : (pure a : Except ε α) = .ok b ↔ a = b := by
  simp [pure,Except.pure]

theorem map_eq_ok {f : α → β} {x : Except ε α} {b : β} : x.map f = .ok b ↔ ∃ a, x = .ok a ∧ f a = b := by
  cases x <;> simp [Except.map]

theorem map_eq_error {f : α → β} {x : Except ε α} {e : ε} : x.map f = .error e ↔ x = .error e := by
  cases x <;> simp [Except.map]

theorem exists_ok_of_any {x : Except ε α} {p : α → Bool} (h : x.toOption.any p = true) :
    ∃ a, x = .ok a ∧ p a = true := by
  cases x with
  | error e => cases h
  | ok a => exact ⟨a,rfl,h⟩

theorem exists_ok_of_isOk {x : Except ε α} (h : x.isOk = true) : ∃ a, x = .ok a := by
  cases x with
  | error e => cases h
  | ok a => exact ⟨a,rfl⟩

/-- A list is mapped when every element is, one after another. -/
theorem mapM_eq_ok {f : α → Except ε β} {xs : List α} {ys : List β} :
    xs.mapM f = .ok ys ↔ List.Forall₂ (fun x y => f x = .ok y) xs ys := by
  induction xs generalizing ys with
  | nil => rw [List.mapM_nil,pure_eq_ok,List.forall₂_nil_left_iff,eq_comm]
  | cons x xs ih =>
    simp only [List.mapM_cons,bind_eq_ok,pure_eq_ok,List.forall₂_cons_left_iff,ih]
    constructor
    · rintro ⟨y,hy,zs,hzs,rfl⟩
      exact ⟨y,zs,hy,hzs,rfl⟩
    · rintro ⟨y,zs,hy,hzs,rfl⟩
      exact ⟨y,hy,zs,hzs,rfl⟩

/-- A list that cannot be mapped has an element that cannot be mapped. -/
theorem exists_of_mapM_error {f : α → Except ε β} {xs : List α} {e : ε} (h : xs.mapM f = .error e) :
    ∃ x ∈ xs, f x = .error e := by
  induction xs with
  | nil => cases h
  | cons x xs ih =>
    rw [List.mapM_cons] at h
    rcases bind_eq_error.mp h with hx | ⟨y,_,h⟩
    · exact ⟨x,List.mem_cons_self,hx⟩
    · rcases bind_eq_error.mp h with hxs | ⟨ys,_,h⟩
      · obtain ⟨x',hx',hfails⟩ := ih hxs
        exact ⟨x',List.mem_cons_of_mem _ hx',hfails⟩
      · cases h

theorem exists_ok_of_no_error {x : Except ε α} (h : ∀ e, x ≠ .error e) : ∃ a, x = .ok a := by
  cases x with
  | error e => exact absurd rfl (h e)
  | ok a => exact ⟨a,rfl⟩

section Views

variable {γ δ : Type}

/-- Two computations that are alike in some view go on alike with what depends on that view alone. -/
theorem bind_eq_of_map_eq {x : Except ε α} {y : Except ε β} {f : α → γ} {g : β → γ} {k : α → Except ε δ}
    {l : β → Except ε δ} (h : x.map f = y.map g) (hnext : ∀ a b, f a = g b → k a = l b) : x >>= k = y >>= l := by
  match x, y with
  | .error e, .error e' =>
    have herror : e = e' := Except.error.inj h
    rw [herror]
    rfl
  | .ok a, .ok b => exact hnext a b (Except.ok.inj h)
  | .error _, .ok _ | .ok _, .error _ => cases h

theorem map_bind_eq {x : Except ε α} {k : α → Except ε β} {f : β → γ} :
    (x >>= k).map f = x >>= fun a => (k a).map f := by
  cases x <;> rfl

/-- Lists whose elements are mapped alike in some view are mapped alike in it. -/
theorem mapM_map_eq {f : α → Except ε γ} {g : β → Except ε γ} {view : γ → δ} {xs : List α} {ys : List β}
    (h : List.Forall₂ (fun x y => (f x).map view = (g y).map view) xs ys) :
    (xs.mapM f).map (List.map view) = (ys.mapM g).map (List.map view) := by
  induction h with
  | nil => rfl
  | @cons x y xs ys hhead _ ih =>
    rw [List.mapM_cons,List.mapM_cons,map_bind_eq,map_bind_eq]
    refine bind_eq_of_map_eq hhead fun a b hview => ?_
    rw [map_bind_eq,map_bind_eq]
    refine bind_eq_of_map_eq ih fun as bs hviews => ?_
    change Except.ok (view a :: as.map view) = Except.ok (view b :: bs.map view)
    rw [hview,hviews]

theorem mapM_eq_of_forall₂ {f : α → Except ε γ} {g : β → Except ε γ} {xs : List α} {ys : List β}
    (h : List.Forall₂ (fun x y => f x = g y) xs ys) : xs.mapM f = ys.mapM g := by
  induction h with
  | nil => rfl
  | cons hhead _ ih => rw [List.mapM_cons,List.mapM_cons,hhead,ih]

end Views

end Trischema
