import Trischema.Classification
import Trischema.Proofs.Outcome

/-!
What a type is classified as. Values that are given restrict it, one that is no link is not classified as one, and it
stays classified as it was when more classes are embeddable.
-/

namespace Trischema

variable {embeddable wider : Class Value → Bool} {given : Option (List Value)} {vs : List Value} {t : TypeExpr Value}

namespace Element

variable {e : Element}

theorem classify_given (h : classify embeddable (some vs) t = .ok e) : e.values? = some vs := by
  cases Except.ok.inj h
  split <;> rfl

theorem classify_wider (hwider : ∀ c, embeddable c = true → wider c = true) (h : classify embeddable given t = .ok e) :
    classify wider given t = .ok e := by
  rw [classify.eq_def] at h ⊢
  split at h
  · exact h
  · exact h
  · split at h
    · exact h
    · split at h
      · rename_i c _ _
        -- the only branch that asks whether a class is embeddable
        split at h
        · rename_i hidentifier
          rw [if_pos hidentifier]
          exact h
        · rename_i hidentifier
          split at h
          · rename_i hembeddable
            rw [if_neg hidentifier,if_pos (hwider c hembeddable)]
            exact h
          · cases h
      · exact h
      · exact h

end Element

namespace Classification

variable {k : Classification}

/-- A type that is no link is not classified as one. -/
theorem ofType_ne_relationship {rel : Relationship Value} : ofType embeddable given t ≠ .ok (.relationship rel) := by
  intro h
  rw [ofType] at h
  split at h
  · cases h
  · split at h
    · cases h
    · obtain ⟨_,_,h⟩ := map_eq_ok.mp h
      cases h
    · obtain ⟨_,_,h⟩ := map_eq_ok.mp h
      cases h
    · split at h <;> cases h

/-- Values that are given restrict a property, or the elements of an array, whatever its type. -/
theorem ofType_given (h : ofType embeddable (some vs) t = .ok k) : k.values? = some vs := by
  fun_induction ofType embeddable (some vs) t generalizing k with
  | case1 t fault hunwrap => cases h
  | case2 t u _ hunwrap fault hform => cases h
  | case3 t u _ hunwrap hform =>
    obtain ⟨e,he,rfl⟩ := map_eq_ok.mp h
    exact Element.classify_given he
  | case4 t u _ hunwrap hform =>
    obtain ⟨e,he,rfl⟩ := map_eq_ok.mp h
    exact Element.classify_given he
  | case5 t u _ hunwrap element hform fault helement ih => cases h
  | case6 t u _ hunwrap element hform inner helement ih =>
    have hinner := ih helement
    cases h
    exact hinner
  | case7 t u _ hunwrap element hform k' helement hnested ih => cases h

/-- A type whose form is known is classified by its form. -/
theorem ofType_of_form {u : TypeExpr Value} {b : Bool} {form : ArrayForm} (hunwrap : t.unwrapOptional = .ok (u, b)) :
    u.arrayForm = .ok form → ofType embeddable given t =
      match form with
      | .none => (Element.classify embeddable given u).map .single
      | .untyped => (Element.classify embeddable given (.builtin .object)).map .array
      | .typed e =>
        match ofType embeddable given e with
        | .error fault => .error fault
        | .ok (.single inner) => .ok (.array inner)
        | .ok _ => .error (.nestedArray u.listing) := by
  intro hform
  rw [ofType]
  split
  · rename_i hfault
    cases hfault.symm.trans hunwrap
  · rename_i hunwrap'
    cases hunwrap'.symm.trans hunwrap
    split <;> rename_i hform' <;> cases hform'.symm.trans hform <;> rfl

/-- A type that was classified is classified alike where more classes are embeddable. -/
theorem ofType_wider (hwider : ∀ c, embeddable c = true → wider c = true) (h : ofType embeddable given t = .ok k) :
    ofType wider given t = .ok k := by
  fun_induction ofType embeddable given t generalizing k with
  | case1 t fault hunwrap => cases h
  | case2 t u _ hunwrap fault hform => cases h
  | case3 t u _ hunwrap hform =>
    obtain ⟨e,he,rfl⟩ := map_eq_ok.mp h
    rw [ofType_of_form hunwrap hform,Element.classify_wider hwider he]
    rfl
  | case4 t u _ hunwrap hform =>
    obtain ⟨e,he,rfl⟩ := map_eq_ok.mp h
    rw [ofType_of_form hunwrap hform,Element.classify_wider hwider he]
    rfl
  | case5 t u _ hunwrap element hform fault helement ih => cases h
  | case6 t u _ hunwrap element hform inner helement ih =>
    rw [ofType_of_form hunwrap hform]
    dsimp only
    rw [ih helement]
    exact h
  | case7 t u _ hunwrap element hform k' helement hnested ih => cases h

theorem ofProperty_wider (hwider : ∀ c, embeddable c = true → wider c = true) {rel? : Option (Relationship Value)}
    (h : ofProperty embeddable given rel? t = .ok k) : ofProperty wider given rel? t = .ok k := by
  cases rel? with
  | some rel => exact h
  | none => exact ofType_wider hwider h

end Classification

end Trischema
